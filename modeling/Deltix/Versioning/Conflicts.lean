import Deltix.Text.Split

/-
  What the tables of a merge conflict say, as the services
  read it out of the CSV that the binary prints.

  Key definitions include:
    * `parseCsvLine`
    * `parseCsv`
    * `buildConflictRow`
-/

namespace Versioning

open Text

/- Read a line, with the values and the value begun so far. -/
def parseCsvFields :
    (values : List String) → (current : List Char) →
      (inQuotes : Bool) → List Char → List String
  | values, current, _, [] =>
      values ++ [String.ofList current]
  | values, current, true, '"' :: '"' :: rest =>
      parseCsvFields values (current ++ ['"']) true rest
  | values, current, inQuotes, char :: rest =>
      if char = '"' then
        parseCsvFields values current (!inQuotes) rest
      else if char = ',' && !inQuotes then
        parseCsvFields (values ++ [String.ofList current]) []
          false rest
      else
        parseCsvFields values (current ++ [char]) inQuotes rest

def parseCsvLine (line : List Char) : List String :=
  parseCsvFields [] [] false line

/- A row under the names of its columns. -/
abbrev CsvRow : Type :=
  List (String × String)

/- Setting the prototype to a text sets nothing. -/
def CsvRow.set (row : CsvRow) (key value : String) : CsvRow :=
  if key = "__proto__" then row
  else if row.any fun entry => entry.1 = key then
    row.map fun entry =>
      if entry.1 = key then (key, value) else entry
  else row ++ [(key, value)]

def CsvRow.get? (row : CsvRow) (key : String) :
    Option String :=
  (row.find? fun entry => entry.1 = key).map Prod.snd

/- A missing value is empty, and one too many is left out. -/
def csvRow :
    CsvRow → (header values : List String) → CsvRow
  | row, [], _ => row
  | row, key :: header, [] => csvRow (row.set key "") header []
  | row, key :: header, value :: values =>
      csvRow (row.set key value) header values

def csvLines (stdout : String) : List (List Char) :=
  ((split '\n' (trimChars stdout.toList)).map
    trimChars).filter fun line => line ≠ []

def parseCsv (stdout : String) : List CsvRow :=
  match csvLines stdout with
  | [] => []
  | headerLine :: dataLines =>
      dataLines.map fun line =>
        csvRow [] (parseCsvLine headerLine) (parseCsvLine line)

structure MergeConflictRow where
  fromRootIsh : Option String
  base : List (String × Option String)
  ours : List (String × Option String)
  theirs : List (String × Option String)
  ourDiffType : Option String
  theirDiffType : Option String
  conflictId : Option String
  deriving DecidableEq, Repr

/- The number that a text stands for, or how many there are. -/
inductive ConflictCount where
  | written (text : String)
  | counted (n : Nat)
  deriving DecidableEq, Repr

structure MergeConflictTable where
  table : String
  count : ConflictCount
  conflicts : List MergeConflictRow
  deriving DecidableEq, Repr

def toNullable : Option String → Option String
  | none => none
  | some value =>
      if value = "" ||
          value.toList.map Char.toUpper = "NULL".toList then
        none
      else some value

/- The columns of one side, without the name of the side.
   Setting the prototype sets no column. -/
def sideColumns
    (side : String)
    (left : List String)
    (detailRow : CsvRow) : List (String × Option String) :=
  detailRow.filterMap fun entry =>
    if left.contains entry.1 then none
    else
      (entry.1.toList.dropPrefix? side.toList).bind fun name =>
        if String.ofList name = "__proto__" then none
        else
          some (String.ofList name, toNullable (some entry.2))

def buildConflictRow (detailRow : CsvRow) :
    MergeConflictRow where
  fromRootIsh := toNullable (detailRow.get? "from_root_ish")
  base := sideColumns "base_" [] detailRow
  ours := sideColumns "our_" ["our_diff_type"] detailRow
  theirs := sideColumns "their_" ["their_diff_type"] detailRow
  ourDiffType := toNullable (detailRow.get? "our_diff_type")
  theirDiffType :=
    toNullable (detailRow.get? "their_diff_type")
  conflictId := toNullable (detailRow.get? "dolt_conflict_id")

example :
    (parseCsv "table,num_conflicts\n\"a,\"\"b\",2\n").map
        (fun row => row.get? "table") =
      [some "a,\"b"] := by
  decide

end Versioning
