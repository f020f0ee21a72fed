import Deltix.Text.Csv
import Deltix.Versioning.Conflicts
import Mathlib.Algebra.GroupWithZero.Nat
import Mathlib.Data.List.Perm.Subperm

/-
  What the adapters read out of a CSV text that the binary
  has printed.

  The parser takes a text apart into lines, and trims them,
  before it looks at a quote.

  Key definitions include:
    * `encodeCsv`
    * `RowOf`
    * `Decodes`
    * `Decodable`

  Key theorems include:
    * `parseCsvLine_printCells`
    * `map_get?_csvRow`
    * `decodes_iff`
-/

namespace Versioning

open Text

namespace DoltLogCli

def parseCsv : String → List CsvRow :=
  Versioning.parseCsv

end DoltLogCli

namespace DoltDiffCli

def parseCsv : String → List CsvRow :=
  Versioning.parseCsv

end DoltDiffCli

namespace DoltMergeCli

def parseCsv : String → List CsvRow :=
  Versioning.parseCsv

end DoltMergeCli

/- A table as a writer of the format prints it. -/
def encodeCsv
    (style : Csv.Style)
    (header : List String)
    (rows : List (List String)) : String :=
  String.ofList
    (style.encode
      ((header :: rows).map fun record =>
        record.map String.toList))

/- The record of a row: its values, and nothing else. -/
def RowOf
    (header row : List String)
    (record : CsvRow) : Prop :=
  header.map record.get? = row.map some ∧
    ∀ key, key ∉ header → record.get? key = none

def Decodes
    (records : List CsvRow)
    (header : List String)
    (rows : List (List String)) : Prop :=
  List.Forall₂ (RowOf header) rows records

def lineOf
    (style : Csv.Style)
    (record : List String) : List Char :=
  style.record (record.map String.toList)

/- The line of a record is not blank, and there is no white
   space around it. -/
def Solid
    (style : Csv.Style)
    (record : List String) : Prop :=
  lineOf style record ≠ [] ∧
    trimChars (lineOf style record) = lineOf style record

def OneLine (record : List String) : Prop :=
  ∀ value ∈ record, '\n' ∉ value.toList

/- What the parser can be given back. -/
structure Decodable
    (style : Csv.Style)
    (header : List String)
    (rows : List (List String)) : Prop where
  headerLine : OneLine header
  rowLines : ∀ row ∈ rows, OneLine row
  solidHeader : rows ≠ [] → Solid style header
  solidRows : ∀ row ∈ rows, Solid style row
  noPrototype : rows ≠ [] → "__proto__" ∉ header

------------------------------------------------------------
-- Reading A Line
------------------------------------------------------------

variable {values : List String} {current text : List Char}
variable {rest line : List Char}

/- Characters that are not special are read as they are. -/
theorem parseCsvFields_plain
    (rest : List Char)
    (hPlain : ∀ c ∈ text, Csv.isSpecial c = false) :
    parseCsvFields values current false (text ++ rest) =
      parseCsvFields values (current ++ text) false rest := by
  induction text generalizing current with
  | nil => rw [List.nil_append, List.append_nil]
  | cons c text ih =>
      have hChar := hPlain c List.mem_cons_self
      simp only [Csv.isSpecial, Bool.or_eq_false_iff,
        decide_eq_false_iff_not] at hChar
      have hRest :
          ∀ c ∈ text, Csv.isSpecial c = false :=
        fun c hMember =>
          hPlain c (List.mem_cons_of_mem _ hMember)
      rw [List.cons_append, parseCsvFields]
      · rw [if_neg hChar.1.1.2, if_neg (by simp [hChar.1.1.1]),
          ih hRest, List.append_assoc, List.singleton_append]
      · intro rest hQuotes
        cases hQuotes

/- A pair of quotes between quotes is read as one. -/
theorem parseCsvFields_escape
    (hRest : rest.head? ≠ some '"') :
    parseCsvFields values current true
        (Csv.escape text ++ '"' :: rest) =
      parseCsvFields values (current ++ text) false rest := by
  induction text generalizing current with
  | nil =>
      have hEmpty : Csv.escape [] = [] := rfl
      rw [hEmpty, List.nil_append, List.append_nil,
        parseCsvFields]
      · rw [if_pos rfl]
        rfl
      · intro more _ _ hMore
        rw [hMore] at hRest
        exact hRest rfl
  | cons c text ih =>
      by_cases hQuote : c = '"'
      · have hPair :
            Csv.escape (c :: text) =
              '"' :: '"' :: Csv.escape text := by
          unfold Csv.escape
          rw [List.flatMap_cons, if_pos hQuote]
          rfl
        rw [hPair, List.cons_append, List.cons_append,
          parseCsvFields, ih, List.append_assoc, hQuote]
        rfl
      · have hOne :
            Csv.escape (c :: text) = c :: Csv.escape text := by
          unfold Csv.escape
          rw [List.flatMap_cons, if_neg hQuote]
          rfl
        rw [hOne, List.cons_append, parseCsvFields]
        · rw [if_neg hQuote, if_neg (by simp), ih,
            List.append_assoc]
          rfl
        · intro more _ hSame
          exact absurd hSame hQuote

/- A cell is read up to the comma after it, or to the end. -/
theorem parseCsvFields_print
    (cell : Csv.Cell)
    (hRest : rest.head? ≠ some '"') :
    parseCsvFields values [] false (cell.print ++ rest) =
      parseCsvFields values cell.text false rest := by
  unfold Csv.Cell.print
  cases hQuoted : cell.quoted with
  | true =>
      rw [if_pos rfl, List.cons_append, parseCsvFields]
      · rw [if_pos rfl, List.append_assoc,
          List.singleton_append, Bool.not_false,
          parseCsvFields_escape hRest, List.nil_append]
      · intro more hQuotes
        cases hQuotes
  | false =>
      rw [if_neg (by decide),
        parseCsvFields_plain rest (cell.plain hQuoted),
        List.nil_append]

theorem parseCsvFields_printCells
    (cell : Csv.Cell)
    (rest : List Csv.Cell) :
    parseCsvFields values [] false
        (Csv.printCells (cell :: rest)) =
      values ++
        (cell :: rest).map fun cell =>
          String.ofList cell.text := by
  induction rest generalizing cell values with
  | nil =>
      have hPrint :
          parseCsvFields values [] false (cell.print ++ []) =
            parseCsvFields values cell.text false [] :=
        parseCsvFields_print cell (by simp)
      rw [List.append_nil] at hPrint
      rw [Csv.printCells, hPrint, parseCsvFields]
      rfl
  | cons next rest ih =>
      rw [Csv.printCells, parseCsvFields_print cell (by simp),
        parseCsvFields]
      · rw [if_neg (by decide), if_pos (by decide), ih,
          List.append_assoc]
        rfl
      · intro more hQuotes
        cases hQuotes

/- A record is read as the texts of its cells. -/
theorem parseCsvLine_printCells
    {cells : List Csv.Cell}
    (hCells : cells ≠ []) :
    parseCsvLine (Csv.printCells cells) =
      cells.map fun cell => String.ofList cell.text := by
  cases cells with
  | nil => exact absurd rfl hCells
  | cons cell rest => exact parseCsvFields_printCells cell rest

/- What is read is in the line. -/
theorem mem_parseCsvFields
    {inQuotes : Bool}
    {value : String}
    {cond : Char → Prop}
    (hValues : ∀ value ∈ values, ∀ c ∈ value.toList, cond c)
    (hCurrent : ∀ c ∈ current, cond c)
    (hLine : ∀ c ∈ line, cond c)
    (hValue :
      value ∈ parseCsvFields values current inQuotes line) :
    ∀ c ∈ value.toList, cond c := by
  have hEnded :
      ∀ (values : List String) (current : List Char),
        (∀ value ∈ values, ∀ c ∈ value.toList, cond c) →
          (∀ c ∈ current, cond c) →
            ∀ value ∈ values ++ [String.ofList current],
              ∀ c ∈ value.toList, cond c := by
    intro values current hValues hCurrent value hMember
    rcases List.mem_append.mp hMember with hOld | hNew
    · exact hValues value hOld
    · rw [List.mem_singleton.mp hNew, String.toList_ofList]
      exact hCurrent
  have hGrown :
      ∀ (current : List Char) (c : Char),
        (∀ c ∈ current, cond c) → cond c →
          ∀ d ∈ current ++ [c], cond d := by
    intro current c hCurrent hChar d hMember
    rcases List.mem_append.mp hMember with hOld | hNew
    · exact hCurrent d hOld
    · rw [List.mem_singleton.mp hNew]
      exact hChar
  induction values, current, inQuotes, line using
      parseCsvFields.induct with
  | case1 inQuotes values current =>
      rw [parseCsvFields] at hValue
      exact hEnded values current hValues hCurrent value hValue
  | case2 values current rest ih =>
      rw [parseCsvFields] at hValue
      rw [List.forall_mem_cons, List.forall_mem_cons] at hLine
      exact
        ih hValues (hGrown current '"' hCurrent hLine.1)
          hLine.2.2 hValue
  | case3 values current inQuotes rest hPair ih =>
      rw [parseCsvFields, if_pos rfl] at hValue
      · rw [List.forall_mem_cons] at hLine
        exact ih hValues hCurrent hLine.2 hValue
      · exact hPair
  | case4 values current inQuotes char rest hPair hQuote
      hComma ih =>
      rw [parseCsvFields, if_neg hQuote, if_pos hComma]
        at hValue
      · rw [List.forall_mem_cons] at hLine
        exact
          ih (hEnded values current hValues hCurrent)
            (by simp) hLine.2 hValue
      · exact hPair
  | case5 values current inQuotes char rest hPair hQuote
      hComma ih =>
      rw [parseCsvFields, if_neg hQuote, if_neg hComma]
        at hValue
      · rw [List.forall_mem_cons] at hLine
        exact
          ih hValues (hGrown current char hCurrent hLine.1)
            hLine.2 hValue
      · exact hPair

theorem oneLine_parseCsvLine
    (hLine : '\n' ∉ line) :
    OneLine (parseCsvLine line) := by
  intro value hValue hMember
  have hChars : ∀ c ∈ line, c ≠ '\n' := by
    intro c hIn hSame
    rw [hSame] at hIn
    exact hLine hIn
  have hNot : ∀ c ∈ value.toList, c ≠ '\n' :=
    mem_parseCsvFields (by simp) (by simp) hChars hValue
  exact hNot _ hMember rfl

------------------------------------------------------------
-- Records
------------------------------------------------------------

variable {row : CsvRow} {key other value : String}
variable {header : List String}

theorem get?_cons
    (entry : String × String)
    (rest : CsvRow)
    (key : String) :
    CsvRow.get? (entry :: rest) key =
      if entry.1 = key then some entry.2
      else CsvRow.get? rest key := by
  unfold CsvRow.get?
  rw [List.find?_cons]
  by_cases hKey : entry.1 = key
  · simp only [hKey, decide_true, if_true]
    rfl
  · simp only [hKey, decide_false, if_false]

/- The entries of a record with one of them replaced. -/
def CsvRow.replace
    (row : CsvRow)
    (key value : String) : CsvRow :=
  row.map fun entry =>
    if entry.1 = key then (key, value) else entry

theorem get?_replace_of_ne
    (hOther : other ≠ key) :
    (row.replace key value).get? other = row.get? other := by
  unfold CsvRow.replace
  induction row with
  | nil => rfl
  | cons entry rest ih =>
      rw [List.map_cons, get?_cons, get?_cons, ih]
      by_cases hEntry : entry.1 = key
      · have hKey : ¬key = other :=
          fun hSame => hOther hSame.symm
        rw [if_pos hEntry, hEntry, if_neg hKey, if_neg hKey]
      · rw [if_neg hEntry]

theorem get?_replace_self
    (hPresent : row.any fun entry => entry.1 = key) :
    (row.replace key value).get? key = some value := by
  unfold CsvRow.replace
  induction row with
  | nil => cases hPresent
  | cons entry rest ih =>
      rw [List.map_cons, get?_cons]
      by_cases hEntry : entry.1 = key
      · rw [if_pos hEntry, if_pos rfl]
      · rw [List.any_cons, Bool.or_eq_true,
          decide_eq_true_eq] at hPresent
        rw [if_neg hEntry, if_neg hEntry]
        exact ih (hPresent.resolve_left hEntry)

theorem get?_append
    (hAbsent : ¬row.any fun entry => entry.1 = key) :
    CsvRow.get? (row ++ [(key, value)]) other =
      if other = key then some value
      else row.get? other := by
  induction row with
  | nil =>
      rw [List.nil_append, get?_cons]
      by_cases hOther : other = key
      · rw [if_pos hOther.symm, if_pos hOther]
      · rw [if_neg (fun hSame => hOther hSame.symm),
          if_neg hOther]
  | cons entry rest ih =>
      rw [List.any_cons, Bool.or_eq_true, not_or,
        decide_eq_true_eq] at hAbsent
      rw [List.cons_append, get?_cons, get?_cons,
        ih hAbsent.2]
      by_cases hOther : other = key
      · rw [if_neg, if_pos hOther, if_pos hOther]
        rw [hOther]
        exact hAbsent.1
      · rw [if_neg hOther, if_neg hOther]

/- A record has a key as it was set last. -/
theorem get?_set :
    (row.set key value).get? other =
      if key = "__proto__" then row.get? other
      else if other = key then some value
      else row.get? other := by
  unfold CsvRow.set
  split
  · rfl
  · split
    · rename_i hPresent
      by_cases hOther : other = key
      · rw [if_pos hOther, hOther]
        exact get?_replace_self hPresent
      · rw [if_neg hOther]
        exact get?_replace_of_ne hOther
    · rename_i hAbsent
      exact get?_append hAbsent

/- A record has the keys of its header. -/
theorem get?_csvRow_of_not_mem
    (hKey : key ∉ header) :
    (csvRow row header values).get? key = row.get? key := by
  induction header generalizing row values with
  | nil => rfl
  | cons first header ih =>
      rw [List.mem_cons, not_or] at hKey
      cases values with
      | nil =>
          rw [csvRow, ih hKey.2, get?_set, if_neg hKey.1]
          split
          · rfl
          · rfl
      | cons value values =>
          rw [csvRow, ih hKey.2, get?_set, if_neg hKey.1]
          split
          · rfl
          · rfl

/- The prototype is no key of a record. -/
theorem get?_csvRow_prototype :
    (csvRow row header values).get? "__proto__" =
      row.get? "__proto__" := by
  have hSet :
      ∀ (row : CsvRow) (key value : String),
        (row.set key value).get? "__proto__" =
          row.get? "__proto__" := by
    intro row key value
    rw [get?_set]
    split
    · rfl
    · rename_i hKey
      rw [if_neg (fun hSame => hKey hSame.symm)]
  induction header generalizing row values with
  | nil => rfl
  | cons first header ih =>
      cases values with
      | nil => rw [csvRow, ih, hSet]
      | cons value values => rw [csvRow, ih, hSet]

theorem map_get?_csvRow
    (hDistinct : header.Nodup)
    (hPrototype : "__proto__" ∉ header)
    (hLength : values.length = header.length) :
    header.map (csvRow row header values).get? =
      values.map some := by
  induction header generalizing row values with
  | nil =>
      rw [List.length_nil, List.length_eq_zero_iff] at hLength
      rw [hLength]
      rfl
  | cons first header ih =>
      rw [List.nodup_cons] at hDistinct
      rw [List.mem_cons, not_or] at hPrototype
      cases values with
      | nil => cases hLength
      | cons value values =>
          have hFirst : first ≠ "__proto__" :=
            fun hSame => hPrototype.1 hSame.symm
          rw [csvRow, List.map_cons, List.map_cons,
            ih hDistinct.2 hPrototype.2
              (Nat.succ.inj hLength),
            get?_csvRow_of_not_mem hDistinct.1, get?_set,
            if_neg hFirst, if_pos rfl]

------------------------------------------------------------
-- Lines Of A Table
------------------------------------------------------------

variable {style : Csv.Style} {stdout : String}
variable {header record row : List String}
variable {rows : List (List String)}
variable {parsed : CsvRow}

theorem csvLines_eq (stdout : String) :
    csvLines stdout = solidParts '\n' stdout.toList :=
  solidParts_trimChars '\n' stdout.toList

theorem csvLines_encodeCsv
    (style : Csv.Style)
    (header : List String)
    (rows : List (List String)) :
    csvLines (encodeCsv style header rows) =
      (header :: rows).flatMap fun record =>
        solidParts '\n' (lineOf style record) := by
  rw [csvLines_eq]
  unfold encodeCsv
  rw [String.toList_ofList, style.solidParts_encode,
    List.flatMap_map]
  rfl

/- The cells of a record. -/
def cellsOf
    (style : Csv.Style)
    (record : List String) : List Csv.Cell :=
  (record.map String.toList).map style.cell

theorem lineOf_eq :
    lineOf style record = Csv.printCells (cellsOf style record) :=
  rfl

theorem texts_cellsOf :
    ((cellsOf style record).map fun cell =>
      String.ofList cell.text) = record := by
  unfold cellsOf
  rw [List.map_map, List.map_map]
  have hText :
      ((fun cell : Csv.Cell => String.ofList cell.text) ∘
          style.cell) ∘ String.toList =
        id := by
    funext text
    exact String.ofList_toList
  rw [hText, List.map_id]

theorem cellsOf_ne_nil (hRecord : record ≠ []) :
    cellsOf style record ≠ [] := by
  unfold cellsOf
  rw [ne_eq, List.map_eq_nil_iff, List.map_eq_nil_iff]
  exact hRecord

theorem ne_nil_of_solid (hSolid : lineOf style record ≠ []) :
    record ≠ [] := by
  intro hEmpty
  rw [hEmpty] at hSolid
  exact hSolid rfl

theorem parseCsvLine_lineOf (hRecord : record ≠ []) :
    parseCsvLine (lineOf style record) = record := by
  rw [lineOf_eq,
    parseCsvLine_printCells (cellsOf_ne_nil hRecord),
    texts_cellsOf]

/- A record of one line has no line break in its line. -/
theorem not_mem_lineOf (hLine : OneLine record) :
    '\n' ∉ lineOf style record := by
  have hCell :
      ∀ cell ∈ cellsOf style record, '\n' ∉ cell.print := by
    intro cell hCell
    unfold cellsOf at hCell
    rw [List.map_map, List.mem_map] at hCell
    rcases hCell with ⟨value, hValue, hSame⟩
    have hNot := hLine value hValue
    rw [← hSame]
    unfold Csv.Cell.print
    split
    · intro hMember
      simp only [List.mem_cons, List.mem_append, Csv.escape,
        List.mem_flatMap] at hMember
      rcases hMember with hQuote | ⟨c, hChar, hIn⟩ | hQuote
      · cases hQuote
      · split at hIn
        · simp at hIn
        · rw [List.mem_singleton] at hIn
          rw [← hIn] at hChar
          exact hNot hChar
      · simp at hQuote
    · exact hNot
  rw [lineOf_eq]
  revert hCell
  generalize cellsOf style record = cells
  intro hCell
  induction cells with
  | nil => exact List.not_mem_nil
  | cons cell rest ih =>
      rw [List.forall_mem_cons] at hCell
      cases rest with
      | nil => exact hCell.1
      | cons next rest =>
          rw [Csv.printCells, List.mem_append, not_or,
            List.mem_cons, not_or]
          exact ⟨hCell.1, by decide, ih hCell.2⟩

/- Where no field has a line break, each record has a line,
   which is dropped if it is blank. -/
theorem csvLines_of_oneLine
    (hHeader : OneLine header)
    (hRows : ∀ row ∈ rows, OneLine row) :
    csvLines (encodeCsv style header rows) =
      ((header :: rows).map fun record =>
          trimChars (lineOf style record)).filter
        fun line => line ≠ [] := by
  have hAll : ∀ record ∈ header :: rows, OneLine record := by
    rw [List.forall_mem_cons]
    exact ⟨hHeader, hRows⟩
  rw [csvLines_encodeCsv]
  generalize header :: rows = records at hAll
  induction records with
  | nil => rfl
  | cons record rest ih =>
      rw [List.forall_mem_cons] at hAll
      rw [List.flatMap_cons, List.map_cons, ih hAll.2,
        solidParts_of_not_mem (not_mem_lineOf hAll.1)]
      split
      · rename_i hBlank
        rw [hBlank]
        rfl
      · rename_i hSolid
        rw [List.filter_cons_of_pos]
        · rfl
        · exact decide_eq_true hSolid

theorem length_parseCsv (stdout : String) :
    (parseCsv stdout).length = (csvLines stdout).length - 1 := by
  unfold parseCsv
  split
  · rename_i hNone
    rw [hNone]
    rfl
  · rename_i hSome
    rw [hSome, List.length_map]
    rfl

/- A record of the parser comes from two lines. -/
theorem exists_of_mem_parseCsv
    (hMember : parsed ∈ parseCsv stdout) :
    ∃ names values,
      parsed = csvRow [] names values ∧ OneLine names ∧
        OneLine values := by
  unfold parseCsv at hMember
  split at hMember
  · cases hMember
  · rename_i headerLine dataLines hLines
    rcases List.mem_map.mp hMember with ⟨line, hLine, hSame⟩
    have hOne :
        ∀ line ∈ csvLines stdout,
          OneLine (parseCsvLine line) := by
      intro line hIn
      rw [csvLines_eq] at hIn
      exact oneLine_parseCsvLine (not_mem_of_mem_solidParts hIn)
    rw [hLines, List.forall_mem_cons] at hOne
    exact ⟨_, _, hSame.symm, hOne.1, hOne.2 line hLine⟩

/- What a record has is a value of its line, or is empty. -/
theorem oneLine_get?_csvRow
    {names values : List String}
    {key value : String}
    (hParsed :
      ∀ key value, parsed.get? key = some value →
        '\n' ∉ value.toList)
    (hValues : OneLine values)
    (hValue :
      (csvRow parsed names values).get? key = some value) :
    '\n' ∉ value.toList := by
  have hSet :
      ∀ (parsed : CsvRow) (name given : String),
        (∀ key value, parsed.get? key = some value →
            '\n' ∉ value.toList) →
          '\n' ∉ given.toList →
            ∀ key value,
              (parsed.set name given).get? key = some value →
                '\n' ∉ value.toList := by
    intro parsed name given hParsed hGiven key value hFound
    rw [get?_set] at hFound
    split at hFound
    · exact hParsed key value hFound
    · split at hFound
      · cases hFound
        exact hGiven
      · exact hParsed key value hFound
  induction names generalizing parsed values with
  | nil => exact hParsed key value hValue
  | cons name names ih =>
      cases values with
      | nil =>
          exact
            ih (hSet parsed name "" hParsed List.not_mem_nil)
              hValues hValue
      | cons given values =>
          have hBoth := List.forall_mem_cons.mp hValues
          exact
            ih (hSet parsed name given hParsed hBoth.1) hBoth.2
              hValue

/- What is read of the line of a record when it is trimmed. -/
def trimmedRecord
    (style : Csv.Style)
    (record : List String) : List String :=
  parseCsvLine (trimChars (lineOf style record))

/- How many characters the fields have. -/
def textWeight (record : List String) : Nat :=
  (record.map fun value => value.toList.length).sum

theorem textWeight_cells (cells : List Csv.Cell) :
    textWeight
        (cells.map fun cell => String.ofList cell.text) =
      Csv.weight cells := by
  induction cells with
  | nil => rfl
  | cons cell rest ih =>
      unfold textWeight at ih ⊢
      rw [List.map_cons, List.map_cons, List.sum_cons, ih,
        String.toList_ofList]
      rfl

theorem trimmedRecord_eq (hRecord : record ≠ []) :
    trimmedRecord style record =
      (Csv.trimCells (cellsOf style record)).map fun cell =>
        String.ofList cell.text := by
  have hCells : Csv.trimCells (cellsOf style record) ≠ [] := by
    rw [← List.length_pos_iff, Csv.length_trimCells,
      List.length_pos_iff]
    exact cellsOf_ne_nil hRecord
  unfold trimmedRecord
  rw [lineOf_eq, Csv.trimChars_printCells,
    parseCsvLine_printCells hCells]

theorem length_trimmedRecord (hRecord : record ≠ []) :
    (trimmedRecord style record).length = record.length := by
  rw [trimmedRecord_eq hRecord, List.length_map,
    Csv.length_trimCells]
  unfold cellsOf
  rw [List.length_map, List.length_map]

/- A line that loses characters loses some of a field. -/
theorem trimChars_eq_of_weight
    (hRecord : record ≠ [])
    (hWeight :
      textWeight record ≤
        textWeight (trimmedRecord style record)) :
    trimChars (lineOf style record) = lineOf style record := by
  have hTexts : textWeight record = Csv.weight (cellsOf style record) := by
    rw [← textWeight_cells, texts_cellsOf]
  rw [hTexts, trimmedRecord_eq hRecord, textWeight_cells]
    at hWeight
  rw [lineOf_eq, Csv.trimChars_printCells,
    Csv.trimCells_eq_self hWeight]

/- Nor does a line whose names are all still there. -/
theorem trimChars_eq_of_subset
    (hDistinct : header.Nodup)
    (hHeader : header ≠ [])
    (hSubset : header ⊆ trimmedRecord style header) :
    trimChars (lineOf style header) = lineOf style header := by
  apply trimChars_eq_of_weight hHeader
  have hPerm : header.Perm (trimmedRecord style header) := by
    apply
      (List.subperm_of_subset hDistinct hSubset).perm_of_length_le
    rw [length_trimmedRecord hHeader]
  unfold textWeight
  exact (hPerm.map _).sum_nat.le

------------------------------------------------------------
-- What Is Read Back
------------------------------------------------------------

/- The table of a text whose lines are all solid. -/
theorem parseCsv_of_lines
    (hLines :
      csvLines (encodeCsv style header rows) =
        (header :: rows).map fun record =>
          trimChars (lineOf style record)) :
    parseCsv (encodeCsv style header rows) =
      rows.map fun row =>
        csvRow [] (trimmedRecord style header)
          (trimmedRecord style row) := by
  unfold parseCsv
  rw [hLines, List.map_cons]
  dsimp only
  rw [List.map_map]
  rfl

theorem trimmedRecord_of_solid
    (hSolid : Solid style record) :
    trimmedRecord style record = record := by
  unfold trimmedRecord
  rw [hSolid.2, parseCsvLine_lineOf (ne_nil_of_solid hSolid.1)]

theorem rowOf_csvRow
    (hDistinct : header.Nodup)
    (hPrototype : "__proto__" ∉ header)
    (hLength : row.length = header.length) :
    RowOf header row (csvRow [] header row) :=
  ⟨map_get?_csvRow hDistinct hPrototype hLength,
    fun _ hKey => get?_csvRow_of_not_mem hKey⟩

theorem decodes_of_decodable
    (hDistinct : header.Nodup)
    (hRows : ∀ row ∈ rows, row.length = header.length)
    (hDecodable : Decodable style header rows) :
    Decodes (parseCsv (encodeCsv style header rows)) header
      rows := by
  have hLines : csvLines (encodeCsv style header rows) = _ :=
    csvLines_of_oneLine hDecodable.headerLine
      hDecodable.rowLines
  unfold Decodes
  by_cases hNone : rows = []
  · have hLength := length_parseCsv (encodeCsv style header rows)
    have hFew := List.length_filter_le (fun line => line ≠ [])
      ((header :: rows).map fun record =>
        trimChars (lineOf style record))
    rw [← hLines, hNone, List.length_map, List.length_singleton]
      at hFew
    rw [hNone] at hLength ⊢
    have hEmpty :
        (parseCsv (encodeCsv style header [])).length = 0 := by
      omega
    rw [List.length_eq_zero_iff.mp hEmpty]
    exact List.Forall₂.nil
  · have hHeader := hDecodable.solidHeader hNone
    have hSolid :
        ∀ record ∈ header :: rows, Solid style record := by
      rw [List.forall_mem_cons]
      exact ⟨hHeader, hDecodable.solidRows⟩
    rw [List.filter_eq_self.mpr] at hLines
    · rw [parseCsv_of_lines hLines, List.forall₂_map_right_iff,
        List.forall₂_same]
      intro row hRow
      rw [trimmedRecord_of_solid hHeader,
        trimmedRecord_of_solid (hDecodable.solidRows row hRow)]
      exact
        rowOf_csvRow hDistinct (hDecodable.noPrototype hNone)
          (hRows row hRow)
    · intro line hLine
      rcases List.mem_map.mp hLine with
        ⟨record, hRecord, hSame⟩
      have hOne := hSolid record hRecord
      rw [hOne.2] at hSame
      rw [← hSame]
      exact decide_eq_true hOne.1

/- A record that is read has names and values of one line. -/
theorem oneLine_of_rowOf
    (hParsed : parsed ∈ parseCsv stdout)
    (hRow : RowOf header row parsed) :
    OneLine header ∧ OneLine row ∧ "__proto__" ∉ header := by
  rcases exists_of_mem_parseCsv hParsed with
    ⟨names, values, hSame, hNames, hValues⟩
  have hFound :
      ∀ name ∈ header, ∃ value, parsed.get? name = some value := by
    intro name hName
    have hMember := List.mem_map_of_mem (f := parsed.get?) hName
    rw [hRow.1, List.mem_map] at hMember
    rcases hMember with ⟨value, _, hValue⟩
    exact ⟨value, hValue.symm⟩
  refine ⟨?_, ?_, ?_⟩
  · intro name hName
    rcases hFound name hName with ⟨value, hValue⟩
    by_cases hIn : name ∈ names
    · exact hNames name hIn
    · rw [hSame, get?_csvRow_of_not_mem hIn] at hValue
      cases hValue
  · intro value hValue
    have hMember := List.mem_map_of_mem (f := some) hValue
    rw [← hRow.1, List.mem_map] at hMember
    rcases hMember with ⟨key, _, hGet⟩
    rw [hSame] at hGet
    apply oneLine_get?_csvRow _ hValues hGet
    intro key value hNone
    cases hNone
  · intro hPrototype
    rcases hFound _ hPrototype with ⟨value, hValue⟩
    rw [hSame, get?_csvRow_prototype] at hValue
    cases hValue

theorem exists_of_forall₂
    {α β : Type}
    {relation : α → β → Prop}
    {first : List α}
    {second : List β}
    (hAll : List.Forall₂ relation first second) :
    ∀ a ∈ first, ∃ b ∈ second, relation a b := by
  induction hAll with
  | nil =>
      intro a hNone
      cases hNone
  | cons hHead _ ih =>
      rw [List.forall_mem_cons]
      refine ⟨⟨_, List.mem_cons_self, hHead⟩, ?_⟩
      intro a hMember
      rcases ih a hMember with ⟨b, hIn, hRelated⟩
      exact ⟨b, List.mem_cons_of_mem _ hIn, hRelated⟩

/- A header on its own is the only line of its text. -/
theorem oneLine_of_no_rows
    (hNone : parseCsv (encodeCsv style header []) = []) :
    OneLine header := by
  intro name hName hBreak
  have hLength := length_parseCsv (encodeCsv style header [])
  have hTwo :=
    style.two_le_solidParts (List.mem_map_of_mem hName) hBreak
  rw [hNone, csvLines_encodeCsv, List.flatMap_cons,
    List.flatMap_nil, List.append_nil, List.length_nil]
    at hLength
  have hSame :
      solidParts '\n' (lineOf style header) =
        solidParts '\n' (style.record (header.map String.toList)) :=
    rfl
  rw [hSame] at hLength
  omega

/- Each record of a table that is read back has its line. -/
theorem lines_of_length
    (hHeader : OneLine header)
    (hRows : ∀ row ∈ rows, OneLine row)
    (hSome : rows ≠ [])
    (hLength :
      rows.length =
        (parseCsv (encodeCsv style header rows)).length) :
    (∀ record ∈ header :: rows,
        trimChars (lineOf style record) ≠ []) ∧
      csvLines (encodeCsv style header rows) =
        (header :: rows).map fun record =>
          trimChars (lineOf style record) := by
  have hLines : csvLines (encodeCsv style header rows) = _ :=
    csvLines_of_oneLine hHeader hRows
  have hPositive := List.length_pos_iff.mpr hSome
  have hKept :
      ((header :: rows).map fun record =>
            trimChars (lineOf style record)).length =
        (((header :: rows).map fun record =>
              trimChars (lineOf style record)).filter
            fun line => line ≠ []).length := by
    rw [length_parseCsv, hLines] at hLength
    rw [List.length_map, List.length_cons]
    omega
  have hAll := List.length_filter_eq_length_iff.mp hKept.symm
  refine ⟨?_, ?_⟩
  · intro record hRecord
    exact of_decide_eq_true (hAll _ (List.mem_map_of_mem hRecord))
  · rw [hLines]
    exact List.filter_eq_self.mpr hAll

theorem decodable_of_decodes
    (hDistinct : header.Nodup)
    (hRows : ∀ row ∈ rows, row.length = header.length)
    (hDecodes :
      Decodes (parseCsv (encodeCsv style header rows)) header
        rows) :
    Decodable style header rows := by
  by_cases hNone : rows = []
  · subst hNone
    have hEmpty := List.forall₂_nil_left_iff.mp hDecodes
    exact
      { headerLine := oneLine_of_no_rows hEmpty
        rowLines := by simp
        solidHeader := fun hSome => absurd rfl hSome
        solidRows := by simp
        noPrototype := fun hSome => absurd rfl hSome }
  · have hEach :
        ∀ row ∈ rows,
          OneLine header ∧ OneLine row ∧
            "__proto__" ∉ header := by
      intro row hRow
      rcases exists_of_forall₂ hDecodes row hRow with
        ⟨parsed, hParsed, hRowOf⟩
      exact oneLine_of_rowOf hParsed hRowOf
    rcases List.exists_mem_of_ne_nil _ hNone with
      ⟨some, hSome⟩
    rcases hEach some hSome with ⟨hHeader, _, hPrototype⟩
    have hOne : ∀ row ∈ rows, OneLine row :=
      fun row hRow => (hEach row hRow).2.1
    rcases
        lines_of_length hHeader hOne hNone
          hDecodes.length_eq with
      ⟨hSolid, hLines⟩
    rw [List.forall_mem_cons] at hSolid
    unfold Decodes at hDecodes
    rw [parseCsv_of_lines hLines, List.forall₂_map_right_iff,
      List.forall₂_same] at hDecodes
    have hNames : header ≠ [] := by
      intro hEmpty
      rw [hEmpty] at hSolid
      exact hSolid.1 rfl
    have hSubset : header ⊆ trimmedRecord style header := by
      intro name hName
      by_contra hMissing
      have hMember :=
        List.mem_map_of_mem
          (f :=
            (csvRow [] (trimmedRecord style header)
              (trimmedRecord style some)).get?) hName
      rw [(hDecodes some hSome).1,
        get?_csvRow_of_not_mem hMissing] at hMember
      rcases List.mem_map.mp hMember with ⟨_, _, hFound⟩
      cases hFound
    have hKept :=
      trimChars_eq_of_subset hDistinct hNames hSubset
    have hSolidHeader : Solid style header := by
      refine ⟨?_, hKept⟩
      rw [← hKept]
      exact hSolid.1
    refine
      { headerLine := hHeader
        rowLines := hOne
        solidHeader := fun _ => hSolidHeader
        solidRows := ?_
        noPrototype := fun _ => hPrototype }
    intro row hRow
    have hLength := hRows row hRow
    have hRecord : row ≠ [] := by
      intro hEmpty
      rw [hEmpty] at hLength
      exact hNames (List.length_eq_zero_iff.mp hLength.symm)
    have hValues := (hDecodes row hRow).1
    rw [trimmedRecord_of_solid hSolidHeader,
      map_get?_csvRow hDistinct hPrototype
        ((length_trimmedRecord hRecord).trans hLength)]
      at hValues
    have hSame :=
      List.map_injective_iff.mpr
        (fun _ _ hSame => Option.some.inj hSame) hValues
    have hTrim : trimChars (lineOf style row) = lineOf style row :=
      trimChars_eq_of_weight hRecord (by rw [hSame])
    refine ⟨?_, hTrim⟩
    rw [← hTrim]
    exact hSolid.2 row hRow

/- A table is read back just if every field is in one line
   and every line is solid. -/
theorem decodes_iff
    (hDistinct : header.Nodup)
    (hRows : ∀ row ∈ rows, row.length = header.length) :
    Decodes (parseCsv (encodeCsv style header rows)) header
        rows ↔
      Decodable style header rows :=
  ⟨decodable_of_decodes hDistinct hRows,
    decodes_of_decodable hDistinct hRows⟩

end Versioning
