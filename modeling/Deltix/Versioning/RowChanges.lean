import Deltix.Versioning.CsvFidelity

/-
  The rows of a diff and of a merge conflict, as the adapters
  build them from the rows that the binary prints.

  A printed row has the columns of all versions side by
  side, told apart by the first part of their names, and has
  columns of its own among them.  NULL is printed as nothing.

  Key definitions include:
    * `DoltDiffCli.buildRowChange`
    * `RowVersion`
    * `DiffRow.entries`
    * `ConflictRow.entries`
    * `Clear`

  Key theorems include:
    * `columnOf_sideColumns`
    * `shown_iff`
    * `rows_shown_iff`
-/

namespace Versioning

inductive DiffType where
  | added
  | removed
  | modified
  deriving DecidableEq, Repr

def DiffType.text : DiffType → String
  | .added => "added"
  | .removed => "removed"
  | .modified => "modified"

structure DiffRowChange where
  diffType : DiffType
  oldValues : List (String × Option String)
  newValues : List (String × Option String)
  deriving DecidableEq, Repr

namespace DoltDiffCli

def mapDiffType (value : String) :
    Except String DiffType :=
  if value = "added" then .ok .added
  else if value = "removed" then .ok .removed
  else if value = "modified" then .ok .modified
  else .error ("Unexpected diff type: " ++ value)

def buildRowChange (row : CsvRow) :
    Except String DiffRowChange :=
  (mapDiffType ((row.get? "diff_type").getD "")).map
    fun diffType =>
      { diffType := diffType
        oldValues :=
          sideColumns "from_"
            ["from_commit", "from_commit_date"] row
        newValues :=
          sideColumns "to_" ["to_commit", "to_commit_date"]
            row }

end DoltDiffCli

end Versioning

------------------------------------------------------------
-- Versions Of A Row
------------------------------------------------------------

namespace Versioning

/- The value under a name, where there is one. -/
def columnOf
    (columns : List (String × Option String))
    (name : String) : Option (Option String) :=
  (columns.find? fun column => column.1 = name).map Prod.snd

/- A version of a row; the value NULL is `none`. -/
structure RowVersion where
  columns : List (String × Option String)
  distinct : (columns.map Prod.fst).Nodup

/- The columns are those of the version, with its values. -/
def Shown
    (columns : List (String × Option String))
    (version : RowVersion) : Prop :=
  ∀ name, columnOf columns name = columnOf version.columns name

/- A text that does not stand for NULL. -/
def IsValue (text : String) : Prop :=
  text ≠ "" ∧ text.toList.map Char.toUpper ≠ "NULL".toList

/- No column has a name of the adapter's own, and no text
   reads as NULL. -/
def Clear
    (hidden : List String)
    (version : RowVersion) : Prop :=
  ∀ column ∈ version.columns,
    column.1 ∉ "__proto__" :: hidden ∧
      ∀ text, column.2 = some text → IsValue text

/- The version as it is printed, with a mark before its
   names. -/
def printed
    (mark : String)
    (version : RowVersion) : List (String × String) :=
  version.columns.map fun column =>
    (mark ++ column.1, column.2.getD "")

/- The record of a printed row. -/
def recordFrom (entries : List (String × String)) : CsvRow :=
  csvRow [] (entries.map Prod.fst) (entries.map Prod.snd)

/- What the binary prints about the commits of a diff. -/
structure DiffCommits where
  fromCommit : String
  fromCommitDate : String
  toCommit : String
  toCommitDate : String

structure DiffRow where
  diffType : DiffType
  old : RowVersion
  new : RowVersion

def DiffRow.entries
    (row : DiffRow)
    (commits : DiffCommits) : List (String × String) :=
  printed "to_" row.new ++
    [("to_commit", commits.toCommit),
      ("to_commit_date", commits.toCommitDate)] ++
    printed "from_" row.old ++
    [("from_commit", commits.fromCommit),
      ("from_commit_date", commits.fromCommitDate),
      ("diff_type", row.diffType.text)]

/- What the binary prints about a conflict. -/
structure ConflictFacts where
  fromRootIsh : String
  ourDiffType : String
  theirDiffType : String
  conflictId : String

structure ConflictRow where
  base : RowVersion
  ours : RowVersion
  theirs : RowVersion

def ConflictRow.entries
    (row : ConflictRow)
    (facts : ConflictFacts) : List (String × String) :=
  [("from_root_ish", facts.fromRootIsh)] ++
    printed "base_" row.base ++
    printed "our_" row.ours ++
    [("our_diff_type", facts.ourDiffType)] ++
    printed "their_" row.theirs ++
    [("their_diff_type", facts.theirDiffType),
      ("dolt_conflict_id", facts.conflictId)]

/- The adapter builds the change from the printed row, in
   whatever order its columns come. -/
def DiffRow.Renders
    (row : DiffRow)
    (change : DiffRowChange) : Prop :=
  ∃ commits entries,
    entries.Perm (row.entries commits) ∧
      DoltDiffCli.buildRowChange (recordFrom entries) =
        .ok change

def ConflictRow.Renders
    (row : ConflictRow)
    (conflict : MergeConflictRow) : Prop :=
  ∃ facts entries,
    entries.Perm (row.entries facts) ∧
      buildConflictRow (recordFrom entries) = conflict

structure DiffRow.ShownBy
    (row : DiffRow)
    (change : DiffRowChange) : Prop where
  diffType : change.diffType = row.diffType
  old : Shown change.oldValues row.old
  new : Shown change.newValues row.new

structure ConflictRow.ShownBy
    (row : ConflictRow)
    (conflict : MergeConflictRow) : Prop where
  base : Shown conflict.base row.base
  ours : Shown conflict.ours row.ours
  theirs : Shown conflict.theirs row.theirs

/- The same columns with the same values. -/
def Same (first second : List (String × Option String)) :
    Prop :=
  ∀ name, columnOf first name = columnOf second name

def DiffRowChange.SameAs (first second : DiffRowChange) :
    Prop :=
  first.diffType = second.diffType ∧
    Same first.oldValues second.oldValues ∧
    Same first.newValues second.newValues

def DiffRow.SameAs (first second : DiffRow) : Prop :=
  first.diffType = second.diffType ∧
    Same first.old.columns second.old.columns ∧
    Same first.new.columns second.new.columns

def MergeConflictRow.SameAs
    (first second : MergeConflictRow) : Prop :=
  Same first.base second.base ∧
    Same first.ours second.ours ∧
    Same first.theirs second.theirs

def ConflictRow.SameAs (first second : ConflictRow) : Prop :=
  Same first.base.columns second.base.columns ∧
    Same first.ours.columns second.ours.columns ∧
    Same first.theirs.columns second.theirs.columns

structure DiffRow.Clear (row : DiffRow) : Prop where
  old :
    Versioning.Clear ["commit", "commit_date"] row.old
  new :
    Versioning.Clear ["commit", "commit_date"] row.new

structure ConflictRow.Clear (row : ConflictRow) : Prop where
  base : Versioning.Clear [] row.base
  ours : Versioning.Clear ["diff_type"] row.ours
  theirs : Versioning.Clear ["diff_type"] row.theirs

------------------------------------------------------------
-- Records Of Entries
------------------------------------------------------------

variable {entries : List (String × String)} {row : CsvRow}
variable {key value name : String}
variable {mark : String} {left : List String}
variable {entry : String × String}

/- A record has the value of a name that comes once. -/
theorem get?_recordFrom
    (hMember : (key, value) ∈ entries)
    (hUnique : ∀ other, (key, other) ∈ entries → other = value)
    (hKey : key ≠ "__proto__") :
    (recordFrom entries).get? key = some value := by
  have hGrows :
      ∀ (entries : List (String × String)) (row : CsvRow),
        (∀ other, (key, other) ∈ entries → other = value) →
          ((key, value) ∈ entries ∨
            row.get? key = some value) →
            (csvRow row (entries.map Prod.fst)
                (entries.map Prod.snd)).get? key =
              some value := by
    intro entries
    induction entries with
    | nil =>
        intro row _ hFound
        exact hFound.resolve_left List.not_mem_nil
    | cons entry rest ih =>
        intro row hUnique hFound
        rw [List.map_cons, List.map_cons, csvRow]
        apply ih
        · intro other hOther
          exact hUnique other (List.mem_cons_of_mem _ hOther)
        · rw [get?_set]
          by_cases hFirst : key = entry.1
          · right
            have hNot : ¬entry.1 = "__proto__" := by
              rw [← hFirst]
              exact hKey
            have hValue : entry.2 = value := by
              apply hUnique
              rw [hFirst]
              exact List.mem_cons_self
            rw [if_neg hNot, if_pos hFirst, hValue]
          · rcases hFound with hIn | hRow
            · rcases List.mem_cons.mp hIn with hHead | hTail
              · exact absurd (congrArg Prod.fst hHead) hFirst
              · exact Or.inl hTail
            · right
              rw [if_neg hFirst]
              split
              · exact hRow
              · exact hRow
  exact hGrows entries [] hUnique (Or.inl hMember)

theorem get?_recordFrom_of_not_mem
    (hAbsent : ∀ value, (key, value) ∉ entries) :
    (recordFrom entries).get? key = none := by
  unfold recordFrom
  rw [get?_csvRow_of_not_mem]
  · rfl
  · intro hMember
    rcases List.mem_map.mp hMember with ⟨entry, hEntry, hSame⟩
    rw [← hSame] at hAbsent
    exact hAbsent entry.2 hEntry

theorem columnOf_cons
    (column : String × Option String)
    (rest : List (String × Option String))
    (name : String) :
    columnOf (column :: rest) name =
      if column.1 = name then some column.2
      else columnOf rest name := by
  unfold columnOf
  rw [List.find?_cons]
  by_cases hName : column.1 = name
  · simp only [hName, decide_true, if_true]
    rfl
  · simp only [hName, decide_false, if_false]

/- The part of a name after a mark. -/
theorem dropPrefix?_eq_some
    {whole : String}
    {rest : List Char} :
    whole.toList.dropPrefix? mark.toList = some rest ↔
      whole = mark ++ String.ofList rest := by
  rw [List.dropPrefix?_eq_some_iff]
  constructor
  · rintro ⟨start, hWhole, hStart⟩
    apply String.toList_inj.mp
    rw [hWhole, eq_of_beq hStart, String.toList_append,
      String.toList_ofList]
  · intro hWhole
    refine ⟨mark.toList, ?_, beq_self_eq_true _⟩
    rw [hWhole, String.toList_append, String.toList_ofList]

/- The column of one side that an entry gives. -/
def sideColumn
    (mark : String)
    (left : List String)
    (entry : String × String) :
    Option (String × Option String) :=
  if left.contains entry.1 then none
  else
    (entry.1.toList.dropPrefix? mark.toList).bind fun name =>
      if String.ofList name = "__proto__" then none
      else
        some (String.ofList name, toNullable (some entry.2))

theorem sideColumns_eq
    (mark : String)
    (left : List String)
    (row : CsvRow) :
    sideColumns mark left row =
      row.filterMap (sideColumn mark left) :=
  rfl

theorem sideColumn_of_eq
    (hEntry : entry.1 = mark ++ name) :
    sideColumn mark left entry =
      if name = "__proto__" ∨ mark ++ name ∈ left then none
      else some (name, toNullable (some entry.2)) := by
  have hRest :
      entry.1.toList.dropPrefix? mark.toList =
        some name.toList := by
    rw [dropPrefix?_eq_some, String.ofList_toList]
    exact hEntry
  unfold sideColumn
  rw [hRest, hEntry, Option.bind_some, String.ofList_toList]
  by_cases hLeft : mark ++ name ∈ left
  · rw [if_pos (List.contains_iff_mem.mpr hLeft),
      if_pos (Or.inr hLeft)]
  · rw [if_neg (fun hIn => hLeft (List.contains_iff_mem.mp hIn))]
    by_cases hName : name = "__proto__"
    · rw [if_pos hName, if_pos (Or.inl hName)]
    · rw [if_neg hName, if_neg]
      exact fun hLost => hLost.elim hName hLeft

theorem sideColumn_of_ne
    {column : String × Option String}
    (hEntry : entry.1 ≠ mark ++ name)
    (hColumn : sideColumn mark left entry = some column) :
    column.1 ≠ name := by
  unfold sideColumn at hColumn
  split at hColumn
  · cases hColumn
  · rw [Option.bind_eq_some_iff] at hColumn
    rcases hColumn with ⟨rest, hRest, hSome⟩
    split at hSome
    · cases hSome
    · cases hSome
      intro hSame
      apply hEntry
      rw [← hSame]
      exact dropPrefix?_eq_some.mp hRest

/- A side has the columns that start with its mark, but for
   those that are left out. -/
theorem columnOf_sideColumns
    (mark : String)
    (left : List String)
    (row : CsvRow)
    (name : String) :
    columnOf (sideColumns mark left row) name =
      if name = "__proto__" ∨ mark ++ name ∈ left then none
      else
        (row.get? (mark ++ name)).map fun text =>
          toNullable (some text) := by
  rw [sideColumns_eq]
  induction row with
  | nil =>
      split
      · rfl
      · rfl
  | cons entry rest ih =>
      rw [List.filterMap_cons, get?_cons]
      by_cases hEntry : entry.1 = mark ++ name
      · rw [sideColumn_of_eq hEntry, if_pos hEntry]
        split
        · rename_i hNone
          split at hNone
          · rename_i hLost
            rw [ih, if_pos hLost, if_pos hLost]
          · cases hNone
        · rename_i column hSome
          split at hSome
          · cases hSome
          · rename_i hKept
            cases hSome
            rw [columnOf_cons, if_pos rfl, if_neg hKept]
            rfl
      · rw [if_neg hEntry, ← ih]
        split
        · rfl
        · rename_i column hSome
          rw [columnOf_cons,
            if_neg (sideColumn_of_ne hEntry hSome)]

------------------------------------------------------------
-- One Side
------------------------------------------------------------

variable {mark : String} {hidden : List String}
variable {version : RowVersion}

/- Where no name comes twice, a column is found. -/
theorem columnOf_iff_of_nodup
    {columns : List (String × Option String)}
    {value : Option String}
    (hDistinct : (columns.map Prod.fst).Nodup) :
    columnOf columns name = some value ↔
      (name, value) ∈ columns := by
  induction columns with
  | nil => simp [columnOf]
  | cons column rest ih =>
      rw [List.map_cons, List.nodup_cons] at hDistinct
      rw [columnOf_cons, List.mem_cons]
      by_cases hName : column.1 = name
      · rw [if_pos hName, Option.some.injEq]
        constructor
        · intro hValue
          left
          rw [← hName, ← hValue]
        · rintro (hSame | hLater)
          · rw [← hSame]
          · exfalso
            apply hDistinct.1
            rw [hName]
            exact List.mem_map_of_mem hLater
      · have hRest := ih hDistinct.2
        constructor
        · intro hFound
          rw [if_neg hName] at hFound
          exact Or.inr (hRest.mp hFound)
        · rintro (hSame | hLater)
          · rw [← hSame] at hName
            exact absurd rfl hName
          · rw [if_neg hName]
            exact hRest.mpr hLater

theorem columnOf_eq_some
    {value : Option String} :
    columnOf version.columns name = some value ↔
      (name, value) ∈ version.columns :=
  columnOf_iff_of_nodup version.distinct

theorem toNullable_eq_iff (value : Option String) :
    toNullable (some (value.getD "")) = value ↔
      ∀ text, value = some text → IsValue text := by
  cases value with
  | none => simp [toNullable]
  | some text =>
      unfold toNullable IsValue
      simp only [Option.getD_some, Option.some.injEq]
      constructor
      · intro hSame other hOther
        subst hOther
        split at hSame
        · cases hSame
        · rename_i hNot
          simp only [Bool.or_eq_true, decide_eq_true_eq, not_or]
            at hNot
          exact hNot
      · intro hValue
        have hBoth := hValue text rfl
        rw [if_neg]
        simp only [Bool.or_eq_true, decide_eq_true_eq, not_or]
        exact hBoth

theorem append_left_inj {name other : String} :
    mark ++ name = mark ++ other ↔ name = other := by
  constructor
  · intro hSame
    have hLists := congrArg String.toList hSame
    rw [String.toList_append, String.toList_append] at hLists
    exact String.toList_inj.mp (List.append_cancel_left hLists)
  · intro hSame
    rw [hSame]

theorem mem_printed {name text : String} :
    (mark ++ name, text) ∈ printed mark version ↔
      ∃ value, (name, value) ∈ version.columns ∧
        text = value.getD "" := by
  unfold printed
  rw [List.mem_map]
  constructor
  · rintro ⟨column, hColumn, hSame⟩
    have hName := congrArg Prod.fst hSame
    have hText := congrArg Prod.snd hSame
    dsimp only at hName hText
    rw [append_left_inj] at hName
    refine ⟨column.2, ?_, hText.symm⟩
    rw [← hName]
    exact hColumn
  · rintro ⟨value, hColumn, hText⟩
    refine ⟨(name, value), hColumn, ?_⟩
    rw [hText]

/-
  The columns with the mark of a side are those of its
  version, but for hidden ones.
-/
structure Holds
    (mark : String)
    (hidden : List String)
    (entries : List (String × String))
    (version : RowVersion) : Prop where
  printed : ∀ entry ∈ printed mark version, entry ∈ entries
  own :
    ∀ name text, (mark ++ name, text) ∈ entries →
      name ∉ hidden →
        (mark ++ name, text) ∈ Versioning.printed mark version
  noPrototype : ∀ name, mark ++ name ≠ "__proto__"

theorem get?_of_holds
    {value : Option String}
    (hHolds : Holds mark hidden entries version)
    (hColumn : (name, value) ∈ version.columns)
    (hHidden : name ∉ hidden) :
    (recordFrom entries).get? (mark ++ name) =
      some (value.getD "") := by
  apply get?_recordFrom _ _ (hHolds.noPrototype name)
  · apply hHolds.printed
    exact mem_printed.mpr ⟨value, hColumn, rfl⟩
  · intro other hOther
    have hOwn := hHolds.own name other hOther hHidden
    rcases mem_printed.mp hOwn with ⟨found, hFound, hText⟩
    have hFirst := columnOf_eq_some.mpr hColumn
    rw [columnOf_eq_some.mpr hFound] at hFirst
    rw [hText, Option.some.inj hFirst]

theorem get?_of_absent
    (hHolds : Holds mark hidden entries version)
    (hAbsent : columnOf version.columns name = none)
    (hHidden : name ∉ hidden) :
    (recordFrom entries).get? (mark ++ name) = none := by
  apply get?_recordFrom_of_not_mem
  intro text hMember
  have hOwn := hHolds.own name text hMember hHidden
  rcases mem_printed.mp hOwn with ⟨value, hColumn, _⟩
  rw [columnOf_eq_some.mpr hColumn] at hAbsent
  cases hAbsent

/- One side is shown just if its version is clear. -/
theorem shown_iff
    (hHolds : Holds mark hidden entries version) :
    Shown
        (sideColumns mark (hidden.map fun name => mark ++ name)
          (recordFrom entries))
        version ↔
      Clear hidden version := by
  have hSide :
      ∀ name,
        columnOf
            (sideColumns mark
              (hidden.map fun name => mark ++ name)
              (recordFrom entries))
            name =
          if name ∈ "__proto__" :: hidden then none
          else
            ((recordFrom entries).get? (mark ++ name)).map
              fun text => toNullable (some text) := by
    intro name
    rw [columnOf_sideColumns]
    simp only [List.mem_map, append_left_inj, List.mem_cons,
      exists_eq_right]
  unfold Shown
  simp only [hSide]
  constructor
  · intro hShown column hColumn
    have hValue := hShown column.1
    rw [columnOf_eq_some.mpr hColumn] at hValue
    split at hValue
    · cases hValue
    · rename_i hName
      refine ⟨hName, ?_⟩
      rw [← toNullable_eq_iff]
      have hHidden : column.1 ∉ hidden :=
        fun hIn => hName (List.mem_cons_of_mem _ hIn)
      rw [get?_of_holds hHolds hColumn hHidden,
        Option.map_some] at hValue
      exact Option.some.inj hValue
  · intro hClear name
    cases hColumn : columnOf version.columns name with
    | none =>
        split
        · rfl
        · rename_i hName
          have hHidden : name ∉ hidden :=
            fun hIn => hName (List.mem_cons_of_mem _ hIn)
          rw [get?_of_absent hHolds hColumn hHidden]
          rfl
    | some value =>
        have hMember := columnOf_eq_some.mp hColumn
        rcases hClear _ hMember with ⟨hName, hValue⟩
        have hHidden : name ∉ hidden :=
          fun hIn => hName (List.mem_cons_of_mem _ hIn)
        rw [if_neg hName,
          get?_of_holds hHolds hMember hHidden,
          Option.map_some, (toNullable_eq_iff value).mpr hValue]

------------------------------------------------------------
-- The Sides Of A Printed Row
------------------------------------------------------------

variable {other text : String} {c : Char}

theorem head_append
    (hMark : mark.toList.head? = some c)
    (name : String) :
    (mark ++ name).toList.head? = some c := by
  rw [String.toList_append, List.head?_append, hMark]
  rfl

/- Marks that start differently tell names apart. -/
theorem append_ne
    (hMark : mark.toList.head? = some c)
    (hOther : other.toList.head? ≠ some c) :
    mark ++ name ≠ other := by
  intro hSame
  apply hOther
  rw [← hSame]
  exact head_append hMark name

/- An entry that no column of a side is mistaken for. -/
def Apart
    (c : Char)
    (mark : String)
    (hidden : List String)
    (entry : String × String) : Prop :=
  entry.1.toList.head? ≠ some c ∨
    ∃ name ∈ hidden, entry.1 = mark ++ name

theorem apart_printed
    {d : Char}
    (hOther : other.toList.head? = some d)
    (hApart : d ≠ c) :
    ∀ entry ∈ printed other version,
      Apart c mark hidden entry := by
  intro entry hMember
  unfold printed at hMember
  rcases List.mem_map.mp hMember with ⟨column, _, hSame⟩
  left
  rw [← hSame, head_append hOther]
  intro hChars
  exact hApart (Option.some.inj hChars)

/- A side holds its columns where the entries around them
   are apart. -/
theorem holds_of_parts
    {before after : List (String × String)}
    (hEntries :
      entries.Perm (before ++ (printed mark version ++ after)))
    (hMark : mark.toList.head? = some c)
    (hFirst : c ≠ '_')
    (hBefore : ∀ entry ∈ before, Apart c mark hidden entry)
    (hAfter : ∀ entry ∈ after, Apart c mark hidden entry) :
    Holds mark hidden entries version := by
  have hAround :
      ∀ name text, Apart c mark hidden (mark ++ name, text) →
        name ∈ hidden := by
    rintro name text (hHead | ⟨known, hKnown, hSame⟩)
    · exact absurd (head_append hMark name) hHead
    · rw [append_left_inj.mp hSame]
      exact hKnown
  refine
    { printed := ?_
      own := ?_
      noPrototype := ?_ }
  · intro entry hEntry
    rw [hEntries.mem_iff, List.mem_append, List.mem_append]
    exact Or.inr (Or.inl hEntry)
  · intro name text hMember hHidden
    rw [hEntries.mem_iff, List.mem_append, List.mem_append]
      at hMember
    rcases hMember with hIn | hOwn | hIn
    · exact absurd (hAround _ _ (hBefore _ hIn)) hHidden
    · exact hOwn
    · exact absurd (hAround _ _ (hAfter _ hIn)) hHidden
  · intro name
    apply append_ne hMark
    intro hSame
    exact hFirst (Option.some.inj hSame).symm

section Diffs

variable {row : DiffRow} {commits : DiffCommits}
variable {change : DiffRowChange}

theorem holds_new
    (hEntries : entries.Perm (row.entries commits)) :
    Holds "to_" ["commit", "commit_date"] entries row.new := by
  have hOther : "from_".toList.head? = some 'f' := by decide
  unfold DiffRow.entries at hEntries
  simp only [List.append_assoc] at hEntries
  rw [← List.nil_append (printed "to_" row.new ++ _)]
    at hEntries
  refine
    holds_of_parts (c := 't') hEntries (by decide) (by decide)
      (by simp) ?_
  simp only [List.forall_mem_append]
  refine ⟨?_, apart_printed hOther (by decide), ?_⟩
  · simp only [List.forall_mem_cons, Apart]
    decide
  · simp only [List.forall_mem_cons, Apart]
    decide

theorem holds_old
    (hEntries : entries.Perm (row.entries commits)) :
    Holds "from_" ["commit", "commit_date"] entries row.old := by
  have hOther : "to_".toList.head? = some 't' := by decide
  unfold DiffRow.entries at hEntries
  rw [List.append_assoc] at hEntries
  refine
    holds_of_parts (c := 'f') hEntries (by decide) (by decide)
      ?_ ?_
  · rw [List.forall_mem_append]
    refine ⟨apart_printed hOther (by decide), ?_⟩
    simp only [List.forall_mem_cons, Apart]
    decide
  · simp only [List.forall_mem_cons, Apart]
    decide

end Diffs

section Conflicts

variable {row : ConflictRow} {facts : ConflictFacts}

theorem holds_base
    (hEntries : entries.Perm (row.entries facts)) :
    Holds "base_" [] entries row.base := by
  have hOurs : "our_".toList.head? = some 'o' := by decide
  have hTheirs : "their_".toList.head? = some 't' := by decide
  unfold ConflictRow.entries at hEntries
  simp only [List.append_assoc] at hEntries
  refine
    holds_of_parts (c := 'b') hEntries (by decide) (by decide)
      ?_ ?_
  · simp only [List.forall_mem_cons, Apart]
    decide
  · simp only [List.forall_mem_append]
    refine
      ⟨apart_printed hOurs (by decide), ?_,
        apart_printed hTheirs (by decide), ?_⟩
    · simp only [List.forall_mem_cons, Apart]
      decide
    · simp only [List.forall_mem_cons, Apart]
      decide

theorem holds_ours
    (hEntries : entries.Perm (row.entries facts)) :
    Holds "our_" ["diff_type"] entries row.ours := by
  have hBase : "base_".toList.head? = some 'b' := by decide
  have hTheirs : "their_".toList.head? = some 't' := by decide
  unfold ConflictRow.entries at hEntries
  rw [List.append_assoc, List.append_assoc,
    List.append_assoc] at hEntries
  refine
    holds_of_parts (c := 'o') hEntries (by decide) (by decide)
      ?_ ?_
  · rw [List.forall_mem_append]
    refine ⟨?_, apart_printed hBase (by decide)⟩
    simp only [List.forall_mem_cons, Apart]
    decide
  · simp only [List.forall_mem_append]
    refine ⟨?_, apart_printed hTheirs (by decide), ?_⟩
    · simp only [List.forall_mem_cons, Apart]
      decide
    · simp only [List.forall_mem_cons, Apart]
      decide

theorem holds_theirs
    (hEntries : entries.Perm (row.entries facts)) :
    Holds "their_" ["diff_type"] entries row.theirs := by
  have hBase : "base_".toList.head? = some 'b' := by decide
  have hOurs : "our_".toList.head? = some 'o' := by decide
  unfold ConflictRow.entries at hEntries
  rw [List.append_assoc] at hEntries
  refine
    holds_of_parts (c := 't') hEntries (by decide) (by decide)
      ?_ ?_
  · simp only [List.forall_mem_append]
    refine
      ⟨⟨⟨?_, apart_printed hBase (by decide)⟩,
        apart_printed hOurs (by decide)⟩, ?_⟩
    · simp only [List.forall_mem_cons, Apart]
      decide
    · simp only [List.forall_mem_cons, Apart]
      decide
  · simp only [List.forall_mem_cons, Apart]
    decide

end Conflicts

------------------------------------------------------------
-- Faithful Rows
------------------------------------------------------------

section Diffs

variable {row : DiffRow} {change : DiffRowChange}
variable {commits : DiffCommits}

theorem not_diffType_of_printed
    (hMark : mark.toList.head? ≠ some 'd')
    (hSome : mark.toList ≠ []) :
    ("diff_type", text) ∉ printed mark version := by
  intro hMember
  unfold printed at hMember
  rcases List.mem_map.mp hMember with ⟨column, _, hSame⟩
  have hName := congrArg Prod.fst hSame
  have hHead := congrArg (fun name => name.toList.head?) hName
  dsimp only at hHead
  rw [String.toList_append,
    List.head?_append_of_ne_nil _ hSome] at hHead
  exact hMark hHead

theorem get?_diffType
    (hEntries : entries.Perm (row.entries commits)) :
    (recordFrom entries).get? "diff_type" =
      some row.diffType.text := by
  have hOld :
      ∀ text, ("diff_type", text) ∉ printed "from_" row.old :=
    fun _ => not_diffType_of_printed (by decide) (by decide)
  have hNew :
      ∀ text, ("diff_type", text) ∉ printed "to_" row.new :=
    fun _ => not_diffType_of_printed (by decide) (by decide)
  apply get?_recordFrom _ _ (by decide)
  · rw [hEntries.mem_iff]
    unfold DiffRow.entries
    simp
  · intro other hMember
    rw [hEntries.mem_iff] at hMember
    unfold DiffRow.entries at hMember
    simp only [List.mem_append, hOld, hNew, false_or,
      List.mem_cons, Prod.mk.injEq, List.not_mem_nil,
      or_false] at hMember
    rcases hMember with (hCommit | hDate) | hCommit | hDate |
      hType
    · exact absurd hCommit.1 (by decide)
    · exact absurd hDate.1 (by decide)
    · exact absurd hCommit.1 (by decide)
    · exact absurd hDate.1 (by decide)
    · exact hType.2

theorem mapDiffType_text (diffType : DiffType) :
    DoltDiffCli.mapDiffType diffType.text = .ok diffType := by
  cases diffType with
  | added => decide
  | removed => decide
  | modified => decide

/- Every printed row has its change. -/
theorem buildRowChange_eq
    (hEntries : entries.Perm (row.entries commits)) :
    DoltDiffCli.buildRowChange (recordFrom entries) =
      .ok
        { diffType := row.diffType
          oldValues :=
            sideColumns "from_"
              ["from_commit", "from_commit_date"]
              (recordFrom entries)
          newValues :=
            sideColumns "to_" ["to_commit", "to_commit_date"]
              (recordFrom entries) } := by
  unfold DoltDiffCli.buildRowChange
  rw [get?_diffType hEntries, Option.getD_some,
    mapDiffType_text]
  rfl

/- A diff row is shown just if its versions are clear. -/
theorem diff_shownBy_iff (hRenders : row.Renders change) :
    row.ShownBy change ↔ row.Clear := by
  rcases hRenders with ⟨commits, entries, hEntries, hBuilt⟩
  have hOld := shown_iff (holds_old hEntries)
  have hNew := shown_iff (holds_new hEntries)
  rw [buildRowChange_eq hEntries] at hBuilt
  cases hBuilt
  constructor
  · intro hShown
    exact ⟨hOld.mp hShown.old, hNew.mp hShown.new⟩
  · intro hClear
    exact ⟨rfl, hOld.mpr hClear.old, hNew.mpr hClear.new⟩

end Diffs

section Conflicts

variable {row : ConflictRow} {conflict : MergeConflictRow}

theorem conflict_shownBy_iff
    (hRenders : row.Renders conflict) :
    row.ShownBy conflict ↔ row.Clear := by
  rcases hRenders with ⟨facts, entries, hEntries, hBuilt⟩
  have hBase := shown_iff (holds_base hEntries)
  have hOurs := shown_iff (holds_ours hEntries)
  have hTheirs := shown_iff (holds_theirs hEntries)
  rw [← hBuilt]
  constructor
  · intro hShown
    exact ⟨hBase.mp hShown.base, hOurs.mp hShown.ours,
      hTheirs.mp hShown.theirs⟩
  · intro hClear
    exact ⟨hBase.mpr hClear.base, hOurs.mpr hClear.ours,
      hTheirs.mpr hClear.theirs⟩

end Conflicts

/- Versions that are shown by the same columns are the
   same. -/
theorem same_of_shown
    {first second : List (String × Option String)}
    {other : RowVersion}
    (hFirst : Shown first version)
    (hSecond : Shown second other)
    (hSame : Same first second) :
    Same version.columns other.columns := by
  intro name
  rw [← hFirst name, hSame name, hSecond name]

/- A version of one column. -/
def oneColumn
    (name : String)
    (value : Option String) : RowVersion where
  columns := [(name, value)]
  distinct := List.pairwise_singleton _ _

/- A row whose old value in a column is the given one. -/
def diffFrom
    (name : String)
    (value : Option String) : DiffRow where
  diffType := .modified
  old := oneColumn name value
  new := oneColumn name (some "x")

theorem renders_diff (row : DiffRow) :
    row.Renders
      { diffType := row.diffType
        oldValues :=
          sideColumns "from_"
            ["from_commit", "from_commit_date"]
            (recordFrom (row.entries ⟨"", "", "", ""⟩))
        newValues :=
          sideColumns "to_" ["to_commit", "to_commit_date"]
            (recordFrom (row.entries ⟨"", "", "", ""⟩)) } :=
  ⟨⟨"", "", "", ""⟩, _, List.Perm.refl _,
    buildRowChange_eq (List.Perm.refl _)⟩

def conflictOn (name : String) (value : Option String) :
    ConflictRow where
  base := oneColumn name value
  ours := oneColumn name value
  theirs := oneColumn name value

theorem renders_conflict (row : ConflictRow) :
    row.Renders
      (buildConflictRow
        (recordFrom (row.entries ⟨"", "", "", ""⟩))) :=
  ⟨⟨"", "", "", ""⟩, _, List.Perm.refl _, rfl⟩

end Versioning
