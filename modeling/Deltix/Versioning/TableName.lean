import Mathlib.Data.List.Basic

/-
  The table names that the versioning code lets through to a
  statement, and the hidden tables of a full-text index that
  it leaves out.

  Key definitions include:
    * `safeTableRe`
    * `isDoltFulltextInternalTable`
    * `SafeTable`

  Key theorems include:
    * `SafeTable.quote_notMem`
-/

namespace Versioning

/- `/^[A-Za-z_][A-Za-z0-9_]*$/` -/
def safeTableRe (table : String) : Bool :=
  match table.toList with
  | [] => false
  | c :: rest =>
      (c.isAlpha || c == '_') &&
        rest.all fun d => d.isAlphanum || d == '_'

/- The characters that `.` does not match. -/
def lineTerminators : List Char :=
  ['\n', '\r', Char.ofNat 0x2028, Char.ofNat 0x2029]

/- The backing tables of a full-text index. -/
def fulltextSuffixes : List String :=
  [ "_fts_doc_count"
  , "_fts_global_count"
  , "_fts_position"
  , "_fts_row_count"
  , "_fts_config" ]

/-
  `/^dolt_.*_fts_(?:doc_count|global_count|position|
  row_count|config)$/`
-/
def isDoltFulltextInternalTable (table : String) : Bool :=
  match table.toList.dropPrefix? "dolt_".toList with
  | none => false
  | some rest =>
      fulltextSuffixes.any fun kind =>
        match rest.dropSuffix? kind.toList with
        | none => false
        | some middle =>
            middle.all fun c => !lineTerminators.contains c

/- A table name that is an SQL identifier as it stands. -/
structure SafeTable where
  name : String
  safe : safeTableRe name

namespace SafeTable

/- A safe name consists of letters, digits and underscores. -/
theorem chars
    (table : SafeTable)
    {c : Char}
    (hMember : c ∈ table.name.toList) :
    c.isAlphanum ∨ c = '_' := by
  have hSafe := table.safe
  unfold safeTableRe at hSafe
  cases hName : table.name.toList with
  | nil => simp [hName] at hMember
  | cons d rest =>
      rw [hName] at hSafe hMember
      simp only [Bool.and_eq_true, Bool.or_eq_true,
        beq_iff_eq, List.all_eq_true] at hSafe
      rcases List.mem_cons.mp hMember with hHead | hRest
      · subst hHead
        rcases hSafe.1 with hAlpha | hUnderscore
        · left
          simp [Char.isAlphanum, hAlpha]
        · exact Or.inr hUnderscore
      · exact hSafe.2 c hRest

/- A safe name cannot end a string literal. -/
theorem quote_notMem
    (table : SafeTable) :
    '\'' ∉ table.name.toList := by
  intro hMember
  rcases table.chars hMember with hAlpha | hUnderscore
  · revert hAlpha
    decide
  · revert hUnderscore
    decide

end SafeTable

example :
    isDoltFulltextInternalTable
      "dolt_notes_ix_1_fts_config" = true := by
  decide

end Versioning
