import Mathlib.Data.List.Nodup

/-
  Tables of rows with a primary key.

  A table carries the proof that no key occurs twice, and
  every statement on it (insert, update, delete) yields such
  a table again.  A statement on a table is described by the
  effect it has on `find?`, the row stored under a key.

  Key definitions include:
    * `KeyedTable`
    * `KeyedTable.find?`
    * `KeyedTable.insert?`
    * `KeyedTable.updateWhere`
    * `KeyedTable.deleteWhere`
    * `KeyedTable.affected`

  Key theorems include:
    * `KeyedTable.find?_eq_some_iff`
    * `KeyedTable.find?_insert?`
    * `KeyedTable.find?_updateWhere`
    * `KeyedTable.keys_updateWhere`
    * `KeyedTable.find?_deleteWhere`
    * `KeyedTable.filter_key`
    * `KeyedTable.affected_key_eq_one_iff`
-/

------------------------------------------------------------
-- Tables
------------------------------------------------------------

namespace Relational

/- Rows, no two of them under the same key. -/
structure KeyedTable
    {Row Key : Type}
    (key : Row → Key) where
  rows : List Row
  distinct : (rows.map key).Nodup

namespace KeyedTable

variable {Row Key : Type} [DecidableEq Key]
variable {key : Row → Key}
variable {t : KeyedTable key}

/- The table without rows. -/
def empty : KeyedTable key where
  rows := []
  distinct := List.nodup_nil

/- The row stored under a key. -/
def find? (t : KeyedTable key) (k : Key) : Option Row :=
  t.rows.find? fun row => key row = k

/- The number of rows that meet a condition. -/
def affected
    (t : KeyedTable key)
    (cond : Row → Bool) : Nat :=
  t.rows.countP cond

omit [DecidableEq Key] in
theorem key_injOn
    (t : KeyedTable key)
    {row other : Row}
    (hRow : row ∈ t.rows)
    (hOther : other ∈ t.rows)
    (hKey : key row = key other) :
    row = other :=
  List.inj_on_of_nodup_map t.distinct hRow hOther hKey

theorem find?_eq_some_iff
    {k : Key}
    {row : Row} :
    t.find? k = some row ↔
      row ∈ t.rows ∧ key row = k := by
  unfold find?
  constructor
  · intro hFind
    refine ⟨List.mem_of_find?_eq_some hFind, ?_⟩
    simpa using List.find?_some hFind
  · intro hRow
    cases hFind :
        t.rows.find? (fun other => key other = k) with
    | none =>
        rw [List.find?_eq_none] at hFind
        simpa [hRow.2] using hFind row hRow.1
    | some other =>
        have hMember := List.mem_of_find?_eq_some hFind
        have hKey : key other = k := by
          simpa using List.find?_some hFind
        have hEq : other = row :=
          t.key_injOn hMember hRow.1 (by rw [hKey, hRow.2])
        rw [hEq]

theorem find?_eq_none_iff
    {k : Key} :
    t.find? k = none ↔ ∀ row ∈ t.rows, key row ≠ k := by
  simp [find?]

/- Insert a row, unless its key is taken. -/
def insert?
    (t : KeyedTable key)
    (row : Row) :
    Option (KeyedTable key) :=
  if hFree : t.find? (key row) = none then
    some
      { rows := row :: t.rows
        distinct := by
          rw [List.map_cons, List.nodup_cons]
          refine ⟨?_, t.distinct⟩
          intro hMember
          rcases List.mem_map.mp hMember with
            ⟨other, hOther, hKey⟩
          exact find?_eq_none_iff.mp hFree other hOther
            hKey }
  else none

/- Update the rows that meet a condition. -/
def updateWhere
    (t : KeyedTable key)
    (cond : Row → Bool)
    (set : Row → Row)
    (keeps : ∀ row, key (set row) = key row) :
    KeyedTable key where
  rows := t.rows.map fun row =>
    if cond row then set row else row
  distinct := by
    have hKeys :
        (t.rows.map fun row =>
          if cond row then set row else row).map key =
          t.rows.map key := by
      rw [List.map_map]
      apply List.map_congr_left
      intro row _
      by_cases hCond : cond row = true
      · simp [hCond, keeps]
      · simp [hCond]
    rw [hKeys]
    exact t.distinct

/- Delete the rows that meet a condition. -/
def deleteWhere
    (t : KeyedTable key)
    (cond : Row → Bool) :
    KeyedTable key where
  rows := t.rows.filter fun row => !cond row
  distinct :=
    t.distinct.sublist (List.filter_sublist.map key)

------------------------------------------------------------
-- What A Statement Does
------------------------------------------------------------

variable {Row Key : Type} [DecidableEq Key]
variable {key : Row → Key}
variable {t u : KeyedTable key}
variable {row : Row} {k : Key}
variable {cond : Row → Bool} {set : Row → Row}
variable {keeps : ∀ row, key (set row) = key row}

@[simp] theorem find?_empty :
    (empty : KeyedTable key).find? k = none := rfl

theorem key_of_find?
    (hFind : t.find? k = some row) :
    key row = k :=
  (find?_eq_some_iff.mp hFind).2

theorem mem_of_find?
    (hFind : t.find? k = some row) :
    row ∈ t.rows :=
  (find?_eq_some_iff.mp hFind).1

theorem find?_of_mem
    (hMember : row ∈ t.rows) :
    t.find? (key row) = some row :=
  find?_eq_some_iff.mpr ⟨hMember, rfl⟩

theorem insert?_eq_some_iff :
    t.insert? row = some u ↔
      t.find? (key row) = none ∧
        u.rows = row :: t.rows := by
  unfold insert?
  by_cases hFree : t.find? (key row) = none
  · rw [dif_pos hFree, Option.some.injEq]
    constructor
    · intro hEq
      subst hEq
      exact ⟨hFree, rfl⟩
    · intro hRows
      cases u
      simp_all
  · rw [dif_neg hFree]
    simp [hFree]

/- A row that was inserted is found; others stay. -/
theorem find?_insert?
    (hInsert : t.insert? row = some u) :
    u.find? k =
      if key row = k then some row else t.find? k := by
  rcases insert?_eq_some_iff.mp hInsert with ⟨_, hRows⟩
  unfold find?
  rw [hRows, List.find?_cons]
  by_cases hKey : key row = k
  · simp [hKey]
  · simp [hKey]

theorem find?_updateWhere :
    (t.updateWhere cond set keeps).find? k =
      (t.find? k).map fun row =>
        if cond row then set row else row := by
  unfold find? updateWhere
  rw [List.find?_map]
  congr 1
  apply congrArg (t.rows.find? ·)
  funext row
  by_cases hCond : cond row = true
  · simp [hCond, keeps]
  · simp [hCond]

/- An update leaves the keys as they are. -/
omit [DecidableEq Key] in
theorem keys_updateWhere
    (t : KeyedTable key)
    (cond : Row → Bool)
    (set : Row → Row)
    (keeps : ∀ row, key (set row) = key row) :
    (t.updateWhere cond set keeps).rows.map key =
      t.rows.map key := by
  unfold updateWhere
  rw [List.map_map]
  apply List.map_congr_left
  intro row _
  by_cases hCond : cond row = true
  · simp [hCond, keeps]
  · simp [hCond]

/- A table is its rows. -/
omit [DecidableEq Key] in
theorem eq_of_rows (hRows : t.rows = u.rows) : t = u := by
  cases t
  cases u
  cases hRows
  rfl

/- An update that meets no row changes nothing. -/
omit [DecidableEq Key] in
theorem updateWhere_eq_self
    (keeps : ∀ row, key (set row) = key row)
    (hNone : ∀ row ∈ t.rows, cond row = false) :
    t.updateWhere cond set keeps = t := by
  apply eq_of_rows
  unfold updateWhere
  conv_rhs => rw [← List.map_id t.rows]
  apply List.map_congr_left
  intro row hRow
  simp [hNone row hRow]

omit [DecidableEq Key] in
theorem mem_deleteWhere :
    row ∈ (t.deleteWhere cond).rows ↔
      row ∈ t.rows ∧ cond row = false := by
  simp [deleteWhere]

theorem find?_deleteWhere :
    (t.deleteWhere cond).find? k =
      (t.find? k).filter fun row => !cond row := by
  apply Option.ext
  intro row
  simp only [find?_eq_some_iff, mem_deleteWhere,
    Option.filter_eq_some_iff, Bool.not_eq_true']
  constructor
  · rintro ⟨⟨hMember, hCond⟩, hKey⟩
    exact ⟨⟨hMember, hKey⟩, hCond⟩
  · rintro ⟨⟨hMember, hKey⟩, hCond⟩
    exact ⟨⟨hMember, hCond⟩, hKey⟩

/- At most one row is stored under a key. -/
theorem filter_key (t : KeyedTable key) (k : Key) :
    t.rows.filter (fun row => key row = k) =
      (t.find? k).toList := by
  cases hFind : t.find? k with
  | none =>
      rw [find?_eq_none_iff] at hFind
      rw [Option.toList_none, List.filter_eq_nil_iff]
      intro row hRow
      simpa using hFind row hRow
  | some found =>
      have hFound := find?_eq_some_iff.mp hFind
      have hNodup : t.rows.Nodup := t.distinct.of_map
      apply List.perm_singleton.mp
      rw [List.perm_ext_iff_of_nodup
        (hNodup.filter _) (by simp)]
      intro row
      simp only [List.mem_filter, decide_eq_true_eq,
        List.mem_singleton]
      constructor
      · rintro ⟨hRow, hKey⟩
        exact t.key_injOn hRow hFound.1
          (by rw [hKey, hFound.2])
      · rintro rfl
        exact hFound

/- A statement on one key affects at most one row. -/
theorem affected_key_eq_one_iff :
    t.affected (fun row => key row = k && cond row) = 1 ↔
      ∃ row, t.find? k = some row ∧ cond row := by
  have hCount :
      t.affected (fun row => key row = k && cond row) =
        (t.find? k).toList.countP cond := by
    rw [← filter_key, List.countP_filter, affected]
    apply List.countP_congr
    intro row _
    rw [Bool.and_comm]
  rw [hCount]
  cases t.find? k with
  | none => simp
  | some row => simp

/- Whether a statement on a key affects a row at all. -/
theorem affected_key_eq_one :
    t.affected (fun row => key row = k) = 1 ↔
      (t.find? k).isSome := by
  have hAll :
      t.affected (fun row => key row = k && true) = 1 ↔
        ∃ row, t.find? k = some row ∧ true :=
    affected_key_eq_one_iff
  simp only [Bool.and_true, and_true] at hAll
  rw [hAll, Option.isSome_iff_exists]

end KeyedTable

end Relational
