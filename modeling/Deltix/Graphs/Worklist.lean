import Mathlib.Data.Finset.Card
import Mathlib.Data.Finset.Dedup
import Mathlib.Order.Bounds.Basic

/-
  Reachability with a worklist: what is found is added to
  the known nodes and put at the end of a queue.

  Key definitions include:
    * `explore`
    * `ClosedUnder`
    * `budget`

  Key theorems include:
    * `isLeast_explore`
    * `nodup_explore`
    * `explore_enough`
-/

namespace Graphs

variable {Node : Type} [DecidableEq Node]

/- The successors of a node that are not known yet. -/
def fresh
    (successors : Node → List Node)
    (known : List Node)
    (node : Node) : List Node :=
  (successors node).filter fun next => !known.contains next

/- Work through a queue, for so many rounds at most. -/
def explore
    (successors : Node → List Node) :
    (rounds : Nat) → (known queue : List Node) → List Node
  | 0, known, _ => known
  | _ + 1, known, [] => known
  | rounds + 1, known, node :: queue =>
      explore successors rounds
        (known ++ fresh successors known node)
        (queue ++ fresh successors known node)

/- A set that the successors of its members belong to. -/
def ClosedUnder
    (successors : Node → List Node)
    (nodes : Set Node) : Prop :=
  ∀ node ∈ nodes, ∀ next ∈ successors node, next ∈ nodes

/- The rounds that are left: one for each node that is in the
   queue or can still get there. -/
def budget
    (targets : Finset Node)
    (known queue : List Node) : Nat :=
  queue.length + (targets \ known.toFinset).card

------------------------------------------------------------
-- What One Round Keeps
------------------------------------------------------------

variable {successors : Node → List Node}
variable {targets : Finset Node} {known queue : List Node}
variable {node next : Node} {nodes : Set Node}
variable {rounds : Nat}

theorem mem_fresh :
    next ∈ fresh successors known node ↔
      next ∈ successors node ∧ next ∉ known := by
  simp [fresh]

theorem nodup_append_fresh
    (hKnown : known.Nodup)
    (hSuccessors : (successors node).Nodup) :
    (known ++ fresh successors known node).Nodup := by
  have hFresh : (fresh successors known node).Nodup :=
    hSuccessors.filter _
  have hApart : known.Disjoint (fresh successors known node) := by
    intro other hOld hNew
    exact (mem_fresh.mp hNew).2 hOld
  exact hKnown.append hFresh hApart

/- A round costs one, whatever it finds. -/
theorem budget_round
    (hTargets : ∀ next ∈ successors node, next ∈ targets)
    (hSuccessors : (successors node).Nodup) :
    budget targets (known ++ fresh successors known node)
          (queue ++ fresh successors known node) + 1 =
      budget targets known (node :: queue) := by
  have hFresh : (fresh successors known node).Nodup :=
    hSuccessors.filter _
  have hSubset :
      (fresh successors known node).toFinset ⊆
        targets \ known.toFinset := by
    intro other hMember
    rw [List.mem_toFinset, mem_fresh] at hMember
    rw [Finset.mem_sdiff, List.mem_toFinset]
    exact ⟨hTargets other hMember.1, hMember.2⟩
  have hLeft :
      targets \
          (known ++ fresh successors known node).toFinset =
        (targets \ known.toFinset) \
          (fresh successors known node).toFinset := by
    rw [List.toFinset_append, sdiff_sdiff_left]
    rfl
  have hCard := Finset.card_sdiff_add_card_eq_card hSubset
  rw [List.toFinset_card_of_nodup hFresh] at hCard
  unfold budget
  rw [hLeft, List.length_append, List.length_cons]
  omega

/- Nothing is found that every closed set lacks. -/
theorem explore_subset
    (hClosed : ClosedUnder successors nodes)
    (hKnown : ∀ other ∈ known, other ∈ nodes)
    (hQueue : ∀ other ∈ queue, other ∈ nodes) :
    ∀ other ∈ explore successors rounds known queue,
      other ∈ nodes := by
  induction rounds generalizing known queue with
  | zero => exact hKnown
  | succ rounds ih =>
      cases queue with
      | nil => exact hKnown
      | cons first rest =>
          have hFirst := hQueue first List.mem_cons_self
          have hFresh :
              ∀ other ∈ fresh successors known first,
                other ∈ nodes := by
            intro other hMember
            have hNext := (mem_fresh.mp hMember).1
            exact hClosed first hFirst other hNext
          apply ih
          · intro other hMember
            rcases List.mem_append.mp hMember with hOld | hNew
            · exact hKnown other hOld
            · exact hFresh other hNew
          · intro other hMember
            rcases List.mem_append.mp hMember with hOld | hNew
            · exact hQueue other (List.mem_cons_of_mem _ hOld)
            · exact hFresh other hNew

theorem subset_explore
    (hMember : next ∈ known) :
    next ∈ explore successors rounds known queue := by
  induction rounds generalizing known queue with
  | zero => exact hMember
  | succ rounds ih =>
      cases queue with
      | nil => exact hMember
      | cons first rest =>
          exact ih (List.mem_append_left _ hMember)

theorem nodup_explore
    (hSuccessors : ∀ other, (successors other).Nodup)
    (hKnown : known.Nodup) :
    (explore successors rounds known queue).Nodup := by
  induction rounds generalizing known queue with
  | zero => exact hKnown
  | succ rounds ih =>
      cases queue with
      | nil => exact hKnown
      | cons first rest =>
          apply ih
          exact nodup_append_fresh hKnown (hSuccessors first)

/- The known nodes whose successors may still be missing are
   in the queue. -/
theorem closed_explore
    (hTargets :
      ∀ other, ∀ next ∈ successors other, next ∈ targets)
    (hSuccessors : ∀ other, (successors other).Nodup)
    (hRounds : budget targets known queue ≤ rounds)
    (hQueued :
      ∀ other ∈ known,
        other ∈ queue ∨ ∀ next ∈ successors other, next ∈ known) :
    ClosedUnder successors
      {other | other ∈ explore successors rounds known queue} := by
  induction rounds generalizing known queue with
  | zero =>
      have hNone : queue = [] := by
        unfold budget at hRounds
        exact List.length_eq_zero_iff.mp (by omega)
      subst hNone
      intro other hMember next hNext
      rcases hQueued other hMember with hQueue | hKnown
      · cases hQueue
      · exact hKnown next hNext
  | succ rounds ih =>
      cases queue with
      | nil =>
          intro other hMember next hNext
          rcases hQueued other hMember with hQueue | hKnown
          · cases hQueue
          · exact hKnown next hNext
      | cons first rest =>
          have hRound :
              budget targets
                    (known ++ fresh successors known first)
                    (rest ++ fresh successors known first) +
                  1 =
                budget targets known (first :: rest) :=
            budget_round (hTargets first) (hSuccessors first)
          apply ih
          · omega
          · intro other hMember
            rcases List.mem_append.mp hMember with hOld | hNew
            · rcases hQueued other hOld with hQueue | hKnown
              · rcases List.mem_cons.mp hQueue with hSame | hRest
                · right
                  intro next hNext
                  by_cases hIn : next ∈ known
                  · exact List.mem_append_left _ hIn
                  · apply List.mem_append_right
                    rw [mem_fresh, ← hSame]
                    exact ⟨hNext, hIn⟩
                · left
                  exact List.mem_append_left _ hRest
              · right
                intro next hNext
                exact List.mem_append_left _ (hKnown next hNext)
            · left
              exact List.mem_append_right _ hNew

/- Rounds beyond the budget change nothing. -/
theorem explore_enough
    (hTargets :
      ∀ other, ∀ next ∈ successors other, next ∈ targets)
    (hSuccessors : ∀ other, (successors other).Nodup)
    (hRounds : budget targets known queue ≤ rounds)
    (more : Nat) :
    explore successors (rounds + more) known queue =
      explore successors rounds known queue := by
  induction rounds generalizing known queue with
  | zero =>
      have hNone : queue = [] := by
        unfold budget at hRounds
        exact List.length_eq_zero_iff.mp (by omega)
      subst hNone
      cases more with
      | zero => rfl
      | succ more =>
          rw [Nat.zero_add]
          rfl
  | succ rounds ih =>
      rw [Nat.succ_add]
      cases queue with
      | nil => rfl
      | cons first rest =>
          have hRound :
              budget targets
                    (known ++ fresh successors known first)
                    (rest ++ fresh successors known first) +
                  1 =
                budget targets known (first :: rest) :=
            budget_round (hTargets first) (hSuccessors first)
          apply ih
          omega

/- With enough rounds the least closed set is found. -/
theorem isLeast_explore
    {start : List Node}
    (hTargets :
      ∀ other, ∀ next ∈ successors other, next ∈ targets)
    (hSuccessors : ∀ other, (successors other).Nodup)
    (hRounds : budget targets known queue ≤ rounds)
    (hKnown : ∀ other, other ∈ known ↔ other ∈ start)
    (hQueue : ∀ other, other ∈ queue ↔ other ∈ start) :
    IsLeast
      {nodes : Set Node |
        (∀ other ∈ start, other ∈ nodes) ∧
          ClosedUnder successors nodes}
      {other | other ∈ explore successors rounds known queue} := by
  constructor
  · constructor
    · intro other hStart
      exact subset_explore ((hKnown other).mpr hStart)
    · apply closed_explore hTargets hSuccessors hRounds
      intro other hMember
      left
      exact (hQueue other).mpr ((hKnown other).mp hMember)
  · intro nodes hNodes other hMember
    apply explore_subset hNodes.2 _ _ other hMember
    · intro first hFirst
      exact hNodes.1 first ((hKnown first).mp hFirst)
    · intro first hFirst
      exact hNodes.1 first ((hQueue first).mp hFirst)

end Graphs
