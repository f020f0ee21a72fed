import Mathlib.Data.List.Nodup
import Mathlib.Data.List.Perm.Subperm
import Mathlib.Data.Nat.Find
import Mathlib.Logic.Relation

/-
  Reachability in a graph that is given by the successors of
  each node, and a search of bounded depth for it.

  Key definitions include:
    * `Leads`
    * `within`

  Key theorems include:
    * `leads_of_within`
    * `within_enough`
    * `leads_congr`
-/

namespace Relational

variable {Node : Type}
variable {next other : Node → List Node}
variable {node target : Node}
variable {nodes : Set Node}

/- There is a path along successors. -/
def Leads (next : Node → List Node) : Node → Node → Prop :=
  Relation.ReflTransGen fun node after => after ∈ next node

/- A set of nodes that no path leaves. -/
def ClosedUnder (next : Node → List Node) (nodes : Set Node) :
    Prop :=
  ∀ node ∈ nodes, ∀ after ∈ next node, after ∈ nodes

theorem Leads.mem
    (hClosed : ClosedUnder next nodes)
    (hNode : node ∈ nodes)
    (hLeads : Leads next node target) :
    target ∈ nodes := by
  induction hLeads with
  | refl => exact hNode
  | tail _ hStep ih => exact hClosed _ ih _ hStep

/- Graphs that agree on a set that no path leaves have the
   same paths there. -/
theorem leads_congr
    (hClosed : ClosedUnder next nodes)
    (hAgree : ∀ node ∈ nodes, other node = next node)
    (hNode : node ∈ nodes) :
    Leads other node target ↔ Leads next node target := by
  constructor
  · intro hLeads
    induction hLeads with
    | refl => exact .refl
    | @tail middle last hPath hStep ih =>
        have hMiddle : middle ∈ nodes :=
          Leads.mem hClosed hNode ih
        rw [hAgree middle hMiddle] at hStep
        exact ih.tail hStep
  · intro hLeads
    induction hLeads with
    | refl => exact .refl
    | @tail middle last hPath hStep ih =>
        have hMiddle : middle ∈ nodes :=
          Leads.mem hClosed hNode hPath
        rw [← hAgree middle hMiddle] at hStep
        exact ih.tail hStep

------------------------------------------------------------
-- The Bounded Search
------------------------------------------------------------

variable [DecidableEq Node] {steps more : Nat}
variable {nodes : List Node}

/- There is a path of so many steps at most. -/
def within
    (next : Node → List Node) :
    Nat → (target node : Node) → Bool
  | 0, target, node => target = node
  | steps + 1, target, node =>
      target = node || (next node).any (within next steps target)

theorem within_succ_iff :
    within next (steps + 1) target node = true ↔
      target = node ∨
        ∃ after ∈ next node,
          within next steps target after = true := by
  rw [within, Bool.or_eq_true, decide_eq_true_eq,
    List.any_eq_true]

theorem within_self (next : Node → List Node) (steps : Nat) :
    within next steps node node = true := by
  cases steps with
  | zero => exact decide_eq_true rfl
  | succ steps => exact within_succ_iff.mpr (Or.inl rfl)

theorem within_succ
    (hWithin : within next steps target node = true) :
    within next (steps + 1) target node = true := by
  induction steps generalizing node with
  | zero =>
      rw [within, decide_eq_true_eq] at hWithin
      rw [hWithin]
      exact within_self next 1
  | succ steps ih =>
      rcases within_succ_iff.mp hWithin with
        hSame | ⟨after, hAfter, hRest⟩
      · exact within_succ_iff.mpr (Or.inl hSame)
      · exact
          within_succ_iff.mpr (Or.inr ⟨after, hAfter, ih hRest⟩)

theorem within_mono
    (hMore : steps ≤ more)
    (hWithin : within next steps target node = true) :
    within next more target node = true := by
  induction hMore with
  | refl => exact hWithin
  | step _ ih => exact within_succ ih

theorem leads_of_within
    (hWithin : within next steps target node = true) :
    Leads next node target := by
  induction steps generalizing node with
  | zero =>
      rw [within, decide_eq_true_eq] at hWithin
      rw [hWithin]
      exact .refl
  | succ steps ih =>
      rcases within_succ_iff.mp hWithin with
        hSame | ⟨after, hAfter, hRest⟩
      · rw [hSame]
        exact .refl
      · exact .head hAfter (ih hRest)

theorem exists_within
    (hLeads : Leads next node target) :
    ∃ steps, within next steps target node = true := by
  induction hLeads using Relation.ReflTransGen.head_induction_on with
  | refl => exact ⟨0, within_self next 0⟩
  | head hStep _ ih =>
      rcases ih with ⟨steps, hWithin⟩
      exact
        ⟨steps + 1,
          within_succ_iff.mpr (Or.inr ⟨_, hStep, hWithin⟩)⟩

/- On a path that cannot be shortened there are as many nodes
   with successors as steps: each is nearer than the last. -/
theorem exists_nodes_of_nearest
    (hWithin : within next (steps + 1) target node = true)
    (hNearest : within next steps target node = false) :
    ∃ nodes : List Node,
      nodes.length = steps + 1 ∧ nodes.Nodup ∧
        ∀ other ∈ nodes,
          next other ≠ [] ∧
            within next (steps + 1) target other = true := by
  induction steps generalizing node with
  | zero =>
      refine ⟨[node], rfl, List.nodup_singleton node, ?_⟩
      intro other hOther
      rw [List.mem_singleton.mp hOther]
      refine ⟨?_, hWithin⟩
      rcases within_succ_iff.mp hWithin with
        hSame | ⟨after, hAfter, _⟩
      · rw [hSame, within_self] at hNearest
        cases hNearest
      · exact List.ne_nil_of_mem hAfter
  | succ steps ih =>
      rcases within_succ_iff.mp hWithin with
        hSame | ⟨after, hAfter, hRest⟩
      · rw [hSame, within_self] at hNearest
        cases hNearest
      · have hFar : within next steps target after = false := by
          rw [← Bool.not_eq_true]
          intro hNear
          have hShort :
              within next (steps + 1) target node = true :=
            within_succ_iff.mpr (Or.inr ⟨after, hAfter, hNear⟩)
          rw [hNearest] at hShort
          cases hShort
        rcases ih hRest hFar with
          ⟨nodes, hLength, hNodup, hNodes⟩
        refine ⟨node :: nodes, ?_, ?_, ?_⟩
        · rw [List.length_cons, hLength]
        · rw [List.nodup_cons]
          refine ⟨?_, hNodup⟩
          intro hMember
          rw [(hNodes node hMember).2] at hNearest
          cases hNearest
        · intro other hOther
          rcases List.mem_cons.mp hOther with hHere | hThere
          · rw [hHere]
            exact ⟨List.ne_nil_of_mem hAfter, hWithin⟩
          · rcases hNodes other hThere with ⟨hNext, hOther⟩
            exact ⟨hNext, within_succ hOther⟩

/- A path need not be longer than there are nodes that have
   successors. -/
theorem within_enough
    (hNodes : ∀ node, next node ≠ [] → node ∈ nodes)
    (hLeads : Leads next node target) :
    within next nodes.length target node = true := by
  have hSome := exists_within hLeads
  have hFound := Nat.find_spec hSome
  apply within_mono _ hFound
  cases hNearest : Nat.find hSome with
  | zero => exact Nat.zero_le _
  | succ steps =>
      have hFar : within next steps target node = false := by
        rw [← Bool.not_eq_true]
        apply Nat.find_min hSome
        omega
      rw [hNearest] at hFound
      rcases exists_nodes_of_nearest hFound hFar with
        ⟨path, hLength, hNodup, hPath⟩
      rw [← hLength]
      have hSubset : path ⊆ nodes := by
        intro other hOther
        exact hNodes other (hPath other hOther).1
      exact (List.subperm_of_subset hNodup hSubset).length_le

/- The bounded search finds what is reachable. -/
theorem within_iff_leads
    (hNodes : ∀ node, next node ≠ [] → node ∈ nodes) :
    within next nodes.length target node = true ↔
      Leads next node target := by
  constructor
  · exact leads_of_within
  · exact within_enough hNodes

end Relational
