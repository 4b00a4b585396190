import Mathlib.Data.List.Perm.Subperm
import Mathlib.Data.List.Flatten
import Mathlib.Logic.Relation

/-! # Loops over a stack of open items

  A loop that pops an item, looks at it, and either raises an error or
  pushes further items. The items pushed by `a` are `push a`; `below a` lists
  everything that is ever on the stack because of `a`. Where the items form
  a forest (`Forest`), the loop ends, meets every item of `below` at most
  once, and raises exactly when one of them does.
-/

namespace Worklist

variable {α ε : Type}

/-- The loop for at most `rounds` rounds; `visit` takes the popped item and
    the rest of the stack. -/
def run (visit : α → List α → Except ε (List α)) : Nat → List α →
    Option (Except ε Unit)
  | 0, _ => none
  | _ + 1, [] => some (.ok ())
  | rounds + 1, a :: stack =>
    match visit a stack with
    | .error e => some (.error e)
    | .ok stack => run visit rounds stack

/-- The items that the loop pops, in order. -/
def visited (visit : α → List α → Except ε (List α)) : Nat → List α → List α
  | 0, _ => []
  | _ + 1, [] => []
  | rounds + 1, a :: stack =>
    match visit a stack with
    | .error _ => [a]
    | .ok stack => a :: visited visit rounds stack

/-- What one visit does: raise `e`, or push. -/
structure Visits (visit : α → List α → Except ε (List α)) (e : ε) (raises : α → Prop)
    (push : α → List α) : Prop where
  raise : ∀ a stack, raises a → visit a stack = .error e
  push : ∀ a stack, ¬ raises a → visit a stack = .ok (push a ++ stack)

/-- `below a` lists `a` and what is below the items it pushes. -/
def Forest (push below : α → List α) : Prop :=
  ∀ a, (below a).Perm (a :: (push a).flatMap below)

section forest
variable {push below : α → List α}

theorem Forest.mem_self (h : Forest push below) (a : α) : a ∈ below a :=
  (h a).mem_iff.mpr List.mem_cons_self

theorem Forest.mem_of_push (h : Forest push below) {a b c : α} (hb : b ∈ push a)
    (hc : c ∈ below b) : c ∈ below a :=
  (h a).mem_iff.mpr (List.mem_cons_of_mem a (List.mem_flatMap_of_mem hb hc))

/-- Below `a` is what pushes lead to from `a`. -/
theorem Forest.mem_below_iff (h : Forest push below) {a c : α} :
    c ∈ below a ↔ Relation.ReflTransGen (fun x y => y ∈ push x) a c := by
  constructor
  · intro hc
    -- what a pushed item has below it is a shorter list
    induction hlen : (below a).length using Nat.strongRecOn generalizing a with
    | ind n ih =>
      subst hlen
      obtain rfl | hbelow := List.mem_cons.mp ((h a).mem_iff.mp hc)
      · exact .refl
      · obtain ⟨b, hb, hcb⟩ := List.mem_flatMap.mp hbelow
        have hle : (below b).length ≤ ((push a).flatMap below).length := by
          rw [List.flatMap_def]
          exact (List.sublist_flatten_of_mem (List.mem_map_of_mem hb)).length_le
        have hlt : (below b).length < (below a).length := by
          rw [(h a).length_eq, List.length_cons]
          omega
        exact .head hb (ih _ hlt hcb rfl)
  · intro hreach
    induction hreach using Relation.ReflTransGen.head_induction_on with
    | refl => exact h.mem_self c
    | head hb _ ih => exact h.mem_of_push hb ih

theorem Forest.stack_perm (h : Forest push below) (a : α) (stack : List α) :
    ((a :: stack).flatMap below).Perm (a :: (push a ++ stack).flatMap below) := by
  rw [List.flatMap_cons, List.flatMap_append, ← List.cons_append]
  exact (h a).append_right _

end forest

section loop
variable {visit : α → List α → Except ε (List α)} {e : ε} {raises : α → Prop}
  {push below : α → List α}

/-- **The loop ends**, with the error exactly when an item below the stack raises. -/
theorem run_eq (hvisit : Visits visit e raises push) (hforest : Forest push below)
    {rounds : Nat} {stack : List α} (hrounds : (stack.flatMap below).length < rounds) :
    ((∃ a ∈ stack.flatMap below, raises a) ∧ run visit rounds stack = some (.error e)) ∨
    ((∀ a ∈ stack.flatMap below, ¬ raises a) ∧ run visit rounds stack = some (.ok ())) := by
  induction rounds generalizing stack with
  | zero => omega
  | succ rounds ih =>
    cases stack with
    | nil => exact .inr ⟨by simp, rfl⟩
    | cons a stack =>
      have hperm := hforest.stack_perm a stack
      by_cases hraise : raises a
      · refine .inl ⟨⟨a, hperm.mem_iff.mpr List.mem_cons_self, hraise⟩, ?_⟩
        rw [run, hvisit.raise a stack hraise]
      · have hshort : ((push a ++ stack).flatMap below).length < rounds := by
          rw [hperm.length_eq, List.length_cons] at hrounds
          omega
        rw [run, hvisit.push a stack hraise]
        obtain ⟨⟨b, hb, hbraise⟩, hrun⟩ | ⟨hnone, hrun⟩ := ih hshort
        · exact .inl ⟨⟨b, hperm.mem_iff.mpr (List.mem_cons_of_mem a hb), hbraise⟩, hrun⟩
        · refine .inr ⟨?_, hrun⟩
          intro b hb
          obtain rfl | hb := List.mem_cons.mp (hperm.mem_iff.mp hb)
          · exact hraise
          · exact hnone b hb

/-- No item is popped more often than it is listed. -/
theorem visited_subperm (hvisit : Visits visit e raises push) (hforest : Forest push below)
    (rounds : Nat) (stack : List α) :
    (visited visit rounds stack).Subperm (stack.flatMap below) := by
  induction rounds generalizing stack with
  | zero => exact List.nil_subperm
  | succ rounds ih =>
    cases stack with
    | nil => exact List.nil_subperm
    | cons a stack =>
      have hperm := hforest.stack_perm a stack
      by_cases hraise : raises a
      · rw [visited, hvisit.raise a stack hraise]
        exact (List.singleton_subperm_iff.mpr (hperm.mem_iff.mpr List.mem_cons_self))
      · rw [visited, hvisit.push a stack hraise]
        exact ((List.subperm_cons a).mpr (ih (push a ++ stack))).trans hperm.symm.subperm

end loop

end Worklist
