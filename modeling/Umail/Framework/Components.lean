import Mathlib.Data.Set.Insert
import Mathlib.Logic.Relation

/-! # Rooted components

  A set of vertices with an edge relation, and a function that names the
  root of each vertex. `Rooted` says that the roots are exactly the least
  vertices of the connected components. Two rules maintain it: adding a
  vertex without edges, and adding edges at one vertex `x` while giving one
  common root to every component that the new edges meet.
-/

namespace Components

variable {V : Type}

/-- A chain of neighbouring vertices inside `S`. -/
def Connected (S : Set V) (E : V → V → Prop) : V → V → Prop :=
  Relation.ReflTransGen fun a b => a ∈ S ∧ b ∈ S ∧ E a b

section connected
variable {S S' : Set V} {E F : V → V → Prop}

theorem Connected.refl (a : V) : Connected S E a a := Relation.ReflTransGen.refl

theorem Connected.trans {a b c : V} (h : Connected S E a b) (h' : Connected S E b c) :
    Connected S E a c := Relation.ReflTransGen.trans h h'

theorem Connected.single {a b : V} (ha : a ∈ S) (hb : b ∈ S) (h : E a b) :
    Connected S E a b := Relation.ReflTransGen.single ⟨ha, hb, h⟩

theorem Connected.symm (hsymm : ∀ a b, E a b → E b a) {a b : V} (h : Connected S E a b) :
    Connected S E b a := by
  induction h with
  | refl => exact .refl a
  | tail _ hstep ih =>
    obtain ⟨hb, hc, hE⟩ := hstep
    exact (Connected.single hc hb (hsymm _ _ hE)).trans ih

theorem Connected.mono (hS : S ⊆ S') (hE : ∀ a ∈ S, ∀ b ∈ S, E a b → F a b) {a b : V}
    (h : Connected S E a b) : Connected S' F a b := by
  induction h with
  | refl => exact .refl a
  | tail _ hstep ih =>
    obtain ⟨hb, hc, hbc⟩ := hstep
    exact ih.trans (.single (hS hb) (hS hc) (hE _ hb _ hc hbc))

end connected

/-- `root` names the `le`-least vertex of each connected component. -/
structure Rooted (S : Set V) (E : V → V → Prop) (le : V → V → Prop) (root : V → V) :
    Prop where
  root_mem : ∀ a ∈ S, root a ∈ S
  root_root : ∀ a ∈ S, root (root a) = root a
  adjacent : ∀ a ∈ S, ∀ b ∈ S, E a b → root a = root b
  connected : ∀ a ∈ S, Connected S E a (root a)
  least : ∀ a ∈ S, le (root a) a

namespace Rooted

variable {S : Set V} {E F : V → V → Prop} {le : V → V → Prop} {root r : V → V}

/-! ### What the roots say -/

theorem root_eq_of_connected (h : Rooted S E le root) {a b : V}
    (hab : Connected S E a b) : root a = root b := by
  induction hab with
  | refl => rfl
  | tail _ hstep ih => exact ih.trans (h.adjacent _ hstep.1 _ hstep.2.1 hstep.2.2)

/-- Two vertices have one root exactly when they are connected. -/
theorem root_eq_iff (h : Rooted S E le root) (hsymm : ∀ a b, E a b → E b a) {a b : V}
    (ha : a ∈ S) (hb : b ∈ S) : root a = root b ↔ Connected S E a b := by
  refine ⟨fun hroot => ?_, h.root_eq_of_connected⟩
  have hback : Connected S E (root b) b := (h.connected b hb).symm hsymm
  exact (hroot ▸ h.connected a ha).trans hback

/-- The root is the least vertex of the whole component. -/
theorem root_le (h : Rooted S E le root) {a b : V} (hb : b ∈ S)
    (hab : Connected S E a b) : le (root a) b :=
  h.root_eq_of_connected hab ▸ h.least b hb

/-! ### Maintenance -/

/-- The same vertices, edges and roots, seen through other descriptions. -/
theorem congr (h : Rooted S E le root) {S' : Set V} {le' : V → V → Prop} (hS : S' = S)
    (hE : ∀ a ∈ S, ∀ b ∈ S, F a b ↔ E a b) (hle : ∀ a b, le a b → le' a b)
    (hroot : ∀ a ∈ S, r a = root a) : Rooted S' F le' r := by
  subst hS
  constructor
  · intro a ha
    rw [hroot a ha]
    exact h.root_mem a ha
  · intro a ha
    rw [hroot a ha, hroot _ (h.root_mem a ha), h.root_root a ha]
  · intro a ha b hb hab
    rw [hroot a ha, hroot b hb, h.adjacent a ha b hb ((hE a ha b hb).mp hab)]
  · intro a ha
    rw [hroot a ha]
    exact (h.connected a ha).mono (fun _ h => h) fun c hc d hd hcd => (hE c hc d hd).mpr hcd
  · intro a ha
    rw [hroot a ha]
    exact hle _ _ (h.least a ha)

/-- A new vertex without edges is its own component. -/
theorem insert (h : Rooted S E le root) {x : V} (hx : x ∉ S) (hle : le x x)
    (hold : ∀ a ∈ S, r a = root a) (hnew : r x = x) :
    Rooted (Insert.insert x S) (fun a b => a ≠ x ∧ b ≠ x ∧ E a b) le r where
  root_mem := by
    intro a hor
    rcases hor with rfl | ha
    · exact Or.inl hnew
    · exact Or.inr (hold a ha ▸ h.root_mem a ha)
  root_root := by
    intro a hor
    rcases hor with rfl | ha
    · rw [hnew, hnew]
    · rw [hold a ha, hold _ (h.root_mem a ha), h.root_root a ha]
  adjacent := by
    intro a ha b hb hparts
    obtain ⟨hax, hbx, hab⟩ := hparts
    -- edges at the new vertex do not count, so both ends are old
    have ha' : a ∈ S := ha.resolve_left hax
    have hb' : b ∈ S := hb.resolve_left hbx
    rw [hold a ha', hold b hb', h.adjacent a ha' b hb' hab]
  connected := by
    intro a hor
    rcases hor with rfl | ha
    · rw [hnew]
      exact .refl _
    · rw [hold a ha]
      apply (h.connected a ha).mono (Set.subset_insert x S)
      intro c hc d hd hcd
      exact ⟨fun e => hx (e ▸ hc), fun e => hx (e ▸ hd), hcd⟩
  least := by
    intro a hor
    rcases hor with rfl | ha
    · rwa [hnew]
    · rw [hold a ha]
      exact h.least a ha

/-- **Linking.** New edges at `x` meet the components with roots in `L`
    (that of `x` among them); their least root `m` becomes the root of all. -/
theorem link (h : Rooted S E le root) (hsymm : ∀ a b, F a b → F b a)
    (htrans : ∀ a b c, le a b → le b c → le a c) {x : V} (hx : x ∈ S)
    (hmono : ∀ a ∈ S, ∀ b ∈ S, E a b → F a b)
    (hold : ∀ a ∈ S, ∀ b ∈ S, a ≠ x → b ≠ x → F a b → root a = root b)
    {L : Set V} (hxL : root x ∈ L) (hmeet : ∀ b ∈ S, F x b → root b ∈ L)
    (hL : ∀ l ∈ L, ∃ a ∈ S, root a = l ∧ (a = x ∨ F x a))
    {m : V} (hm : m ∈ L) (hleast : ∀ l ∈ L, le m l)
    (hin : ∀ a ∈ S, root a ∈ L → r a = m)
    (hout : ∀ a ∈ S, root a ∉ L → r a = root a) :
    Rooted S F le r := by
  -- every vertex whose root is in `L` is connected to `x` by the new edges
  have hold_conn : ∀ a ∈ S, Connected S F a (root a) := fun a ha =>
    (h.connected a ha).mono (fun _ h => h) hmono
  have hreach : ∀ l ∈ L, Connected S F l x := by
    intro l hl
    obtain ⟨a, ha, rfl, hax⟩ := hL l hl
    have hback : Connected S F (root a) a := (hold_conn a ha).symm hsymm
    rcases hax with rfl | hxa
    · exact hback
    · exact hback.trans (.single ha hx (hsymm _ _ hxa))
  have hroot_m : ∀ l ∈ L, l ∈ S ∧ root l = l := by
    intro l hl
    obtain ⟨a, ha, rfl, -⟩ := hL l hl
    exact ⟨h.root_mem a ha, h.root_root a ha⟩
  obtain ⟨hmS, hmroot⟩ := hroot_m m hm
  have hm' : r m = m := hin m hmS (hmroot.symm ▸ hm)
  constructor
  · intro a ha
    by_cases hal : root a ∈ L
    · rw [hin a ha hal]
      exact hmS
    · rw [hout a ha hal]
      exact h.root_mem a ha
  · intro a ha
    by_cases hal : root a ∈ L
    · rw [hin a ha hal, hm']
    · have hrr : root (root a) = root a := h.root_root a ha
      rw [hout a ha hal, hout _ (h.root_mem a ha) (hrr.symm ▸ hal), hrr]
  · -- an edge at `x` joins two roots in `L`; any other edge is an old one
    have hedge : ∀ b ∈ S, F x b → r x = r b := fun b hb hxb => by
      rw [hin x hx hxL, hin b hb (hmeet b hb hxb)]
    intro a ha b hb hab
    by_cases hax : a = x
    · subst hax
      exact hedge b hb hab
    · by_cases hbx : b = x
      · subst hbx
        exact (hedge a ha (hsymm _ _ hab)).symm
      · have hroot : root a = root b := hold a ha b hb hax hbx hab
        by_cases hal : root a ∈ L
        · rw [hin a ha hal, hin b hb (hroot ▸ hal)]
        · rw [hout a ha hal, hout b hb (hroot ▸ hal), hroot]
  · intro a ha
    by_cases hal : root a ∈ L
    · rw [hin a ha hal]
      exact ((hold_conn a ha).trans (hreach _ hal)).trans ((hreach m hm).symm hsymm)
    · rw [hout a ha hal]
      exact hold_conn a ha
  · intro a ha
    by_cases hal : root a ∈ L
    · rw [hin a ha hal]
      exact htrans _ _ _ (hleast _ hal) (h.least a ha)
    · rw [hout a ha hal]
      exact h.least a ha

end Rooted

end Components
