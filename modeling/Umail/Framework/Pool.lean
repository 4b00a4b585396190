import Umail.Framework.Machine

/-! # Process pools

  Processes that share a state and interleave: each step of the machine is
  one step of one process, one step of the environment, the start of a
  process, or a crash, which drops a process between two of its steps.

  `Valid` is the proof rule: an invariant `I` of the shared state, an
  assertion `L` about the shared state and one process, and a relation `D`
  between two processes. A step has to keep the assertions of its own
  process and those of every other one.
-/

namespace Lts

variable {σ π ε α ι : Type}

/-- A program: what the environment can do to the shared state, how a process
    starts, and how it steps. A step that returns no process ends it. -/
structure Program (σ π ε α ι : Type) where
  init : σ → Prop
  env : σ → ε → Option σ
  start : α → π
  step : σ → π → ι → Option (σ × Option π)

/-- A shared state and the processes that run on it. -/
structure Pool (σ π : Type) where
  shared : σ
  procs : Nat → Option π

inductive PoolLabel (ε α ι : Type) where
  | env (e : ε)
  | start (pid : Nat) (a : α)
  | step (pid : Nat) (i : ι)
  | crash (pid : Nat)

/-- The processes with one of them replaced. -/
def Pool.set (w : Pool σ π) (pid : Nat) (p : Option π) : Nat → Option π :=
  fun q => if q = pid then p else w.procs q

theorem Pool.set_cases {w : Pool σ π} {pid q : Nat} {p : Option π} {r : π}
    (h : w.set pid p q = some r) : (q = pid ∧ p = some r) ∨
    (q ≠ pid ∧ w.procs q = some r) := by
  unfold Pool.set at h
  split at h
  · next hq => exact .inl ⟨hq, h⟩
  · next hq => exact .inr ⟨hq, h⟩

namespace Program

/-- The pool under every interleaving. -/
def machine (P : Program σ π ε α ι) : Machine (Pool σ π) (PoolLabel ε α ι) where
  init w := P.init w.shared ∧ ∀ pid, w.procs pid = none
  step w
    | .env e => (P.env w.shared e).map fun s => { w with shared := s }
    | .start pid a =>
      match w.procs pid with
      | some _ => none
      | none => some { w with procs := w.set pid (some (P.start a)) }
    | .step pid i => (w.procs pid).bind fun p =>
      (P.step w.shared p i).map fun (s, p') => { shared := s, procs := w.set pid p' }
    | .crash pid => (w.procs pid).map fun _ => { w with procs := w.set pid none }

variable {P : Program σ π ε α ι} {w w' : Pool σ π}

/-- What one step of the pool can do. -/
theorem machine_step {l : PoolLabel ε α ι} (h : P.machine.step w l = some w') :
    (∃ e s, l = .env e ∧ P.env w.shared e = some s ∧ w' = { w with shared := s }) ∨
    (∃ pid a, l = .start pid a ∧ w.procs pid = none ∧
      w' = { w with procs := w.set pid (some (P.start a)) }) ∨
    (∃ pid i p s p', l = .step pid i ∧ w.procs pid = some p ∧
      P.step w.shared p i = some (s, p') ∧ w' = { shared := s, procs := w.set pid p' }) ∨
    (∃ pid, l = .crash pid ∧ w' = { w with procs := w.set pid none }) := by
  -- the label says which process moves, and how
  cases l with
  | env e =>
    obtain ⟨s, hs, hw⟩ := Option.map_eq_some_iff.mp h
    exact .inl ⟨e, s, rfl, hs, hw.symm⟩
  | start pid a =>
    simp only [machine] at h
    split at h
    · exact absurd h (by simp)
    · next hnone => exact .inr (.inl ⟨pid, a, rfl, hnone, (Option.some.inj h).symm⟩)
  | step pid i =>
    obtain ⟨p, hp, hstep⟩ := Option.bind_eq_some_iff.mp h
    obtain ⟨⟨s, p'⟩, hs, hw⟩ := Option.map_eq_some_iff.mp hstep
    exact .inr (.inr (.inl ⟨pid, i, p, s, p', rfl, hp, hs, hw.symm⟩))
  | crash pid =>
    obtain ⟨p, -, hw⟩ := Option.map_eq_some_iff.mp h
    exact .inr (.inr (.inr ⟨pid, rfl, hw.symm⟩))

/-! ### The proof rule -/

/-- The assertions `I`, `L` and `D` hold at the start and are kept by every step. -/
structure Valid (P : Program σ π ε α ι) (I : σ → Prop) (L : σ → π → Prop)
    (D : π → π → Prop) : Prop where
  init : ∀ s, P.init s → I s
  symm : ∀ p q, D p q → D q p
  /-- The environment keeps the invariant and every local assertion. -/
  env : ∀ s e s', I s → P.env s e = some s' → I s' ∧ ∀ p, L s p → L s' p
  /-- A new process is fine, and apart from all others. -/
  start : ∀ s a, I s → L s (P.start a) ∧ ∀ p, L s p → D (P.start a) p
  /-- A step keeps the invariant and its own assertion. -/
  step : ∀ s p i s' p', I s → L s p → P.step s p i = some (s', p') →
    I s' ∧ ∀ q, p' = some q → L s' q
  /-- A step keeps the assertions of every other process. -/
  other : ∀ s p i s' p' q, I s → L s p → L s q → D p q → P.step s p i = some (s', p') →
    L s' q ∧ ∀ r, p' = some r → D r q

/-- What the rule establishes in a pool. -/
structure Holds (I : σ → Prop) (L : σ → π → Prop) (D : π → π → Prop)
    (w : Pool σ π) :
    Prop where
  inv : I w.shared
  loc : ∀ pid p, w.procs pid = some p → L w.shared p
  apart : ∀ pid pid' p q, pid ≠ pid' → w.procs pid = some p →
    w.procs pid' = some q → D p q

variable {I : σ → Prop} {L : σ → π → Prop} {D : π → π → Prop}

/-- Replacing one process. -/
theorem Holds.set (h : Holds I L D w) (hsymm : ∀ p q, D p q → D q p) {s : σ} {pid : Nat}
    {p' : Option π} (hI : I s) (hother : ∀ q r, q ≠ pid → w.procs q = some r → L s r)
    (hnew : ∀ r, p' = some r →
      L s r ∧ ∀ q r', q ≠ pid → w.procs q = some r' → D r r') :
    Holds I L D { shared := s, procs := w.set pid p' } := by
  refine ⟨hI, fun q r hset => ?_, fun q q' r r' hne hset hset' => ?_⟩
  · rcases Pool.set_cases hset with ⟨-, hp⟩ | ⟨hq, hr⟩
    · exact (hnew r hp).1
    · exact hother q r hq hr
  · rcases Pool.set_cases hset with ⟨hq, hp⟩ | ⟨hq, hr⟩
    · rcases Pool.set_cases hset' with ⟨hq', -⟩ | ⟨hq', hr'⟩
      · exact absurd (hq.trans hq'.symm) hne
      · exact (hnew r hp).2 q' r' hq' hr'
    · rcases Pool.set_cases hset' with ⟨-, hp⟩ | ⟨-, hr'⟩
      · exact hsymm _ _ ((hnew r' hp).2 q r hq hr)
      · exact h.apart q q' r r' hne hr hr'

theorem Holds.step (hv : P.Valid I L D) (h : Holds I L D w) {l : PoolLabel ε α ι}
    (hstep : P.machine.step w l = some w') : Holds I L D w' := by
  rcases machine_step hstep with ⟨e, s, rfl, he, rfl⟩ | ⟨pid, a, rfl, hnone, rfl⟩ |
    ⟨pid, i, p, s, p', rfl, hp, hs, rfl⟩ | ⟨pid, rfl, rfl⟩
  · obtain ⟨hI, hL⟩ := hv.env _ _ _ h.inv he
    exact ⟨hI, fun pid p hp => hL p (h.loc pid p hp), h.apart⟩
  · obtain ⟨hL, hD⟩ := hv.start w.shared a h.inv
    refine h.set hv.symm h.inv (fun q r _ hr => h.loc q r hr) fun r hr => ?_
    obtain rfl := Option.some.inj hr
    exact ⟨hL, fun q r' _ hr' => hD r' (h.loc q r' hr')⟩
  · obtain ⟨hI, hL⟩ := hv.step _ _ _ _ _ h.inv (h.loc pid p hp) hs
    -- what the step leaves of the process next to it
    have hother : ∀ q r, q ≠ pid → w.procs q = some r →
        L s r ∧ ∀ p'', p' = some p'' → D p'' r := fun q r hne hr =>
      hv.other _ _ _ _ _ r h.inv (h.loc pid p hp) (h.loc q r hr)
        (h.apart pid q p r hne.symm hp hr) hs
    refine h.set hv.symm hI (fun q r hne hr => (hother q r hne hr).1) fun r hr => ?_
    exact ⟨hL r hr, fun q r' hne hr' => (hother q r' hne hr').2 r hr⟩
  · exact h.set hv.symm h.inv (fun q r _ hr => h.loc q r hr) fun _ hr => absurd hr (by simp)

/-- **Pool rule.** Valid assertions hold in every reachable pool. -/
theorem Valid.reachable (hv : P.Valid I L D) (h : P.machine.Reachable w) : Holds I L D w := by
  refine h.invariant (P := Holds I L D) ?_ fun _ _ _ _ hw hstep => hw.step hv hstep
  intro w ⟨hinit, hnone⟩
  refine ⟨hv.init _ hinit, fun pid p hp => ?_, fun pid _ p _ _ hp _ => ?_⟩
  · exact absurd hp (by simp [hnone pid])
  · exact absurd hp (by simp [hnone pid])

/-! ### Runs -/

/-- A preorder of shared states that the environment and the steps of
    processes respect relates the two ends of a run. -/
theorem run_shared {R : σ → σ → Prop} (hrefl : ∀ s, R s s)
    (htrans : ∀ a b c, R a b → R b c → R a c)
    (henv : ∀ s e s', P.env s e = some s' → R s s')
    (hstep : ∀ s p i s' p', P.step s p i = some (s', p') → R s s')
    {ls : List (PoolLabel ε α ι)} (h : P.machine.Run w ls w') : R w.shared w'.shared := by
  refine h.relates (R := fun w w' => R w.shared w'.shared) (fun _ => hrefl _)
    (fun _ _ _ => htrans _ _ _) ?_
  intro w l w' hl
  rcases machine_step hl with ⟨e, s, -, he, rfl⟩ | ⟨pid, a, -, -, rfl⟩ |
    ⟨pid, i, p, s, p', -, -, hs, rfl⟩ | ⟨pid, -, rfl⟩
  · exact henv _ _ _ he
  · exact hrefl _
  · exact hstep _ _ _ _ _ hs
  · exact hrefl _

/-- The shared state is one that the run passes. -/
def Passes (P : Program σ π ε α ι) (w : Pool σ π) (ls : List (PoolLabel ε α ι)) (s : σ) :
    Prop :=
  ∃ ls₁ ls₂ w₁, ls = ls₁ ++ ls₂ ∧ P.machine.Run w ls₁ w₁ ∧ w₁.shared = s

theorem Passes.start (w : Pool σ π) (ls : List (PoolLabel ε α ι)) : P.Passes w ls w.shared :=
  ⟨[], ls, w, rfl, .nil w, rfl⟩

theorem Passes.end_ {ls : List (PoolLabel ε α ι)} (h : P.machine.Run w ls w') :
    P.Passes w ls w'.shared := ⟨ls, [], w', (List.append_nil ls).symm, h, rfl⟩

theorem Passes.cons {l : PoolLabel ε α ι} {ls : List (PoolLabel ε α ι)} {s : σ}
    (hstep : P.machine.step w l = some w') (h : P.Passes w' ls s) : P.Passes w (l :: ls) s := by
  obtain ⟨ls₁, ls₂, w₁, rfl, hrun, hs⟩ := h
  exact ⟨l :: ls₁, ls₂, w₁, rfl, .cons l ls₁ hstep hrun, hs⟩

end Program

end Lts
