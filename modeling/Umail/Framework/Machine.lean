import Mathlib.Logic.Relation

/-! # Labelled machines

  A machine is a transition system whose step is a partial function of the
  state and a label: the label carries everything the environment decides
  (arguments, clock readings, replies of remote services), so that a run on
  fixed labels can be evaluated.

  The module gives reachability, finite runs, and the two induction rules
  every safety proof uses: an invariant of all reachable states, and a
  preorder that every step of a run respects.
-/

namespace Lts

/-- Two results of a step are the same pair. -/
theorem some_pair_inj {α β : Type} {a a' : α} {b b' : β} (h : some (a, b) = some (a', b')) :
    a = a' ∧ b = b' := Prod.mk.inj (Option.some.inj h)

/-- A labelled machine. `step s l = none` means that `l` cannot fire in `s`. -/
structure Machine (σ : Type) (ℓ : Type) where
  /-- The initial states. -/
  init : σ → Prop
  /-- The effect of a label, when it can fire. -/
  step : σ → ℓ → Option σ

namespace Machine

variable {σ ℓ : Type} (m : Machine σ ℓ)

/-! ### Reachability and runs -/

/-- States reachable from an initial state. -/
inductive Reachable : σ → Prop where
  | init {s : σ} : m.init s → Reachable s
  | step {s s' : σ} (l : ℓ) : Reachable s → m.step s l = some s' → Reachable s'

/-- `Run s ls s'`: firing the labels `ls` in order leads from `s` to `s'`. -/
inductive Run : σ → List ℓ → σ → Prop where
  | nil (s : σ) : Run s [] s
  | cons {s s' s'' : σ} (l : ℓ) (ls : List ℓ) :
      m.step s l = some s' → Run s' ls s'' → Run s (l :: ls) s''

/-- Fires a list of labels, stopping at the first one that cannot fire. -/
def fire (s : σ) : List ℓ → Option σ
  | [] => some s
  | l :: ls => (m.step s l).bind fun s' => fire s' ls

/-- Whether each step of a list of labels passes a test. -/
def tests (test : σ → ℓ → Bool) (s : σ) : List ℓ → Bool
  | [] => true
  | l :: ls => test s l && (m.step s l).any fun s' => tests test s' ls

variable {m}

theorem Run.of_fire {s s' : σ} {ls : List ℓ} (h : m.fire s ls = some s') :
    m.Run s ls s' := by
  induction ls generalizing s with
  | nil =>
    obtain rfl : s = s' := by simpa [fire] using h
    exact .nil s
  | cons l ls ih =>
    obtain ⟨s₁, hstep, hrest⟩ := Option.bind_eq_some_iff.mp h
    exact .cons l ls hstep (ih hrest)

theorem Run.append {s s' s'' : σ} {ls ls' : List ℓ}
    (h : m.Run s ls s') (h' : m.Run s' ls' s'') : m.Run s (ls ++ ls') s'' := by
  induction h with
  | nil => exact h'
  | cons l ls hstep _ ih => exact .cons l _ hstep (ih h')

theorem Run.reachable {s s' : σ} {ls : List ℓ}
    (h : m.Run s ls s') (hs : m.Reachable s) : m.Reachable s' := by
  induction h with
  | nil => exact hs
  | cons l _ hstep _ ih => exact ih (hs.step l hstep)

/-! ### Induction rules -/

/-- **Invariant rule.** What holds initially and is preserved by every step
    from a reachable state holds in every reachable state. -/
theorem Reachable.invariant {P : σ → Prop} (hinit : ∀ s, m.init s → P s)
    (hstep : ∀ s l s', m.Reachable s → P s → m.step s l = some s' → P s')
    {s : σ} (h : m.Reachable s) : P s := by
  induction h with
  | init h0 => exact hinit _ h0
  | step l hr hs ih => exact hstep _ l _ hr ih hs

/-- **Run rule.** A reflexive and transitive relation that every step respects
    relates the two ends of every run. -/
theorem Run.relates {R : σ → σ → Prop} (hrefl : ∀ s, R s s)
    (htrans : ∀ a b c, R a b → R b c → R a c)
    (hstep : ∀ s l s', m.step s l = some s' → R s s')
    {s s' : σ} {ls : List ℓ} (h : m.Run s ls s') : R s s' := by
  induction h with
  | nil s => exact hrefl s
  | cons l _ hfire _ ih => exact htrans _ _ _ (hstep _ l _ hfire) ih

/-- A run each step of which satisfies `R`. -/
inductive RunBy (m : Machine σ ℓ) (R : σ → ℓ → σ → Prop) : σ → List ℓ → σ →
    Prop where
  | nil (s : σ) : RunBy m R s [] s
  | cons {s s' s'' : σ} (l : ℓ) (ls : List ℓ) :
      m.step s l = some s' → R s l s' → RunBy m R s' ls s'' → RunBy m R s (l :: ls) s''

theorem RunBy.run {R : σ → ℓ → σ → Prop} {s s' : σ} {ls : List ℓ}
    (h : m.RunBy R s ls s') :
    m.Run s ls s' := by
  induction h with
  | nil s => exact .nil s
  | cons l ls hstep _ _ ih => exact .cons l ls hstep ih

/-- What every step that satisfies `R` preserves holds at the end of the run. -/
theorem RunBy.invariant {P : σ → Prop} {R : σ → ℓ → σ → Prop}
    (hstep : ∀ s l s', P s → m.step s l = some s' → R s l s' → P s')
    {s s' : σ} {ls : List ℓ} (hs : P s) (h : m.RunBy R s ls s') : P s' := by
  induction h with
  | nil s => exact hs
  | cons l ls hfire hR _ ih => exact ih (hstep _ l _ hs hfire hR)

/-- **Step rule.** An invariant of the run, and what each of its steps
    establishes from a state that satisfies it. -/
theorem RunBy.keeps {I : σ → Prop} {R R' : σ → ℓ → σ → Prop}
    (hstep : ∀ s l s', I s → m.step s l = some s' → R s l s' → I s' ∧ R' s l s')
    {s s' : σ} {ls : List ℓ} (h : m.RunBy R s ls s') (hs : I s) : m.RunBy R' s ls s' := by
  induction h with
  | nil s => exact .nil s
  | cons l ls hfire hR _ ih =>
    obtain ⟨hI, hR'⟩ := hstep _ l _ hs hfire hR
    exact .cons l ls hfire hR' (ih hI)

/-- The same, for an invariant of all runs. -/
theorem RunBy.mono {I : σ → Prop} {R R' : σ → ℓ → σ → Prop}
    (hinv : ∀ s l s', I s → m.step s l = some s' → I s')
    (hstep : ∀ s l s', I s → m.step s l = some s' → R s l s' → R' s l s')
    {s s' : σ} {ls : List ℓ} (hs : I s) (h : m.RunBy R s ls s') : m.RunBy R' s ls s' :=
  h.keeps (fun s l s' hI hfire hR => ⟨hinv s l s' hI hfire, hstep s l s' hI hfire hR⟩) hs

/-- A run that is evaluated, with a test of each of its steps. -/
theorem RunBy.of_tests {I : σ → Prop} {R : σ → ℓ → σ → Prop}
    {test : σ → ℓ → Bool}
    (hstep : ∀ s l s', I s → m.step s l = some s' → test s l = true → I s' ∧ R s l s')
    {s s' : σ} {ls : List ℓ} (hs : I s) (hfire : m.fire s ls = some s')
    (htests : m.tests test s ls = true) : m.RunBy R s ls s' := by
  induction ls generalizing s with
  | nil =>
    obtain rfl : s = s' := by simpa [fire] using hfire
    exact .nil s
  | cons l ls ih =>
    obtain ⟨s₁, hl, hrest⟩ := Option.bind_eq_some_iff.mp hfire
    have htest : (test s l && m.tests test s₁ ls) = true := by simpa [tests, hl] using htests
    obtain ⟨htest, hrests⟩ := Bool.and_eq_true_iff.mp htest
    obtain ⟨hI, hR⟩ := hstep s l s₁ hs hl htest
    exact .cons l ls hl hR (ih hI hrest hrests)

theorem RunBy.append {R : σ → ℓ → σ → Prop} {s s' s'' : σ} {ls ls' : List ℓ}
    (h : m.RunBy R s ls s') (h' : m.RunBy R s' ls' s'') : m.RunBy R s (ls ++ ls') s'' := by
  induction h with
  | nil => exact h'
  | cons l ls hstep hR _ ih => exact .cons l _ hstep hR (ih h')

/-- Every reachable state is the end of a run from an initial state. -/
theorem Reachable.exists_run {s : σ} (h : m.Reachable s) :
    ∃ s₀ ls, m.init s₀ ∧ m.Run s₀ ls s := by
  induction h with
  | init h0 => exact ⟨_, [], h0, .nil _⟩
  | step l _ hs ih =>
    obtain ⟨s₀, ls, h0, hrun⟩ := ih
    exact ⟨s₀, ls ++ [l], h0, hrun.append (.cons l [] hs (.nil _))⟩

end Machine

/-! ### Measures -/

/-- **Measure rule.** If each member of a sequence is smaller than the one
    before unless it rests, some member rests. -/
theorem exists_rest_of_measure {σ : Type} (μ : σ → Nat) (Rest : σ → Prop)
    (states : Nat → σ)
    (h : ∀ n ≤ μ (states 0), Rest (states (n + 1)) ∨ μ (states (n + 1)) < μ (states n)) :
    ∃ n ≤ μ (states 0), Rest (states (n + 1)) := by
  -- up to the first rest, the measure falls by one with every member
  have hfalls : ∀ n ≤ μ (states 0) + 1,
      (∃ k ≤ μ (states 0), Rest (states (k + 1))) ∨ μ (states n) + n ≤ μ (states 0) := by
    intro n
    induction n with
    | zero => exact fun _ => .inr (Nat.le_refl _)
    | succ n ih =>
      intro hn
      have hbound : n ≤ μ (states 0) := by omega
      rcases ih (by omega) with hrest | hle
      · exact .inl hrest
      · rcases h n hbound with hrest | hlt
        · exact .inl ⟨n, hbound, hrest⟩
        · right
          omega
  rcases hfalls _ (Nat.le_refl _) with hrest | hle
  · exact hrest
  · omega

end Lts
