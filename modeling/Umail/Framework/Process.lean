import Umail.Framework.Pool

/-! # Sequential processes

  A process is a sequence of atomic calls on a shared state, each of which may
  get an input of its own: a clock reading, a random id, the answer of a
  remote service. Between two calls the state may change.

  `Ensures` is the proof rule for one process: what its environment does
  between the calls (the rely), what each of its calls does (the guarantee),
  and what holds when it returns. `serve` runs any number of processes against
  each other, with crashes, and `Served.reachable` carries what each process
  ensures over to every reachable pool.
-/

namespace Lts

variable {σ ι α β ρ ε : Type}

/-- A process: a result, or a call and what follows its answer. -/
inductive Proc (σ ι α : Type) where
  | ret (a : α)
  | call (effect : σ → ι → σ) (next : σ → ι → Proc σ ι α)

namespace Proc

def bind : Proc σ ι α → (α → Proc σ ι β) → Proc σ ι β
  | .ret a, f => f a
  | .call effect next, f => .call effect fun s i => (next s i).bind f

instance : Monad (Proc σ ι) where
  pure := .ret
  bind := .bind

/-- One atomic call: its answer, and the state after it. -/
def atomic (f : σ → ι → α × σ) : Proc σ ι α :=
  .call (fun s i => (f s i).2) fun s i => .ret (f s i).1

/-- A call that changes nothing. -/
def read (f : σ → α) : Proc σ ι α := .call (fun s _ => s) fun s _ => .ret (f s)

/-- Takes an input. -/
def take (f : ι → α) : Proc σ ι α := .call (fun s _ => s) fun _ i => .ret (f i)

/-- Runs a process on its own, with one input for each of its calls. -/
def alone (accepts : σ → ι → Bool) : Proc σ ι α → σ → List ι → Option (α × σ)
  | .ret a, s, [] => some (a, s)
  | .ret _, _, _ :: _ => none
  | .call _ _, _, [] => none
  | .call effect next, s, i :: is =>
    if accepts s i then (next s i).alone accepts (effect s i) is else none

end Proc

/-- Runs the first calls of a process on its own. -/
def Proc.upTo (accepts : σ → ι → Bool) : Proc σ ι α → σ → List ι →
    Option (Proc σ ι α × σ)
  | p, s, [] => some (p, s)
  | .ret _, _, _ :: _ => none
  | .call effect next, s, i :: is =>
    if accepts s i then (next s i).upTo accepts (effect s i) is else none

theorem Proc.upTo_of_alone {accepts : σ → ι → Bool} {p : Proc σ ι α} {s s' : σ}
    {is : List ι}
    {a : α} (h : p.alone accepts s is = some (a, s')) :
    p.upTo accepts s is = some (.ret a, s') := by
  induction is generalizing p s with
  | nil =>
    cases p with
    | ret b =>
      obtain ⟨rfl, rfl⟩ := Prod.mk.inj (Option.some.inj h)
      rfl
    | call effect next => exact absurd h (by simp [alone])
  | cons i is ih =>
    cases p with
    | ret b => exact absurd h (by simp [alone])
    | call effect next =>
      simp only [alone] at h
      split at h
      · next hi =>
        simp only [upTo, hi, if_true]
        exact ih h
      · exact absurd h (by simp)

/-- Runs a process on a part of the state, with a part of the input. -/
def Proc.focus {τ κ : Type} (get : τ → σ) (set : τ → σ → τ) (input : κ → ι) :
    Proc σ ι α → Proc τ κ α
  | .ret a => .ret a
  | .call effect next => .call (fun t k => set t (effect (get t) (input k)))
      fun t k => (next (get t) (input k)).focus get set input

/-- Runs a process on its own to its end. -/
def Proc.complete : Proc σ ι α → σ → (Nat → ι) → α × σ
  | .ret a, s, _ => (a, s)
  | .call effect next, s, is => (next s (is 0)).complete (effect s (is 0)) fun n => is (n + 1)

/-! ### Interference -/

/-- What a process may expect of the others, and what it owes them. -/
structure Interference (σ ι : Type) where
  /-- What holds whenever a call is made. -/
  inv : σ → Prop
  /-- What happens between two calls. -/
  rely : σ → σ → Prop
  /-- What a call may do. -/
  guarantee : σ → σ → Prop
  /-- The inputs that a call may get. -/
  accepts : σ → ι → Prop
  refl : ∀ s, rely s s
  trans : ∀ a b c, rely a b → rely b c → rely a c

/-- The interference of a process on its own. -/
def Interference.solo : Interference σ ι where
  inv _ := True
  rely := Eq
  guarantee _ _ := True
  accepts _ _ := True
  refl _ := rfl
  trans _ _ _ := Eq.trans

namespace Proc

variable {E : Interference σ ι} {Q Q' : α → σ → Prop} {s s' : σ}

/-- Each call of the process keeps the guarantee, and what it returns
    satisfies `Q` from then on. -/
def Ensures (E : Interference σ ι) (Q : α → σ → Prop) : Proc σ ι α → σ → Prop
  | .ret a, s => ∀ s', E.rely s s' → E.inv s' → Q a s'
  | .call effect next, s => ∀ s', E.rely s s' → E.inv s' → ∀ i, E.accepts s' i →
      E.guarantee s' (effect s' i) ∧ (next s' i).Ensures E Q (effect s' i)

/-- Interference does not matter. -/
theorem Ensures.later {p : Proc σ ι α} (h : p.Ensures E Q s) (hs : E.rely s s') :
    p.Ensures E Q s' := by
  cases p with
  | ret a => exact fun s'' hs' => h s'' (E.trans _ _ _ hs hs')
  | call effect next => exact fun s'' hs' => h s'' (E.trans _ _ _ hs hs')

/-- What holds in every later state with the invariant holds now. -/
theorem Ensures.absorb {p : Proc σ ι α}
    (h : ∀ s', E.rely s s' → E.inv s' → p.Ensures E Q s') : p.Ensures E Q s := by
  cases p with
  | ret a => exact fun s' hs hI => h s' hs hI s' (E.refl s') hI
  | call effect next => exact fun s' hs hI => h s' hs hI s' (E.refl s') hI

theorem Ensures.mono {p : Proc σ ι α} (h : p.Ensures E Q s) (hQ : ∀ a s, Q a s → Q' a s) :
    p.Ensures E Q' s := by
  induction p generalizing s with
  | ret a => exact fun s' hs hI => hQ a s' (h s' hs hI)
  | call effect next ih =>
    intro s' hs hI i hi
    obtain ⟨hcall, hnext⟩ := h s' hs hI i hi
    exact ⟨hcall, ih s' i hnext⟩

/-- What a process ensures on its own, it has done when it ends. -/
theorem Ensures.complete {p : Proc σ ι α} (h : p.Ensures .solo Q s) (is : Nat → ι) :
    Q (p.complete s is).1 (p.complete s is).2 := by
  induction p generalizing s is with
  | ret a => exact h s rfl trivial
  | call effect next ih => exact ih s (is 0) (h s rfl trivial (is 0) trivial).2 _

/-- A transitive relation that the rely and the guarantee respect relates the start of a
    process to its end. -/
theorem Ensures.tracks {p : Proc σ ι α} {R : σ → σ → Prop}
    (htrans : ∀ a b c, R a b → R b c → R a c) (hrely : ∀ s s', E.rely s s' → R s s')
    (hguarantee : ∀ s s', E.inv s → E.guarantee s s' → R s s') (h : p.Ensures E Q s) :
    p.Ensures E (fun a s' => Q a s' ∧ R s s') s := by
  induction p generalizing s with
  | ret a => exact fun s' hs hI => ⟨h s' hs hI, hrely s s' hs⟩
  | call effect next ih =>
    intro s' hs hI i hi
    obtain ⟨hcall, hnext⟩ := h s' hs hI i hi
    have hstep : R s (effect s' i) := htrans _ _ _ (hrely s s' hs) (hguarantee _ _ hI hcall)
    exact ⟨hcall, (ih s' i hnext).mono fun a s'' hQ => ⟨hQ.1, htrans _ _ _ hstep hQ.2⟩⟩

/-- **Sequencing.** -/
theorem ensures_bind {p : Proc σ ι α} {f : α → Proc σ ι β} {Q : β → σ → Prop}
    (h : p.Ensures E (fun a s => (f a).Ensures E Q s) s) : (p >>= f).Ensures E Q s := by
  induction p generalizing s with
  | ret a =>
    -- the result is used in the state in which it is there
    refine Ensures.absorb fun s' hs hI => h s' hs hI
  | call effect next ih =>
    intro s' hs hI i hi
    obtain ⟨hcall, hnext⟩ := h s' hs hI i hi
    exact ⟨hcall, ih s' i hnext⟩

/-- A read sees some state in between. -/
theorem ensures_read {f : σ → α} (hidle : ∀ s, E.guarantee s s)
    (h : ∀ s', E.rely s s' → E.inv s' → ∀ s'', E.rely s' s'' → E.inv s'' →
      Q (f s') s'') :
    (read f).Ensures E Q s :=
  fun s' hs hI _ _ => ⟨hidle s', h s' hs hI⟩

theorem ensures_take {f : ι → α} (hidle : ∀ s, E.guarantee s s)
    (h : ∀ i s', E.rely s s' → E.inv s' → Q (f i) s') : (take f).Ensures E Q s :=
  fun s' hs _ i _ => ⟨hidle s', fun s'' hs' hI' => h i s'' (E.trans _ _ _ hs hs') hI'⟩

/-- **Focusing.** What a process ensures on a part of the state it ensures on
    the whole, when the interference of the whole respects that of the part. -/
theorem Ensures.focus {τ κ : Type} {get : τ → σ} {set : τ → σ → τ} {input : κ → ι}
    {F : Interference τ κ} (hget : ∀ t s, get (set t s) = s)
    (hrely : ∀ t t', F.rely t t' → E.rely (get t) (get t'))
    (hinv : ∀ t, F.inv t → E.inv (get t))
    (haccepts : ∀ t k, F.accepts t k → E.accepts (get t) (input k))
    (hguarantee : ∀ t s, F.inv t → E.guarantee (get t) s → F.guarantee t (set t s))
    {p : Proc σ ι α} {t : τ} (h : p.Ensures E Q (get t)) :
    (p.focus get set input).Ensures F (fun a t => Q a (get t)) t := by
  induction p generalizing t with
  | ret a => exact fun t' ht hI => h (get t') (hrely t t' ht) (hinv t' hI)
  | call effect next ih =>
    intro t' ht hI k hk
    obtain ⟨hcall, hnext⟩ :=
      h (get t') (hrely t t' ht) (hinv t' hI) (input k) (haccepts t' k hk)
    refine ⟨hguarantee t' _ hI hcall, ih (get t') (input k) ?_⟩
    rw [hget]
    exact hnext

end Proc

/-! ### Many processes -/

/-- A process and the request it serves. One that has returned stays. -/
structure Serving (ρ σ ι α : Type) where
  request : ρ
  rest : Proc σ ι α

/-- The process has returned `a`. -/
def Serving.returned (p : Serving ρ σ ι α) (a : α) : Prop := p.rest = .ret a

/-- Serves each request with a process. -/
def serve (init : σ → Prop) (env : σ → ε → Option σ) (accepts : σ → ι → Bool)
    (body : ρ → Proc σ ι α) : Program σ (Serving ρ σ ι α) ε ρ ι where
  init
  env
  start request := { request, rest := body request }
  step s p i :=
    match p.rest with
    | .ret _ => none
    | .call effect next =>
      if accepts s i then some (effect s i, some { p with rest := next s i }) else none

/-- Among others, a process may run on its own. -/
theorem serve_upTo {init : σ → Prop} {env : σ → ε → Option σ}
    {accepts : σ → ι → Bool}
    {body : ρ → Proc σ ι α} {w : Pool σ (Serving ρ σ ι α)} {pid : Nat} {r : ρ}
    {rest rest' : Proc σ ι α} (hp : w.procs pid = some { request := r, rest }) {is : List ι}
    {s : σ} (h : rest.upTo accepts w.shared is = some (rest', s)) :
    ∃ w', (serve init env accepts body).machine.Run w (is.map (.step pid)) w' ∧
      w'.shared = s ∧
      w'.procs pid = some { request := r, rest := rest' } ∧
      ∀ q, q ≠ pid → w'.procs q = w.procs q := by
  induction is generalizing w rest with
  | nil =>
    obtain ⟨rfl, rfl⟩ : rest = rest' ∧ w.shared = s := by simpa [Proc.upTo] using h
    exact ⟨w, .nil w, rfl, hp, fun _ _ => rfl⟩
  | cons i is ih =>
    cases rest with
    | ret b => exact absurd h (by simp [Proc.upTo])
    | call effect next =>
      simp only [Proc.upTo] at h
      split at h
      · next hi =>
        have hstep : (serve init env accepts body).machine.step w (.step pid i) = some {
            shared := effect w.shared i
            procs := w.set pid (some { request := r, rest := next w.shared i }) } := by
          simp [Program.machine, hp, serve, hi]
        obtain ⟨w', hrun, hshared, hp', hothers⟩ := ih (w := {
            shared := effect w.shared i
            procs := w.set pid (some { request := r, rest := next w.shared i }) })
          (by simp [Pool.set]) h
        refine ⟨w', .cons _ _ hstep hrun, hshared, hp', fun q hq => ?_⟩
        rw [hothers q hq]
        simp [Pool.set, hq]
      · exact absurd h (by simp)

/-- It may run until it returns. -/
theorem serve_alone {init : σ → Prop} {env : σ → ε → Option σ}
    {accepts : σ → ι → Bool}
    {body : ρ → Proc σ ι α} {w : Pool σ (Serving ρ σ ι α)} {pid : Nat} {r : ρ}
    {rest : Proc σ ι α} (hp : w.procs pid = some { request := r, rest }) {is : List ι} {a : α}
    {s : σ} (h : rest.alone accepts w.shared is = some (a, s)) :
    ∃ w', (serve init env accepts body).machine.Run w (is.map (.step pid)) w' ∧
      w'.shared = s ∧
      w'.procs pid = some { request := r, rest := .ret a } ∧
      ∀ q, q ≠ pid → w'.procs q = w.procs q :=
  serve_upTo hp (Proc.upTo_of_alone h)

/-- A request may start under a free id. -/
theorem serve_start {init : σ → Prop} {env : σ → ε → Option σ}
    {accepts : σ → ι → Bool}
    {body : ρ → Proc σ ι α} {w : Pool σ (Serving ρ σ ι α)} {pid : Nat}
    (hfree : w.procs pid = none) (r : ρ) :
    (serve init env accepts body).machine.step w (.start pid r) = some { w with
      procs := w.set pid (some { request := r, rest := body r }) } := by
  simp only [Program.machine, hfree]
  rfl

/-- What each request ensures under the interference of all. -/
structure Served (init : σ → Prop) (env : σ → ε → Option σ) (accepts : σ → ι → Bool)
    (body : ρ → Proc σ ι α) (I : σ → Prop) (E : ρ → Interference σ ι)
    (Q : ρ → α → σ → Prop) : Prop where
  init : ∀ s, init s → I s
  env : ∀ s e s', I s → env s e = some s' → I s' ∧ ∀ r, (E r).rely s s'
  /-- What one process guarantees, every process relies on. -/
  call : ∀ r s s', I s → (E r).guarantee s s' → I s' ∧ ∀ r', (E r').rely s s'
  inv : ∀ r s, I s → (E r).inv s
  accepts : ∀ r s i, I s → accepts s i = true → (E r).accepts s i
  body : ∀ r s, I s → (body r).Ensures (E r) (Q r) s

namespace Served

variable {init : σ → Prop} {env : σ → ε → Option σ} {accepts : σ → ι → Bool}
  {body : ρ → Proc σ ι α} {I : σ → Prop} {E : ρ → Interference σ ι}
  {Q : ρ → α → σ → Prop}
  {w : Pool σ (Serving ρ σ ι α)}

/-- What a step of a process does. -/
theorem serve_step_ensures {F : Interference σ ι} {Q' : α → σ → Prop}
    {p : Serving ρ σ ι α}
    {s s' : σ} {i : ι} {p' : Option (Serving ρ σ ι α)} (hinv : F.inv s)
    (haccepts : accepts s i = true → F.accepts s i) (hp : p.rest.Ensures F Q' s)
    (hstep : (serve init env accepts body).step s p i = some (s', p')) :
    F.guarantee s s' ∧ ∀ q, p' = some q → q.request = p.request ∧
      q.rest.Ensures F Q' s' := by
  obtain ⟨request, rest⟩ := p
  cases rest with
  | ret a => exact absurd hstep (by simp [serve])
  | call effect next =>
    simp only [serve] at hstep
    split at hstep
    · next hi =>
      obtain ⟨rfl, rfl⟩ := some_pair_inj hstep
      obtain ⟨hcall, hnext⟩ := hp s (F.refl s) hinv i (haccepts hi)
      refine ⟨hcall, fun q hq => ?_⟩
      obtain rfl := Option.some.inj hq
      exact ⟨rfl, hnext⟩
    · exact absurd hstep (by simp)

theorem step_ensures {p : Serving ρ σ ι α} {s s' : σ} {i : ι}
    {p' : Option (Serving ρ σ ι α)}
    {Q' : α → σ → Prop} (h : Served init env accepts body I E Q) (hI : I s)
    (hp : p.rest.Ensures (E p.request) Q' s)
    (hstep : (serve init env accepts body).step s p i = some (s', p')) :
    (E p.request).guarantee s s' ∧ ∀ q, p' = some q →
      q.request = p.request ∧ q.rest.Ensures (E p.request) Q' s' :=
  serve_step_ensures (h.inv p.request s hI) (h.accepts p.request s i hI) hp hstep

theorem valid (h : Served init env accepts body I E Q) :
    (serve init env accepts body).Valid I
      (fun s p => p.rest.Ensures (E p.request) (Q p.request) s) (fun _ _ => True) where
  init := h.init
  symm _ _ _ := trivial
  env s e s' hI he := by
    obtain ⟨hI', hrely⟩ := h.env s e s' hI he
    exact ⟨hI', fun p hp => hp.later (hrely p.request)⟩
  start s r hI := ⟨h.body r s hI, fun _ _ => trivial⟩
  step s p i s' p' hI hp hstep := by
    obtain ⟨hcall, hnext⟩ := h.step_ensures hI hp hstep
    refine ⟨(h.call _ _ _ hI hcall).1, fun q hq => ?_⟩
    obtain ⟨hrequest, hq⟩ := hnext q hq
    rwa [hrequest]
  other s p i s' p' q hI hp hq _ hstep := by
    obtain ⟨hcall, -⟩ := h.step_ensures hI hp hstep
    exact ⟨hq.later ((h.call _ _ _ hI hcall).2 q.request), fun _ _ => trivial⟩

/-- **Serving rule.** In every reachable pool the invariant holds, and what a
    process has returned satisfies what its request ensures. -/
theorem reachable (h : Served init env accepts body I E Q)
    (hw : (serve init env accepts body).machine.Reachable w) :
    I w.shared ∧ ∀ pid p a, w.procs pid = some p → p.returned a →
      Q p.request a w.shared := by
  have hholds := h.valid.reachable hw
  refine ⟨hholds.inv, fun pid p a hp hreturned => ?_⟩
  have hensures := hholds.loc pid p hp
  unfold Serving.returned at hreturned
  rw [hreturned] at hensures
  exact hensures _ ((E p.request).refl _) (h.inv p.request _ hholds.inv)

/-- A step of a process that ensures something keeps the guarantee. -/
theorem pool_step_ensures {F : Interference σ ι} {Q' : α → σ → Prop} {pid : Nat} {i : ι}
    {p : Serving ρ σ ι α} {w' : Pool σ (Serving ρ σ ι α)} (hp : w.procs pid = some p)
    (hinv : F.inv w.shared) (haccepts : ∀ i, accepts w.shared i = true → F.accepts w.shared i)
    (hensures : p.rest.Ensures F Q' w.shared)
    (hstep : (serve init env accepts body).machine.step w (.step pid i) = some w') :
    F.guarantee w.shared w'.shared := by
  rcases Program.machine_step hstep with ⟨_, _, hl, -⟩ | ⟨_, _, hl, -⟩ |
    ⟨pid', i', q, s, q', hl, hq, hs, rfl⟩ | ⟨_, hl, -⟩
  · exact absurd hl (by simp)
  · exact absurd hl (by simp)
  · obtain ⟨rfl, rfl⟩ := PoolLabel.step.inj hl
    obtain rfl := Option.some.inj (hp.symm.trans hq)
    exact (serve_step_ensures hinv (haccepts i) hensures hs).1
  · exact absurd hl (by simp)

/-- **Step rule.** Every step of a process in a reachable pool keeps the
    guarantee of its request. -/
theorem step_guarantee (h : Served init env accepts body I E Q)
    (hw : (serve init env accepts body).machine.Reachable w) {pid : Nat} {i : ι}
    {p : Serving ρ σ ι α} (hp : w.procs pid = some p) {w' : Pool σ (Serving ρ σ ι α)}
    (hstep : (serve init env accepts body).machine.step w (.step pid i) = some w') :
    (E p.request).guarantee w.shared w'.shared := by
  have hholds := h.valid.reachable hw
  exact pool_step_ensures hp (h.inv p.request _ hholds.inv)
    (fun i => h.accepts p.request _ i hholds.inv) (hholds.loc pid p hp) hstep

/-- **Run rule.** What every process relies on relates the ends of a run. -/
theorem run_rely (h : Served init env accepts body I E Q) {w' : Pool σ (Serving ρ σ ι α)}
    (hw : (serve init env accepts body).machine.Reachable w) {ls : List (PoolLabel ε ρ ι)}
    (hrun : (serve init env accepts body).machine.Run w ls w') (r : ρ) :
    (E r).rely w.shared w'.shared := by
  induction hrun with
  | nil w => exact (E r).refl w.shared
  | @cons w w₁ w' l ls hstep _ ih =>
    have hI := (h.reachable hw).1
    refine (E r).trans _ _ _ ?_ (ih (hw.step l hstep))
    rcases Program.machine_step hstep with ⟨e, s, -, he, rfl⟩ | ⟨pid, a, -, -, rfl⟩ |
      ⟨pid, i, p, s, p', rfl, hp, -, rfl⟩ | ⟨pid, -, rfl⟩
    · exact (h.env _ _ _ hI he).2 r
    · exact (E r).refl w.shared
    · exact (h.call _ _ _ hI (h.step_guarantee hw hp hstep)).2 r
    · exact (E r).refl w.shared

/-- **Invariant rule of a run.** A property that the requests of the run and
    the events of its environment keep holds at its end. -/
theorem run_invariant (h : Served init env accepts body I E Q) {w' : Pool σ (Serving ρ σ ι α)}
    (hw : (serve init env accepts body).machine.Reachable w) {ls : List (PoolLabel ε ρ ι)}
    (hrun : (serve init env accepts body).machine.Run w ls w') {P : σ → Prop} {R : ρ → Prop}
    (hstart : ∀ pid r, .start pid r ∈ ls → R r)
    (henv : ∀ e s s', .env e ∈ ls → I s → P s → env s e = some s' → P s')
    (hcall : ∀ r s s', R r → I s → P s → (E r).guarantee s s' → P s')
    (hprocs : ∀ pid p, w.procs pid = some p → R p.request) (hP : P w.shared) :
    P w'.shared ∧ ∀ pid p, w'.procs pid = some p → R p.request := by
  induction hrun with
  | nil w => exact ⟨hP, hprocs⟩
  | @cons w w₁ w' l ls hstep _ ih =>
    have hI := (h.reachable hw).1
    refine ih (hw.step l hstep) (fun pid r hr => hstart pid r (List.mem_cons_of_mem l hr))
      (fun e s s' he => henv e s s' (List.mem_cons_of_mem l he)) ?_ ?_
    · intro pid p hp
      rcases Program.machine_step hstep with ⟨e, s, -, -, rfl⟩ | ⟨pid', r, rfl, -, rfl⟩ |
        ⟨pid', i, q, s, q', rfl, hq, hs, rfl⟩ | ⟨pid', -, rfl⟩
      · exact hprocs pid p hp
      · rcases Pool.set_cases hp with ⟨-, heq⟩ | ⟨-, hp⟩
        · obtain rfl := Option.some.inj heq
          exact hstart pid' r List.mem_cons_self
        · exact hprocs pid p hp
      · rcases Pool.set_cases hp with ⟨-, heq⟩ | ⟨-, hp⟩
        · obtain ⟨hrequest, -⟩ :=
            (h.step_ensures hI ((h.valid.reachable hw).loc pid' q hq) hs).2 p heq
          rw [hrequest]
          exact hprocs pid' q hq
        · exact hprocs pid p hp
      · rcases Pool.set_cases hp with ⟨-, heq⟩ | ⟨-, hp⟩
        · exact absurd heq (by simp)
        · exact hprocs pid p hp
    · rcases Program.machine_step hstep with ⟨e, s, rfl, he, rfl⟩ | ⟨pid', r, -, -, rfl⟩ |
        ⟨pid', i, q, s, q', rfl, hq, -, rfl⟩ | ⟨pid', -, rfl⟩
      · exact henv e _ _ List.mem_cons_self hI hP he
      · exact hP
      · exact hcall q.request _ _ (hprocs pid' q hq) hI hP (h.step_guarantee hw hq hstep)
      · exact hP

/-- **Break rule.** Where every step keeps `P` or makes `T` true, a run that
    starts in `P` ends in it or passes a state with `T`. -/
theorem kept_or_broken (h : Served init env accepts body I E Q) {w' : Pool σ (Serving ρ σ ι α)}
    (hw : (serve init env accepts body).machine.Reachable w) {ls : List (PoolLabel ε ρ ι)}
    (hrun : (serve init env accepts body).machine.Run w ls w') {P T : σ → Prop}
    (henv : ∀ e s s', I s → P s → env s e = some s' → P s' ∨ T s')
    (hcall : ∀ r s s', I s → P s → (E r).guarantee s s' → P s' ∨ T s') (hP : P w.shared) :
    P w'.shared ∨ ∃ ls₁ ls₂ w₁, ls = ls₁ ++ ls₂ ∧
      (serve init env accepts body).machine.Run w ls₁ w₁ ∧
      (serve init env accepts body).machine.Run w₁ ls₂ w' ∧ T w₁.shared := by
  induction hrun with
  | nil w => exact .inl hP
  | @cons w w₁ w' l ls hstep hrest ih =>
    have hI := (h.reachable hw).1
    have hnext : P w₁.shared ∨ T w₁.shared := by
      rcases Program.machine_step hstep with ⟨e, s, -, he, rfl⟩ | ⟨pid, r, -, -, rfl⟩ |
        ⟨pid, i, p, s, p', rfl, hp, -, rfl⟩ | ⟨pid, -, rfl⟩
      · exact henv e _ _ hI hP he
      · exact .inl hP
      · exact hcall p.request _ _ hI hP (h.step_guarantee hw hp hstep)
      · exact .inl hP
    rcases hnext with hP₁ | hT
    · rcases ih (hw.step l hstep) hP₁ with hP' |
        ⟨ls₁, ls₂, w₂, rfl, hrun₁, hrun₂, hT⟩
      · exact .inl hP'
      · exact .inr ⟨l :: ls₁, ls₂, w₂, rfl, .cons l ls₁ hstep hrun₁, hrun₂, hT⟩
    · exact .inr ⟨[l], ls, w₁, rfl, .cons l [] hstep (.nil w₁), hrest, hT⟩

/-- **History rule.** What the processes ensure in view of the states `T` that
    a run passes, they still ensure at its end. -/
theorem during (h : Served init env accepts body I E Q) {F : ρ → Interference σ ι}
    {R : ρ → α → σ → Prop} {T : σ → Prop} {w₁ w₂ : Pool σ (Serving ρ σ ι α)}
    {pid : Nat}
    {ls : List (PoolLabel ε ρ ι)}
    (hrun : (serve init env accepts body).machine.Run w₁ ls w₂)
    (hw : (serve init env accepts body).machine.Reachable w₁)
    (hT : ∀ s, (serve init env accepts body).Passes w₁ ls s → T s)
    (hrely : ∀ r s s', (E r).rely s s' → (F r).rely s s')
    (hinv : ∀ r s, I s → T s → (F r).inv s)
    (haccepts : ∀ r s i, I s → accepts s i = true → (F r).accepts s i)
    (hbody : ∀ r s, I s → T s → (body r).Ensures (F r) (R r) s)
    (hloc : ∀ p, w₁.procs pid = some p →
      p.rest.Ensures (F p.request) (R p.request) w₁.shared) :
    ∀ p, w₂.procs pid = some p → p.rest.Ensures (F p.request) (R p.request) w₂.shared := by
  induction hrun with
  | nil w => exact hloc
  | @cons w₁ w w₂ l ls hstep _ ih =>
    have hI := (h.reachable hw).1
    have hT₁ := hT w₁.shared (.start w₁ (l :: ls))
    have hlater : ∀ r, (F r).rely w₁.shared w.shared := fun r =>
      hrely r _ _ (h.run_rely hw (.cons l [] hstep (.nil w)) r)
    refine ih (hw.step l hstep) (fun s hs => hT s (hs.cons hstep)) ?_
    rcases Program.machine_step hstep with ⟨e, s, -, -, rfl⟩ | ⟨pid', r, -, -, rfl⟩ |
      ⟨pid', i, q, s, q', -, hq, hs, rfl⟩ | ⟨pid', -, rfl⟩
    · exact fun p hp => (hloc p hp).later (hlater p.request)
    · intro p hp
      rcases Pool.set_cases hp with ⟨-, heq⟩ | ⟨-, hp⟩
      · obtain rfl := Option.some.inj heq
        exact hbody r _ hI hT₁
      · exact hloc p hp
    · intro p hp
      rcases Pool.set_cases hp with ⟨rfl, heq⟩ | ⟨-, hp⟩
      · -- its own step
        obtain ⟨-, hnext⟩ := serve_step_ensures (hinv q.request _ hI hT₁)
          (haccepts q.request _ i hI) (hloc q hq) hs
        obtain ⟨hrequest, hp⟩ := hnext p heq
        rwa [hrequest]
      · exact (hloc p hp).later (hlater p.request)
    · intro p hp
      rcases Pool.set_cases hp with ⟨-, heq⟩ | ⟨-, hp⟩
      · exact absurd heq (by simp)
      · exact hloc p hp

/-- **Since rule.** What the processes that start after `w` ensure in view of
    the state of `w` holds of what they return. -/
theorem since (h : Served init env accepts body I E Q) {w' : Pool σ (Serving ρ σ ι α)}
    (hw : (serve init env accepts body).machine.Reachable w) {pid : Nat}
    (hfree : w.procs pid = none) {ls : List (PoolLabel ε ρ ι)}
    (hrun : (serve init env accepts body).machine.Run w ls w') {Q' : ρ → α → σ → Prop}
    (hbody : ∀ r s, (E r).rely w.shared s → I s → (body r).Ensures (E r) (Q' r) s)
    {p : Serving ρ σ ι α} (hp : w'.procs pid = some p) {a : α} (hreturned : p.returned a) :
    Q' p.request a w'.shared := by
  have hensures := h.during (F := E) (T := fun s => ∀ r, (E r).rely w.shared s) hrun hw ?_
    (fun _ _ _ hs => hs) (fun r s hI _ => h.inv r s hI) h.accepts
    (fun r s hI hs => hbody r s (hs r) hI)
    (fun q hq => absurd (hfree.symm.trans hq) (by simp)) p hp
  · unfold Serving.returned at hreturned
    rw [hreturned] at hensures
    exact hensures _ ((E p.request).refl _)
      (h.inv p.request _ (h.reachable (hrun.reachable hw)).1)
  · rintro s ⟨ls₁, ls₂, w₁, -, hrun₁, rfl⟩ r
    exact h.run_rely hw hrun₁ r

end Served

end Lts
