import Umail.Account.Domain
import Umail.Framework.Pool

/-! # The credential lock

  `acquireLock` and `withLock` of `apps/cli/src/credential-store.ts`. The lock
  is a directory, and creating it is atomic. Every call of the file system is
  a step of its own, any number of CLI processes interleave, and a process may
  be killed between any two of its steps.

  A directory left behind by a killed process is removed once it is older than
  `LOCK_STALE`. The test for that and the removal are two calls, though: what
  is removed is whatever is at the path by then.
-/

namespace Umail

/-! ### The lock -/

def LOCK_TIMEOUT : Nat := 8000

def LOCK_RETRY : Nat := 25

def LOCK_STALE : Nat := 30000

/-- A lock directory. The serial number tells the directories at the path
    apart; no step reads it. -/
structure LockDirectory where
  mtime : Instant
  serial : Nat
  deriving DecidableEq

/-- The path of the lock, under a clock. -/
structure LockPath where
  clock : Instant
  lock : Option LockDirectory
  /-- How many directories have been created so far. -/
  created : Nat

/-- `now - modified.value > LOCK_STALE` -/
def stale (now modified : Instant) : Bool := now - modified > LOCK_STALE

/-- Where a running `withLock(body)` is suspended. -/
inductive WithLock where
  /-- Before `ensureDirectory`. -/
  | entering
  /-- About to create the lock. -/
  | making (deadline : Instant)
  /-- The lock exists; about to read the clock. -/
  | timing (deadline : Instant)
  | statting (deadline now : Instant)
  /-- About to remove a lock that was found stale. -/
  | removing (deadline now : Instant)
  | sleeping (deadline wake : Instant)
  /-- In the body, with the directory that was created for it. -/
  | body (directory : LockDirectory)
  | releasing (directory : LockDirectory)

/-- What a call of the file system, or the body, comes back with. -/
inductive LockReply where
  | done
  /-- The call fails for another reason than that the lock exists. -/
  | fails

/-- `fs.stat(lock)`: when the lock was modified, or nothing if the call fails. -/
def modified (s : LockPath) : LockReply → Option Instant
  | .done => s.lock.map (·.mtime)
  | .fails => none

/-- From one call to the next. -/
def WithLock.step (s : LockPath) (p : WithLock) (reply : LockReply) :
    Option (LockPath × Option WithLock) :=
  match p, reply with
  | .entering, .done => some (s, some (.making (s.clock + LOCK_TIMEOUT)))
  | .entering, .fails => some (s, none)
  | .making deadline, .done =>
    match s.lock with
    | some _ => some (s, some (.timing deadline))
    | none =>
      let directory : LockDirectory := { mtime := s.clock, serial := s.created }
      some ({ s with lock := some directory, created := s.created + 1 }, some (.body directory))
  | .making _, .fails => some (s, none)
  | .timing deadline, .done => some (s, some (.statting deadline s.clock))
  | .statting deadline now, reply =>
    if (modified s reply).any (stale now) then some (s, some (.removing deadline now))
    else if now ≥ deadline then some (s, none)
    else some (s, some (.sleeping deadline (s.clock + LOCK_RETRY)))
  -- a removal that fails is ignored
  | .removing deadline _, .done => some ({ s with lock := none }, some (.making deadline))
  | .removing deadline _, .fails => some (s, some (.making deadline))
  | .sleeping deadline wake, .done =>
    if wake ≤ s.clock then some (s, some (.making deadline)) else none
  | .body directory, .done => some (s, some (.releasing directory))
  | .releasing _, .done => some ({ s with lock := none }, none)
  | .releasing _, .fails => some (s, none)
  | _, _ => none

/-- The CLI processes on one state directory. The environment lets time pass. -/
def credentialLock : Lts.Program LockPath WithLock Nat Unit LockReply where
  init s := s = { clock := 0, lock := none, created := 0 }
  env s elapsed := some { s with clock := s.clock + elapsed }
  start _ := .entering
  step := WithLock.step

/-- The processes, and a step of one of them. -/
abbrev LockPool := Lts.Pool LockPath WithLock

abbrev LockLabel := Lts.PoolLabel Nat Unit LockReply

/-! ### What the lock is for -/

/-- The directory a live process holds: from its creation to its release. -/
def WithLock.holds : WithLock → Option LockDirectory
  | .body directory | .releasing directory => some directory
  | _ => none

/-- The process is in its `withLock` body. -/
def WithLock.inBody : WithLock → Bool
  | .body _ => true
  | _ => false

/-- The process has found the lock stale and is about to remove it. -/
def WithLock.inRemoval : WithLock → Bool
  | .removing _ _ => true
  | _ => false

/-- Every live process that holds the lock has held it no longer than the stale limit. -/
def Timely (w : LockPool) : Prop :=
  ∀ pid p directory, w.procs pid = some p → p.holds = some directory →
    w.shared.clock ≤ directory.mtime + LOCK_STALE

/-- At most one live process is in a `withLock` body. -/
def Exclusive (w : LockPool) : Prop :=
  ∀ pid pid' p p', w.procs pid = some p → w.procs pid' = some p' →
    p.inBody = true → p'.inBody = true → pid = pid'

/-- The step does not remove a directory that another live process holds. -/
def Spares (w : LockPool) (l : LockLabel) (w' : LockPool) : Prop :=
  ∀ pid reply directory, l = .step pid reply → w.shared.lock = some directory →
    w'.shared.lock = none →
    ∀ pid' p', pid' ≠ pid → w.procs pid' = some p' → p'.holds ≠ some directory

/-- A process that is about to remove the lock as stale finds at the path, if
    anything, a directory that still passes the test it has made. -/
def Confirmed (w : LockPool) : LockLabel → Bool
  | .step pid _ =>
    match w.procs pid with
    | some (.removing _ now) => w.shared.lock.all fun directory => stale now directory.mtime
    | _ => true
  | _ => true

/-! ### What a step can do -/

/-- The steps of a process, each with what it found. -/
inductive WithLock.Moves (s : LockPath) : WithLock → LockPath → Option WithLock → Prop where
  /-- The directory is not safe, the lock cannot be created, or time is up. -/
  | ends (p : WithLock) : p.holds = none → Moves s p s none
  | enters : Moves s .entering s (some (.making (s.clock + LOCK_TIMEOUT)))
  | makes (deadline : Instant) : s.lock = none →
      Moves s (.making deadline)
        { s with lock := some { mtime := s.clock, serial := s.created }, created := s.created + 1 }
        (some (.body { mtime := s.clock, serial := s.created }))
  | finds (deadline : Instant) : s.lock.isSome = true →
      Moves s (.making deadline) s (some (.timing deadline))
  | times (deadline : Instant) : Moves s (.timing deadline) s (some (.statting deadline s.clock))
  | condemns (deadline now : Instant) (directory : LockDirectory) : s.lock = some directory →
      stale now directory.mtime = true →
      Moves s (.statting deadline now) s (some (.removing deadline now))
  | sleeps (deadline now : Instant) :
      Moves s (.statting deadline now) s (some (.sleeping deadline (s.clock + LOCK_RETRY)))
  | removes (deadline now : Instant) :
      Moves s (.removing deadline now) { s with lock := none } (some (.making deadline))
  /-- A removal that failed is followed by another attempt, too. -/
  | ignores (deadline now : Instant) : Moves s (.removing deadline now) s (some (.making deadline))
  | wakes (deadline wake : Instant) : Moves s (.sleeping deadline wake) s (some (.making deadline))
  | finishes (directory : LockDirectory) : Moves s (.body directory) s (some (.releasing directory))
  | releases (directory : LockDirectory) :
      Moves s (.releasing directory) { s with lock := none } none
  /-- A release that fails leaves the lock behind. -/
  | leaves (directory : LockDirectory) : Moves s (.releasing directory) s none

theorem WithLock.moves_of_step {s s' : LockPath} {p : WithLock} {reply : LockReply}
    {next : Option WithLock} (h : p.step s reply = some (s', next)) : Moves s p s' next := by
  cases p with
  | entering =>
    cases reply with
    | done =>
      obtain ⟨rfl, rfl⟩ := Lts.some_pair_inj h
      exact .enters
    | fails =>
      obtain ⟨rfl, rfl⟩ := Lts.some_pair_inj h
      exact .ends _ rfl
  | making deadline =>
    cases reply with
    | done =>
      simp only [WithLock.step] at h
      split at h
      · next hexists =>
        obtain ⟨rfl, rfl⟩ := Lts.some_pair_inj h
        exact .finds deadline (by simp [hexists])
      · next hnone =>
        obtain ⟨rfl, rfl⟩ := Lts.some_pair_inj h
        exact .makes deadline hnone
    | fails =>
      obtain ⟨rfl, rfl⟩ := Lts.some_pair_inj h
      exact .ends _ rfl
  | timing deadline =>
    cases reply with
    | done =>
      obtain ⟨rfl, rfl⟩ := Lts.some_pair_inj h
      exact .times deadline
    | fails => exact absurd h (by simp [WithLock.step])
  | statting deadline now =>
    simp only [WithLock.step] at h
    split at h
    · next hstale =>
      obtain ⟨rfl, rfl⟩ := Lts.some_pair_inj h
      -- a failed stat has no time, so what is stale was seen
      obtain ⟨mtime, hmodified, hold⟩ := (Option.any_eq_true _ _).mp hstale
      cases reply with
      | fails => exact absurd hmodified (by simp [modified])
      | done =>
        obtain ⟨directory, hdirectory, rfl⟩ := Option.map_eq_some_iff.mp hmodified
        exact .condemns deadline now directory hdirectory hold
    · split at h
      · obtain ⟨rfl, rfl⟩ := Lts.some_pair_inj h
        exact .ends _ rfl
      · obtain ⟨rfl, rfl⟩ := Lts.some_pair_inj h
        exact .sleeps deadline now
  | removing deadline now =>
    cases reply with
    | done =>
      obtain ⟨rfl, rfl⟩ := Lts.some_pair_inj h
      exact .removes deadline now
    | fails =>
      obtain ⟨rfl, rfl⟩ := Lts.some_pair_inj h
      exact .ignores deadline now
  | sleeping deadline wake =>
    cases reply with
    | done =>
      simp only [WithLock.step] at h
      split at h
      · obtain ⟨rfl, rfl⟩ := Lts.some_pair_inj h
        exact .wakes deadline wake
      · exact absurd h (by simp)
    | fails => exact absurd h (by simp [WithLock.step])
  | body directory =>
    cases reply with
    | done =>
      obtain ⟨rfl, rfl⟩ := Lts.some_pair_inj h
      exact .finishes directory
    | fails => exact absurd h (by simp [WithLock.step])
  | releasing directory =>
    cases reply with
    | done =>
      obtain ⟨rfl, rfl⟩ := Lts.some_pair_inj h
      exact .releases directory
    | fails =>
      obtain ⟨rfl, rfl⟩ := Lts.some_pair_inj h
      exact .leaves directory

/-! ### The invariant -/

section invariant
variable {w w' : LockPool} {l : LockLabel}

/-- What a process knows: the directory it holds is the one at the path, and
    the clock readings it has made lie in the past. -/
structure WithLock.Sound (s : LockPath) (p : WithLock) : Prop where
  holds : ∀ directory, p.holds = some directory → s.lock = some directory
  past : ∀ deadline now, p = .statting deadline now ∨ p = .removing deadline now →
    now ≤ s.clock

/-- Two processes do not both hold a directory. -/
def WithLock.Apart (p q : WithLock) : Prop := p.holds = none ∨ q.holds = none

/-- The lock works: the pool rule's assertions, with nothing said of the path alone. -/
abbrev LockHolds (w : LockPool) : Prop :=
  Lts.Program.Holds (fun _ => True) WithLock.Sound WithLock.Apart w

theorem WithLock.Apart.symm (p q : WithLock) (h : p.Apart q) : q.Apart p := Or.symm h

/-- A directory that a live process holds in time is not stale. -/
theorem not_stale {directory : LockDirectory} {now clock : Instant} (hnow : now ≤ clock)
    (htimely : clock ≤ directory.mtime + LOCK_STALE) : stale now directory.mtime = false := by
  have hage : now - directory.mtime ≤ LOCK_STALE :=
    Nat.sub_le_iff_le_add'.mpr (le_trans hnow htimely)
  simp [stale, Nat.not_lt.mpr hage]

variable {s s' : LockPath} {p q : WithLock} {next : Option WithLock}

theorem WithLock.Moves.clock_eq (h : Moves s p s' next) : s'.clock = s.clock := by
  cases h <;> rfl

/-- **Frame.** A directory that another process holds in time stays at the
    path, if the step removes nothing as stale that is not stale. -/
theorem WithLock.Moves.keeps (h : Moves s p s' next) (hp : p.Sound s) (hq : q.Sound s)
    (hapart : p.Apart q)
    (hconfirmed : ∀ deadline now directory, p = .removing deadline now →
      s.lock = some directory → stale now directory.mtime = true)
    (htimely : ∀ directory, q.holds = some directory → s.clock ≤ directory.mtime + LOCK_STALE)
    {directory : LockDirectory} (hholds : q.holds = some directory) :
    s'.lock = some directory := by
  have hlock := hq.holds directory hholds
  cases h with
  | makes deadline hnone => exact absurd (hnone.symm.trans hlock) (by simp)
  -- only a stale lock is removed, and this one is fresh
  | removes deadline now =>
    have hnow : now ≤ s.clock := hp.past deadline now (.inr rfl)
    have hfresh := not_stale hnow (htimely directory hholds)
    rw [hconfirmed deadline now directory rfl hlock] at hfresh
    exact absurd hfresh (by simp)
  -- only the holder releases, and two processes never both hold
  | releases own =>
    rcases hapart with hnone | hnone
    · exact absurd hnone (by simp [WithLock.holds])
    · exact absurd (hnone.symm.trans hholds) (by simp)
  | ends | enters | finds | times | condemns | sleeps | ignores | wakes | finishes | leaves =>
    exact hlock

/-- A process keeps its own knowledge. -/
theorem WithLock.Sound.step (hp : p.Sound s) (h : Moves s p s' next) :
    ∀ p', next = some p' → p'.Sound s' := by
  intro p' hp'
  cases h with
  | ends | releases | leaves => exact absurd hp' (by simp)
  | makes deadline hnone =>
    obtain rfl := Option.some.inj hp'
    -- the directory just made is the one it will remove at the end
    exact ⟨fun _ hholds => hholds, by simp⟩
  | times deadline =>
    obtain rfl := Option.some.inj hp'
    refine ⟨by simp [WithLock.holds], ?_⟩
    intro _ now hpoint
    rcases hpoint with heq | heq <;> cases heq
    -- the clock has just been read
    exact le_refl _
  | condemns deadline now directory =>
    obtain rfl := Option.some.inj hp'
    refine ⟨by simp [WithLock.holds], ?_⟩
    intro _ now' hpoint
    rcases hpoint with heq | heq <;> cases heq
    exact hp.past deadline now (.inl rfl)
  | finishes directory =>
    obtain rfl := Option.some.inj hp'
    exact ⟨hp.holds, by simp⟩
  | enters | finds | sleeps | removes | ignores | wakes =>
    obtain rfl := Option.some.inj hp'
    exact ⟨by simp [WithLock.holds], by simp⟩

/-- Only a process that finds no lock comes to hold one. -/
theorem WithLock.Apart.step (hapart : p.Apart q) (hq : q.Sound s) (h : Moves s p s' next) :
    ∀ p', next = some p' → p'.Apart q := by
  intro p' hp'
  cases h with
  | ends | releases | leaves => exact absurd hp' (by simp)
  | makes deadline hnone =>
    cases hholds : q.holds with
    | none => exact .inr hholds
    | some directory =>
      exact absurd (hnone.symm.trans (hq.holds directory hholds)) (by simp)
  | finishes directory =>
    obtain rfl := Option.some.inj hp'
    exact hapart
  | enters | finds | times | condemns | sleeps | removes | ignores | wakes =>
    obtain rfl := Option.some.inj hp'
    exact .inl rfl

/-- The path as it was, at a later time. -/
theorem WithLock.Sound.later (h : q.Sound s) (hlock : ∀ directory, q.holds = some directory →
    s.lock = some directory → s'.lock = some directory) (hclock : s.clock ≤ s'.clock) :
    q.Sound s' where
  holds directory hholds := hlock directory hholds (h.holds directory hholds)
  past deadline now hpoint := le_trans (h.past deadline now hpoint) hclock

/-- Nobody shares the lock. -/
theorem LockHolds.exclusive (h : LockHolds w) : Exclusive w := by
  intro pid pid' p p' hp hp' hbody hbody'
  by_contra hne
  have hholds : ∀ q : WithLock, q.inBody = true → q.holds ≠ none := by
    intro q hq
    cases q <;> simp [WithLock.inBody, WithLock.holds] at hq ⊢
  rcases h.apart pid pid' p p' hne hp hp' with hnone | hnone
  · exact hholds p hbody hnone
  · exact hholds p' hbody' hnone

/-- **Step.** -/
theorem LockHolds.step (h : LockHolds w) (htimely : Timely w) (hconfirmed : Confirmed w l = true)
    (hstep : credentialLock.machine.step w l = some w') : LockHolds w' ∧ Spares w l w' := by
  rcases Lts.Program.machine_step hstep with ⟨elapsed, s, rfl, henv, rfl⟩ |
    ⟨pid, a, rfl, hnone, rfl⟩ | ⟨pid, reply, p, s, next, rfl, hp, hs, rfl⟩ |
      ⟨pid, rfl, rfl⟩
  · -- time passes: the lock stays, and what was read is still past
    obtain rfl := Option.some.inj henv
    refine ⟨⟨trivial, ?_, h.apart⟩, fun _ _ _ hl => absurd hl (by simp)⟩
    intro pid p hp
    exact (h.loc pid p hp).later (fun _ _ hlock => hlock) (Nat.le_add_right _ _)
  · refine ⟨h.set WithLock.Apart.symm trivial (fun q r _ hr => h.loc q r hr) ?_,
      fun _ _ _ hl => absurd hl (by simp)⟩
    intro r hr
    obtain rfl := Option.some.inj hr
    refine ⟨?_, fun _ _ _ _ => .inl rfl⟩
    exact ⟨fun _ hholds => absurd hholds (by simp [credentialLock, WithLock.holds]),
      fun _ _ hpoint => absurd hpoint (by simp [credentialLock])⟩
  · -- a step of `pid`: what others hold stays, since `hconfirmed` rules out
    -- the removal of a fresh lock and `htimely` that of one that is held
    have hmoves := WithLock.moves_of_step hs
    have hown := h.loc pid p hp
    have hkeeps : ∀ pid' q directory, pid' ≠ pid → w.procs pid' = some q →
        q.holds = some directory → s.lock = some directory := by
      intro pid' q directory hne hq hholds
      refine hmoves.keeps hown (h.loc pid' q hq) (h.apart pid pid' p q hne.symm hp hq) ?_
        (fun directory hholds => htimely pid' q directory hq hholds) hholds
      intro deadline now found hpoint hlock
      subst hpoint
      simpa [Confirmed, hp, hlock] using hconfirmed
    refine ⟨h.set WithLock.Apart.symm trivial ?_ ?_, ?_⟩
    · intro pid' q hne hq
      exact (h.loc pid' q hq).later (fun directory hholds _ =>
        hkeeps pid' q directory hne hq hholds)
        hmoves.clock_eq.ge
    · intro p' hp'
      refine ⟨hown.step hmoves p' hp', fun pid' q hne hq => ?_⟩
      exact (h.apart pid pid' p q hne.symm hp hq).step (h.loc pid' q hq) hmoves p' hp'
    · intro pid₁ reply₁ directory hl hlock hgone pid' q hne hq hholds
      obtain ⟨rfl, -⟩ : pid = pid₁ ∧ reply = reply₁ := by simpa using hl
      have hkept := hkeeps pid' q directory hne hq hholds
      exact absurd (hgone.symm.trans hkept) (by simp)
  · refine ⟨h.set WithLock.Apart.symm trivial (fun q r _ hr => h.loc q r hr) ?_,
      fun _ _ _ hl => absurd hl (by simp)⟩
    intro r hr
    exact absurd hr (by simp)

/-- **Every run.** In every run in which no live process holds the lock for
    longer than the stale limit, the lock excludes and no step removes a
    directory that another process holds, as long as each removal of a stale
    lock finds the lock still stale. -/
theorem credential_lock_excludes {w₀ : LockPool} {ls : List LockLabel}
    (hinit : credentialLock.machine.init w₀)
    (hrun : credentialLock.machine.RunBy
      (fun w l w' => Timely w' ∧ Confirmed w l = true) w₀ ls w) :
    credentialLock.machine.RunBy (fun w l w' => Exclusive w' ∧ Spares w l w') w₀ ls w := by
  obtain ⟨hshared, hnone⟩ := hinit
  refine hrun.keeps (I := fun w => LockHolds w ∧ Timely w) ?_ ⟨⟨trivial, ?_, ?_⟩, ?_⟩
  · intro w l w' ⟨hholds, htimely⟩ hstep ⟨htimely', hconfirmed⟩
    obtain ⟨hholds', hspares⟩ := hholds.step htimely hconfirmed hstep
    exact ⟨⟨hholds', htimely'⟩, hholds'.exclusive, hspares⟩
  · exact fun pid p hp => absurd hp (by simp [hnone pid])
  · exact fun pid _ p _ _ hp => absurd hp (by simp [hnone pid])
  · exact fun pid p _ hp => absurd hp (by simp [hnone pid])

/-! ### Without a crash -/

/-- No process is killed, and no release fails. -/
def Unbroken (w : LockPool) : LockLabel → Bool
  | .crash _ => false
  | .step pid .fails =>
    match w.procs pid with
    | some (.releasing _) => false
    | _ => true
  | _ => true

/-- The lock is somebody's, and nobody is about to remove it as stale. -/
structure Owned (w : LockPool) : Prop where
  owned : ∀ directory, w.shared.lock = some directory →
    ∃ pid p, w.procs pid = some p ∧ p.holds = some directory
  respected : ∀ pid deadline now, w.procs pid ≠ some (.removing deadline now)

theorem Owned.step (h : Owned w) (hholds : LockHolds w) (htimely : Timely w)
    (hunbroken : Unbroken w l = true) (hstep : credentialLock.machine.step w l = some w') :
    Owned w' := by
  rcases Lts.Program.machine_step hstep with ⟨elapsed, s, rfl, henv, rfl⟩ |
    ⟨pid, a, rfl, hnone, rfl⟩ | ⟨pid, reply, p, s, next, rfl, hp, hs, rfl⟩ |
      ⟨pid, rfl, rfl⟩
  · obtain rfl := Option.some.inj henv
    exact ⟨h.owned, h.respected⟩
  · constructor
    · intro directory hlock
      obtain ⟨pid', q, hq, hdirectory⟩ := h.owned directory hlock
      have hne : pid' ≠ pid := by
        intro heq
        exact absurd (heq ▸ hq) (by simp [hnone])
      exact ⟨pid', q, by simp [Lts.Pool.set, hne, hq], hdirectory⟩
    · intro pid' deadline now hset
      rcases Lts.Pool.set_cases hset with ⟨-, hnew⟩ | ⟨-, hold⟩
      · exact absurd hnew (by simp [credentialLock])
      · exact h.respected pid' deadline now hold
  · have hmoves := WithLock.moves_of_step hs
    have hown := hholds.loc pid p hp
    constructor
    · intro directory hlock
      -- either the process itself goes on holding it, or another one held it before
      have hcases : (∃ p', next = some p' ∧ p'.holds = some directory) ∨
          (w.shared.lock = some directory ∧ p.holds = none) := by
        cases hmoves with
        | makes => exact .inl ⟨_, rfl, hlock⟩
        | finishes own => exact .inl ⟨_, rfl, (hown.holds own rfl).symm.trans hlock⟩
        | leaves own =>
          cases reply with
          | done =>
            have hgone : w.shared.lock = none :=
              congrArg LockPath.lock (Lts.some_pair_inj hs).1.symm
            exact absurd (hgone.symm.trans hlock) (by simp)
          | fails => exact absurd hunbroken (by simp [Unbroken, hp])
        | removes | releases => exact absurd hlock (by simp)
        | ends _ hnone => exact .inr ⟨hlock, hnone⟩
        | enters | finds | times | condemns | sleeps | ignores | wakes =>
            exact .inr ⟨hlock, rfl⟩
      rcases hcases with ⟨p', rfl, hdirectory⟩ | ⟨hbefore, hnone⟩
      · exact ⟨pid, p', by simp [Lts.Pool.set], hdirectory⟩
      · obtain ⟨pid', q, hq, hdirectory⟩ := h.owned directory hbefore
        have hne : pid' ≠ pid := by
          intro heq
          obtain rfl : q = p := Option.some.inj (hq.symm.trans (heq ▸ hp))
          exact absurd (hnone.symm.trans hdirectory) (by simp)
        exact ⟨pid', q, by simp [Lts.Pool.set, hne, hq], hdirectory⟩
    · intro pid' deadline now hset
      rcases Lts.Pool.set_cases hset with ⟨-, hnew⟩ | ⟨-, hold⟩
      · subst hnew
        cases hmoves with
        | condemns _ _ directory hlock hstale =>
          -- its holder is alive and in time
          obtain ⟨holder, q, hq, hdirectory⟩ := h.owned directory hlock
          have hnow : now ≤ w.shared.clock := hown.past deadline now (.inl rfl)
          have hfresh := not_stale hnow (htimely holder q directory hq hdirectory)
          rw [hstale] at hfresh
          exact absurd hfresh (by simp)
      · exact h.respected pid' deadline now hold
  · exact absurd hunbroken (by simp [Unbroken])

/-- **Without a crash.** As long as no process is killed and no release fails,
    no lock is ever found stale, and the lock excludes. -/
theorem credential_lock_excludes_unbroken {w₀ : LockPool} {ls : List LockLabel}
    (hinit : credentialLock.machine.init w₀)
    (hrun : credentialLock.machine.RunBy
      (fun w l w' => Timely w' ∧ Unbroken w l = true) w₀ ls w) :
    credentialLock.machine.RunBy (fun w l w' => Exclusive w' ∧ Spares w l w') w₀ ls w := by
  obtain ⟨hshared, hnone⟩ := hinit
  have hpath : w₀.shared = { clock := 0, lock := none, created := 0 } := hshared
  refine hrun.keeps (I := fun w => LockHolds w ∧ Timely w ∧ Owned w) ?_
    ⟨⟨trivial, ?_, ?_⟩, ?_, ?_, ?_⟩
  · intro w l w' ⟨hholds, htimely, howned⟩ hstep ⟨htimely', hunbroken⟩
    -- no process ever gets to the removal of a stale lock
    have hconfirmed : Confirmed w l = true := by
      unfold Confirmed
      split
      · split
        · next deadline now hp => exact absurd hp (howned.respected _ deadline now)
        · rfl
      · rfl
    obtain ⟨hholds', hspares⟩ := hholds.step htimely hconfirmed hstep
    exact ⟨⟨hholds', htimely', howned.step hholds htimely hunbroken hstep⟩,
      hholds'.exclusive, hspares⟩
  · exact fun pid p hp => absurd hp (by simp [hnone pid])
  · exact fun pid _ p _ _ hp => absurd hp (by simp [hnone pid])
  · exact fun pid p _ hp => absurd hp (by simp [hnone pid])
  · exact fun directory hlock => absurd hlock (by simp [hpath])
  · exact fun pid _ _ hp => absurd hp (by simp [hnone pid])

/-- A removal takes away whatever is at the path. -/
theorem removing_step {pid : Nat} {deadline now : Instant}
    (hp : w.procs pid = some (.removing deadline now)) :
    ∃ w', credentialLock.machine.step w (.step pid .done) = some w' ∧ w'.shared.lock = none ∧
      w'.procs pid = some (.making deadline) ∧ ∀ q, q ≠ pid → w'.procs q = w.procs q := by
  refine ⟨{
    shared := { w.shared with lock := none }
    procs := w.set pid (some (.making deadline)) }, ?_, rfl, by simp [Lts.Pool.set], fun q hq =>
      by simp [Lts.Pool.set, hq]⟩
  simp [Lts.Program.machine, hp, credentialLock, WithLock.step]

/-- A creation succeeds when nothing is there. -/
theorem making_step {pid : Nat} {deadline : Instant} (hp : w.procs pid = some (.making deadline))
    (hlock : w.shared.lock = none) :
    ∃ w' directory, credentialLock.machine.step w (.step pid .done) = some w' ∧
      w'.procs pid = some (.body directory) ∧ ∀ q, q ≠ pid → w'.procs q = w.procs q := by
  let directory : LockDirectory := { mtime := w.shared.clock, serial := w.shared.created }
  refine ⟨{ shared := { w.shared with lock := some directory, created := w.shared.created + 1 }
            procs := w.set pid (some (.body directory)) }, directory, ?_, by simp [Lts.Pool.set],
    fun q hq => by simp [Lts.Pool.set, hq]⟩
  simp [Lts.Program.machine, hp, credentialLock, WithLock.step, hlock, directory]

/-! ### Runs that can be evaluated -/

/-- The label lets no time pass, and removes nothing as stale that is not stale. -/
def Instantly (w : LockPool) (l : LockLabel) : Bool :=
  (match l with
    | .env _ => false
    | _ => true) && Confirmed w l

/-- Holders stay in time as long as no time passes. -/
theorem Timely.step (h : Timely w) (hl : ∀ elapsed, l ≠ .env elapsed)
    (hstep : credentialLock.machine.step w l = some w') : Timely w' := by
  rcases Lts.Program.machine_step hstep with ⟨elapsed, s, rfl, -, rfl⟩ |
    ⟨pid, a, rfl, hnone, rfl⟩ | ⟨pid, reply, p, s, next, rfl, hp, hs, rfl⟩ |
      ⟨pid, rfl, rfl⟩
  · exact absurd rfl (hl elapsed)
  · intro pid' q directory hset hholds
    rcases Lts.Pool.set_cases hset with ⟨-, hnew⟩ | ⟨-, hold⟩
    · obtain rfl := Option.some.inj hnew
      exact absurd hholds (by simp [credentialLock, WithLock.holds])
    · exact h pid' q directory hold hholds
  · have hmoves := WithLock.moves_of_step hs
    intro pid' q directory hset hholds
    show s.clock ≤ _
    rw [hmoves.clock_eq]
    rcases Lts.Pool.set_cases hset with ⟨-, hnew⟩ | ⟨-, hold⟩
    · subst hnew
      cases hmoves with
      | makes =>
        obtain rfl := Option.some.inj hholds
        -- a fresh directory bears the present time
        exact Nat.le_add_right _ _
      | finishes own => exact h pid (.body own) directory hp hholds
      | enters | finds | times | condemns | sleeps | removes | ignores | wakes =>
        exact absurd hholds (by simp [WithLock.holds])
    · exact h pid' q directory hold hholds
  · intro pid' q directory hset hholds
    rcases Lts.Pool.set_cases hset with ⟨-, hnew⟩ | ⟨-, hold⟩
    · exact absurd hnew (by simp)
    · exact h pid' q directory hold hholds

end invariant

namespace Sample

def unlocked : LockPool where
  shared := { clock := 0, lock := none, created := 0 }
  procs _ := none

/-- The lock of a process that was killed, when it has become stale. -/
def abandoned : LockPool where
  shared := { clock := 30001, lock := some { mtime := 0, serial := 0 }, created := 1 }
  procs _ := none

/-- A process takes the lock, and is killed. -/
def killed : List LockLabel := [.start 0 (), .step 0 .done, .step 0 .done, .crash 0]

/-- A process finds the lock stale. -/
def condemned (pid : Nat) : List LockLabel :=
  [.start pid (), .step pid .done, .step pid .done, .step pid .done, .step pid .done]

/-- It removes the lock at the path, and creates its own. -/
def replaced (pid : Nat) : List LockLabel := [.step pid .done, .step pid .done]

theorem instantly_run {w w' : LockPool} {ls : List LockLabel} (h : Timely w)
    (hfire : credentialLock.machine.fire w ls = some w')
    (htests : credentialLock.machine.tests Instantly w ls = true) :
    credentialLock.machine.RunBy (fun w l w' => Timely w' ∧ Confirmed w l = true) w ls w' := by
  refine .of_tests (I := Timely) ?_ h hfire htests
  intro w l w' htimely hstep htest
  obtain ⟨hinstant, hconfirmed⟩ := Bool.and_eq_true_iff.mp htest
  have htimely' : Timely w' := by
    refine htimely.step ?_ hstep
    intro elapsed hl
    subst hl
    exact absurd hinstant (by simp)
  exact ⟨htimely', htimely', hconfirmed⟩

theorem unlocked_timely : Timely unlocked := fun _ _ _ hp => absurd hp (by simp [unlocked])

theorem abandoned_timely : Timely abandoned := fun _ _ _ hp => absurd hp (by simp [abandoned])

/-- A killed process leaves a lock that becomes stale. -/
theorem abandoned_run : credentialLock.machine.RunBy
    (fun w l w' => Timely w' ∧ Confirmed w l = true) unlocked (killed ++ [.env 30001])
    abandoned := by
  have hfire : credentialLock.machine.fire unlocked killed =
      some { abandoned with shared := { abandoned.shared with clock := 0 } } := by
    have hprocs : (fun q => if q = 0 then none else if q = 0 then
        some (WithLock.body { mtime := 0, serial := 0 }) else if q = 0 then
        some (WithLock.making LOCK_TIMEOUT) else if q = 0 then some WithLock.entering else none) =
        fun _ : Nat => (none : Option WithLock) := by
      funext q
      by_cases hq : q = 0 <;> simp [hq]
    exact congrArg
      (fun procs => some (Lts.Pool.mk { abandoned.shared with clock := 0 } procs)) hprocs
  apply (instantly_run unlocked_timely hfire (by decide +kernel)).append
  exact .cons _ _ rfl ⟨abandoned_timely, rfl⟩ (.nil _)

end Sample

open Sample in
/-- One process finds the lock stale and replaces it, which is what the removal
    is for. -/
theorem credential_lock_excludes_replaced : ∃ w, credentialLock.machine.RunBy
    (fun w l w' => Exclusive w' ∧ Spares w l w') unlocked
    (killed ++ [.env 30001] ++ (condemned 1 ++ replaced 1)) w ∧
      (w.procs 1).any WithLock.inBody = true := by
  have hrun : (credentialLock.machine.fire abandoned (condemned 1 ++ replaced 1)).any (fun w =>
      (w.procs 1).any WithLock.inBody) = true := by decide +kernel
  obtain ⟨w, hfire, hbody⟩ := (Option.any_eq_true _ _).mp hrun
  refine ⟨w, credential_lock_excludes ⟨rfl, fun _ => rfl⟩ ?_, hbody⟩
  exact abandoned_run.append (instantly_run abandoned_timely hfire (by decide +kernel))

open Sample in
/-- Two processes find the lock stale. The first replaces it; then the second
    removes the lock of the first, and both are in their bodies. -/
theorem credential_lock_shared : ∃ w₁ w₂ w,
    credentialLock.machine.RunBy (fun _ _ w' => Timely w') unlocked
      (killed ++ [.env 30001] ++ (condemned 1 ++ condemned 2 ++ replaced 1)) w₁ ∧
    credentialLock.machine.RunBy (fun _ _ w' => Timely w') w₁ [.step 2 .done] w₂ ∧
    ¬ Spares w₁ (.step 2 .done) w₂ ∧
    credentialLock.machine.RunBy (fun _ _ w' => Timely w') w₂ [.step 2 .done] w ∧
    ¬ Exclusive w := by
  have hrun : (credentialLock.machine.fire abandoned
      (condemned 1 ++ condemned 2 ++ replaced 1)).any (fun w =>
        (w.procs 1).any (fun p => p.inBody && w.shared.lock.isSome && p.holds = w.shared.lock) &&
        (w.procs 2).any WithLock.inRemoval) = true := by decide +kernel
  obtain ⟨w₁, hfire, htest⟩ := (Option.any_eq_true _ _).mp hrun
  obtain ⟨hfirst, hsecond⟩ := Bool.and_eq_true_iff.mp htest
  obtain ⟨p₁, hp₁, hholder⟩ := (Option.any_eq_true _ _).mp hfirst
  simp only [Bool.and_eq_true, decide_eq_true_eq] at hholder
  obtain ⟨⟨hbody, hlocked⟩, hholds⟩ := hholder
  obtain ⟨directory, hlock⟩ := Option.isSome_iff_exists.mp hlocked
  obtain ⟨p₂, hp₂, hremoving⟩ := (Option.any_eq_true _ _).mp hsecond
  cases p₂ with
  | removing deadline now =>
    have hbefore : credentialLock.machine.RunBy (fun _ _ w' => Timely w') unlocked
        (killed ++ [.env 30001] ++ (condemned 1 ++ condemned 2 ++ replaced 1)) w₁ :=
      (abandoned_run.append (instantly_run abandoned_timely hfire (by decide +kernel))).keeps
        (I := fun _ => True) (fun _ _ _ _ _ h => ⟨trivial, h.1⟩) trivial
    have htimely : Timely w₁ :=
      hbefore.invariant (P := Timely) (fun _ _ _ _ _ h => h) unlocked_timely
    -- the removal, and the creation after it
    obtain ⟨w₂, hremoves, hgone, hmaking, hothers⟩ := removing_step hp₂
    obtain ⟨w, own, hcreates, hown, hothers'⟩ := making_step hmaking hgone
    have htimely₂ := htimely.step (by simp) hremoves
    refine ⟨w₁, w₂, w, hbefore, .cons _ _ hremoves htimely₂ (.nil _), ?_,
      .cons _ _ hcreates (htimely₂.step (by simp) hcreates) (.nil _), ?_⟩
    · intro hspares
      exact hspares 2 .done directory rfl hlock hgone 1 p₁ (by decide) hp₁ (hholds.trans hlock)
    · intro hexclusive
      have hfirst' : w.procs 1 = some p₁ := by
        rw [hothers' 1 (by decide), hothers 1 (by decide), hp₁]
      exact absurd (hexclusive 1 2 p₁ (.body own) hfirst' hown hbody rfl) (by decide)
  | _ => exact absurd hremoving (by simp [WithLock.inRemoval])



end Umail
