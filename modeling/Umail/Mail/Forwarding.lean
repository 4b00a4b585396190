import Umail.Account.Receipts
import Umail.Mail.ExactlyOnce

/-! # At most one forward

  What holds of the native forwards of every run. The forward of a receipt
  goes through the phases of `ForwardPhase`, one after the other, whoever
  makes the next move: the delivery whose claim applied holds the receipt
  until it has recorded the answer, a delivery that crashes leaves it where
  it is, and no other delivery can pick it up.

  `InboundState.At` reads the phase off the store and the events of the
  forwarder, so that a step of the system is a step of the phases.
-/

namespace Umail

open Relational

/-! ### Phases -/

/-- The phases of the forward of one receipt. -/
inductive ForwardPhase where
  | idle
  | claimed (destination : String)
  | invoked (destination : String)
  | answered (destination : String) (ok : Bool)
  | settled (destination : String) (ok : Bool)

/-- What is observed of an answer. -/
def observationOf (ok : Bool) : ForwardObservation := if ok then .success else .failure

theorem ForwardObservation.outcome_injective {a b : ForwardObservation}
    (h : a.outcome = b.outcome) : a = b := by
  cases a <;> cases b <;> first | rfl | cases h

namespace ForwardPhase

/-- What the receipt records in a phase. -/
def recorded : ForwardPhase → ForwardOutcome × Option String
  | idle => (.none, none)
  | claimed destination => (.unknown, some destination)
  | invoked destination => (.unknown, some destination)
  | answered destination _ => (.unknown, some destination)
  | settled destination ok => ((observationOf ok).outcome, some destination)

/-- What has happened at the forwarder in a phase. -/
def events (receiptId : String) : ForwardPhase → List ForwardEvent
  | idle => []
  | claimed _ => []
  | invoked destination => [.invoked receiptId destination]
  | answered destination ok =>
    [.invoked receiptId destination, .answered receiptId destination (observationOf ok)]
  | settled destination ok =>
    [.invoked receiptId destination, .answered receiptId destination (observationOf ok)]

/-- The order of the phases. The destination never changes. -/
inductive Next : ForwardPhase → ForwardPhase → Prop where
  | claim (destination : String) : Next idle (claimed destination)
  | invoke (destination : String) : Next (claimed destination) (invoked destination)
  | answer (destination : String) (ok : Bool) : Next (invoked destination) (answered destination ok)
  | settle (destination : String) (ok : Bool) :
    Next (answered destination ok) (settled destination ok)

/-- A phase is determined by what it records and by its events. -/
theorem eq_of_view {phase phase' : ForwardPhase} {receiptId : String}
    (hrecorded : phase.recorded = phase'.recorded)
    (hevents : phase.events receiptId = phase'.events receiptId) : phase = phase' := by
  rcases phase with _ | d | d | ⟨d, _ | _⟩ | ⟨d, _ | _⟩ <;>
    rcases phase' with _ | d' | d' | ⟨d', _ | _⟩ | ⟨d', _ | _⟩ <;>
    simp_all [recorded, events, observationOf, ForwardObservation.outcome]

theorem idle_of_recorded {phase : ForwardPhase} (h : phase.recorded.1 = .none) : phase = idle := by
  rcases phase with _ | d | d | ⟨d, ok⟩ | ⟨d, _ | _⟩
  · rfl
  all_goals cases h

/-- Once settled, a forward does not move any more. -/
theorem Next.not_settled {phase phase' : ForwardPhase} (h : phase.Next phase')
    (destination : String) (ok : Bool) : phase ≠ settled destination ok := by
  cases h <;> simp

end ForwardPhase

def ForwardEvent.receiptId : ForwardEvent → String
  | .invoked receiptId _ => receiptId
  | .answered receiptId _ _ => receiptId

def ForwardEvent.isInvocation : ForwardEvent → Bool
  | .invoked _ _ => true
  | .answered _ _ _ => false

section forwarding
variable [Unicode]

/-- What has happened at the forwarder for one receipt. -/
def InboundState.eventsOf (w : InboundState) (receiptId : String) : List ForwardEvent :=
  w.forwards.filter (·.receiptId = receiptId)

/-- The forward of the receipt is in the phase. -/
structure InboundState.At (w : InboundState) (receiptId : String) (phase : ForwardPhase) :
    Prop where
  recorded : w.store.forwarding receiptId = phase.recorded
  events : w.eventsOf receiptId = phase.events receiptId

/-- Every forward is in some phase. -/
def InboundState.Phased (w : InboundState) : Prop := ∀ receiptId, ∃ phase, w.At receiptId phase

/-- The forward of the receipt is where it was. -/
def InboundState.SameAt (w w' : InboundState) (receiptId : String) : Prop :=
  w'.store.forwarding receiptId = w.store.forwarding receiptId ∧
    w'.eventsOf receiptId = w.eventsOf receiptId

/-! ### What a reception holds -/

/-- The receipt whose forward is up to this reception. -/
def Reception.holds (sha256Hex : Bytes → String) (p : Reception) : Option String :=
  match p.point with
  | .forwarding d _ => some (d.receiptId sha256Hex)
  | .awaiting d _ => some (d.receiptId sha256Hex)
  | .observing d _ _ => some (d.receiptId sha256Hex)
  | _ => none

/-- The phase of that forward. -/
def Reception.Holding (sha256Hex : Bytes → String) (w : InboundState) (p : Reception) : Prop :=
  match p.point with
  | .forwarding d destination => w.At (d.receiptId sha256Hex) (.claimed destination)
  | .awaiting d destination => w.At (d.receiptId sha256Hex) (.invoked destination)
  | .observing d destination observation => ∃ ok, observation = observationOf ok ∧
    w.At (d.receiptId sha256Hex) (.answered destination ok)
  | _ => True

def InboundProcess.holds (sha256Hex : Bytes → String) : InboundProcess → Option String
  | .receives p => p.holds sha256Hex
  | _ => none

def InboundProcess.Holding (sha256Hex : Bytes → String) (w : InboundState) :
    InboundProcess → Prop
  | .receives p => p.Holding sha256Hex w
  | _ => True

/-- Two processes never hold one receipt. -/
def InboundProcess.ApartOn (sha256Hex : Bytes → String) (p q : InboundProcess) : Prop :=
  ∀ receiptId, p.holds sha256Hex = some receiptId → q.holds sha256Hex ≠ some receiptId

section phases
variable {sha256Hex : Bytes → String} {w w' : InboundState} {receiptId : String}
  {phase phase' : ForwardPhase}

theorem InboundState.SameAt.refl (w : InboundState) (receiptId : String) :
    w.SameAt w receiptId := ⟨rfl, rfl⟩

theorem InboundState.At.same (h : w.At receiptId phase) (hsame : w.SameAt w' receiptId) :
    w'.At receiptId phase := ⟨hsame.1.trans h.recorded, hsame.2.trans h.events⟩

/-- The phase can be told from the store and the events. -/
theorem InboundState.At.unique (h : w.At receiptId phase) (h' : w.At receiptId phase') :
    phase = phase' :=
  ForwardPhase.eq_of_view (h.recorded.symm.trans h'.recorded) (h.events.symm.trans h'.events)

theorem InboundState.Phased.same (h : w.Phased) (hsame : ∀ id, w.SameAt w' id) : w'.Phased :=
  fun id => (h id).imp fun _ hphase => hphase.same (hsame id)

/-- One forward moves on. -/
theorem InboundState.Phased.set (h : w.Phased) (hnew : w'.At receiptId phase)
    (helse : ∀ id ≠ receiptId, w.SameAt w' id) : w'.Phased := by
  intro id
  by_cases hid : id = receiptId
  · exact ⟨phase, hid ▸ hnew⟩
  · exact (h id).imp fun _ hphase => hphase.same (helse id hid)

theorem Reception.Holding.of_none {p : Reception} (h : p.holds sha256Hex = none) :
    p.Holding sha256Hex w := by
  unfold Reception.holds at h
  unfold Reception.Holding
  split at h <;> simp_all

/-- What a reception holds is claimed and not settled. -/
theorem Reception.Holding.recorded {p : Reception} (h : p.Holding sha256Hex w)
    (hp : p.holds sha256Hex = some receiptId) : (w.store.forwarding receiptId).1 = .unknown := by
  unfold Reception.holds at hp
  unfold Reception.Holding at h
  split at hp
  · next hpoint =>
    simp only [hpoint] at h
    rw [← Option.some.inj hp, h.recorded]
    rfl
  · next hpoint =>
    simp only [hpoint] at h
    rw [← Option.some.inj hp, h.recorded]
    rfl
  · next hpoint =>
    simp only [hpoint] at h
    obtain ⟨ok, -, hat⟩ := h
    rw [← Option.some.inj hp, hat.recorded]
    rfl
  · exact absurd hp (by simp)

/-- A reception keeps what it holds as long as nobody else moves that forward. -/
theorem Reception.Holding.same {p : Reception} (h : p.Holding sha256Hex w)
    (hsame : ∀ id, p.holds sha256Hex = some id → w.SameAt w' id) : p.Holding sha256Hex w' := by
  unfold Reception.Holding at h ⊢
  unfold Reception.holds at hsame
  split
  · next hpoint =>
    simp only [hpoint] at h hsame
    exact h.same (hsame _ rfl)
  · next hpoint =>
    simp only [hpoint] at h hsame
    exact h.same (hsame _ rfl)
  · next hpoint =>
    simp only [hpoint] at h hsame
    obtain ⟨ok, hok, hat⟩ := h
    exact ⟨ok, hok, hat.same (hsame _ rfl)⟩
  · trivial

/-! ### Steps -/

/-- What a step does to the forwards: nothing, or one of them moves on. -/
inductive InboundState.Forwards (w w' : InboundState) : Option String → Prop where
  | stay : (∀ id, w.SameAt w' id) → Forwards w w' none
  | move (receiptId : String) (phase phase' : ForwardPhase) :
    w.At receiptId phase → phase.Next phase' → w'.At receiptId phase' →
    (∀ id ≠ receiptId, w.SameAt w' id) → Forwards w w' (some receiptId)

theorem InboundState.Forwards.phased {moved : Option String} (h : w.Forwards w' moved)
    (hw : w.Phased) : w'.Phased := by
  cases h with
  | stay hsame => exact hw.same hsame
  | move _ _ _ _ _ hnew helse => exact hw.set hnew helse

theorem InboundState.Forwards.same {moved : Option String} (h : w.Forwards w' moved)
    (hid : moved ≠ some receiptId) : w.SameAt w' receiptId := by
  cases h with
  | stay hsame => exact hsame receiptId
  | move id _ _ _ _ _ helse => exact helse receiptId fun heq => hid (heq ▸ rfl)

/-- A command that is not an observation moves no forward. -/
theorem InboundState.SameAt.exec {c : Command} (hc : ∀ input, c ≠ .observeInboundForward input)
    (w : InboundState) (receiptId : String) : w.SameAt (w.exec c) receiptId :=
  ⟨exec_forwarding hc receiptId, rfl⟩

/-- An observation moves the forward of its receipt, if it applies. -/
theorem InboundState.SameAt.observe {input : ObserveInboundForwardInput}
    (h : receiptId = input.receiptId → (observeInboundForward w.store input).1 = false) :
    w.SameAt (w.exec (.observeInboundForward input)) receiptId := by
  refine ⟨(observe_forwarding w.store input receiptId).trans (if_neg ?_), rfl⟩
  intro ⟨hid, happlies⟩
  exact absurd (h hid) (by simp [happlies])

theorem InboundState.At.observe {input : ObserveInboundForwardInput}
    (h : w.At receiptId phase) (happlies : (observeInboundForward w.store input).1 = true)
    (hid : input.receiptId = receiptId)
    (hrecorded : phase'.recorded = (input.kind.outcome, some input.destination))
    (hevents : phase'.events receiptId = phase.events receiptId) :
    (w.exec (.observeInboundForward input)).At receiptId phase' where
  recorded := by
    rw [hrecorded]
    exact (observe_forwarding w.store input receiptId).trans (if_pos ⟨hid.symm, happlies⟩)
  events := by
    rw [hevents]
    exact h.events

/-- An event at the forwarder is one of its receipt. -/
theorem InboundState.At.event {e : ForwardEvent} (h : w.At receiptId phase)
    (hid : e.receiptId = receiptId) (hrecorded : phase'.recorded = phase.recorded)
    (hevents : phase'.events receiptId = phase.events receiptId ++ [e]) :
    { w with forwards := w.forwards ++ [e] }.At receiptId phase' where
  recorded := h.recorded.trans hrecorded.symm
  events := by
    rw [hevents, ← h.events]
    simp [InboundState.eventsOf, List.filter_append, hid]

theorem InboundState.SameAt.event {e : ForwardEvent} (hid : receiptId ≠ e.receiptId) :
    w.SameAt { w with forwards := w.forwards ++ [e] } receiptId :=
  ⟨rfl, by simp [InboundState.eventsOf, List.filter_append, Ne.symm hid]⟩

/-- What a step of a reception does: it moves at most one forward, the one the
    reception holds, or one that nobody holds and that it holds from then on. -/
structure Reception.Advances (sha256Hex : Bytes → String) (w : InboundState) (p : Reception)
    (w' : InboundState) (next : Option Reception) (moved : Option String) : Prop where
  forwards : w.Forwards w' moved
  owned : ∀ id, moved = some id →
    p.holds sha256Hex = some id ∨ (w.store.forwarding id).1 = .none
  holding : ∀ q, next = some q → q.Holding sha256Hex w' ∧
    (q.holds sha256Hex = none ∨ q.holds sha256Hex = moved)

theorem Reception.Advances.stay {p : Reception} {next : Option Reception}
    (hsame : ∀ id, w.SameAt w' id) (hnone : ∀ q, next = some q → q.holds sha256Hex = none) :
    p.Advances sha256Hex w w' next none where
  forwards := .stay hsame
  owned _ h := absurd h (by simp)
  holding q hq := ⟨.of_none (hnone q hq), .inl (hnone q hq)⟩

/-- A step moves a forward that the reception held, or that nobody held. -/
theorem Reception.Advances.move {p : Reception} {next : Option Reception}
    (hat : w.At receiptId phase) (hnext : phase.Next phase') (hnew : w'.At receiptId phase')
    (helse : ∀ id ≠ receiptId, w.SameAt w' id)
    (howned : p.holds sha256Hex = some receiptId ∨ (w.store.forwarding receiptId).1 = .none)
    (hholding : ∀ q, next = some q → q.Holding sha256Hex w' ∧
      (q.holds sha256Hex = none ∨ q.holds sha256Hex = some receiptId)) :
    p.Advances sha256Hex w w' next (some receiptId) where
  forwards := .move receiptId phase phase' hat hnext hnew helse
  owned id heq := by
    cases heq
    exact howned
  holding := hholding

theorem Reception.advances_of_moves {p : Reception} {next : Option Reception}
    (h : p.Moves sha256Hex w w' next) (hw : w.Phased) (hp : p.Holding sha256Hex w) :
    ∃ moved, p.Advances sha256Hex w w' next moved := by
  cases h with
  | rejects => exact ⟨none, .stay (fun id => .refl w id) nofun⟩
  | parses | resolves | buffers =>
    refine ⟨none, .stay (fun id => .refl w id) ?_⟩
    intro q heq
    cases heq
    rfl
  | archives d forwardTo hpoint =>
    refine ⟨none, .stay (fun id => ⟨rfl, rfl⟩) ?_⟩
    intro q heq
    cases heq
    rfl
  | registers d forwardTo hpoint =>
    refine ⟨none, .stay (fun id => .exec (fun _ => by simp) w id) ?_⟩
    intro q heq
    cases heq
    cases forwardTo <;> rfl
  | claims d destination input hpoint hinput =>
    cases happlies : (observeInboundForward w.store input).1 with
    | false =>
      refine ⟨none, .stay (fun id => .observe fun _ => happlies) ?_⟩
      intro q heq
      cases heq
      rfl
    | true =>
      subst hinput
      obtain ⟨-, houtcome, hne⟩ := observeInboundForward_applies.mp happlies
      have hnone := houtcome.resolve_right hne
      obtain ⟨phase, hat⟩ := hw (d.receiptId sha256Hex)
      -- a claim applies to an idle forward only
      obtain rfl : phase = .idle := ForwardPhase.idle_of_recorded (hat.recorded ▸ hnone)
      have hnew : InboundState.At _ _ (.claimed destination) := hat.observe happlies rfl rfl rfl
      refine ⟨some (d.receiptId sha256Hex), .move hat (.claim destination) hnew
        (fun id hid => .observe fun heq => absurd heq hid) (.inr hnone) ?_⟩
      intro q heq
      cases heq
      exact ⟨hnew, .inr rfl⟩
  | forwards d destination hpoint =>
    simp only [Reception.Holding, hpoint] at hp
    have hnew : InboundState.At _ _ (.invoked destination) :=
      hp.event (e := .invoked (d.receiptId sha256Hex) destination) rfl rfl rfl
    refine ⟨some (d.receiptId sha256Hex), .move hp (.invoke destination) hnew
      (fun id hid => .event hid) (.inl (by simp only [Reception.holds, hpoint])) ?_⟩
    intro q heq
    cases heq
    exact ⟨hnew, .inr rfl⟩
  | answers d destination observation hpoint hne =>
    simp only [Reception.Holding, hpoint] at hp
    obtain ⟨ok, rfl⟩ : ∃ ok, observation = observationOf ok := by
      cases observation with
      | unknown => exact absurd rfl hne
      | success => exact ⟨true, rfl⟩
      | failure => exact ⟨false, rfl⟩
    have hnew : InboundState.At _ _ (.answered destination ok) :=
      hp.event (e := .answered (d.receiptId sha256Hex) destination (observationOf ok)) rfl rfl rfl
    refine ⟨some (d.receiptId sha256Hex), .move hp (.answer destination ok) hnew
      (fun id hid => .event hid) (.inl (by simp only [Reception.holds, hpoint])) ?_⟩
    intro q heq
    cases heq
    exact ⟨⟨ok, rfl, hnew⟩, .inr rfl⟩
  | observes d destination observation hpoint =>
    simp only [Reception.Holding, hpoint] at hp
    obtain ⟨ok, rfl, hat⟩ := hp
    have hunknown : (w.store.forwarding (d.receiptId sha256Hex)).1 = .unknown :=
      congrArg Prod.fst hat.recorded
    have happlies : (observeInboundForward w.store
        { receiptId := d.receiptId sha256Hex, kind := observationOf ok, destination }).1 =
          true := by
      refine observeInboundForward_applies.mpr ⟨?_, .inr hunknown, ?_⟩
      · exact registered_of_forwarding (by simp [hunknown])
      · rw [hunknown]
        cases ok <;> nofun
    have hnew : InboundState.At _ _ (.settled destination ok) := hat.observe happlies rfl rfl rfl
    refine ⟨some (d.receiptId sha256Hex), .move hat (.settle destination ok) hnew
      (fun id hid => .observe fun heq => absurd heq hid)
      (.inl (by simp only [Reception.holds, hpoint])) ?_⟩
    intro q heq
    cases heq
    exact ⟨.of_none rfl, .inl rfl⟩
  | publishes d hpoint => exact ⟨none, .stay (fun id => ⟨rfl, rfl⟩) nofun⟩

theorem Indexing.same_of_moves {mime : MimePorts} {p : Indexing} {next : Option Indexing}
    (h : p.Moves mime w w' next) (receiptId : String) : w.SameAt w' receiptId := by
  cases h with
  | fails | accepts => exact .exec (fun _ => by simp) w receiptId
  | archives => exact ⟨rfl, rfl⟩
  | _ => exact .refl w receiptId

theorem Redrive.same_of_moves {p : Redrive} {next : Option Redrive}
    (h : Redrive.Moves w p w' next) (receiptId : String) : w.SameAt w' receiptId := by
  cases h with
  | selects nowIso => exact .exec (fun _ => by simp) w receiptId
  | sends receiptId rest => exact ⟨rfl, rfl⟩
  | ends => exact .refl w receiptId

/-- **Processes.** The same for every process. -/
theorem InboundProcess.advances {ports : InboundPorts} {p : InboundProcess}
    {next : Option InboundProcess} {reply : InboundReply}
    (h : p.step ports w reply = some (w', next)) (hw : w.Phased)
    (hp : p.Holding ports.sha256Hex w) :
    ∃ moved, w.Forwards w' moved ∧
      (∀ id, moved = some id → p.holds ports.sha256Hex = some id ∨
        (w.store.forwarding id).1 = .none) ∧
      ∀ q, next = some q → q.Holding ports.sha256Hex w' ∧
        (q.holds ports.sha256Hex = none ∨ q.holds ports.sha256Hex = moved) := by
  -- only a reception forwards
  rcases InboundProcess.step_cases h with
    ⟨q, n, rfl, rfl, hmove⟩ | ⟨q, n, rfl, rfl, hmove⟩ | ⟨q, n, rfl, rfl, hmove⟩
  · obtain ⟨moved, hforwards, howned, hholding⟩ := Reception.advances_of_moves hmove hw hp
    refine ⟨moved, hforwards, howned, fun r hr => ?_⟩
    obtain ⟨q', hq', rfl⟩ := Option.map_eq_some_iff.mp hr
    exact hholding q' hq'
  · refine ⟨none, .stay (Indexing.same_of_moves hmove), nofun, fun r hr => ?_⟩
    obtain ⟨q', -, rfl⟩ := Option.map_eq_some_iff.mp hr
    exact ⟨trivial, .inl rfl⟩
  · refine ⟨none, .stay (Redrive.same_of_moves hmove), nofun, fun r hr => ?_⟩
    obtain ⟨q', -, rfl⟩ := Option.map_eq_some_iff.mp hr
    exact ⟨trivial, .inl rfl⟩

theorem InboundState.happens_same {e : InboundEvent} (h : w.happens e = some w')
    (receiptId : String) : w.SameAt w' receiptId := by
  cases e with
  | command c =>
    simp only [InboundState.happens] at h
    split at h
    · next hc =>
      obtain rfl := Option.some.inj h
      -- observations are not among the other uses of the store
      exact .exec (fun input heq => by simp [heq, Command.notInbound] at hc) w receiptId
    · exact absurd h (by simp)
  | drop id =>
    obtain rfl := Option.some.inj h
    exact ⟨rfl, rfl⟩

theorem InboundProcess.Holding.same {p : InboundProcess} (h : p.Holding sha256Hex w)
    (hsame : ∀ id, p.holds sha256Hex = some id → w.SameAt w' id) : p.Holding sha256Hex w' := by
  cases p with
  | receives q => exact Reception.Holding.same h hsame
  | indexes q => trivial
  | redrives q => trivial

theorem InboundProcess.Holding.recorded {p : InboundProcess} (h : p.Holding sha256Hex w)
    (hp : p.holds sha256Hex = some receiptId) : (w.store.forwarding receiptId).1 = .unknown := by
  cases p with
  | receives q => exact Reception.Holding.recorded h hp
  | indexes q => exact absurd hp nofun
  | redrives q => exact absurd hp nofun

end phases

/-! ### The system -/

section system
variable {ports : InboundPorts}

/-- The assertions hold under every interleaving. -/
theorem forwarding_valid : (inbound ports).Valid InboundState.Phased
    (fun w p => p.Holding ports.sha256Hex w) (InboundProcess.ApartOn ports.sha256Hex) where
  init w hinit receiptId := by
    obtain ⟨hstore, -, -, hforwards, -⟩ := hinit
    refine ⟨.idle, ?_, ?_⟩
    · refine forwarding_of_absent fun r hr => ?_
      rw [hstore] at hr
      exact absurd hr Table.mem_empty
    · rw [InboundState.eventsOf, hforwards]
      rfl
  symm p q h receiptId hq hp := h receiptId hp hq
  env w e w' hw he := by
    have hsame := InboundState.happens_same he
    exact ⟨hw.same hsame, fun p hp => hp.same fun id _ => hsame id⟩
  start w a _ := by
    cases a with
    | receive message nowIso => exact ⟨trivial, fun p _ receiptId h => absurd h nofun⟩
    | index receiptId nowIso => exact ⟨trivial, fun p _ receiptId h => absurd h nofun⟩
    | redrive nowIso => exact ⟨trivial, fun p _ receiptId h => absurd h nofun⟩
  step w p i w' p' hw hp hstep := by
    obtain ⟨moved, hforwards, -, hholding⟩ := InboundProcess.advances hstep hw hp
    exact ⟨hforwards.phased hw, fun q hq => (hholding q hq).1⟩
  other w p i w' p' q hw hp hq hapart hstep := by
    obtain ⟨moved, hforwards, howned, hholding⟩ := InboundProcess.advances hstep hw hp
    -- what `q` holds is not what moves: that is held by `p`, or not claimed at all
    have hne : ∀ id, q.holds ports.sha256Hex = some id → moved ≠ some id := by
      intro id hqid hmoved
      rcases howned id hmoved with hpid | hnone
      · exact hapart id hpid hqid
      · have hunknown := hq.recorded hqid
        rw [hnone] at hunknown
        exact absurd hunknown nofun
    refine ⟨hq.same fun id hqid => hforwards.same (hne id hqid), fun r hr id hrid hqid => ?_⟩
    rcases (hholding r hr).2 with hnone | hmoved
    · rw [hnone] at hrid
      exact absurd hrid nofun
    · exact hne id hqid (hmoved ▸ hrid)

/-- One step of the system. -/
theorem forwarding_step {w w' : Lts.Pool InboundState InboundProcess}
    {l : Lts.PoolLabel InboundEvent InboundStart InboundReply}
    (hr : (inbound ports).machine.Reachable w) (h : (inbound ports).machine.step w l = some w') :
    ∃ moved, w.shared.Forwards w'.shared moved := by
  have hholds := forwarding_valid.reachable hr
  rcases Lts.Program.machine_step h with ⟨e, s, -, he, rfl⟩ | ⟨pid, a, -, -, rfl⟩ |
    ⟨pid, i, p, s, p', -, hp, hs, rfl⟩ | ⟨pid, -, rfl⟩
  · exact ⟨none, .stay (InboundState.happens_same he)⟩
  · exact ⟨none, .stay fun id => .refl _ id⟩
  · obtain ⟨moved, hforwards, -⟩ := InboundProcess.advances hs hholds.inv (hholds.loc pid p hp)
    exact ⟨moved, hforwards⟩
  · exact ⟨none, .stay fun id => .refl _ id⟩

/-- A step leaves a forward in its phase, or takes it to the next one. -/
theorem forwarding_phase {w w' : Lts.Pool InboundState InboundProcess}
    {l : Lts.PoolLabel InboundEvent InboundStart InboundReply}
    (hr : (inbound ports).machine.Reachable w) (h : (inbound ports).machine.step w l = some w')
    {receiptId : String} {phase : ForwardPhase} (hat : w.shared.At receiptId phase) :
    w'.shared.At receiptId phase ∨ ∃ phase', phase.Next phase' ∧
      w'.shared.At receiptId phase' := by
  obtain ⟨moved, hforwards⟩ := forwarding_step hr h
  cases hforwards with
  | stay hsame => exact .inl (hat.same (hsame receiptId))
  | move id phase₁ phase' hold hnext hnew helse =>
    by_cases hid : receiptId = id
    · subst hid
      obtain rfl := hat.unique hold
      exact .inr ⟨phase', hnext, hnew⟩
    · exact .inl (hat.same (helse receiptId hid))

/-- A settled forward stays as it is. -/
theorem forwarding_settled {w w' : Lts.Pool InboundState InboundProcess}
    {ls : List (Lts.PoolLabel InboundEvent InboundStart InboundReply)}
    (hr : (inbound ports).machine.Reachable w) (h : (inbound ports).machine.Run w ls w')
    {receiptId destination : String} {ok : Bool}
    (hat : w.shared.At receiptId (.settled destination ok)) :
    w'.shared.At receiptId (.settled destination ok) := by
  induction h with
  | nil => exact hat
  | cons l ls hstep _ ih =>
    refine ih (hr.step l hstep) ((forwarding_phase hr hstep hat).resolve_right ?_)
    rintro ⟨phase', hnext, -⟩
    exact hnext.not_settled destination ok rfl

/-! ### Forwards, once -/

/-- How what is recorded of a forward may change in one step. -/
inductive ForwardingMoves : ForwardOutcome × Option String → ForwardOutcome × Option String →
    Prop where
  | stays (f : ForwardOutcome × Option String) : ForwardingMoves f f
  | claims (destination : String) : ForwardingMoves (.none, none) (.unknown, some destination)
  | settles (destination : String) (observation : ForwardObservation) :
    observation ≠ .unknown →
    ForwardingMoves (.unknown, some destination) (observation.outcome, some destination)

/-- The forward of one receipt, in a pool and in what comes after it. -/
structure ForwardedOnce (ports : InboundPorts) (w : Lts.Pool InboundState InboundProcess)
    (receiptId : String) : Prop where
  /-- The native forward is invoked at most once. -/
  once : (w.shared.eventsOf receiptId).countP (·.isInvocation) ≤ 1
  /-- What is recorded as settled is the answer to that one invocation. -/
  truthful : ∀ r ∈ w.shared.store.receipts, r.id = receiptId →
    ∀ observation, observation ≠ .unknown → r.forward_outcome = observation.outcome →
      ∃ destination, r.forward_destination = some destination ∧
        w.shared.eventsOf receiptId =
          [.invoked receiptId destination, .answered receiptId destination observation]
  /-- What is recorded moves from `none` to `unknown` to an outcome. -/
  moves : ∀ l w', (inbound ports).machine.step w l = some w' →
    ForwardingMoves (w.shared.store.forwarding receiptId) (w'.shared.store.forwarding receiptId)
  /-- A settled outcome and its destination are never overwritten. -/
  kept : ∀ ls w', (inbound ports).machine.Run w ls w' →
    (w.shared.store.forwarding receiptId).1 ≠ .none →
    (w.shared.store.forwarding receiptId).1 ≠ .unknown →
    w'.shared.store.forwarding receiptId = w.shared.store.forwarding receiptId

omit [Unicode] in
theorem ForwardPhase.Next.moves {phase phase' : ForwardPhase} (h : phase.Next phase') :
    ForwardingMoves phase.recorded phase'.recorded := by
  cases h with
  | claim destination => exact .claims destination
  | invoke destination => exact .stays _
  | answer destination ok => exact .stays _
  | settle destination ok => exact .settles destination _ (by cases ok <;> decide)

omit [Unicode] in
/-- A phase that records an outcome is the settled one. -/
theorem ForwardPhase.settled_of_recorded {phase : ForwardPhase} (hnone : phase.recorded.1 ≠ .none)
    (hunknown : phase.recorded.1 ≠ .unknown) : ∃ destination ok,
      phase = .settled destination ok := by
  cases phase with
  | idle => exact absurd rfl hnone
  | settled destination ok => exact ⟨destination, ok, rfl⟩
  | _ => exact absurd rfl hunknown

/-- **Inbound mail is forwarded at most once**, whatever deliveries of the
    receipt run, in whatever order, and wherever they crash. -/
theorem inbound_forwarded_once {w : Lts.Pool InboundState InboundProcess}
    (h : (inbound ports).machine.Reachable w) (receiptId : String) :
    ForwardedOnce ports w receiptId := by
  obtain ⟨phase, hat⟩ := (forwarding_valid.reachable h).inv receiptId
  constructor
  · -- the events of a phase hold at most one invocation
    rw [hat.events]
    cases phase <;> simp [ForwardPhase.events, ForwardEvent.isInvocation]
  · intro r hr hid observation hobservation houtcome
    have hrecorded : (r.forward_outcome, r.forward_destination) = phase.recorded := by
      rw [← forwarding_of_mem hr, hid, hat.recorded]
    -- an answer other than `unknown` is recorded after the answer itself only
    have hfirst : phase.recorded.1 = observation.outcome := by rw [← hrecorded, ← houtcome]
    have hnone : phase.recorded.1 ≠ .none := by
      rw [hfirst]
      cases observation <;> decide
    have hunknown : phase.recorded.1 ≠ .unknown := by
      rw [hfirst]
      exact fun heq => hobservation (ForwardObservation.outcome_injective heq)
    obtain ⟨destination, ok, rfl⟩ := ForwardPhase.settled_of_recorded hnone hunknown
    obtain rfl : observationOf ok = observation := ForwardObservation.outcome_injective hfirst
    exact ⟨destination, congrArg Prod.snd hrecorded, hat.events⟩
  · intro l w' hstep
    rw [hat.recorded]
    rcases forwarding_phase h hstep hat with hsame | ⟨phase', hnext, hnew⟩
    · rw [hsame.recorded]
      exact .stays _
    · rw [hnew.recorded]
      exact hnext.moves
  · intro ls w' hrun hnone hunknown
    rw [hat.recorded] at hnone hunknown
    obtain ⟨destination, ok, rfl⟩ := ForwardPhase.settled_of_recorded hnone hunknown
    rw [hat.recorded, (forwarding_settled h hrun hat).recorded]

end system

end forwarding

/-! ### A sample run

  The message is delivered twice. The first delivery has claimed the forward
  when the second one arrives, after the destination was changed. -/

namespace Sample

def forwardingRun : List (Lts.PoolLabel InboundEvent InboundStart InboundReply) :=
  [.env (.command (.createAddress "mailbox-1" "agent" "example.com" none 10 true)),
    .env (.command (.setAddressForwarding "mailbox-1" (some "first@example.org") 20)),
    .start 0 (.receive inboundMessage 100)] ++
  List.replicate 6 (.step 0 .unit) ++
  [.env (.command (.setAddressForwarding "mailbox-1" (some "second@example.org") 110)),
    .start 1 (.receive inboundMessage 120)] ++
  List.replicate 7 (.step 1 .unit) ++
  [.step 0 .unit, .step 0 (.forwarded true), .step 0 .unit]

end Sample

section sample
open Sample

/-- The sample run reaches a state with a recorded success. -/
theorem inbound_forwarded_once_twice_delivered :
    ∃ w : Lts.Pool InboundState InboundProcess, (inbound inboundPorts).machine.Reachable w ∧
      w.shared.store.receipts.rows.map (fun r => (r.id, r.forward_outcome, r.forward_destination)) =
        [("in_" ++ identityDigest, .success, some "first@example.org")] ∧
      w.shared.queue.length = 1 ∧
      ForwardedOnce inboundPorts w ("in_" ++ identityDigest) := by
  have hrun : ((inbound inboundPorts).machine.fire noMail forwardingRun).any (fun w =>
      w.shared.store.receipts.rows.map (fun r => (r.id, r.forward_outcome, r.forward_destination)) =
        [("in_" ++ identityDigest, .success, some "first@example.org")] &&
      w.shared.queue.length = 1) = true := by
    decide +kernel
  obtain ⟨w, hfire, hw⟩ := (Option.any_eq_true _ _).mp hrun
  simp only [Bool.and_eq_true, decide_eq_true_eq] at hw
  have hinit : (inbound inboundPorts).machine.Reachable noMail :=
    .init ⟨⟨rfl, fun _ => rfl, rfl, rfl, rfl⟩, fun _ => rfl⟩
  have hreach : (inbound inboundPorts).machine.Reachable w :=
    (Lts.Machine.Run.of_fire hfire).reachable hinit
  exact ⟨w, hreach, hw.1, hw.2, inbound_forwarded_once hreach _⟩

end sample

end Umail
