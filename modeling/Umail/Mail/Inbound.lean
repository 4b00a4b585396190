import Umail.Account.Worker
import Umail.Mail.ProcessIndex

/-! # Receiving and indexing inbound mail

  `receiveInbound` of `apps/server/src/mail/inbound.ts`, `indexReceipt` of
  `mail/process-index.ts`, and the redrive step of `account/due-work.ts`, as
  processes around one account store, the object archive and the index queue.
  A process suspends at every `yield*` that reads or writes one of them. A
  call that fails ends its process, before or after its effect: the pool's
  crash. The queue may deliver a message any number of times and in any order,
  or drop it.
-/

namespace Umail

open Relational

def DEFAULT_MAX_RAW_BYTES : Nat := 20 * 1024 * 1024

/-- What the email handler is given. -/
structure InboundMessage where
  «from» : String
  «to» : String
  bodySize : Nat
  body : Bytes

structure InboundPorts where
  sha256Hex : Bytes → String
  mime : MimePorts

section process
variable [Unicode]

/-! ### The shared state -/

/-- A message whose recipient is a mailbox. -/
structure Delivery where
  bytes : Bytes
  «from» : String
  «to» : MailboxAddress

def Delivery.receiptId (d : Delivery) (sha256Hex : Bytes → String) : String :=
  inboundMessageId sha256Hex (sha256Hex d.bytes) d.from d.to

def Delivery.rawKey (d : Delivery) (sha256Hex : Bytes → String) : String :=
  rawObjectKey (sha256Hex d.bytes)

/-- What happens between a reception and the native forwarder. -/
inductive ForwardEvent where
  | invoked (receiptId destination : String)
  | answered (receiptId destination : String) (observation : ForwardObservation)

/-- The account store, the archive and the index queue. The events of the
    native forwarder and the deliveries that `receiveInbound` completed are
    kept for what is said about them; no step reads them. -/
structure InboundState where
  store : Store
  archive : String → Option Bytes
  queue : List String
  forwards : List ForwardEvent
  completed : List Delivery

def InboundState.exec (w : InboundState) (c : Command) : InboundState :=
  { w with store := w.store.exec c }

/-- `archive.put(key, value)` -/
def InboundState.put (w : InboundState) (key : String) (value : Bytes) : InboundState :=
  { w with archive := fun k => if k = key then some value else w.archive k }

/-- `index.send({ version: 1, receiptId })` -/
def InboundState.send (w : InboundState) (receiptId : String) : InboundState :=
  { w with queue := w.queue ++ [receiptId] }

/-- What a process is resumed with. -/
inductive InboundReply where
  | unit
  /-- Whether `message.forward` succeeded. -/
  | forwarded (ok : Bool)
  /-- What the sanitizer answered, if it did. -/
  | sanitized (html : Option StoredMailHtml)

/-! ### `receiveInbound` -/

/-- Where a reception is suspended. -/
inductive ReceptionPoint where
  | checking
  | resolving (recipient : MailboxAddress)
  | buffering (recipient : MailboxAddress) (forwardTo : Option String)
  | archiving (delivery : Delivery) (forwardTo : Option String)
  | registering (delivery : Delivery) (forwardTo : Option String)
  | claiming (delivery : Delivery) (destination : String)
  | forwarding (delivery : Delivery) (destination : String)
  | awaiting (delivery : Delivery) (destination : String)
  | observing (delivery : Delivery) (destination : String) (observation : ForwardObservation)
  | publishing (delivery : Delivery)

/-- A running `receiveInbound(message, deps)`. -/
structure Reception where
  message : InboundMessage
  nowIso : Instant
  point : ReceptionPoint

def Reception.goto (p : Reception) (point : ReceptionPoint) : Reception := { p with point }

def Reception.registration (p : Reception) (sha256Hex : Bytes → String) (d : Delivery) :
    RegisterInboundReceiptInput where
  receiptId := d.receiptId sha256Hex
  envelopeFrom := d.from
  envelopeTo := d.to.val
  rawKey := d.rawKey sha256Hex
  receivedAt := p.nowIso

/-- Receives one message. A rejection ends the process like a success, but
    completes no delivery. -/
def Reception.step (ports : InboundPorts) (w : InboundState) (p : Reception)
    (reply : InboundReply) : Option (InboundState × Option Reception) :=
  match p.point, reply with
  | .checking, .unit =>
    if DEFAULT_MAX_RAW_BYTES < p.message.bodySize then some (w, none)
    else
      match parseMailboxAddress p.message.to with
      | none => some (w, none)
      | some recipient => some (w, some (p.goto (.resolving recipient.address)))
  | .resolving recipient, .unit =>
    match getAddressByMailbox w.store recipient.val with
    | none => some (w, none)
    | some mailbox =>
      if !mailbox.active then some (w, none)
      else some (w, some (p.goto (.buffering recipient mailbox.forwardTo)))
  | .buffering recipient forwardTo, .unit =>
    if DEFAULT_MAX_RAW_BYTES < p.message.body.size then some (w, none)
    else
      let delivery : Delivery :=
        { bytes := p.message.body, «from» := p.message.from, «to» := recipient }
      some (w, some (p.goto (.archiving delivery forwardTo)))
  | .archiving d forwardTo, .unit =>
    some (w.put (d.rawKey ports.sha256Hex) d.bytes, some (p.goto (.registering d forwardTo)))
  | .registering d forwardTo, .unit =>
    let w' := w.exec (.registerInboundReceipt (p.registration ports.sha256Hex d))
    match forwardTo with
    | some destination => some (w', some (p.goto (.claiming d destination)))
    | none => some (w', some (p.goto (.publishing d)))
  | .claiming d destination, .unit =>
    let claim : ObserveInboundForwardInput :=
      { receiptId := d.receiptId ports.sha256Hex, kind := .unknown, destination }
    let claimed := (observeInboundForward w.store claim).1
    some (w.exec (.observeInboundForward claim),
      some (p.goto (if claimed then .forwarding d destination else .publishing d)))
  | .forwarding d destination, .unit =>
    some ({ w with
      forwards := w.forwards ++ [.invoked (d.receiptId ports.sha256Hex) destination] },
      some (p.goto (.awaiting d destination)))
  | .awaiting d destination, .forwarded ok =>
    let observation : ForwardObservation := if ok then .success else .failure
    some ({ w with
      forwards := w.forwards ++ [.answered (d.receiptId ports.sha256Hex) destination observation] },
      some (p.goto (.observing d destination observation)))
  | .observing d destination observation, .unit =>
    some (w.exec (.observeInboundForward
      { receiptId := d.receiptId ports.sha256Hex, kind := observation, destination }),
      some (p.goto (.publishing d)))
  | .publishing d, .unit =>
    some ({ w.send (d.receiptId ports.sha256Hex) with completed := w.completed ++ [d] }, none)
  | _, _ => none

/-! ### `indexReceipt` -/

/-- Where an indexing is suspended. -/
inductive IndexingPoint where
  /-- The queue has not delivered its message yet. -/
  | queued
  | reading
  | locating (receipt : InboundReceiptRow)
  | fetching (receipt : InboundReceiptRow) (mailboxId : String)
  | preparing (receipt : InboundReceiptRow) (mailboxId : String) (raw : Bytes)
  | failing (reason : ReceiptPolicyError)
  /-- The attachments that are still to be archived. -/
  | storing (input : AcceptInboundInput) (attachments : List PreparedAttachment)

/-- A running `indexReceipt(receiptId, deps)`. -/
structure Indexing where
  receiptId : String
  nowIso : Instant
  point : IndexingPoint

def Indexing.goto (p : Indexing) (point : IndexingPoint) : Indexing := { p with point }

def Indexing.target (p : Indexing) (receipt : InboundReceiptRow) (mailboxId : String) :
    InboundTarget where
  messageId := p.receiptId
  mailboxId
  occurredAt := receipt.received_at
  nowIso := p.nowIso

/-- Indexes one receipt. Success acknowledges the message of the queue and a
    failure retries it; the queue of the model redelivers in either case. -/
def Indexing.step (ports : InboundPorts) (w : InboundState) (p : Indexing)
    (reply : InboundReply) : Option (InboundState × Option Indexing) :=
  match p.point, reply with
  | .queued, .unit => if p.receiptId ∈ w.queue then some (w, some (p.goto .reading)) else none
  | .reading, .unit =>
    match getInboundReceipt w.store p.receiptId with
    | none => some (w, none)
    | some receipt =>
      if receipt.work_state ≠ .ready then some (w, none)
      else some (w, some (p.goto (.locating receipt)))
  | .locating receipt, .unit =>
    match getAddressByMailbox w.store receipt.envelope_to with
    | none => some (w, none)
    | some address => some (w, some (p.goto (.fetching receipt address.id)))
  | .fetching receipt mailboxId, .unit =>
    match w.archive receipt.raw_key with
    | none => some (w, none)
    | some raw => some (w, some (p.goto (.preparing receipt mailboxId raw)))
  | .preparing receipt mailboxId raw, .sanitized html =>
    match prepareInbound ports.mime raw (p.target receipt mailboxId) html with
    | .policy_failed reason => some (w, some (p.goto (.failing reason)))
    | .ready input attachments => some (w, some (p.goto (.storing input attachments)))
  | .failing reason, .unit => some (w.exec (.failInboundReceiptPolicy p.receiptId reason), none)
  | .storing input (attachment :: rest), .unit =>
    some (w.put attachment.r2Key attachment.bytes, some (p.goto (.storing input rest)))
  | .storing input [], .unit => some (w.exec (.acceptInbound input), none)
  | _, _ => none

/-! ### Redriving -/

/-- The redrive step of a running `runDueWork`. -/
inductive Redrive where
  | selecting (nowIso : Instant)
  | sending (receiptIds : List String)

def Redrive.step (w : InboundState) : Redrive → InboundReply →
    Option (InboundState × Option Redrive)
  | .selecting nowIso, .unit =>
    some (w.exec (.redriveDueInboundReceipts nowIso REDRIVE_BATCH_SIZE),
      some (.sending (redriveDueInboundReceipts w.store nowIso REDRIVE_BATCH_SIZE).1))
  | .sending (receiptId :: rest), .unit => some (w.send receiptId, some (.sending rest))
  | .sending [], .unit => some (w, none)
  | _, _ => none

/-! ### The system -/

inductive InboundProcess where
  | receives (p : Reception)
  | indexes (p : Indexing)
  | redrives (p : Redrive)

def InboundProcess.step (ports : InboundPorts) (w : InboundState) (p : InboundProcess)
    (reply : InboundReply) : Option (InboundState × Option InboundProcess) :=
  match p with
  | .receives p => (p.step ports w reply).map fun (w', p') => (w', p'.map .receives)
  | .indexes p => (p.step ports w reply).map fun (w', p') => (w', p'.map .indexes)
  | .redrives p => (p.step w reply).map fun (w', p') => (w', p'.map .redrives)

inductive InboundStart where
  | receive (message : InboundMessage) (nowIso : Instant)
  | index (receiptId : String) (nowIso : Instant)
  | redrive (nowIso : Instant)

def InboundStart.process : InboundStart → InboundProcess
  | .receive message nowIso => .receives { message, nowIso, point := .checking }
  | .index receiptId nowIso => .indexes { receiptId, nowIso, point := .queued }
  | .redrive nowIso => .redrives (.selecting nowIso)

/-- The commands of the store that inbound processes do not issue. Messages
    that are sent have other ids than messages that are received. -/
def Command.notInbound : Command → Bool
  | .acceptInbound _ => false
  | .registerInboundReceipt _ => false
  | .observeInboundForward _ => false
  | .failInboundReceiptPolicy _ _ => false
  | .redriveDueInboundReceipts _ _ => false
  | .submitOutbound _ ids => !isInboundMessageId ids.messageId
  | _ => true

inductive InboundEvent where
  /-- Any other use of the account store. -/
  | command (c : Command)
  /-- The queue gives up on a message, or acknowledges it. -/
  | drop (receiptId : String)

def InboundState.happens (w : InboundState) : InboundEvent → Option InboundState
  | .command c => if c.notInbound then some (w.exec c) else none
  | .drop receiptId => some { w with queue := w.queue.erase receiptId }

/-- Receptions, indexings and redrives, next to everything else that uses the
    store, from the migrated empty store and an empty archive. -/
def inbound (ports : InboundPorts) :
    Lts.Program InboundState InboundProcess InboundEvent InboundStart InboundReply where
  init w := w.store = Store.empty ∧ (∀ key, w.archive key = none) ∧ w.queue = [] ∧
    w.forwards = [] ∧ w.completed = []
  env := InboundState.happens
  start := InboundStart.process
  step := InboundProcess.step ports

/-! ### What a step can do -/

/-- The steps of a reception, each with what it found. -/
inductive Reception.Moves (sha256Hex : Bytes → String) (w : InboundState) (p : Reception) :
    InboundState → Option Reception → Prop where
  /-- The message is rejected. -/
  | rejects : Moves sha256Hex w p w none
  | parses (recipient : MailboxAddress) : p.point = .checking →
      Moves sha256Hex w p w (some (p.goto (.resolving recipient)))
  | resolves (recipient : MailboxAddress) (mailbox : AccountAddress) :
      p.point = .resolving recipient →
      getAddressByMailbox w.store recipient.val = some mailbox →
      Moves sha256Hex w p w (some (p.goto (.buffering recipient mailbox.forwardTo)))
  | buffers (recipient : MailboxAddress) (forwardTo : Option String) :
      p.point = .buffering recipient forwardTo →
      Moves sha256Hex w p w (some (p.goto (.archiving
        { bytes := p.message.body, «from» := p.message.from, «to» := recipient } forwardTo)))
  | archives (d : Delivery) (forwardTo : Option String) : p.point = .archiving d forwardTo →
      Moves sha256Hex w p (w.put (d.rawKey sha256Hex) d.bytes)
        (some (p.goto (.registering d forwardTo)))
  /-- Without a forwarding destination the receipt is published at once. -/
  | registers (d : Delivery) (forwardTo : Option String) : p.point = .registering d forwardTo →
      Moves sha256Hex w p (w.exec (.registerInboundReceipt (p.registration sha256Hex d)))
        (some (p.goto (match forwardTo with
          | some destination => .claiming d destination
          | none => .publishing d)))
  | claims (d : Delivery) (destination : String) (input : ObserveInboundForwardInput) :
      p.point = .claiming d destination →
      input = { receiptId := d.receiptId sha256Hex, kind := .unknown, destination } →
      Moves sha256Hex w p (w.exec (.observeInboundForward input))
        (some (p.goto (if (observeInboundForward w.store input).1 then .forwarding d destination
          else .publishing d)))
  | forwards (d : Delivery) (destination : String) : p.point = .forwarding d destination →
      Moves sha256Hex w p { w with
        forwards := w.forwards ++ [.invoked (d.receiptId sha256Hex) destination] }
        (some (p.goto (.awaiting d destination)))
  | answers (d : Delivery) (destination : String) (observation : ForwardObservation) :
      p.point = .awaiting d destination → observation ≠ .unknown →
      Moves sha256Hex w p { w with
        forwards := w.forwards ++ [.answered (d.receiptId sha256Hex) destination observation] }
        (some (p.goto (.observing d destination observation)))
  | observes (d : Delivery) (destination : String) (observation : ForwardObservation) :
      p.point = .observing d destination observation →
      Moves sha256Hex w p (w.exec (.observeInboundForward
        { receiptId := d.receiptId sha256Hex, kind := observation, destination }))
        (some (p.goto (.publishing d)))
  | publishes (d : Delivery) : p.point = .publishing d →
      Moves sha256Hex w p
        { w.send (d.receiptId sha256Hex) with completed := w.completed ++ [d] } none

/-- The steps of an indexing, each with what it found. -/
inductive Indexing.Moves (mime : MimePorts) (w : InboundState) (p : Indexing) :
    InboundState → Option Indexing → Prop where
  /-- There is nothing to index, or something it needs is missing. -/
  | stops : Moves mime w p w none
  | starts : p.point = .queued → p.receiptId ∈ w.queue →
      Moves mime w p w (some (p.goto .reading))
  | reads (receipt : InboundReceiptRow) : p.point = .reading →
      getInboundReceipt w.store p.receiptId = some receipt → receipt.work_state = .ready →
      Moves mime w p w (some (p.goto (.locating receipt)))
  | locates (receipt : InboundReceiptRow) (address : AccountAddress) :
      p.point = .locating receipt →
      getAddressByMailbox w.store receipt.envelope_to = some address →
      Moves mime w p w (some (p.goto (.fetching receipt address.id)))
  | fetches (receipt : InboundReceiptRow) (mailboxId : String) (raw : Bytes) :
      p.point = .fetching receipt mailboxId → w.archive receipt.raw_key = some raw →
      Moves mime w p w (some (p.goto (.preparing receipt mailboxId raw)))
  | refuses (receipt : InboundReceiptRow) (mailboxId : String) (raw : Bytes)
      (html : Option StoredMailHtml) (reason : ReceiptPolicyError) :
      p.point = .preparing receipt mailboxId raw →
      prepareInbound mime raw (p.target receipt mailboxId) html = .policy_failed reason →
      Moves mime w p w (some (p.goto (.failing reason)))
  | prepares (receipt : InboundReceiptRow) (mailboxId : String) (raw : Bytes)
      (html : Option StoredMailHtml) (input : AcceptInboundInput)
      (attachments : List PreparedAttachment) : p.point = .preparing receipt mailboxId raw →
      prepareInbound mime raw (p.target receipt mailboxId) html = .ready input attachments →
      Moves mime w p w (some (p.goto (.storing input attachments)))
  | fails (reason : ReceiptPolicyError) : p.point = .failing reason →
      Moves mime w p (w.exec (.failInboundReceiptPolicy p.receiptId reason)) none
  | archives (input : AcceptInboundInput) (attachment : PreparedAttachment)
      (rest : List PreparedAttachment) : p.point = .storing input (attachment :: rest) →
      Moves mime w p (w.put attachment.r2Key attachment.bytes)
        (some (p.goto (.storing input rest)))
  | accepts (input : AcceptInboundInput) : p.point = .storing input [] →
      Moves mime w p (w.exec (.acceptInbound input)) none

/-- The steps of a redrive. -/
inductive Redrive.Moves (w : InboundState) : Redrive → InboundState → Option Redrive →
    Prop where
  | selects (nowIso : Instant) :
      Moves w (.selecting nowIso)
        (w.exec (.redriveDueInboundReceipts nowIso REDRIVE_BATCH_SIZE))
        (some (.sending (redriveDueInboundReceipts w.store nowIso REDRIVE_BATCH_SIZE).1))
  | sends (receiptId : String) (rest : List String) :
      Moves w (.sending (receiptId :: rest)) (w.send receiptId) (some (.sending rest))
  | ends : Moves w (.sending []) w none

section moves
variable {ports : InboundPorts} {w w' : InboundState} {reply : InboundReply}

theorem Reception.moves_of_step {p : Reception} {next : Option Reception}
    (h : p.step ports w reply = some (w', next)) : p.Moves ports.sha256Hex w w' next := by
  unfold Reception.step at h
  -- one case per point of the pass, then per branch of its round
  split at h
  · next hpoint =>
    split at h
    · obtain ⟨rfl, rfl⟩ := Lts.some_pair_inj h
      exact .rejects
    · split at h
      · obtain ⟨rfl, rfl⟩ := Lts.some_pair_inj h
        exact .rejects
      · next recipient _ =>
        obtain ⟨rfl, rfl⟩ := Lts.some_pair_inj h
        exact .parses recipient.address hpoint
  · next recipient hpoint =>
    split at h
    · obtain ⟨rfl, rfl⟩ := Lts.some_pair_inj h
      exact .rejects
    · next mailbox hmailbox =>
      split at h
      · obtain ⟨rfl, rfl⟩ := Lts.some_pair_inj h
        exact .rejects
      · obtain ⟨rfl, rfl⟩ := Lts.some_pair_inj h
        exact .resolves recipient mailbox hpoint hmailbox
  · next recipient forwardTo hpoint =>
    split at h
    · obtain ⟨rfl, rfl⟩ := Lts.some_pair_inj h
      exact .rejects
    · obtain ⟨rfl, rfl⟩ := Lts.some_pair_inj h
      exact .buffers recipient forwardTo hpoint
  · next d forwardTo hpoint =>
    obtain ⟨rfl, rfl⟩ := Lts.some_pair_inj h
    exact .archives d forwardTo hpoint
  · next d forwardTo hpoint =>
    have hmove : p.Moves ports.sha256Hex w _ _ := .registers d forwardTo hpoint
    split at h
    · obtain ⟨rfl, rfl⟩ := Lts.some_pair_inj h
      exact hmove
    · obtain ⟨rfl, rfl⟩ := Lts.some_pair_inj h
      exact hmove
  · next d destination hpoint =>
    obtain ⟨rfl, rfl⟩ := Lts.some_pair_inj h
    exact .claims d destination _ hpoint rfl
  · next d destination hpoint =>
    obtain ⟨rfl, rfl⟩ := Lts.some_pair_inj h
    exact .forwards d destination hpoint
  · -- the provider's answer decides which observation follows
    next d destination ok hpoint =>
    obtain ⟨rfl, rfl⟩ := Lts.some_pair_inj h
    refine .answers d destination _ hpoint ?_
    cases ok <;> simp
  · next d destination observation hpoint =>
    obtain ⟨rfl, rfl⟩ := Lts.some_pair_inj h
    exact .observes d destination observation hpoint
  · next d hpoint =>
    obtain ⟨rfl, rfl⟩ := Lts.some_pair_inj h
    exact .publishes d hpoint
  · exact absurd h (by simp)

theorem Indexing.moves_of_step {p : Indexing} {next : Option Indexing}
    (h : p.step ports w reply = some (w', next)) : p.Moves ports.mime w w' next := by
  unfold Indexing.step at h
  -- one case per point of the pass, then per branch of its round
  split at h
  · next hpoint =>
    split at h
    · next hqueued =>
      obtain ⟨rfl, rfl⟩ := Lts.some_pair_inj h
      exact .starts hpoint hqueued
    · exact absurd h (by simp)
  · next hpoint =>
    split at h
    · obtain ⟨rfl, rfl⟩ := Lts.some_pair_inj h
      exact .stops
    · next receipt hreceipt =>
      split at h
      · obtain ⟨rfl, rfl⟩ := Lts.some_pair_inj h
        exact .stops
      · next hready =>
        obtain ⟨rfl, rfl⟩ := Lts.some_pair_inj h
        exact .reads receipt hpoint hreceipt (by simpa using hready)
  · next receipt hpoint =>
    split at h
    · obtain ⟨rfl, rfl⟩ := Lts.some_pair_inj h
      exact .stops
    · next address haddress =>
      obtain ⟨rfl, rfl⟩ := Lts.some_pair_inj h
      exact .locates receipt address hpoint haddress
  · next receipt mailboxId hpoint =>
    split at h
    · obtain ⟨rfl, rfl⟩ := Lts.some_pair_inj h
      exact .stops
    · next raw hraw =>
      obtain ⟨rfl, rfl⟩ := Lts.some_pair_inj h
      exact .fetches receipt mailboxId raw hpoint hraw
  · next receipt mailboxId raw html hpoint =>
    split at h
    · next reason hprepared =>
      obtain ⟨rfl, rfl⟩ := Lts.some_pair_inj h
      exact .refuses receipt mailboxId raw html reason hpoint hprepared
    · next input attachments hprepared =>
      obtain ⟨rfl, rfl⟩ := Lts.some_pair_inj h
      exact .prepares receipt mailboxId raw html input attachments hpoint hprepared
  · next reason hpoint =>
    obtain ⟨rfl, rfl⟩ := Lts.some_pair_inj h
    exact .fails reason hpoint
  · next input attachment rest hpoint =>
    obtain ⟨rfl, rfl⟩ := Lts.some_pair_inj h
    exact .archives input attachment rest hpoint
  · next input hpoint =>
    obtain ⟨rfl, rfl⟩ := Lts.some_pair_inj h
    exact .accepts input hpoint
  · exact absurd h (by simp)

theorem Redrive.moves_of_step {p : Redrive} {next : Option Redrive}
    (h : p.step w reply = some (w', next)) : Redrive.Moves w p w' next := by
  unfold Redrive.step at h
  split at h
  · next nowIso =>
    obtain ⟨rfl, rfl⟩ := Lts.some_pair_inj h
    exact .selects nowIso
  · next receiptId rest =>
    obtain ⟨rfl, rfl⟩ := Lts.some_pair_inj h
    exact .sends receiptId rest
  · obtain ⟨rfl, rfl⟩ := Lts.some_pair_inj h
    exact .ends
  · exact absurd h (by simp)

/-- A step of a process is a step of its program. -/
theorem InboundProcess.step_cases {p : InboundProcess} {next : Option InboundProcess}
    (h : p.step ports w reply = some (w', next)) :
    (∃ q n, p = .receives q ∧ next = n.map .receives ∧ q.Moves ports.sha256Hex w w' n) ∨
    (∃ q n, p = .indexes q ∧ next = n.map .indexes ∧ q.Moves ports.mime w w' n) ∨
    (∃ q n, p = .redrives q ∧ next = n.map .redrives ∧ Redrive.Moves w q w' n) := by
  cases p with
  | receives q =>
    obtain ⟨⟨w₁, n⟩, hstep, heq⟩ := Option.map_eq_some_iff.mp h
    obtain ⟨rfl, rfl⟩ := Prod.mk.inj heq
    exact .inl ⟨q, n, rfl, rfl, Reception.moves_of_step hstep⟩
  | indexes q =>
    obtain ⟨⟨w₁, n⟩, hstep, heq⟩ := Option.map_eq_some_iff.mp h
    obtain ⟨rfl, rfl⟩ := Prod.mk.inj heq
    exact .inr (.inl ⟨q, n, rfl, rfl, Indexing.moves_of_step hstep⟩)
  | redrives q =>
    obtain ⟨⟨w₁, n⟩, hstep, heq⟩ := Option.map_eq_some_iff.mp h
    obtain ⟨rfl, rfl⟩ := Prod.mk.inj heq
    exact .inr (.inr ⟨q, n, rfl, rfl, Redrive.moves_of_step hstep⟩)

end moves

end process

end Umail
