import Umail.Account.Threading

/-! # Inbound commands and the message writer

  `apps/server/src/account/commands.ts`: registering, indexing, failing and
  redriving inbound receipts, and `writeThreadedMail`, the only writer of
  messages. The schema migrations are not part of this module.
-/

namespace Umail

open Relational

variable [Unicode]

/-! ### Inputs -/

structure MessageAttachmentWrite where
  id : String
  position : Nat
  filename : String
  mimeType : String
  size : Nat
  r2Key : String
  contentId : Option String
  disposition : Option String
  isInline : Bool

/-- `AcceptOutboundInput`; an absent list of contacts writes no row. -/
structure AcceptOutboundInput where
  messageId : String
  mailboxId : String
  rfcMessageId : Option String
  inReplyToHeader : Option String
  referencesHeader : Option String
  occurredAt : Instant
  nowIso : Instant
  subject : Option String
  textBody : Option String
  htmlBody : Option String
  hasRemoteImages : Bool
  «from» : List AccountMailContact
  replyTo : List AccountMailContact
  «to» : List AccountMailContact
  cc : List AccountMailContact
  attachments : List MessageAttachmentWrite

structure AcceptInboundInput extends AcceptOutboundInput where
  parsedDate : Option Instant

inductive ThreadedMailWrite where
  | inbound (input : AcceptInboundInput)
  | outbound (input : AcceptOutboundInput)

def ThreadedMailWrite.input : ThreadedMailWrite → AcceptOutboundInput
  | .inbound input => input.toAcceptOutboundInput
  | .outbound input => input

def ThreadedMailWrite.direction : ThreadedMailWrite → MessageDirection
  | .inbound _ => .inbound
  | .outbound _ => .outbound

def ThreadedMailWrite.parsedDate : ThreadedMailWrite → Option Instant
  | .inbound input => input.parsedDate
  | .outbound _ => none

structure AcceptMessageResult where
  messageId : String
  threadId : String

structure RegisterInboundReceiptInput where
  receiptId : String
  envelopeFrom : String
  envelopeTo : String
  rawKey : String
  receivedAt : Instant

/-- A forward observation: `kind` is not `none`. -/
inductive ForwardObservation where
  | unknown
  | success
  | failure
  deriving DecidableEq

def ForwardObservation.outcome : ForwardObservation → ForwardOutcome
  | .unknown => .unknown
  | .success => .success
  | .failure => .failure

structure ObserveInboundForwardInput where
  receiptId : String
  kind : ForwardObservation
  destination : String

/-! ### Writing a message -/

/-- The row `writeThreadedMail` inserts; the thread starts as the message itself. -/
def newMessageRow (write : ThreadedMailWrite) (headers : ThreadingHeaders) : MessageRow where
  id := write.input.messageId
  thread_id := write.input.messageId
  mailbox_id := write.input.mailboxId
  direction := write.direction
  rfc_message_id := headers.rfcMessageId
  in_reply_to_rfc_message_id := headers.inReplyTo
  occurred_at := write.input.occurredAt
  parsed_date := write.parsedDate
  created_at := write.input.nowIso
  is_read := false
  deleted_at := none
  subject := write.input.subject
  text_body := write.input.textBody
  html_body := write.input.htmlBody
  has_remote_images := write.input.hasRemoteImages
  read_at := none
  updated_at := some write.input.nowIso

def newReferenceRows (messageId : String) (references : List NormalizedRfcMessageId) :
    List ReferenceRow :=
  references.zipIdx.map fun (rfcMessageId, position) =>
    { message_id := messageId, position, rfc_message_id := rfcMessageId }

def ParticipantRole.text : ParticipantRole → String
  | .from => "from"
  | .reply_to => "reply_to"
  | .to => "to"
  | .cc => "cc"

/-- `insertParticipants` -/
def newParticipantRows (messageId : String) (role : ParticipantRole)
    (contacts : List AccountMailContact) : List ParticipantRow :=
  contacts.zipIdx.map fun (contact, position) =>
    { id := s!"pt_{messageId}_{role.text}_{position}"
      message_id := messageId
      role
      position
      address := contact.address
      display_name := contact.displayName }

def newMessageParticipants (input : AcceptOutboundInput) : List ParticipantRow :=
  newParticipantRows input.messageId .from input.from ++
  newParticipantRows input.messageId .reply_to input.replyTo ++
  newParticipantRows input.messageId .to input.to ++
  newParticipantRows input.messageId .cc input.cc

/-- `insertAttachments` -/
def newAttachmentRows (messageId : String) (createdAt : Instant)
    (attachments : List MessageAttachmentWrite) : List AttachmentRow :=
  attachments.map fun attachment =>
    { id := attachment.id
      message_id := messageId
      position := attachment.position
      filename := attachment.filename
      mime_type := attachment.mimeType
      size := attachment.size
      r2_key := attachment.r2Key
      content_id := attachment.contentId
      disposition := attachment.disposition
      is_inline := attachment.isInline
      created_at := createdAt }

/-- The inserts of `writeThreadedMail`, before the message is linked. -/
def insertMail (s : Store) (write : ThreadedMailWrite) : Except StoreError Store := do
  let input := write.input
  let headers := normalizeThreadingHeaders input.rfcMessageId input.inReplyToHeader
    input.referencesHeader
  let messages ← inserted (s.messages.insert? (newMessageRow write headers))
  let references ← inserted
    (s.references.insertAll? (newReferenceRows input.messageId headers.references))
  let participants ← inserted (s.participants.insertAll? (newMessageParticipants input))
  let attachments ← inserted
    (s.attachments.insertAll? (newAttachmentRows input.messageId input.nowIso input.attachments))
  return { s with messages, references, participants, attachments }

def writeThreadedMail (s : Store) (write : ThreadedMailWrite) :
    Except StoreError (AcceptMessageResult × Store) :=
  match s.messages.find? (·.id = write.input.messageId) with
  | some _ => .error (.messageConflict write.input.messageId)
  | none => do
    let s₁ ← insertMail s write
    let (threadId, s₂) ← linkThread s₁ write.input.messageId
    return ({ messageId := write.input.messageId, threadId }, s₂)

/-! ### Inbound receipts -/

def REDRIVE_GRACE_MS : Nat := 5 * 60000
def REDRIVE_MIN_MS : Nat := 60000
def REDRIVE_MAX_MS : Nat := 30 * 60000

def readInboundReceipt (s : Store) (receiptId : String) : Option InboundReceiptRow :=
  s.receipts.find? (·.id = receiptId)

/-- `getInboundReceipt` -/
def getInboundReceipt (s : Store) (receiptId : String) : Option InboundReceiptRow :=
  readInboundReceipt s receiptId

/-- Inserts the message and marks its receipt indexed in one transaction; a
    receipt that is no longer `ready` has been settled, so the call is a no-op. -/
def acceptInbound (s : Store) (input : AcceptInboundInput) :
    Except StoreError (Option AcceptMessageResult × Store) :=
  match readInboundReceipt s input.messageId with
  | none => .error (.receiptMissing input.messageId)
  | some receipt =>
    if receipt.work_state ≠ .ready then .ok (none, s)
    else do
      let (result, s₁) ← writeThreadedMail s (.inbound input)
      return (some result, { s₁ with
        receipts := s₁.receipts.update (·.id = input.messageId)
          (fun r => { r with work_state := .indexed }) fun _ => rfl })

/-- The row `registerInboundReceipt` inserts. -/
def newReceiptRow (input : RegisterInboundReceiptInput) : InboundReceiptRow where
  id := input.receiptId
  envelope_from := input.envelopeFrom
  envelope_to := input.envelopeTo
  raw_key := input.rawKey
  received_at := input.receivedAt
  forward_outcome := .none
  forward_destination := none
  work_state := .ready
  policy_error := none
  retry_after := input.receivedAt + REDRIVE_GRACE_MS

/-- `ON CONFLICT(id) DO NOTHING` -/
def registerInboundReceipt (s : Store) (input : RegisterInboundReceiptInput) : Store :=
  match s.receipts.insert? (newReceiptRow input) with
  | some receipts => { s with receipts }
  | none => s

/-- Whether an observation applies: `none -> unknown -> success | failure`. -/
def forwardMoves (r : InboundReceiptRow) (kind : ForwardObservation) : Bool :=
  (r.forward_outcome = .none || r.forward_outcome = .unknown) &&
    r.forward_outcome ≠ kind.outcome

/-- The returned flag says whether the observation applied, so `none -> unknown`
    doubles as the forward-once claim. -/
def observeInboundForward (s : Store) (input : ObserveInboundForwardInput) : Bool × Store :=
  let applies := fun r : InboundReceiptRow =>
    r.id = input.receiptId && forwardMoves r input.kind
  (!(s.receipts.select applies).isEmpty, { s with
    receipts := s.receipts.update applies
      (fun r => { r with
        forward_outcome := input.kind.outcome
        forward_destination := some input.destination }) fun _ => rfl })

def failInboundReceiptPolicy (s : Store) (receiptId : String) (reason : ReceiptPolicyError) :
    Store :=
  { s with
    receipts := s.receipts.update
      (fun r => r.id = receiptId && r.work_state = .ready)
      (fun r => { r with work_state := .policy_failed, policy_error := some reason })
      fun _ => rfl }

/-- `ORDER BY retry_after, id` -/
def redriveOrder (a b : InboundReceiptRow) : Prop :=
  a.retry_after < b.retry_after ∨ (a.retry_after = b.retry_after ∧ a.id ≤ b.id)

instance : DecidableRel redriveOrder := fun _ _ => inferInstanceAs (Decidable (_ ∨ _))

/-- The due `ready` receipts of one pass. -/
def dueReceipts (s : Store) (nowIso : Instant) (limit : Nat) : List InboundReceiptRow :=
  ((s.receipts.select fun r => r.work_state = .ready && r.retry_after ≤ nowIso).insertionSort
    redriveOrder).take limit

/-- The next redrive of a receipt: its age, clamped to 1-30 minutes. -/
def redriveAfter (nowIso receivedAt : Instant) : Instant :=
  nowIso + min (max (nowIso - receivedAt) REDRIVE_MIN_MS) REDRIVE_MAX_MS

/-- Returns the due `ready` receipts and pushes each one's next redrive out.
    Receipts never leave `ready` here. -/
def redriveDueInboundReceipts (s : Store) (nowIso : Instant) (limit : Nat) :
    List String × Store :=
  let due := (dueReceipts s nowIso limit).map (·.id)
  (due, { s with
    receipts := s.receipts.update (·.id ∈ due)
      (fun r => { r with retry_after := redriveAfter nowIso r.received_at }) fun _ => rfl })

/-! ### Reading participants and references -/

structure StoredParticipants where
  «from» : List AccountMailContact
  replyTo : List AccountMailContact
  «to» : List AccountMailContact
  cc : List AccountMailContact

/-- The contacts of one role, `ORDER BY position`. -/
def loadContacts (s : Store) (messageId : String) (role : ParticipantRole) :
    List AccountMailContact :=
  ((s.participants.select fun p => p.message_id = messageId && p.role = role).insertionSort
    fun a b => a.position ≤ b.position).map fun p =>
      { address := p.address, displayName := p.display_name }

/-- `loadParticipantsByMessageIds` at one message. -/
def loadParticipants (s : Store) (messageId : String) : StoredParticipants where
  «from» := loadContacts s messageId .from
  replyTo := loadContacts s messageId .reply_to
  «to» := loadContacts s messageId .to
  cc := loadContacts s messageId .cc

/-- `loadReferencesByMessageIds` at one message, `ORDER BY position`. -/
def loadReferences (s : Store) (messageId : String) : List NormalizedRfcMessageId :=
  ((s.references.select (·.message_id = messageId)).insertionSort
    fun a b => a.position ≤ b.position).map (·.rfc_message_id)

def QUERY_PAGE_DEFAULT : Nat := 50
def QUERY_PAGE_MAX : Nat := 200

def pageLimit : Option Int → Nat
  | none => QUERY_PAGE_DEFAULT
  | some limit =>
    if limit < 1 then 1
    else if limit > QUERY_PAGE_MAX then QUERY_PAGE_MAX
    else limit.toNat

end Umail
