import Umail.Account.Jobs

/-! # Reading messages, and deleting threads

  `apps/server/src/account/queries.ts`: the summary and the body of one
  message, the resolution of a thread handle, and the two commands that
  change messages by thread.
-/

namespace Umail

open Relational

variable [Unicode]

/-! ### Scopes -/

def mailboxInScope (mailboxId : String) : MailboxScope → Bool
  | .all => true
  | .only mailboxIds => mailboxId ∈ mailboxIds

/-- A message that is not deleted and in a mailbox of the scope. -/
def MessageRow.liveIn (scope : MailboxScope) (m : MessageRow) : Bool :=
  m.deleted_at.isNone && mailboxInScope m.mailbox_id scope

/-! ### Message summaries -/

structure AccountAttachmentMeta where
  id : String
  filename : String
  mimeType : String
  size : Nat
  contentId : Option String
  disposition : Option String
  isInline : Bool

structure MessageOutboundJob where
  state : OutboundJobState
  failureClass : Option OutboundJobFailureClass
  failureDetail : Option String
  providerMessageId : Option String

structure InboundSummaryFields where
  envelopeFrom : String
  envelopeTo : String
  parsedDate : Option Instant
  forwardOutcome : ForwardOutcome
  forwardDestination : Option String

/-- The part of a summary that depends on the direction. -/
inductive SummaryDirection where
  | inbound (fields : InboundSummaryFields)
  | outbound (job : MessageOutboundJob)

structure MessageSummary where
  id : String
  threadId : String
  parentMessageId : Option String
  mailboxId : String
  subject : Option String
  occurredAt : Instant
  participants : StoredParticipants
  hasRemoteImages : Bool
  rfcMessageId : Option NormalizedRfcMessageId
  inReplyToRfcMessageId : Option NormalizedRfcMessageId
  references : List NormalizedRfcMessageId
  attachments : List AccountAttachmentMeta
  isRead : Bool
  readAt : Option Instant
  createdAt : Instant
  updatedAt : Option Instant
  direction : SummaryDirection

structure MessageBody where
  id : String
  mailboxId : String
  textBody : Option String
  htmlBody : Option String
  hasRemoteImages : Bool

/-- The `parent_message_id` of `MESSAGE_SUMMARY_SELECT`: the oldest other
    message whose Message-ID the message replies to. -/
def parentMessageId (s : Store) (m : MessageRow) : Option String :=
  m.in_reply_to_rfc_message_id.bind fun value =>
    (((s.messages.select fun p => p.rfc_message_id = some value && p.id ≠ m.id).insertionSort
      founderOrder).head?).map (·.id)

def toAttachmentMeta (a : AttachmentRow) : AccountAttachmentMeta where
  id := a.id
  filename := a.filename
  mimeType := a.mime_type
  size := a.size
  contentId := a.content_id
  disposition := a.disposition
  isInline := a.is_inline

/-- `loadAttachmentsByMessageIds` at one message, `ORDER BY position`. -/
def loadAttachments (s : Store) (messageId : String) : List AccountAttachmentMeta :=
  ((s.attachments.select (·.message_id = messageId)).insertionSort
    fun a b => a.position ≤ b.position).map toAttachmentMeta

/-- `loadOutboundJobsByMessageIds` at one message; the last row wins. -/
def loadOutboundJob (s : Store) (messageId : String) : Option MessageOutboundJob :=
  ((s.jobs.select fun j => j.message_id = messageId && j.purpose = .message).getLast?).map
    fun j => {
      state := j.state
      failureClass := j.failure_class
      failureDetail := j.failure_detail
      providerMessageId := j.provider_message_id }

/-- The direction-specific part of `enrichMessageSummaries`. -/
def summaryDirection (s : Store) (m : MessageRow) : Except StoreError SummaryDirection :=
  match m.direction with
  | .inbound =>
    match s.receipts.find? (·.id = m.id) with
    | none => .error (.receiptMissing m.id)
    | some receipt => .ok (.inbound {
        envelopeFrom := receipt.envelope_from
        envelopeTo := receipt.envelope_to
        parsedDate := m.parsed_date
        forwardOutcome := receipt.forward_outcome
        forwardDestination := receipt.forward_destination })
  | .outbound =>
    match loadOutboundJob s m.id with
    | none => .error (.jobMissing m.id)
    | some job => .ok (.outbound job)

/-- `enrichMessageSummaries` of one row. -/
def enrichMessageSummary (s : Store) (m : MessageRow) : Except StoreError MessageSummary := do
  let direction ← summaryDirection s m
  return {
    id := m.id
    threadId := m.thread_id
    parentMessageId := parentMessageId s m
    mailboxId := m.mailbox_id
    subject := m.subject
    occurredAt := m.occurred_at
    participants := loadParticipants s m.id
    hasRemoteImages := m.has_remote_images
    rfcMessageId := m.rfc_message_id
    inReplyToRfcMessageId := m.in_reply_to_rfc_message_id
    references := loadReferences s m.id
    attachments := loadAttachments s m.id
    isRead := m.is_read
    readAt := m.read_at
    createdAt := m.created_at
    updatedAt := m.updated_at
    direction }

def getMessageSummary (s : Store) (messageId : String) (scope : MailboxScope) :
    Except StoreError (Option MessageSummary) :=
  match s.messages.find? fun m => m.id = messageId && m.deleted_at.isNone with
  | none => .ok none
  | some m =>
    if mailboxInScope m.mailbox_id scope then (enrichMessageSummary s m).map some
    else .ok none

def getMessageBody (s : Store) (messageId : String) (scope : MailboxScope) :
    Option MessageBody :=
  match s.messages.find? (·.id = messageId) with
  | none => none
  | some m =>
    if m.liveIn scope then
      some {
        id := m.id
        mailboxId := m.mailbox_id
        textBody := m.text_body
        htmlBody := m.html_body
        hasRemoteImages := m.has_remote_images }
    else none

/-! ### Threads -/

/-- Resolves any message id (live or deleted) to its current thread, if that
    thread still has a live message in scope. -/
def resolveThread (s : Store) (handle : String) (scope : MailboxScope) :
    Except StoreError String :=
  match s.messages.find? fun m =>
      m.id = handle && s.messages.rows.any fun live =>
        live.thread_id = m.thread_id && live.liveIn scope with
  | none => .error (.threadNotFound handle)
  | some m => .ok m.thread_id

/-- The write of `markThreadRead`. -/
def markLiveRead (s : Store) (threadId : String) (isRead : Bool) (scope : MailboxScope)
    (nowIso : Instant) : Store :=
  { s with
    messages := s.messages.update
      (fun m => m.thread_id = threadId && m.liveIn scope && m.direction = .inbound)
      (fun m => { m with
        is_read := isRead
        read_at := if isRead then some nowIso else none
        updated_at := some nowIso }) fun _ => rfl }

def markThreadRead (s : Store) (handle : String) (isRead : Bool) (scope : MailboxScope)
    (nowIso : Instant) : Except StoreError Store := do
  let threadId ← resolveThread s handle scope
  return markLiveRead s threadId isRead scope nowIso

/-- The messages `softDeleteThread` deletes. -/
def liveInThread (threadId : String) (scope : MailboxScope) (m : MessageRow) : Bool :=
  m.thread_id = threadId && m.liveIn scope

/-- The ids of the messages `softDeleteThread` deletes. -/
def deletedIds (s : Store) (threadId : String) (scope : MailboxScope) : List String :=
  (s.messages.select (liveInThread threadId scope)).map (·.id)

/-- The writes of `softDeleteThread`. -/
def deleteLive (s : Store) (threadId : String) (scope : MailboxScope) (deletedAt : Instant) :
    Store :=
  let s₁ := rejectUndispatched s (deletedIds s threadId scope)
    { failureClass := .cancelled, failureDetail := none } deletedAt
  { s₁ with
    messages := s₁.messages.update (liveInThread threadId scope)
      (fun m => { m with deleted_at := some deletedAt }) fun _ => rfl }

def softDeleteThread (s : Store) (handle : String) (scope : MailboxScope)
    (deletedAt : Instant) : Except StoreError Store := do
  let threadId ← resolveThread s handle scope
  return deleteLive s threadId scope deletedAt

end Umail
