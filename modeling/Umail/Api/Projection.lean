import Umail.Account.Listing
import Umail.Api.Operations
import Umail.Mail.Review

/-! # What the API shows

  `apps/server/src/api/projection.ts`: the fields of a message summary, a
  thread and a job that leave the server. A message with its bodies is
  projected for the review page as well.
-/

namespace Umail

variable [Unicode]

/-! ### Messages -/

/-- The fields of a message summary that do not depend on its direction. -/
structure MailMessageFields where
  id : String
  threadId : String
  parentMessageId : Option String
  addressId : String
  subject : Option String
  occurredAt : Instant
  «from» : List AccountMailContact
  replyTo : List AccountMailContact
  «to» : List AccountMailContact
  cc : List AccountMailContact
  hasRemoteImages : Bool
  rfcMessageId : Option NormalizedRfcMessageId
  inReplyToRfcMessageId : Option NormalizedRfcMessageId
  references : List NormalizedRfcMessageId
  attachments : List AccountAttachmentMeta
  createdAt : Instant
  updatedAt : Instant

inductive MailMessageSummary where
  | inbound (common : MailMessageFields) (fields : InboundSummaryFields) (isRead : Bool)
      (readAt : Option Instant)
  | outbound (common : MailMessageFields) (sendState : OutboundJobState)
      (sendError : Option String) (providerMessageId : Option String)

/-- `messageSummaryFields` of both directions. -/
def commonFields (summary : MessageSummary) : MailMessageFields where
  id := summary.id
  threadId := summary.threadId
  parentMessageId := summary.parentMessageId
  addressId := summary.mailboxId
  subject := summary.subject
  occurredAt := summary.occurredAt
  «from» := summary.participants.from
  replyTo := summary.participants.replyTo
  «to» := summary.participants.to
  cc := summary.participants.cc
  hasRemoteImages := summary.hasRemoteImages
  rfcMessageId := summary.rfcMessageId
  inReplyToRfcMessageId := summary.inReplyToRfcMessageId
  references := summary.references
  attachments := summary.attachments
  createdAt := summary.createdAt
  updatedAt := summary.updatedAt.getD summary.createdAt

def projectMessageSummary (summary : MessageSummary) : MailMessageSummary :=
  match summary.direction with
  | .inbound fields => .inbound (commonFields summary) fields summary.isRead summary.readAt
  | .outbound job =>
    .outbound (commonFields summary) job.state (sendError job.failureClass job.failureDetail)
      job.providerMessageId

/-! ### Threads -/

inductive ThreadPartySource where
  | participant
  | envelope

structure ThreadParty where
  source : ThreadPartySource
  address : String
  displayName : Option String

structure MailThreadSummary where
  threadId : String
  subject : Option String
  latestSender : ThreadParty
  latestRecipients : List ThreadParty
  unreadCount : Nat
  messageCount : Nat
  involvedMailboxIdentities : List AccountSendingIdentity
  lastActivityAt : Instant

def UNKNOWN_EXTERNAL : String := "unknown@invalid"

def projectParticipantParty (contact : AccountMailContact) : ThreadParty where
  source := .participant
  address := contact.address.val
  displayName := contact.displayName

def projectLatestSender : Option AccountMailContact → ThreadParty
  | some contact => projectParticipantParty contact
  | none => { source := .envelope, address := UNKNOWN_EXTERNAL, displayName := none }

def projectThreadSummary (summary : ThreadSummary) : MailThreadSummary where
  threadId := summary.threadId
  subject := summary.subject
  latestSender := projectLatestSender summary.latestSender
  latestRecipients := summary.latestRecipients.map projectParticipantParty
  unreadCount := summary.unreadCount
  messageCount := summary.messageCount
  involvedMailboxIdentities := summary.involvedMailboxIdentities
  lastActivityAt := summary.lastActivityAt

/-! ### Jobs -/

structure OutboundJobStatus where
  jobId : String
  requestId : String
  messageId : String
  threadId : String
  state : OutboundJobState
  purpose : OutboundJobPurpose
  attemptId : Option String
  providerMessageId : Option String
  rfcMessageId : Option NormalizedRfcMessageId
  failureClass : Option OutboundJobFailureClass
  failureDetail : Option String
  createdAt : Instant
  updatedAt : Instant

def projectJobStatus (job : OutboundJob) : OutboundJobStatus where
  jobId := job.jobId
  requestId := job.requestId
  messageId := job.messageId
  threadId := job.threadId
  state := job.state
  purpose := job.purpose
  attemptId := job.attemptId
  providerMessageId := job.providerMessageId
  rfcMessageId := job.rfcMessageId
  failureClass := job.failureClass
  failureDetail := job.failureDetail
  createdAt := job.createdAt
  updatedAt := job.updatedAt

end Umail
