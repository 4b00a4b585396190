import Umail.Contract.MessageThreading
import Umail.Contract.Policy
import Umail.Framework.Table

/-! # Rows of the account store

  `apps/server/src/account/domain.ts` and the tables of `migrations.ts`: the
  enumerations, the row types with the uniqueness constraints of their
  tables, and the store they make up.

  Timestamps are canonical ISO instants; they are kept as epoch
  milliseconds, whose order is the text order of the stored strings.
-/

namespace Umail

open Relational

/-- An instant, in epoch milliseconds. -/
abbrev Instant := Nat

/-! ### Enumerations -/

inductive MessageDirection where
  | inbound
  | outbound
  deriving DecidableEq

inductive OutboundJobState where
  | waiting_approval
  | ready
  | in_flight
  | accepted
  | rejected
  | unknown
  deriving DecidableEq

inductive OutboundJobPurpose where
  | message
  | approval_notification
  deriving DecidableEq

inductive OutboundJobFailureClass where
  | denied
  | expired
  | cancelled
  | notification_failed
  | policy
  | provider
  deriving DecidableEq

inductive ApprovalState where
  | pending
  | approved
  | denied
  | expired
  | cancelled
  deriving DecidableEq

inductive OutboundRequesterKind where
  | operator
  | mcp
  deriving DecidableEq

inductive ForwardOutcome where
  | none
  | unknown
  | success
  | failure
  deriving DecidableEq

inductive ReceiptWorkState where
  | ready
  | indexed
  | policy_failed
  deriving DecidableEq

inductive ReceiptPolicyError where
  | attachment_cap
  | message_budget
  | mime_budget
  | parse_failed
  | rfc822_depth
  deriving DecidableEq

inductive RoutingState where
  | pending
  | ready
  | error
  deriving DecidableEq

inductive ParticipantRole where
  | «from»
  | reply_to
  | «to»
  | cc
  deriving DecidableEq

/-- The mailboxes a reader may see. -/
inductive MailboxScope where
  | all
  | only (mailboxIds : List String)

/-! ### Messages -/

structure MessageRow where
  id : String
  thread_id : String
  mailbox_id : String
  direction : MessageDirection
  rfc_message_id : Option NormalizedRfcMessageId
  in_reply_to_rfc_message_id : Option NormalizedRfcMessageId
  occurred_at : Instant
  parsed_date : Option Instant
  created_at : Instant
  is_read : Bool
  deleted_at : Option Instant
  subject : Option String
  text_body : Option String
  html_body : Option String
  has_remote_images : Bool
  read_at : Option Instant
  updated_at : Option Instant

instance : Keyed MessageRow String := .primary MessageRow.id

structure ReferenceRow where
  message_id : String
  position : Nat
  rfc_message_id : NormalizedRfcMessageId

instance : Keyed ReferenceRow (String × Nat) := .primary fun r => (r.message_id, r.position)

structure AttachmentRow where
  id : String
  message_id : String
  position : Nat
  filename : String
  mime_type : String
  size : Nat
  r2_key : String
  content_id : Option String
  disposition : Option String
  is_inline : Bool
  created_at : Instant

/-- `id`, `r2_key` and `(message_id, position)` are unique. -/
instance : Keyed AttachmentRow (String × String × String × Nat) where
  key a := (a.id, a.r2_key, a.message_id, a.position)
  clash a b := a.1 = b.1 ∨ a.2.1 = b.2.1 ∨ a.2.2 = b.2.2
  symm h := h.imp Eq.symm (Or.imp Eq.symm Eq.symm)
  decClash _ _ := inferInstance

/-! ### Inbound receipts -/

structure InboundReceiptRow where
  id : String
  envelope_from : String
  envelope_to : String
  raw_key : String
  received_at : Instant
  forward_outcome : ForwardOutcome
  forward_destination : Option String
  work_state : ReceiptWorkState
  policy_error : Option ReceiptPolicyError
  retry_after : Instant

instance : Keyed InboundReceiptRow String := .primary InboundReceiptRow.id

/-! ### Outbound jobs and approvals -/

structure OutboundJobRow where
  id : String
  requester_kind : OutboundRequesterKind
  requester_client_id : String
  requester_label : String
  idempotency_key : String
  intent_fingerprint : String
  message_id : String
  mailbox_id : String
  purpose : OutboundJobPurpose
  state : OutboundJobState
  attempt_id : Option String
  attempt_claimed_at : Option Instant
  claim_expires_at : Option Instant
  provider_message_id : Option String
  rfc_message_id : Option NormalizedRfcMessageId
  failure_class : Option OutboundJobFailureClass
  failure_detail : Option String
  created_at : Instant
  updated_at : Instant

/-- The columns a submit is idempotent over. -/
def OutboundJobRow.requestKey (j : OutboundJobRow) : OutboundRequesterKind × String × String :=
  (j.requester_kind, j.requester_client_id, j.idempotency_key)

/-- `id` and `(requester_kind, requester_client_id, idempotency_key)` are unique. -/
instance : Keyed OutboundJobRow (String × OutboundRequesterKind × String × String) where
  key j := (j.id, j.requestKey)
  clash a b := a.1 = b.1 ∨ a.2 = b.2
  symm h := h.imp Eq.symm Eq.symm
  decClash _ _ := inferInstance

structure ApprovalRequestRow where
  id : String
  job_id : String
  notification_job_id : String
  token_hash : String
  state : ApprovalState
  requester_client_id : String
  requester_label : String
  created_at : Instant
  resolved_at : Option Instant
  expires_at : Instant

/-- `id`, `job_id`, `notification_job_id` and `token_hash` are unique. -/
instance : Keyed ApprovalRequestRow (String × String × String × String) where
  key a := (a.id, a.job_id, a.notification_job_id, a.token_hash)
  clash a b := a.1 = b.1 ∨ a.2.1 = b.2.1 ∨ a.2.2.1 = b.2.2.1 ∨ a.2.2.2 = b.2.2.2
  symm h := h.imp Eq.symm (Or.imp Eq.symm (Or.imp Eq.symm Eq.symm))
  decClash _ _ := inferInstance

/-! ### Mailbox routes -/

structure MailboxRouteRow where
  mailbox_id : String
  zone_id : Option String
  rule_id : Option String
  state : RoutingState
  error : Option String
  attempts : Nat
  retry_after : Option Instant

instance : Keyed MailboxRouteRow String := .primary MailboxRouteRow.mailbox_id

section addresses
variable [Unicode]

/-! ### Participants and addresses -/

structure AccountMailContact where
  address : ExternalMailAddress
  displayName : Option String
  deriving DecidableEq

structure ParticipantRow where
  id : String
  message_id : String
  role : ParticipantRole
  position : Nat
  address : ExternalMailAddress
  display_name : Option String

/-- `id` and `(message_id, role, position)` are unique. -/
instance : Keyed ParticipantRow (String × String × ParticipantRole × Nat) where
  key p := (p.id, p.message_id, p.role, p.position)
  clash a b := a.1 = b.1 ∨ a.2 = b.2
  symm h := h.imp Eq.symm Eq.symm
  decClash _ _ := inferInstance

structure AddressRow where
  id : String
  local_part : String
  address : MailboxAddress
  display_name : Option String
  active : Bool
  forward_to : Option String
  created_at : Instant
  updated_at : Instant
  retired_at : Option Instant
  send_enabled : Bool

/-- `id` and `address` are unique. -/
instance : Keyed AddressRow (String × MailboxAddress) where
  key a := (a.id, a.address)
  clash a b := a.1 = b.1 ∨ a.2 = b.2
  symm h := h.imp Eq.symm Eq.symm
  decClash _ _ := inferInstance

/-! ### The store -/

/-- The tables of one account store. -/
structure Store where
  messages : Table MessageRow
  references : Table ReferenceRow
  participants : Table ParticipantRow
  attachments : Table AttachmentRow
  receipts : Table InboundReceiptRow
  addresses : Table AddressRow
  routes : Table MailboxRouteRow
  jobs : Table OutboundJobRow
  approvals : Table ApprovalRequestRow

/-- The store right after the migrations. -/
def Store.empty : Store where
  messages := .empty
  references := .empty
  participants := .empty
  attachments := .empty
  receipts := .empty
  addresses := .empty
  routes := .empty
  jobs := .empty
  approvals := .empty

end addresses

end Umail
