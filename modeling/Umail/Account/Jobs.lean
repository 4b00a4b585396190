import Umail.Account.Administration

/-! # Outbound jobs and approvals

  `apps/server/src/account/jobs.ts`: submitting a message, deciding its
  approval, claiming and completing a send attempt, and the passes that
  settle what was left behind.
-/

namespace Umail

open Relational

variable [Unicode]

/-! ### Inputs and results -/

structure OutboundRequester where
  kind : OutboundRequesterKind
  clientId : String
  label : String

/-- `ApprovalCapabilityWrite` -/
structure ApprovalCapabilityWrite where
  approvalId : String
  tokenHash : String
  expiresAt : Instant

/-- `SubmitOutboundInput`; `to` is a non-empty array. -/
structure SubmitOutboundInput where
  requestId : String
  intentFingerprint : String
  requester : OutboundRequester
  policy : PrincipalPolicy
  mailboxId : String
  subject : String
  textBody : Option String
  htmlBody : Option String
  hasRemoteImages : Bool
  firstTo : AccountMailContact
  restTo : List AccountMailContact
  cc : List AccountMailContact
  inReplyToHeader : Option String
  referencesHeader : Option String
  nowIso : Instant
  approval : ApprovalCapabilityWrite

structure NewSubmissionIds where
  messageId : String
  jobId : String
  notificationJobId : String

structure OutboundJob where
  jobId : String
  requestId : String
  requester : OutboundRequester
  messageId : String
  threadId : String
  mailboxId : String
  purpose : OutboundJobPurpose
  state : OutboundJobState
  attemptId : Option String
  providerMessageId : Option String
  rfcMessageId : Option NormalizedRfcMessageId
  failureClass : Option OutboundJobFailureClass
  failureDetail : Option String
  createdAt : Instant
  updatedAt : Instant

structure SubmitOutboundResult where
  job : OutboundJob
  created : Bool
  approval : Option ApprovalRequestRow

/-- `approved` or `denied`. -/
inductive Decision where
  | approved
  | denied
  deriving DecidableEq

def Decision.state : Decision → ApprovalState
  | .approved => .approved
  | .denied => .denied

structure DecideApprovalInput where
  tokenHash : String
  decision : Decision
  nowIso : Instant

inductive ApprovalLookupResult where
  | found (approval : ApprovalRequestRow) (job : OutboundJob)
  | missing

inductive ApprovalDecisionResult where
  | claimed (state : Decision) (job : OutboundJob)
  | resolved (state : ApprovalState) (job : Option OutboundJob) (expiresAt : Instant)
  | unavailable
  | missing

structure ClaimJobInput where
  jobId : String
  attemptId : String
  nowIso : Instant
  claimExpiresAt : Instant
  policy : Option PrincipalPolicy

inductive ClaimJobResult where
  | claimed (attemptId : String) (job : OutboundJob)
  | not_claimable (job : OutboundJob)
  | rejected (job : OutboundJob)
  | missing

inductive CompleteAttemptOutcome where
  | accepted (providerMessageId : String) (rfcMessageId : Option NormalizedRfcMessageId)
  | rejected (failureDetail : String)
  | unknown (failureDetail : Option String)

structure CompleteAttemptInput where
  jobId : String
  attemptId : String
  nowIso : Instant
  outcome : CompleteAttemptOutcome

inductive CompleteAttemptResult where
  | applied (job : OutboundJob)
  | stale (job : OutboundJob)
  | missing

/-! ### Reading jobs and approvals -/

/-- A job with the thread of its message, as `JOB_SELECT` joins them. -/
structure JoinedJob where
  row : OutboundJobRow
  thread_id : String

/-- `FROM outbound_jobs j JOIN messages m ON m.id = j.message_id WHERE ..` -/
def readJobWhere (s : Store) (p : OutboundJobRow → Bool) : Option JoinedJob :=
  s.jobs.rows.findSome? fun j =>
    if p j then
      (s.messages.find? (·.id = j.message_id)).map fun m => { row := j, thread_id := m.thread_id }
    else none

def readJob (s : Store) (jobId : String) : Option JoinedJob :=
  readJobWhere s (·.id = jobId)

def toOutboundJob (j : JoinedJob) : OutboundJob where
  jobId := j.row.id
  requestId := j.row.idempotency_key
  requester := {
    kind := j.row.requester_kind
    clientId := j.row.requester_client_id
    label := j.row.requester_label }
  messageId := j.row.message_id
  threadId := j.thread_id
  mailboxId := j.row.mailbox_id
  purpose := j.row.purpose
  state := j.row.state
  attemptId := j.row.attempt_id
  providerMessageId := j.row.provider_message_id
  rfcMessageId := j.row.rfc_message_id
  failureClass := j.row.failure_class
  failureDetail := j.row.failure_detail
  createdAt := j.row.created_at
  updatedAt := j.row.updated_at

def requireJob (s : Store) (jobId : String) : Except StoreError JoinedJob :=
  match readJob s jobId with
  | some job => .ok job
  | none => .error (.missing jobId)

/-- `readApproval(storage, "job_id", ..)` -/
def readApprovalByJob (s : Store) (jobId : String) : Option ApprovalRequestRow :=
  s.approvals.find? (·.job_id = jobId)

/-- `readApproval(storage, "token_hash", ..)` -/
def readApprovalByToken (s : Store) (tokenHash : String) : Option ApprovalRequestRow :=
  s.approvals.find? (·.token_hash = tokenHash)

def lookupApprovalByTokenHash (s : Store) (tokenHash : String) : ApprovalLookupResult :=
  match readApprovalByToken s tokenHash with
  | none => .missing
  | some approval =>
    match readJob s approval.job_id with
    | none => .missing
    | some job => .found approval (toOutboundJob job)

/-! ### Authorization -/

inductive OutboundAuthorization where
  | allow
  | require_approval
  | denied (reason : JobAuthorizationReason) (addresses : List String)
  deriving DecidableEq

def mailboxInPolicy (mailboxIds : PrincipalMailboxIds) (mailboxId : String) : Bool :=
  match mailboxIds with
  | .all => true
  | .only first rest => mailboxId ∈ first :: rest

/-- The recipients that `addresses` does not cover. -/
def recipientsOutside (addresses : List ExternalMailAddress)
    (recipients : List AccountMailContact) : List String :=
  (recipients.filter fun r => comparisonKey r.address ∉ addresses.map comparisonKey).map
    (·.address.val)

/-- The recipients outside the allowlist. -/
def recipientsNotAllowed (allowlist : PrincipalRecipientAllowlist)
    (recipients : List AccountMailContact) : List String :=
  match allowlist with
  | .any => []
  | .only first rest => recipientsOutside (first :: rest) recipients

def authorizeOutbound (policy : Option PrincipalPolicy) (mailboxId : String)
    (recipients : List AccountMailContact) : OutboundAuthorization :=
  match policy with
  | none => .denied .client_inactive []
  | some policy =>
    if !mailboxInPolicy policy.mailboxIds mailboxId then .denied .mailbox_forbidden []
    else
      match policy.sendMode with
      | .deny => .denied .send_denied []
      | .allow =>
        match recipientsNotAllowed policy.recipientAllowlist recipients with
        | [] => .allow
        | rejected => .denied .recipient_not_allowed rejected
      | .requireApproval preapproved =>
        match recipientsNotAllowed policy.recipientAllowlist recipients with
        | [] =>
          if (recipientsOutside preapproved recipients).isEmpty then .allow
          else .require_approval
        | rejected => .denied .recipient_not_allowed rejected

/-! ### Rejecting undispatched work -/

/-- The failure `rejectUndispatched` records. -/
structure RejectionFailure where
  failureClass : OutboundJobFailureClass
  failureDetail : Option String

/-- `state IN ('waiting_approval', 'ready')` -/
def OutboundJobRow.undispatched (j : OutboundJobRow) : Bool :=
  j.state = .waiting_approval || j.state = .ready

/-- The undispatched jobs of these messages. -/
def OutboundJobRow.rejectable (messageIds : List String) (j : OutboundJobRow) : Bool :=
  j.message_id ∈ messageIds && j.undispatched

/-- `SET state = 'rejected', failure_class = ?, failure_detail = ?, updated_at = ?` -/
def OutboundJobRow.reject (failure : RejectionFailure) (nowIso : Instant) (j : OutboundJobRow) :
    OutboundJobRow :=
  { j with
    state := .rejected
    failure_class := some failure.failureClass
    failure_detail := failure.failureDetail
    updated_at := nowIso }

/-- `SET state = ?, resolved_at = ?` -/
def ApprovalRequestRow.resolve (state : ApprovalState) (nowIso : Instant)
    (a : ApprovalRequestRow) : ApprovalRequestRow :=
  { a with state, resolved_at := some nowIso }

/-- Rejects every job of these messages that has not been sent, and cancels
    the approvals they wait on. Jobs already claimed or settled are left alone. -/
def rejectUndispatched (s : Store) (messageIds : List String) (failure : RejectionFailure)
    (nowIso : Instant) : Store :=
  let jobIds := (s.jobs.select (·.rejectable messageIds)).map (·.id)
  { s with
    approvals := s.approvals.update (fun a => a.state = .pending && a.job_id ∈ jobIds)
      (·.resolve .cancelled nowIso) fun _ => rfl
    jobs := s.jobs.update (·.rejectable messageIds) (·.reject failure nowIso) fun _ => rfl }

/-! ### Submitting -/

/-- `approvalNotificationIdempotencyKey` -/
def approvalNotificationIdempotencyKey (requestId : String) : String :=
  requestId ++ ":approval-notification"

/-- `dedupeAccountMailContacts` -/
def dedupeAccountMailContacts (contacts : List AccountMailContact) : List AccountMailContact :=
  keepFirst (fun c => comparisonKey c.address) [] contacts

/-- The row `insertJobRow` inserts. -/
def newJobRow (jobId : String) (input : SubmitOutboundInput) (idempotencyKey messageId : String)
    (mailboxId : String) (purpose : OutboundJobPurpose) (state : OutboundJobState) :
    OutboundJobRow where
  id := jobId
  requester_kind := input.requester.kind
  requester_client_id := input.requester.clientId
  requester_label := input.requester.label
  idempotency_key := idempotencyKey
  intent_fingerprint := input.intentFingerprint
  message_id := messageId
  mailbox_id := mailboxId
  purpose
  state
  attempt_id := none
  attempt_claimed_at := none
  claim_expires_at := none
  provider_message_id := none
  rfc_message_id := none
  failure_class := none
  failure_detail := none
  created_at := input.nowIso
  updated_at := input.nowIso

/-- The row `insertPendingApproval` inserts. -/
def newApprovalRow (input : SubmitOutboundInput) (ids : NewSubmissionIds) :
    ApprovalRequestRow where
  id := input.approval.approvalId
  job_id := ids.jobId
  notification_job_id := ids.notificationJobId
  token_hash := input.approval.tokenHash
  state := .pending
  requester_client_id := input.requester.clientId
  requester_label := input.requester.label
  created_at := input.nowIso
  resolved_at := none
  expires_at := input.approval.expiresAt

/-- The message a submit writes. -/
def submittedMail (input : SubmitOutboundInput) (ids : NewSubmissionIds)
    (identity : AccountSendingIdentity) (fromAddress : ExternalMailAddress) :
    AcceptOutboundInput :=
  let fromContact : AccountMailContact :=
    { address := fromAddress, displayName := identity.displayName }
  { messageId := ids.messageId
    mailboxId := identity.id
    rfcMessageId := none
    inReplyToHeader := input.inReplyToHeader
    referencesHeader := input.referencesHeader
    occurredAt := input.nowIso
    nowIso := input.nowIso
    subject := some input.subject
    textBody := input.textBody
    htmlBody := input.htmlBody
    hasRemoteImages := input.hasRemoteImages
    «from» := [fromContact]
    replyTo := [fromContact]
    «to» := dedupeAccountMailContacts (input.firstTo :: input.restTo)
    cc := dedupeAccountMailContacts input.cc
    attachments := [] }

/-- The recipients a submit is authorized for. -/
def submitRecipients (input : SubmitOutboundInput) : List AccountMailContact :=
  dedupeAccountMailContacts (input.firstTo :: input.restTo) ++ dedupeAccountMailContacts input.cc

/-- The rows a submit adds once the sender and the recipients are authorized. -/
def insertSubmission (s : Store) (input : SubmitOutboundInput) (ids : NewSubmissionIds)
    (identity : AccountSendingIdentity) (fromAddress : ExternalMailAddress)
    (needsApproval : Bool) : Except StoreError Store := do
  let (_, s₁) ← writeThreadedMail s (.outbound (submittedMail input ids identity fromAddress))
  let jobs ← inserted (s₁.jobs.insert? (newJobRow ids.jobId input input.requestId ids.messageId
    identity.id .message (if needsApproval then .waiting_approval else .ready)))
  if needsApproval then
    let jobs ← inserted (jobs.insert? (newJobRow ids.notificationJobId input
      (approvalNotificationIdempotencyKey input.requestId) ids.messageId identity.id
      .approval_notification .ready))
    let approvals ← inserted (s₁.approvals.insert? (newApprovalRow input ids))
    return { s₁ with jobs, approvals }
  else return { s₁ with jobs }

/-- The sender of a submit: a mailbox that may send, at a valid address. -/
def submitSender (s : Store) (input : SubmitOutboundInput) :
    Option (AccountSendingIdentity × ExternalMailAddress) :=
  match resolveSendingIdentity s input.mailboxId with
  | none => none
  | some identity =>
    (parseExternalMailAddress identity.address.val).map fun parsed => (identity, parsed.address)

def submitOutbound (s : Store) (input : SubmitOutboundInput) (ids : NewSubmissionIds) :
    Except StoreError (SubmitOutboundResult × Store) :=
  match submitSender s input with
  | none => .error (.jobAuthorization .mailbox_forbidden [])
  | some (identity, fromAddress) =>
    match authorizeOutbound (some input.policy) identity.id (submitRecipients input) with
    | .denied reason addresses => .error (.jobAuthorization reason addresses)
    | authorization =>
      match readJobWhere s fun j =>
          j.requestKey = (input.requester.kind, input.requester.clientId, input.requestId) with
      | some existing =>
        if existing.row.intent_fingerprint ≠ input.intentFingerprint then
          .error (.submissionConflict input.requestId input.requester.clientId)
        else
          .ok ({ job := toOutboundJob existing
                 created := false
                 approval := readApprovalByJob s existing.row.id }, s)
      | none => do
        let s₁ ← insertSubmission s input ids identity fromAddress
          (decide (authorization = .require_approval))
        let job ← requireJob s₁ ids.jobId
        return ({ job := toOutboundJob job
                  created := true
                  approval := readApprovalByJob s₁ ids.jobId }, s₁)

/-! ### Deciding -/

/-- `UPDATE approval_requests SET state = ?, resolved_at = ? WHERE id = ? AND state = 'pending'` -/
def resolveApproval (s : Store) (approvalId : String) (state : ApprovalState)
    (nowIso : Instant) : Store :=
  { s with
    approvals := s.approvals.update (fun a => a.id = approvalId && a.state = .pending)
      (·.resolve state nowIso) fun _ => rfl }

/-- `UPDATE outbound_jobs SET state = 'ready' .. WHERE id = ? AND state = 'waiting_approval'` -/
def readyApprovedJob (s : Store) (jobId : String) (nowIso : Instant) : Store :=
  { s with
    jobs := s.jobs.update (fun j => j.id = jobId && j.state = .waiting_approval)
      (fun j => { j with state := .ready, updated_at := nowIso }) fun _ => rfl }

/-- `resolvedDecision` of an approval that is no longer pending. -/
def resolvedDecision (s : Store) (approval : ApprovalRequestRow) : ApprovalDecisionResult :=
  .resolved approval.state ((readJob s approval.job_id).map toOutboundJob) approval.expires_at

/-- The writes of a decision on a pending approval whose job waits for it. -/
def applyDecision (s : Store) (approval : ApprovalRequestRow) (messageId : String)
    (decision : Decision) (nowIso : Instant) : Store :=
  let s₁ := resolveApproval s approval.id decision.state nowIso
  match decision with
  | .approved => readyApprovedJob s₁ approval.job_id nowIso
  | .denied =>
    rejectUndispatched s₁ [messageId] { failureClass := .denied, failureDetail := none } nowIso

def decideApproval (s : Store) (input : DecideApprovalInput) :
    Except StoreError (ApprovalDecisionResult × Store) :=
  match readApprovalByToken s input.tokenHash with
  | none => .ok (.missing, s)
  | some approval =>
    if approval.state ≠ .pending then .ok (resolvedDecision s approval, s)
    else
      match readJob s approval.job_id with
      | none => .ok (.unavailable, s)
      | some job =>
        -- a due approval can no longer be decided
        if approval.expires_at ≤ input.nowIso || job.row.state ≠ .waiting_approval then
          .ok (.unavailable, s)
        else do
          let s₁ := applyDecision s approval job.row.message_id input.decision input.nowIso
          let job ← requireJob s₁ approval.job_id
          return (.claimed input.decision (toOutboundJob job), s₁)

/-! ### Claiming -/

/-- Why a claim is refused. -/
inductive ClaimRejection where
  | authorization (reason : JobAuthorizationReason)
  | mailbox_inactive
  | approval_required
  deriving DecidableEq

def ClaimRejection.text : ClaimRejection → String
  | .authorization .send_denied => "send_denied"
  | .authorization .recipient_not_allowed => "recipient_not_allowed"
  | .authorization .mailbox_forbidden => "mailbox_forbidden"
  | .authorization .client_inactive => "client_inactive"
  | .mailbox_inactive => "mailbox_inactive"
  | .approval_required => "approval_required"

/-- The recipients a stored message is claimed for. -/
def storedRecipients (s : Store) (messageId : String) : List AccountMailContact :=
  let participants := loadParticipants s messageId
  participants.to ++ participants.cc

/-- Rechecks the mailbox and the requester's current policy; the job may have
    waited for approval since submit. -/
def claimRejection (s : Store) (job : OutboundJobRow) (policy : Option PrincipalPolicy) :
    Option ClaimRejection :=
  match resolveSendingIdentity s job.mailbox_id with
  | none => some .mailbox_inactive
  | some _ =>
    match authorizeOutbound policy job.mailbox_id (storedRecipients s job.message_id) with
    | .denied reason _ => some (.authorization reason)
    | .allow => none
    | .require_approval =>
      -- an approval notification needs no approval itself
      if job.purpose = .message && (readApprovalByJob s job.id).map (·.state) ≠ some .approved
      then some .approval_required
      else none

/-- The write of a claim. -/
def claimReadyJob (s : Store) (input : ClaimJobInput) : Store :=
  { s with
    jobs := s.jobs.update (fun j => j.id = input.jobId && j.state = .ready)
      (fun j => { j with
        state := .in_flight
        attempt_id := some input.attemptId
        attempt_claimed_at := some input.nowIso
        claim_expires_at := some input.claimExpiresAt
        updated_at := input.nowIso }) fun _ => rfl }

/-- The `state = 'ready'` guard makes a send at-most-once: only the claim moves
    a job out of `ready`. -/
def claimJob (s : Store) (input : ClaimJobInput) :
    Except StoreError (ClaimJobResult × Store) :=
  match readJob s input.jobId with
  | none => .ok (.missing, s)
  | some current =>
    if current.row.state ≠ .ready then .ok (.not_claimable (toOutboundJob current), s)
    else
      match claimRejection s current.row input.policy with
      | some rejection => do
        let s₁ := rejectUndispatched s [current.row.message_id]
          { failureClass := .policy, failureDetail := some rejection.text } input.nowIso
        let job ← requireJob s₁ current.row.id
        return (.rejected (toOutboundJob job), s₁)
      | none => do
        let s₁ := claimReadyJob s input
        let job ← requireJob s₁ current.row.id
        return (.claimed input.attemptId (toOutboundJob job), s₁)

/-! ### Completing -/

/-- The columns each outcome assigns. -/
def CompleteAttemptInput.settle (input : CompleteAttemptInput) (j : OutboundJobRow) :
    OutboundJobRow :=
  match input.outcome with
  | .accepted providerMessageId rfcMessageId =>
    { j with
      state := .accepted
      provider_message_id := some providerMessageId
      rfc_message_id := rfcMessageId
      updated_at := input.nowIso }
  | .rejected failureDetail =>
    { j with
      state := .rejected
      failure_class := some .provider
      failure_detail := some failureDetail
      updated_at := input.nowIso }
  | .unknown failureDetail =>
    { j with
      state := .unknown
      failure_detail := failureDetail
      updated_at := input.nowIso }

/-- `state = 'in_flight' AND attempt_id = ?` of the job of the attempt. -/
def CompleteAttemptInput.claims (input : CompleteAttemptInput) (j : OutboundJobRow) : Bool :=
  j.id = input.jobId && j.state = .in_flight && j.attempt_id = some input.attemptId

/-- `UPDATE outbound_jobs SET .. WHERE id = ? AND state = 'in_flight' AND attempt_id = ?` -/
def settleAttempt (s : Store) (input : CompleteAttemptInput) : Store :=
  { s with
    jobs := s.jobs.update input.claims input.settle fun j => by
      unfold CompleteAttemptInput.settle
      cases input.outcome <;> rfl }

/-- `UPDATE messages SET rfc_message_id = ? .. WHERE id = ? AND rfc_message_id IS NULL` -/
def assignRfcMessageId (s : Store) (messageId : String) (rfcMessageId : NormalizedRfcMessageId)
    (nowIso : Instant) : Store :=
  { s with
    messages := s.messages.update (fun m => m.id = messageId && m.rfc_message_id.isNone)
      (fun m => { m with rfc_message_id := some rfcMessageId, updated_at := some nowIso })
      fun _ => rfl }

/-- The store after the outcome of the claimed attempt is recorded. -/
def recordOutcome (s : Store) (job : OutboundJobRow) (input : CompleteAttemptInput) :
    Except StoreError Store :=
  let s₁ := settleAttempt s input
  match input.outcome, job.purpose with
  | .accepted _ (some rfcMessageId), .message =>
    (linkThread (assignRfcMessageId s₁ job.message_id rfcMessageId input.nowIso)
      job.message_id).map (·.2)
  | .rejected failureDetail, .approval_notification =>
    -- without its notification nobody can decide the approval
    .ok (rejectUndispatched s₁ [job.message_id]
      { failureClass := .notification_failed, failureDetail := some failureDetail }
      input.nowIso)
  | _, _ => .ok s₁

def completeAttempt (s : Store) (input : CompleteAttemptInput) :
    Except StoreError (CompleteAttemptResult × Store) :=
  match readJob s input.jobId with
  | none => .ok (.missing, s)
  | some current =>
    if current.row.attempt_id ≠ some input.attemptId then .ok (.stale (toOutboundJob current), s)
    else if current.row.state ≠ .in_flight then .ok (.applied (toOutboundJob current), s)
    else do
      let s₁ ← recordOutcome s current.row input
      let job ← requireJob s₁ current.row.id
      return (.applied (toOutboundJob job), s₁)

/-! ### Dispatch reads -/

/-- What `readDispatch` returns. -/
structure OutboundDispatch where
  job : OutboundJob
  subject : String
  textBody : Option String
  htmlBody : Option String
  «from» : Option AccountMailContact
  replyTo : Option AccountMailContact
  «to» : List AccountMailContact
  cc : List AccountMailContact
  inReplyToHeader : Option String
  referencesHeader : Option String
  approval : Option (String × Instant)

def joinStoredReferences (ids : List NormalizedRfcMessageId) : Option String :=
  if ids.isEmpty then none else some (joinRfcMessageIds ids)

/-- The id and expiry of the pending approval a notification announces. -/
def readPendingNotificationApproval (s : Store) (notificationJobId : String) :
    Option (String × Instant) :=
  (s.approvals.find? fun a => a.notification_job_id = notificationJobId && a.state = .pending).map
    fun a => (a.id, a.expires_at)

def readDispatch (s : Store) (jobId : String) : Except StoreError (Option OutboundDispatch) :=
  match readJob s jobId with
  | none => .ok none
  | some current =>
    match s.messages.find? (·.id = current.row.message_id) with
    | none => .error (.missing jobId)
    | some content =>
      let participants := loadParticipants s current.row.message_id
      .ok (some {
        job := toOutboundJob current
        subject := content.subject.getD ""
        textBody := content.text_body
        htmlBody := content.html_body
        «from» := participants.from.head?
        replyTo := participants.replyTo.head?
        «to» := participants.to
        cc := participants.cc
        inReplyToHeader := content.in_reply_to_rfc_message_id.map (·.val)
        referencesHeader := joinStoredReferences (loadReferences s current.row.message_id)
        approval := readPendingNotificationApproval s current.row.id })

/-! ### Due work -/

/-- `ORDER BY created_at, id` -/
def readyOrder (a b : OutboundJobRow) : Prop :=
  a.created_at < b.created_at ∨ (a.created_at = b.created_at ∧ a.id ≤ b.id)

instance : DecidableRel readyOrder := fun _ _ => inferInstanceAs (Decidable (_ ∨ _))

/-- The oldest ready jobs, for the store's due-work pass to send. -/
def readyJobIds (s : Store) (limit : Nat) : List String :=
  (((s.jobs.select (·.state = .ready)).insertionSort readyOrder).take limit).map (·.id)

/-- `state = 'pending' AND expires_at <= ?` -/
def ApprovalRequestRow.due (a : ApprovalRequestRow) (nowIso : Instant) : Bool :=
  a.state = .pending && a.expires_at ≤ nowIso

/-- The messages whose approvals are due. -/
def expiredMessageIds (s : Store) (nowIso : Instant) : List String :=
  (s.approvals.select (·.due nowIso)).flatMap fun a =>
    (s.jobs.select (·.id = a.job_id)).map (·.message_id)

/-- `UPDATE approval_requests SET state = 'expired' ..
    WHERE state = 'pending' AND expires_at <= ?` -/
def expireApprovals (s : Store) (nowIso : Instant) : Store :=
  { s with
    approvals := s.approvals.update (·.due nowIso) (·.resolve .expired nowIso) fun _ => rfl }

/-- Expires every due approval and rejects the work still waiting on it. -/
def expireDueApprovals (s : Store) (nowIso : Instant) : Store :=
  let expired := expiredMessageIds s nowIso
  rejectUndispatched (expireApprovals s nowIso) expired
    { failureClass := .expired, failureDetail := none } nowIso

/-- `state = 'in_flight' AND claim_expires_at <= ?` -/
def OutboundJobRow.abandoned (j : OutboundJobRow) (nowIso : Instant) : Bool :=
  j.state = .in_flight && (j.claim_expires_at.any (· ≤ nowIso))

/-- A claim that outlived its expiry may have gone out; it settles `unknown`
    and is never sent again. -/
def settleAbandonedClaims (s : Store) (nowIso : Instant) : Store :=
  { s with
    jobs := s.jobs.update (·.abandoned nowIso)
      (fun j => { j with state := .unknown, updated_at := nowIso }) fun _ => rfl }

end Umail
