import Umail.Account.Store

/-! # What a command can do

  One inversion lemma for each command that changes mail, jobs or approvals,
  and from them `exec_effect`: the store after any command is the store
  before it after one of a few effects, each with the guards under which it
  happens. Every invariant of the store is proved by cases on the effect.
-/

namespace Umail

open Relational

variable [Unicode]

/-! ### Transactions -/

theorem committedSnd_cases {α : Type} {s : Store} {r : Except StoreError (α × Store)} :
    committedSnd s r = s ∨ ∃ a s', r = .ok (a, s') ∧ committedSnd s r = s' := by
  match r with
  | .ok (a, s') => exact .inr ⟨a, s', rfl, rfl⟩
  | .error _ => exact .inl rfl

theorem committed_cases {s : Store} {r : Except StoreError Store} :
    committed s r = s ∨ ∃ s', r = .ok s' ∧ committed s r = s' := by
  match r with
  | .ok s' => exact .inr ⟨s', rfl, rfl⟩
  | .error _ => exact .inl rfl

/-- What holds of the store, and of every store the transaction can commit,
    holds of the committed one. -/
theorem committedSnd_of {α : Type} {P : Store → Prop} {s : Store}
    {r : Except StoreError (α × Store)} (hs : P s) (h : ∀ a s', r = .ok (a, s') → P s') :
    P (committedSnd s r) := by
  rcases committedSnd_cases (s := s) (r := r) with heq | ⟨a, s', hr, heq⟩
  · rw [heq]
    exact hs
  · rw [heq]
    exact h a s' hr

theorem committed_of {P : Store → Prop} {s : Store} {r : Except StoreError Store} (hs : P s)
    (h : ∀ s', r = .ok s' → P s') : P (committed s r) := by
  rcases committed_cases (s := s) (r := r) with heq | ⟨s', hr, heq⟩
  · rw [heq]
    exact hs
  · rw [heq]
    exact h s' hr

/-! ### Reading one row -/

/-- A message is found under its id. -/
theorem find_message {s : Store} {m : MessageRow} (hm : m ∈ s.messages) :
    s.messages.find? (·.id = m.id) = some m := by
  refine Table.find?_eq_some_of_mem (fun a b ha hb => ?_) hm (by simp)
  simp only [decide_eq_true_eq] at ha hb
  exact ha.trans hb.symm

theorem readJobWhere_some {s : Store} {p : OutboundJobRow → Bool} {j : JoinedJob}
    (h : readJobWhere s p = some j) :
    j.row ∈ s.jobs ∧ p j.row = true ∧
      ∃ m ∈ s.messages, m.id = j.row.message_id ∧ j.thread_id = m.thread_id := by
  obtain ⟨row, hrow, hj⟩ := List.exists_of_findSome?_eq_some h
  split at hj
  · obtain ⟨m, hm, rfl⟩ := Option.map_eq_some_iff.mp hj
    exact ⟨hrow, ‹_›, m, Table.find?_mem hm, by simpa using Table.find?_prop hm, rfl⟩
  · exact absurd hj (by simp)

theorem readJob_some {s : Store} {jobId : String} {j : JoinedJob} (h : readJob s jobId = some j) :
    j.row ∈ s.jobs ∧ j.row.id = jobId ∧
      ∃ m ∈ s.messages, m.id = j.row.message_id ∧ j.thread_id = m.thread_id := by
  obtain ⟨hrow, hid, hm⟩ := readJobWhere_some h
  exact ⟨hrow, by simpa using hid, hm⟩

/-- The job that is the only one with a property is read by it. -/
theorem readJobWhere_of_mem {s : Store} {p : OutboundJobRow → Bool} {j : OutboundJobRow}
    {m : MessageRow} (hj : j ∈ s.jobs) (hm : m ∈ s.messages) (hid : m.id = j.message_id)
    (hp : p j = true) (honly : ∀ k ∈ s.jobs, p k = true → k = j) :
    readJobWhere s p = some { row := j, thread_id := m.thread_id } := by
  cases hread : readJobWhere s p with
  | none =>
    have hnone := List.findSome?_eq_none_iff.mp hread j hj
    rw [if_pos hp, ← hid, find_message hm] at hnone
    exact absurd hnone (by simp)
  | some j' =>
    obtain ⟨hrow, hp', m', hm', hid', hthread⟩ := readJobWhere_some hread
    have hsame : j'.row = j := honly _ hrow hp'
    rw [hsame] at hid'
    obtain rfl := s.messages.eq_of_clash hm hm' (hid.trans hid'.symm)
    rw [← hsame, ← hthread]

/-- A job is read by its id. -/
theorem readJob_of_mem {s : Store} {j : OutboundJobRow} {m : MessageRow} (hj : j ∈ s.jobs)
    (hm : m ∈ s.messages) (hid : m.id = j.message_id) :
    readJob s j.id = some { row := j, thread_id := m.thread_id } :=
  readJobWhere_of_mem hj hm hid (by simp) fun _ hk hkid =>
    s.jobs.eq_of_clash hk hj (.inl (of_decide_eq_true hkid))

theorem readApprovalByJob_some {s : Store} {jobId : String} {a : ApprovalRequestRow}
    (h : readApprovalByJob s jobId = some a) : a ∈ s.approvals ∧ a.job_id = jobId :=
  ⟨Table.find?_mem h, by simpa using Table.find?_prop h⟩

theorem readApprovalByJob_of_mem {s : Store} {a : ApprovalRequestRow} (ha : a ∈ s.approvals) :
    readApprovalByJob s a.job_id = some a := by
  refine Table.find?_eq_some_of_mem (fun a b ha hb => ?_) ha (by simp)
  simp only [decide_eq_true_eq] at ha hb
  exact .inr (.inl (ha.trans hb.symm))

theorem requireJob_ok {s : Store} {jobId : String} {j : JoinedJob}
    (h : requireJob s jobId = .ok j) : readJob s jobId = some j := by
  unfold requireJob at h
  split at h
  · simp_all
  · exact absurd h (by simp)

/-! ### Messages -/

/-- The five tables a new message can touch. -/
structure Inserted (s : Store) (write : ThreadedMailWrite) (s' : Store) : Prop where
  fresh : s.messages.find? (·.id = write.input.messageId) = none
  messages : s.messages.insert? (newMessageRow write (normalizeThreadingHeaders
    write.input.rfcMessageId write.input.inReplyToHeader write.input.referencesHeader)) =
      some s'.messages
  references : s.references.insertAll? (newReferenceRows write.input.messageId
    (normalizeThreadingHeaders write.input.rfcMessageId write.input.inReplyToHeader
      write.input.referencesHeader).references) = some s'.references
  participants : s.participants.insertAll? (newMessageParticipants write.input) =
    some s'.participants
  attachments : s.attachments.insertAll? (newAttachmentRows write.input.messageId
    write.input.nowIso write.input.attachments) = some s'.attachments
  rest : s' = { s with
    messages := s'.messages
    references := s'.references
    participants := s'.participants
    attachments := s'.attachments }

theorem writeThreadedMail_ok {s s' : Store} {write : ThreadedMailWrite}
    {r : AcceptMessageResult} (h : writeThreadedMail s write = .ok (r, s')) :
    ∃ s₁ threadId, Inserted s write s₁ ∧
      linkThread s₁ write.input.messageId = .ok (threadId, s') ∧
      r = { messageId := write.input.messageId, threadId } := by
  unfold writeThreadedMail at h
  split at h
  · exact absurd h (by simp)
  · next hfresh =>
    obtain ⟨s₁, hinsert, h⟩ := bind_eq_ok.mp h
    obtain ⟨⟨threadId, s₂⟩, hlink, h⟩ := bind_eq_ok.mp h
    obtain ⟨rfl, rfl⟩ := ok_pair_inj h
    refine ⟨s₁, threadId, ?_, hlink, rfl⟩
    -- the message, then the rows that point to it
    obtain ⟨messages, hmessages, hinsert⟩ := bind_eq_ok.mp hinsert
    obtain ⟨references, hreferences, hinsert⟩ := bind_eq_ok.mp hinsert
    obtain ⟨participants, hparticipants, hinsert⟩ := bind_eq_ok.mp hinsert
    obtain ⟨attachments, hattachments, hinsert⟩ := bind_eq_ok.mp hinsert
    obtain rfl : { s with messages, references, participants, attachments } = s₁ := by
      simpa [pure, Except.pure] using hinsert
    exact ⟨hfresh, inserted_eq_ok.mp hmessages, inserted_eq_ok.mp hreferences,
      inserted_eq_ok.mp hparticipants, inserted_eq_ok.mp hattachments, rfl⟩

/-- Linking moves the threads of all founders but the oldest. -/
theorem linkThread_ok {s s' : Store} {messageId threadId : String}
    (h : linkThread s messageId = .ok (threadId, s')) :
    ∃ self ∈ s.messages, self.id = messageId ∧ ∃ survivor merged,
      linkedFounders s self = survivor :: merged ∧ threadId = survivor.id ∧
      s' = { s with messages := moveThreads s.messages survivor.id (merged.map (·.id)) } := by
  unfold linkThread at h
  split at h
  · exact absurd h (by simp)
  · next self hself =>
    refine ⟨self, Table.find?_mem hself, by simpa using Table.find?_prop hself, ?_⟩
    -- the founders are the message itself and all that it is linked with
    split at h
    · exact absurd h (by simp)
    · next survivor merged hfounders =>
      refine ⟨survivor, merged, hfounders, ?_⟩
      split at h
      · next hempty =>
        obtain ⟨rfl, rfl⟩ : survivor.id = threadId ∧ s = s' := by simpa using h
        have hsame : moveThreads s.messages survivor.id (merged.map (·.id)) = s.messages :=
          Table.update_eq_self fun r _ => by simp [List.isEmpty_iff.mp hempty]
        exact ⟨rfl, by rw [hsame]⟩
      · obtain ⟨rfl, rfl⟩ := ok_pair_inj h
        exact ⟨rfl, rfl⟩

theorem acceptInbound_ok {s s' : Store} {input : AcceptInboundInput}
    {r : Option AcceptMessageResult} (h : acceptInbound s input = .ok (r, s')) :
    s' = s ∨ ∃ receipt ∈ s.receipts, receipt.id = input.messageId ∧
      receipt.work_state = .ready ∧ ∃ r' s₁,
        writeThreadedMail s (.inbound input) = .ok (r', s₁) ∧
        s' = { s₁ with
          receipts := s₁.receipts.update (·.id = input.messageId)
            (fun r => { r with work_state := .indexed }) fun _ => rfl } := by
  unfold acceptInbound readInboundReceipt at h
  split at h
  · exact absurd h (by simp)
  · next receipt hreceipt =>
    split at h
    · obtain ⟨-, rfl⟩ := ok_pair_inj h
      exact .inl rfl
    · next hready =>
      obtain ⟨⟨r', s₁⟩, hwrite, h⟩ := bind_eq_ok.mp h
      obtain ⟨-, rfl⟩ := ok_pair_inj h
      exact .inr ⟨receipt, Table.find?_mem hreceipt, by simpa using Table.find?_prop hreceipt,
        by simpa using hready, r', s₁, hwrite, rfl⟩

/-! ### Submitting -/

/-- The rows of a new submission. -/
structure Submitted (s : Store) (input : SubmitOutboundInput) (ids : NewSubmissionIds)
    (identity : AccountSendingIdentity) (fromAddress : ExternalMailAddress)
    (needsApproval : Bool) (s' : Store) : Prop where
  sender : submitSender s input = some (identity, fromAddress)
  authorized : authorizeOutbound (some input.policy) identity.id (submitRecipients input) =
    if needsApproval then .require_approval else .allow
  unused : readJobWhere s (fun j =>
    j.requestKey = (input.requester.kind, input.requester.clientId, input.requestId)) = none
  written : ∃ r s₁,
    writeThreadedMail s (.outbound (submittedMail input ids identity fromAddress)) =
      .ok (r, s₁) ∧
    s' = { s₁ with jobs := s'.jobs, approvals := s'.approvals }
  jobs : s'.jobs.rows = s.jobs.rows ++
    newJobRow ids.jobId input input.requestId ids.messageId identity.id .message
      (if needsApproval then .waiting_approval else .ready) ::
    if needsApproval then
      [newJobRow ids.notificationJobId input (approvalNotificationIdempotencyKey input.requestId)
        ids.messageId identity.id .approval_notification .ready]
    else []
  approvals : s'.approvals.rows = s.approvals.rows ++
    if needsApproval then [newApprovalRow input ids] else []

theorem writeThreadedMail_frame {s s' : Store} {write : ThreadedMailWrite}
    {r : AcceptMessageResult} (h : writeThreadedMail s write = .ok (r, s')) :
    s' = { s with
      messages := s'.messages
      references := s'.references
      participants := s'.participants
      attachments := s'.attachments } := by
  obtain ⟨s₁, threadId, hins, hlink, -⟩ := writeThreadedMail_ok h
  obtain ⟨self, -, -, survivor, merged, -, -, rfl⟩ := linkThread_ok hlink
  rw [hins.rest]

theorem insertSubmission_ok {s s' : Store} {input : SubmitOutboundInput}
    {ids : NewSubmissionIds} {identity : AccountSendingIdentity}
    {fromAddress : ExternalMailAddress} {needsApproval : Bool}
    (h : insertSubmission s input ids identity fromAddress needsApproval = .ok s')
    (hsender : submitSender s input = some (identity, fromAddress))
    (hauth : authorizeOutbound (some input.policy) identity.id (submitRecipients input) =
      if needsApproval then .require_approval else .allow)
    (hunused : readJobWhere s (fun j =>
      j.requestKey = (input.requester.kind, input.requester.clientId, input.requestId)) = none) :
    Submitted s input ids identity fromAddress needsApproval s' := by
  -- mail first, then the job, then the approval with its notification
  obtain ⟨⟨r, s₁⟩, hwrite, h⟩ := bind_eq_ok.mp h
  have hframe := writeThreadedMail_frame hwrite
  have hjobs₁ : s₁.jobs = s.jobs := by rw [hframe]
  have happrovals₁ : s₁.approvals = s.approvals := by rw [hframe]
  obtain ⟨jobs, hjobs, h⟩ := bind_eq_ok.mp h
  have hrows := Table.insert?_rows (inserted_eq_ok.mp hjobs)
  rw [hjobs₁] at hrows
  cases needsApproval with
  | false =>
    obtain rfl : { s₁ with jobs } = s' := by simpa [pure, Except.pure] using h
    exact ⟨hsender, hauth, hunused, ⟨r, s₁, hwrite, rfl⟩, hrows, by simp [happrovals₁]⟩
  | true =>
    obtain ⟨jobs', hjobs', h⟩ := bind_eq_ok.mp h
    obtain ⟨approvals, happrovals, h⟩ := bind_eq_ok.mp h
    obtain rfl : { s₁ with jobs := jobs', approvals } = s' := by
      simpa [pure, Except.pure] using h
    have hrows' := Table.insert?_rows (inserted_eq_ok.mp hjobs')
    have harows := Table.insert?_rows (inserted_eq_ok.mp happrovals)
    refine ⟨hsender, hauth, hunused, ⟨r, s₁, hwrite, rfl⟩, ?_, ?_⟩
    · rw [hrows', hrows, List.append_assoc]
      rfl
    · rw [harows, happrovals₁]
      rfl

/-- A submit that succeeds either replays a job or inserts a submission. -/
theorem submitOutbound_ok {s s' : Store} {input : SubmitOutboundInput}
    {ids : NewSubmissionIds} {r : SubmitOutboundResult}
    (h : submitOutbound s input ids = .ok (r, s')) :
    (s' = s ∧ r.created = false) ∨
    (r.created = true ∧ ∃ identity fromAddress needsApproval,
      Submitted s input ids identity fromAddress needsApproval s' ∧
      (∃ job, readJob s' ids.jobId = some job ∧ r.job = toOutboundJob job) ∧
      r.approval = readApprovalByJob s' ids.jobId) := by
  unfold submitOutbound at h
  split at h
  · exact absurd h (by simp)
  · -- the sender, then the policy, then an earlier request under the same key
    next identity fromAddress hsender =>
    split at h
    · exact absurd h (by simp)
    · next hdenied =>
      split at h
      · split at h
        · exact absurd h (by simp)
        · obtain ⟨rfl, rfl⟩ := ok_pair_inj h
          exact .inl ⟨rfl, rfl⟩
      · next hunused =>
        obtain ⟨s₁, hinsert, h⟩ := bind_eq_ok.mp h
        obtain ⟨job, hjob, h⟩ := bind_eq_ok.mp h
        obtain ⟨rfl, rfl⟩ := ok_pair_inj h
        refine .inr ⟨rfl, identity, fromAddress, _,
          insertSubmission_ok hinsert hsender ?_ hunused, ⟨job, requireJob_ok hjob, rfl⟩, rfl⟩
        cases hauth : authorizeOutbound (some input.policy) identity.id
          (submitRecipients input) with
        | allow => simp
        | require_approval => simp
        | denied reason addresses => exact absurd hauth (hdenied reason addresses)

/-! ### Deciding, claiming, completing -/

theorem decideApproval_ok {s s' : Store} {input : DecideApprovalInput}
    {r : ApprovalDecisionResult} (h : decideApproval s input = .ok (r, s')) :
    s' = s ∨ ∃ a ∈ s.approvals, a.state = .pending ∧ input.nowIso < a.expires_at ∧
      ∃ j ∈ s.jobs, j.id = a.job_id ∧ j.state = .waiting_approval ∧
        s' = applyDecision s a j.message_id input.decision input.nowIso := by
  -- the approval, its state, its job and the deadline, in this order
  unfold decideApproval at h
  split at h
  · obtain ⟨-, rfl⟩ := ok_pair_inj h
    exact .inl rfl
  · next a ha =>
    split at h
    · obtain ⟨-, rfl⟩ := ok_pair_inj h
      exact .inl rfl
    · next hpending =>
      split at h
      · obtain ⟨-, rfl⟩ := ok_pair_inj h
        exact .inl rfl
      · next j hj =>
        obtain ⟨hrow, hid, -⟩ := readJob_some hj
        split at h
        · obtain ⟨-, rfl⟩ := ok_pair_inj h
          exact .inl rfl
        · next hdue =>
          simp only [Bool.or_eq_true, decide_eq_true_eq, not_or, not_le, not_not] at hdue
          obtain ⟨job, -, h⟩ := bind_eq_ok.mp h
          obtain ⟨-, rfl⟩ := ok_pair_inj h
          exact .inr ⟨a, Table.find?_mem ha, by simpa using hpending, hdue.1, j.row, hrow, hid,
            hdue.2, rfl⟩

/-- A claim either leaves the store, rejects the job, or moves it in flight
    after the recheck of its authorization. -/
theorem claimJob_ok {s s' : Store} {input : ClaimJobInput} {r : ClaimJobResult}
    (h : claimJob s input = .ok (r, s')) :
    (s' = s ∧ ∀ attemptId job, r ≠ .claimed attemptId job) ∨
    ∃ j, readJob s input.jobId = some j ∧ j.row.state = .ready ∧
      ((∃ rejection, claimRejection s j.row input.policy = some rejection ∧
          s' = rejectUndispatched s [j.row.message_id]
            { failureClass := .policy, failureDetail := some rejection.text } input.nowIso ∧
          ∀ attemptId job, r ≠ .claimed attemptId job) ∨
        (claimRejection s j.row input.policy = none ∧ s' = claimReadyJob s input ∧
          ∃ j', readJob s' j.row.id = some j' ∧
            r = .claimed input.attemptId (toOutboundJob j'))) := by
  unfold claimJob at h
  split at h
  · obtain ⟨rfl, rfl⟩ := ok_pair_inj h
    exact .inl ⟨rfl, by simp⟩
  · -- the job is there; it may be past dispatch, refused by the policy, or claimed
    next j hj =>
    split at h
    · obtain ⟨rfl, rfl⟩ := ok_pair_inj h
      exact .inl ⟨rfl, by simp⟩
    · next hready =>
      refine .inr ⟨j, hj, by simpa using hready, ?_⟩
      split at h
      · next rejection hrejection =>
        obtain ⟨job, -, h⟩ := bind_eq_ok.mp h
        obtain ⟨rfl, rfl⟩ := ok_pair_inj h
        exact .inl ⟨rejection, hrejection, rfl, by simp⟩
      · next hnone =>
        obtain ⟨job, hjob, h⟩ := bind_eq_ok.mp h
        obtain ⟨rfl, rfl⟩ := ok_pair_inj h
        exact .inr ⟨hnone, rfl, job, requireJob_ok hjob, rfl⟩

theorem completeAttempt_ok {s s' : Store} {input : CompleteAttemptInput}
    {r : CompleteAttemptResult} (h : completeAttempt s input = .ok (r, s')) :
    s' = s ∨ ∃ j ∈ s.jobs, j.id = input.jobId ∧ j.attempt_id = some input.attemptId ∧
      j.state = .in_flight ∧ recordOutcome s j input = .ok s' := by
  -- the job, its attempt and its state, in this order
  unfold completeAttempt at h
  split at h
  · obtain ⟨-, rfl⟩ := ok_pair_inj h
    exact .inl rfl
  · next j hj =>
    obtain ⟨hrow, hid, -⟩ := readJob_some hj
    split at h
    · obtain ⟨-, rfl⟩ := ok_pair_inj h
      exact .inl rfl
    · next hattempt =>
      split at h
      · obtain ⟨-, rfl⟩ := ok_pair_inj h
        exact .inl rfl
      · next hstate =>
        obtain ⟨s₁, hrecord, h⟩ := bind_eq_ok.mp h
        obtain ⟨job, -, h⟩ := bind_eq_ok.mp h
        obtain ⟨-, rfl⟩ := ok_pair_inj h
        exact .inr ⟨j.row, hrow, hid, by simpa using hattempt, by simpa using hstate, hrecord⟩

/-- Recording an outcome settles the job, and then links the message of an
    accepted job or rejects what waits for a rejected notification. -/
theorem recordOutcome_ok {s s' : Store} {j : OutboundJobRow} {input : CompleteAttemptInput}
    (h : recordOutcome s j input = .ok s') :
    (∃ rfcMessageId threadId, j.purpose = .message ∧
      linkThread (assignRfcMessageId (settleAttempt s input) j.message_id rfcMessageId
        input.nowIso) j.message_id = .ok (threadId, s')) ∨
    (∃ failureDetail, j.purpose = .approval_notification ∧
      input.outcome = .rejected failureDetail ∧
      s' = rejectUndispatched (settleAttempt s input) [j.message_id]
        { failureClass := .notification_failed, failureDetail := some failureDetail }
        input.nowIso) ∨
    s' = settleAttempt s input := by
  -- a delivery, a failed notification, or anything else
  unfold recordOutcome at h
  split at h
  · next providerMessageId rfcMessageId _ hpurpose =>
    obtain ⟨⟨threadId, s₁⟩, hlink, rfl⟩ := map_eq_ok.mp h
    exact .inl ⟨rfcMessageId, threadId, hpurpose, hlink⟩
  · next failureDetail houtcome hpurpose =>
    exact .inr (.inl ⟨failureDetail, hpurpose, houtcome, (Except.ok.inj h).symm⟩)
  · exact .inr (.inr (Except.ok.inj h).symm)

/-! ### Threads -/

theorem softDeleteThread_ok {s s' : Store} {handle : String} {scope : MailboxScope}
    {deletedAt : Instant} (h : softDeleteThread s handle scope deletedAt = .ok s') :
    ∃ threadId, resolveThread s handle scope = .ok threadId ∧
      s' = deleteLive s threadId scope deletedAt := by
  obtain ⟨threadId, hresolve, h⟩ := bind_eq_ok.mp h
  exact ⟨threadId, hresolve, by simpa [pure, Except.pure] using h.symm⟩

theorem markThreadRead_ok {s s' : Store} {handle : String} {isRead : Bool}
    {scope : MailboxScope} {nowIso : Instant}
    (h : markThreadRead s handle isRead scope nowIso = .ok s') :
    ∃ threadId, s' = markLiveRead s threadId isRead scope nowIso := by
  obtain ⟨threadId, -, h⟩ := bind_eq_ok.mp h
  exact ⟨threadId, by simpa [pure, Except.pure] using h.symm⟩

/-! ### The effect of a command -/

/-- The tables of mail, jobs and approvals are as before. -/
structure SameMail (s s' : Store) : Prop where
  messages : s'.messages = s.messages
  references : s'.references = s.references
  participants : s'.participants = s.participants
  attachments : s'.attachments = s.attachments
  jobs : s'.jobs = s.jobs
  approvals : s'.approvals = s.approvals

theorem SameMail.refl (s : Store) : SameMail s s := ⟨rfl, rfl, rfl, rfl, rfl, rfl⟩

/-- What one command can do to mail, jobs and approvals. -/
inductive Effect (s : Store) : Store → Prop where
  /-- Only receipts, mailboxes or routes change. -/
  | peripheral {s' : Store} : SameMail s s' → Effect s s'
  | submitted {s' : Store} (input : SubmitOutboundInput) (ids : NewSubmissionIds)
      (identity : AccountSendingIdentity) (fromAddress : ExternalMailAddress)
      (needsApproval : Bool) :
      Submitted s input ids identity fromAddress needsApproval s' → Effect s s'
  | accepted_inbound {s₁ : Store} (input : AcceptInboundInput) (r : AcceptMessageResult)
      (receipts : Table InboundReceiptRow) :
      writeThreadedMail s (.inbound input) = .ok (r, s₁) → Effect s { s₁ with receipts }
  | marked_read (threadId : String) (isRead : Bool) (scope : MailboxScope)
      (nowIso : Instant) : Effect s (markLiveRead s threadId isRead scope nowIso)
  | deleted (threadId : String) (scope : MailboxScope) (deletedAt : Instant) :
      Effect s (deleteLive s threadId scope deletedAt)
  | approved (a : ApprovalRequestRow) (j : OutboundJobRow) (nowIso : Instant) :
      a ∈ s.approvals → a.state = .pending → nowIso < a.expires_at →
      j ∈ s.jobs → j.id = a.job_id → j.state = .waiting_approval →
      Effect s (readyApprovedJob (resolveApproval s a.id .approved nowIso) a.job_id nowIso)
  | denied (a : ApprovalRequestRow) (j : OutboundJobRow) (nowIso : Instant) :
      a ∈ s.approvals → a.state = .pending → nowIso < a.expires_at →
      j ∈ s.jobs → j.id = a.job_id → j.state = .waiting_approval →
      Effect s (rejectUndispatched (resolveApproval s a.id .denied nowIso) [j.message_id]
        { failureClass := .denied, failureDetail := none } nowIso)
  | rejected (messageIds : List String) (failure : RejectionFailure) (nowIso : Instant) :
      Effect s (rejectUndispatched s messageIds failure nowIso)
  | expired (nowIso : Instant) : Effect s (expireDueApprovals s nowIso)
  | claimed (j : OutboundJobRow) (input : ClaimJobInput) :
      j ∈ s.jobs → j.id = input.jobId → j.state = .ready →
      claimRejection s j input.policy = none → Effect s (claimReadyJob s input)
  | completed {s' : Store} (j : OutboundJobRow) (input : CompleteAttemptInput) :
      j ∈ s.jobs → j.id = input.jobId → j.attempt_id = some input.attemptId →
      j.state = .in_flight → recordOutcome s j input = .ok s' → Effect s s'
  | settled (nowIso : Instant) : Effect s (settleAbandonedClaims s nowIso)

theorem Effect.refl (s : Store) : Effect s s := .peripheral (.refl s)

/-! ### The effect of each command -/

/-- Only mailboxes and routes change. -/
def Administered (s s' : Store) : Prop := ∃ addresses routes, s' = { s with addresses, routes }

theorem Administered.refl (s : Store) : Administered s s := ⟨s.addresses, s.routes, rfl⟩

theorem Administered.sameMail {s s' : Store} (h : Administered s s') : SameMail s s' := by
  obtain ⟨addresses, routes, rfl⟩ := h
  exact ⟨rfl, rfl, rfl, rfl, rfl, rfl⟩

theorem Administered.receipts {s s' : Store} (h : Administered s s') :
    s'.receipts = s.receipts := by
  obtain ⟨addresses, routes, rfl⟩ := h
  rfl

theorem Administered.of_addresses {s s' : Store}
    (h : ∃ addresses, s' = { s with addresses }) : Administered s s' := by
  obtain ⟨addresses, rfl⟩ := h
  exact ⟨addresses, s.routes, rfl⟩

/-- A new mailbox comes with its route. -/
theorem createAddress_cases {s s' : Store} {id localPart mailDomain : String}
    {displayName : Option String} {nowIso : Instant} {sendingAllowed : Bool}
    {r : Option AccountAddress}
    (h : createAddress s id localPart mailDomain displayName nowIso sendingAllowed =
      .ok (r, s')) :
    s' = s ∨ ∃ normalized addresses routes,
      constructMailboxAddress localPart mailDomain = .ok normalized ∧
        s.addresses.insert? (newAddressRow id normalized displayName nowIso sendingAllowed) =
          some addresses ∧
        s.routes.insert? (newRouteRow id nowIso) = some routes ∧
        s' = { s with addresses, routes } := by
  unfold createAddress at h
  split at h
  · next normalized hnormalized =>
    split at h
    · exact absurd h (by simp)
    · next addresses hins =>
      -- a mailbox comes with its route
      obtain ⟨routes, hroutes, h⟩ := bind_eq_ok.mp h
      obtain ⟨address, -, h⟩ := bind_eq_ok.mp h
      obtain ⟨-, rfl⟩ := ok_pair_inj h
      exact .inr ⟨normalized, addresses, routes, hnormalized, hins,
        inserted_eq_ok.mp hroutes, rfl⟩
  · obtain ⟨-, rfl⟩ := ok_pair_inj h
    exact .inl rfl

theorem createAddress_ok {s s' : Store} {id localPart mailDomain : String}
    {displayName : Option String} {nowIso : Instant} {sendingAllowed : Bool}
    {r : Option AccountAddress}
    (h : createAddress s id localPart mailDomain displayName nowIso sendingAllowed =
      .ok (r, s')) : Administered s s' := by
  rcases createAddress_cases h with rfl | ⟨_, _, _, -, -, -, rfl⟩
  · exact .refl _
  · exact ⟨_, _, rfl⟩

theorem patchAddress_cases {s s' : Store} {id : String} {patch : PatchAddressInput}
    {nowIso : Instant} {r : Option AccountAddress}
    (h : patchAddress s id patch nowIso = .ok (r, s')) :
    s' = s ∨ s' = updateAddress s id (fun a => { a with
      display_name := patch.displayName.getD a.display_name
      active := patch.active.getD a.active
      updated_at := nowIso }) fun _ => rfl := by
  unfold patchAddress at h
  split at h
  · obtain ⟨-, rfl⟩ := ok_pair_inj h
    exact .inl rfl
  · split at h
    · obtain ⟨-, rfl⟩ := ok_pair_inj h
      exact .inl rfl
    · split at h
      · obtain ⟨-, rfl⟩ := ok_pair_inj h
        exact .inl rfl
      · obtain ⟨address, -, h⟩ := bind_eq_ok.mp h
        obtain ⟨-, rfl⟩ := ok_pair_inj h
        exact .inr rfl

/-- A patch changes mailboxes only. -/
theorem patchAddress_ok {s s' : Store} {id : String} {patch : PatchAddressInput}
    {nowIso : Instant} {r : Option AccountAddress}
    (h : patchAddress s id patch nowIso = .ok (r, s')) :
    ∃ addresses, s' = { s with addresses } := by
  rcases patchAddress_cases h with rfl | rfl
  · exact ⟨_, rfl⟩
  · exact ⟨_, rfl⟩

theorem setAddressForwarding_cases {s s' : Store} {addressId : String}
    {forwardTo : Option String} {nowIso : Instant} {r : Option AccountAddress}
    (h : setAddressForwarding s addressId forwardTo nowIso = .ok (r, s')) :
    s' = s ∨ s' = updateAddress s addressId
      (fun a => { a with forward_to := forwardTo, updated_at := nowIso }) fun _ => rfl := by
  unfold setAddressForwarding at h
  split at h
  · obtain ⟨-, rfl⟩ := ok_pair_inj h
    exact .inl rfl
  · obtain ⟨address, -, h⟩ := bind_eq_ok.mp h
    obtain ⟨-, rfl⟩ := ok_pair_inj h
    exact .inr rfl

theorem setAddressForwarding_ok {s s' : Store} {addressId : String} {forwardTo : Option String}
    {nowIso : Instant} {r : Option AccountAddress}
    (h : setAddressForwarding s addressId forwardTo nowIso = .ok (r, s')) :
    ∃ addresses, s' = { s with addresses } := by
  rcases setAddressForwarding_cases h with rfl | rfl
  · exact ⟨_, rfl⟩
  · exact ⟨_, rfl⟩

/-- A retirement makes the route due. -/
theorem retireAddress_cases {s s' : Store} {id : String} {nowIso : Instant}
    {r : Option AccountAddress} (h : retireAddress s id nowIso = .ok (r, s')) :
    s' = s ∨ s' = updateRoute
      (updateAddress s id (fun a => { a with
        active := false
        retired_at := some nowIso
        updated_at := nowIso }) fun _ => rfl)
      id (fun r => { r with
        state := .pending
        error := none
        retry_after := some nowIso }) fun _ => rfl := by
  unfold retireAddress at h
  split at h
  · obtain ⟨-, rfl⟩ := ok_pair_inj h
    exact .inl rfl
  · split at h
    · obtain ⟨-, rfl⟩ := ok_pair_inj h
      exact .inl rfl
    · obtain ⟨address, -, h⟩ := bind_eq_ok.mp h
      obtain ⟨-, rfl⟩ := ok_pair_inj h
      exact .inr rfl

theorem retireAddress_ok {s s' : Store} {id : String} {nowIso : Instant}
    {r : Option AccountAddress} (h : retireAddress s id nowIso = .ok (r, s')) :
    Administered s s' := by
  rcases retireAddress_cases h with rfl | rfl
  · exact .refl _
  · exact ⟨_, _, rfl⟩

theorem retryAddressRouting_cases {s s' : Store} {id : String} {nowIso : Instant}
    {r : Option AccountAddress} (h : retryAddressRouting s id nowIso = .ok (r, s')) :
    s' = s ∨ s' = updateRoute s id (fun r => { r with
      state := .pending
      error := none
      attempts := 0
      retry_after := some nowIso }) fun _ => rfl := by
  unfold retryAddressRouting at h
  split at h
  · obtain ⟨-, rfl⟩ := ok_pair_inj h
    exact .inl rfl
  · obtain ⟨address, -, h⟩ := bind_eq_ok.mp h
    obtain ⟨-, rfl⟩ := ok_pair_inj h
    exact .inr rfl

theorem retryAddressRouting_ok {s s' : Store} {id : String} {nowIso : Instant}
    {r : Option AccountAddress} (h : retryAddressRouting s id nowIso = .ok (r, s')) :
    Administered s s' := by
  rcases retryAddressRouting_cases h with rfl | rfl
  · exact .refl _
  · exact ⟨_, _, rfl⟩

theorem registerInboundReceipt_sameMail (s : Store) (input : RegisterInboundReceiptInput) :
    SameMail s (registerInboundReceipt s input) := by
  unfold registerInboundReceipt
  split <;> exact ⟨rfl, rfl, rfl, rfl, rfl, rfl⟩

/-- A transaction has an effect when its success has one. -/
theorem Effect.of_committedSnd {α : Type} {s : Store} {r : Except StoreError (α × Store)}
    (h : ∀ a s', r = .ok (a, s') → Effect s s') : Effect s (committedSnd s r) :=
  committedSnd_of (.refl s) h

theorem Effect.of_committed {s : Store} {r : Except StoreError Store}
    (h : ∀ s', r = .ok s' → Effect s s') : Effect s (committed s r) :=
  committed_of (.refl s) h

theorem submitOutbound_effect {s s' : Store} {input : SubmitOutboundInput}
    {ids : NewSubmissionIds} {r : SubmitOutboundResult}
    (h : submitOutbound s input ids = .ok (r, s')) : Effect s s' := by
  rcases submitOutbound_ok h with ⟨rfl, -⟩ |
    ⟨-, identity, fromAddress, needsApproval, hs, -⟩
  · exact .refl _
  · exact .submitted input ids identity fromAddress needsApproval hs

theorem decideApproval_effect {s s' : Store} {input : DecideApprovalInput}
    {r : ApprovalDecisionResult} (h : decideApproval s input = .ok (r, s')) : Effect s s' := by
  rcases decideApproval_ok h with rfl | ⟨a, ha, hpending, hdue, j, hj, hid, hwaiting, rfl⟩
  · exact .refl _
  · cases input.decision with
    | approved => exact .approved a j _ ha hpending hdue hj hid hwaiting
    | denied => exact .denied a j _ ha hpending hdue hj hid hwaiting

theorem claimJob_effect {s s' : Store} {input : ClaimJobInput} {r : ClaimJobResult}
    (h : claimJob s input = .ok (r, s')) : Effect s s' := by
  rcases claimJob_ok h with ⟨rfl, -⟩ |
    ⟨j, hread, hready, ⟨_, -, rfl, -⟩ | ⟨hnone, rfl, -⟩⟩
  · exact .refl _
  · exact .rejected _ _ _
  · obtain ⟨hj, hid, -⟩ := readJob_some hread
    exact .claimed j.row input hj hid hready hnone

theorem completeAttempt_effect {s s' : Store} {input : CompleteAttemptInput}
    {r : CompleteAttemptResult} (h : completeAttempt s input = .ok (r, s')) : Effect s s' := by
  rcases completeAttempt_ok h with rfl | ⟨j, hj, hid, hattempt, hflight, hrecord⟩
  · exact .refl _
  · exact .completed j input hj hid hattempt hflight hrecord

theorem acceptInbound_effect {s s' : Store} {input : AcceptInboundInput}
    {r : Option AcceptMessageResult} (h : acceptInbound s input = .ok (r, s')) :
    Effect s s' := by
  rcases acceptInbound_ok h with rfl | ⟨_, -, -, -, r', s₁, hwrite, rfl⟩
  · exact .refl _
  · exact .accepted_inbound input r' _ hwrite

/-- **Inversion.** Every command has one of the listed effects. -/
theorem exec_effect (s : Store) (c : Command) : Effect s (s.exec c) := by
  -- each command by the lemma about its function
  cases c with
  | submitOutbound input ids => exact .of_committedSnd fun _ _ h => submitOutbound_effect h
  | decideApproval input => exact .of_committedSnd fun _ _ h => decideApproval_effect h
  | claimJob input => exact .of_committedSnd fun _ _ h => claimJob_effect h
  | completeAttempt input => exact .of_committedSnd fun _ _ h => completeAttempt_effect h
  | rejectUndispatched messageIds failure nowIso => exact .rejected messageIds failure nowIso
  | expireDueApprovals nowIso => exact .expired nowIso
  | settleAbandonedClaims nowIso => exact .settled nowIso
  | softDeleteThread handle scope deletedAt =>
    refine .of_committed ?_
    intro _ h
    obtain ⟨threadId, -, rfl⟩ := softDeleteThread_ok h
    exact .deleted threadId scope deletedAt
  | markThreadRead handle isRead scope nowIso =>
    refine .of_committed ?_
    intro _ h
    obtain ⟨threadId, rfl⟩ := markThreadRead_ok h
    exact .marked_read threadId isRead scope nowIso
  | acceptInbound input => exact .of_committedSnd fun _ _ h => acceptInbound_effect h
  | registerInboundReceipt input =>
    exact .peripheral (registerInboundReceipt_sameMail s input)
  | observeInboundForward input => exact .peripheral ⟨rfl, rfl, rfl, rfl, rfl, rfl⟩
  | failInboundReceiptPolicy receiptId reason =>
    exact .peripheral ⟨rfl, rfl, rfl, rfl, rfl, rfl⟩
  | redriveDueInboundReceipts nowIso limit =>
    exact .peripheral ⟨rfl, rfl, rfl, rfl, rfl, rfl⟩
  | createAddress id localPart mailDomain displayName nowIso sendingAllowed =>
    exact .of_committedSnd fun _ _ h => .peripheral (createAddress_ok h).sameMail
  | patchAddress id patch nowIso =>
    exact .of_committedSnd fun _ _ h => .peripheral
      (Administered.of_addresses (patchAddress_ok h)).sameMail
  | setAddressForwarding addressId forwardTo nowIso =>
    exact .of_committedSnd fun _ _ h => .peripheral
      (Administered.of_addresses (setAddressForwarding_ok h)).sameMail
  | retireAddress id nowIso =>
    exact .of_committedSnd fun _ _ h => .peripheral (retireAddress_ok h).sameMail
  | retryAddressRouting id nowIso =>
    exact .of_committedSnd fun _ _ h => .peripheral (retryAddressRouting_ok h).sameMail
  | configureSendingDomains names => exact .peripheral ⟨rfl, rfl, rfl, rfl, rfl, rfl⟩
  | writeRoute id write => exact .peripheral ⟨rfl, rfl, rfl, rfl, rfl, rfl⟩

end Umail
