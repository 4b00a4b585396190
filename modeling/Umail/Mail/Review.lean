import Umail.Mail.SendLog

/-! # What was reviewed is what is sent

  `apps/server/src/api/approval-http.ts` with the projection of
  `projection.ts`: the page on which a reviewer sees a message before deciding
  about it. The page and the dispatch read the same message through different
  code and at different times; both show the content that the submit stored.
-/

namespace Umail

open Relational

section review
variable [Unicode]

/-! ### The review page -/

/-- `messageSummaryFields`, the part that both directions share, with the body. -/
structure ThreadMessageFields where
  id : String
  threadId : String
  parentMessageId : Option String
  addressId : String
  subject : Option String
  occurredAt : Instant
  «from» : List AccountMailContact
  replyTo : List AccountMailContact
  «to» : List AccountMailContact
  cc : List AccountMailContact
  hasRemoteImages : Bool
  rfcMessageId : Option NormalizedRfcMessageId
  inReplyToRfcMessageId : Option NormalizedRfcMessageId
  references : List NormalizedRfcMessageId
  attachments : List AccountAttachmentMeta
  createdAt : Instant
  updatedAt : Instant
  textBody : Option String
  htmlBody : Option String

structure InboundThreadMessage extends ThreadMessageFields where
  state : InboundSummaryFields
  isRead : Bool
  readAt : Option Instant

structure OutboundThreadMessage extends ThreadMessageFields where
  sendState : OutboundJobState
  sendError : Option String
  providerMessageId : Option String

inductive ThreadMessage where
  | inbound (message : InboundThreadMessage)
  | outbound (message : OutboundThreadMessage)

def OutboundJobFailureClass.text : OutboundJobFailureClass → String
  | .denied => "denied"
  | .expired => "expired"
  | .cancelled => "cancelled"
  | .notification_failed => "notification_failed"
  | .policy => "policy"
  | .provider => "provider"

/-- An unknown outcome has a detail but no class. -/
def sendError (failureClass : Option OutboundJobFailureClass) (failureDetail : Option String) :
    Option String :=
  match failureDetail with
  | none => failureClass.map (·.text)
  | some detail =>
    match failureClass with
    | none => some detail
    | some failureClass => some (failureClass.text ++ ": " ++ detail)

/-- `messageSummaryFields` of both directions, with the bodies. -/
def threadMessageFields (summary : MessageSummary) (body : MessageBody) : ThreadMessageFields where
  id := summary.id
  threadId := summary.threadId
  parentMessageId := summary.parentMessageId
  addressId := summary.mailboxId
  subject := summary.subject
  occurredAt := summary.occurredAt
  «from» := summary.participants.from
  replyTo := summary.participants.replyTo
  «to» := summary.participants.to
  cc := summary.participants.cc
  hasRemoteImages := summary.hasRemoteImages
  rfcMessageId := summary.rfcMessageId
  inReplyToRfcMessageId := summary.inReplyToRfcMessageId
  references := summary.references
  attachments := summary.attachments
  createdAt := summary.createdAt
  updatedAt := summary.updatedAt.getD summary.createdAt
  textBody := body.textBody
  htmlBody := body.htmlBody

def projectThreadMessage (summary : MessageSummary) (body : MessageBody) : ThreadMessage :=
  match summary.direction with
  | .inbound state => .inbound {
      threadMessageFields summary body with
      state
      isRead := summary.isRead
      readAt := summary.readAt }
  | .outbound job => .outbound {
      threadMessageFields summary body with
      sendState := job.state
      sendError := sendError job.failureClass job.failureDetail
      providerMessageId := job.providerMessageId }

/-- The two reads may see two different stores. -/
def loadApprovalMessage (summaryIn bodyIn : Store) (messageId : String) :
    Except StoreError (Option OutboundThreadMessage) := do
  let summary ← getMessageSummary summaryIn messageId .all
  match summary, getMessageBody bodyIn messageId .all with
  | some summary, some body =>
    match projectThreadMessage summary body with
    | .outbound message => return some message
    | .inbound _ => return none
  | _, _ => return none

def isUnavailableState : ApprovalState → Bool
  | .expired => true
  | .cancelled => true
  | _ => false

def messageMatchesApproval (approval : ApprovalRequestRow) (job : OutboundJob)
    (message : OutboundThreadMessage) : Bool :=
  if message.from.length ≠ 1 || message.to.isEmpty then false
  else if approval.state = .pending then job.state = .waiting_approval
  else true

inductive ApprovalReviewOutcome where
  | available (approval : ApprovalRequestRow) (job : OutboundJob)
      (message : OutboundThreadMessage)
  | notFound
  | gone (state : ApprovalState) (threadId : String)

/-- The lookup, the summary and the body are read one after the other. -/
def reviewApproval (lookupIn summaryIn bodyIn : Store) (tokenHash : String) (now : Instant) :
    Except StoreError ApprovalReviewOutcome :=
  match lookupApprovalByTokenHash lookupIn tokenHash with
  | .missing => .ok .notFound
  | .found approval job =>
    if approval.expires_at ≤ now || isUnavailableState approval.state then
      .ok (.gone approval.state job.threadId)
    else do
      match ← loadApprovalMessage summaryIn bodyIn job.messageId with
      | none => return .gone approval.state job.threadId
      | some message =>
        if messageMatchesApproval approval job message then
          return .available approval job message
        else return .gone approval.state job.threadId

/-! ### What the page shows -/

/-- The page shows the content. -/
structure OutboundThreadMessage.Shows (message : OutboundThreadMessage) (c : MailContent) :
    Prop where
  from_eq : message.from = c.participants.from
  replyTo_eq : message.replyTo = c.participants.replyTo
  to_eq : message.to = c.participants.to
  cc_eq : message.cc = c.participants.cc
  subject_eq : message.subject = c.subject
  textBody_eq : message.textBody = c.textBody
  htmlBody_eq : message.htmlBody = c.htmlBody
  inReplyTo_eq : message.inReplyToRfcMessageId = c.inReplyTo
  references_eq : message.references = c.references

variable {s s' : Store}

theorem getMessageSummary_some {messageId : String} {scope : MailboxScope}
    {summary : MessageSummary} (h : getMessageSummary s messageId scope = .ok (some summary)) :
    ∃ c, storedContent s messageId = some c ∧ summary.subject = c.subject ∧
      summary.participants = c.participants ∧ summary.inReplyToRfcMessageId = c.inReplyTo ∧
      summary.references = c.references := by
  unfold getMessageSummary at h
  split at h
  · exact absurd h (by simp)
  · next m hm =>
    have hid : m.id = messageId := by
      have hsel := Table.find?_prop hm
      simp only [Bool.and_eq_true, decide_eq_true_eq] at hsel
      exact hsel.1
    split at h
    · obtain ⟨summary', hsummary, heq⟩ := map_eq_ok.mp h
      obtain ⟨direction, -, hrest⟩ := bind_eq_ok.mp hsummary
      obtain rfl := Option.some.inj heq
      obtain rfl := Except.ok.inj hrest
      exact ⟨m.content s, hid ▸ storedContent_of_mem (Table.find?_mem hm), rfl, rfl, rfl, rfl⟩
    · exact absurd h (by simp)

theorem getMessageBody_some {messageId : String} {scope : MailboxScope} {body : MessageBody}
    (h : getMessageBody s messageId scope = some body) :
    ∃ c, storedContent s messageId = some c ∧ body.textBody = c.textBody ∧
      body.htmlBody = c.htmlBody := by
  unfold getMessageBody at h
  split at h
  · exact absurd h (by simp)
  · next m hm =>
    have hid : m.id = messageId := by simpa using Table.find?_prop hm
    split at h
    · obtain rfl := Option.some.inj h
      exact ⟨m.content s, hid ▸ storedContent_of_mem (Table.find?_mem hm), rfl, rfl⟩
    · exact absurd h (by simp)

/-- Both reads see the content that the message had before them. -/
theorem loadApprovalMessage_some {s₀ summaryIn bodyIn : Store} {messageId : String}
    {message : OutboundThreadMessage} {c : MailContent} (hc : storedContent s₀ messageId = some c)
    (hsummary : s₀.Evolves summaryIn) (hbody : s₀.Evolves bodyIn)
    (h : loadApprovalMessage summaryIn bodyIn messageId = .ok (some message)) :
    message.Shows c := by
  obtain ⟨summary, hread, h⟩ := bind_eq_ok.mp h
  split at h
  · next summary body hread' =>
    obtain ⟨c₁, hc₁, hsubject, hparticipants, hreply, hrefs⟩ := getMessageSummary_some hread
    obtain ⟨c₂, hc₂, htext, hhtml⟩ := getMessageBody_some hread'
    -- both stores have the content that was written
    obtain rfl : c = c₁ := Option.some.inj ((hsummary.content_eq hc).symm.trans hc₁)
    obtain rfl : c = c₂ := Option.some.inj ((hbody.content_eq hc).symm.trans hc₂)
    unfold projectThreadMessage at h
    split at h
    · next message' hproject =>
      obtain rfl : message' = message := Option.some.inj (Except.ok.inj h)
      split at hproject
      · exact absurd hproject (by simp)
      · obtain rfl := ThreadMessage.outbound.inj hproject
        constructor <;>
          simp [threadMessageFields, hsubject, hparticipants, hreply, hrefs, htext, hhtml]
    · exact absurd h (by simp [pure, Except.pure])
  · exact absurd h (by simp [pure, Except.pure])

/-- When the page shows a request. -/
theorem reviewApproval_available {lookupIn summaryIn bodyIn : Store} {tokenHash : String}
    {now : Instant} {approval : ApprovalRequestRow} {job : OutboundJob}
    {message : OutboundThreadMessage} :
    reviewApproval lookupIn summaryIn bodyIn tokenHash now =
        .ok (.available approval job message) ↔
      readApprovalByToken lookupIn tokenHash = some approval ∧
      (∃ j, readJob lookupIn approval.job_id = some j ∧ job = toOutboundJob j) ∧
      now < approval.expires_at ∧ isUnavailableState approval.state = false ∧
      loadApprovalMessage summaryIn bodyIn job.messageId = .ok (some message) ∧
      messageMatchesApproval approval job message = true := by
  unfold reviewApproval lookupApprovalByTokenHash
  constructor
  · -- the checks are passed in the order of the source
    intro h
    split at h
    · exact absurd h (by simp)
    · next approval' job' hlookup =>
      split at hlookup
      · exact absurd hlookup (by simp)
      next happroval =>
      split at hlookup
      · exact absurd hlookup (by simp)
      next j hj =>
      obtain ⟨rfl, rfl⟩ := ApprovalLookupResult.found.inj hlookup
      split at h
      · exact absurd h (by simp)
      next hdue =>
      simp only [Bool.or_eq_true, decide_eq_true_eq, not_or, not_le, Bool.not_eq_true] at hdue
      obtain ⟨loaded, hload, h⟩ := bind_eq_ok.mp h
      split at h
      · exact absurd h (by simp [pure, Except.pure])
      · next message' =>
        split at h
        · next hmatches =>
          obtain ⟨rfl, rfl, rfl⟩ := ApprovalReviewOutcome.available.inj (Except.ok.inj h)
          exact ⟨happroval, ⟨j, hj, rfl⟩, hdue.1, hdue.2, hload, hmatches⟩
        · exact absurd h (by simp [pure, Except.pure])
  · rintro ⟨happroval, ⟨j, hj, rfl⟩, hdue, hstate, hload, hmatches⟩
    -- conversely, none of them stops the review
    have hnotdue : ¬ (decide (approval.expires_at ≤ now) || isUnavailableState approval.state) =
        true := by
      simp [hstate, hdue]
    simp only [happroval, hj, if_neg hnotdue, hload]
    exact if_pos hmatches

/-! ### What a submit stores -/

/-- The mail a submit stores, before its HTML is materialized: recipients are
    deduplicated, and the threading headers are normalized. -/
def SubmitOutboundInput.mail (input : SubmitOutboundInput) (sender : AccountMailContact) :
    OutboundMail :=
  let headers := normalizeThreadingHeaders none input.inReplyToHeader input.referencesHeader
  { «from» := namedSender sender
    replyTo := namedSender sender
    «to» := (dedupeAccountMailContacts (input.firstTo :: input.restTo)).map (·.address.val)
    cc := (dedupeAccountMailContacts input.cc).map (·.address.val)
    subject := input.subject
    text := input.textBody
    html := input.htmlBody
    inReplyTo := headers.inReplyTo.map (·.val)
    references := joinStoredReferences headers.references }

/-- The page shows the fields that a submit stored. -/
structure OutboundThreadMessage.ShowsSubmitted (message : OutboundThreadMessage)
    (input : SubmitOutboundInput) (sender : AccountMailContact) : Prop where
  from_eq : message.from = [sender]
  replyTo_eq : message.replyTo = [sender]
  to_eq : message.to = dedupeAccountMailContacts (input.firstTo :: input.restTo)
  cc_eq : message.cc = dedupeAccountMailContacts input.cc
  subject_eq : message.subject = some input.subject
  textBody_eq : message.textBody = input.textBody
  htmlBody_eq : message.htmlBody = input.htmlBody
  headers_eq : normalizeThreadingHeaders none input.inReplyToHeader input.referencesHeader =
    { rfcMessageId := none
      inReplyTo := message.inReplyToRfcMessageId
      references := message.references }

/-- The content of a submitted message. -/
def SubmitOutboundInput.content (input : SubmitOutboundInput) (ids : NewSubmissionIds)
    (identity : AccountSendingIdentity) (fromAddress : ExternalMailAddress) : MailContent :=
  (ThreadedMailWrite.outbound (submittedMail input ids identity fromAddress)).content

theorem SubmitOutboundInput.content_mail (input : SubmitOutboundInput) (ids : NewSubmissionIds)
    (identity : AccountSendingIdentity) (fromAddress : ExternalMailAddress) :
    (input.content ids identity fromAddress).mail =
      some (input.mail { address := fromAddress, displayName := identity.displayName }) := rfl

theorem OutboundThreadMessage.Shows.submitted {message : OutboundThreadMessage}
    {input : SubmitOutboundInput} {ids : NewSubmissionIds} {identity : AccountSendingIdentity}
    {fromAddress : ExternalMailAddress}
    (h : message.Shows (input.content ids identity fromAddress)) :
    message.ShowsSubmitted input
      { address := fromAddress, displayName := identity.displayName } := by
  refine ⟨h.from_eq, h.replyTo_eq, h.to_eq, h.cc_eq, h.subject_eq, h.textBody_eq, h.htmlBody_eq,
    ?_⟩
  rw [h.inReplyTo_eq, h.references_eq]
  rfl

/-! ### Reviewed and sent -/

variable {ports : DispatchPorts} {p q : Lts.Pool MailState Dispatch}

/-- A submitted job, its message and the content of that message, from the
    submit on. -/
theorem Submitted.later {input : SubmitOutboundInput} {ids : NewSubmissionIds}
    {identity : AccountSendingIdentity} {fromAddress : ExternalMailAddress} {needsApproval : Bool}
    {s₀ : Store} (h : Submitted s input ids identity fromAddress needsApproval s₀)
    (href : s.Referential) (hev : s₀.Evolves s') :
    storedContent s' ids.messageId = some (input.content ids identity fromAddress) ∧
      ∃ j ∈ s'.jobs, j.id = ids.jobId ∧ j.message_id = ids.messageId ∧
        j.purpose = .message := by
  refine ⟨hev.content_eq (h.content href), ?_⟩
  obtain ⟨j, hj, hjev⟩ := hev.jobs.exists_mem h.job_mem
  have hsame := hjev.sameRequest
  rw [OutboundJobRow.SameRequest] at hsame
  exact ⟨j, hj, by rw [hsame]; rfl, by rw [hsame]; rfl, by rw [hsame]; rfl⟩

/-- A call of a submitted job carries the submitted mail. -/
theorem SendCall.Sound.mail_of_content {call : SendCall} {c : MailContent} {raw : OutboundMail}
    {j : OutboundJobRow} (h : call.Sound ports s) (hj : j ∈ s.jobs) (hid : j.id = call.jobId)
    (hpurpose : j.purpose = .message) (hc : storedContent s j.message_id = some c)
    (hraw : c.mail = some raw) : materializeProviderMail ports raw = .ok call.mail := by
  obtain ⟨k, hclaim⟩ := h.claim
  -- the row that was claimed is an earlier version of this one
  have hev : k.Evolves j := h.later.jobs.version (fun _ _ => OutboundJobRow.Evolves.key_eq)
    hclaim.mem hj (.inl (hclaim.id_eq.trans hid.symm))
  have hsame := hev.sameRequest
  rw [OutboundJobRow.SameRequest] at hsame
  have hkpurpose : k.purpose = .message := by
    rw [hsame] at hpurpose
    exact hpurpose
  have hkmessage : j.message_id = k.message_id := by rw [hsame]
  obtain ⟨c', raw', hc', hraw', hmail⟩ := hclaim.mail hkpurpose
  obtain rfl : c' = c := by
    refine Option.some.inj ((h.later.content_eq hc').symm.trans ?_)
    rw [← hkmessage]
    exact hc
  obtain rfl : raw' = raw := Option.some.inj (hraw'.symm.trans hraw)
  exact hmail

/-- **What was reviewed is what is sent.** From a submit on, in every run, a
    call of its job carries the mail the submit stored, with the HTML
    materialized; a review of its approval shows the same fields, whatever
    happens between the reads of the page; and every step keeps the columns of
    every message but six, and its participants and references. -/
theorem reviewed_is_sent (h : (dispatching ports).machine.Reachable p)
    {input : SubmitOutboundInput} {ids : NewSubmissionIds} {r : SubmitOutboundResult}
    (hsubmit : submitOutbound p.shared.store input ids = .ok (r, s'))
    (hcreated : r.created = true) :
    ∃ identity fromAddress, submitSender p.shared.store input = some (identity, fromAddress) ∧
      ∀ ls q, (dispatching ports).machine.Run p (.env (.submitOutbound input ids) :: ls) q →
        (∀ call ∈ q.shared.sent, call.jobId = r.job.jobId →
          materializeProviderMail ports
            (input.mail { address := fromAddress, displayName := identity.displayName }) =
              .ok call.mail) ∧
        (∀ ls' ls'' q' q'' tokenHash now approval job message,
          (dispatching ports).machine.Run q ls' q' →
          (dispatching ports).machine.Run q' ls'' q'' →
          reviewApproval q.shared.store q'.shared.store q''.shared.store tokenHash now =
            .ok (.available approval job message) → job.jobId = r.job.jobId →
          message.ShowsSubmitted input
            { address := fromAddress, displayName := identity.displayName }) ∧
        (∀ l q', (dispatching ports).machine.step q l = some q' →
          ∀ m ∈ q.shared.store.messages,
            (∃ m' ∈ q'.shared.store.messages, m' = { m with
              is_read := m'.is_read
              read_at := m'.read_at
              updated_at := m'.updated_at
              deleted_at := m'.deleted_at
              rfc_message_id := m'.rfc_message_id
              thread_id := m'.thread_id }) ∧
            q'.shared.store.participants.select (·.message_id = m.id) =
              q.shared.store.participants.select (·.message_id = m.id) ∧
            q'.shared.store.references.select (·.message_id = m.id) =
              q.shared.store.references.select (·.message_id = m.id)) := by
  rcases submitOutbound_ok hsubmit with ⟨-, hreplayed⟩ |
    ⟨-, identity, fromAddress, needsApproval, hsub, ⟨job, hjob, hrjob⟩, -⟩
  · exact absurd hcreated (by simp [hreplayed])
  have href : p.shared.store.Referential := (dispatching_sound h).reachable.referential
  have hrid : r.job.jobId = ids.jobId := by
    rw [hrjob]
    exact (readJob_some hjob).2.1
  refine ⟨identity, fromAddress, hsub.sender, ?_⟩
  intro ls q hrun
  have hev : s'.Evolves q.shared.store := by
    have hexec : p.shared.store.exec (.submitOutbound input ids) = s' := by
      simp [Store.exec, committedSnd, committed, hsubmit, Except.map]
    cases hrun with
    | cons _ _ hstep hrest =>
      obtain rfl := Option.some.inj hstep
      have hrest' := dispatching_evolves hrest
      rw [← hexec]
      exact hrest'
  obtain ⟨hcontent, j, hj, hjid, hjmessage, hjpurpose⟩ := hsub.later href hev
  refine ⟨fun call hcall hid => ?_, ?_, ?_⟩
  · have hsound := (dispatching_sound (hrun.reachable h)).calls call hcall
    exact hsound.mail_of_content hj (hjid.trans (hrid.symm.trans hid.symm)) hjpurpose
      (hjmessage ▸ hcontent) (input.content_mail ids identity fromAddress)
  · intro ls' ls'' q' q'' tokenHash now approval rjob message hrun' hrun'' hreview hid
    obtain ⟨-, ⟨k, hk, rfl⟩, -, -, hload, -⟩ := reviewApproval_available.mp hreview
    obtain ⟨hkrow, hkid, -⟩ := readJob_some hk
    -- the job of the page is the submitted one
    have hsame : k.row = j := by
      refine q.shared.store.jobs.eq_of_clash hkrow hj (.inl ?_)
      exact hid.trans (hrid.trans hjid.symm)
    have hmessage : (toOutboundJob k).messageId = ids.messageId := by
      show k.row.message_id = ids.messageId
      rw [hsame, hjmessage]
    rw [hmessage] at hload
    have hev' := dispatching_evolves hrun'
    exact (loadApprovalMessage_some hcontent hev'
      (hev'.trans (dispatching_evolves hrun'')) hload).submitted
  · intro l q' hstep m hm
    have hone := dispatching_step hstep
    obtain ⟨m', hm', hmev⟩ := hone.messages.exists_mem hm
    refine ⟨⟨m', hm', hmev.columns⟩, ?_, ?_⟩
    · apply hone.participants.select_eq
      intro r hnew
      have hne : r.message_id ≠ m.id := fun heq => hnew.1 m hm heq.symm
      simp [hne]
    · apply hone.references.select_eq
      intro r hnew
      have hne : r.message_id ≠ m.id := fun heq => hnew.1 m hm heq.symm
      simp [hne]

end review

section sample
open Sample

/-- The sample message is sent as it was submitted and reviewed. -/
theorem reviewed_is_sent_approved : ∃ sender p call,
    (dispatching ports).machine.Run (idle waitingStore) sendLabels p ∧ p.shared.sent = [call] ∧
    materializeProviderMail ports (submit.mail sender) = .ok call.mail ∧
    ∃ approval job message, reviewApproval waitingStore waitingStore waitingStore "token-1" 1500 =
      .ok (.available approval job message) ∧ message.ShowsSubmitted submit sender := by
  obtain ⟨p, call, hrun, hsent, hid, -⟩ := sample_sends
  obtain ⟨r, s', hresult, hcreated, hjob⟩ := submit_created
  obtain ⟨identity, fromAddress, -, hlater⟩ :=
    reviewed_is_sent idle_mailbox_reachable hresult hcreated
  -- the owner sees the message while its approval is pending
  have hreview : ∃ approval job message,
      reviewApproval waitingStore waitingStore waitingStore "token-1" 1500 =
        .ok (.available approval job message) ∧ job.jobId = "job-1" := by
    have havailable : ((reviewApproval waitingStore waitingStore waitingStore "token-1"
        1500).toOption.any fun
      | .available _ job _ => job.jobId = "job-1"
      | _ => false) = true := by decide +kernel
    cases houtcome : reviewApproval waitingStore waitingStore waitingStore "token-1" 1500 with
    | error e =>
      rw [houtcome] at havailable
      exact absurd havailable (by simp [Except.toOption])
    | ok outcome =>
      rw [houtcome] at havailable
      cases outcome with
      | available approval job message =>
        exact ⟨approval, job, message, rfl, by simpa [Except.toOption] using havailable⟩
      | notFound => exact absurd havailable (by simp [Except.toOption])
      | gone => exact absurd havailable (by simp [Except.toOption])
  obtain ⟨approval, job, message, havailable, hjobId⟩ := hreview
  -- and this is the message that the run hands over
  have hcall : call ∈ p.shared.sent := by
    rw [hsent]
    exact List.mem_singleton_self call
  have hsend := (hlater sendLabels p (.cons _ _ idle_waiting_step hrun)).1 call hcall
    (hid.trans hjob.symm)
  have hshow := (hlater [] (idle waitingStore) (.cons _ _ idle_waiting_step (.nil _))).2.1 [] []
    (idle waitingStore) (idle waitingStore) "token-1" 1500 approval job message (.nil _) (.nil _)
  rw [idle_store] at hshow
  exact ⟨_, p, call, hrun, hsent, hsend, approval, job, message, havailable,
    hshow havailable (hjobId.trans hjob.symm)⟩

end sample

end Umail
