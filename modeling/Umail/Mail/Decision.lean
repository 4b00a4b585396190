import Umail.Account.Deletion
import Umail.Account.Integrity
import Umail.Mail.Review

/-! # The review page and the decision

  A reviewer sees a request on the page of `apps/server/src/api/approval-http.ts`
  and decides about it in the store. The page looks at the approval, its job,
  the live message, its participants and the expiry, the store only at the
  first two and the expiry. They agree because a job that waits for a decision
  keeps a message that can be shown (`Store.Reviewable`): a delete rejects it,
  and every submit stores one sender and a recipient.
-/

namespace Umail

open Relational

/-! ### The decision over HTTP -/

inductive ApprovalDecisionOutcome where
  | notFound
  | gone (state : ApprovalState) (threadId : Option String)
  | redirect (state : ApprovalState)

section decision
variable [Unicode] {s s' : Store}

/-- `decideApproval` of `approval-http.ts`. -/
def ApprovalHttp.decideApproval (s : Store) (tokenHash : String) (decision : Decision)
    (now : Instant) : Except StoreError (ApprovalDecisionOutcome × Store) := do
  match ← Umail.decideApproval s { tokenHash, decision, nowIso := now } with
  | (.missing, s') => return (.notFound, s')
  | (.unavailable, s') => return (.gone .pending none, s')
  | (.resolved state job expiresAt, s') =>
    if expiresAt ≤ now then return (.gone state (job.map (·.threadId)), s')
    else return (.redirect state, s')
  | (.claimed state _, s') => return (.redirect state.state, s')

/-- The state that an answer reports. -/
def ApprovalDecisionOutcome.state? : ApprovalDecisionOutcome → Option ApprovalState
  | .notFound => none
  | .gone state _ => some state
  | .redirect state => some state

/-! ### Messages stay live -/

/-- `deleted_at` is left alone. -/
def KeepsLive (s s' : Store) : Prop :=
  s.messages.Extends (fun m m' => m'.id = m.id ∧ m'.deleted_at = m.deleted_at)
    (fun m => m.deleted_at = none) s'.messages

theorem KeepsLive.of_messages (h : s'.messages = s.messages) : KeepsLive s s' := by
  unfold KeepsLive
  rw [h]
  exact .refl (fun _ => ⟨rfl, rfl⟩) _

theorem KeepsLive.trans {s'' : Store} (h : KeepsLive s s') (h' : KeepsLive s' s'') :
    KeepsLive s s'' :=
  Table.Extends.trans (fun _ _ _ hab hbc => ⟨hbc.1.trans hab.1, hbc.2.trans hab.2⟩)
    (fun _ _ hnew hmove => hmove.2.trans hnew) (fun _ => id) h h'

theorem KeepsLive.linkThread {messageId threadId : String}
    (h : linkThread s messageId = .ok (threadId, s')) : KeepsLive s s' := by
  obtain ⟨self, -, -, survivor, merged, -, -, rfl⟩ := linkThread_ok h
  exact .update rfl (fun _ => ⟨rfl, rfl⟩) fun _ _ _ => ⟨rfl, rfl⟩

theorem KeepsLive.writeThreadedMail {write : ThreadedMailWrite} {r : AcceptMessageResult}
    (h : writeThreadedMail s write = .ok (r, s')) : KeepsLive s s' := by
  obtain ⟨s₁, threadId, hins, hlink, -⟩ := writeThreadedMail_ok h
  refine KeepsLive.trans ?_ (.linkThread hlink)
  refine .append (fun _ => ⟨rfl, rfl⟩) (Table.insert?_rows hins.messages) fun m hm => ?_
  rw [List.mem_singleton.mp hm]
  rfl

/-- Only a delete deletes. -/
theorem Effect.keepsLive (h : Effect s s') :
    (∃ threadId scope deletedAt, s' = deleteLive s threadId scope deletedAt) ∨
      KeepsLive s s' := by
  cases h with
  | peripheral hsame => exact .inr (.of_messages hsame.messages)
  | submitted input ids identity fromAddress needsApproval hsub =>
    obtain ⟨r, s₁, hwrite, hs'⟩ := hsub.written
    exact .inr ((KeepsLive.writeThreadedMail hwrite).trans (.of_messages (by rw [hs'])))
  | accepted_inbound input r receipts hwrite =>
    exact .inr ((KeepsLive.writeThreadedMail hwrite).trans (.of_messages rfl))
  | marked_read threadId isRead scope nowIso =>
    exact .inr (.update rfl (fun _ => ⟨rfl, rfl⟩) fun _ _ _ => ⟨rfl, rfl⟩)
  | deleted threadId scope deletedAt => exact .inl ⟨threadId, scope, deletedAt, rfl⟩
  | completed j input _ _ _ _ hrecord =>
    refine .inr ?_
    -- a delivery may merge threads, which moves messages but deletes none
    rcases recordOutcome_ok hrecord with ⟨rfcMessageId, _, -, hlink⟩ | ⟨_, -, -, rfl⟩ | rfl
    · refine KeepsLive.trans ?_ (.linkThread hlink)
      exact .update rfl (fun _ => ⟨rfl, rfl⟩) fun _ _ _ => ⟨rfl, rfl⟩
    · exact .of_messages rfl
    · exact .of_messages rfl
  | approved | denied | rejected | expired | claimed | settled => exact .inr (.of_messages rfl)

/-! ### Waiting jobs can be reviewed -/

/-- The page can show the content. -/
structure MailContent.Showable (c : MailContent) : Prop where
  outbound : c.direction = .outbound
  sender : c.participants.from.length = 1
  recipient : c.participants.to ≠ []

/-- A job that waits for a decision has a live message that can be shown. -/
def Store.Reviewable (s : Store) : Prop :=
  ∀ j ∈ s.jobs, j.state = .waiting_approval →
    (∃ c, storedContent s j.message_id = some c ∧ c.Showable) ∧
    ∃ m ∈ s.messages, m.id = j.message_id ∧ m.deleted_at = none

theorem Store.Reviewable.empty : Store.empty.Reviewable := fun _ h => absurd h Table.mem_empty

/-- The first contact of a list is kept. -/
theorem dedupeAccountMailContacts_cons_ne (contact : AccountMailContact)
    (contacts : List AccountMailContact) :
    dedupeAccountMailContacts (contact :: contacts) ≠ [] := by
  unfold dedupeAccountMailContacts keepFirst
  rw [if_neg List.not_mem_nil]
  exact List.cons_ne_nil _ _

/-- A submit stores one sender and a recipient. -/
theorem SubmitOutboundInput.content_showable (input : SubmitOutboundInput) (ids : NewSubmissionIds)
    (identity : AccountSendingIdentity) (fromAddress : ExternalMailAddress) :
    (input.content ids identity fromAddress).Showable where
  outbound := rfl
  sender := rfl
  recipient := dedupeAccountMailContacts_cons_ne _ _

/-- A waiting job that was there before the step can still be reviewed. -/
theorem Store.Reviewable.old (hs : s.Reviewable) (h : Effect s s') {j : OutboundJobRow}
    (hold : j ∈ s.jobs) (hj : j ∈ s'.jobs) (hwait : j.state = .waiting_approval) :
    (∃ c, storedContent s' j.message_id = some c ∧ c.Showable) ∧
      ∃ m ∈ s'.messages, m.id = j.message_id ∧ m.deleted_at = none := by
  obtain ⟨⟨c, hc, hshowable⟩, m, hm, hid, hlive⟩ := hs j hold hwait
  refine ⟨⟨c, h.step.evolves.content_eq hc, hshowable⟩, ?_⟩
  rcases h.keepsLive with ⟨threadId, scope, deletedAt, rfl⟩ | hkeeps
  · -- a job of a deleted message would have been rejected
    have hnot : j.message_id ∉ deletedIds s threadId scope := by
      intro hmem
      have hdispatched := deleteLive_dispatched hj hmem
      simp [OutboundJobRow.undispatched, hwait] at hdispatched
    have hnotlive : ¬ liveInThread threadId scope m = true := by
      intro hlive
      exact hnot (hid ▸ (mem_deletedIds hm).mpr hlive)
    refine ⟨m, (Table.mem_of_map rfl).mpr ⟨m, hm, ?_⟩, hid, hlive⟩
    exact if_neg hnotlive
  · obtain ⟨m', hm', hid', hdeleted⟩ := hkeeps.exists_mem hm
    exact ⟨m', hm', hid'.trans hid, hdeleted.trans hlive⟩

/-- A job whose message is new comes from a submit, so that it can be reviewed. -/
theorem reviewable_of_newJob (href : s.Referential) (c : Command) {j : OutboundJobRow}
    (hj : j ∈ (s.exec c).jobs) (hnew : NewJob s (s.exec c) j) :
    (∃ content, storedContent (s.exec c) j.message_id = some content ∧ content.Showable) ∧
      ∃ m ∈ (s.exec c).messages, m.id = j.message_id ∧ m.deleted_at = none := by
  obtain ⟨hfresh, m, hm, hid, -⟩ := hnew
  have hlive : m.deleted_at = none := by
    rcases (exec_effect s c).keepsLive with ⟨threadId, scope, deletedAt, heq⟩ | hkeeps
    · rw [heq] at hm
      rcases (deleteLive_messages (N := fun _ => False) threadId scope deletedAt).mem_cases hm with
        ⟨m₀, hm₀, hev⟩ | hfalse
      · exact absurd (hev.id_eq.symm.trans hid) (hfresh m₀ hm₀)
      · exact hfalse.elim
    · rcases hkeeps.mem_cases hm with ⟨m₀, hm₀, hsame, -⟩ | hlive
      · exact absurd (hsame.symm.trans hid) (hfresh m₀ hm₀)
      · exact hlive
  refine ⟨?_, m, hm, hid, hlive⟩
  -- a job that was there before belongs to a message that was there before
  have hnotold : j ∉ s.jobs := by
    intro hold
    obtain ⟨m₀, hm₀, hid₀, -⟩ := href.jobs j hold
    exact hfresh m₀ hm₀ hid₀
  by_cases hw : c.writesMail = false
  · rcases (exec_noNewMail s hw).messages.mem_cases hm with ⟨m₀, hm₀, hev⟩ | hfalse
    · exact absurd (hev.id_eq.symm.trans hid) (hfresh m₀ hm₀)
    · exact hfalse.elim
  cases c with
  | submitOutbound input ids =>
    have hshow : s.exec (.submitOutbound input ids) =
      committedSnd s (submitOutbound s input ids) := rfl
    rcases committedSnd_cases (s := s) (r := submitOutbound s input ids) with
      heq | ⟨r, s', hok, heq⟩
    · rw [hshow, heq] at hj
      exact absurd hj hnotold
    · rw [hshow, heq] at hj ⊢
      rcases submitOutbound_ok hok with ⟨rfl, -⟩ |
        ⟨-, identity, fromAddress, needsApproval, hsub, -⟩
      · exact absurd hj hnotold
      · have hmessage : j.message_id = ids.messageId := by
          rcases hsub.job_cases hj with hold | rfl | ⟨-, rfl⟩
          · exact absurd hold hnotold
          · rfl
          · rfl
        rw [hmessage]
        exact ⟨_, hsub.content href, input.content_showable ids identity fromAddress⟩
  | acceptInbound input =>
    have hjobs : (s.exec (.acceptInbound input)).jobs = s.jobs := by
      show (committedSnd s (acceptInbound s input)).jobs = s.jobs
      rcases committedSnd_cases (s := s) (r := acceptInbound s input) with heq |
        ⟨r, s', hok, heq⟩
      · rw [heq]
      · rw [heq]
        rcases acceptInbound_ok hok with rfl | ⟨_, -, -, -, r', s₁, hwrite, rfl⟩
        · rfl
        · show s₁.jobs = s.jobs
          rw [writeThreadedMail_frame hwrite]
    exact absurd (hjobs ▸ hj) hnotold
  | _ => exact absurd rfl hw

theorem Store.Reviewable.exec (hs : s.Reviewable) (href : s.Referential) (c : Command) :
    (s.exec c).Reviewable := by
  intro j hj hwait
  rcases (exec_step s c).jobs.mem_cases hj with ⟨j₀, hj₀, hmove⟩ | hnew
  · obtain rfl := hmove.waiting_of hwait
    exact hs.old (exec_effect s c) hj₀ hj hwait
  · exact reviewable_of_newJob href c hj hnew

theorem Store.Reachable.reviewable (h : s.Reachable) : s.Reviewable := by
  refine h.invariant (P := Store.Reviewable) ?_ ?_
  · intro s₀ heq
    obtain rfl := heq
    exact .empty
  · intro s c s' hr hs hstep
    obtain rfl := Option.some.inj hstep
    exact hs.exec (Store.Reachable.referential hr) c

/-! ### The page loads -/

/-- A live message that can be shown is loaded. -/
theorem loadApprovalMessage_isOk (hs : s.Backed) {m : MessageRow} (hm : m ∈ s.messages)
    (hlive : m.deleted_at = none) (hshowable : (m.content s).Showable) :
    ∃ message, loadApprovalMessage s s m.id = .ok (some message) ∧
      message.from.length = 1 ∧ message.to ≠ [] := by
  obtain ⟨job, hjob⟩ := loadOutboundJob_isSome (hs.outbound m hm hshowable.outbound)
  have hdirection : summaryDirection s m = .ok (.outbound job) := by
    unfold summaryDirection
    rw [show m.direction = .outbound from hshowable.outbound]
    simp only [hjob]
  -- the page reads under the scope of every mailbox
  have hscope : m.liveIn .all = true := by simp [MessageRow.liveIn, hlive, mailboxInScope]
  have hsummary : ∃ summary, getMessageSummary s m.id .all = .ok (some summary) ∧
      summary.direction = .outbound job ∧ summary.participants = loadParticipants s m.id := by
    rw [getMessageSummary_live hm hscope, enrichMessageSummary, hdirection]
    exact ⟨_, rfl, rfl, rfl⟩
  have hbody : ∃ body, getMessageBody s m.id .all = some body := by
    rw [getMessageBody, find_message hm]
    exact ⟨_, if_pos hscope⟩
  obtain ⟨summary, hsummary, houtbound, hparticipants⟩ := hsummary
  obtain ⟨body, hbody⟩ := hbody
  have hproject : ∃ message, projectThreadMessage summary body = .outbound message ∧
      message.from = summary.participants.from ∧ message.to = summary.participants.to := by
    unfold projectThreadMessage
    rw [houtbound]
    exact ⟨_, rfl, rfl, rfl⟩
  obtain ⟨message, hmessage, hfrom, hto⟩ := hproject
  have hload : loadApprovalMessage s s m.id = .ok (some message) := by
    simp only [loadApprovalMessage, hsummary, hbody, hmessage, bind, Except.bind]
    rfl
  refine ⟨message, hload, ?_, ?_⟩
  · rw [hfrom, hparticipants]
    exact hshowable.sender
  · rw [hto, hparticipants]
    exact hshowable.recipient

/-! ### Open requests -/

variable {tokenHash : String} {now : Instant}

/-- The request is neither decided nor due. -/
structure Store.Open (s : Store) (a : ApprovalRequestRow) (tokenHash : String) (now : Instant) :
    Prop where
  mem : a ∈ s.approvals
  token : a.token_hash = tokenHash
  pending : a.state = .pending
  in_time : now < a.expires_at

theorem readApprovalByToken_some {a : ApprovalRequestRow}
    (h : readApprovalByToken s tokenHash = some a) : a ∈ s.approvals ∧
      a.token_hash = tokenHash :=
  ⟨Table.find?_mem h, by simpa using Table.find?_prop h⟩

theorem readApprovalByToken_of_mem {a : ApprovalRequestRow} (ha : a ∈ s.approvals) :
    readApprovalByToken s a.token_hash = some a := by
  refine Table.find?_eq_some_of_mem (fun b c hb hc => ?_) ha (by simp)
  simp only [decide_eq_true_eq] at hb hc
  exact .inr (.inr (.inr (hb.trans hc.symm)))

/-- The job and the message of an approval. -/
theorem Store.Reachable.job_of_approval (hr : s.Reachable) {a : ApprovalRequestRow}
    (ha : a ∈ s.approvals) :
    ∃ j ∈ s.jobs, j.id = a.job_id ∧ a.Matches j ∧ ∃ m ∈ s.messages,
      m.id = j.message_id ∧
      readJob s a.job_id = some { row := j, thread_id := m.thread_id } := by
  have href : s.Referential := hr.referential
  obtain ⟨j, hj, hid⟩ := href.approvals a ha
  obtain ⟨m, hm, hmid, -⟩ := href.jobs j hj
  exact ⟨j, hj, hid, hr.coupled.matched a ha j hj hid, m, hm, hmid,
    hid ▸ readJob_of_mem hj hm hmid⟩

/-- **The page.** It offers exactly the open requests. -/
theorem reviewApproval_offers_iff (hr : s.Reachable) :
    (∃ approval job message,
      reviewApproval s s s tokenHash now = .ok (.available approval job message) ∧
        approval.state = .pending) ↔ ∃ a, s.Open a tokenHash now := by
  constructor
  · intro ⟨a, job, message, hreview, hpending⟩
    obtain ⟨hread, -, hdue, -⟩ := reviewApproval_available.mp hreview
    obtain ⟨ha, htoken⟩ := readApprovalByToken_some hread
    exact ⟨a, ha, htoken, hpending, hdue⟩
  · intro ⟨a, hopen⟩
    -- the pending approval has its job, and that its message, live and readable
    obtain ⟨j, hj, hid, hmatches, m, hm, hmid, hread⟩ := hr.job_of_approval hopen.mem
    have hwait := hmatches.pending hopen.pending
    obtain ⟨⟨c, hc, hshowable⟩, m', hm', hmid', hlive⟩ := hr.reviewable j hj hwait
    obtain rfl : m' = m := s.messages.eq_of_clash hm' hm (hmid'.trans hmid.symm)
    rw [← hmid, storedContent_of_mem hm] at hc
    obtain rfl := Option.some.inj hc
    obtain ⟨message, hload, hfrom, hto⟩ := loadApprovalMessage_isOk hr.backed hm hlive hshowable
    refine ⟨a, _, message, reviewApproval_available.mpr
      ⟨hopen.token ▸ readApprovalByToken_of_mem hopen.mem, ⟨_, hread, rfl⟩, hopen.in_time,
        ?_, ?_, ?_⟩,
      hopen.pending⟩
    · rw [hopen.pending]
      rfl
    · show loadApprovalMessage s s j.message_id = _
      rw [← hmid]
      exact hload
    · have hstate : (toOutboundJob { row := j, thread_id := m'.thread_id }).state =
        .waiting_approval := hwait
      simp [messageMatchesApproval, hfrom, hto, hopen.pending, hstate]

/-! ### Deciding -/

/-- The approval of a decided request. -/
theorem applyDecision_approval {a : ApprovalRequestRow} {messageId : String} {decision : Decision}
    (ha : a ∈ s.approvals) (hpending : a.state = .pending) :
    a.resolve decision.state now ∈ (applyDecision s a messageId decision now).approvals := by
  have hresolved : a.resolve decision.state now ∈
      (resolveApproval s a.id decision.state now).approvals := by
    refine (Table.mem_of_map rfl).mpr ⟨a, ha, ?_⟩
    exact if_pos (by simp [hpending])
  cases decision with
  | approved => exact hresolved
  | denied =>
    -- the rejection that follows cancels pending approvals only
    obtain ⟨a', ha', hev⟩ := (rejectUndispatched_approvals (N := fun _ => False) [messageId]
      { failureClass := .denied, failureDetail := none } now).exists_mem hresolved
    have hsame : a' = a.resolve Decision.denied.state now :=
      hev.resolved (by simp [ApprovalRequestRow.resolve, Decision.state])
    exact hsame ▸ ha'

/-- A decision on an open request is one step of the store. -/
theorem applyDecision_effect {a : ApprovalRequestRow} {j : OutboundJobRow} (decision : Decision)
    (ha : s.Open a tokenHash now) (hj : j ∈ s.jobs) (hid : j.id = a.job_id)
    (hwait : j.state = .waiting_approval) :
    Effect s (applyDecision s a j.message_id decision now) := by
  cases decision with
  | approved => exact .approved a j now ha.mem ha.pending ha.in_time hj hid hwait
  | denied => exact .denied a j now ha.mem ha.pending ha.in_time hj hid hwait

/-- **The store.** It claims a decision exactly on the open requests. -/
theorem decideApproval_claimed_iff (hr : s.Reachable) (decision : Decision)
    {claimed : Decision} {s' : Store} :
    (∃ job, decideApproval s { tokenHash, decision, nowIso := now } =
        .ok (.claimed claimed job, s')) ↔
      claimed = decision ∧ ∃ a j, s.Open a tokenHash now ∧ j ∈ s.jobs ∧
        j.id = a.job_id ∧
        j.state = .waiting_approval ∧ s' = applyDecision s a j.message_id decision now := by
  constructor
  · intro ⟨job, h⟩
    unfold decideApproval at h
    split at h
    · exact absurd h (by simp)
    next a ha =>
    split at h
    · exact absurd h (by simp [resolvedDecision])
    next hpending =>
    split at h
    · exact absurd h (by simp)
    next j hj =>
    split at h
    · exact absurd h (by simp)
    next hdue =>
    simp only [Bool.or_eq_true, decide_eq_true_eq, not_or, not_le, not_not] at hdue
    obtain ⟨job', -, h⟩ := bind_eq_ok.mp h
    obtain ⟨hclaimed, rfl⟩ := ok_pair_inj h
    obtain ⟨hmem, htoken⟩ := readApprovalByToken_some ha
    obtain ⟨hrow, hid, -⟩ := readJob_some hj
    refine ⟨(ApprovalDecisionResult.claimed.inj hclaimed).1.symm, a, j.row, ?_, hrow, hid,
      hdue.2, rfl⟩
    exact ⟨hmem, htoken, not_not.mp hpending, hdue.1⟩
  · rintro ⟨rfl, a, j, hopen, hj, hid, hwait, rfl⟩
    obtain ⟨m, hm, hmid, -⟩ := hr.referential.jobs j hj
    have hread : readJob s a.job_id = some { row := j, thread_id := m.thread_id } :=
      hid ▸ readJob_of_mem hj hm hmid
    -- the job and its message are still there after the decision
    have hlater := (applyDecision_effect claimed hopen hj hid hwait).step
    obtain ⟨j', hj', hmove⟩ := hlater.jobs.exists_mem hj
    obtain ⟨m', hm', hmev⟩ := hlater.messages.exists_mem hm
    have hid' : j'.id = a.job_id := by
      rw [hmove.request]
      exact hid
    have hmessage : m'.id = j'.message_id := by
      rw [hmev.id_eq, hmove.request]
      exact hmid
    have hrequire : requireJob (applyDecision s a j.message_id claimed now) a.job_id =
        .ok { row := j', thread_id := m'.thread_id } := by
      rw [requireJob, ← hid', readJob_of_mem hj' hm' hmessage]
    refine ⟨toOutboundJob { row := j', thread_id := m'.thread_id }, ?_⟩
    unfold decideApproval
    simp only [← hopen.token, readApprovalByToken_of_mem hopen.mem, hopen.pending, ne_eq,
      not_true_eq_false, if_false, hread, hwait, decide_false, Bool.or_false,
      not_le.mpr hopen.in_time, hrequire]
    rfl

/-- A decided request is reported, whatever is decided later. -/
theorem decideApproval_resolved (hr : s.Reachable) {a : ApprovalRequestRow} (ha : a ∈ s.approvals)
    (hresolved : a.state ≠ .pending) (decision : Decision) :
    ∃ job, decideApproval s { tokenHash := a.token_hash, decision, nowIso := now } =
      .ok (.resolved a.state (some job) a.expires_at, s) := by
  obtain ⟨j, -, -, -, m, -, -, hread⟩ := hr.job_of_approval ha
  refine ⟨toOutboundJob { row := j, thread_id := m.thread_id }, ?_⟩
  unfold decideApproval
  simp only [readApprovalByToken_of_mem ha, ne_eq, hresolved, not_false_eq_true, if_true,
    resolvedDecision, hread]
  rfl

/-- **The review page and the decision agree.** The page offers a request
    exactly when a decision of either kind would be applied. After one was
    applied, every later decision reports it, over the store and over HTTP, and
    changes nothing, whatever happens in between. -/
theorem review_and_decision_agree (hr : s.Reachable) (tokenHash : String) (now : Instant)
    (decision : Decision) :
    ((∃ approval job message,
        reviewApproval s s s tokenHash now = .ok (.available approval job message) ∧
          approval.state = .pending) ↔
      ∃ claimed job s', decideApproval s { tokenHash, decision, nowIso := now } =
        .ok (.claimed claimed job, s')) ∧
    ∀ claimed job s', decideApproval s { tokenHash, decision, nowIso := now } =
        .ok (.claimed claimed job, s') →
      claimed = decision ∧
      ApprovalHttp.decideApproval s tokenHash decision now =
        .ok (.redirect decision.state, s') ∧
      ∀ cs s'', accountStore.Run s' cs s'' → ∀ later laterNow,
        (∃ job' expiresAt,
          decideApproval s'' { tokenHash, decision := later, nowIso := laterNow } =
            .ok (.resolved decision.state (some job') expiresAt, s'')) ∧
        ∃ outcome, ApprovalHttp.decideApproval s'' tokenHash later laterNow =
          .ok (outcome, s'') ∧
          outcome.state? = some decision.state := by
  refine ⟨?_, ?_⟩
  · -- both sides are offered exactly for an open approval, whose job waits
    rw [reviewApproval_offers_iff hr]
    constructor
    · intro ⟨a, hopen⟩
      obtain ⟨j, hj, hid, hmatches, -⟩ := hr.job_of_approval hopen.mem
      have hwait := hmatches.pending hopen.pending
      obtain ⟨job, hclaimed⟩ := (decideApproval_claimed_iff hr decision).mpr
        ⟨rfl, a, j, hopen, hj, hid, hwait, rfl⟩
      exact ⟨decision, job, _, hclaimed⟩
    · intro ⟨claimed, job, s', hclaimed⟩
      obtain ⟨-, a, j, hopen, -⟩ := (decideApproval_claimed_iff hr decision).mp
          ⟨job, hclaimed⟩
      exact ⟨a, hopen⟩
  · intro claimed job s' hclaimed
    obtain ⟨rfl, a, j, hopen, hj, hid, hwait, rfl⟩ :=
      (decideApproval_claimed_iff hr decision).mp ⟨job, hclaimed⟩
    have hresolved : a.resolve claimed.state now ∈
        (applyDecision s a j.message_id claimed now).approvals :=
      applyDecision_approval hopen.mem hopen.pending
    -- the decision is itself a command, so what follows runs from a reachable store
    have hr' : (applyDecision s a j.message_id claimed now).Reachable := by
      have hexec : s.exec (.decideApproval { tokenHash, decision := claimed, nowIso := now }) =
          applyDecision s a j.message_id claimed now := by
        show committedSnd s (decideApproval s _) = _
        rw [hclaimed]
        rfl
      exact hexec ▸ hr.exec _
    refine ⟨rfl, ?_, ?_⟩
    · unfold ApprovalHttp.decideApproval
      rw [hclaimed]
      rfl
    · intro cs s'' hrun later laterNow
      have hstate : (a.resolve claimed.state now).state ≠ .pending := by
        cases claimed <;> exact nofun
      have hmem := (run_evolves hrun).approval_mem hresolved hstate
      have hlater : ∃ job', decideApproval s''
          { tokenHash, decision := later, nowIso := laterNow } =
            .ok (.resolved claimed.state (some job') a.expires_at, s'') :=
        hopen.token ▸ decideApproval_resolved (hrun.reachable hr') hmem hstate later
      obtain ⟨job', hlater⟩ := hlater
      refine ⟨⟨job', a.expires_at, hlater⟩, ?_⟩
      unfold ApprovalHttp.decideApproval
      rw [hlater]
      by_cases hdue : a.expires_at ≤ laterNow
      · exact ⟨.gone claimed.state (some job'.threadId), if_pos hdue, rfl⟩
      · exact ⟨.redirect claimed.state, if_neg hdue, rfl⟩

end decision

section sample
open Sample

/-- The sample request is offered, and a denial of it is applied and stays. -/
theorem review_and_decision_agree_waiting :
    (∃ approval job message, reviewApproval waitingStore waitingStore waitingStore
      "token-1" 1500 =
        .ok (.available approval job message) ∧ approval.state = .pending) ∧
      ∃ job s', decideApproval waitingStore
          { tokenHash := "token-1", decision := .denied, nowIso := 1500 } =
            .ok (.claimed .denied job, s') ∧
        ∃ job' expiresAt, decideApproval s'
            { tokenHash := "token-1", decision := .approved, nowIso := 1600 } =
              .ok (.resolved .denied (some job') expiresAt, s') := by
  -- the review and the decision of one sample request
  obtain ⟨hagree, happlied⟩ :=
    review_and_decision_agree waitingStore_reachable "token-1" 1500 .denied
  have hclaimed : ∃ job s', decideApproval waitingStore
      { tokenHash := "token-1", decision := .denied, nowIso := 1500 } =
        .ok (.claimed .denied job, s') := by
    have hdecide : ((decideApproval waitingStore
        { tokenHash := "token-1", decision := .denied, nowIso := 1500 }).toOption.any fun
      | (.claimed .denied _, _) => true
      | _ => false) = true := by decide +kernel
    obtain ⟨⟨r, s'⟩, hok, hr⟩ := (Option.any_eq_true _ _).mp hdecide
    have hok := ok_of_toOption hok
    split at hr
    · next job _ heq =>
      obtain ⟨rfl, rfl⟩ := Prod.mk.inj heq
      exact ⟨job, _, hok⟩
    · exact absurd hr (by simp)
  obtain ⟨job, s', hclaimed⟩ := hclaimed
  refine ⟨hagree.mpr ⟨_, _, _, hclaimed⟩, job, s', hclaimed, ?_⟩
  exact ((happlied _ _ _ hclaimed).2.2 [] s' (.nil s') .approved 1600).1

end sample

end Umail
