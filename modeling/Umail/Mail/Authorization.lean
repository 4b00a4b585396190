import Umail.Account.Coupling
import Umail.Mail.SendLog

/-! # Sends are authorized

  Authorization is evaluated at submit and again by the claim, over data that
  may change in between. Only the second evaluation counts: whatever was sent
  was authorized in the store in which its claim committed, under the policy
  that was looked up for that dispatch.
-/

namespace Umail

open Relational

section authorization
variable [Unicode]

/-! ### What an authorization says -/

/-- The allowlist admits the address. -/
def PrincipalRecipientAllowlist.Admits : PrincipalRecipientAllowlist → String → Prop
  | .any, _ => True
  | .only first rest, address => ∃ a ∈ first :: rest, a.val = address

/-- The recipients of a mail, to and cc. -/
def OutboundMail.recipients (mail : OutboundMail) : List String := mail.to ++ mail.cc

/-- The mailbox may send: active, not retired, and on a sending domain. -/
def Store.MaySend (s : Store) (mailboxId : String) : Prop :=
  ∃ a ∈ s.addresses, a.id = mailboxId ∧ a.active = true ∧ a.retired_at = none ∧
    a.send_enabled = true

/-- The message has an approval that was given before it expired. -/
def Store.Approved (s : Store) (messageId : String) : Prop :=
  ∃ a, s.ApprovalOf a messageId ∧ a.state = .approved ∧
    ∃ t, a.resolved_at = some t ∧ t < a.expires_at

/-- The policy lets the mail of a message go out in store `s`. -/
structure PrincipalPolicy.Permits (policy : PrincipalPolicy) (s : Store) (m : MessageRow)
    (mail : OutboundMail) : Prop where
  covers : mailboxInPolicy policy.mailboxIds m.mailbox_id = true
  sends : policy.sendMode ≠ .deny
  allowlisted : ∀ address ∈ mail.recipients, policy.recipientAllowlist.Admits address
  supervised : policy.sendMode = .allow ∨
    (∃ preapproved, policy.sendMode = .requireApproval preapproved ∧
      ∀ address ∈ mail.recipients, ∃ a ∈ preapproved, a.val = address) ∨
    s.Approved m.id

/-! ### Checks -/

variable {s s' : Store} {j : OutboundJobRow} {recipients : List AccountMailContact}

theorem recipientsOutside_eq_nil {addresses : List ExternalMailAddress}
    (h : recipientsOutside addresses recipients = []) :
    ∀ r ∈ recipients, ∃ a ∈ addresses, a.val = r.address.val := by
  intro r hr
  have hnone := List.filter_eq_nil_iff.mp (List.map_eq_nil_iff.mp h) r hr
  have hmem : comparisonKey r.address ∈ addresses.map comparisonKey := by simpa using hnone
  exact List.mem_map.mp hmem

theorem recipientsNotAllowed_eq_nil {allowlist : PrincipalRecipientAllowlist}
    (h : recipientsNotAllowed allowlist recipients = []) :
    ∀ r ∈ recipients, allowlist.Admits r.address.val := by
  cases allowlist with
  | any => exact fun _ _ => trivial
  | only first rest => exact recipientsOutside_eq_nil h

/-- An authorization that is not denied: the policy covers the mailbox, may
    send, and admits every recipient. -/
theorem authorizeOutbound_not_denied {policy : Option PrincipalPolicy} {mailboxId : String}
    (h : ∀ reason addresses,
      authorizeOutbound policy mailboxId recipients ≠ .denied reason addresses) :
    ∃ p, policy = some p ∧ mailboxInPolicy p.mailboxIds mailboxId = true ∧
      p.sendMode ≠ .deny ∧
      recipientsNotAllowed p.recipientAllowlist recipients = [] := by
  -- every other branch of the source denies
  unfold authorizeOutbound at h
  split at h
  · exact absurd rfl (h _ _)
  · next p =>
    split at h
    · exact absurd rfl (h _ _)
    · next hcovers =>
      split at h
      · exact absurd rfl (h _ _)
      · next hallow =>
        split at h
        · next hnil => exact ⟨p, rfl, by simpa using hcovers, by simp [hallow], hnil⟩
        · exact absurd rfl (h _ _)
      · next preapproved hsupervised =>
        split at h
        · next hnil => exact ⟨p, rfl, by simpa using hcovers, by simp [hsupervised], hnil⟩
        · exact absurd rfl (h _ _)

/-- A send that needs no approval is allowed, or goes to preapproved recipients. -/
theorem authorizeOutbound_allow {p : PrincipalPolicy} {mailboxId : String}
    (h : authorizeOutbound (some p) mailboxId recipients = .allow) :
    p.sendMode = .allow ∨ ∃ preapproved, p.sendMode = .requireApproval preapproved ∧
      recipientsOutside preapproved recipients = [] := by
  unfold authorizeOutbound at h
  simp only at h
  split at h
  · exact absurd h (by simp)
  · split at h
    · exact absurd h (by simp)
    · next hallow => exact .inl hallow
    · next preapproved hsupervised =>
      split at h
      · split at h
        · next hinside => exact .inr ⟨preapproved, hsupervised, List.isEmpty_iff.mp hinside⟩
        · exact absurd h (by simp)
      · exact absurd h (by simp)

theorem resolveSendingIdentity_some {mailboxId : String} {identity : AccountSendingIdentity}
    (h : resolveSendingIdentity s mailboxId = some identity) :
    s.MaySend mailboxId ∧ identity.id = mailboxId := by
  obtain ⟨a, hfind, rfl⟩ := Option.map_eq_some_iff.mp h
  have ha := Table.find?_prop hfind
  simp only [AddressRow.sendable, Bool.and_eq_true, decide_eq_true_eq,
    Option.isNone_iff_eq_none] at ha
  obtain ⟨hid, ⟨hactive, hretired⟩, henabled⟩ := ha
  exact ⟨⟨a, Table.find?_mem hfind, hid, hactive, hretired, henabled⟩, hid⟩

/-- What the recheck of a claim establishes. -/
theorem claimRejection_eq_none {policy : Option PrincipalPolicy}
    (h : claimRejection s j policy = none) :
    s.MaySend j.mailbox_id ∧ ∃ p, policy = some p ∧
      mailboxInPolicy p.mailboxIds j.mailbox_id = true ∧ p.sendMode ≠ .deny ∧
      recipientsNotAllowed p.recipientAllowlist (storedRecipients s j.message_id) = [] ∧
      (authorizeOutbound policy j.mailbox_id (storedRecipients s j.message_id) = .allow ∨
        (j.purpose = .message →
          (readApprovalByJob s j.id).map (·.state) = some .approved)) := by
  unfold claimRejection at h
  split at h
  · exact absurd h (by simp)
  · next identity hidentity =>
    refine ⟨(resolveSendingIdentity_some hidentity).1, ?_⟩
    -- a denial is a rejection
    have hnot : ∀ reason addresses, authorizeOutbound policy j.mailbox_id
        (storedRecipients s j.message_id) ≠ .denied reason addresses := by
      intro reason addresses heq
      simp [heq] at h
    obtain ⟨p, hp, hcovers, hsends, hnil⟩ := authorizeOutbound_not_denied hnot
    refine ⟨p, hp, hcovers, hsends, hnil, ?_⟩
    split at h
    · exact absurd h (by simp)
    · next hallow => exact .inl hallow
    · split at h
      · exact absurd h (by simp)
      · -- what the policy asks an approval for has one, unless it is a notification
        next happroved =>
        refine .inr ?_
        intro hpurpose
        simpa [hpurpose] using happroved

/-! ### What was sent was authorized -/

variable {ports : DispatchPorts} {p q : Lts.Pool MailState Dispatch} {call : SendCall}

/-- The recipients a claim checks are those of the mail that was prepared. -/
theorem MailContent.mail_recipients {c : MailContent} {raw mail : OutboundMail}
    (hraw : c.mail = some raw) (hmail : materializeProviderMail ports raw = .ok mail)
    {address : String} (h : address ∈ mail.recipients) :
    ∃ r ∈ c.participants.to ++ c.participants.cc, r.address.val = address := by
  have hfields := materializeProviderMail_ok hmail
  obtain ⟨sender, -, rfl⟩ := Option.map_eq_some_iff.mp hraw
  rw [hfields, OutboundMail.recipients, ← List.map_append] at h
  exact List.mem_map.mp h

/-- **Frozen approvals.** An approval of a job that was sent is approved in the
    store of the claim, and was given before it expired. -/
theorem SendCall.ClaimOf.approved (h : call.ClaimOf ports j)
    (hr : call.claimedIn.Reachable) {a : ApprovalRequestRow}
    (ha : a ∈ call.claimedIn.approvals) (hlink : a.job_id = j.id) :
    a.state = .approved ∧ ∃ t, a.resolved_at = some t ∧ t < a.expires_at := by
  have hs := Store.Reachable.coupled hr
  have hmatch := hs.matched a ha j h.mem hlink.symm
  have happroved : a.state = .approved := by
    cases hstate : a.state with
    | approved => rfl
    | pending => exact absurd (hmatch.pending hstate) (by simp [h.in_flight])
    | denied => exact absurd (hmatch.refused (by rw [hstate]; rfl)).1 (by simp [h.in_flight])
    | expired => exact absurd (hmatch.refused (by rw [hstate]; rfl)).1 (by simp [h.in_flight])
    | cancelled => exact absurd (hmatch.refused (by rw [hstate]; rfl)).1 (by simp [h.in_flight])
  exact ⟨happroved, (hs.dated a ha).in_time happroved⟩

theorem SendCall.Sound.permitted (h : call.Sound ports s)
    (hpurpose : call.job.purpose = .message) :
    ∃ m ∈ call.claimedIn.messages, m.id = call.job.messageId ∧
      call.claimedIn.MaySend m.mailbox_id ∧
      ∃ policy, call.policy = some policy ∧ policy.Permits call.claimedIn m call.mail := by
  obtain ⟨j, hclaim⟩ := h.claim
  obtain ⟨thread_id, hjob⟩ := hclaim.job
  have hjpurpose : j.purpose = .message := by
    rw [hjob] at hpurpose
    exact hpurpose
  obtain ⟨m, hm, hid, hmailbox⟩ := (Store.Reachable.referential h.reachable).jobs j hclaim.mem
  obtain ⟨hsend, policy, hpolicy, hcovers, hmode, hallowed, hauth⟩ :=
    claimRejection_eq_none hclaim.authorized
  obtain ⟨c, raw, hc, hraw, hmail⟩ := hclaim.mail hjpurpose
  obtain ⟨m', hm', hid', rfl⟩ := storedContent_some hc
  obtain rfl : m' = m := call.claimedIn.messages.eq_of_clash hm' hm (hid'.trans hid.symm)
  -- the recipients of the mail are the stored ones
  have hstored : ∀ address ∈ call.mail.recipients,
      ∃ r ∈ storedRecipients call.claimedIn j.message_id, r.address.val = address := by
    intro address haddress
    obtain ⟨r, hr, hraddress⟩ := MailContent.mail_recipients hraw hmail haddress
    refine ⟨r, ?_, hraddress⟩
    rw [storedRecipients, ← hid']
    exact hr
  rw [← hmailbox] at hsend hcovers
  refine ⟨m', hm, by rw [hjob]; exact hid, hsend, policy, hpolicy, hcovers, hmode, ?_, ?_⟩
  · intro address haddress
    obtain ⟨r, hr, rfl⟩ := hstored address haddress
    exact recipientsNotAllowed_eq_nil hallowed r hr
  · rcases hauth with hallow | happroved
    · rw [hpolicy] at hallow
      rcases authorizeOutbound_allow hallow with hallow | ⟨preapproved, hmode, hinside⟩
      · exact .inl hallow
      · refine .inr (.inl ⟨preapproved, hmode, fun address haddress => ?_⟩)
        obtain ⟨r, hr, rfl⟩ := hstored address haddress
        exact recipientsOutside_eq_nil hinside r hr
    · obtain ⟨a, hread, -⟩ := Option.map_eq_some_iff.mp (happroved hjpurpose)
      obtain ⟨ha, hlink⟩ := readApprovalByJob_some hread
      exact .inr (.inr ⟨a, ⟨ha, j, hclaim.mem, hlink.symm, hid.symm⟩,
        hclaim.approved h.reachable ha hlink⟩)

/-- The approval of a submit, when one was required. -/
theorem submitOutbound_approval {input : SubmitOutboundInput} {ids : NewSubmissionIds}
    {r : SubmitOutboundResult} (h : submitOutbound s input ids = .ok (r, s'))
    (hcreated : r.created = true)
    (hrequired : authorizeOutbound (some input.policy) input.mailboxId (submitRecipients input) =
      .require_approval) :
    r.job.jobId = ids.jobId ∧ r.approval = some (newApprovalRow input ids) ∧
      newApprovalRow input ids ∈ s'.approvals := by
  rcases submitOutbound_ok h with ⟨-, hreplayed⟩ |
    ⟨-, identity, fromAddress, needsApproval, hsub, ⟨job, hjob, hrjob⟩, happroval⟩
  · exact absurd hcreated (by simp [hreplayed])
  · -- the sender was resolved from the mailbox that the policy is asked about
    have hidentity : identity.id = input.mailboxId := by
      have hsender := hsub.sender
      unfold submitSender at hsender
      split at hsender
      · exact absurd hsender (by simp)
      · next identity' hresolve =>
        obtain ⟨parsed, -, hpair⟩ := Option.map_eq_some_iff.mp hsender
        obtain ⟨rfl, -⟩ := Prod.mk.inj hpair
        exact (resolveSendingIdentity_some hresolve).2
    -- the submit asked the same question and got the same answer
    have hneeds : needsApproval = true := by
      have hauth := hsub.authorized
      rw [hidentity, hrequired] at hauth
      cases needsApproval with
      | true => rfl
      | false => exact absurd hauth (by simp)
    have hmem : newApprovalRow input ids ∈ s'.approvals := by
      rw [← Table.mem_rows, hsub.approvals, hneeds]
      exact List.mem_append_right _ List.mem_cons_self
    refine ⟨?_, ?_, hmem⟩
    · rw [hrjob]
      exact (readJob_some hjob).2.1
    · rw [happroval]
      exact readApprovalByJob_of_mem hmem

/-- **Send authorization.** Whatever message is handed to the provider was
    permitted in the store of its claim under the policy of its dispatch. A
    message whose submit required an approval is only ever sent with that
    approval given in time. -/
theorem sends_are_authorized (h : (dispatching ports).machine.Reachable p) :
    (∀ call ∈ p.shared.sent, call.job.purpose = .message →
      ∃ m ∈ call.claimedIn.messages, m.id = call.job.messageId ∧
        call.claimedIn.MaySend m.mailbox_id ∧
        ∃ policy, call.policy = some policy ∧ policy.Permits call.claimedIn m call.mail) ∧
    (∀ input ids r s', submitOutbound p.shared.store input ids = .ok (r, s') →
      r.created = true →
      authorizeOutbound (some input.policy) input.mailboxId (submitRecipients input) =
        .require_approval →
      ∃ a, r.approval = some a ∧
        ∀ ls q, (dispatching ports).machine.Run p (.env (.submitOutbound input ids) :: ls) q →
          ∀ call ∈ q.shared.sent, call.jobId = r.job.jobId →
            ∃ a' ∈ call.claimedIn.approvals, a'.id = a.id ∧ a'.job_id = call.jobId ∧
              a'.state = .approved ∧ ∃ t, a'.resolved_at = some t ∧ t < a'.expires_at) := by
  refine ⟨fun call hcall => ((dispatching_sound h).calls call hcall).permitted, ?_⟩
  intro input ids r s' hsubmit hcreated hrequired
  obtain ⟨hjobId, hreturned, hmem⟩ := submitOutbound_approval hsubmit hcreated hrequired
  refine ⟨_, hreturned, ?_⟩
  intro ls q hrun call hcall hid
  have hsound := (dispatching_sound (hrun.reachable h)).calls call hcall
  obtain ⟨j, hclaim⟩ := hsound.claim
  cases hrun with
  | cons _ _ hstep hrest =>
    -- the approval exists from the submit on
    have hexec : p.shared.store.exec (.submitOutbound input ids) = s' := by
      simp [Store.exec, committedSnd, committed, hsubmit, Except.map]
    obtain rfl := Option.some.inj hstep
    have hstore : (newApprovalRow input ids) ∈
        (p.shared.store.exec (.submitOutbound input ids)).approvals := hexec ▸ hmem
    obtain ⟨a, ha, hev⟩ := (dispatching_evolves hrest).approvals.exists_mem hstore
    have hjob : a.job_id = call.jobId := by
      rw [hev.columns, hid, hjobId]
      rfl
    -- and it is older than the claim, since its job was claimed
    rcases hsound.later.approvals.mem_cases ha with ⟨a', ha', hev'⟩ | ⟨hfresh, -⟩
    · have hlink : a'.job_id = j.id := by
        rw [hclaim.id_eq, ← hjob, hev'.columns]
      refine ⟨a', ha', ?_, hlink.trans hclaim.id_eq, hclaim.approved hsound.reachable ha' hlink⟩
      have hid' : a.id = a'.id := by rw [hev'.columns]
      rw [← hid', hev.columns]
    · exact absurd (hclaim.id_eq.trans hjob.symm) (hfresh j hclaim.mem)

end authorization

section sample
open Sample

/-- The sample message is only sent because it was approved. -/
theorem sends_are_authorized_approved : ∃ p call,
    (dispatching ports).machine.Run (idle waitingStore) sendLabels p ∧ call ∈ p.shared.sent ∧
    (∃ m ∈ call.claimedIn.messages, m.id = call.job.messageId ∧
      call.claimedIn.MaySend m.mailbox_id ∧
      ∃ policy, call.policy = some policy ∧ policy.Permits call.claimedIn m call.mail) ∧
    ∃ a ∈ call.claimedIn.approvals, a.state = .approved := by
  obtain ⟨p, call, hrun, hsent, hid, hpurpose⟩ := sample_sends
  have hcall : call ∈ p.shared.sent := by
    rw [hsent]
    exact List.mem_singleton_self call
  have hsends :=
    (sends_are_authorized (hrun.reachable idle_waiting_reachable)).1 call hcall hpurpose
  obtain ⟨r, s', hresult, hcreated, hjob⟩ := submit_created
  obtain ⟨a, -, happroved⟩ := (sends_are_authorized idle_mailbox_reachable).2 submit ids r s'
      hresult
    hcreated (by decide +kernel)
  obtain ⟨a', ha', -, -, hstate, -⟩ := happroved sendLabels p (.cons _ _ idle_waiting_step hrun)
    call hcall (hid.trans hjob.symm)
  exact ⟨p, call, hrun, hcall, hsends, a', ha', hstate⟩

end sample

end Umail
