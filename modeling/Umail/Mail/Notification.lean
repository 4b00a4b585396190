import Umail.Account.Coupling
import Umail.Mail.SendLog

/-! # An approved message and its notification

  The message job and the notification job of an approval share one message,
  and `rejectUndispatched` works by message. A notification that is given up
  after the decision therefore takes the approved message with it, as long as
  that is still `ready`. Any other step of the notification leaves the message
  job alone, and so does everything but the steps of that job, a delete of the
  message and the settlement of an abandoned claim.
-/

namespace Umail

open Relational

section notification
variable [Unicode]

/-! ### Who steps -/

/-- The command a dispatch runs next, if any. -/
def Dispatch.command (d : Dispatch) : Option Command :=
  match d.point with
  | .rejecting dispatch detail =>
    some (.rejectUndispatched [dispatch.job.messageId]
      { failureClass := .policy, failureDetail := some detail } d.nowMs)
  | .claiming _ _ policy attemptId => some (.claimJob (d.claimInput policy attemptId))
  | .completing call outcome => some (.completeAttempt (d.completeInput call outcome))
  | _ => none

abbrev DispatchLabel : Type := Lts.PoolLabel Command (String × Instant) DispatchReply

/-- The command a step of the pool runs, if any. -/
def stepCommand (p : Lts.Pool MailState Dispatch) : DispatchLabel → Option Command
  | .env c => some c
  | .step pid _ => (p.procs pid).bind Dispatch.command
  | _ => none

/-- The step is one of a dispatch, a claim or a completion of this job. -/
def StepsFor (p : Lts.Pool MailState Dispatch) (l : DispatchLabel) (jobId : String) : Prop :=
  match l with
  | .step pid _ => ∃ d, p.procs pid = some d ∧ d.jobId = jobId
  | .env (.claimJob input) => input.jobId = jobId
  | .env (.completeAttempt input) => input.jobId = jobId
  | _ => False

/-- The job is an approval notification of the message. -/
def Store.NotificationOf (s : Store) (jobId messageId : String) : Prop :=
  ∃ n ∈ s.jobs, n.id = jobId ∧ n.purpose = .approval_notification ∧ n.message_id = messageId

/-- The job of the claim is ready, and refused. -/
def Store.RefusesClaim (s : Store) (input : ClaimJobInput) : Prop :=
  ∃ n ∈ s.jobs, n.id = input.jobId ∧ n.state = .ready ∧
    claimRejection s n input.policy ≠ none

/-- The outcome is a rejection of the claimed attempt. -/
def Store.RecordsRejection (s : Store) (input : CompleteAttemptInput) : Prop :=
  (∃ detail, input.outcome = .rejected detail) ∧ ∃ n ∈ s.jobs, input.claims n = true

/-- The command gives up on what it is about. -/
def Command.GivesUp (s : Store) : Command → Prop
  | .claimJob input => s.RefusesClaim input
  | .completeAttempt input => s.RecordsRejection input
  | .rejectUndispatched _ _ _ => True
  | _ => False

/-- A step that gives up on a notification of the message, or rejects by
    message id, while the job of the message is ready. -/
def TakesAlong (p : Lts.Pool MailState Dispatch) (l : DispatchLabel) (jobId messageId : String) :
    Prop :=
  (∃ k ∈ p.shared.store.jobs, k.id = jobId ∧ k.state = .ready) ∧
  ∃ c, stepCommand p l = some c ∧ c.GivesUp p.shared.store ∧
    ((∃ notificationId, StepsFor p l notificationId ∧
        p.shared.store.NotificationOf notificationId messageId) ∨
      ∃ messageIds failure nowIso, l = .env (.rejectUndispatched messageIds failure nowIso) ∧
        messageId ∈ messageIds)

/-- The step deletes the message. -/
def DeletesMessage (p : Lts.Pool MailState Dispatch) (l : DispatchLabel) (messageId : String) :
    Prop :=
  ∃ handle scope deletedAt threadId, l = .env (.softDeleteThread handle scope deletedAt) ∧
    resolveThread p.shared.store handle scope = .ok threadId ∧
    messageId ∈ deletedIds p.shared.store threadId scope

/-- The step settles the abandoned claim of the job. -/
def SettlesClaim (p : Lts.Pool MailState Dispatch) (l : DispatchLabel) (jobId : String) : Prop :=
  ∃ nowIso, l = .env (.settleAbandonedClaims nowIso) ∧
    ∃ k ∈ p.shared.store.jobs, k.id = jobId ∧ k.abandoned nowIso = true

/-- The row of the job is the same before and after. -/
def KeepsJob (p p' : Lts.Pool MailState Dispatch) (jobId : String) : Prop :=
  ∀ k ∈ p.shared.store.jobs, k.id = jobId → k ∈ p'.shared.store.jobs

/-! ### Commands -/

section commands
variable {s s' : Store} {j : OutboundJobRow}

/-- A transaction keeps a job when its success keeps it. -/
theorem mem_jobs_of_committedSnd {α : Type} {r : Except StoreError (α × Store)}
    (hj : j ∈ s.jobs) (h : ∀ a s', r = .ok (a, s') → j ∈ s'.jobs) :
    j ∈ (committedSnd s r).jobs := committedSnd_of (P := fun s' => j ∈ s'.jobs) hj h

theorem mem_jobs_of_committed {r : Except StoreError Store} (hj : j ∈ s.jobs)
    (h : ∀ s', r = .ok s' → j ∈ s'.jobs) : j ∈ (committed s r).jobs :=
  committed_of (P := fun s' => j ∈ s'.jobs) hj h

theorem mem_rejectUndispatched {messageIds : List String} {failure : RejectionFailure}
    {nowIso : Instant} (hj : j ∈ s.jobs) (h : j.message_id ∈ messageIds → j.state ≠ .ready)
    (hwait : j.state ≠ .waiting_approval) :
    j ∈ (rejectUndispatched s messageIds failure nowIso).jobs := by
  refine Table.mem_of_not_updated rfl hj ?_
  by_cases hmem : j.message_id ∈ messageIds
  · simp [OutboundJobRow.rejectable, OutboundJobRow.undispatched, hwait, h hmem]
  · simp [OutboundJobRow.rejectable, hmem]

/-- A claim leaves every other job alone, unless it is refused. -/
theorem claimJob_keeps {input : ClaimJobInput} (hj : j ∈ s.jobs) (hother : input.jobId ≠ j.id)
    (hwait : j.state ≠ .waiting_approval)
    (hspared : s.RefusesClaim input →
      (∃ n ∈ s.jobs, n.id = input.jobId ∧ n.message_id = j.message_id) →
        j.state ≠ .ready) :
    j ∈ (s.exec (.claimJob input)).jobs := by
  apply mem_jobs_of_committedSnd hj
  intro r s' hok
  rcases claimJob_ok hok with ⟨rfl, -⟩ |
    ⟨n, hread, hready, ⟨rejection, hrejection, rfl, -⟩ | ⟨-, rfl, -⟩⟩
  · exact hj
  · obtain ⟨hn, hid, -⟩ := readJob_some hread
    refine mem_rejectUndispatched hj (fun hmem => ?_) hwait
    refine hspared ⟨n.row, hn, hid, hready, by simp [hrejection]⟩ ⟨n.row, hn, hid, ?_⟩
    exact (List.mem_singleton.mp hmem).symm
  · exact Table.mem_of_not_updated rfl hj (by simp [hother.symm])

/-- A completion leaves every other job alone, unless it rejects a notification. -/
theorem completeAttempt_keeps {input : CompleteAttemptInput} (hj : j ∈ s.jobs)
    (hother : input.jobId ≠ j.id) (hwait : j.state ≠ .waiting_approval)
    (hspared : s.RecordsRejection input → s.NotificationOf input.jobId j.message_id →
      j.state ≠ .ready) :
    j ∈ (s.exec (.completeAttempt input)).jobs := by
  apply mem_jobs_of_committedSnd hj
  intro r s' hok
  rcases completeAttempt_ok hok with rfl | ⟨n, hn, hid, hattempt, hflight, hrecord⟩
  · exact hj
  -- the settlement is of another job
  have hsettle : j ∈ (settleAttempt s input).jobs :=
    Table.mem_of_not_updated rfl hj (by simp [CompleteAttemptInput.claims, hother.symm])
  rcases recordOutcome_ok hrecord with ⟨_, _, -, hlink⟩ |
    ⟨detail, hpurpose, houtcome, rfl⟩ | rfl
  · obtain ⟨self, -, -, survivor, merged, -, -, rfl⟩ := linkThread_ok hlink
    exact hsettle
  · refine mem_rejectUndispatched hsettle (fun hmem => ?_) hwait
    have hclaims : input.claims n = true := by
      simp [CompleteAttemptInput.claims, hid, hattempt, hflight]
    exact hspared ⟨⟨detail, houtcome⟩, n, hn, hclaims⟩
      ⟨n, hn, hid, hpurpose, (List.mem_singleton.mp hmem).symm⟩
  · exact hsettle

/-- A pending approval is about another message than an approved one. -/
theorem Store.Coupled.message_ne (hs : s.Coupled) (hj : j ∈ s.jobs)
    (hpurpose : j.purpose = .message) (hwait : j.state ≠ .waiting_approval)
    {a : ApprovalRequestRow} (ha : a ∈ s.approvals) (hpending : a.state = .pending)
    {k : OutboundJobRow} (hk : k ∈ s.jobs) (hlink : k.id = a.job_id) :
    k.message_id ≠ j.message_id := by
  intro hmessage
  have hid := hs.message_job k hk j hj (hs.approval_job a ha k hk hlink) hpurpose hmessage
  obtain rfl : k = j := s.jobs.eq_of_clash hk hj (.inl hid)
  exact hwait ((hs.matched a ha k hk hlink).pending hpending)

theorem decideApproval_keeps {input : DecideApprovalInput} (hs : s.Coupled) (hj : j ∈ s.jobs)
    (hpurpose : j.purpose = .message) (hwait : j.state ≠ .waiting_approval) :
    j ∈ (s.exec (.decideApproval input)).jobs := by
  apply mem_jobs_of_committedSnd hj
  intro r s' hok
  rcases decideApproval_ok hok with rfl | ⟨a, ha, hpending, -, k, hk, hlink, -, rfl⟩
  · exact hj
  have hne := hs.message_ne hj hpurpose hwait ha hpending hk hlink
  unfold applyDecision
  cases input.decision with
  | approved => exact Table.mem_of_not_updated rfl hj (by simp [hwait])
  | denied =>
    refine mem_rejectUndispatched hj (fun hmem => ?_) hwait
    exact absurd (List.mem_singleton.mp hmem).symm hne

theorem expireDueApprovals_keeps {nowIso : Instant} (hs : s.Coupled) (hj : j ∈ s.jobs)
    (hpurpose : j.purpose = .message) (hwait : j.state ≠ .waiting_approval) :
    j ∈ (expireDueApprovals s nowIso).jobs := by
  refine mem_rejectUndispatched hj (fun hmem => ?_) hwait
  obtain ⟨a, ha, hk⟩ := List.mem_flatMap.mp hmem
  obtain ⟨ha, hdue⟩ := Table.mem_select.mp ha
  obtain ⟨k, hk, hmessage⟩ := List.mem_map.mp hk
  obtain ⟨hk, hlink⟩ := Table.mem_select.mp hk
  have hpending : a.state = .pending := by simpa using (Bool.and_eq_true_iff.mp hdue).1
  exact absurd hmessage (hs.message_ne hj hpurpose hwait ha hpending hk (by simpa using hlink))

/-- What a command may do to the job of a message whose approval is decided:
    nothing, but for a few commands with their guards. -/
theorem exec_keeps (hs : s.Coupled) (hj : j ∈ s.jobs) (hpurpose : j.purpose = .message)
    (hwait : j.state ≠ .waiting_approval) (c : Command)
    (hclaim : ∀ input, c = .claimJob input → input.jobId ≠ j.id ∧
      (s.RefusesClaim input →
        (∃ n ∈ s.jobs, n.id = input.jobId ∧ n.message_id = j.message_id) →
          j.state ≠ .ready))
    (hcomplete : ∀ input, c = .completeAttempt input → input.jobId ≠ j.id ∧
      (s.RecordsRejection input → s.NotificationOf input.jobId j.message_id →
        j.state ≠ .ready))
    (hreject : ∀ messageIds failure nowIso, c = .rejectUndispatched messageIds failure nowIso →
      j.message_id ∈ messageIds → j.state ≠ .ready)
    (hdelete : ∀ handle scope deletedAt threadId, c = .softDeleteThread handle scope deletedAt →
      resolveThread s handle scope = .ok threadId → j.message_id ∉ deletedIds s threadId scope)
    (hsettle : ∀ nowIso, c = .settleAbandonedClaims nowIso → j.abandoned nowIso = false) :
    j ∈ (s.exec c).jobs := by
  -- most commands leave the mail alone; the others each have their premise
  have hsame : ∀ s', SameMail s s' → j ∈ s'.jobs := fun s' h => h.jobs ▸ hj
  cases c with
  | submitOutbound input ids =>
    apply mem_jobs_of_committedSnd hj
    intro r s' hok
    rcases submitOutbound_ok hok with ⟨rfl, -⟩ | ⟨-, _, _, _, hsub, -⟩
    · exact hj
    · exact hsub.job_mem_of_old hj
  | decideApproval input => exact decideApproval_keeps hs hj hpurpose hwait
  | claimJob input => exact claimJob_keeps hj (hclaim input rfl).1 hwait (hclaim input rfl).2
  | completeAttempt input =>
    exact completeAttempt_keeps hj (hcomplete input rfl).1 hwait (hcomplete input rfl).2
  | rejectUndispatched messageIds failure nowIso =>
    exact mem_rejectUndispatched hj (hreject messageIds failure nowIso rfl) hwait
  | expireDueApprovals nowIso => exact expireDueApprovals_keeps hs hj hpurpose hwait
  | settleAbandonedClaims nowIso => exact Table.mem_of_not_updated rfl hj (hsettle nowIso rfl)
  | softDeleteThread handle scope deletedAt =>
    apply mem_jobs_of_committed hj
    intro s' hok
    obtain ⟨threadId, hresolve, rfl⟩ := softDeleteThread_ok hok
    -- `hdelete` says that its message is not among the deleted ones
    exact mem_rejectUndispatched hj
      (fun hmem => absurd hmem (hdelete handle scope deletedAt threadId rfl hresolve)) hwait
  | markThreadRead handle isRead scope nowIso =>
    apply mem_jobs_of_committed hj
    intro s' hok
    obtain ⟨threadId, rfl⟩ := markThreadRead_ok hok
    exact hj
  | acceptInbound input =>
    apply mem_jobs_of_committedSnd hj
    intro r s' hok
    rcases acceptInbound_ok hok with rfl | ⟨_, -, -, -, r', s₁, hwrite, rfl⟩
    · exact hj
    · have hframe := writeThreadedMail_frame hwrite
      show j ∈ s₁.jobs
      rw [hframe]
      exact hj
  | registerInboundReceipt input => exact hsame _ (registerInboundReceipt_sameMail s input)
  | createAddress id localPart mailDomain displayName nowIso sendingAllowed =>
    exact mem_jobs_of_committedSnd hj fun _ _ hok => hsame _ (createAddress_ok hok).sameMail
  | patchAddress id patch nowIso =>
    exact mem_jobs_of_committedSnd hj fun _ _ hok => hsame _
      (Administered.of_addresses (patchAddress_ok hok)).sameMail
  | setAddressForwarding addressId forwardTo nowIso =>
    exact mem_jobs_of_committedSnd hj fun _ _ hok => hsame _
      (Administered.of_addresses (setAddressForwarding_ok hok)).sameMail
  | retireAddress id nowIso =>
    exact mem_jobs_of_committedSnd hj fun _ _ hok => hsame _ (retireAddress_ok hok).sameMail
  | retryAddressRouting id nowIso =>
    exact mem_jobs_of_committedSnd hj fun _ _ hok => hsame _ (retryAddressRouting_ok hok).sameMail
  | observeInboundForward input => exact hj
  | failInboundReceiptPolicy receiptId reason => exact hj
  | redriveDueInboundReceipts nowIso limit => exact hj
  | configureSendingDomains names => exact hj
  | writeRoute id write => exact hj

end commands

/-! ### Steps -/

section steps
variable {ports : DispatchPorts} {p p' : Lts.Pool MailState Dispatch} {l : DispatchLabel}
  {j : OutboundJobRow}

theorem Dispatch.Moves.store_command {w w' : MailState} {d : Dispatch} {next : Option Dispatch}
    (h : d.Moves ports w w' next) :
    w'.store = (d.command.map w.store.exec).getD w.store := by
  unfold Dispatch.command
  cases h with
  | leaves hpoint | reads _ hpoint | refuses _ _ hpoint | prepares _ _ hpoint
  | authorizes _ _ _ hpoint | identifies _ _ _ _ hpoint | sends _ hpoint | hears _ _ hpoint =>
    rw [hpoint]
    rfl
  | rejects _ _ hpoint | yields _ _ _ _ hpoint | completes _ _ hpoint =>
    rw [hpoint]
    rfl
  | claims dispatch mail policy attemptId job s hpoint hclaim =>
    rw [hpoint]
    exact (claimJob_claimed hclaim).2

/-- A step of the pool runs its command, if it has one. -/
theorem store_of_step (h : (dispatching ports).machine.step p l = some p') :
    p'.shared.store = ((stepCommand p l).map p.shared.store.exec).getD p.shared.store := by
  rcases Lts.Program.machine_step h with ⟨c, w, rfl, he, rfl⟩ | ⟨pid, a, rfl, -, rfl⟩ |
    ⟨pid, i, d, w, next, rfl, hd, hs, rfl⟩ | ⟨pid, rfl, rfl⟩
  · obtain rfl := Option.some.inj he
    rfl
  · rfl
  · rw [stepCommand, hd]
    exact (Dispatch.moves_of_step hs).store_command
  · rfl

theorem StepsFor.eq {jobId jobId' : String} (h : StepsFor p l jobId) (h' : StepsFor p l jobId') :
    jobId = jobId' := by
  unfold StepsFor at h h'
  split at h
  · obtain ⟨d, hd, rfl⟩ := h
    obtain ⟨e, he, rfl⟩ := h'
    rw [Option.some.inj (hd.symm.trans he)]
  · exact h.symm.trans h'
  · exact h.symm.trans h'
  · exact h.elim

/-- A claim or completion is a step for its job. -/
theorem stepsFor_of_claim {input : ClaimJobInput} (h : stepCommand p l = some (.claimJob input)) :
    StepsFor p l input.jobId := by
  cases l with
  | env c =>
    obtain rfl := Option.some.inj h
    rfl
  | step pid i =>
    obtain ⟨d, hd, hcommand⟩ := Option.bind_eq_some_iff.mp h
    refine ⟨d, hd, ?_⟩
    unfold Dispatch.command at hcommand
    split at hcommand <;> simp at hcommand
    rw [← hcommand]
    rfl
  | start pid a => exact absurd h (by simp [stepCommand])
  | crash pid => exact absurd h (by simp [stepCommand])

theorem stepsFor_of_complete {input : CompleteAttemptInput}
    (h : stepCommand p l = some (.completeAttempt input)) : StepsFor p l input.jobId := by
  cases l with
  | env c =>
    obtain rfl := Option.some.inj h
    rfl
  | step pid i =>
    obtain ⟨d, hd, hcommand⟩ := Option.bind_eq_some_iff.mp h
    refine ⟨d, hd, ?_⟩
    unfold Dispatch.command at hcommand
    split at hcommand <;> simp at hcommand
    rw [← hcommand]
    rfl
  | start pid a => exact absurd h (by simp [stepCommand])
  | crash pid => exact absurd h (by simp [stepCommand])

/-- A dispatch rejects by the message of its own job. -/
theorem rejects_own (h : (dispatching ports).machine.Reachable p) {messageIds : List String}
    {failure : RejectionFailure} {nowIso : Instant}
    (hcommand : stepCommand p l = some (.rejectUndispatched messageIds failure nowIso)) :
    l = .env (.rejectUndispatched messageIds failure nowIso) ∨
    ∃ n ∈ p.shared.store.jobs, StepsFor p l n.id ∧ messageIds = [n.message_id] := by
  cases l with
  | env c =>
    obtain rfl := Option.some.inj hcommand
    exact .inl rfl
  | step pid i =>
    obtain ⟨d, hd, hcommand⟩ := Option.bind_eq_some_iff.mp hcommand
    have hsound := ((dispatching_valid ports).reachable h).loc pid d hd
    -- only a dispatch whose message cannot be prepared rejects
    unfold Dispatch.command at hcommand
    split at hcommand <;> simp at hcommand
    next hpoint =>
    rw [Dispatch.Sound, hpoint] at hsound
    obtain ⟨n, hn, hid, hmessage, -⟩ := hsound
    exact .inr ⟨n, hn, ⟨d, hd, hid.symm⟩, by rw [← hcommand.1, hmessage]⟩
  | start pid a => exact absurd hcommand (by simp [stepCommand])
  | crash pid => exact absurd hcommand (by simp [stepCommand])

/-- Another job of the message is a notification. -/
theorem Store.Coupled.notificationOf {s : Store} (hs : s.Coupled) {n : OutboundJobRow}
    (hn : n ∈ s.jobs) (hj : j ∈ s.jobs) (hpurpose : j.purpose = .message)
    (hmessage : n.message_id = j.message_id) (hne : n.id ≠ j.id) :
    s.NotificationOf n.id j.message_id := by
  refine ⟨n, hn, rfl, ?_, hmessage⟩
  cases hp : n.purpose with
  | approval_notification => rfl
  | message => exact absurd (hs.message_job n hn j hj hp hpurpose hmessage) hne

/-- **Step lemma.** A step that does not take the message along leaves its job
    alone, or is one of that job, a delete, or the settlement of its claim. -/
theorem step_keeps (h : (dispatching ports).machine.Reachable p)
    (hstep : (dispatching ports).machine.step p l = some p') (hj : j ∈ p.shared.store.jobs)
    (hpurpose : j.purpose = .message) (hwait : j.state ≠ .waiting_approval)
    (hspared : ¬ TakesAlong p l j.id j.message_id) :
    j ∈ p'.shared.store.jobs ∨ StepsFor p l j.id ∨ DeletesMessage p l j.message_id ∨
      SettlesClaim p l j.id := by
  have hs := (dispatching_sound h).reachable.coupled
  rw [store_of_step hstep]
  cases hcommand : stepCommand p l with
  | none => exact .inl hj
  | some c =>
    by_cases hown : StepsFor p l j.id
    · exact .inr (.inl hown)
    by_cases hdelete : DeletesMessage p l j.message_id
    · exact .inr (.inr (.inl hdelete))
    by_cases hsettle : SettlesClaim p l j.id
    · exact .inr (.inr (.inr hsettle))
    -- a rejection on behalf of another job of the message would take it along
    have hspare : ∀ n ∈ p.shared.store.jobs, StepsFor p l n.id →
        n.message_id = j.message_id →
        c.GivesUp p.shared.store → j.state ≠ .ready := by
      intro n hn hfor hmessage hgives hready
      have hne : n.id ≠ j.id := fun hid => hown (hid ▸ hfor)
      exact hspared ⟨⟨j, hj, rfl, hready⟩, c, hcommand, hgives,
        .inl ⟨n.id, hfor, hs.notificationOf hn hj hpurpose hmessage hne⟩⟩
    refine .inl (exec_keeps hs hj hpurpose hwait c ?_ ?_ ?_ ?_ ?_)
    · intro input heq
      obtain rfl := heq
      have hfor := stepsFor_of_claim hcommand
      refine ⟨fun hid => hown (hid ▸ hfor), ?_⟩
      intro hrefuses hex
      obtain ⟨n, hn, hid, hmessage⟩ := hex
      exact hspare n hn (hid ▸ hfor) hmessage hrefuses
    · intro input heq
      obtain rfl := heq
      have hfor := stepsFor_of_complete hcommand
      refine ⟨fun hid => hown (hid ▸ hfor), ?_⟩
      intro hrecords hex
      obtain ⟨n, hn, hid, -, hmessage⟩ := hex
      exact hspare n hn (hid ▸ hfor) hmessage hrecords
    · intro messageIds failure nowIso heq hmem hready
      obtain rfl := heq
      rcases rejects_own h hcommand with rfl | ⟨n, hn, hfor, rfl⟩
      · exact hspared ⟨⟨j, hj, rfl, hready⟩, _, hcommand, trivial,
          .inr ⟨messageIds, failure, nowIso, rfl, hmem⟩⟩
      · exact hspare n hn hfor (List.mem_singleton.mp hmem).symm trivial hready
    · intro handle scope deletedAt threadId heq hresolve hmem
      obtain rfl := heq
      refine hdelete ⟨handle, scope, deletedAt, threadId, ?_, hresolve, hmem⟩
      cases l with
      | env c => rw [Option.some.inj hcommand]
      | step pid i =>
        obtain ⟨d, -, hd⟩ := Option.bind_eq_some_iff.mp hcommand
        unfold Dispatch.command at hd
        split at hd <;> simp at hd
      | start pid a => exact absurd hcommand (by simp [stepCommand])
      | crash pid => exact absurd hcommand (by simp [stepCommand])
    · intro nowIso heq
      obtain rfl := heq
      by_contra habandoned
      refine hsettle ⟨nowIso, ?_, j, hj, rfl, by simpa using habandoned⟩
      cases l with
      | env c => rw [Option.some.inj hcommand]
      | step pid i =>
        obtain ⟨d, -, hd⟩ := Option.bind_eq_some_iff.mp hcommand
        unfold Dispatch.command at hd
        split at hd <;> simp at hd
      | start pid a => exact absurd hcommand (by simp [stepCommand])
      | crash pid => exact absurd hcommand (by simp [stepCommand])

/-- The job of a message whose approval is decided, along a run. -/
structure Decided (ports : DispatchPorts) (jobId messageId : String)
    (p : Lts.Pool MailState Dispatch) : Prop where
  reachable : (dispatching ports).machine.Reachable p
  job : ∃ j ∈ p.shared.store.jobs, j.id = jobId ∧ j.message_id = messageId ∧
    j.purpose = .message ∧ j.state ≠ .waiting_approval

theorem Decided.step {jobId messageId : String} (h : Decided ports jobId messageId p)
    (hstep : (dispatching ports).machine.step p l = some p') :
    Decided ports jobId messageId p' := by
  obtain ⟨j, hj, rfl, rfl, hpurpose, hwait⟩ := h.job
  obtain ⟨j', hj', hmove⟩ := (dispatching_step hstep).jobs.exists_mem hj
  have hsame : j.SameRequest j' := hmove.request
  rw [OutboundJobRow.SameRequest] at hsame
  refine ⟨h.reachable.step l hstep, j', hj', ?_, ?_, ?_, fun hwait' => ?_⟩
  · rw [hsame]
  · rw [hsame]
  · rw [hsame]
    exact hpurpose
  · rw [hmove.waiting_of hwait'] at hwait'
    exact hwait hwait'

end steps

/-! ### Runs -/

variable {ports : DispatchPorts} {p q : Lts.Pool MailState Dispatch}

/-- **An approved message is independent of its notification**, in every run
    in which no step takes it along: no step for a notification changes the row
    of the message job, and only the steps of that job, a delete of the message
    and the settlement of its abandoned claim do. -/
theorem approved_message_is_independent (h : (dispatching ports).machine.Reachable p)
    {j : OutboundJobRow} (hj : j ∈ p.shared.store.jobs) (hpurpose : j.purpose = .message)
    {a : ApprovalRequestRow} (ha : p.shared.store.ApprovalOf a j.message_id)
    (happroved : a.state = .approved) {ls : List DispatchLabel}
    (hrun : (dispatching ports).machine.RunBy
      (fun q l _ => ¬ TakesAlong q l j.id j.message_id) p ls q) :
    (dispatching ports).machine.RunBy (fun q l q' =>
      (∀ notificationId, StepsFor q l notificationId →
        q.shared.store.NotificationOf notificationId j.message_id → KeepsJob q q' j.id) ∧
      (KeepsJob q q' j.id ∨ StepsFor q l j.id ∨ DeletesMessage q l j.message_id ∨
        SettlesClaim q l j.id)) p ls q := by
  have hs := (dispatching_sound h).reachable.coupled
  have hlink : j.id = a.job_id := hs.job_of_approval ha hj hpurpose
  have hwait : j.state ≠ .waiting_approval := (hs.matched a ha.1 j hj hlink).approved happroved
  refine hrun.mono (I := Decided ports j.id j.message_id) (fun _ _ _ hi hstep => hi.step hstep) ?_
    ⟨h, j, hj, rfl, rfl, hpurpose, hwait⟩
  intro q l q' hq hstep hspared
  obtain ⟨k, hk, hid, hmessage, hkpurpose, hkwait⟩ := hq.job
  rw [← hid, ← hmessage] at hspared ⊢
  have hkeeps : KeepsJob q q' k.id ∨ StepsFor q l k.id ∨ DeletesMessage q l k.message_id ∨
      SettlesClaim q l k.id := by
    apply (step_keeps hq.reachable hstep hk hkpurpose hkwait hspared).imp_left
    intro hmem k' hk' hid'
    rwa [q.shared.store.jobs.eq_of_clash hk' hk (.inl hid')]
  refine ⟨fun notificationId hfor hnotification => ?_, hkeeps⟩
  rcases hkeeps with hkeeps | hown | ⟨_, _, _, _, rfl, -⟩ | ⟨_, rfl, -⟩
  · exact hkeeps
  · -- a notification is not the message job
    obtain ⟨n, hn, hnid, hnpurpose, -⟩ := hnotification
    obtain rfl : n = k := q.shared.store.jobs.eq_of_clash hn hk (.inl (hnid.trans (hfor.eq hown)))
    exact absurd (hnpurpose.symm.trans hkpurpose) (by simp)
  · exact hfor.elim
  · exact hfor.elim

end notification

/-! ### Sample runs -/

section sample
open Sample

/-- Whether a step gives up on nothing. -/
def sparesMail (p : Lts.Pool MailState Dispatch) (l : DispatchLabel) : Bool :=
  match stepCommand p l with
  | some (.claimJob input) => p.shared.store.jobs.rows.all fun n =>
    n.id ≠ input.jobId || (claimRejection p.shared.store n input.policy).isNone
  | some (.completeAttempt { outcome := .rejected _, .. }) => false
  | some (.rejectUndispatched _ _ _) => false
  | _ => true

theorem not_takesAlong_of_spares {p : Lts.Pool MailState Dispatch} {l : DispatchLabel}
    (h : sparesMail p l = true) (jobId messageId : String) : ¬ TakesAlong p l jobId messageId := by
  intro htakes
  obtain ⟨-, c, hcommand, hgives, -⟩ := htakes
  unfold sparesMail at h
  rw [hcommand] at h
  cases c with
  | claimJob input =>
    obtain ⟨n, hn, hid, -, hrefused⟩ := hgives
    have htest := List.all_eq_true.mp h n hn
    simp only [hid, ne_eq, not_true_eq_false, decide_false, Bool.false_or,
      Option.isNone_iff_eq_none] at htest
    exact hrefused htest
  | completeAttempt input =>
    obtain ⟨⟨detail, houtcome⟩, -⟩ := hgives
    obtain ⟨jobId, attemptId, nowIso, outcome⟩ := input
    subst houtcome
    exact absurd h (by simp)
  | rejectUndispatched messageIds failure nowIso => exact absurd h (by simp)
  | _ => exact hgives

/-- The notification is dispatched up to its claim, then the message is approved. -/
def approvedBeforeClaim : List DispatchLabel :=
  [.start 0 ("notification-1", 1500), .step 0 .unit, .step 0 .unit,
    .step 0 (.policy (some supervisedPolicy)), .step 0 (.random "attempt-1"),
    .env (.decideApproval { tokenHash := "token-1", decision := .approved, nowIso := 2000 })]

/-- It is claimed, sent and completed, and then the message is. -/
def sentAfterApproval : List DispatchLabel :=
  [.step 0 .unit, .step 0 .unit, .step 0 (.outcome (.accepted "provider-1" none)), .step 0 .unit,
    .start 1 ("job-1", 3000), .step 1 .unit, .step 1 .unit,
    .step 1 (.policy (some supervisedPolicy)), .step 1 (.random "attempt-2"), .step 1 .unit,
    .step 1 .unit, .step 1 (.outcome (.accepted "provider-2" none)), .step 1 .unit]

/-- Both jobs of the approved message are sent, each by its own steps. -/
theorem approved_message_is_independent_sent : ∃ p q,
    (dispatching ports).machine.Run (idle waitingStore) approvedBeforeClaim p ∧
    (dispatching ports).machine.RunBy
      (fun q l q' => (∀ notificationId, StepsFor q l notificationId →
        q.shared.store.NotificationOf notificationId "message-1" → KeepsJob q q' "job-1") ∧
        (KeepsJob q q' "job-1" ∨ StepsFor q l "job-1" ∨ DeletesMessage q l "message-1" ∨
          SettlesClaim q l "job-1")) p sentAfterApproval q ∧
    q.shared.sent.map (·.jobId) = ["notification-1", "job-1"] ∧
    ∀ j ∈ q.shared.store.jobs, j.state = .accepted := by
  have hfire : ((dispatching ports).machine.fire (idle waitingStore) approvedBeforeClaim).any
      (fun p => (p.shared.store.jobs.rows.any fun j => p.shared.store.approvals.rows.any fun a =>
          j.id = "job-1" && j.message_id = "message-1" && j.purpose = .message &&
            a.job_id = "job-1" && a.state = .approved) &&
        (dispatching ports).machine.tests sparesMail p sentAfterApproval &&
        ((dispatching ports).machine.fire p sentAfterApproval).any fun q =>
          q.shared.sent.map (·.jobId) = ["notification-1", "job-1"] &&
            q.shared.store.jobs.rows.all (·.state = .accepted)) = true := by decide +kernel
  obtain ⟨p, hp, htests⟩ := (Option.any_eq_true _ _).mp hfire
  simp only [Bool.and_eq_true] at htests
  obtain ⟨⟨hrows, htests⟩, hafter⟩ := htests
  have hrun := Lts.Machine.Run.of_fire hp
  -- the rows that the evaluation found
  obtain ⟨j, hj, hrows⟩ := List.any_eq_true.mp hrows
  obtain ⟨a, ha, hrows⟩ := List.any_eq_true.mp hrows
  simp only [Bool.and_eq_true, decide_eq_true_eq] at hrows
  obtain ⟨⟨⟨⟨hid, hmessage⟩, hpurpose⟩, hlink⟩, happroved⟩ := hrows
  obtain ⟨q, hq, hafter⟩ := (Option.any_eq_true _ _).mp hafter
  obtain ⟨hsent, haccepted⟩ := Bool.and_eq_true_iff.mp hafter
  have hspared : (dispatching ports).machine.RunBy
      (fun q l _ => ¬ TakesAlong q l j.id j.message_id) p sentAfterApproval q :=
    .of_tests (I := fun _ => True)
      (fun _ _ _ _ _ htest => ⟨trivial, not_takesAlong_of_spares htest _ _⟩) trivial hq htests
  have hindependent := approved_message_is_independent (hrun.reachable idle_waiting_reachable)
    hj hpurpose ⟨ha, j, hj, hid.trans hlink.symm, rfl⟩ happroved hspared
  rw [hid, hmessage] at hindependent
  refine ⟨p, q, hrun, hindependent, of_decide_eq_true hsent, fun k hk => ?_⟩
  exact of_decide_eq_true (List.all_eq_true.mp haccepted k hk)

/-- The notification is dispatched after the approval: it finds no pending
    approval, and rejects the approved message. -/
theorem notification_takes_approved_message : ∃ p p' j a,
    (dispatching ports).machine.Reachable p ∧
    j ∈ p.shared.store.jobs ∧ j.purpose = .message ∧ j.state = .ready ∧
    p.shared.store.ApprovalOf a j.message_id ∧ a.state = .approved ∧
    (dispatching ports).machine.step p (.step 0 .unit) = some p' ∧
    StepsFor p (.step 0 .unit) "notification-1" ∧
    p.shared.store.NotificationOf "notification-1" j.message_id ∧
    ∃ j' ∈ p'.shared.store.jobs, j'.id = j.id ∧ j'.state = .rejected ∧
      j'.failure_detail = some "approval_unavailable" := by
  have hfire : ((dispatching ports).machine.fire (idle approvedStore)
      [.start 0 ("notification-1", 3000), .step 0 .unit, .step 0 .unit]).any (fun p =>
        p.shared.store.jobs.rows.any fun j => p.shared.store.jobs.rows.any fun n =>
          p.shared.store.approvals.rows.any fun a =>
            j.id = "job-1" && j.purpose = .message && j.state = .ready && a.job_id = j.id &&
            a.state = .approved && n.id = "notification-1" &&
            n.purpose = .approval_notification && n.message_id = j.message_id &&
            (p.procs 0).any (·.jobId = "notification-1") &&
            ((dispatching ports).machine.step p (.step 0 .unit)).any fun p' =>
              p'.shared.store.jobs.rows.any fun j' => j'.id = j.id && j'.state = .rejected &&
                j'.failure_detail = some "approval_unavailable") = true := by decide +kernel
  obtain ⟨p, hp, hrows⟩ := (Option.any_eq_true _ _).mp hfire
  have hr := (Lts.Machine.Run.of_fire hp).reachable idle_approved_reachable
  -- the rows that the evaluation found
  obtain ⟨j, hj, hrows⟩ := List.any_eq_true.mp hrows
  obtain ⟨n, hn, hrows⟩ := List.any_eq_true.mp hrows
  obtain ⟨a, ha, hrows⟩ := List.any_eq_true.mp hrows
  simp only [Bool.and_eq_true, decide_eq_true_eq] at hrows
  obtain ⟨⟨⟨⟨⟨⟨⟨⟨⟨-, hpurpose⟩, hready⟩, hlink⟩, happroved⟩, hnid⟩,
      hnpurpose⟩, hnmessage⟩, hproc⟩,
    hafter⟩ := hrows
  obtain ⟨d, hd, hdid⟩ := (Option.any_eq_true _ _).mp hproc
  obtain ⟨p', hstep, hafter⟩ := (Option.any_eq_true _ _).mp hafter
  obtain ⟨j', hj', hafter⟩ := List.any_eq_true.mp hafter
  simp only [Bool.and_eq_true, decide_eq_true_eq] at hafter
  exact ⟨p, p', j, a, hr, hj, hpurpose, hready, ⟨ha, j, hj, hlink.symm, rfl⟩,
    happroved, hstep,
    ⟨d, hd, by simpa using hdid⟩, ⟨n, hn, hnid, hnpurpose, hnmessage⟩, j', hj', hafter.1.1,
    hafter.1.2, hafter.2⟩

end sample

end Umail
