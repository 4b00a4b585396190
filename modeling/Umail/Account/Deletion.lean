import Umail.Account.Coupling

/-! # Deleting a thread

  `softDeleteThread` deletes the live messages of a thread within a scope,
  rejects their undispatched jobs and cancels the approvals these wait for.
  The jobs of a deleted message stay out of `ready` for ever: jobs are only
  added for new messages, and no edge leads back to `ready`.
-/

namespace Umail

open Relational

section deletion
variable [Unicode] {s s' : Store}

/-! ### What a delete touches -/

theorem mem_deletedIds {threadId : String} {scope : MailboxScope} {m : MessageRow}
    (hm : m ∈ s.messages) :
    m.id ∈ deletedIds s threadId scope ↔ liveInThread threadId scope m = true := by
  constructor
  · intro hmem
    obtain ⟨m', hm', hid⟩ := List.mem_map.mp hmem
    obtain ⟨hin, hlive⟩ := Table.mem_select.mp hm'
    obtain rfl : m' = m := s.messages.eq_of_clash hin hm hid
    exact hlive
  · intro hlive
    exact List.mem_map_of_mem (Table.mem_select.mpr ⟨hm, hlive⟩)

/-- Whether the approval belongs to one of the messages. -/
def approvalAmong (s : Store) (messageIds : List String) (a : ApprovalRequestRow) : Bool :=
  s.jobs.rows.any fun j => j.id = a.job_id && j.message_id ∈ messageIds

theorem deleteLive_select_messages (threadId : String) (scope : MailboxScope)
    (deletedAt : Instant) :
    (deleteLive s threadId scope deletedAt).messages.select
        (fun m => m.id ∉ deletedIds s threadId scope) =
      s.messages.select (fun m => m.id ∉ deletedIds s threadId scope) := by
  apply Table.select_update rfl
  intro m hm hlive
  have hmem := (mem_deletedIds hm).mpr hlive
  simp [hmem]

theorem deleteLive_select_jobs (threadId : String) (scope : MailboxScope) (deletedAt : Instant) :
    (deleteLive s threadId scope deletedAt).jobs.select
        (fun j => j.message_id ∉ deletedIds s threadId scope) =
      s.jobs.select (fun j => j.message_id ∉ deletedIds s threadId scope) := by
  apply Table.select_update rfl
  intro j _ hrej
  have hmem : j.message_id ∈ deletedIds s threadId scope :=
    of_decide_eq_true (Bool.and_eq_true_iff.mp hrej).1
  simp [OutboundJobRow.reject, hmem]

theorem deleteLive_select_approvals (threadId : String) (scope : MailboxScope)
    (deletedAt : Instant) :
    (deleteLive s threadId scope deletedAt).approvals.select
        (fun a => !approvalAmong s (deletedIds s threadId scope) a) =
      s.approvals.select (fun a => !approvalAmong s (deletedIds s threadId scope) a) := by
  apply Table.select_update rfl
  intro a _ hsel
  have hamong : approvalAmong s (deletedIds s threadId scope) a = true := by
    simp only [Bool.and_eq_true, decide_eq_true_eq] at hsel
    obtain ⟨j, hj, hid⟩ := List.mem_map.mp hsel.2
    obtain ⟨hin, hrej⟩ := Table.mem_select.mp hj
    refine List.any_eq_true.mpr ⟨j, hin, ?_⟩
    have hmem : j.message_id ∈ deletedIds s threadId scope :=
      of_decide_eq_true (Bool.and_eq_true_iff.mp hrej).1
    simp [hid, hmem]
  have hsame : approvalAmong s (deletedIds s threadId scope) (a.resolve .cancelled deletedAt) =
      approvalAmong s (deletedIds s threadId scope) a := rfl
  exact ⟨by simp [hamong], by simp [hsame, hamong]⟩

/-! ### What a delete leaves -/

/-- No live message is left in the thread within the scope. -/
theorem deleteLive_none_live {threadId : String} {scope : MailboxScope} {deletedAt : Instant}
    {m : MessageRow} (hm : m ∈ (deleteLive s threadId scope deletedAt).messages) :
    liveInThread threadId scope m = false := by
  obtain ⟨m₀, -, rfl⟩ := (Table.mem_of_map rfl).mp hm
  by_cases hlive : liveInThread threadId scope m₀ = true
  · rw [if_pos hlive]
    simp [liveInThread, MessageRow.liveIn]
  · rw [if_neg hlive]
    simpa using hlive

/-- The jobs of the deleted messages are dispatched, settled or rejected. -/
theorem deleteLive_dispatched {threadId : String} {scope : MailboxScope} {deletedAt : Instant}
    {j : OutboundJobRow} (hj : j ∈ (deleteLive s threadId scope deletedAt).jobs)
    (hmsg : j.message_id ∈ deletedIds s threadId scope) : j.undispatched = false := by
  obtain ⟨j₀, -, rfl⟩ := (Table.mem_of_map rfl).mp hj
  by_cases hrej : j₀.rejectable (deletedIds s threadId scope) = true
  · simp only [hrej, if_true]
    rfl
  · simp only [hrej, Bool.false_eq_true, if_false] at hmsg ⊢
    by_contra hund
    exact hrej (Bool.and_eq_true_iff.mpr ⟨decide_eq_true hmsg, by simpa using hund⟩)

/-- No deleted message waits for an approval. -/
theorem deleteLive_no_pending {threadId : String} {scope : MailboxScope} {deletedAt : Instant}
    (hs : (deleteLive s threadId scope deletedAt).Coupled)
    {a : ApprovalRequestRow} {messageId : String}
    (ha : (deleteLive s threadId scope deletedAt).ApprovalOf a messageId)
    (hmsg : messageId ∈ deletedIds s threadId scope) : a.state ≠ .pending := by
  obtain ⟨ha, j, hj, hlink, rfl⟩ := ha
  intro hpending
  have hwait := (hs.matched a ha j hj hlink).pending hpending
  have hund := deleteLive_dispatched hj hmsg
  simp [OutboundJobRow.undispatched, hwait] at hund

/-! ### Later states -/

/-- A job of a message that existed is a later version of a job that existed. -/
theorem Store.Evolves.job_of_message (h : s.Evolves s') {m : MessageRow} (hm : m ∈ s.messages)
    {j' : OutboundJobRow} (hj' : j' ∈ s'.jobs) (hmsg : j'.message_id = m.id) :
    ∃ j ∈ s.jobs, j.Evolves j' ∧ j.message_id = m.id := by
  rcases h.jobs.mem_cases hj' with ⟨j, hj, hev⟩ | hnew
  · refine ⟨j, hj, hev, ?_⟩
    rw [← hmsg, hev.sameRequest]
  · exact absurd hmsg.symm (hnew.1 m hm)

/-- A job that is past `ready` is not claimed. -/
theorem claimJob_not_claimed {j : OutboundJobRow} {input : ClaimJobInput} {r : ClaimJobResult}
    (hj : j ∈ s.jobs) (hund : j.undispatched = false) (hid : input.jobId = j.id)
    (h : claimJob s input = .ok (r, s')) (attemptId : String) (job : OutboundJob) :
    r ≠ .claimed attemptId job := by
  rcases claimJob_ok h with ⟨-, hr⟩ | ⟨k, hread, hready, -⟩
  · exact hr attemptId job
  · obtain ⟨hk, hkid, -⟩ := readJob_some hread
    obtain rfl := s.jobs.eq_of_clash hk hj (.inl (hkid.trans hid))
    simp [OutboundJobRow.undispatched, hready] at hund

/-! ### The delete as a whole -/

/-- The jobs of a deleted message are past `ready`, now and later, and none of
    them gets a new attempt. -/
theorem deleted_never_claimed {threadId : String} {scope : MailboxScope} {deletedAt : Instant}
    {s'' : Store} (h : (deleteLive s threadId scope deletedAt).Evolves s'') {m : MessageRow}
    (hm : m ∈ s.messages) (hlive : liveInThread threadId scope m = true)
    {j : OutboundJobRow} (hj : j ∈ s''.jobs) (hmsg : j.message_id = m.id) :
    j.undispatched = false ∧
      ∃ j₀ ∈ (deleteLive s threadId scope deletedAt).jobs, j₀.id = j.id ∧
        j.attempt_id = j₀.attempt_id := by
  obtain ⟨m', hm', hid⟩ : ∃ m' ∈ (deleteLive s threadId scope deletedAt).messages,
      m'.id = m.id := by
    obtain ⟨m', hm', hev⟩ :=
      (deleteLive_messages (N := fun _ => True) threadId scope deletedAt).exists_mem hm
    exact ⟨m', hm', hev.id_eq⟩
  obtain ⟨j₀, hj₀, hev, hmsg₀⟩ := h.job_of_message hm' hj (hmsg.trans hid.symm)
  -- the deletion leaves no job of the message undispatched
  have hund : j₀.undispatched = false := by
    apply deleteLive_dispatched hj₀
    rw [hmsg₀, hid]
    exact (mem_deletedIds hm).mpr hlive
  refine ⟨?_, j₀, hj₀, (congrArg Prod.fst hev.key_eq).symm, hev.attempt_eq hund⟩
  -- and no job becomes undispatched again
  by_contra hback
  exact absurd (hev.undispatched_of (by simpa using hback)) (by simp [hund])

/-- **Deleted mail is never sent, and a delete touches nothing else.** A delete
    that succeeds resolves its handle to a thread. It leaves no live message of
    that thread in scope; the messages it deletes have no undispatched job and
    no pending approval, and no later claim takes one of their jobs. Everything
    else is as before, and a handle that does not resolve changes nothing. -/
theorem softDeleteThread_spec (hr : s.Reachable) (handle : String) (scope : MailboxScope)
    (deletedAt : Instant) :
    (∀ s', softDeleteThread s handle scope deletedAt = .ok s' →
      ∃ threadId, resolveThread s handle scope = .ok threadId ∧
      (∀ m ∈ s'.messages, m.thread_id = threadId → m.liveIn scope = false) ∧
      (∀ m ∈ s.messages, liveInThread threadId scope m = true →
        (∀ j ∈ s'.jobs, j.message_id = m.id → j.state ≠ .waiting_approval ∧
          j.state ≠ .ready) ∧
        (∀ a, s'.ApprovalOf a m.id → a.state ≠ .pending) ∧
        (∀ cs s'', accountStore.Run s' cs s'' → ∀ j ∈ s''.jobs, j.message_id = m.id →
          (∃ j₀ ∈ s'.jobs, j₀.id = j.id ∧ j.attempt_id = j₀.attempt_id) ∧
          ∀ input r s₃, claimJob s'' input = .ok (r, s₃) → input.jobId = j.id →
            ∀ attemptId job, r ≠ .claimed attemptId job)) ∧
      s'.messages.select (fun m => m.id ∉ deletedIds s threadId scope) =
        s.messages.select (fun m => m.id ∉ deletedIds s threadId scope) ∧
      s'.jobs.select (fun j => j.message_id ∉ deletedIds s threadId scope) =
        s.jobs.select (fun j => j.message_id ∉ deletedIds s threadId scope) ∧
      s'.approvals.select (fun a => !approvalAmong s (deletedIds s threadId scope) a) =
        s.approvals.select (fun a => !approvalAmong s (deletedIds s threadId scope) a) ∧
      s' = { s with messages := s'.messages, jobs := s'.jobs, approvals := s'.approvals }) ∧
    (∀ e, resolveThread s handle scope = .error e →
      s.exec (.softDeleteThread handle scope deletedAt) = s) := by
  constructor
  · intro s' h
    have hs' : s'.Coupled := by
      have hexec : s.exec (.softDeleteThread handle scope deletedAt) = s' := by
        simp [Store.exec, h, committed]
      exact hexec ▸ Store.Reachable.coupled (hr.exec _)
    obtain ⟨threadId, hresolve, rfl⟩ := softDeleteThread_ok h
    refine ⟨threadId, hresolve, ?_, ?_, deleteLive_select_messages threadId scope deletedAt,
      deleteLive_select_jobs threadId scope deletedAt,
      deleteLive_select_approvals threadId scope deletedAt, rfl⟩
    · intro m hm hthread
      simpa [liveInThread, hthread] using deleteLive_none_live hm
    · intro m hm hlive
      have hmem := (mem_deletedIds hm).mpr hlive
      refine ⟨fun j hj hmsg => ?_, fun a ha => deleteLive_no_pending hs' ha hmem, ?_⟩
      · -- no job of a deleted message is left waiting or ready
        have hund := deleteLive_dispatched hj (hmsg ▸ hmem)
        simpa [OutboundJobRow.undispatched] using hund
      · intro cs s'' hrun j hj hmsg
        -- whatever happens later, the job keeps the attempt it has, and is not claimed
        obtain ⟨hund, hattempt⟩ :=
          deleted_never_claimed (run_evolves hrun) hm hlive hj hmsg
        exact ⟨hattempt, fun input r s₃ hclaim hid => claimJob_not_claimed hj hund hid hclaim⟩
  · intro e he
    simp [Store.exec, softDeleteThread, he, committed, bind, Except.bind]

end deletion

section sample
open Sample

/-- Deleting the waiting message of the sample store rejects its job. -/
theorem softDeleteThread_spec_waiting :
    ∃ s', softDeleteThread waitingStore "message-1" .all 3000 = .ok s' ∧
      ∀ j ∈ s'.jobs, j.message_id = "message-1" →
        j.state ≠ .waiting_approval ∧ j.state ≠ .ready := by
  have hspec := softDeleteThread_spec waitingStore_reachable "message-1" .all 3000
  have hresolve : resolveThread waitingStore "message-1" .all = .ok "message-1" := by
    decide +kernel
  have hdelete : softDeleteThread waitingStore "message-1" .all 3000 =
      .ok (deleteLive waitingStore "message-1" .all 3000) := by
    simp [softDeleteThread, hresolve, bind, Except.bind, pure, Except.pure]
  obtain ⟨threadId, hthread, -, hdeleted, -⟩ := hspec.1 _ hdelete
  obtain rfl : threadId = "message-1" := Except.ok.inj (hthread.symm.trans hresolve)
  have hlive : waitingStore.messages.rows.any
      (fun m => m.id = "message-1" && liveInThread "message-1" .all m) = true := by
    decide +kernel
  obtain ⟨m, hm, hsel⟩ := List.any_eq_true.mp hlive
  simp only [Bool.and_eq_true, decide_eq_true_eq] at hsel
  refine ⟨_, hdelete, ?_⟩
  intro j hj hmsg
  exact (hdeleted m hm hsel.2).1 j hj (hmsg.trans hsel.1.symm)

end sample

end Umail
