import Umail.Account.Evolution

/-! # Approvals and jobs stay coupled

  Two tables record one decision: the approval of a message and the state of
  its message job. `Coupled` says how they fit together. An operation that
  adds no row rewrites approvals by one function and jobs by another, so it
  is enough to check each approval against its own job (`Coupled.rewrite`).
-/

namespace Umail

open Relational

/-! ### The invariant -/

/-- `denied`, `expired` or `cancelled`. -/
def ApprovalState.refused : ApprovalState → Bool
  | .denied => true
  | .expired => true
  | .cancelled => true
  | _ => false

/-- How an approval and its message job fit together. -/
structure ApprovalRequestRow.Matches (a : ApprovalRequestRow) (j : OutboundJobRow) : Prop where
  pending : a.state = .pending → j.state = .waiting_approval
  approved : a.state = .approved → j.state ≠ .waiting_approval
  refused : a.state.refused = true → j.state = .rejected ∧ j.attempt_id = none

/-- An approval is resolved once it is not pending, and approved only before
    its expiry. -/
structure ApprovalRequestRow.Dated (a : ApprovalRequestRow) : Prop where
  resolved : a.resolved_at = none ↔ a.state = .pending
  in_time : a.state = .approved → ∃ t, a.resolved_at = some t ∧ t < a.expires_at

/-! ### Rows -/

theorem OutboundJobRow.Move.waiting_of {j j' : OutboundJobRow} (h : j.Move j')
    (hj' : j'.state = .waiting_approval) : j' = j := by
  rcases h.edge with heq | hedge
  · exact heq
  · rw [hj'] at hedge
    generalize j.state = a at hedge
    cases hedge with
    | settled hs => exact absurd hs (by decide)

theorem OutboundJobRow.Move.unclaimed_of {j j' : OutboundJobRow} (h : j.Move j')
    (hj : j.undispatched = true → j.attempt_id = none) (hj' : j'.undispatched = true) :
    j'.attempt_id = none := by
  rcases h.attempt with heq | ⟨-, hflight⟩
  · rw [heq]
    exact hj (h.undispatched_of hj')
  · simp [OutboundJobRow.undispatched, hflight] at hj'

theorem ApprovalRequestRow.resolve_dated (a : ApprovalRequestRow) {state : ApprovalState}
    {nowIso : Instant} (hpending : state ≠ .pending)
    (happroved : state = .approved → nowIso < a.expires_at) : (a.resolve state nowIso).Dated :=
  ⟨⟨nofun, fun h => absurd h hpending⟩, fun h => ⟨nowIso, rfl, happroved h⟩⟩

/-- A refused approval fits a job that is rejected before any attempt. -/
theorem matches_of_refused {a : ApprovalRequestRow} {j : OutboundJobRow}
    (ha : a.state.refused = true) (hj : j.state = .rejected) (hattempt : j.attempt_id = none) :
    a.Matches j := by
  refine ⟨fun h => ?_, fun h => ?_, fun _ => ⟨hj, hattempt⟩⟩
  · rw [h] at ha
    exact absurd ha (by decide)
  · rw [h] at ha
    exact absurd ha (by decide)

/-- A resolved approval still fits its job when the job is rejected. -/
theorem ApprovalRequestRow.Matches.reject_of {a : ApprovalRequestRow} {j : OutboundJobRow}
    (h : a.Matches j) (failure : RejectionFailure) (nowIso : Instant)
    (hund : j.undispatched = true) (hresolved : a.state ≠ .pending) :
    a.Matches (j.reject failure nowIso) := by
  refine ⟨fun ha => absurd ha hresolved, fun _ => by simp [OutboundJobRow.reject], ?_⟩
  intro ha
  have hrej : j.state = .rejected := (h.refused ha).1
  simp [OutboundJobRow.undispatched, hrej] at hund

/-- The ids `rejectUndispatched` cancels approvals by. -/
theorem mem_rejectable_ids {t : Table OutboundJobRow} (messageIds : List String)
    {j : OutboundJobRow} (hj : j ∈ t) :
    j.id ∈ (t.select (·.rejectable messageIds)).map (·.id) ↔
      j.rejectable messageIds = true := by
  constructor
  · intro hmem
    obtain ⟨k, hk, hid⟩ := List.mem_map.mp hmem
    obtain ⟨hkt, hsel⟩ := Table.mem_select.mp hk
    obtain rfl : k = j := t.eq_of_clash hkt hj (.inl hid)
    exact hsel
  · intro h
    exact List.mem_map_of_mem (Table.mem_select.mpr ⟨hj, h⟩)

/-- Only a pending approval goes with a waiting job. -/
theorem ApprovalRequestRow.Matches.pending_of_waiting {a : ApprovalRequestRow}
    {j : OutboundJobRow} (h : a.Matches j) (hj : j.state = .waiting_approval) :
    a.state = .pending := by
  have hrefused : a.state.refused = true → False := fun ha => by
    have hrej := (h.refused ha).1
    rw [hj] at hrej
    exact absurd hrej (by decide)
  cases ha : a.state with
  | pending => rfl
  | approved => exact absurd hj (h.approved ha)
  | denied => exact (hrefused (by rw [ha]; rfl)).elim
  | expired => exact (hrefused (by rw [ha]; rfl)).elim
  | cancelled => exact (hrefused (by rw [ha]; rfl)).elim

section coupled
variable [Unicode]

structure Store.Coupled (s : Store) : Prop where
  /-- A message has one message job. -/
  message_job : ∀ j ∈ s.jobs, ∀ k ∈ s.jobs, j.purpose = .message →
    k.purpose = .message →
    j.message_id = k.message_id → j.id = k.id
  /-- Only message jobs wait for an approval. -/
  approval_job : ∀ a ∈ s.approvals, ∀ j ∈ s.jobs, j.id = a.job_id → j.purpose = .message
  matched : ∀ a ∈ s.approvals, ∀ j ∈ s.jobs, j.id = a.job_id → a.Matches j
  waiting : ∀ j ∈ s.jobs, j.state = .waiting_approval → ∃ a ∈ s.approvals, a.job_id = j.id
  unclaimed : ∀ j ∈ s.jobs, j.undispatched = true → j.attempt_id = none
  dated : ∀ a ∈ s.approvals, a.Dated

theorem Store.Coupled.empty : Store.empty.Coupled where
  message_job := fun _ h => absurd h Table.mem_empty
  approval_job := fun _ h => absurd h Table.mem_empty
  matched := fun _ h => absurd h Table.mem_empty
  waiting := fun _ h => absurd h Table.mem_empty
  unclaimed := fun _ h => absurd h Table.mem_empty
  dated := fun _ h => absurd h Table.mem_empty

variable {s s' : Store}

/-! ### Rewriting rows -/

/-- **Rewriting rule.** Approvals and jobs are rewritten in place; what is left
    to check is each approval against its own job. -/
theorem Store.Coupled.rewrite (hs : s.Coupled) {f : OutboundJobRow → OutboundJobRow}
    {g : ApprovalRequestRow → ApprovalRequestRow}
    (hjobs : s'.jobs.rows = s.jobs.rows.map f)
    (happrovals : s'.approvals.rows = s.approvals.rows.map g)
    (hmove : ∀ j ∈ s.jobs, j.Move (f j)) (hevolve : ∀ a ∈ s.approvals, a.Evolves (g a))
    (hmatch : ∀ a ∈ s.approvals, ∀ j ∈ s.jobs, j.id = a.job_id → a.Matches j →
      (g a).Matches (f j))
    (hdated : ∀ a ∈ s.approvals, a.Dated → (g a).Dated) : s'.Coupled := by
  have hjob_of : ∀ j' ∈ s'.jobs, ∃ j ∈ s.jobs, f j = j' := fun j' hj' => by
    rw [← Table.mem_rows, hjobs] at hj'
    exact List.mem_map.mp hj'
  have happroval_of : ∀ a' ∈ s'.approvals, ∃ a ∈ s.approvals, g a = a' := fun a' ha' => by
    rw [← Table.mem_rows, happrovals] at ha'
    exact List.mem_map.mp ha'
  have hid : ∀ j ∈ s.jobs, (f j).id = j.id := fun j hj =>
    congrArg Prod.fst (hmove j hj).request.key_eq
  have hjob : ∀ a ∈ s.approvals, (g a).job_id = a.job_id := fun a ha => by
    rw [(hevolve a ha).columns]
  constructor
  · intro j' hj' k' hk' hpj hpk hmsg
    obtain ⟨j, hj, rfl⟩ := hjob_of j' hj'
    obtain ⟨k, hk, rfl⟩ := hjob_of k' hk'
    rw [(hmove j hj).request] at hpj hmsg
    rw [(hmove k hk).request] at hpk hmsg
    rw [hid j hj, hid k hk]
    exact hs.message_job j hj k hk hpj hpk hmsg
  · intro a' ha' j' hj' hlink
    obtain ⟨a, ha, rfl⟩ := happroval_of a' ha'
    obtain ⟨j, hj, rfl⟩ := hjob_of j' hj'
    rw [hid j hj, hjob a ha] at hlink
    rw [(hmove j hj).request]
    exact hs.approval_job a ha j hj hlink
  · intro a' ha' j' hj' hlink
    obtain ⟨a, ha, rfl⟩ := happroval_of a' ha'
    obtain ⟨j, hj, rfl⟩ := hjob_of j' hj'
    rw [hid j hj, hjob a ha] at hlink
    exact hmatch a ha j hj hlink (hs.matched a ha j hj hlink)
  · intro j' hj' hwait
    obtain ⟨j, hj, rfl⟩ := hjob_of j' hj'
    -- no move leads to `waiting_approval`: the job waited before
    have hsame : f j = j := (hmove j hj).waiting_of hwait
    obtain ⟨a, ha, hlink⟩ := hs.waiting j hj (hsame ▸ hwait)
    refine ⟨g a, ?_, ?_⟩
    · rw [← Table.mem_rows, happrovals]
      exact List.mem_map_of_mem ha
    · rw [hjob a ha, hsame, hlink]
  · intro j' hj' hund
    obtain ⟨j, hj, rfl⟩ := hjob_of j' hj'
    exact (hmove j hj).unclaimed_of (hs.unclaimed j hj) hund
  · intro a' ha'
    obtain ⟨a, ha, rfl⟩ := happroval_of a' ha'
    exact hdated a ha (hs.dated a ha)

/-- The coupling reads jobs and approvals only. -/
theorem Store.Coupled.congr (hs : s.Coupled) (hjobs : s'.jobs = s.jobs)
    (happrovals : s'.approvals = s.approvals) : s'.Coupled := by
  refine hs.rewrite (f := id) (g := id) ?_ ?_ (fun j _ => .refl j) (fun a _ => .refl a)
    (fun _ _ _ _ _ h => h) (fun _ _ h => h)
  · rw [hjobs, List.map_id]
  · rw [happrovals, List.map_id]

/-- A rewriting of jobs that never touches an undispatched message job. -/
theorem Store.Coupled.rewrite_jobs (hs : s.Coupled) {f : OutboundJobRow → OutboundJobRow}
    (hjobs : s'.jobs.rows = s.jobs.rows.map f) (happrovals : s'.approvals = s.approvals)
    (hmove : ∀ j ∈ s.jobs, j.Move (f j))
    (hkeep : ∀ j ∈ s.jobs, j.state = .waiting_approval ∨ j.state = .rejected → f j = j)
    (hleave : ∀ j ∈ s.jobs, j.state ≠ .waiting_approval →
      (f j).state ≠ .waiting_approval) :
    s'.Coupled := by
  refine hs.rewrite (g := id) hjobs (by rw [happrovals, List.map_id]) hmove
    (fun a _ => .refl a) ?_ fun _ _ h => h
  intro a _ j hj _ hmatch
  refine ⟨fun ha => ?_, fun ha => hleave j hj (hmatch.approved ha), fun ha => ?_⟩
  · have hwait := hmatch.pending ha
    rw [hkeep j hj (.inl hwait)]
    exact hwait
  · have hrej := hmatch.refused ha
    rw [hkeep j hj (.inr hrej.1)]
    exact hrej

/-! ### Rejecting -/

/-- What closing does to an approval: it is resolved to `state` when `p` holds,
    else cancelled when its job is among the rejected ones. -/
def closeApproval (p : ApprovalRequestRow → Bool) (state : ApprovalState) (jobIds : List String)
    (nowIso : Instant) (a : ApprovalRequestRow) : ApprovalRequestRow :=
  if p a then a.resolve state nowIso
  else if a.state = .pending && a.job_id ∈ jobIds then a.resolve .cancelled nowIso
  else a

/-- Some pending approvals are closed, and then the undispatched jobs of a list
    of messages are rejected that contains the messages of those approvals. -/
theorem Store.Coupled.close (hs : s.Coupled) {s₁ : Store} {p : ApprovalRequestRow → Bool}
    {state : ApprovalState} {messageIds : List String} {nowIso : Instant}
    (failure : RejectionFailure)
    (hstate : state = .denied ∨ state = .expired) (hjobs : s₁.jobs = s.jobs)
    (happrovals : s₁.approvals.rows = s.approvals.rows.map fun a =>
      if p a then a.resolve state nowIso else a)
    (hpending : ∀ a ∈ s.approvals, p a = true → a.state = .pending)
    (hmessage : ∀ a ∈ s.approvals, p a = true → ∀ j ∈ s.jobs, j.id = a.job_id →
      j.message_id ∈ messageIds) :
    (rejectUndispatched s₁ messageIds failure nowIso).Coupled := by
  have hrows : (rejectUndispatched s₁ messageIds failure nowIso).jobs.rows =
      s.jobs.rows.map fun j =>
        if j.rejectable messageIds then j.reject failure nowIso else j := by
    rw [← hjobs]
    rfl
  have hcancel : (rejectUndispatched s₁ messageIds failure nowIso).approvals.rows =
      s.approvals.rows.map (closeApproval p state
        ((s.jobs.select (·.rejectable messageIds)).map (·.id)) nowIso) := by
    show List.map _ s₁.approvals.rows = _
    rw [happrovals, List.map_map, hjobs]
    apply List.map_congr_left
    intro a ha
    by_cases hp : p a = true
    · simp only [Function.comp, closeApproval, if_pos hp]
      rcases hstate with rfl | rfl <;> exact if_neg (by simp [ApprovalRequestRow.resolve])
    · simp only [Function.comp, closeApproval, if_neg hp]
  refine hs.rewrite hrows hcancel ?_ ?_ ?_ ?_
  · intro j _
    split
    · next hsel => exact j.reject_move _ _ (Bool.and_eq_true_iff.mp hsel).2
    · exact .refl j
  · intro a ha
    unfold closeApproval
    split
    · next hp => exact a.resolve_evolves _ _ (hpending a ha hp)
    · split
      · next hc => exact a.resolve_evolves _ _ (by simpa using (Bool.and_eq_true_iff.mp hc).1)
      · exact .refl a
  · intro a ha j hj hlink hmatch
    have hmem := mem_rejectable_ids messageIds hj
    rw [hlink] at hmem
    -- a pending approval has a waiting job without an attempt
    have hwaiting : a.state = .pending → j.state = .waiting_approval ∧ j.attempt_id = none := by
      intro hpend
      have hwait := hmatch.pending hpend
      exact ⟨hwait, hs.unclaimed j hj (by simp [OutboundJobRow.undispatched, hwait])⟩
    unfold closeApproval
    split
    · next hp =>
      obtain ⟨hwait, hattempt⟩ := hwaiting (hpending a ha hp)
      have hrej : j.rejectable messageIds = true := by
        simp [OutboundJobRow.rejectable, OutboundJobRow.undispatched, hwait,
          hmessage a ha hp j hj hlink]
      rw [if_pos hrej]
      exact matches_of_refused (by rcases hstate with rfl | rfl <;> rfl) rfl hattempt
    · split
      · next hc =>
        simp only [Bool.and_eq_true, decide_eq_true_eq] at hc
        rw [if_pos (hmem.mp hc.2)]
        exact matches_of_refused rfl rfl (hwaiting hc.1).2
      · next hc =>
        simp only [Bool.and_eq_true, decide_eq_true_eq, not_and] at hc
        split
        · next hrej =>
          have hund : j.undispatched = true := (Bool.and_eq_true_iff.mp hrej).2
          exact hmatch.reject_of failure nowIso hund fun hpend => hc hpend (hmem.mpr hrej)
        · exact hmatch
  · intro a ha hdated
    unfold closeApproval
    split
    · rcases hstate with rfl | rfl <;> exact a.resolve_dated (by simp)
        (fun h => absurd h (by decide))
    · split
      · exact a.resolve_dated (by simp) (fun h => absurd h (by decide))
      · exact hdated

theorem Store.Coupled.reject (hs : s.Coupled) (messageIds : List String)
    (failure : RejectionFailure) (nowIso : Instant) :
    (rejectUndispatched s messageIds failure nowIso).Coupled :=
  hs.close (p := fun _ => false) failure (.inl rfl) rfl (by simp) (by simp) (by simp)

/-! ### The other writes -/

theorem Store.Coupled.settleAttempt (hs : s.Coupled) (input : CompleteAttemptInput) :
    (settleAttempt s input).Coupled := by
  -- only a job in flight is settled, which neither waits nor becomes waiting
  have hflight : ∀ j, input.claims j = true → j.state = .in_flight := fun j hj => by
    simp only [CompleteAttemptInput.claims, Bool.and_eq_true, decide_eq_true_eq] at hj
    exact hj.1.2
  refine hs.rewrite_jobs (f := fun j => if input.claims j then input.settle j else j)
    rfl rfl ?_ ?_ ?_
  · intro j _
    split
    · next hj => exact CompleteAttemptInput.settle_move hj
    · exact .refl j
  · intro j _ hstate
    apply if_neg
    intro hj
    rw [hflight j hj] at hstate
    simp at hstate
  · intro j _ hstate
    split
    · intro hwait
      have hsettled := input.settle_settled j
      rw [hwait] at hsettled
      exact absurd hsettled (by decide)
    · exact hstate

theorem Store.Coupled.claimReadyJob (hs : s.Coupled) (input : ClaimJobInput) :
    (claimReadyJob s input).Coupled := by
  -- only a ready job is claimed
  have hready : ∀ j : OutboundJobRow, (decide (j.id = input.jobId) && decide (j.state = .ready))
      = true → j.state = .ready := fun j hj => by
    simpa using (Bool.and_eq_true_iff.mp hj).2
  refine hs.rewrite_jobs rfl rfl ?_ ?_ ?_
  · intro j _
    split
    · next hj =>
      exact ⟨rfl, .inr (hready j hj ▸ .in_flight), .inr ⟨hready j hj, rfl⟩⟩
    · exact .refl j
  · intro j _ hstate
    apply if_neg
    intro hj
    rw [hready j hj] at hstate
    simp at hstate
  · intro j _ hstate
    split
    · simp
    · exact hstate

theorem Store.Coupled.settleAbandonedClaims (hs : s.Coupled) (nowIso : Instant) :
    (settleAbandonedClaims s nowIso).Coupled := by
  have hflight : ∀ j : OutboundJobRow, j.abandoned nowIso = true → j.state = .in_flight :=
    fun j hj => by simpa using (Bool.and_eq_true_iff.mp hj).1
  refine hs.rewrite_jobs rfl rfl ?_ ?_ ?_
  · intro j _
    split
    · next hj => exact ⟨rfl, .inr (hflight j hj ▸ .settled rfl), .inl rfl⟩
    · exact .refl j
  · intro j _ hstate
    apply if_neg
    intro hj
    rw [hflight j hj] at hstate
    simp at hstate
  · intro j _ hstate
    split
    · simp
    · exact hstate

/-- An approval of a due message moves its own job to `ready`. -/
theorem Store.Coupled.approve (hs : s.Coupled) {a₀ : ApprovalRequestRow} {nowIso : Instant}
    (ha₀ : a₀ ∈ s.approvals) (hpending : a₀.state = .pending)
    (hdue : nowIso < a₀.expires_at) :
    (readyApprovedJob (resolveApproval s a₀.id .approved nowIso) a₀.job_id nowIso).Coupled := by
  have hsame : ∀ a ∈ s.approvals, a.id = a₀.id → a = a₀ := fun a ha hid =>
    s.approvals.eq_of_clash ha ha₀ (.inl hid)
  refine hs.rewrite
    (f := fun j => if decide (j.id = a₀.job_id) && decide (j.state = .waiting_approval)
      then { j with state := .ready, updated_at := nowIso } else j)
    (g := fun a => if decide (a.id = a₀.id) && decide (a.state = .pending)
      then a.resolve .approved nowIso else a) rfl rfl ?_ ?_ ?_ ?_
  · intro j _
    split
    · next hj =>
      have hwait : j.state = .waiting_approval := by
        simpa using (Bool.and_eq_true_iff.mp hj).2
      exact ⟨rfl, .inr (hwait ▸ .ready), .inl rfl⟩
    · exact .refl j
  · intro a _
    split
    · next ha => exact a.resolve_evolves _ _ (by simpa using (Bool.and_eq_true_iff.mp ha).2)
    · exact .refl a
  · intro a ha j _ hlink hmatch
    by_cases hid : a.id = a₀.id
    · obtain rfl := hsame a ha hid
      have hwait := hmatch.pending hpending
      simp only [hlink, hwait, hpending, decide_true, Bool.and_true, if_true]
      exact ⟨nofun, fun _ => by simp, nofun⟩
    · -- the job of another approval is another job
      have hjob : j.id ≠ a₀.job_id := fun hj =>
        hid (congrArg ApprovalRequestRow.id
          (s.approvals.eq_of_clash ha ha₀ (.inr (.inl (hlink.symm.trans hj)))))
      simpa [hid, hjob] using hmatch
  · intro a ha hdated
    split
    · next hsel =>
      obtain rfl := hsame a ha (by simpa using (Bool.and_eq_true_iff.mp hsel).1)
      exact a.resolve_dated (by simp) fun _ => hdue
    · exact hdated

/-! ### Submitting -/

section submitted
variable {input : SubmitOutboundInput} {ids : NewSubmissionIds}
  {identity : AccountSendingIdentity} {fromAddress : ExternalMailAddress} {needsApproval : Bool}

/-- A job after a submit is an old one, the message job or its notification. -/
theorem Submitted.job_cases (h : Submitted s input ids identity fromAddress needsApproval s')
    {j : OutboundJobRow} (hj : j ∈ s'.jobs) :
    j ∈ s.jobs ∨
    j = newJobRow ids.jobId input input.requestId ids.messageId identity.id .message
      (if needsApproval then .waiting_approval else .ready) ∨
    needsApproval = true ∧ j = newJobRow ids.notificationJobId input
      (approvalNotificationIdempotencyKey input.requestId) ids.messageId identity.id
      .approval_notification .ready := by
  rw [← Table.mem_rows, h.jobs, List.mem_append, List.mem_cons] at hj
  rcases hj with hj | hj | hj
  · exact .inl hj
  · exact .inr (.inl hj)
  · cases needsApproval with
    | false => exact absurd hj (by simp)
    | true => exact .inr (.inr ⟨rfl, by simpa using hj⟩)

theorem Submitted.approval_cases
    (h : Submitted s input ids identity fromAddress needsApproval s')
    {a : ApprovalRequestRow} (ha : a ∈ s'.approvals) :
    a ∈ s.approvals ∨ needsApproval = true ∧ a = newApprovalRow input ids := by
  rw [← Table.mem_rows, h.approvals, List.mem_append] at ha
  rcases ha with ha | ha
  · exact .inl ha
  · cases needsApproval with
    | false => exact absurd ha (by simp)
    | true => exact .inr ⟨rfl, by simpa using ha⟩

theorem Submitted.job_mem_of_old
    (h : Submitted s input ids identity fromAddress needsApproval s') {j : OutboundJobRow}
    (hj : j ∈ s.jobs) : j ∈ s'.jobs := by
  rw [← Table.mem_rows, h.jobs]
  exact List.mem_append_left _ hj

/-- The message of a submit is new. -/
theorem Submitted.fresh (h : Submitted s input ids identity fromAddress needsApproval s') :
    ∀ m ∈ s.messages, m.id ≠ ids.messageId := by
  obtain ⟨r, s₁, hwrite, -⟩ := h.written
  exact (newMessage_of_write hwrite).1

theorem Store.Coupled.submitted (hs : s.Coupled) (href : s.Referential)
    (h : Submitted s input ids identity fromAddress needsApproval s') : s'.Coupled := by
  -- old jobs belong to old messages, and old approvals to old jobs
  have hold : ∀ j ∈ s.jobs, j.message_id ≠ ids.messageId := by
    intro j hj hid
    obtain ⟨m, hm, hmid, -⟩ := href.jobs j hj
    exact h.fresh m hm (hmid.trans hid)
  have hown : ∀ a ∈ s.approvals, ∀ j ∈ s'.jobs, j.id = a.job_id → j ∈ s.jobs := by
    intro a ha j hj hlink
    obtain ⟨j₀, hj₀, hid⟩ := href.approvals a ha
    rwa [s'.jobs.eq_of_clash hj (h.job_mem_of_old hj₀) (.inl (hlink.trans hid.symm))]
  have hnew : ∀ j ∈ s'.jobs, j.id = ids.jobId → j = _ := fun j hj hid =>
    s'.jobs.eq_of_clash hj h.job_mem (.inl hid)
  constructor
  · intro j hj k hk hpj hpk hmsg
    rcases h.job_cases hj with hj | rfl | ⟨-, rfl⟩
    · rcases h.job_cases hk with hk | rfl | ⟨-, rfl⟩
      · exact hs.message_job j hj k hk hpj hpk hmsg
      · exact absurd hmsg (hold j hj)
      · exact absurd hmsg (hold j hj)
    · rcases h.job_cases hk with hk | rfl | ⟨-, rfl⟩
      · exact absurd hmsg.symm (hold k hk)
      · rfl
      · simp [newJobRow] at hpk
    · simp [newJobRow] at hpj
  · intro a ha j hj hlink
    rcases h.approval_cases ha with ha | ⟨-, rfl⟩
    · exact hs.approval_job a ha j (hown a ha j hj hlink) hlink
    · rw [hnew j hj hlink]
      rfl
  · intro a ha j hj hlink
    rcases h.approval_cases ha with ha | ⟨rfl, rfl⟩
    · exact hs.matched a ha j (hown a ha j hj hlink) hlink
    · rw [hnew j hj hlink]
      exact ⟨fun _ => rfl, nofun, nofun⟩
  · intro j hj hwait
    rcases h.job_cases hj with hj | rfl | ⟨-, rfl⟩
    · obtain ⟨a, ha, hlink⟩ := hs.waiting j hj hwait
      refine ⟨a, ?_, hlink⟩
      rw [← Table.mem_rows, h.approvals]
      exact List.mem_append_left _ ha
    · cases needsApproval with
      | false => simp [newJobRow] at hwait
      | true =>
        refine ⟨newApprovalRow input ids, ?_, rfl⟩
        rw [← Table.mem_rows, h.approvals]
        exact List.mem_append_right _ List.mem_cons_self
    · simp [newJobRow] at hwait
  · intro j hj hund
    rcases h.job_cases hj with hj | rfl | ⟨-, rfl⟩
    · exact hs.unclaimed j hj hund
    · rfl
    · rfl
  · intro a ha
    rcases h.approval_cases ha with ha | ⟨-, rfl⟩
    · exact hs.dated a ha
    · exact ⟨⟨fun _ => rfl, fun _ => rfl⟩, nofun⟩

end submitted

/-! ### Every command keeps the coupling -/

theorem mem_expiredMessageIds {a : ApprovalRequestRow} {j : OutboundJobRow} {nowIso : Instant}
    (ha : a ∈ s.approvals) (hdue : a.due nowIso = true) (hj : j ∈ s.jobs)
    (hlink : j.id = a.job_id) : j.message_id ∈ expiredMessageIds s nowIso := by
  refine List.mem_flatMap.mpr ⟨a, Table.mem_select.mpr ⟨ha, hdue⟩, ?_⟩
  exact List.mem_map_of_mem (Table.mem_select.mpr ⟨hj, by simpa using hlink⟩)

theorem Store.Coupled.completed (hs : s.Coupled) {j : OutboundJobRow}
    {input : CompleteAttemptInput} (h : recordOutcome s j input = .ok s') : s'.Coupled := by
  have hsettle := hs.settleAttempt input
  rcases recordOutcome_ok h with ⟨rfcMessageId, _, -, hlink⟩ |
    ⟨failureDetail, -, -, rfl⟩ | rfl
  · obtain ⟨self, -, -, survivor, merged, -, -, rfl⟩ := linkThread_ok hlink
    exact hsettle.congr rfl rfl
  · exact hsettle.reject _ _ _
  · exact hsettle

theorem Effect.coupled (h : Effect s s') (href : s.Referential) (hs : s.Coupled) :
    s'.Coupled := by
  cases h with
  | peripheral hsame => exact hs.congr hsame.jobs hsame.approvals
  | submitted input ids identity fromAddress needsApproval hsub => exact hs.submitted href hsub
  | accepted_inbound input r receipts hwrite =>
    have hframe := writeThreadedMail_frame hwrite
    exact hs.congr (by rw [hframe]) (by rw [hframe])
  | marked_read threadId isRead scope nowIso => exact hs.congr rfl rfl
  | deleted threadId scope deletedAt => exact (hs.reject _ _ _).congr rfl rfl
  | approved a j nowIso ha hpending hdue => exact hs.approve ha hpending hdue
  | denied a j nowIso ha hpending _ hj hlink _ =>
    -- the approval that is denied closes its own job
    refine hs.close (p := fun b => decide (b.id = a.id) && decide (b.state = .pending))
      _ (.inl rfl) rfl rfl ?_ ?_
    · intro b _ hb
      simpa using (Bool.and_eq_true_iff.mp hb).2
    · intro b hb hsel k hk hbk
      have hid : b.id = a.id := by simpa using (Bool.and_eq_true_iff.mp hsel).1
      obtain rfl := s.approvals.eq_of_clash hb ha (.inl hid)
      rw [s.jobs.eq_of_clash hk hj (.inl (hbk.trans hlink.symm))]
      exact List.mem_cons_self
  | rejected messageIds failure nowIso => exact hs.reject messageIds failure nowIso
  | expired nowIso =>
    -- every approval that is due closes the job it is for
    refine hs.close (p := (·.due nowIso)) _ (.inr rfl) rfl rfl ?_ ?_
    · intro a _ ha
      simpa using (Bool.and_eq_true_iff.mp ha).1
    · intro a ha hdue j hj hlink
      exact mem_expiredMessageIds ha hdue hj hlink
  | claimed j input => exact hs.claimReadyJob input
  | completed j input _ _ _ _ hrecord => exact hs.completed hrecord
  | settled nowIso => exact hs.settleAbandonedClaims nowIso

theorem Store.Reachable.coupled (h : s.Reachable) : s.Coupled := by
  refine h.invariant (P := Store.Coupled) ?_ ?_
  · intro s heq
    obtain rfl := heq
    exact .empty
  · intro s c s' hr hs hstep
    obtain rfl := Option.some.inj hstep
    exact (exec_effect s c).coupled (Store.Reachable.referential hr) hs

/-! ### What the coupling says -/

/-- `a` is an approval of the message. -/
def Store.ApprovalOf (s : Store) (a : ApprovalRequestRow) (messageId : String) : Prop :=
  a ∈ s.approvals ∧ ∃ j ∈ s.jobs, j.id = a.job_id ∧ j.message_id = messageId

/-- The approvals of a message belong to its message job. -/
theorem Store.Coupled.job_of_approval (hs : s.Coupled) {a : ApprovalRequestRow}
    {j : OutboundJobRow} (ha : s.ApprovalOf a j.message_id) (hj : j ∈ s.jobs)
    (hpurpose : j.purpose = .message) : j.id = a.job_id := by
  obtain ⟨ha, k, hk, hlink, hmsg⟩ := ha
  rw [← hlink]
  exact hs.message_job j hj k hk hpurpose (hs.approval_job a ha k hk hlink) hmsg.symm

/-- A resolved approval is in every later store. -/
theorem Store.Evolves.approval_mem (h : s.Evolves s') {a : ApprovalRequestRow}
    (ha : a ∈ s.approvals) (hresolved : a.state ≠ .pending) : a ∈ s'.approvals := by
  obtain ⟨a', ha', hev⟩ := h.approvals.exists_mem ha
  rwa [← hev.resolved hresolved]

/-- A claim is never forgotten. -/
theorem Store.Evolves.attempt_eq (h : s.Evolves s') (hs : s.Coupled) {j j' : OutboundJobRow}
    (hj : j ∈ s.jobs) (hj' : j' ∈ s'.jobs) (hid : j.id = j'.id)
    (hclaimed : j.attempt_id ≠ none) :
    j'.attempt_id = j.attempt_id := by
  have hev : j.Evolves j' := h.jobs.version (fun _ _ => OutboundJobRow.Evolves.key_eq) hj hj'
    (.inl hid)
  apply hev.attempt_eq
  by_contra hund
  exact hclaimed (hs.unclaimed j hj (by simpa using hund))

/-- **Approval and job stay coupled.** In every reachable store a message job
    waits exactly while its message has a pending approval, and there is one
    such approval; an approval has a resolution time exactly once it is not
    pending; a refused approval goes with a rejected job that was never
    claimed; a claimed job with an approval has it approved. The attempt column
    remembers every claim, and a resolved approval is frozen, whatever commands
    follow. -/
theorem approval_and_job_coupled (hr : s.Reachable) :
    (∀ j ∈ s.jobs, j.purpose = .message →
      (j.state = .waiting_approval ↔
        ∃ a, s.ApprovalOf a j.message_id ∧ a.state = .pending) ∧
      (j.state = .waiting_approval →
        ∃! a, s.ApprovalOf a j.message_id ∧ a.state = .pending) ∧
      (∀ a, s.ApprovalOf a j.message_id → a.state.refused = true →
        j.state = .rejected ∧ j.attempt_id = none) ∧
      (j.attempt_id ≠ none → ∀ a, s.ApprovalOf a j.message_id → a.state = .approved)) ∧
    (∀ a ∈ s.approvals, a.resolved_at ≠ none ↔ a.state ≠ .pending) ∧
    (∀ cs s', accountStore.Run s cs s' →
      (∀ j ∈ s.jobs, ∀ j' ∈ s'.jobs, j.id = j'.id → j.attempt_id ≠ none →
        j'.attempt_id = j.attempt_id) ∧
      (∀ a ∈ s.approvals, a.state ≠ .pending →
        a ∈ s'.approvals ∧ ∀ a' ∈ s'.approvals, a'.id = a.id → a' = a)) := by
  have hs := Store.Reachable.coupled hr
  have hmatch : ∀ j ∈ s.jobs, j.purpose = .message → ∀ a, s.ApprovalOf a j.message_id →
      a.Matches j := fun j hj hpurpose a ha =>
    hs.matched a ha.1 j hj (hs.job_of_approval ha hj hpurpose)
  refine ⟨fun j hj hpurpose => ⟨⟨fun hwait => ?_, ?_⟩, fun hwait => ?_, ?_, ?_⟩, ?_, ?_⟩
  · -- a waiting job has its approval, and the pair matches
    obtain ⟨a, ha, hlink⟩ := hs.waiting j hj hwait
    exact ⟨a, ⟨ha, j, hj, hlink.symm, rfl⟩,
      (hs.matched a ha j hj hlink.symm).pending_of_waiting hwait⟩
  · intro hex
    obtain ⟨a, ha, hpending⟩ := hex
    exact (hmatch j hj hpurpose a ha).pending hpending
  · obtain ⟨a, ha, hlink⟩ := hs.waiting j hj hwait
    refine ⟨a, ⟨⟨ha, j, hj, hlink.symm, rfl⟩,
      (hs.matched a ha j hj hlink.symm).pending_of_waiting hwait⟩, ?_⟩
    intro b hparts
    obtain ⟨hb, -⟩ := hparts
    -- the approvals of one message hold the same job, and a job has one approval
    have hjob : b.job_id = a.job_id := by
      rw [hlink, hs.job_of_approval hb hj hpurpose]
    exact s.approvals.eq_of_clash hb.1 ha (.inr (.inl hjob))
  · intro a ha hrefused
    exact (hmatch j hj hpurpose a ha).refused hrefused
  · intro hclaimed a ha
    have hfits := hmatch j hj hpurpose a ha
    -- every state but `approved` contradicts the claim
    cases hstate : a.state with
    | approved => rfl
    | pending =>
      have hwait := hfits.pending hstate
      exact absurd (hs.unclaimed j hj (by simp [OutboundJobRow.undispatched, hwait])) hclaimed
    | denied => exact absurd (hfits.refused (by rw [hstate]; rfl)).2 hclaimed
    | expired => exact absurd (hfits.refused (by rw [hstate]; rfl)).2 hclaimed
    | cancelled => exact absurd (hfits.refused (by rw [hstate]; rfl)).2 hclaimed
  · intro a ha
    exact not_congr (hs.dated a ha).resolved
  · intro cs s' hrun
    have hev := run_evolves hrun
    refine ⟨fun j hj j' hj' hid hclaimed => hev.attempt_eq hs hj hj' hid hclaimed, ?_⟩
    intro a ha hresolved
    have hmem := hev.approval_mem ha hresolved
    exact ⟨hmem, fun a' ha' hid => s'.approvals.eq_of_clash ha' hmem (.inl hid)⟩

end coupled

section sample
open Sample

theorem approval_and_job_coupled_waiting :
    ∃ j ∈ waitingStore.jobs, j.state = .waiting_approval ∧
      ∃! a, waitingStore.ApprovalOf a j.message_id ∧ a.state = .pending := by
  have hwaiting : ∃ j ∈ waitingStore.jobs, j.purpose = .message ∧
      j.state = .waiting_approval := by
    have hany : waitingStore.jobs.rows.any
        (fun j => j.purpose = .message && j.state = .waiting_approval) = true := by
      decide +kernel
    obtain ⟨j, hj, hsel⟩ := List.any_eq_true.mp hany
    exact ⟨j, hj, by simpa using hsel⟩
  obtain ⟨j, hj, hpurpose, hwait⟩ := hwaiting
  have hcoupled := approval_and_job_coupled waitingStore_reachable
  exact ⟨j, hj, hwait, (hcoupled.1 j hj hpurpose).2.1 hwait⟩

end sample

end Umail
