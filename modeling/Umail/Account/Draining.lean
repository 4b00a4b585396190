import Mathlib.Data.Finset.Card
import Umail.Account.Receipts
import Umail.Account.RuleUniqueness
import Umail.Mail.Dispatch

/-! # Work that is due

  The rows that are due at a time, each with the id the pass takes it by. The
  steps of a pass only take work out of this set (`Drains`), and the two that
  call out for one row, the dispatch of a job and the attempt at a route, have
  taken their row out of it when they end.
-/

namespace Umail

open Relational

section draining
variable [Unicode]

/-! ### The due set -/

/-- The ids of the rows that are due. A ready job is due at once. -/
def Store.dueIds (s : Store) (now : Instant) : DueWork (List String)
  | .approvals => (s.approvals.select (·.due now)).map (·.id)
  | .ready => (s.jobs.select (·.state = .ready)).map (·.id)
  | .claims => (s.jobs.select (·.abandoned now)).map (·.id)
  | .receipts =>
    (s.receipts.select fun r => r.work_state = .ready && r.retry_after ≤ now).map (·.id)
  | .routes => (s.routes.select fun r => r.retry_after.any (· ≤ now)).map (·.mailbox_id)

variable {s s' s'' : Store} {now : Instant} {source : DueWorkSource} {id : String}

theorem mem_dueIds_ready :
    id ∈ s.dueIds now .ready ↔ ∃ j ∈ s.jobs, j.state = .ready ∧ j.id = id := by
  simp [Store.dueIds, and_assoc]

theorem mem_dueIds_routes :
    id ∈ s.dueIds now .routes ↔
      ∃ r ∈ s.routes, r.retry_after.any (· ≤ now) = true ∧ r.mailbox_id = id := by
  simp only [Store.dueIds, List.mem_map, Table.mem_select, and_assoc]

/-- The time of each kind of work is the time of one of its rows. -/
theorem work_of_dueTimes {t : Instant} (h : dueTimes s source = some t) :
    s.Work source (some t) := by
  -- the earliest time stands in the column
  have hmem : some t ∈ dueColumn s source := by
    obtain ⟨due, hdue, heq⟩ := List.mem_filterMap.mp (List.min?_eq_some_iff.mp h).1
    obtain rfl : due = some t := heq
    exact hdue
  cases source with
  | approvals =>
    obtain ⟨a, ha, heq⟩ := List.mem_map.mp hmem
    obtain ⟨ha, hstate⟩ := Table.mem_select.mp ha
    exact heq ▸ .approval a ha (by simpa using hstate)
  | ready =>
    obtain ⟨j, hj, heq⟩ := List.mem_map.mp hmem
    obtain ⟨hj, hstate⟩ := Table.mem_select.mp hj
    exact heq ▸ .job j hj (by simpa using hstate)
  | claims =>
    obtain ⟨j, hj, heq⟩ := List.mem_map.mp hmem
    obtain ⟨hj, hstate⟩ := Table.mem_select.mp hj
    exact heq ▸ .claim j hj (by simpa using hstate)
  | receipts =>
    obtain ⟨r, hr, heq⟩ := List.mem_map.mp hmem
    obtain ⟨hr, hstate⟩ := Table.mem_select.mp hr
    exact heq ▸ .receipt r hr (by simpa using hstate)
  | routes =>
    obtain ⟨r, hr, heq⟩ := List.mem_map.mp hmem
    exact .route r t hr heq

/-- Work whose time has come is in the due set. -/
theorem Store.Work.mem_dueIds {t : Instant} (h : s.Work source (some t)) (ht : t ≤ now) :
    ∃ id, id ∈ s.dueIds now source := by
  generalize hdue : some t = due at h
  cases h with
  | approval a ha hstate =>
    obtain rfl := Option.some.inj hdue
    exact ⟨a.id,
      List.mem_map.mpr ⟨a, by simp [ha, hstate, ht, ApprovalRequestRow.due], rfl⟩⟩
  | job j hj hstate => exact ⟨j.id, mem_dueIds_ready.mpr ⟨j, hj, hstate, rfl⟩⟩
  | claim j hj hstate =>
    exact ⟨j.id, List.mem_map.mpr
      ⟨j, by simp [hj, hstate, ← hdue, ht, OutboundJobRow.abandoned], rfl⟩⟩
  | receipt r hr hstate =>
    obtain rfl := Option.some.inj hdue
    exact ⟨r.id, List.mem_map.mpr ⟨r, by simp [hr, hstate, ht], rfl⟩⟩
  | route r t' hr hretry =>
    obtain rfl := Option.some.inj hdue
    exact ⟨r.mailbox_id, mem_dueIds_routes.mpr ⟨r, hr, by simp [hretry, ht], rfl⟩⟩

/-- Everything that is due, as one set. -/
def Store.dueWork (s : Store) (now : Instant) : Finset (DueWorkSource × String) :=
  (dueWorkSources.flatMap fun source => (s.dueIds now source).map (source, ·)).toFinset

theorem mem_dueWork : (source, id) ∈ s.dueWork now ↔ id ∈ s.dueIds now source := by
  simp [Store.dueWork, mem_dueWorkSources]

/-! ### Draining -/

/-- Nothing becomes due. -/
def Drains (now : Instant) (s s' : Store) : Prop :=
  ∀ source id, id ∈ s'.dueIds now source → id ∈ s.dueIds now source

theorem Drains.refl (now : Instant) (s : Store) : Drains now s s := fun _ _ h => h

theorem Drains.trans (h : Drains now s s') (h' : Drains now s' s'') : Drains now s s'' :=
  fun source id hid => h source id (h' source id hid)

theorem Drains.subset (h : Drains now s s') : s'.dueWork now ⊆ s.dueWork now := by
  intro (source, id) hid
  exact mem_dueWork.mpr (h source id (mem_dueWork.mp hid))

/-- Due rows were there before, table by table. -/
theorem Drains.of (happrovals : ∀ a ∈ s'.approvals, a.due now = true → a ∈ s.approvals)
    (hready : ∀ j ∈ s'.jobs, j.state = .ready → j ∈ s.jobs)
    (hclaims : ∀ j ∈ s'.jobs, j.abandoned now = true → j ∈ s.jobs)
    (hreceipts : ∀ r ∈ s'.receipts, r.retry_after ≤ now → r ∈ s.receipts)
    (hroutes : ∀ r ∈ s'.routes, r.retry_after.any (· ≤ now) = true →
      ∃ r₀ ∈ s.routes, r₀.mailbox_id = r.mailbox_id ∧ r₀.retry_after = r.retry_after) :
    Drains now s s' := by
  intro source id hid
  -- the rows of a source that are due now were due before
  cases source with
  | approvals =>
    obtain ⟨a, ha, rfl⟩ := List.mem_map.mp hid
    obtain ⟨ha, hdue⟩ := Table.mem_select.mp ha
    exact List.mem_map_of_mem (Table.mem_select.mpr ⟨happrovals a ha hdue, hdue⟩)
  | ready =>
    obtain ⟨j, hj, rfl⟩ := List.mem_map.mp hid
    obtain ⟨hj, hdue⟩ := Table.mem_select.mp hj
    exact List.mem_map_of_mem
      (Table.mem_select.mpr ⟨hready j hj (by simpa using hdue), hdue⟩)
  | claims =>
    obtain ⟨j, hj, rfl⟩ := List.mem_map.mp hid
    obtain ⟨hj, hdue⟩ := Table.mem_select.mp hj
    exact List.mem_map_of_mem (Table.mem_select.mpr ⟨hclaims j hj hdue, hdue⟩)
  | receipts =>
    obtain ⟨r, hr, rfl⟩ := List.mem_map.mp hid
    obtain ⟨hr, hdue⟩ := Table.mem_select.mp hr
    have htime : r.retry_after ≤ now := by
      simp only [Bool.and_eq_true, decide_eq_true_eq] at hdue
      exact hdue.2
    exact List.mem_map_of_mem (Table.mem_select.mpr ⟨hreceipts r hr htime, hdue⟩)
  | routes =>
    obtain ⟨r, hr, hdue, rfl⟩ := mem_dueIds_routes.mp hid
    obtain ⟨r₀, hr₀, hmailbox, hretry⟩ := hroutes r hr hdue
    exact mem_dueIds_routes.mpr ⟨r₀, hr₀, hretry ▸ hdue, hmailbox⟩

theorem Drains.of_jobs (happrovals : ∀ a ∈ s'.approvals, a.due now = true → a ∈ s.approvals)
    (hready : ∀ j ∈ s'.jobs, j.state = .ready → j ∈ s.jobs)
    (hclaims : ∀ j ∈ s'.jobs, j.abandoned now = true → j ∈ s.jobs)
    (hreceipts : s'.receipts = s.receipts) (hroutes : s'.routes = s.routes) : Drains now s s' :=
  .of happrovals hready hclaims (fun _ hr _ => hreceipts ▸ hr)
    fun r hr _ => ⟨r, hroutes ▸ hr, rfl, rfl⟩

/-! ### Approvals and jobs -/

theorem rejectUndispatched_drains (messageIds : List String) (failure : RejectionFailure)
    (nowIso : Instant) : Drains now s (rejectUndispatched s messageIds failure nowIso) := by
  refine .of_jobs ?_ ?_ ?_ rfl rfl
  · intro a' ha' hdue
    rcases Table.mem_updated rfl ha' with ⟨hold, -⟩ | ⟨a, -, -, rfl⟩
    · exact hold
    · simp [ApprovalRequestRow.due, ApprovalRequestRow.resolve] at hdue
  · intro j hj hstate
    exact mem_jobs_of_rejectUndispatched hj (by simp [hstate])
  · intro j hj hdue
    apply mem_jobs_of_rejectUndispatched hj
    intro hstate
    simp [OutboundJobRow.abandoned, hstate] at hdue

/-- A job of one of these messages is not ready any more. -/
theorem rejectUndispatched_unready {messageIds : List String} {failure : RejectionFailure}
    {nowIso : Instant}
    (hid : ∀ j ∈ s.jobs, j.id = id → j.state = .ready → j.message_id ∈ messageIds) :
    id ∉ (rejectUndispatched s messageIds failure nowIso).dueIds now .ready := by
  intro hdue
  obtain ⟨j', hj', hstate, rfl⟩ := mem_dueIds_ready.mp hdue
  rcases Table.mem_updated rfl hj' with ⟨hold, hkept⟩ | ⟨j, -, -, rfl⟩
  · have hmessage := hid j' hold rfl hstate
    simp [OutboundJobRow.rejectable, OutboundJobRow.undispatched, hmessage, hstate] at hkept
  · exact absurd hstate (by simp [OutboundJobRow.reject])

theorem expireApprovals_drains : Drains now s (expireApprovals s now) := by
  refine .of_jobs ?_ (fun _ hj _ => hj) (fun _ hj _ => hj) rfl rfl
  intro a' ha' hdue
  rcases Table.mem_updated rfl ha' with ⟨hold, -⟩ | ⟨a, -, -, rfl⟩
  · exact hold
  · simp [ApprovalRequestRow.due, ApprovalRequestRow.resolve] at hdue

theorem expireDueApprovals_drains : Drains now s (expireDueApprovals s now) :=
  expireApprovals_drains.trans (rejectUndispatched_drains _ _ _)

/-- **Expiring.** No approval is due afterwards. -/
theorem expireDueApprovals_done : id ∉ (expireDueApprovals s now).dueIds now .approvals := by
  intro hdue
  have hexpired := rejectUndispatched_drains (s := expireApprovals s now) _ _ _ _ _ hdue
  obtain ⟨a', ha', rfl⟩ := List.mem_map.mp hexpired
  obtain ⟨ha', hdue'⟩ := Table.mem_select.mp ha'
  rcases Table.mem_updated rfl ha' with ⟨-, hnot⟩ | ⟨a, -, -, rfl⟩
  · exact absurd hdue' (by simp [hnot])
  · simp [ApprovalRequestRow.due, ApprovalRequestRow.resolve] at hdue'

theorem settleAbandonedClaims_drains : Drains now s (settleAbandonedClaims s now) := by
  have hjobs : ∀ j' ∈ (settleAbandonedClaims s now).jobs, j'.state ≠ .unknown →
      j' ∈ s.jobs := by
    intro j' hj' hstate
    rcases Table.mem_updated rfl hj' with ⟨hold, -⟩ | ⟨j, -, -, rfl⟩
    · exact hold
    · exact absurd rfl hstate
  refine .of_jobs (fun _ ha _ => ha) ?_ ?_ rfl rfl
  · intro j hj hstate
    exact hjobs j hj (by simp [hstate])
  · intro j hj hdue
    apply hjobs j hj
    intro hstate
    simp [OutboundJobRow.abandoned, hstate] at hdue

/-- **Settling.** No claim is due afterwards. -/
theorem settleAbandonedClaims_done : id ∉ (settleAbandonedClaims s now).dueIds now .claims := by
  intro hdue
  obtain ⟨j', hj', rfl⟩ := List.mem_map.mp hdue
  obtain ⟨hj', hdue'⟩ := Table.mem_select.mp hj'
  rcases Table.mem_updated rfl hj' with ⟨-, hnot⟩ | ⟨j, -, -, rfl⟩
  · exact absurd hdue' (by simp [hnot])
  · simp [OutboundJobRow.abandoned] at hdue'

/-! ### Sending -/

variable {input : ClaimJobInput}

/-- A ready job can be read. -/
theorem readJob_ready (hs : s.Referential) (hid : id ∈ s.dueIds now .ready) :
    ∃ j, readJob s id = some j ∧ j.row.state = .ready := by
  obtain ⟨j, hj, hstate, rfl⟩ := mem_dueIds_ready.mp hid
  obtain ⟨m, hm, hmessage, -⟩ := hs.jobs j hj
  exact ⟨_, readJob_of_mem hj hm hmessage, hstate⟩

theorem claimReadyJob_drains (hexpires : now < input.claimExpiresAt) :
    Drains now s (claimReadyJob s input) := by
  refine .of_jobs (fun _ ha _ => ha) ?_ ?_ rfl rfl
  · intro j' hj' hstate
    rcases Table.mem_updated rfl hj' with ⟨hold, -⟩ | ⟨j, -, -, rfl⟩
    · exact hold
    · exact absurd hstate (by simp)
  · intro j' hj' hdue
    rcases Table.mem_updated rfl hj' with ⟨hold, -⟩ | ⟨j, -, -, rfl⟩
    · exact hold
    · -- the claim has just begun
      simp [OutboundJobRow.abandoned, not_le_of_gt hexpires] at hdue

theorem claimReadyJob_unready : input.jobId ∉ (claimReadyJob s input).dueIds now .ready := by
  intro hdue
  obtain ⟨j', hj', hstate, hid⟩ := mem_dueIds_ready.mp hdue
  rcases Table.mem_updated rfl hj' with ⟨-, hnot⟩ | ⟨j, -, -, rfl⟩
  · simp [hid, hstate] at hnot
  · exact absurd hstate (by simp)

theorem claimJob_drains {r : ClaimJobResult} (h : claimJob s input = .ok (r, s'))
    (hexpires : now < input.claimExpiresAt) : Drains now s s' := by
  rcases claimJob_ok h with ⟨rfl, -⟩ |
    ⟨j, -, -, ⟨rejection, -, rfl, -⟩ | ⟨-, rfl, -⟩⟩
  · exact .refl now _
  · exact rejectUndispatched_drains _ _ _
  · exact claimReadyJob_drains hexpires

/-- **Claiming.** Whatever a claim returns, its job is not ready any more. -/
theorem claimJob_unready {r : ClaimJobResult} (hs : s.Referential)
    (h : claimJob s input = .ok (r, s')) : input.jobId ∉ s'.dueIds now .ready := by
  unfold claimJob at h
  split at h
  · next hmissing =>
    obtain ⟨-, rfl⟩ := ok_pair_inj h
    intro hdue
    obtain ⟨j, hj, -⟩ := readJob_ready hs hdue
    exact absurd (hmissing.symm.trans hj) (by simp)
  · next current hcurrent =>
    obtain ⟨hrow, hid, -⟩ := readJob_some hcurrent
    split at h
    · next hstate =>
      obtain ⟨-, rfl⟩ := ok_pair_inj h
      intro hdue
      obtain ⟨j, hj, hready⟩ := readJob_ready hs hdue
      obtain rfl := Option.some.inj (hcurrent.symm.trans hj)
      -- it was read in another state, and the store did not change
      exact hstate hready
    · split at h
      · obtain ⟨job, -, h⟩ := bind_eq_ok.mp h
        obtain ⟨-, rfl⟩ := ok_pair_inj h
        -- refused by policy: the job is rejected with its message
        refine rejectUndispatched_unready ?_
        intro j hj hjid _
        obtain rfl := s.jobs.eq_of_clash hj hrow (.inl (hjid.trans hid.symm))
        exact List.mem_singleton.mpr rfl
      · obtain ⟨job, -, h⟩ := bind_eq_ok.mp h
        obtain ⟨-, rfl⟩ := ok_pair_inj h
        exact claimReadyJob_unready

theorem settleAttempt_drains (input : CompleteAttemptInput) :
    Drains now s (settleAttempt s input) := by
  have hsettled : ∀ j' ∈ (settleAttempt s input).jobs, j'.state.settled = false →
      j' ∈ s.jobs := by
    intro j' hj' hstate
    rcases Table.mem_updated rfl hj' with ⟨hold, -⟩ | ⟨j, -, -, rfl⟩
    · exact hold
    · exact absurd (input.settle_settled j) (by simp [hstate])
  refine .of_jobs (fun _ ha _ => ha) ?_ ?_ rfl rfl
  · intro j hj hstate
    exact hsettled j hj (by simp [hstate, OutboundJobState.settled])
  · intro j hj hdue
    have hflight : j.state = .in_flight := by simpa using (Bool.and_eq_true_iff.mp hdue).1
    exact hsettled j hj (by simp [hflight, OutboundJobState.settled])

theorem completeAttempt_drains {input : CompleteAttemptInput} {r : CompleteAttemptResult}
    (h : completeAttempt s input = .ok (r, s')) : Drains now s s' := by
  rcases completeAttempt_ok h with rfl | ⟨j, -, -, -, -, hrecord⟩
  · exact .refl now _
  · have hsettle : Drains now s (settleAttempt s input) := settleAttempt_drains input
    rcases recordOutcome_ok hrecord with ⟨_, _, -, hlink⟩ | ⟨_, -, -, rfl⟩ | rfl
    · -- linking touches messages only
      obtain ⟨self, -, -, survivor, merged, -, -, rfl⟩ := linkThread_ok hlink
      exact hsettle
    · exact hsettle.trans (rejectUndispatched_drains _ _ _)
    · exact hsettle

/-- What a dispatch knows of its job between two steps. -/
def Dispatch.Tracks (s : Store) (d : Dispatch) : Prop :=
  match d.point with
  | .reading | .authorizing _ _ | .identifying _ _ _ | .claiming _ _ _ _ => True
  | .preparing dispatch | .rejecting dispatch _ =>
    ∀ j ∈ s.jobs, j.id = d.jobId → j.message_id = dispatch.job.messageId
  | .sending _ | .awaiting _ | .completing _ _ => d.jobId ∉ s.dueIds d.nowMs .ready

/-- What a dispatch reads is its job. -/
theorem readDispatch_job {dispatch : OutboundDispatch}
    (h : readDispatch s id = .ok (some dispatch)) :
    ∃ j, readJob s id = some j ∧ dispatch.job = toOutboundJob j := by
  unfold readDispatch at h
  split at h
  · exact absurd h (by simp)
  · next j hj =>
    split at h
    · exact absurd h (by simp)
    · obtain rfl := Option.some.inj (Except.ok.inj h)
      exact ⟨j, hj, rfl⟩

/-- A dispatch that ends at its read finds no ready job. -/
theorem Dispatch.reading_unready {ports : DispatchPorts} {w w' : MailState} {d : Dispatch}
    {reply : DispatchReply} (hs : w.store.Referential) (hpoint : d.point = .reading)
    (hthrows : d.throws w = false) (h : d.step ports w reply = some (w', none)) :
    w' = w ∧ d.jobId ∉ w.store.dueIds now .ready := by
  unfold Dispatch.throws at hthrows
  unfold Dispatch.step at h
  rw [hpoint] at h hthrows
  cases reply with
  | policy _ | random _ | outcome _ => exact absurd h (by simp)
  | unit =>
    simp only at h hthrows
    split at h
    · next dispatch hread =>
      split at h
      · next hstate =>
        obtain ⟨rfl, -⟩ := Lts.some_pair_inj h
        refine ⟨rfl, fun hdue => ?_⟩
        obtain ⟨j, hj, hready⟩ := readJob_ready hs hdue
        obtain ⟨j', hj', hjob⟩ := readDispatch_job hread
        obtain rfl := Option.some.inj (hj.symm.trans hj')
        rw [hjob] at hstate
        exact hstate hready
      · exact absurd h (by simp)
    · next hnot =>
      obtain ⟨rfl, -⟩ := Lts.some_pair_inj h
      refine ⟨rfl, fun hdue => ?_⟩
      -- the read neither throws nor misses a ready job
      obtain ⟨j, hj, -⟩ := readJob_ready hs hdue
      cases hread : readDispatch w.store d.jobId with
      | error e => exact absurd hthrows (by simp [hread, Except.toOption])
      | ok found =>
        cases found with
        | some dispatch => exact hnot dispatch hread
        | none =>
          unfold readDispatch at hread
          rw [hj] at hread
          simp only at hread
          split at hread
          · exact absurd hread (by simp)
          · exact absurd hread (by simp)

/-- **Dispatching.** Nothing becomes due; and when the dispatch ends without
    throwing, its job is not ready any more. -/
theorem Dispatch.Tracks.step {ports : DispatchPorts} {w w' : MailState} {d : Dispatch}
    {reply : DispatchReply} {next : Option Dispatch} (hs : w.store.Referential)
    (h : d.Tracks w.store) (hthrows : d.throws w = false)
    (hstep : d.step ports w reply = some (w', next)) :
    Drains d.nowMs w.store w'.store ∧
      match next with
      | some d' => d'.jobId = d.jobId ∧ d'.nowMs = d.nowMs ∧ d'.Tracks w'.store
      | none => d.jobId ∉ w'.store.dueIds d.nowMs .ready := by
  -- a claim outlives the pass, so it is not due in it
  have hexpires : d.nowMs < sendClaimUntil d.nowMs := Nat.lt_add_of_pos_right (by decide)
  unfold Dispatch.Tracks at h
  cases Dispatch.moves_of_step hstep with
  | leaves hpoint =>
    exact ⟨.refl _ _, (Dispatch.reading_unready hs hpoint hthrows hstep).2⟩
  | reads dispatch hpoint hread hready =>
    refine ⟨.refl _ _, rfl, rfl, ?_⟩
    intro j hj hid
    obtain ⟨j', hj', hjob⟩ := readDispatch_job hread
    obtain ⟨hrow, hid', -⟩ := readJob_some hj'
    obtain rfl := w.store.jobs.eq_of_clash hj hrow (.inl (hid.trans hid'.symm))
    rw [hjob]
    rfl
  | refuses dispatch detail hpoint =>
    rw [hpoint] at h
    exact ⟨.refl _ _, rfl, rfl, h⟩
  | prepares => exact ⟨.refl _ _, rfl, rfl, trivial⟩
  | rejects dispatch detail hpoint =>
    rw [hpoint] at h
    refine ⟨rejectUndispatched_drains _ _ _, rejectUndispatched_unready ?_⟩
    intro j hj hid _
    exact List.mem_singleton.mpr (h j hj hid)
  | authorizes => exact ⟨.refl _ _, rfl, rfl, trivial⟩
  | identifies => exact ⟨.refl _ _, rfl, rfl, trivial⟩
  | claims dispatch mail policy attemptId job s hpoint hclaim =>
    exact ⟨claimJob_drains hclaim hexpires, rfl, rfl, claimJob_unready hs hclaim⟩
  | yields dispatch mail policy attemptId hpoint =>
    unfold Dispatch.throws at hthrows
    rw [hpoint] at hthrows
    -- a claim that throws ends the pass, so `hthrows` leaves a refused one
    cases hclaim : claimJob w.store (d.claimInput policy attemptId) with
    | error e => exact absurd hthrows (by simp [hclaim, Except.toOption])
    | ok out =>
      have hexec : w.store.exec (.claimJob (d.claimInput policy attemptId)) = out.2 := by
        show committedSnd w.store (claimJob w.store _) = out.2
        rw [hclaim]
        rfl
      simp only [hexec]
      exact ⟨claimJob_drains hclaim hexpires, claimJob_unready hs hclaim⟩
  | sends call hpoint =>
    rw [hpoint] at h
    exact ⟨.refl _ _, rfl, rfl, h⟩
  | hears call outcome hpoint =>
    rw [hpoint] at h
    exact ⟨.refl _ _, rfl, rfl, h⟩
  | completes call outcome hpoint =>
    rw [hpoint] at h
    have hdrains : Drains d.nowMs w.store
        (w.store.exec (.completeAttempt (d.completeInput call outcome))) :=
      committedSnd_of (.refl _ _) fun _ _ => completeAttempt_drains
    exact ⟨hdrains, fun hdue => h (hdrains _ _ hdue)⟩

/-! ### Receipts and routes -/

theorem redriveDueInboundReceipts_drains (limit : Nat) :
    Drains now s (redriveDueInboundReceipts s now limit).2 := by
  refine .of (fun _ ha _ => ha) (fun _ hj _ => hj) (fun _ hj _ => hj) ?_
    fun r hr _ => ⟨r, hr, rfl, rfl⟩
  intro r' hr' htime
  rcases Table.mem_updated rfl hr' with ⟨hold, -⟩ | ⟨r, -, -, rfl⟩
  · exact hold
  · exact absurd htime (not_le_of_gt (redriveAfter_bounds now r.received_at).1)

/-- **Redriving.** The receipts of a pass are not due any more. -/
theorem redriveDueInboundReceipts_done {limit : Nat}
    (hid : id ∈ (redriveDueInboundReceipts s now limit).1) :
    id ∉ (redriveDueInboundReceipts s now limit).2.dueIds now .receipts := by
  intro hdue
  obtain ⟨r', hr', rfl⟩ := List.mem_map.mp hdue
  obtain ⟨hr', hdue'⟩ := Table.mem_select.mp hr'
  simp only [Bool.and_eq_true, decide_eq_true_eq] at hdue'
  rcases Table.mem_updated rfl hr' with ⟨-, hnot⟩ | ⟨r, -, -, rfl⟩
  · exact of_decide_eq_false hnot hid
  · exact absurd hdue'.2 (not_le_of_gt (redriveAfter_bounds now r.received_at).1)

/-- The write makes its route due at no earlier time. -/
def RouteWrite.Defers (write : RouteWrite) (s : Store) (id : String) (now : Instant) : Prop :=
  ∀ r : MailboxRouteRow, (write.assign s id r).retry_after = r.retry_after ∨
    (write.assign s id r).retry_after.any (· ≤ now) = false

theorem writeRoute_drains {write : RouteWrite} (h : write.Defers s id now) :
    Drains now s (writeRoute s id write) := by
  refine .of (fun _ ha _ => ha) (fun _ hj _ => hj) (fun _ hj _ => hj) (fun _ hr _ => hr) ?_
  intro r' hr' hdue
  rcases Table.mem_updated (writeRoute_rows s id write) hr' with ⟨hold, -⟩ | ⟨r, hr, -, rfl⟩
  · exact ⟨r', hold, rfl, rfl⟩
  · rcases h r with hsame | hlater
    · exact ⟨r, hr, (write.assign_mailbox s id r).symm, hsame.symm⟩
    · exact absurd hdue (by simp [hlater])

/-- A write that leaves no route due. -/
theorem writeRoute_undue {write : RouteWrite}
    (h : ∀ r, (write.assign s id r).retry_after.any (· ≤ now) = false) :
    Drains now s (writeRoute s id write) ∧ id ∉ (writeRoute s id write).dueIds now .routes := by
  refine ⟨writeRoute_drains fun r => .inr (h r), ?_⟩
  intro hdue
  obtain ⟨r', hr', hdue', hid⟩ := mem_dueIds_routes.mp hdue
  rcases Table.mem_updated (writeRoute_rows s id write) hr' with ⟨-, hnot⟩ | ⟨r, -, -, rfl⟩
  · exact absurd hid (by simpa using hnot)
  · exact absurd hdue' (by simp [h r])

/-- A failure is retried later, or not at all. -/
theorem recordRouteFailure_undue (row : DueRoute) (e : RecipientRuleError) :
    Drains now s (recordRouteFailure s row now e) ∧
      row.mailbox_id ∉ (recordRouteFailure s row now e).dueIds now .routes := by
  refine writeRoute_undue fun r => ?_
  unfold RouteWrite.assign
  by_cases hretry : e.retryable = true
  · have hdelay : 0 < retryDelay (row.attempts + 1) :=
      lt_min (Nat.mul_pos (by decide) (Nat.pow_pos (by decide))) (by decide)
    simp [hretry, hdelay.ne']
  · simp [hretry]

/-- Every route has its mailbox. -/
def Store.RoutesOwned (s : Store) : Prop :=
  ∀ r ∈ s.routes, ∃ a ∈ s.addresses, a.id = r.mailbox_id

theorem Store.RoutesOwned.administer (h : s.RoutesOwned) (hs : Administers s s') :
    s'.RoutesOwned := by
  intro r' hr'
  rcases hs.routes.mem_cases hr' with ⟨r, hr, hsame⟩ | ⟨-, hnew⟩
  · obtain ⟨a, ha, hid⟩ := h r hr
    obtain ⟨a', ha', hlater⟩ := hs.addresses.exists_mem ha
    exact ⟨a', ha', hlater.id.trans (hid.trans hsame.mailbox.symm)⟩
  · exact hnew

theorem Store.RoutesOwned.write (h : s.RoutesOwned) (id : String) (write : RouteWrite) :
    (writeRoute s id write).RoutesOwned := by
  intro r' hr'
  rcases Table.mem_updated (writeRoute_rows s id write) hr' with ⟨hold, -⟩ | ⟨r, hr, -, rfl⟩
  · exact h r' hold
  · rw [write.assign_mailbox]
    exact h r hr

theorem Store.Reachable.routesOwned (h : s.Reachable) : s.RoutesOwned := by
  refine Lts.Machine.Reachable.invariant (P := Store.RoutesOwned) ?_ ?_ h
  · intro s hs
    subst hs
    exact fun r hr => absurd hr Table.mem_empty
  · intro s c s' _ hs hstep
    obtain rfl := Option.some.inj hstep
    by_cases hc : ∀ id write, c ≠ .writeRoute id write
    · exact hs.administer (exec_administers s hc)
    · push Not at hc
      obtain ⟨id, write, rfl⟩ := hc
      exact hs.write id write

/-- A mailbox that cannot be read has no route. -/
theorem Store.RoutesOwned.gone (h : s.RoutesOwned) (hgone : getAddress s id = none) :
    id ∉ s.dueIds now .routes := by
  intro hdue
  obtain ⟨r, hr, -, rfl⟩ := mem_dueIds_routes.mp hdue
  obtain ⟨a, ha, hid⟩ := h r hr
  have hread := List.findSome?_eq_none_iff.mp hgone a ha
  rw [if_pos (by simpa using hid), Option.map_eq_none_iff, Table.find?_eq_none] at hread
  exact of_decide_eq_false (hread r hr) hid.symm

/-- A call in flight knows whether its mailbox is retired. -/
structure RouteAwait.Tracks (s : Store) (id : String) (call : RouteAwait) : Prop where
  own : call.attempt.id = id
  seen : retiredNow s id = call.lastRead.retiredAt.isSome
  intended : call.Intended

/-- How a piece of an attempt leaves its route. A failure is recorded after it. -/
def RouteOutcome.Tracks (s : Store) (now : Instant) (id : String) : RouteOutcome → Prop
  | .awaits call => call.Tracks s id
  | .returns _ => id ∉ s.dueIds now .routes
  | .fails _ _ => True

section attempt
variable {ports : RecipientRoutingPorts} {a : RouteAttempt} {current : AccountAddress}
  {out : RouteOutcome}

theorem writeRoute_rule_drains (ruleId : String) : Drains now s (writeRoute s id (.rule ruleId)) :=
  writeRoute_drains fun _ => .inl rfl

theorem writeRoute_removed_undue : Drains now s (writeRoute s id .removed) ∧
    id ∉ (writeRoute s id .removed).dueIds now .routes := writeRoute_undue fun _ => rfl

/-- A confirmation is final when no retirement has come in between. -/
theorem Confirms.tracks {saved : RecipientRule} (h : Confirms ports s a current saved now s' out)
    (hret : retiredNow s a.id = false) : Drains now s s' ∧ out.Tracks s' now a.id := by
  cases h with
  | refused e => exact ⟨writeRoute_rule_drains saved.id, trivial⟩
  | confirmed =>
    have hlater : ∀ r, ((RouteWrite.confirmed saved.id now).assign
        (writeRoute s a.id (.rule saved.id)) a.id r).retry_after.any (· ≤ now) = false := by
      intro r
      simp [RouteWrite.assign, hret]
    obtain ⟨hdrains, hundue⟩ := writeRoute_undue hlater
    exact ⟨(writeRoute_rule_drains saved.id).trans hdrains, hundue⟩

theorem Settles.tracks {own : Option RecipientRule}
    (h : Settles ports s a current now own s' out)
    (hret : retiredNow s a.id = current.retiredAt.isSome) :
    Drains now s s' ∧ out.Tracks s' now a.id := by
  cases h with
  | remove own hretired => exact ⟨.refl _ _, rfl, hret, hretired⟩
  | removed => exact writeRoute_removed_undue
  | confirm rule _ _ hnone _ hconfirms => exact hconfirms.tracks (by simp [hret, hnone])
  | save own hnone => exact ⟨.refl _ _, rfl, hret, hnone⟩

/-- **Resuming.** Nothing becomes due; when the attempt returns, its route is
    not due any more. -/
theorem Resumes.tracks {call : RouteAwait} {reply : RouteReply} (hs : s.RoutesOwned)
    (h : Resumes ports s now call reply s' out) (hcall : call.Tracks s id) :
    Drains now s s' ∧ out.Tracks s' now id := by
  obtain ⟨rfl, hseen, hintended⟩ := hcall
  cases h with
  | failed => exact ⟨.refl _ _, trivial⟩
  | refused => exact ⟨.refl _ _, trivial⟩
  | gone a rules own hcheck hgone => exact ⟨.refl _ _, hs.gone hgone⟩
  | found a rules current own hcheck hread =>
    exact ⟨.refl _ _, rfl, getAddress_retired hread, trivial⟩
  | unlisted a rules current _ _ hcheck hread hsettles =>
    exact hsettles.tracks (getAddress_retired hread)
  | changed => exact ⟨.refl _ _, trivial⟩
  | reread a current own fresh _ _ hpermitted hsettles => exact hsettles.tracks hseen
  | removed => exact writeRoute_removed_undue
  | saved a current own rule _ _ hconfirms =>
    refine hconfirms.tracks (hseen.trans ?_)
    -- a save was called for a mailbox read as not retired
    have hnone : current.retiredAt = none := hintended
    simp [RouteAwait.lastRead, hnone]

theorem Begins.tracks (hs : s.RoutesOwned) (h : Begins ports s id s' out) :
    Drains now s s' ∧ out.Tracks s' now id := by
  cases h with
  | gone hgone => exact ⟨.refl _ _, hs.gone hgone⟩
  | unconfigured => exact ⟨.refl _ _, trivial⟩
  | listing mailbox zoneId hread =>
    have hseen : retiredNow s id = mailbox.retiredAt.isSome := getAddress_retired hread
    exact ⟨writeRoute_drains fun _ => .inl rfl, rfl, hseen, trivial⟩

/-- The mailboxes a pass has still to do, once it has selected them. -/
def RoutePass.rest (p : RoutePass) : Option (List String) :=
  match p.point with
  | .selecting => none
  | .between rows => some (rows.map (·.mailbox_id))
  | .attempting row rest _ => some (row.mailbox_id :: rest.map (·.mailbox_id))

def RoutePass.Tracks (s : Store) (p : RoutePass) : Prop :=
  match p.point with
  | .attempting row _ call => call.Tracks s row.mailbox_id
  | _ => True

theorem RoutePass.Tracks.attempt {p : RoutePass} {reply : RouteReply} {row : DueRoute}
    {rest : List DueRoute} (hs : s.RoutesOwned) (h : p.Tracks s)
    (hattempt : p.attempt ports s reply = some (row, rest, s', out)) :
    p.rest = some (row.mailbox_id :: rest.map (·.mailbox_id)) ∧
      Drains p.nowMs s s' ∧ out.Tracks s' p.nowMs row.mailbox_id := by
  unfold RoutePass.Tracks at h
  unfold RoutePass.rest
  rcases RoutePass.attempt_cases hattempt with ⟨hpoint, hbegin⟩ | ⟨call, hpoint, hresume⟩
  · rw [hpoint]
    exact ⟨rfl, (beginRoute_begins hbegin).tracks hs⟩
  · rw [hpoint] at h ⊢
    exact ⟨rfl, (resumeRoute_resumes hresume).tracks hs h⟩

/-- **Reconciling.** Nothing becomes due, and a row that is done is not due any more. -/
theorem RoutePass.Tracks.step {p : RoutePass} {reply : RouteReply} {next : Option RoutePass}
    (hs : s.RoutesOwned) (h : p.Tracks s) (hstep : p.step ports s reply = some (s', next)) :
    Drains p.nowMs s s' ∧
      match next with
      | none => p.rest = some []
      | some p' => p'.nowMs = p.nowMs ∧ p'.Tracks s' ∧
        (p.point = .selecting → p'.rest = some ((dueRoutes s p.nowMs).map (·.mailbox_id))) ∧
        ∀ rows, p.rest = some rows → ∃ rest, p'.rest = some rest ∧
          ∀ id ∈ rows, id ∉ rest → id ∉ s'.dueIds p.nowMs .routes := by
  rcases RoutePass.step_cases hstep with ⟨hpoint, rfl, rfl⟩ | ⟨hpoint, rfl, rfl⟩ |
    ⟨row, rest, s₁, out, hattempt, rfl, rfl⟩
  · refine ⟨.refl _ _, rfl, trivial, fun _ => rfl, ?_⟩
    intro rows hrows
    exact absurd hrows (by simp [RoutePass.rest, hpoint])
  · exact ⟨.refl _ _, by simp [RoutePass.rest, hpoint]⟩
  · obtain ⟨hrest, hdrains, hout⟩ := h.attempt hs hattempt
    have hselected : p.point ≠ .selecting := by
      intro hpoint
      exact absurd hrest (by simp [RoutePass.rest, hpoint])
    -- the row of a finished attempt is the one that is gone from the list
    have hdone : ∀ s₂ : Store, row.mailbox_id ∉ s₂.dueIds p.nowMs .routes →
        ∀ rows, p.rest = some rows → ∃ rest', (p.goto (.between rest)).rest = some rest' ∧
          ∀ id ∈ rows, id ∉ rest' → id ∉ s₂.dueIds p.nowMs .routes := by
      intro s₂ hundue rows hrows
      obtain rfl := Option.some.inj (hrest.symm.trans hrows)
      refine ⟨_, rfl, fun id hid hnot => ?_⟩
      rcases List.mem_cons.mp hid with rfl | hlater
      · exact hundue
      · exact absurd hlater hnot
    cases out with
    | awaits call =>
      refine ⟨hdrains, rfl, hout, fun hpoint => absurd hpoint hselected, ?_⟩
      intro rows hrows
      exact ⟨rows, hrows ▸ hrest.symm, fun id hid hnot => absurd hid hnot⟩
    | returns seen =>
      exact ⟨hdrains, rfl, trivial, fun hpoint => absurd hpoint hselected, hdone _ hout⟩
    | fails error seen =>
      have hfailed : Drains p.nowMs s₁ (recordRouteFailure s₁ row p.nowMs error) ∧
          row.mailbox_id ∉ (recordRouteFailure s₁ row p.nowMs error).dueIds p.nowMs .routes :=
        recordRouteFailure_undue row error
      exact ⟨hdrains.trans hfailed.1, rfl, trivial, fun hpoint => absurd hpoint hselected,
        hdone _ hfailed.2⟩

end attempt

/-! ### Batches -/

/-- What a pass takes on of a kind of work: as much as the limit, or everything due. -/
structure Batch (limit : Nat) (due ids : List String) : Prop where
  selected : ∀ id ∈ ids, id ∈ due
  full : ids.length = limit ∨ ∀ id ∈ due, id ∈ ids

omit [Unicode] in
/-- The first of the due rows, in whatever order, are a batch. -/
theorem batch_take {ρ : Type} (key : ρ → String) (r : ρ → ρ → Prop) [DecidableRel r]
    (rows : List ρ) (limit : Nat) :
    Batch limit (rows.map key) (((rows.insertionSort r).take limit).map key) where
  selected id hid := by
    obtain ⟨row, hrow, rfl⟩ := List.mem_map.mp hid
    exact List.mem_map_of_mem ((List.mem_insertionSort r).mp (List.mem_of_mem_take hrow))
  full := by
    rw [List.length_map]
    by_cases hlimit : limit ≤ (rows.insertionSort r).length
    · exact .inl (List.length_take_of_le hlimit)
    · rw [List.take_of_length_le (Nat.le_of_not_le hlimit)]
      refine .inr fun id hid => ?_
      obtain ⟨row, hrow, rfl⟩ := List.mem_map.mp hid
      exact List.mem_map_of_mem ((List.mem_insertionSort r).mpr hrow)

theorem readyJobIds_batch (limit : Nat) :
    Batch limit (s.dueIds now .ready) (readyJobIds s limit) := batch_take _ _ _ limit

theorem redriveDueInboundReceipts_batch (limit : Nat) :
    Batch limit (s.dueIds now .receipts) (redriveDueInboundReceipts s now limit).1 :=
  batch_take _ _ _ limit

theorem dueRoutes_batch :
    Batch 10 (s.dueIds now .routes) ((dueRoutes s now).map (·.mailbox_id)) := by
  unfold dueRoutes
  rw [List.map_map]
  exact batch_take _ _ _ 10

end draining

end Umail
