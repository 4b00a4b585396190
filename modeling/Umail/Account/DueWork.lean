import Umail.Account.Evolution
import Umail.Account.Peripheral

/-! # Due work

  `dueTimes` and `armDueWork` of `apps/server/src/account/due-work.ts`: the
  five kinds of work a store can hold, when each is next due, and the alarm
  that is derived from them. The alarm is one slot, so it has to be set again
  whenever work is created or moved to an earlier time; `Quiet` says of a
  change of the store that it does neither.
-/

namespace Umail

open Relational

/-! ### Kinds of work -/

inductive DueWorkSource where
  | approvals
  | ready
  | claims
  | receipts
  | routes
  deriving DecidableEq

/-- One value per kind of due work. -/
abbrev DueWork (α : Type) := DueWorkSource → α

def dueWorkSources : List DueWorkSource := [.approvals, .ready, .claims, .receipts, .routes]

theorem mem_dueWorkSources (source : DueWorkSource) : source ∈ dueWorkSources := by
  cases source <;> simp [dueWorkSources]

def FAILED_STEP_RETRY_MS : Nat := 60000

/-- A failed kind of work waits at least `FAILED_STEP_RETRY_MS`. -/
def floored (nowMs : Instant) (failed : Option (DueWork Bool)) (source : DueWorkSource)
    (due : Instant) : Instant :=
  if failed.any (· source) then max due (nowMs + FAILED_STEP_RETRY_MS) else due

theorem floored_mono {nowMs : Instant} {failed : Option (DueWork Bool)} {source : DueWorkSource}
    {due due' : Instant} (h : due ≤ due') :
    floored nowMs failed source due ≤ floored nowMs failed source due' := by
  unfold floored
  split
  · exact max_le_max_right _ h
  · exact h

theorem le_floored (nowMs : Instant) (failed : Option (DueWork Bool)) (source : DueWorkSource)
    (due : Instant) : due ≤ floored nowMs failed source due := by
  unfold floored
  split
  · exact le_max_left _ _
  · exact le_refl due

/-- The time that a failed kind of work contributes. -/
theorem le_floored_failed {failed : DueWork Bool} {source : DueWorkSource}
    (hfailed : failed source = true) (nowMs due : Instant) :
    nowMs + FAILED_STEP_RETRY_MS ≤ floored nowMs (some failed) source due := by
  unfold floored
  rw [if_pos (by simpa using hfailed)]
  exact le_max_right _ _

/-- The earlier of what is scheduled so far and one more time. -/
def earlier (next : Option Instant) (due : Instant) : Option Instant :=
  some (match next with
    | none => due
    | some next => min next due)

/-- The earliest of some kinds of work and of what is scheduled so far. -/
def earliest (due : DueWork (Option Instant)) (time : DueWork (Instant → Instant))
    (next : Option Instant) (sources : List DueWorkSource) : Option Instant :=
  sources.foldl (fun next source =>
    match due source with
    | none => next
    | some dueAt => earlier next (time source dueAt)) next

section earliest
variable {due : DueWork (Option Instant)} {time : DueWork (Instant → Instant)}

theorem earliest_cons_none {first : DueWorkSource} (h : due first = none) (next : Option Instant)
    (rest : List DueWorkSource) :
    earliest due time next (first :: rest) = earliest due time next rest := by
  simp [earliest, h]

theorem earliest_cons_some {first : DueWorkSource} {dueAt : Instant} (h : due first = some dueAt)
    (next : Option Instant) (rest : List DueWorkSource) :
    earliest due time next (first :: rest) =
      earliest due time (earlier next (time first dueAt)) rest := by
  simp [earliest, h]

/-- It is no later than what was scheduled. -/
theorem earliest_le_next (due : DueWork (Option Instant)) (time : DueWork (Instant → Instant))
    {n : Instant} (sources : List DueWorkSource) :
    ∃ m, earliest due time (some n) sources = some m ∧ m ≤ n := by
  induction sources generalizing n with
  | nil => exact ⟨n, rfl, le_refl n⟩
  | cons first rest ih =>
    cases hfirst : due first with
    | none =>
      rw [earliest_cons_none hfirst]
      exact ih
    | some dueAt =>
      rw [earliest_cons_some hfirst]
      obtain ⟨m, hm, hle⟩ := ih (n := min n (time first dueAt))
      exact ⟨m, hm, le_trans hle (min_le_left _ _)⟩

/-- It is no later than any of the kinds. -/
theorem earliest_le (time : DueWork (Instant → Instant)) {sources : List DueWorkSource}
    {source : DueWorkSource} {dueAt : Instant} (hsource : source ∈ sources)
    (hdue : due source = some dueAt) (next : Option Instant) :
    ∃ m, earliest due time next sources = some m ∧ m ≤ time source dueAt := by
  induction sources generalizing next with
  | nil => exact absurd hsource List.not_mem_nil
  | cons first rest ih =>
    by_cases heq : source = first
    · subst heq
      rw [earliest_cons_some hdue]
      -- the new bound is at most this kind, and the rest only lowers it
      cases next with
      | none => exact earliest_le_next due time rest
      | some n =>
        obtain ⟨m, hm, hle⟩ := earliest_le_next due time (n := min n (time source dueAt)) rest
        exact ⟨m, hm, le_trans hle (min_le_right _ _)⟩
    · have hrest : source ∈ rest := (List.mem_cons.mp hsource).resolve_left heq
      cases hfirst : due first with
      | none =>
        rw [earliest_cons_none hfirst]
        exact ih hrest next
      | some dueAt' =>
        rw [earliest_cons_some hfirst]
        exact ih hrest _

/-- What is scheduled in the end was scheduled before, or is the time of a kind of work. -/
theorem earliest_cases {next : Option Instant} {sources : List DueWorkSource} {t : Instant}
    (h : earliest due time next sources = some t) :
    next = some t ∨ ∃ source dueAt, due source = some dueAt ∧ t = time source dueAt := by
  induction sources generalizing next with
  | nil => exact .inl h
  | cons first rest ih =>
    cases hfirst : due first with
    | none =>
      rw [earliest_cons_none hfirst] at h
      exact ih h
    | some dueAt =>
      rw [earliest_cons_some hfirst] at h
      rcases ih h with hnext | hsource
      · cases next with
        | none => exact .inr ⟨first, dueAt, hfirst, (Option.some.inj hnext).symm⟩
        | some n =>
          -- the smaller of the two
          rcases min_choice n (time first dueAt) with hmin | hmin
          · exact .inl (hnext ▸ congrArg some hmin.symm)
          · exact .inr ⟨first, dueAt, hfirst, (Option.some.inj hnext).symm.trans hmin⟩
      · exact .inr hsource

end earliest

section account
variable [Unicode]

/-! ### The alarm -/

/-- The column each `MIN` of `dueTimes` ranges over. -/
def dueColumn (s : Store) : DueWork (List (Option Instant))
  | .approvals => (s.approvals.select (·.state = .pending)).map fun a => some a.expires_at
  | .ready => (s.jobs.select (·.state = .ready)).map fun j => some j.created_at
  | .claims => (s.jobs.select (·.state = .in_flight)).map (·.claim_expires_at)
  | .receipts => (s.receipts.select (·.work_state = .ready)).map fun r => some r.retry_after
  | .routes => s.routes.rows.map (·.retry_after)

/-- When each kind of work is next due: a `MIN`, which skips `NULL`. -/
def dueTimes (s : Store) : DueWork (Option Instant) := fun source =>
  ((dueColumn s source).filterMap id).min?

/-- The alarm `armDueWork` sets: the earliest due work, or none. -/
def armDueWork (s : Store) (nowMs : Instant) (failed : Option (DueWork Bool)) : Option Instant :=
  (earliest (dueTimes s) (floored nowMs failed) none dueWorkSources).map (max · nowMs)

/-- The work a store holds, with the time at which it is due. -/
inductive Store.Work (s : Store) : DueWorkSource → Option Instant → Prop where
  | approval (a : ApprovalRequestRow) : a ∈ s.approvals → a.state = .pending →
      Work s .approvals (some a.expires_at)
  | job (j : OutboundJobRow) : j ∈ s.jobs → j.state = .ready →
      Work s .ready (some j.created_at)
  | claim (j : OutboundJobRow) : j ∈ s.jobs → j.state = .in_flight →
      Work s .claims j.claim_expires_at
  | receipt (r : InboundReceiptRow) : r ∈ s.receipts → r.work_state = .ready →
      Work s .receipts (some r.retry_after)
  | route (r : MailboxRouteRow) (t : Instant) : r ∈ s.routes → r.retry_after = some t →
      Work s .routes (some t)

variable {s s' : Store}

theorem Store.Work.mem_dueColumn {source : DueWorkSource} {due : Option Instant}
    (h : s.Work source due) : due ∈ dueColumn s source := by
  cases h with
  | approval a ha hstate => exact List.mem_map.mpr ⟨a, by simp [ha, hstate], rfl⟩
  | job j hj hstate => exact List.mem_map.mpr ⟨j, by simp [hj, hstate], rfl⟩
  | claim j hj hstate => exact List.mem_map.mpr ⟨j, by simp [hj, hstate], rfl⟩
  | receipt r hr hstate => exact List.mem_map.mpr ⟨r, by simp [hr, hstate], rfl⟩
  | route r t hr hdue => exact List.mem_map.mpr ⟨r, hr, hdue⟩

/-- A kind of work is due no later than any of its rows. -/
theorem dueTimes_le {source : DueWorkSource} {t : Instant} (h : s.Work source (some t)) :
    ∃ due, dueTimes s source = some due ∧ due ≤ t := by
  have hmem : t ∈ (dueColumn s source).filterMap id :=
    List.mem_filterMap.mpr ⟨some t, h.mem_dueColumn, rfl⟩
  cases hmin : dueTimes s source with
  | none =>
    rw [dueTimes, List.min?_eq_none_iff] at hmin
    rw [hmin] at hmem
    exact absurd hmem List.not_mem_nil
  | some due =>
    exact ⟨due, rfl, (List.min?_eq_some_iff.mp hmin).2 t hmem⟩

/-- **Arming.** The alarm is set no later than any work the store holds, or
    than the clock reading if that is later. -/
theorem armDueWork_le {source : DueWorkSource} {t : Instant} (h : s.Work source (some t))
    (nowMs : Instant) (failed : Option (DueWork Bool)) :
    ∃ a, armDueWork s nowMs failed = some a ∧
      a ≤ max (floored nowMs failed source t) nowMs := by
  obtain ⟨due, hdue, hle⟩ := dueTimes_le h
  obtain ⟨m, hm, hmle⟩ :=
    earliest_le (floored nowMs failed) (mem_dueWorkSources source) hdue none
  refine ⟨max m nowMs, ?_, ?_⟩
  · unfold armDueWork
    simp only [hm, Option.map_some]
  · exact max_le_max_right _ (le_trans hmle (floored_mono hle))

/-! ### Changes that create no work -/

/-- No work is created, and none moved to another time. -/
def Quiet (s s' : Store) : Prop := ∀ source due, s'.Work source due → s.Work source due

theorem Quiet.refl (s : Store) : Quiet s s := fun _ _ h => h

theorem Quiet.trans {s'' : Store} (h : Quiet s s') (h' : Quiet s' s'') : Quiet s s'' :=
  fun source due hwork => h source due (h' source due hwork)

/-- The commands that only remove work. -/
def Command.quiet : Command → Bool
  | .acceptInbound _ => true
  | .observeInboundForward _ => true
  | .failInboundReceiptPolicy _ _ => true
  | .markThreadRead _ _ _ _ => true
  | .softDeleteThread _ _ _ => true
  | .patchAddress _ _ _ => true
  | .setAddressForwarding _ _ _ => true
  | .configureSendingDomains _ => true
  | _ => false

/-- A change that leaves jobs, approvals and routes, and keeps the time of
    each receipt that is still ready. -/
theorem Quiet.of_receipts (hjobs : s'.jobs = s.jobs) (happrovals : s'.approvals = s.approvals)
    (hroutes : s'.routes = s.routes)
    (hreceipts : ∀ r' ∈ s'.receipts, r'.work_state = .ready →
      ∃ r ∈ s.receipts, r.work_state = .ready ∧ r.retry_after = r'.retry_after) :
    Quiet s s' := by
  intro source due hwork
  cases hwork with
  | approval a ha hstate => exact .approval a (happrovals ▸ ha) hstate
  | job j hj hstate => exact .job j (hjobs ▸ hj) hstate
  | claim j hj hstate => exact .claim j (hjobs ▸ hj) hstate
  | receipt r hr hstate =>
    obtain ⟨r₀, hr₀, hready, hsame⟩ := hreceipts r hr hstate
    exact hsame ▸ .receipt r₀ hr₀ hready
  | route r t hr hdue => exact .route r t (hroutes ▸ hr) hdue

theorem Quiet.of_same (hjobs : s'.jobs = s.jobs) (happrovals : s'.approvals = s.approvals)
    (hroutes : s'.routes = s.routes) (hreceipts : s'.receipts = s.receipts) : Quiet s s' :=
  .of_receipts hjobs happrovals hroutes fun r hr hready =>
    ⟨r, hreceipts ▸ hr, hready, rfl⟩

/-- Rejecting undispatched jobs takes their work away. -/
theorem rejectUndispatched_quiet (messageIds : List String) (failure : RejectionFailure)
    (nowIso : Instant) : Quiet s (rejectUndispatched s messageIds failure nowIso) := by
  intro source due hwork
  cases hwork with
  | approval a' ha' hstate =>
    obtain ⟨a, ha, hsame⟩ := (rejectUndispatched_approvals (N := fun _ => False) messageIds
      failure nowIso).mem_cases ha' |>.resolve_right id
    -- only a pending approval is resolved, so a pending one was pending before
    have hpending : a.state = .pending := by
      by_contra hne
      exact hne ((hsame.resolved hne) ▸ hstate)
    have hexpiry : a'.expires_at = a.expires_at := by rw [hsame.columns]
    exact hexpiry ▸ .approval a ha hpending
  | job j hj hstate =>
    exact .job j (mem_jobs_of_rejectUndispatched hj (by simp [hstate])) hstate
  | claim j hj hstate =>
    exact .claim j (mem_jobs_of_rejectUndispatched hj (by simp [hstate])) hstate
  | receipt r hr hstate => exact .receipt r hr hstate
  | route r t hr hdue => exact .route r t hr hdue

/-- **Quiet commands.** None of them creates work. -/
theorem exec_quiet {c : Command} (h : c.quiet = true) : Quiet s (s.exec c) := by
  cases c with
  | acceptInbound input =>
    rcases committedSnd_cases (s := s) (r := acceptInbound s input) with heq | ⟨r, s', hok, heq⟩
    · exact fun source due hwork => heq ▸ hwork
    · show Quiet s (committedSnd s (acceptInbound s input))
      rw [heq]
      rcases acceptInbound_ok hok with rfl | ⟨_, -, -, -, r', s₁, hwrite, hs'⟩
      · exact .refl _
      · have hframe := writeThreadedMail_frame hwrite
        have hsame := writeThreadedMail_peripherals hwrite
        subst hs'
        -- the receipt it indexes is no longer `ready`; mail is no work
        refine .of_receipts ?_ ?_ hsame.routes fun r hr hready => ?_
        · show s₁.jobs = s.jobs
          rw [hframe]
        · show s₁.approvals = s.approvals
          rw [hframe]
        · obtain ⟨r₀, hr₀, heq⟩ := (Table.mem_of_map rfl).mp hr
          split at heq
          · rw [← heq] at hready
            exact absurd hready (by simp)
          · exact ⟨r₀, hsame.receipts ▸ hr₀, heq ▸ hready, by rw [heq]⟩
  | observeInboundForward input =>
    refine .of_receipts rfl rfl rfl ?_
    intro r hr hready
    obtain ⟨r₀, hr₀, heq⟩ := (Table.mem_of_map rfl).mp hr
    split at heq
    · -- a forward is noted on a receipt that is due as before
      rw [← heq] at hready ⊢
      exact ⟨r₀, hr₀, hready, rfl⟩
    · exact ⟨r₀, hr₀, heq ▸ hready, by rw [heq]⟩
  | failInboundReceiptPolicy receiptId reason =>
    refine .of_receipts rfl rfl rfl ?_
    intro r hr hready
    obtain ⟨r₀, hr₀, heq⟩ := (Table.mem_of_map rfl).mp hr
    split at heq
    · rw [← heq] at hready
      exact absurd hready (by simp)
    · exact ⟨r₀, hr₀, heq ▸ hready, by rw [heq]⟩
  | markThreadRead handle isRead scope nowIso =>
    rcases committed_cases (s := s) (r := markThreadRead s handle isRead scope nowIso) with
      heq | ⟨s', hok, heq⟩
    · exact fun source due hwork => heq ▸ hwork
    · show Quiet s (committed s _)
      rw [heq]
      obtain ⟨threadId, rfl⟩ := markThreadRead_ok hok
      exact .of_same rfl rfl rfl rfl
  | softDeleteThread handle scope deletedAt =>
    rcases committed_cases (s := s) (r := softDeleteThread s handle scope deletedAt) with
      heq | ⟨s', hok, heq⟩
    · exact fun source due hwork => heq ▸ hwork
    · show Quiet s (committed s _)
      rw [heq]
      obtain ⟨threadId, -, rfl⟩ := softDeleteThread_ok hok
      -- rejecting jobs and deciding approvals takes work away
      exact (rejectUndispatched_quiet _ _ _).trans (.of_same rfl rfl rfl rfl)
  | patchAddress id patch nowIso =>
    rcases committedSnd_cases (s := s) (r := patchAddress s id patch nowIso) with
      heq | ⟨r, s', hok, heq⟩
    · exact fun source due hwork => heq ▸ hwork
    · show Quiet s (committedSnd s _)
      rw [heq]
      obtain ⟨addresses, rfl⟩ := patchAddress_ok hok
      exact .of_same rfl rfl rfl rfl
  | setAddressForwarding addressId forwardTo nowIso =>
    rcases committedSnd_cases (s := s) (r := setAddressForwarding s addressId forwardTo nowIso)
      with heq | ⟨r, s', hok, heq⟩
    · exact fun source due hwork => heq ▸ hwork
    · show Quiet s (committedSnd s _)
      rw [heq]
      obtain ⟨addresses, rfl⟩ := setAddressForwarding_ok hok
      exact .of_same rfl rfl rfl rfl
  | configureSendingDomains names => exact .of_same rfl rfl rfl rfl
  | submitOutbound _ _ | decideApproval _ | claimJob _ | completeAttempt _
  | rejectUndispatched _ _ _ | expireDueApprovals _ | settleAbandonedClaims _
  | registerInboundReceipt _ | redriveDueInboundReceipts _ _ | createAddress _ _ _ _ _ _
  | retireAddress _ _ | retryAddressRouting _ _ | writeRoute _ _ =>
    exact absurd h (by simp [Command.quiet])

/-! ### Claims have an expiry -/

/-- Every claim can be found by its expiry. -/
def Store.ClaimsDated (s : Store) : Prop :=
  ∀ j ∈ s.jobs, j.state = .in_flight → j.claim_expires_at.isSome = true

/-- Jobs that move to another state than `in_flight` keep the claims dated. -/
theorem Store.ClaimsDated.rewrite (h : s.ClaimsDated) {g : OutboundJobRow → OutboundJobRow}
    (hrows : s'.jobs.rows = s.jobs.rows.map g)
    (hg : ∀ j ∈ s.jobs, g j = j ∨ (g j).state ≠ .in_flight) : s'.ClaimsDated := by
  intro j' hj' hstate
  obtain ⟨j, hj, rfl⟩ := (Table.mem_of_map hrows).mp hj'
  rcases hg j hj with heq | hne
  · rw [heq] at hstate ⊢
    exact h j hj hstate
  · exact absurd hstate hne

theorem Store.ClaimsDated.of_jobs (h : s.ClaimsDated) (hjobs : s'.jobs = s.jobs) :
    s'.ClaimsDated := by
  intro j hj
  exact h j (hjobs ▸ hj)

theorem Store.ClaimsDated.reject (h : s.ClaimsDated) (messageIds : List String)
    (failure : RejectionFailure) (nowIso : Instant) :
    (rejectUndispatched s messageIds failure nowIso).ClaimsDated := by
  refine h.rewrite (g := fun j =>
    if j.rejectable messageIds then j.reject failure nowIso else j) rfl fun j _ => ?_
  split
  · exact .inr (by simp [OutboundJobRow.reject])
  · exact .inl rfl

theorem Effect.claimsDated (h : Effect s s') (hs : s.ClaimsDated) : s'.ClaimsDated := by
  cases h with
  | peripheral hsame => exact hs.of_jobs hsame.jobs
  | submitted input ids identity fromAddress needsApproval hsub =>
    intro j hj hstate
    rw [← Table.mem_rows, hsub.jobs] at hj
    rcases List.mem_append.mp hj with hold | hnew
    · exact hs j hold hstate
    · -- a new job waits, or is ready
      exact absurd hstate (by cases needsApproval <;> simp at hnew <;> grind [newJobRow])
  | accepted_inbound input r receipts hwrite =>
    apply hs.of_jobs
    rw [writeThreadedMail_frame hwrite]
  | marked_read threadId isRead scope nowIso => exact hs.of_jobs rfl
  | deleted threadId scope deletedAt => exact (hs.reject _ _ _).of_jobs rfl
  | approved a j nowIso =>
    apply hs.rewrite rfl
    intro k _
    split
    · exact .inr (by simp)
    · exact .inl rfl
  | denied a j nowIso =>
    have hresolved : (resolveApproval s a.id .denied nowIso).ClaimsDated := hs.of_jobs rfl
    exact hresolved.reject _ _ _
  | rejected messageIds failure nowIso => exact hs.reject _ _ _
  | expired nowIso =>
    have hexpired : (expireApprovals s nowIso).ClaimsDated := hs.of_jobs rfl
    exact hexpired.reject _ _ _
  | claimed j input =>
    intro k' hk' hstate
    obtain ⟨k, hk, heq⟩ := (Table.mem_of_map rfl).mp hk'
    split at heq
    · rw [← heq]
      rfl
    · exact hs k' (heq ▸ hk) hstate
  | completed j input _ _ _ _ hrecord =>
    have hsettle : (settleAttempt s input).ClaimsDated := by
      apply hs.rewrite rfl
      intro k _
      split
      · refine .inr ?_
        intro hflight
        have hsettled := input.settle_settled k
        rw [hflight] at hsettled
        exact absurd hsettled (by simp [OutboundJobState.settled])
      · exact .inl rfl
    rcases recordOutcome_ok hrecord with ⟨_, _, -, hlink⟩ | ⟨_, -, -, rfl⟩ | rfl
    · obtain ⟨self, -, -, survivor, merged, -, -, rfl⟩ := linkThread_ok hlink
      exact hsettle.of_jobs rfl
    · exact hsettle.reject _ _ _
    · exact hsettle
  | settled nowIso =>
    apply hs.rewrite rfl
    intro k _
    split
    · exact .inr (by simp)
    · exact .inl rfl

theorem Store.Reachable.claimsDated (h : s.Reachable) : s.ClaimsDated := by
  refine Lts.Machine.Reachable.invariant (P := Store.ClaimsDated) ?_ ?_ h
  · intro s hs
    subst hs
    exact fun j hj => absurd hj Table.mem_empty
  · intro s c s' _ hs hstep
    obtain rfl := Option.some.inj hstep
    exact (exec_effect s c).claimsDated hs

end account

end Umail
