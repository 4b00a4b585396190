import Umail.Account.Worker

/-! # No lost wake-up

  Whenever nothing runs in the worker, its alarm covers the work of the store.
  Work is created by activities that arm the alarm before they end, and the
  calls that do not arm are quiet. So the alarm covers the work, or something
  that still runs is going to arm it.
-/

namespace Umail

open Relational

section wakeup
variable [Unicode]

/-! ### What the alarm covers -/

/-- When a piece of work counts as due: a kind whose step failed in the last
    pass, no earlier than sixty seconds after the clock reading of that pass. -/
def AccountState.countsAsDue (w : AccountState) (source : DueWorkSource) (t : Instant) : Instant :=
  match w.lastPass with
  | some (nowMs, failed) => if failed source then max t (nowMs + 60000) else t
  | none => t

/-- The alarm is set when there is work, no later than that work counts as due
    or, if later, the clock reading of the last arming. -/
structure AccountState.Covered (w : AccountState) : Prop where
  /-- The alarm is unset only when there is no work. -/
  set : ∀ source due, w.mail.store.Work source due → w.alarm.isSome = true
  early : ∀ a source t, w.alarm = some a → w.mail.store.Work source (some t) →
    a ≤ max (w.countsAsDue source t) w.armedAt

variable {ports : DueWorkPorts} {w w' : AccountState} {s s' : Store}

theorem le_countsAsDue (w : AccountState) (source : DueWorkSource) (t : Instant) :
    t ≤ w.countsAsDue source t := by
  unfold AccountState.countsAsDue
  split
  · split
    · exact le_max_left _ _
    · exact le_refl t
  · exact le_refl t

/-- All work has a due time, so the arming sees it. -/
theorem Store.Reachable.work_due (h : s.Reachable) {source : DueWorkSource}
    {due : Option Instant} (hwork : s.Work source due) : ∃ t, due = some t := by
  cases hwork with
  | claim j hj hstate => exact Option.isSome_iff_exists.mp (h.claimsDated j hj hstate)
  | approval a | job j | receipt r | route r t => exact ⟨_, rfl⟩

/-- **Arming covers.** An alarm set by `armDueWork` covers the work, when the
    failures it was told of count for the last pass. -/
theorem covered_of_arm (nowMs : Instant) (failed : Option (DueWork Bool))
    (hreach : w.mail.store.Reachable) (halarm : w.alarm = armDueWork w.mail.store nowMs failed)
    (harmed : w.armedAt = nowMs)
    (hfailed : ∀ source t, floored nowMs failed source t ≤ w.countsAsDue source t) :
    w.Covered where
  set source due hwork := by
    obtain ⟨t, rfl⟩ := hreach.work_due hwork
    obtain ⟨a, ha, -⟩ := armDueWork_le hwork nowMs failed
    rw [halarm, ha]
    rfl
  early a source t hset hwork := by
    obtain ⟨a', ha', hle⟩ := armDueWork_le hwork nowMs failed
    obtain rfl : a' = a := Option.some.inj (ha'.symm.trans (halarm.symm.trans hset))
    rw [harmed]
    exact le_trans hle (max_le_max_right _ (hfailed source t))

/-- The arming of a call, or of the startup. -/
theorem AccountState.arm_covered (nowMs : Instant) (hreach : w.mail.store.Reachable) :
    (w.arm nowMs none).Covered :=
  covered_of_arm nowMs none hreach rfl rfl fun source t =>
    le_countsAsDue (w.arm nowMs none) source t

/-- A change that creates no work leaves the work covered. -/
theorem AccountState.Covered.quiet (h : w.Covered) (hquiet : Quiet w.mail.store s') :
    (w.withStore s').Covered where
  set source due hwork := h.set source due (hquiet source due hwork)
  early a source t hset hwork := h.early a source t hset (hquiet source (some t) hwork)

/-! ### Calls -/

theorem call_ok {α : Type} {r : Except StoreError (α × Store)} {arms : Bool}
    (h : call r = .ok (s', arms)) : arms = false ∧ ∃ a, r = .ok (a, s') := by
  cases r with
  | error e => exact absurd h (by simp [call, Except.map])
  | ok out =>
    obtain ⟨rfl, rfl⟩ := Prod.mk.inj (Except.ok.inj h)
    exact ⟨rfl, out.1, rfl⟩

theorem callAndArm_ok {α : Type} {r : Except StoreError (α × Store)} {arms : Bool}
    (h : callAndArm r = .ok (s', arms)) : arms = true ∧ ∃ a, r = .ok (a, s') := by
  cases r with
  | error e => exact absurd h (by simp [callAndArm, Except.map])
  | ok out =>
    obtain ⟨rfl, rfl⟩ := Prod.mk.inj (Except.ok.inj h)
    exact ⟨rfl, out.1, rfl⟩

theorem committedSnd_ok {α : Type} {r : Except StoreError (α × Store)} {a : α}
    (h : r = .ok (a, s')) : s' = committedSnd s r := by
  rw [h]
  rfl

theorem committed_ok {r : Except StoreError Store} {a : Unit}
    (h : (r.map fun s' => ((), s')) = .ok (a, s')) : s' = committed s r := by
  cases r with
  | error e => exact absurd h (by simp [Except.map])
  | ok s₁ => exact (Prod.mk.inj (Except.ok.inj h)).2.symm

/-- **Calls.** A call runs one command; one that does not arm is quiet. A
    mailbox is created in a domain that receives. -/
theorem AccountStoreRpc.run_ok {domains : List MailDomainConfiguration} {rpc : AccountStoreRpc}
    {arms : Bool} (h : rpc.run domains s = .ok (s', arms)) :
    (s' = s ∧ arms = false) ∨
      ∃ c, s' = s.exec c ∧ (arms = false → c.quiet = true) ∧
        ∀ name ∈ c.mailDomain, ∃ domain ∈ domains, domain.name = name ∧
          domain.receive = true := by
  -- a call that arms owes nothing
  have hloud : arms = true → ∀ c : Command, arms = false → c.quiet = true := by
    intro harms c hnot
    rw [harms] at hnot
    exact absurd hnot (by simp)
  -- only one of the commands creates a mailbox
  have hnone : ∀ {c : Command}, c.mailDomain = none →
      ∀ name ∈ c.mailDomain, ∃ domain ∈ domains, domain.name = name ∧
        domain.receive = true := by
    intro c hc name hname
    rw [hc] at hname
    cases hname
  cases rpc with
  | acceptInbound input =>
    obtain ⟨-, a, hok⟩ := call_ok h
    exact .inr ⟨.acceptInbound input, committedSnd_ok hok, fun _ => rfl, hnone rfl⟩
  | registerInboundReceipt input =>
    obtain ⟨harms, a, hok⟩ := callAndArm_ok h
    exact .inr ⟨.registerInboundReceipt input, (Prod.mk.inj (Except.ok.inj hok)).2.symm,
      hloud harms _, hnone rfl⟩
  | observeInboundForward input =>
    obtain ⟨-, a, hok⟩ := call_ok h
    exact .inr ⟨.observeInboundForward input,
      (congrArg Prod.snd (Except.ok.inj hok)).symm, fun _ => rfl, hnone rfl⟩
  | failInboundReceiptPolicy receiptId reason =>
    obtain ⟨-, a, hok⟩ := call_ok h
    exact .inr ⟨.failInboundReceiptPolicy receiptId reason,
      (Prod.mk.inj (Except.ok.inj hok)).2.symm, fun _ => rfl, hnone rfl⟩
  | markThreadRead handle isRead scope nowIso =>
    obtain ⟨-, a, hok⟩ := call_ok h
    exact .inr ⟨.markThreadRead handle isRead scope nowIso, committed_ok hok, fun _ => rfl,
      hnone rfl⟩
  | softDeleteThread handle scope deletedAt =>
    obtain ⟨-, a, hok⟩ := call_ok h
    exact .inr ⟨.softDeleteThread handle scope deletedAt, committed_ok hok, fun _ => rfl,
      hnone rfl⟩
  | createAddress id localPart mailDomain displayName nowIso =>
    simp only [AccountStoreRpc.run] at h
    split at h
    · next hany =>
      obtain ⟨harms, a, hok⟩ := callAndArm_ok h
      refine .inr ⟨.createAddress id localPart mailDomain displayName nowIso _,
        committedSnd_ok hok, hloud harms _, ?_⟩
      rintro name ⟨⟩
      simpa only [List.any_eq_true, Bool.and_eq_true, decide_eq_true_eq] using hany
    · -- a domain that is not configured: the call is refused before it writes
      obtain ⟨rfl, rfl⟩ := Prod.mk.inj (Except.ok.inj h)
      exact .inl ⟨rfl, rfl⟩
  | patchAddress id patch nowIso =>
    obtain ⟨-, a, hok⟩ := call_ok h
    exact .inr ⟨.patchAddress id patch nowIso, committedSnd_ok hok, fun _ => rfl, hnone rfl⟩
  | retireAddress id nowIso =>
    obtain ⟨harms, a, hok⟩ := callAndArm_ok h
    exact .inr ⟨.retireAddress id nowIso, committedSnd_ok hok, hloud harms _, hnone rfl⟩
  | retryAddressRouting id nowIso =>
    obtain ⟨harms, a, hok⟩ := callAndArm_ok h
    exact .inr ⟨.retryAddressRouting id nowIso, committedSnd_ok hok, hloud harms _, hnone rfl⟩
  | setAddressForwarding addressId forwardTo nowIso =>
    obtain ⟨-, a, hok⟩ := call_ok h
    exact .inr ⟨.setAddressForwarding addressId forwardTo nowIso, committedSnd_ok hok,
      fun _ => rfl, hnone rfl⟩
  | submitOutbound input ids =>
    obtain ⟨harms, a, hok⟩ := callAndArm_ok h
    exact .inr ⟨.submitOutbound input ids, committedSnd_ok hok, hloud harms _, hnone rfl⟩
  | decideApproval input =>
    obtain ⟨harms, a, hok⟩ := callAndArm_ok h
    exact .inr ⟨.decideApproval input, committedSnd_ok hok, hloud harms _, hnone rfl⟩

/-! ### Activities -/

/-- The activity arms the alarm before it ends. -/
def Activity.arms : Activity → Bool
  | .calling _ => false
  | _ => true

theorem RouteWrites.reachable (h : RouteWrites s s') (hr : s.Reachable) : s'.Reachable := by
  induction h with
  | refl => exact hr
  | tail _ hwrite ih =>
    obtain ⟨id, write, rfl⟩ := hwrite
    exact ih.exec (.writeRoute id write)

/-- What a step of a pass leaves: a pass that goes on, or an alarm that covers
    the work. -/
theorem DueWorkPass.step_ok {p : DueWorkPass} {reply : DueWorkReply} {next : Option DueWorkPass}
    (hr : w.mail.store.Reachable) (h : p.step ports w reply = some (w', next)) :
    w'.mail.store.Reachable ∧ (next = none → w'.Covered) := by
  cases DueWorkPass.moves_of_step h with
  | expires => exact ⟨hr.exec (.expireDueApprovals p.nowMs), by simp⟩
  | dispatched dispatch rest reply mail next hpoint hthrows hstep =>
    exact ⟨(Dispatch.moves_of_step hstep).reachable hr, by simp⟩
  | settles => exact ⟨hr.exec (.settleAbandonedClaims p.nowMs), by simp⟩
  | redrives => exact ⟨hr.exec (.redriveDueInboundReceipts p.nowMs REDRIVE_BATCH_SIZE), by simp⟩
  | reconciles pass reply store next hpoint hstep =>
    exact ⟨(RoutePass.step_writes hstep).reachable hr, by simp⟩
  | selects | sent | dispatches | published | publishes | fails => exact ⟨hr, by simp⟩
  | arms =>
    -- the failures the alarm is floored by are those of the last pass from now on
    refine ⟨hr, fun _ => covered_of_arm p.nowMs (some p.failed) hr rfl rfl ?_⟩
    intro source t
    exact le_refl _

/-- **Activities.** A step keeps the work covered, or leaves an activity that
    is going to arm the alarm. -/
theorem Activity.step_ok {a : Activity} {reply : WorkerReply} {next : Option Activity}
    (hr : w.mail.store.Reachable) (h : a.step ports w reply = some (w', next)) :
    w'.mail.store.Reachable ∧ ((∃ b, next = some b ∧ b.arms = true) ∨ w'.Covered ∨
      (a.arms = false ∧ (w.Covered → w'.Covered))) := by
  unfold Activity.step at h
  split at h
  · next rpc =>
    split at h
    · obtain ⟨rfl, rfl⟩ := Lts.some_pair_inj h
      exact ⟨hr, .inr (.inr ⟨rfl, id⟩)⟩
    · next store arms hrun =>
      obtain ⟨rfl, rfl⟩ := Lts.some_pair_inj h
      have hrun' := AccountStoreRpc.run_ok hrun
      have hstore : store.Reachable := by
        rcases hrun' with ⟨rfl, -⟩ | ⟨c, rfl, -, -⟩
        · exact hr
        · exact hr.exec c
      cases arms with
      -- the call is done, the arming is still to come
      | true => exact ⟨hstore, .inl ⟨.arming, rfl, rfl⟩⟩
      | false =>
        -- no arming, but no new work either
        refine ⟨hstore, .inr (.inr ⟨rfl, fun hcov => hcov.quiet ?_⟩)⟩
        rcases hrun' with ⟨rfl, -⟩ | ⟨c, rfl, hquiet, -⟩
        · exact .refl _
        · exact exec_quiet (hquiet rfl)
  · obtain ⟨rfl, rfl⟩ := Lts.some_pair_inj h
    exact ⟨hr, .inr (.inl (AccountState.arm_covered _ hr))⟩
  · obtain ⟨⟨w₁, next₁⟩, hstep, heq⟩ := Option.map_eq_some_iff.mp h
    obtain ⟨rfl, rfl⟩ := Prod.mk.inj heq
    obtain ⟨hstore, hdone⟩ := DueWorkPass.step_ok hr hstep
    refine ⟨hstore, ?_⟩
    cases next₁ with
    | none => exact .inr (.inl (hdone rfl))
    | some pass => exact .inl ⟨.passing pass, rfl, rfl⟩
  · obtain ⟨rfl, rfl⟩ := Lts.some_pair_inj h
    exact ⟨hr.exec (.configureSendingDomains _), .inl ⟨_, rfl, rfl⟩⟩
  · obtain ⟨rfl, rfl⟩ := Lts.some_pair_inj h
    exact ⟨hr, .inr (.inl (AccountState.arm_covered _ hr))⟩
  · exact absurd h (by simp)

/-! ### Every run -/

/-- The work is covered, or something is going to arm the alarm. -/
structure Awake (w : Lts.Pool AccountState Activity) : Prop where
  reachable : w.shared.mail.store.Reachable
  covered : w.shared.Covered ∨ ∃ pid a, w.procs pid = some a ∧ a.arms = true

theorem Awake.step {w w' : Lts.Pool AccountState Activity} {l : WorkerLabel} (h : Awake w)
    (hstep : (accountWorker ports).step w l = some w') : Awake w' := by
  cases l with
  | call pid rpc =>
    simp only [accountWorker] at hstep
    split at hstep
    · exact absurd hstep (by simp)
    · next hfree =>
      obtain rfl := Option.some.inj hstep
      refine ⟨h.reachable, h.covered.imp id ?_⟩
      intro ⟨q, a, hq, harms⟩
      have hne : q ≠ pid := by
        intro heq
        rw [heq] at hq
        exact hfree (by simp [hq])
      exact ⟨q, a, by simp [Lts.Pool.set, hne, hq], harms⟩
  | fire pid nowMs =>
    simp only [accountWorker] at hstep
    split at hstep
    · exact absurd hstep (by simp)
    · obtain rfl := Option.some.inj hstep
      exact ⟨h.reachable, .inr ⟨pid, .passing (DueWorkPass.start nowMs),
        by simp [Lts.Pool.set], rfl⟩⟩
  | restart pid sendNames nowMs =>
    obtain rfl := Option.some.inj hstep
    exact ⟨h.reachable, .inr ⟨pid, .configuring sendNames nowMs, by simp, rfl⟩⟩
  | step pid reply =>
    obtain ⟨a, ha, hmap⟩ := Option.bind_eq_some_iff.mp hstep
    obtain ⟨⟨shared, next⟩, hs, rfl⟩ := Option.map_eq_some_iff.mp hmap
    obtain ⟨hreach, hcases⟩ := Activity.step_ok h.reachable hs
    refine ⟨hreach, ?_⟩
    rcases hcases with ⟨b, rfl, hb⟩ | hcov | ⟨harms, hkeep⟩
    · exact .inr ⟨pid, b, by simp [Lts.Pool.set], hb⟩
    · exact .inl hcov
    · apply h.covered.imp hkeep
      -- a call that arms nothing leaves the others in place
      intro ⟨q, b, hq, hb⟩
      have hne : q ≠ pid := by
        intro heq
        rw [heq, ha] at hq
        rw [← Option.some.inj hq, harms] at hb
        exact absurd hb (by simp)
      exact ⟨q, b, by simp [Lts.Pool.set, hne, hq], hb⟩

theorem accountWorker_awake {w : Lts.Pool AccountState Activity}
    (h : (accountWorker ports).Reachable w) : Awake w := by
  refine Lts.Machine.Reachable.invariant (P := Awake) ?_ (fun _ _ _ _ hw hstep => hw.step hstep) h
  intro w ⟨hinit, _⟩
  refine ⟨?_, .inl ⟨?_, ?_⟩⟩
  · rw [hinit]
    exact .init rfl
  · intro source due hwork
    rw [hinit] at hwork
    cases hwork <;> exact absurd ‹_› Table.mem_empty
  · intro a source t hset
    rw [hinit] at hset
    exact absurd hset (by simp)

/-- **No lost wake-up.** When no call, pass or startup is in progress, the
    alarm covers the work of the store. -/
theorem no_lost_wakeup {w : Lts.Pool AccountState Activity}
    (h : (accountWorker ports).Reachable w) (hidle : ∀ pid, w.procs pid = none) :
    w.shared.Covered := by
  rcases (accountWorker_awake h).covered with hcov | ⟨pid, a, ha, -⟩
  · exact hcov
  · exact absurd ha (by simp [hidle pid])

/-- A call that arms, run from an idle worker, leaves an idle worker. -/
theorem idle_call {w : Lts.Pool AccountState Activity} (h : (accountWorker ports).Reachable w)
    (hidle : ∀ pid, w.procs pid = none) {rpc : AccountStoreRpc}
    (hrun : rpc.run ports.domains w.shared.mail.store = .ok (s', true)) (nowMs : Instant) :
    ∃ w', (accountWorker ports).Reachable w' ∧ (∀ pid, w'.procs pid = none) ∧
      w'.shared = (w.shared.withStore s').arm nowMs none := by
  have hcall := h.step (.call 0 rpc) (by simp only [accountWorker, hidle]; rfl)
  have hcommit := hcall.step (.step 0 .unit) (by
    simp only [accountWorker, Lts.Pool.set, if_true, Option.bind_some, Activity.step, hrun]
    rfl)
  refine ⟨_, hcommit.step (.step 0 (.clock nowMs)) (by
    simp only [accountWorker, Lts.Pool.set, if_true, Option.bind_some, Activity.step]
    rfl), fun pid => ?_, rfl⟩
  simp only [Lts.Pool.set, hidle]
  split <;> rfl

end wakeup

/-! ### A sample worker

  One mailbox is created, and its route is due. -/

namespace Sample

def workerPorts : DueWorkPorts where
  dispatch := ports
  routes :=
    { domains := [{ name := "example.com", receive := true, send := true, zoneId := "zone-1" }]
      workerName := "worker"
      ownerPrefix := "umail/"
      legacySeeds := [] }
  domains := [{ name := "example.com", receive := true, send := true }]

/-- The worker before its first start. -/
def asleep : Lts.Pool AccountState Activity where
  shared := { mail := { store := Store.empty, sent := [] }, published := [], alarm := none
              armedAt := 0, lastPass := none }
  procs _ := none

end Sample

open Sample in
theorem no_lost_wakeup_created :
    ∃ w : Lts.Pool AccountState Activity, (accountWorker workerPorts).Reachable w ∧
      (∃ t, w.shared.mail.store.Work .routes (some t)) ∧ w.shared.Covered := by
  have hrun : ((AccountStoreRpc.createAddress "mailbox-1" "agent" "example.com" none 10).run
      workerPorts.domains Store.empty).toOption.any (fun (s, arms) =>
        arms && s.routes.rows.any (·.retry_after.isSome)) = true := by decide +kernel
  obtain ⟨⟨s, arms⟩, hok, hwork⟩ := (Option.any_eq_true _ _).mp hrun
  simp only [Bool.and_eq_true, List.any_eq_true] at hwork
  obtain ⟨rfl, r, hr, hdue⟩ := hwork
  have hasleep : (accountWorker workerPorts).Reachable asleep := .init ⟨rfl, fun _ => rfl⟩
  have hcreated : (AccountStoreRpc.createAddress "mailbox-1" "agent" "example.com" none 10).run
      workerPorts.domains asleep.shared.mail.store = .ok (s, true) := ok_of_toOption hok
  obtain ⟨w, hreach, hidle, hshared⟩ := idle_call hasleep (fun _ => rfl) hcreated 20
  obtain ⟨t, ht⟩ := Option.isSome_iff_exists.mp hdue
  refine ⟨w, hreach, ⟨t, ?_⟩, no_lost_wakeup hreach hidle⟩
  rw [hshared]
  exact .route r t hr ht

end Umail
