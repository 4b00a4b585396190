import Umail.Account.Draining
import Umail.Account.Wakeup

/-! # A pass does not spin

  The alarm fires, a pass runs, and its end sets the alarm again. If some work
  were still due then, without a failure that postpones it, the alarm would
  fire at once, and the store would wake itself forever.

  Each kind of work of a pass ends in one of three ways: its step has failed,
  and it waits for a minute; it took a full batch, and drained it; or nothing
  of it is due. So a pass whose alarm does not lie in the future has drained a
  full batch, and the passes at a fixed clock reading are no more than there is
  due work.
-/

namespace Umail

open Relational

section quiescence
variable [Unicode]

variable {ports : DueWorkPorts} {s : Store} {now : Instant} {source : DueWorkSource}

/-! ### The alarm of a pass -/

/-- **Arming.** An alarm that does not lie in the future is there for work
    that is due and has not failed. -/
theorem armDueWork_spins {failed : DueWork Bool} {a : Instant}
    (h : armDueWork s now (some failed) = some a) (ha : a ≤ now) :
    ∃ source id, failed source = false ∧ id ∈ s.dueIds now source := by
  obtain ⟨t, hearliest, rfl⟩ := Option.map_eq_some_iff.mp h
  have ht : t ≤ now := le_trans (le_max_left _ _) ha
  rcases earliest_cases hearliest with hnone | ⟨source, dueAt, hdue, rfl⟩
  · exact absurd hnone (by simp)
  · have hfailed : failed source = false := by
      by_contra hne
      have hlate : now + FAILED_STEP_RETRY_MS ≤ floored now (some failed) source dueAt :=
        le_floored_failed (by simpa using hne) now dueAt
      have hlt : now < now + FAILED_STEP_RETRY_MS := Nat.lt_add_of_pos_right (by decide)
      exact absurd (lt_of_lt_of_le hlt (le_trans hlate ht)) (lt_irrefl now)
    obtain ⟨id, hid⟩ := (work_of_dueTimes hdue).mem_dueIds
      (le_trans (le_floored now (some failed) source dueAt) ht)
    exact ⟨source, id, hfailed, hid⟩

/-! ### A pass on its own -/

/-- A step of a pass: where it began, and what the pass was resumed with. -/
structure PassStep where
  account : AccountState
  pass : DueWorkPass
  reply : DueWorkReply

/-- The step fails the pass at this kind of work. -/
def PassStep.fails (e : PassStep) (source : DueWorkSource) : Prop :=
  e.reply = .fails ∧ ∃ point, e.pass.point.skip e.pass.nowMs = some (source, point)

/-- The rows a step takes on, and how many of them it takes at most. -/
def PassStep.batch (e : PassStep) (source : DueWorkSource) : Option (List String × Nat) :=
  match source, e.pass.point, e.reply with
  | .ready, .selecting, .unit =>
    some (readyJobIds e.account.mail.store SEND_BATCH_SIZE, SEND_BATCH_SIZE)
  | .receipts, .redriving, .unit =>
    some ((redriveDueInboundReceipts e.account.mail.store e.pass.nowMs REDRIVE_BATCH_SIZE).1,
      REDRIVE_BATCH_SIZE)
  | .routes, .routing { nowMs, point := .selecting }, .route _ =>
    some ((dueRoutes e.account.mail.store nowMs).map (·.mailbox_id), 10)
  | _, _, _ => none

/-- The steps a pass has made, when the alarm fired in `w₀` and nothing else
    ran since then, and the account and the pass they lead to. -/
inductive PassRun (ports : DueWorkPorts) (w₀ : AccountState) (nowMs : Instant) :
    List PassStep → AccountState → Option DueWorkPass → Prop where
  | start : PassRun ports w₀ nowMs [] { w₀ with alarm := none } (some (.start nowMs))
  | step {trace : List PassStep} {w w' : AccountState} {p : DueWorkPass}
      {next : Option DueWorkPass} (reply : DueWorkReply) :
      PassRun ports w₀ nowMs trace w (some p) → p.step ports w reply = some (w', next) →
      PassRun ports w₀ nowMs (trace ++ [⟨w, p, reply⟩]) w' next

/-- The worker runs such a pass whenever its alarm fires and only the pass is
    resumed. -/
theorem passRun_of_run {w₀ : AccountState} {w w' : Lts.Pool AccountState Activity} {pid : Nat}
    {trace : List PassStep} {next : Option DueWorkPass} {replies : List DueWorkReply}
    (h : PassRun ports w₀ now trace w.shared next) (hpid : w.procs pid = next.map .passing)
    (hrun : (accountWorker ports).Run w (replies.map fun reply => .step pid (.work reply)) w') :
    ∃ trace' next', PassRun ports w₀ now trace' w'.shared next' ∧
      w'.procs pid = next'.map .passing := by
  induction replies generalizing w trace next with
  | nil =>
    cases hrun
    exact ⟨trace, next, h, hpid⟩
  | cons reply replies ih =>
    cases hrun with
    | cons _ _ hstep hrest =>
      obtain ⟨a, ha, hmap⟩ := Option.bind_eq_some_iff.mp hstep
      obtain ⟨p, rfl, rfl⟩ := Option.map_eq_some_iff.mp (hpid.symm.trans ha)
      obtain ⟨⟨shared, a'⟩, hactivity, rfl⟩ := Option.map_eq_some_iff.mp hmap
      obtain ⟨⟨shared', next'⟩, hpass, heq⟩ := Option.map_eq_some_iff.mp hactivity
      obtain ⟨rfl, rfl⟩ := Prod.mk.inj heq
      exact ih (h.step reply hpass) (by simp [Lts.Pool.set]) hrest

/-- The firing of the alarm begins it. -/
theorem passRun_of_fire {w w' : Lts.Pool AccountState Activity} {pid : Nat}
    (h : (accountWorker ports).step w (.fire pid now) = some w') :
    PassRun ports w.shared now [] w'.shared (some (.start now)) ∧
      w'.procs pid = (some (DueWorkPass.start now)).map .passing := by
  simp only [accountWorker] at h
  split at h
  · exact absurd h (by simp)
  · obtain rfl := Option.some.inj h
    exact ⟨.start, by simp [Lts.Pool.set]⟩

/-! ### How a kind of work ends -/

/-- The step took a full batch. All of it was due in the first store, and
    nothing of it is in the second. -/
def PassStep.Drained (e : PassStep) (now : Instant) (s s' : Store) (source : DueWorkSource) :
    Prop :=
  ∃ ids limit, e.batch source = some (ids, limit) ∧ ids.length = limit ∧
    ∀ id ∈ ids, id ∈ s.dueIds now source ∧ id ∉ s'.dueIds now source

/-- How a kind of work stands after its step. -/
inductive Finished (now : Instant) (s₀ : Store) (trace : List PassStep) (failed : DueWork Bool)
    (s : Store) (source : DueWorkSource) : Prop where
  | failed : failed source = true → Finished now s₀ trace failed s source
  | drained (e : PassStep) : e ∈ trace → e.Drained now s₀ s source →
      Finished now s₀ trace failed s source
  | clear : (∀ id, id ∉ s.dueIds now source) → Finished now s₀ trace failed s source

/-- How it stands while some of its batch is still to be done. -/
inductive Working (now : Instant) (s₀ : Store) (trace : List PassStep) (failed : DueWork Bool)
    (s : Store) (source : DueWorkSource) (rest : List String) : Prop where
  | failed : failed source = true → Working now s₀ trace failed s source rest
  | taken (e : PassStep) (ids : List String) (limit : Nat) : e ∈ trace →
      e.batch source = some (ids, limit) →
      Batch limit (e.account.mail.store.dueIds now source) ids →
      Drains now s₀ e.account.mail.store → Drains now e.account.mail.store s →
      (∀ id ∈ ids, id ∉ rest → id ∉ s.dueIds now source) →
      Working now s₀ trace failed s source rest

section ledger
variable {s₀ s' : Store} {trace trace' : List PassStep} {failed failed' : DueWork Bool}
  {rest rest' : List String}

/-- What is drained stays so. -/
theorem Finished.mono (h : Finished now s₀ trace failed s source) (htrace : trace ⊆ trace')
    (hfailed : failed source = true → failed' source = true) (hdrains : Drains now s s') :
    Finished now s₀ trace' failed' s' source := by
  cases h with
  | failed hfail => exact .failed (hfailed hfail)
  | drained e he hdrained =>
    obtain ⟨ids, limit, hbatch, hfull, hids⟩ := hdrained
    refine .drained e (htrace he) ⟨ids, limit, hbatch, hfull, fun id hid => ?_⟩
    exact ⟨(hids id hid).1, fun hdue => (hids id hid).2 (hdrains source id hdue)⟩
  | clear hclear => exact .clear fun id hdue => hclear id (hdrains source id hdue)

/-- Work goes on when the rows that leave the list are not due any more. -/
theorem Working.mono (h : Working now s₀ trace failed s source rest) (htrace : trace ⊆ trace')
    (hfailed : failed source = true → failed' source = true) (hdrains : Drains now s s')
    (hrest : ∀ id ∈ rest, id ∉ rest' → id ∉ s'.dueIds now source) :
    Working now s₀ trace' failed' s' source rest' := by
  cases h with
  | failed hfail => exact .failed (hfailed hfail)
  | taken e ids limit he hbatch hselected hbefore hafter hdone =>
    refine .taken e ids limit (htrace he) hbatch hselected hbefore (hafter.trans hdrains) ?_
    intro id hid hnot hdue
    by_cases hlisted : id ∈ rest
    · exact hrest id hlisted hnot hdue
    · exact hdone id hid hlisted (hdrains source id hdue)

/-- **A batch is done.** If it was not full, it was everything. -/
theorem Working.finished (h : Working now s₀ trace failed s source []) :
    Finished now s₀ trace failed s source := by
  cases h with
  | failed hfail => exact .failed hfail
  | taken e ids limit he hbatch hselected hbefore hafter hdone =>
    have hundue : ∀ id ∈ ids, id ∉ s.dueIds now source := fun id hid =>
      hdone id hid List.not_mem_nil
    rcases hselected.full with hfull | hall
    · exact .drained e he ⟨ids, limit, hbatch, hfull, fun id hid =>
        ⟨hbefore source id (hselected.selected id hid), hundue id hid⟩⟩
    · exact .clear fun id hdue => hundue id (hall id (hafter source id hdue)) hdue

end ledger

/-! ### The account of a pass -/

/-- The order in which a pass comes to the kinds of work. -/
def DueWorkSource.index : DueWorkSource → Nat
  | .approvals => 0
  | .ready => 1
  | .claims => 2
  | .receipts => 3
  | .routes => 4

/-- How many kinds of work are finished. -/
def DueWorkPoint.stage : DueWorkPoint → Nat
  | .expiring => 0
  | .selecting | .sending _ | .dispatching _ _ => 1
  | .settling => 2
  | .redriving => 3
  | .publishing _ | .routing _ => 4
  | .arming => 5

/-- The kind of work a batch of which is under way, and what is left of the batch. -/
def DueWorkPoint.working : DueWorkPoint → Option (DueWorkSource × List String)
  | .sending jobIds => some (.ready, jobIds)
  | .dispatching dispatch jobIds => some (.ready, dispatch.jobId :: jobIds)
  | .routing pass => pass.rest.map fun rest => (.routes, rest)
  | _ => none

/-- What is known at a point about the row that is being worked on. -/
def DueWorkPoint.Tracks (now : Instant) (s : Store) : DueWorkPoint → Prop
  | .dispatching dispatch _ => dispatch.nowMs = now ∧ dispatch.Tracks s
  | .routing pass => pass.nowMs = now ∧ pass.Tracks s
  | _ => True

omit [Unicode] in
theorem index_lt_succ (current : DueWorkSource) (h : source.index < current.index + 1) :
    source.index < current.index ∨ source = current := by
  rcases Nat.lt_succ_iff_lt_or_eq.mp h with hlt | heq
  · exact .inl hlt
  · cases source <;> cases current <;> first | exact .inr rfl | exact absurd heq (by decide)

/-- A pass goes on behind the kind of work that has failed, or in the middle of it. -/
theorem DueWorkPoint.skip_ahead {point point' : DueWorkPoint}
    (h : point.skip now = some (source, point')) :
    (∀ other, other.index < point'.stage → other.index < point.stage ∨ other = source) ∧
      (∀ other rest, point'.working = some (other, rest) → other = source) ∧
      point'.Tracks now s := by
  -- each stage is followed by the next one, and a retry stays in its stage
  cases point with
  | expiring =>
    obtain ⟨rfl, rfl⟩ := Lts.some_pair_inj h
    exact ⟨fun _ => index_lt_succ .approvals, by simp [working], trivial⟩
  | selecting =>
    obtain ⟨rfl, rfl⟩ := Lts.some_pair_inj h
    exact ⟨fun _ => index_lt_succ .ready, by simp [working], trivial⟩
  | dispatching dispatch rest =>
    obtain ⟨rfl, rfl⟩ := Lts.some_pair_inj h
    refine ⟨fun _ => .inl, ?_, trivial⟩
    intro other left hworking
    exact (Lts.some_pair_inj hworking).1.symm
  | settling =>
    obtain ⟨rfl, rfl⟩ := Lts.some_pair_inj h
    exact ⟨fun _ => index_lt_succ .claims, by simp [working], trivial⟩
  | redriving =>
    obtain ⟨rfl, rfl⟩ := Lts.some_pair_inj h
    exact ⟨fun _ => index_lt_succ .receipts, by simp [working, RoutePass.rest], rfl, trivial⟩
  | publishing receiptIds =>
    obtain ⟨rfl, rfl⟩ := Lts.some_pair_inj h
    exact ⟨fun _ => .inl, by simp [working, RoutePass.rest], rfl, trivial⟩
  | routing pass =>
    obtain ⟨rfl, rfl⟩ := Lts.some_pair_inj h
    exact ⟨fun _ => index_lt_succ .routes, by simp [working], trivial⟩
  | sending | arming => exact absurd h (by simp [skip])

/-- Where a pass stands that has made the steps `trace`. -/
structure Accounted (now : Instant) (s₀ : Store) (trace : List PassStep) (w : AccountState)
    (p : DueWorkPass) : Prop where
  reachable : w.mail.store.Reachable
  nowMs : p.nowMs = now
  drains : Drains now s₀ w.mail.store
  failed : ∀ source, p.failed source = true ↔ ∃ e ∈ trace, e.fails source
  tracks : p.point.Tracks now w.mail.store
  finished : ∀ source, source.index < p.point.stage →
    Finished now s₀ trace p.failed w.mail.store source
  working : ∀ source rest, p.point.working = some (source, rest) →
    Working now s₀ trace p.failed w.mail.store source rest

section accounted
variable {s₀ : Store} {trace : List PassStep} {w w' : AccountState} {p : DueWorkPass}

theorem Accounted.start (hr : w.mail.store.Reachable) :
    Accounted now w.mail.store [] { w with alarm := none } (.start now) where
  reachable := hr
  nowMs := rfl
  drains := .refl now _
  failed source := by simp [DueWorkPass.start]
  tracks := trivial
  finished source h := absurd h (Nat.not_lt_zero _)
  working source rest h := absurd h (by simp [DueWorkPass.start, DueWorkPoint.working])

/-- A step that succeeds. -/
theorem Accounted.goto {reply : DueWorkReply} {point : DueWorkPoint}
    (h : Accounted now s₀ trace w p) (hreply : reply ≠ .fails)
    (hr : w'.mail.store.Reachable) (hdrains : Drains now w.mail.store w'.mail.store)
    (htracks : point.Tracks now w'.mail.store)
    (hstage : ∀ source, source.index < point.stage → source.index < p.point.stage ∨
      Finished now s₀ (trace ++ [⟨w, p, reply⟩]) p.failed w'.mail.store source)
    (hworking : ∀ source rest, point.working = some (source, rest) →
      Working now s₀ (trace ++ [⟨w, p, reply⟩]) p.failed w'.mail.store source rest) :
    Accounted now s₀ (trace ++ [⟨w, p, reply⟩]) w' (p.goto point) where
  reachable := hr
  nowMs := h.nowMs
  drains := h.drains.trans hdrains
  failed source := by
    apply (h.failed source).trans
    simp [PassStep.fails, hreply]
  tracks := htracks
  finished source hlt := by
    -- a stage that was over before stays over
    rcases hstage source hlt with hbefore | hdone
    · exact (h.finished source hbefore).mono (List.subset_append_left _ _) id hdrains
    · exact hdone
  working := hworking

/-- A step within the work of one kind. -/
theorem Accounted.stay {reply : DueWorkReply} {point : DueWorkPoint}
    (h : Accounted now s₀ trace w p) (hreply : reply ≠ .fails)
    (hr : w'.mail.store.Reachable) (hdrains : Drains now w.mail.store w'.mail.store)
    (htracks : point.Tracks now w'.mail.store) (hstage : point.stage = p.point.stage)
    (hworking : ∀ source rest, point.working = some (source, rest) →
      Working now s₀ (trace ++ [⟨w, p, reply⟩]) p.failed w'.mail.store source rest) :
    Accounted now s₀ (trace ++ [⟨w, p, reply⟩]) w' (p.goto point) :=
  h.goto hreply hr hdrains htracks (fun _ hlt => .inl (hstage ▸ hlt)) hworking

/-- A step that finishes a kind of work. -/
theorem Accounted.advance {reply : DueWorkReply} {point : DueWorkPoint} (current : DueWorkSource)
    (h : Accounted now s₀ trace w p) (hreply : reply ≠ .fails)
    (hr : w'.mail.store.Reachable) (hdrains : Drains now w.mail.store w'.mail.store)
    (htracks : point.Tracks now w'.mail.store) (hbefore : p.point.stage = current.index)
    (hafter : point.stage = current.index + 1) (hidle : point.working = none)
    (hdone : Finished now s₀ (trace ++ [⟨w, p, reply⟩]) p.failed w'.mail.store current) :
    Accounted now s₀ (trace ++ [⟨w, p, reply⟩]) w' (p.goto point) := by
  refine h.goto hreply hr hdrains htracks ?_ (by simp [hidle])
  intro source hlt
  rw [hbefore]
  rw [hafter] at hlt
  refine (index_lt_succ current hlt).imp id ?_
  intro heq
  exact heq ▸ hdone

/-- A step that fails. Its kind of work is finished by that. -/
theorem Accounted.fail {point : DueWorkPoint} (h : Accounted now s₀ trace w p)
    (hskip : p.point.skip p.nowMs = some (source, point)) :
    Accounted now s₀ (trace ++ [⟨w, p, .fails⟩]) w ((p.fail source).goto point) := by
  have hfailed : (p.fail source).failed source = true := by simp [DueWorkPass.fail]
  have hkeeps : ∀ other, p.failed other = true → (p.fail source).failed other = true := by
    intro other hother
    simp [DueWorkPass.fail, hother]
  obtain ⟨hstage, hworking, htracks⟩ := DueWorkPoint.skip_ahead (s := w.mail.store) hskip
  refine ⟨h.reachable, h.nowMs, h.drains, ?_, h.nowMs ▸ htracks, ?_, ?_⟩
  · intro other
    have hiff := h.failed other
    simp only [List.mem_append, List.mem_singleton]
    constructor
    · intro hother
      by_cases heq : other = source
      · subst heq
        exact ⟨_, .inr rfl, rfl, point, hskip⟩
      · obtain ⟨e, he, hfails⟩ :=
          hiff.mp (by simpa [DueWorkPass.fail, DueWorkPass.goto, heq] using hother)
        exact ⟨e, .inl he, hfails⟩
    · intro ⟨e, he, hfails⟩
      rcases he with hold | rfl
      · exact hkeeps other (hiff.mpr ⟨e, hold, hfails⟩)
      · obtain ⟨-, point', hskip'⟩ := hfails
        -- the failing step of the trace is this one, and it names its own kind
        obtain ⟨rfl, -⟩ := Lts.some_pair_inj (hskip.symm.trans hskip')
        exact hfailed
  · intro other hlt
    rcases hstage other hlt with hbefore | rfl
    · exact (h.finished other hbefore).mono (List.subset_append_left _ _) (hkeeps other)
        (.refl now _)
    · exact .failed hfailed
  · intro other rest hrest
    obtain rfl := hworking other rest hrest
    exact .failed hfailed

/-- **Step.** -/
theorem Accounted.step {reply : DueWorkReply} {next : DueWorkPass}
    (h : Accounted now s₀ trace w p) (hstep : p.step ports w reply = some (w', some next)) :
    Accounted now s₀ (trace ++ [⟨w, p, reply⟩]) w' next := by
  have hr : w'.mail.store.Reachable := (DueWorkPass.step_ok h.reachable hstep).1
  obtain rfl : p.nowMs = now := h.nowMs
  have htrace : trace ⊆ trace ++ [⟨w, p, reply⟩] := List.subset_append_left _ _
  have hlast : (⟨w, p, reply⟩ : PassStep) ∈ trace ++ [⟨w, p, reply⟩] := by simp
  have htracks := h.tracks
  -- a batch that is selected now is still to be done
  have htaken : ∀ {source ids limit rest}, (⟨w, p, reply⟩ : PassStep).batch source =
      some (ids, limit) →
      Batch limit (w.mail.store.dueIds p.nowMs source) ids →
      Drains p.nowMs w.mail.store w'.mail.store →
      (∀ id ∈ ids, id ∉ rest → id ∉ w'.mail.store.dueIds p.nowMs source) →
      Working p.nowMs s₀ (trace ++ [⟨w, p, reply⟩]) p.failed w'.mail.store source rest :=
    fun hbatch hselected hafter hdone => .taken _ _ _ hlast hbatch hselected h.drains hafter hdone
  cases DueWorkPass.moves_of_step hstep with
  | expires hpoint =>
    refine h.advance .approvals (by simp) hr expireDueApprovals_drains trivial ?_ rfl rfl ?_
    · rw [hpoint]
      rfl
    · exact .clear fun id => expireDueApprovals_done
  | selects hpoint =>
    refine h.stay (by simp) hr (.refl _ _) trivial (by rw [hpoint]; rfl) ?_
    intro source rest hworking
    obtain ⟨rfl, rfl⟩ := Lts.some_pair_inj hworking
    exact htaken (by simp [PassStep.batch, hpoint]) (readyJobIds_batch _) (.refl _ _)
      fun id hid hnot => absurd hid hnot
  | sent hpoint =>
    have hworking := h.working .ready [] (by rw [hpoint]; rfl)
    refine h.advance .ready (by simp) hr (.refl _ _) trivial ?_ rfl rfl ?_
    · rw [hpoint]
      rfl
    · exact hworking.finished.mono htrace id (.refl _ _)
  | dispatches jobId rest hpoint =>
    have hsame := h.working .ready (jobId :: rest) (by rw [hpoint]; rfl)
    refine h.stay (by simp) hr (.refl _ _) ⟨rfl, trivial⟩ (by rw [hpoint]; rfl) ?_
    intro source rest' hworking
    obtain ⟨rfl, rfl⟩ := Lts.some_pair_inj hworking
    exact hsame.mono htrace id (.refl _ _) fun id hid hnot => absurd hid hnot
  | dispatched dispatch rest reply mail next hpoint hthrows hdispatch =>
    rw [hpoint] at htracks
    obtain ⟨hnow, hdispatching⟩ := htracks
    have hdispatched := hdispatching.step h.reachable.referential hthrows hdispatch
    rw [hnow] at hdispatched
    have hworking := h.working .ready (dispatch.jobId :: rest) (by rw [hpoint]; rfl)
    cases next with
    | some d' =>
      obtain ⟨hdrains, hjob, hnow', htracks'⟩ := hdispatched
      refine h.stay (by simp) hr hdrains ⟨hnow', htracks'⟩ (by rw [hpoint]; rfl) ?_
      intro source rest' hrest'
      obtain ⟨rfl, rfl⟩ := Lts.some_pair_inj hrest'
      rw [hjob]
      exact hworking.mono htrace id hdrains fun id hid hnot => absurd hid hnot
    | none =>
      -- the job that has been dispatched is the one that leaves the list
      obtain ⟨hdrains, hunready⟩ := hdispatched
      refine h.stay (by simp) hr hdrains trivial (by rw [hpoint]; rfl) ?_
      intro source rest' hrest'
      obtain ⟨rfl, rfl⟩ := Lts.some_pair_inj hrest'
      refine hworking.mono htrace id hdrains fun id hid hnot => ?_
      rcases List.mem_cons.mp hid with rfl | hlater
      · exact hunready
      · exact absurd hlater hnot
  | settles hpoint =>
    refine h.advance .claims (by simp) hr settleAbandonedClaims_drains trivial ?_ rfl rfl ?_
    · rw [hpoint]
      rfl
    · exact .clear fun id => settleAbandonedClaims_done
  | redrives hpoint =>
    have hdrains : Drains p.nowMs w.mail.store (redriveDueInboundReceipts w.mail.store p.nowMs
        REDRIVE_BATCH_SIZE).2 := redriveDueInboundReceipts_drains _
    refine h.advance .receipts (by simp) hr hdrains trivial ?_ rfl rfl ?_
    · rw [hpoint]
      rfl
    · -- the receipts leave the due set before they are published
      exact Working.finished (htaken (by simp [PassStep.batch, hpoint])
        (redriveDueInboundReceipts_batch _) hdrains
        fun id hid _ => redriveDueInboundReceipts_done hid)
  | published hpoint =>
    exact h.stay (by simp) hr (.refl _ _) ⟨rfl, trivial⟩ (by rw [hpoint]; rfl)
      (by simp [DueWorkPoint.working, RoutePass.rest])
  | publishes receiptId rest hpoint =>
    exact h.stay (by simp) hr (.refl _ _) trivial (by rw [hpoint]; rfl)
      (by simp [DueWorkPoint.working])
  | reconciles pass reply store next hpoint hpass =>
    rw [hpoint] at htracks
    obtain ⟨hnow, hrouting⟩ := htracks
    have hreconciled := hrouting.step h.reachable.routesOwned hpass
    rw [hnow] at hreconciled
    cases next with
    | some pass' =>
      obtain ⟨hdrains, hnow', htracks', hselected, hdone⟩ := hreconciled
      refine h.stay (by simp) hr hdrains ⟨hnow', htracks'⟩ (by rw [hpoint]; rfl) ?_
      intro source rest' hrest'
      obtain ⟨rest, hrest, heq⟩ := Option.map_eq_some_iff.mp hrest'
      obtain ⟨rfl, rfl⟩ := Prod.mk.inj heq
      cases hbefore : pass.rest with
      | some rows =>
        obtain ⟨rest₁, hrest₁, hgone⟩ := hdone rows hbefore
        obtain rfl := Option.some.inj (hrest.symm.trans hrest₁)
        have hworking := h.working .routes rows (by simp [hpoint, DueWorkPoint.working, hbefore])
        exact hworking.mono htrace id hdrains hgone
      | none =>
        -- the routes have just been selected
        have hselecting : pass.point = .selecting := by
          unfold RoutePass.rest at hbefore
          cases hat : pass.point <;> simp [hat] at hbefore ⊢
        obtain rfl := Option.some.inj (hrest.symm.trans (hselected hselecting))
        refine htaken ?_ dueRoutes_batch hdrains fun id hid hnot => absurd hid hnot
        obtain ⟨nowMs, point⟩ := pass
        obtain rfl : point = .selecting := hselecting
        obtain rfl : nowMs = p.nowMs := hnow
        simp [PassStep.batch, hpoint]
    | none =>
      obtain ⟨hdrains, hrest⟩ := hreconciled
      have hworking := h.working .routes [] (by simp [hpoint, DueWorkPoint.working, hrest])
      refine h.advance .routes (by simp) hr hdrains trivial ?_ rfl rfl ?_
      · rw [hpoint]
        rfl
      · exact hworking.finished.mono htrace id hdrains
  | fails source point hskip => exact h.fail hskip

end accounted

/-! ### A pass ends -/

def DispatchPoint.rank : DispatchPoint → Nat
  | .reading => 8
  | .preparing _ => 7
  | .authorizing _ _ => 6
  | .identifying _ _ _ => 5
  | .claiming _ _ _ _ => 4
  | .sending _ => 3
  | .awaiting _ => 2
  | .rejecting _ _ | .completing _ _ => 1

def RouteAwait.rank : RouteAwait → Nat
  | .listing _ => 3
  | .reading _ _ _ => 2
  | .removing _ _ _ | .saving _ _ _ => 1

def RoutePassPoint.rank : RoutePassPoint → Nat
  | .selecting => 52
  | .between rows => 5 * rows.length + 1
  | .attempting _ rest call => 5 * rest.length + 1 + call.rank

/-- A bound for the steps a pass still makes. -/
def DueWorkPoint.rank : DueWorkPoint → Nat
  | .expiring => 209
  | .selecting => 208
  | .sending jobIds => 10 * jobIds.length + 107
  | .dispatching dispatch jobIds => 10 * jobIds.length + 107 + dispatch.point.rank
  | .settling => 106
  | .redriving => 105
  | .publishing receiptIds => receiptIds.length + 54
  | .routing pass => pass.point.rank + 1
  | .arming => 1

theorem DispatchPoint.rank_pos (point : DispatchPoint) : 0 < point.rank := by
  cases point <;> exact Nat.succ_pos _

theorem RouteAwait.rank_pos (call : RouteAwait) : 0 < call.rank := by
  cases call <;> exact Nat.succ_pos _

theorem RoutePassPoint.rank_pos (point : RoutePassPoint) : 0 < point.rank := by
  cases point <;> simp [rank]

theorem Dispatch.Moves.rank_lt {ports : DispatchPorts} {w w' : MailState} {d d' : Dispatch}
    (h : d.Moves ports w w' (some d')) : d'.point.rank < d.point.rank := by
  cases h with
  | reads _ hpoint | refuses _ _ hpoint | prepares _ _ hpoint | authorizes _ _ _ hpoint
  | identifies _ _ _ _ hpoint | claims _ _ _ _ _ _ hpoint | sends _ hpoint | hears _ _ hpoint =>
    simp [hpoint, Dispatch.goto, DispatchPoint.rank]

theorem resumeRoute_rank {ports : RecipientRoutingPorts} {s s' : Store} {call call' : RouteAwait}
    {reply : RouteReply} (h : resumeRoute ports s now call reply = some (s', .awaits call')) :
    call'.rank < call.rank := by
  have hsettles : ∀ {a current own}, Settles ports s a current now own s' (.awaits call') →
      call'.rank = 1 := by
    intro a current own h
    rcases h.awaits with ⟨rule, -, -, rfl⟩ | ⟨-, rfl⟩
    · rfl
    · rfl
  cases resumeRoute_resumes h with
  | found => exact Nat.lt_succ_self 2
  | unlisted _ _ _ _ _ _ _ h =>
    rw [hsettles h]
    show 1 < 3
    decide
  | reread _ _ _ _ _ _ _ h =>
    rw [hsettles h]
    exact Nat.lt_succ_self 1
  | saved _ _ _ _ _ _ hconfirms => nomatch hconfirms

theorem beginRoute_rank {ports : RecipientRoutingPorts} {s s' : Store} {id : String}
    {call : RouteAwait} (h : beginRoute ports s id = (s', .awaits call)) : call.rank = 3 := by
  cases beginRoute_begins h with
  | listing => rfl

theorem RoutePass.rank_lt {ports : RecipientRoutingPorts} {s s' : Store} {p p' : RoutePass}
    {reply : RouteReply} (h : p.step ports s reply = some (s', some p')) :
    p'.point.rank < p.point.rank := by
  rcases RoutePass.step_cases h with ⟨hpoint, -, hnext⟩ | ⟨-, -, hnext⟩ |
    ⟨row, rest, s₁, out, hattempt, -, hnext⟩
  · obtain rfl := Option.some.inj hnext
    -- the query takes ten routes, so the rank of the start covers them
    have hlimit : (dueRoutes s p.nowMs).length ≤ 10 := by simp [dueRoutes]
    rw [hpoint]
    show 5 * (dueRoutes s p.nowMs).length + 1 < 52
    omega
  · exact absurd hnext (by simp)
  · obtain rfl := Option.some.inj hnext
    rcases RoutePass.attempt_cases hattempt with ⟨hpoint, hbegin⟩ | ⟨call, hpoint, hresume⟩
    · have hrow : p.point.rank = 5 * (rest.length + 1) + 1 := by rw [hpoint]; rfl
      rw [hrow]
      cases out with
      | awaits call =>
        show 5 * rest.length + 1 + call.rank < _
        rw [beginRoute_rank hbegin]
        omega
      | returns | fails =>
        show 5 * rest.length + 1 < _
        omega
    · have hrow : p.point.rank = 5 * rest.length + 1 + call.rank := by rw [hpoint]; rfl
      have hcall := call.rank_pos
      rw [hrow]
      cases out with
      | awaits call' =>
        show 5 * rest.length + 1 + call'.rank < _
        exact Nat.add_lt_add_left (resumeRoute_rank hresume) _
      | returns | fails =>
        show 5 * rest.length + 1 < _
        omega

theorem DueWorkPoint.skip_rank {point point' : DueWorkPoint}
    (h : point.skip now = some (source, point')) : point'.rank < point.rank := by
  cases point with
  | expiring | selecting | settling | redriving =>
    obtain ⟨-, rfl⟩ := Lts.some_pair_inj h
    simp [rank, RoutePassPoint.rank]
  | dispatching dispatch rest =>
    obtain ⟨-, rfl⟩ := Lts.some_pair_inj h
    exact Nat.lt_add_of_pos_right dispatch.point.rank_pos
  | publishing receiptIds =>
    obtain ⟨-, rfl⟩ := Lts.some_pair_inj h
    show 53 < receiptIds.length + 54
    omega
  | routing pass =>
    obtain ⟨-, rfl⟩ := Lts.some_pair_inj h
    exact Nat.succ_lt_succ pass.point.rank_pos
  | sending | arming => exact absurd h (by simp [skip])

/-- **Every step counts.** -/
theorem DueWorkPass.rank_lt {w w' : AccountState} {p next : DueWorkPass} {reply : DueWorkReply}
    (h : p.step ports w reply = some (w', some next)) : next.point.rank < p.point.rank := by
  cases DueWorkPass.moves_of_step h with
  | expires hpoint | settles hpoint | sent hpoint =>
    simp [hpoint, DueWorkPass.goto, DueWorkPoint.rank]
  | selects hpoint =>
    -- the rank before a query covers the batch it can return
    have hlimit : (readyJobIds w.mail.store SEND_BATCH_SIZE).length ≤ 10 := by
      simp [readyJobIds, SEND_BATCH_SIZE]
    rw [hpoint]
    show 10 * (readyJobIds w.mail.store SEND_BATCH_SIZE).length + 107 < 208
    omega
  | dispatches jobId rest hpoint =>
    rw [hpoint]
    show 10 * rest.length + 107 + 8 < 10 * (rest.length + 1) + 107
    omega
  | dispatched dispatch rest reply mail next hpoint hthrows hdispatch =>
    rw [hpoint]
    cases next with
    | some d' =>
      exact Nat.add_lt_add_left (Dispatch.moves_of_step hdispatch).rank_lt _
    | none => exact Nat.lt_add_of_pos_right dispatch.point.rank_pos
  | redrives hpoint =>
    have hlimit : (redriveDueInboundReceipts w.mail.store p.nowMs REDRIVE_BATCH_SIZE).1.length ≤
        50 := by
      simp [redriveDueInboundReceipts, dueReceipts, REDRIVE_BATCH_SIZE]
    rw [hpoint]
    show (redriveDueInboundReceipts w.mail.store p.nowMs REDRIVE_BATCH_SIZE).1.length + 54 < 105
    omega
  | published hpoint =>
    simp [hpoint, DueWorkPass.routes, DueWorkPass.goto, DueWorkPoint.rank, RoutePassPoint.rank]
  | publishes receiptId rest hpoint =>
    rw [hpoint]
    exact Nat.lt_succ_self _
  | reconciles pass reply store next hpoint hpass =>
    rw [hpoint]
    cases next with
    | some pass' => exact Nat.succ_lt_succ (RoutePass.rank_lt hpass)
    | none => exact Nat.succ_lt_succ pass.point.rank_pos
  | fails source point hskip => exact DueWorkPoint.skip_rank hskip

/-- A pass can always go on. -/
theorem DueWorkPass.can_step (ports : DueWorkPorts) (w : AccountState) (p : DueWorkPass) :
    ∃ reply, (p.step ports w reply).isSome = true := by
  unfold DueWorkPass.step
  cases p.point with
  | dispatching | routing => exact ⟨.fails, rfl⟩
  | sending jobIds => cases jobIds <;> exact ⟨.unit, rfl⟩
  | publishing receiptIds => cases receiptIds <;> exact ⟨.unit, rfl⟩
  | expiring | selecting | settling | redriving | arming => exact ⟨.unit, rfl⟩

theorem PassRun.length_le {w₀ w : AccountState} {trace : List PassStep}
    {next : Option DueWorkPass} (h : PassRun ports w₀ now trace w next) :
    trace.length + (next.map (·.point.rank)).getD 0 ≤ 209 := by
  induction h with
  | start => exact le_refl 209
  | step reply hrun hstep ih =>
    rename_i trace w w' p next
    -- each round lowers the rank of the point
    have hbefore : trace.length + p.point.rank ≤ 209 := ih
    rw [List.length_append, List.length_singleton]
    cases next with
    | none =>
      have hpos : 0 < p.point.rank := by
        cases DueWorkPass.moves_of_step hstep with
        | arms hpoint => simp [hpoint, DueWorkPoint.rank]
      show trace.length + 1 + 0 ≤ 209
      omega
    | some next =>
      have hlt := DueWorkPass.rank_lt hstep
      show trace.length + 1 + next.point.rank ≤ 209
      omega

/-! ### Every pass, and pass after pass -/

/-- The alarm is cleared, or lies in the future. -/
def AccountState.Rests (now : Instant) (w : AccountState) : Prop :=
  ∀ a, w.alarm = some a → now < a

/-- What is said of a pass that has ended. -/
structure PassEnd (now : Instant) (w₀ : AccountState) (trace : List PassStep) (w : AccountState) :
    Prop where
  /-- The alarm does not fire at once, unless a full batch has been drained. -/
  rests : w.Rests now ∨
    ∃ source, ∃ e ∈ trace, e.Drained now w₀.mail.store w.mail.store source
  /-- The alarm is the earliest of the times the kinds of work contribute, and
      one that failed contributes no time within the next minute. -/
  failures : ∃ failed, w.alarm = armDueWork w.mail.store now (some failed) ∧
    (∀ source, failed source = true ↔ ∃ e ∈ trace, e.fails source) ∧
    ∀ source due, failed source = true → now + 60000 ≤ floored now (some failed) source due

section runs
variable {w₀ w : AccountState} {trace : List PassStep}

theorem PassRun.accounted {next : Option DueWorkPass} (hr : w₀.mail.store.Reachable)
    (h : PassRun ports w₀ now trace w next) :
    ∀ p, next = some p → Accounted now w₀.mail.store trace w p := by
  induction h with
  | start =>
    intro p hp
    obtain rfl := Option.some.inj hp
    exact .start hr
  | step reply hrun hstep ih =>
    intro next hnext
    subst hnext
    exact (ih _ rfl).step hstep

/-- A pass that has ended arms the alarm with everything accounted for. -/
theorem PassRun.ended (hr : w₀.mail.store.Reachable) (h : PassRun ports w₀ now trace w none) :
    w.mail.store.Reachable ∧ Drains now w₀.mail.store w.mail.store ∧
      PassEnd now w₀ trace w := by
  generalize hend : (none : Option DueWorkPass) = next at h
  cases h with
  | start => exact absurd hend (by simp)
  | step reply hrun hstep =>
    rename_i trace w₁ p
    subst hend
    have h := hrun.accounted hr p rfl
    obtain rfl : p.nowMs = now := h.nowMs
    cases DueWorkPass.moves_of_step hstep with
    | arms hpoint =>
      have htrace : trace ⊆ trace ++ [⟨w₁, p, .unit⟩] := List.subset_append_left _ _
      refine ⟨h.reachable, h.drains, ?_, p.failed, rfl, ?_, ?_⟩
      · by_cases hrests : ∀ a, armDueWork w₁.mail.store p.nowMs (some p.failed) = some a →
            p.nowMs < a
        · exact .inl hrests
        · push Not at hrests
          obtain ⟨a, ha, hle⟩ := hrests
          obtain ⟨source, id, hfailed, hdue⟩ := armDueWork_spins ha hle
          -- the kind of work that is due again can only be one that was drained
          have hstage : source.index < p.point.stage := by
            rw [hpoint]
            cases source <;> simp [DueWorkSource.index, DueWorkPoint.stage]
          cases h.finished source hstage with
          | failed hfail => exact absurd hfail (by simp [hfailed])
          | drained e he hdrained => exact .inr ⟨source, e, htrace he, hdrained⟩
          | clear hclear => exact absurd hdue (hclear id)
      · intro source
        apply (h.failed source).trans
        simp [PassStep.fails]
      · intro source due hfailed
        exact le_floored_failed hfailed p.nowMs due

/-- A full batch that is drained makes the due set smaller. -/
theorem PassStep.Drained.card_lt {e : PassStep} {s s' : Store} (h : e.Drained now s s' source)
    (hdrains : Drains now s s') : (s'.dueWork now).card < (s.dueWork now).card := by
  obtain ⟨ids, limit, hbatch, hfull, hids⟩ := h
  -- a full batch is not empty
  have hpos : 0 < ids.length := by
    unfold PassStep.batch at hbatch
    split at hbatch
    · obtain ⟨-, rfl⟩ := Lts.some_pair_inj hbatch
      rw [hfull]
      decide
    · obtain ⟨-, rfl⟩ := Lts.some_pair_inj hbatch
      rw [hfull]
      decide
    · obtain ⟨-, rfl⟩ := Lts.some_pair_inj hbatch
      rw [hfull]
      decide
    · exact absurd hbatch (by simp)
  obtain ⟨id, hid⟩ := List.exists_mem_of_length_pos hpos
  obtain ⟨hbefore, hafter⟩ := hids id hid
  refine Finset.card_lt_card ⟨hdrains.subset, fun hsub => hafter ?_⟩
  exact mem_dueWork.mp (hsub (mem_dueWork.mpr hbefore))

/-- A pass at a clock reading leads from one state of the account to the other. -/
def Passes (ports : DueWorkPorts) (now : Instant) (w₀ w : AccountState) : Prop :=
  ∃ trace, PassRun ports w₀ now trace w none

/-- **A pass does not spin.** It ends; its alarm is cleared or lies in the
    future, unless it has drained a full batch; and passes at a fixed clock
    reading come to rest within as many as there is work due. -/
theorem due_work_does_not_spin (ports : DueWorkPorts) (hr : w₀.mail.store.Reachable)
    (now : Instant) :
    (∀ trace w next, PassRun ports w₀ now trace w next → trace.length ≤ 209 ∧
      ∀ p, next = some p → ∃ reply, (p.step ports w reply).isSome = true) ∧
    (∀ trace w, PassRun ports w₀ now trace w none → PassEnd now w₀ trace w) ∧
    ∀ states : Nat → AccountState, states 0 = w₀ →
      (∀ n ≤ (w₀.mail.store.dueWork now).card, Passes ports now (states n)
        (states (n + 1))) →
      ∃ n ≤ (w₀.mail.store.dueWork now).card, (states (n + 1)).Rests now := by
  refine ⟨?_, ?_, ?_⟩
  · intro trace w next hrun
    exact ⟨le_trans (Nat.le_add_right _ _) hrun.length_le, fun p _ => p.can_step ports w⟩
  · intro trace w hrun
    exact (hrun.ended hr).2.2
  · intro states hstart hpasses
    subst hstart
    -- every pass of the sequence starts in a reachable store
    have hreach : ∀ n ≤ ((states 0).mail.store.dueWork now).card,
        (states n).mail.store.Reachable := by
      intro n
      induction n with
      | zero => exact fun _ => hr
      | succ n ih =>
        intro hn
        obtain ⟨trace, hrun⟩ := hpasses n (Nat.le_of_succ_le hn)
        exact (hrun.ended (ih (Nat.le_of_succ_le hn))).1
    -- a pass rests or has drained some due work, of which there is no more than at the start
    apply Lts.exists_rest_of_measure (fun w => (w.mail.store.dueWork now).card) _ states
    intro n hn
    obtain ⟨trace, hrun⟩ := hpasses n hn
    obtain ⟨-, hdrains, hend⟩ := hrun.ended (hreach n hn)
    exact hend.rests.imp id fun ⟨_, _, _, hdrained⟩ => hdrained.card_lt hdrains

end runs

end quiescence

namespace Sample

/-- The sample worker with its mailbox, as the alarm for the route is due. -/
def awake : AccountState :=
  { asleep.shared with mail := { store := mailboxStore, sent := [] }, alarm := some 20 }

/-- A pass in which the route step fails. -/
def routesFail : List DueWorkReply := [.unit, .unit, .unit, .unit, .unit, .unit, .fails, .unit]

end Sample

open Sample in
theorem due_work_does_not_spin_routes_fail : ∃ trace w,
    PassRun workerPorts awake 20 trace w none ∧ PassEnd 20 awake trace w ∧
      w.alarm = some 60020 := by
  have hfire : ((accountWorker workerPorts).fire { shared := awake, procs := fun _ => none }
      (.fire 0 20 :: routesFail.map fun reply => .step 0 (.work reply))).any (fun w =>
        w.shared.alarm = some 60020 && (w.procs 0).isNone) = true := by decide +kernel
  obtain ⟨w, hw, hend⟩ := (Option.any_eq_true _ _).mp hfire
  simp only [Bool.and_eq_true, decide_eq_true_eq, Option.isNone_iff_eq_none] at hend
  cases Lts.Machine.Run.of_fire hw with
  | cons _ _ hfires hrest =>
    obtain ⟨hstart, hpid⟩ := passRun_of_fire hfires
    obtain ⟨trace, next, hrun, hnext⟩ := passRun_of_run hstart hpid hrest
    obtain rfl : next = none := Option.map_eq_none_iff.mp (hnext.symm.trans hend.2)
    exact ⟨trace, w.shared, hrun,
      (due_work_does_not_spin workerPorts mailboxStore_reachable 20).2.1 trace w.shared hrun,
      hend.1⟩

end Umail
