import Umail.Mail.Dispatch

/-! # At most one send

  What holds of the provider calls of every run. A call follows from a claim:
  the job was in flight in the store of the claim, authorized, and the mail is
  the one its message says. A claim takes the job out of `ready` for good, so
  two calls belong to two jobs.
-/

namespace Umail

open Relational

section log
variable [Unicode]

/-! ### Assertions -/

/-- The store has the job of a dispatch read, and its message still says what
    was read. -/
def Describes (s : Store) (jobId : String) (dispatch : OutboundDispatch) : Prop :=
  ∃ j ∈ s.jobs, j.id = jobId ∧ dispatch.job.messageId = j.message_id ∧
    dispatch.job.purpose = j.purpose ∧
    ∃ c, storedContent s j.message_id = some c ∧ messageMailFromDispatch dispatch = c.mail

/-- `j` is the job row a call was claimed with. -/
structure SendCall.ClaimOf (ports : DispatchPorts) (call : SendCall) (j : OutboundJobRow) :
    Prop where
  mem : j ∈ call.claimedIn.jobs
  id_eq : j.id = call.jobId
  job : ∃ thread_id, call.job = toOutboundJob { row := j, thread_id }
  in_flight : j.state = .in_flight
  authorized : claimRejection call.claimedIn j call.policy = none
  mail : j.purpose = .message → ∃ c raw, storedContent call.claimedIn j.message_id = some c ∧
    c.mail = some raw ∧ materializeProviderMail ports raw = .ok call.mail

/-- A call follows from a claim in the past of `s`. -/
structure SendCall.Sound (ports : DispatchPorts) (s : Store) (call : SendCall) : Prop where
  reachable : call.claimedIn.Reachable
  later : call.claimedIn.Evolves s
  claim : ∃ j, call.ClaimOf ports j

/-- What holds of the shared state. -/
structure MailState.Sound (ports : DispatchPorts) (w : MailState) : Prop where
  reachable : w.store.Reachable
  once : (w.sent.map (·.jobId)).Nodup
  calls : ∀ call ∈ w.sent, call.Sound ports w.store

/-- What holds of one dispatch. -/
def Dispatch.Sound (ports : DispatchPorts) (w : MailState) (d : Dispatch) : Prop :=
  match d.point with
  | .preparing dispatch => Describes w.store d.jobId dispatch
  | .rejecting dispatch _ => Describes w.store d.jobId dispatch
  | .authorizing dispatch mail =>
    Describes w.store d.jobId dispatch ∧ prepareDispatchMail ports dispatch = .ready mail
  | .identifying dispatch mail _ =>
    Describes w.store d.jobId dispatch ∧ prepareDispatchMail ports dispatch = .ready mail
  | .claiming dispatch mail _ _ =>
    Describes w.store d.jobId dispatch ∧ prepareDispatchMail ports dispatch = .ready mail
  | .sending call => call.Sound ports w.store ∧ ∀ c ∈ w.sent, c.jobId ≠ call.jobId
  | _ => True

/-- Two dispatches never hold a claim on the same job. -/
def Dispatch.Apart (d e : Dispatch) : Prop :=
  ∀ call call', d.point = .sending call → e.point = .sending call' →
    call.jobId ≠ call'.jobId

/-! ### Later stores -/

section later
variable {ports : DispatchPorts} {s s' : Store} {w w' : MailState}

theorem Describes.evolves {jobId : String} {dispatch : OutboundDispatch}
    (h : Describes s jobId dispatch) (hev : s.Evolves s') : Describes s' jobId dispatch := by
  obtain ⟨j, hj, rfl, hmessage, hpurpose, c, hc, hmail⟩ := h
  obtain ⟨j', hj', hjev⟩ := hev.jobs.exists_mem hj
  have hsame : j.SameRequest j' := hjev.sameRequest
  rw [OutboundJobRow.SameRequest] at hsame
  refine ⟨j', hj', ?_, ?_, ?_, c, ?_, hmail⟩
  · rw [hsame]
  · rw [hsame]
    exact hmessage
  · rw [hsame]
    exact hpurpose
  · rw [hsame]
    exact hev.content_eq hc

theorem SendCall.Sound.evolves {call : SendCall} (h : call.Sound ports s)
    (hev : s.Evolves s') : call.Sound ports s' :=
  ⟨h.reachable, h.later.trans hev, h.claim⟩

/-- Anything that leaves the calls alone keeps what holds of a dispatch. -/
theorem Dispatch.Sound.evolves {d : Dispatch} (h : d.Sound ports w)
    (hev : w.store.Evolves w'.store) (hsent : w'.sent = w.sent) : d.Sound ports w' := by
  unfold Dispatch.Sound at h ⊢
  -- one case per point; the facts are about rows that later stores keep
  split
  · next hpoint =>
    rw [hpoint] at h
    exact h.evolves hev
  · next hpoint =>
    rw [hpoint] at h
    exact h.evolves hev
  · next hpoint =>
    rw [hpoint] at h
    exact ⟨h.1.evolves hev, h.2⟩
  · next hpoint =>
    rw [hpoint] at h
    exact ⟨h.1.evolves hev, h.2⟩
  · next hpoint =>
    rw [hpoint] at h
    exact ⟨h.1.evolves hev, h.2⟩
  · next hpoint =>
    rw [hpoint] at h
    rw [hsent]
    exact ⟨h.1.evolves hev, h.2⟩
  · trivial

/-- Anything that leaves the calls alone keeps what holds of the shared state. -/
theorem MailState.Sound.evolves (h : w.Sound ports) (hr : w'.store.Reachable)
    (hev : w.store.Evolves w'.store) (hsent : w'.sent = w.sent) : w'.Sound ports where
  reachable := hr
  once := by
    rw [hsent]
    exact h.once
  calls := by
    rw [hsent]
    exact fun call hcall => (h.calls call hcall).evolves hev

/-- The job of a call was dispatched, and stays so. -/
theorem SendCall.Sound.dispatched {call : SendCall} (h : call.Sound ports s)
    {j : OutboundJobRow} (hj : j ∈ s.jobs) (hid : j.id = call.jobId) :
    j.undispatched = false := by
  obtain ⟨j₀, hclaim⟩ := h.claim
  have hev : j₀.Evolves j := h.later.jobs.version (fun _ _ => OutboundJobRow.Evolves.key_eq)
    hclaim.mem hj (.inl (hclaim.id_eq.trans hid.symm))
  by_contra hund
  have hback := hev.undispatched_of (by simpa using hund)
  simp [OutboundJobRow.undispatched, hclaim.in_flight] at hback

end later

/-! ### Steps -/

section steps
variable {ports : DispatchPorts} {w w' : MailState} {d : Dispatch}

/-- A dispatch read describes the store it was read from. -/
theorem describes_of_read {s : Store} {jobId : String} {dispatch : OutboundDispatch}
    (h : readDispatch s jobId = .ok (some dispatch)) : Describes s jobId dispatch := by
  obtain ⟨j, hj, hjob, -, c, hc, hmail⟩ := readDispatch_some h
  obtain ⟨hrow, hid, -⟩ := readJob_some hj
  refine ⟨j.row, hrow, hid, ?_, ?_, c, hc, hmail⟩
  · rw [hjob]
    rfl
  · rw [hjob]
    rfl

/-- What a successful claim claims. -/
theorem claimJob_row {s s' : Store} {input : ClaimJobInput} {attemptId : String}
    {job : OutboundJob} (h : claimJob s input = .ok (.claimed attemptId job, s')) :
    ∃ j ∈ s.jobs, j.id = input.jobId ∧ j.state = .ready ∧
      claimRejection s j input.policy = none ∧ s' = claimReadyJob s input ∧
      ∃ j' ∈ s'.jobs, j'.id = input.jobId ∧ j'.state = .in_flight ∧ j.SameRequest j' ∧
        ∃ thread_id, job = toOutboundJob { row := j', thread_id } := by
  rcases claimJob_ok h with ⟨-, hnot⟩ |
    ⟨j, hread, hready, ⟨_, -, -, hnot⟩ | ⟨hnone, rfl, j', hread', hr⟩⟩
  · exact absurd rfl (hnot _ _)
  · exact absurd rfl (hnot _ _)
  · obtain ⟨hj, hid, -⟩ := readJob_some hread
    obtain ⟨hj', hid', -⟩ := readJob_some hread'
    refine ⟨j.row, hj, hid, hready, hnone, rfl, j'.row, hj', hid'.trans hid, ?_⟩
    -- the row that was read back is the one that the claim wrote
    have hmap : (claimReadyJob s input).jobs.rows = s.jobs.rows.map _ := rfl
    obtain ⟨k, hk, hrow⟩ := (Table.mem_of_map hmap).mp hj'
    have hkid : k.id = j.row.id := by
      rw [← hid', ← hrow]
      split <;> rfl
    obtain rfl : k = j.row := s.jobs.eq_of_clash hk hj (.inl hkid)
    rw [if_pos (by simp [hid, hready])] at hrow
    rw [← hrow]
    exact ⟨rfl, rfl, j'.thread_id, by rw [(ClaimJobResult.claimed.inj hr).2, hrow]⟩

theorem claimed_sound {dispatch : OutboundDispatch} {mail : OutboundMail}
    {policy : Option PrincipalPolicy} {attemptId : String} {job : OutboundJob} {s : Store}
    (hr : w.store.Reachable) (hdesc : Describes w.store d.jobId dispatch)
    (hprepared : prepareDispatchMail ports dispatch = .ready mail)
    (h : claimJob w.store (d.claimInput policy attemptId) = .ok (.claimed attemptId job, s)) :
    SendCall.Sound ports s
      { jobId := d.jobId, attemptId, mail, policy, job, claimedIn := s } := by
  obtain ⟨j, hj, hid, -, hnone, rfl, j', hj', hid', hflight, hsame, hjob⟩ := claimJob_row h
  have hexec : (claimReadyJob w.store (d.claimInput policy attemptId)) =
      w.store.exec (.claimJob (d.claimInput policy attemptId)) := (claimJob_claimed h).2
  have hr' : (claimReadyJob w.store (d.claimInput policy attemptId)).Reachable := by
    rw [hexec]
    exact hr.exec _
  have hev : w.store.Evolves (claimReadyJob w.store (d.claimInput policy attemptId)) := by
    rw [hexec]
    exact (exec_step _ _).evolves
  refine ⟨hr', .refl _, j', hj', hid', hjob, hflight, ?_, ?_⟩
  · rw [OutboundJobRow.SameRequest] at hsame
    rw [hsame]
    exact hnone
  · intro hpurpose
    -- the dispatch was read from the row that is claimed now
    obtain ⟨k, hk, hkid, -, hkpurpose, c, hc, hmail⟩ := hdesc
    obtain rfl : k = j := w.store.jobs.eq_of_clash hk hj (.inl (hkid.trans hid.symm))
    rw [OutboundJobRow.SameRequest] at hsame
    have hmessage : j'.message_id = k.message_id := by rw [hsame]
    have hpurpose' : k.purpose = .message := by
      rw [hsame] at hpurpose
      exact hpurpose
    -- its content has not changed since
    obtain ⟨raw, hraw, hok⟩ := prepareDispatchMail_message hprepared (hkpurpose.trans hpurpose')
    rw [hmessage]
    exact ⟨c, raw, hev.content_eq hc, hmail.symm.trans hraw, hok⟩

/-- A job that is claimed was never handed to the provider. -/
theorem claimed_unsent {policy : Option PrincipalPolicy} {attemptId : String}
    {job : OutboundJob} {s : Store} {call : SendCall} (hcall : call.Sound ports w.store)
    (h : claimJob w.store (d.claimInput policy attemptId) = .ok (.claimed attemptId job, s)) :
    call.jobId ≠ d.jobId := by
  intro hid
  obtain ⟨j, hj, hjid, hready, -⟩ := claimJob_row h
  have hdispatched := hcall.dispatched hj (hjid.trans hid.symm)
  simp [OutboundJobRow.undispatched, hready] at hdispatched

theorem Dispatch.Moves.sound {next : Option Dispatch} (h : d.Moves ports w w' next)
    (hw : w.Sound ports) (hd : d.Sound ports w) :
    w'.Sound ports ∧ ∀ e, next = some e → e.Sound ports w' := by
  have hr : w'.store.Reachable := h.reachable hw.reachable
  have hev : w.store.Evolves w'.store := h.store_step.evolves
  unfold Dispatch.Sound at hd
  cases h with
  | leaves => exact ⟨hw, fun _ h => absurd h (by simp)⟩
  | reads dispatch hpoint hread =>
    refine ⟨hw, ?_⟩
    intro e he
    obtain rfl := Option.some.inj he
    exact describes_of_read hread
  | refuses dispatch detail hpoint =>
    rw [hpoint] at hd
    refine ⟨hw, ?_⟩
    intro e he
    obtain rfl := Option.some.inj he
    exact hd
  | prepares dispatch mail hpoint hprepared =>
    rw [hpoint] at hd
    refine ⟨hw, ?_⟩
    intro e he
    obtain rfl := Option.some.inj he
    exact ⟨hd, hprepared⟩
  | rejects dispatch detail hpoint =>
      exact ⟨hw.evolves hr hev rfl, fun _ h => absurd h (by simp)⟩
  | authorizes dispatch mail policy hpoint =>
    rw [hpoint] at hd
    refine ⟨hw, ?_⟩
    intro e he
    obtain rfl := Option.some.inj he
    exact hd
  | identifies dispatch mail policy attemptId hpoint =>
    rw [hpoint] at hd
    refine ⟨hw, ?_⟩
    intro e he
    obtain rfl := Option.some.inj he
    exact hd
  | claims dispatch mail policy attemptId job s hpoint hclaim =>
    rw [hpoint] at hd
    refine ⟨hw.evolves hr hev rfl, ?_⟩
    intro e he
    obtain rfl := Option.some.inj he
    -- a claim takes a `ready` job, and a job that was sent is past `ready`
    exact ⟨claimed_sound hw.reachable hd.1 hd.2 hclaim,
      fun c hc => claimed_unsent (hw.calls c hc) hclaim⟩
  | yields dispatch mail policy attemptId hpoint =>
      exact ⟨hw.evolves hr hev rfl, fun _ h => absurd h (by simp)⟩
  | sends call hpoint =>
    rw [hpoint] at hd
    refine ⟨⟨hw.reachable, ?_, ?_⟩, fun e he => ?_⟩
    · show ((w.sent ++ [call]).map (·.jobId)).Nodup
      rw [List.map_append, List.map_singleton]
      -- the claim it holds says that no earlier call had this job
      apply hw.once.append (List.nodup_singleton _)
      intro id hid hlast
      obtain ⟨c, hc, rfl⟩ := List.mem_map.mp hid
      exact hd.2 c hc (List.mem_singleton.mp hlast)
    · intro c hc
      rcases List.mem_append.mp hc with hc | hc
      · exact hw.calls c hc
      · obtain rfl := List.mem_singleton.mp hc
        exact hd.1
    · obtain rfl := Option.some.inj he
      trivial
  | hears call outcome hpoint =>
    refine ⟨hw, ?_⟩
    intro e he
    obtain rfl := Option.some.inj he
    trivial
  | completes call outcome hpoint =>
      exact ⟨hw.evolves hr hev rfl, fun _ h => absurd h (by simp)⟩

/-- A dispatch that does not hold a claim is apart from every other one. -/
theorem Dispatch.apart_of_not_sending {e : Dispatch} (h : ∀ call, d.point ≠ .sending call) :
    d.Apart e := fun call _ hd => absurd hd (h call)

theorem Dispatch.Moves.other {next : Option Dispatch} {e : Dispatch}
    (h : d.Moves ports w w' next) (he : e.Sound ports w) (hapart : d.Apart e) :
    e.Sound ports w' ∧ ∀ d', next = some d' → d'.Apart e := by
  have hev : w.store.Evolves w'.store := h.store_step.evolves
  cases h with
  | leaves => exact ⟨he, fun _ h => absurd h (by simp)⟩
  | reads | refuses | prepares | authorizes | identifies | hears =>
    refine ⟨he, ?_⟩
    intro d' hd'
    obtain rfl := Option.some.inj hd'
    exact Dispatch.apart_of_not_sending (by simp [Dispatch.goto])
  | rejects | yields | completes => exact ⟨he.evolves hev rfl, fun _ h => absurd h (by simp)⟩
  | claims dispatch mail policy attemptId job s hpoint hclaim =>
    refine ⟨he.evolves hev rfl, ?_⟩
    intro d' hd' call call' hcall hcall' heq
    obtain rfl := Option.some.inj hd'
    obtain rfl := DispatchPoint.sending.inj hcall
    -- the other dispatch holds a claim, so its job is no longer ready
    rw [Dispatch.Sound, hcall'] at he
    exact claimed_unsent he.1 hclaim heq.symm
  | sends call hpoint =>
    refine ⟨?_, fun d' hd' => ?_⟩
    · unfold Dispatch.Sound at he ⊢
      split at he
      all_goals try exact he
      next call' hpoint' =>
      refine ⟨he.1, ?_⟩
      intro c hc
      rcases List.mem_append.mp hc with hc | hc
      · exact he.2 c hc
      · obtain rfl := List.mem_singleton.mp hc
        exact hapart _ _ hpoint hpoint'
    · obtain rfl := Option.some.inj hd'
      exact Dispatch.apart_of_not_sending (by simp [Dispatch.goto])

end steps

/-! ### Runs -/

variable {ports : DispatchPorts} {p : Lts.Pool MailState Dispatch}

theorem dispatching_valid (ports : DispatchPorts) :
    (dispatching ports).Valid (MailState.Sound ports) (Dispatch.Sound ports) Dispatch.Apart where
  init := by
    intro w ⟨hstore, hsent⟩
    refine ⟨hstore ▸ .init rfl, ?_, ?_⟩
    · rw [hsent]
      exact List.nodup_nil
    · rw [hsent]
      exact fun _ h => absurd h List.not_mem_nil
  symm := fun d e h call call' hcall hcall' => (h call' call hcall' hcall).symm
  env := by
    intro w c w' hw hc
    obtain rfl := Option.some.inj hc
    have hev : w.store.Evolves (w.store.exec c) := (exec_step _ c).evolves
    exact ⟨hw.evolves (hw.reachable.exec c) hev rfl, fun d hd => hd.evolves hev rfl⟩
  start := by
    intro w a hw
    exact ⟨trivial, fun e _ => Dispatch.apart_of_not_sending (by simp [dispatching])⟩
  step := fun w d i w' next hw hd hs => (Dispatch.moves_of_step hs).sound hw hd
  other := fun w d i w' next e _ _ he hapart hs => (Dispatch.moves_of_step hs).other he hapart

theorem dispatching_sound (h : (dispatching ports).machine.Reachable p) :
    p.shared.Sound ports := ((dispatching_valid ports).reachable h).inv

/-- The columns a submit is idempotent over. -/
def OutboundJob.requestKey (job : OutboundJob) : OutboundRequesterKind × String × String :=
  (job.requester.kind, job.requester.clientId, job.requestId)

/-- Calls of one request are calls of one job. -/
theorem MailState.Sound.jobId_eq {w : MailState} (hw : w.Sound ports) {a b : SendCall}
    (ha : a ∈ w.sent) (hb : b ∈ w.sent) (hkey : a.job.requestKey = b.job.requestKey) :
    a.jobId = b.jobId := by
  have hrow : ∀ call ∈ w.sent, ∃ j ∈ w.store.jobs, j.id = call.jobId ∧
      j.requestKey = call.job.requestKey := by
    intro call hcall
    obtain ⟨j, hclaim⟩ := (hw.calls call hcall).claim
    obtain ⟨j', hj', hev⟩ := (hw.calls call hcall).later.jobs.exists_mem hclaim.mem
    have hkey : Keyed.key j' = Keyed.key j := hev.key_eq
    obtain ⟨thread_id, hjob⟩ := hclaim.job
    refine ⟨j', hj', (congrArg Prod.fst hkey).trans hclaim.id_eq, ?_⟩
    rw [hjob]
    exact congrArg Prod.snd hkey
  obtain ⟨j, hj, hjid, hjkey⟩ := hrow a ha
  obtain ⟨k, hk, hkid, hkkey⟩ := hrow b hb
  obtain rfl : j = k :=
    w.store.jobs.eq_of_clash hj hk (.inr (hjkey.trans (hkey.trans hkkey.symm)))
  exact hjid.symm.trans hkid

/-- **At-most-once send.** In every run the provider is called at most once for
    each job id, and at most once for a message of each request. Every step
    moves each job along at most one edge of its life cycle, and a settled job
    stays as it is for the rest of the run. -/
theorem sent_at_most_once (h : (dispatching ports).machine.Reachable p) :
    (p.shared.sent.map (·.jobId)).Nodup ∧
    ((p.shared.sent.filter (·.job.purpose = .message)).map (·.job.requestKey)).Nodup ∧
    (∀ l p', (dispatching ports).machine.step p l = some p' →
      ∀ j ∈ p.shared.store.jobs, ∃ j' ∈ p'.shared.store.jobs, j'.id = j.id ∧
        (j' = j ∨ j.state.Edge j'.state)) ∧
    (∀ ls p', (dispatching ports).machine.Run p ls p' →
      ∀ j ∈ p.shared.store.jobs, j.state.settled = true →
        j ∈ p'.shared.store.jobs ∧ ∀ j' ∈ p'.shared.store.jobs, j'.id = j.id →
          j' = j) := by
  have hw := dispatching_sound h
  refine ⟨hw.once, ?_, fun l p' hstep j hj => ?_, fun ls p' hrun j hj hsettled => ?_⟩
  · have hkeys : (p.shared.sent.map (·.job.requestKey)).Nodup := by
      apply List.pairwise_map.mpr
      refine (List.pairwise_map.mp hw.once).imp_of_mem fun ha hb hne hkey => ?_
      exact hne (hw.jobId_eq ha hb hkey)
    exact hkeys.sublist (List.filter_sublist.map _)
  · obtain ⟨j', hj', hmove⟩ := (dispatching_step hstep).jobs.exists_mem hj
    exact ⟨j', hj', congrArg Prod.fst hmove.request.key_eq, hmove.edge⟩
  · obtain ⟨j', hj', hev⟩ := (dispatching_evolves hrun).jobs.exists_mem hj
    rw [hev.eq_of_settled hsettled] at hj'
    exact ⟨hj', fun k hk hid => p'.shared.store.jobs.eq_of_clash hk hj' (.inl hid)⟩

end log

section sample
open Sample

theorem sent_at_most_once_approved : ∃ p, (dispatching ports).machine.Reachable p ∧
    p.shared.sent.map (·.jobId) = ["job-1"] ∧ (p.shared.sent.map (·.jobId)).Nodup := by
  obtain ⟨p, call, hrun, hsent, hid, -⟩ := sample_sends
  have hr := hrun.reachable idle_waiting_reachable
  exact ⟨p, hr, by rw [hsent, List.map_singleton, hid], (sent_at_most_once hr).1⟩

end sample

end Umail
