import Umail.Framework.Pool
import Umail.Mail.Outbound

/-! # Dispatching a job

  `dispatchJob` of `apps/server/src/mail/dispatch.ts` as a process. It
  suspends at every `yield*`, so each read, claim, provider call and
  completion is a step of its own, and everything else may happen between two
  of them. The pool runs any number of dispatches of any jobs at any clock
  readings next to arbitrary commands; a crash drops a dispatch for good.
-/

namespace Umail

open Relational

section process
variable [Unicode]

/-! ### The process -/

/-- One call of the provider, recorded with the claim it follows from. -/
structure SendCall where
  /-- The job that was dispatched. -/
  jobId : String
  attemptId : String
  mail : OutboundMail
  /-- What `policyFor` returned in this dispatch. -/
  policy : Option PrincipalPolicy
  /-- The job as the claim returned it. -/
  job : OutboundJob
  /-- The store in which the claim committed. -/
  claimedIn : Store

/-- The account store and the calls of the provider, oldest first. -/
structure MailState where
  store : Store
  sent : List SendCall

/-- Where a dispatch is suspended. -/
inductive DispatchPoint where
  | reading
  | preparing (dispatch : OutboundDispatch)
  | rejecting (dispatch : OutboundDispatch) (detail : String)
  | authorizing (dispatch : OutboundDispatch) (mail : OutboundMail)
  | identifying (dispatch : OutboundDispatch) (mail : OutboundMail)
      (policy : Option PrincipalPolicy)
  | claiming (dispatch : OutboundDispatch) (mail : OutboundMail)
      (policy : Option PrincipalPolicy) (attemptId : String)
  | sending (call : SendCall)
  | awaiting (call : SendCall)
  | completing (call : SendCall) (outcome : CompleteAttemptOutcome)

/-- A running `dispatchJob(storage, jobId, ports, nowMs)`. -/
structure Dispatch where
  jobId : String
  nowMs : Instant
  point : DispatchPoint

/-- What a dispatch is resumed with. -/
inductive DispatchReply where
  | unit
  | policy (policy : Option PrincipalPolicy)
  | random (id : String)
  | outcome (outcome : CompleteAttemptOutcome)

def Dispatch.goto (d : Dispatch) (point : DispatchPoint) : Dispatch := { d with point }

def Dispatch.claimInput (d : Dispatch) (policy : Option PrincipalPolicy) (attemptId : String) :
    ClaimJobInput where
  jobId := d.jobId
  attemptId
  nowIso := d.nowMs
  claimExpiresAt := sendClaimUntil d.nowMs
  policy

def Dispatch.completeInput (d : Dispatch) (call : SendCall) (outcome : CompleteAttemptOutcome) :
    CompleteAttemptInput where
  jobId := d.jobId
  attemptId := call.attemptId
  nowIso := d.nowMs
  outcome

/-- Sends one ready job. At-most-once: the provider is called only after
    `claimJob` moves the job out of `ready`. -/
def Dispatch.step (ports : DispatchPorts) (w : MailState) (d : Dispatch)
    (reply : DispatchReply) : Option (MailState × Option Dispatch) :=
  match d.point, reply with
  | .reading, .unit =>
    match readDispatch w.store d.jobId with
    | .ok (some dispatch) =>
      if dispatch.job.state ≠ .ready then some (w, none)
      else some (w, some (d.goto (.preparing dispatch)))
    | _ => some (w, none)
  | .preparing dispatch, .unit =>
    match prepareDispatchMail ports dispatch with
    | .reject detail => some (w, some (d.goto (.rejecting dispatch detail)))
    | .ready mail => some (w, some (d.goto (.authorizing dispatch mail)))
  | .rejecting dispatch detail, .unit =>
    some ({ w with
      store := w.store.exec (.rejectUndispatched [dispatch.job.messageId]
        { failureClass := .policy, failureDetail := some detail } d.nowMs) }, none)
  | .authorizing dispatch mail, .policy policy =>
    some (w, some (d.goto (.identifying dispatch mail policy)))
  | .identifying dispatch mail policy, .random attemptId =>
    some (w, some (d.goto (.claiming dispatch mail policy attemptId)))
  | .claiming _ mail policy attemptId, .unit =>
    match claimJob w.store (d.claimInput policy attemptId) with
    | .ok (.claimed attemptId job, s) =>
      some ({ w with store := s }, some (d.goto (.sending
        { jobId := d.jobId, attemptId, mail, policy, job, claimedIn := s })))
    | _ =>
      some ({ w with
        store := w.store.exec (.claimJob (d.claimInput policy attemptId)) }, none)
  | .sending call, .unit =>
    some ({ w with sent := w.sent ++ [call] }, some (d.goto (.awaiting call)))
  | .awaiting call, .outcome outcome => some (w, some (d.goto (.completing call outcome)))
  | .completing call outcome, .unit =>
    some ({ w with
      store := w.store.exec (.completeAttempt (d.completeInput call outcome)) }, none)
  | _, _ => none

/-- The piece of code at hand throws. -/
def Dispatch.throws (w : MailState) (d : Dispatch) : Bool :=
  match d.point with
  | .reading => (readDispatch w.store d.jobId).toOption.isNone
  | .claiming _ _ policy attemptId =>
    (claimJob w.store (d.claimInput policy attemptId)).toOption.isNone
  | .completing call outcome =>
    (completeAttempt w.store (d.completeInput call outcome)).toOption.isNone
  | _ => false

/-- Dispatches next to arbitrary commands, from the migrated empty store. -/
def dispatching (ports : DispatchPorts) :
    Lts.Program MailState Dispatch Command (String × Instant) DispatchReply where
  init w := w.store = Store.empty ∧ w.sent = []
  env w c := some { w with store := w.store.exec c }
  start | (jobId, nowMs) => { jobId, nowMs, point := .reading }
  step := Dispatch.step ports

/-! ### What a step can do -/

/-- The steps of a dispatch, each with what it found. -/
inductive Dispatch.Moves (ports : DispatchPorts) (w : MailState) (d : Dispatch) :
    MailState → Option Dispatch → Prop where
  /-- The job is missing, or not ready. -/
  | leaves : d.point = .reading → Moves ports w d w none
  | reads (dispatch : OutboundDispatch) : d.point = .reading →
      readDispatch w.store d.jobId = .ok (some dispatch) → dispatch.job.state = .ready →
      Moves ports w d w (some (d.goto (.preparing dispatch)))
  | refuses (dispatch : OutboundDispatch) (detail : String) : d.point = .preparing dispatch →
      prepareDispatchMail ports dispatch = .reject detail →
      Moves ports w d w (some (d.goto (.rejecting dispatch detail)))
  | prepares (dispatch : OutboundDispatch) (mail : OutboundMail) :
      d.point = .preparing dispatch → prepareDispatchMail ports dispatch = .ready mail →
      Moves ports w d w (some (d.goto (.authorizing dispatch mail)))
  | rejects (dispatch : OutboundDispatch) (detail : String) :
      d.point = .rejecting dispatch detail →
      Moves ports w d { w with
        store := w.store.exec (.rejectUndispatched [dispatch.job.messageId]
          { failureClass := .policy, failureDetail := some detail } d.nowMs) } none
  | authorizes (dispatch : OutboundDispatch) (mail : OutboundMail)
      (policy : Option PrincipalPolicy) : d.point = .authorizing dispatch mail →
      Moves ports w d w (some (d.goto (.identifying dispatch mail policy)))
  | identifies (dispatch : OutboundDispatch) (mail : OutboundMail)
      (policy : Option PrincipalPolicy) (attemptId : String) :
      d.point = .identifying dispatch mail policy →
      Moves ports w d w (some (d.goto (.claiming dispatch mail policy attemptId)))
  | claims (dispatch : OutboundDispatch) (mail : OutboundMail)
      (policy : Option PrincipalPolicy) (attemptId : String) (job : OutboundJob) (s : Store) :
      d.point = .claiming dispatch mail policy attemptId →
      claimJob w.store (d.claimInput policy attemptId) = .ok (.claimed attemptId job, s) →
      Moves ports w d { w with store := s } (some (d.goto (.sending
        { jobId := d.jobId, attemptId, mail, policy, job, claimedIn := s })))
  /-- The claim is refused, or the job can no longer be claimed. -/
  | yields (dispatch : OutboundDispatch) (mail : OutboundMail)
      (policy : Option PrincipalPolicy) (attemptId : String) :
      d.point = .claiming dispatch mail policy attemptId →
      Moves ports w d { w with
        store := w.store.exec (.claimJob (d.claimInput policy attemptId)) } none
  | sends (call : SendCall) : d.point = .sending call →
      Moves ports w d { w with sent := w.sent ++ [call] } (some (d.goto (.awaiting call)))
  | hears (call : SendCall) (outcome : CompleteAttemptOutcome) : d.point = .awaiting call →
      Moves ports w d w (some (d.goto (.completing call outcome)))
  | completes (call : SendCall) (outcome : CompleteAttemptOutcome) :
      d.point = .completing call outcome →
      Moves ports w d { w with
        store := w.store.exec (.completeAttempt (d.completeInput call outcome)) } none

variable {ports : DispatchPorts} {w w' : MailState} {d : Dispatch}

/-- A claim that succeeds claims with the attempt it was given. -/
theorem claimJob_claimed {s s' : Store} {input : ClaimJobInput} {attemptId : String}
    {job : OutboundJob} (h : claimJob s input = .ok (.claimed attemptId job, s')) :
    attemptId = input.attemptId ∧ s' = s.exec (.claimJob input) := by
  refine ⟨?_, ?_⟩
  · rcases claimJob_ok h with ⟨-, hnot⟩ |
      ⟨j, -, -, ⟨_, -, -, hnot⟩ | ⟨-, -, j', -, hr⟩⟩
    · exact absurd rfl (hnot _ _)
    · exact absurd rfl (hnot _ _)
    · exact (ClaimJobResult.claimed.inj hr).1
  · simp [Store.exec, committedSnd, committed, h, Except.map]

theorem Dispatch.moves_of_step {reply : DispatchReply} {next : Option Dispatch}
    (h : d.step ports w reply = some (w', next)) : d.Moves ports w w' next := by
  unfold Dispatch.step at h
  -- one case per point of the dispatch, then per branch of its round
  split at h
  · next hpoint =>
    split at h
    · next dispatch hread =>
      split at h
      · obtain ⟨rfl, rfl⟩ := Lts.some_pair_inj h
        exact .leaves hpoint
      · next hready =>
        obtain ⟨rfl, rfl⟩ := Lts.some_pair_inj h
        exact .reads dispatch hpoint hread (by simpa using hready)
    · obtain ⟨rfl, rfl⟩ := Lts.some_pair_inj h
      exact .leaves hpoint
  · next dispatch hpoint =>
    split at h
    · next detail hprepared =>
      obtain ⟨rfl, rfl⟩ := Lts.some_pair_inj h
      exact .refuses dispatch detail hpoint hprepared
    · next mail hprepared =>
      obtain ⟨rfl, rfl⟩ := Lts.some_pair_inj h
      exact .prepares dispatch mail hpoint hprepared
  · next dispatch detail hpoint =>
    obtain ⟨rfl, rfl⟩ := Lts.some_pair_inj h
    exact .rejects dispatch detail hpoint
  · next dispatch mail policy hpoint =>
    obtain ⟨rfl, rfl⟩ := Lts.some_pair_inj h
    exact .authorizes dispatch mail policy hpoint
  · next dispatch mail policy attemptId hpoint =>
    obtain ⟨rfl, rfl⟩ := Lts.some_pair_inj h
    exact .identifies dispatch mail policy attemptId hpoint
  · next dispatch mail policy attemptId hpoint =>
    split at h
    · next attemptId' job s hclaim =>
      obtain ⟨rfl, rfl⟩ := Lts.some_pair_inj h
      -- a claim is made under the attempt that was identified
      obtain rfl : attemptId' = attemptId := (claimJob_claimed hclaim).1
      exact .claims dispatch mail policy attemptId' job s hpoint hclaim
    · obtain ⟨rfl, rfl⟩ := Lts.some_pair_inj h
      exact .yields dispatch mail policy attemptId hpoint
  · next call hpoint =>
    obtain ⟨rfl, rfl⟩ := Lts.some_pair_inj h
    exact .sends call hpoint
  · next call outcome hpoint =>
    obtain ⟨rfl, rfl⟩ := Lts.some_pair_inj h
    exact .hears call outcome hpoint
  · next call outcome hpoint =>
    obtain ⟨rfl, rfl⟩ := Lts.some_pair_inj h
    exact .completes call outcome hpoint
  · exact absurd h (by simp)

/-- A dispatch changes the store by commands only. -/
theorem Dispatch.Moves.store_eq {next : Option Dispatch} (h : d.Moves ports w w' next) :
    w'.store = w.store ∨ ∃ c, c.mailDomain = none ∧ w'.store = w.store.exec c := by
  cases h with
  | leaves | reads | refuses | prepares | authorizes | identifies | sends | hears => exact .inl rfl
  | rejects dispatch detail =>
    exact .inr ⟨.rejectUndispatched [dispatch.job.messageId]
      { failureClass := .policy, failureDetail := some detail } d.nowMs, rfl, rfl⟩
  | yields dispatch mail policy attemptId =>
    exact .inr ⟨.claimJob (d.claimInput policy attemptId), rfl, rfl⟩
  | completes call outcome =>
    exact .inr ⟨.completeAttempt (d.completeInput call outcome), rfl, rfl⟩
  | claims dispatch mail policy attemptId job s _ hclaim =>
    exact .inr ⟨.claimJob (d.claimInput policy attemptId), rfl, (claimJob_claimed hclaim).2⟩

theorem Dispatch.Moves.store_step {next : Option Dispatch} (h : d.Moves ports w w' next) :
    w.store.Step w'.store := by
  rcases h.store_eq with heq | ⟨c, -, heq⟩
  · rw [heq]
    exact (SameMail.refl _).later OutboundJobRow.Move.refl
  · rw [heq]
    exact exec_step _ c

theorem Dispatch.Moves.reachable {next : Option Dispatch} (h : d.Moves ports w w' next)
    (hr : w.store.Reachable) : w'.store.Reachable := by
  rcases h.store_eq with heq | ⟨c, -, heq⟩
  · rw [heq]
    exact hr
  · rw [heq]
    exact hr.exec c

/-- Every step of the pool moves each row of the store at most one step. -/
theorem dispatching_step {p p' : Lts.Pool MailState Dispatch}
    {l : Lts.PoolLabel Command (String × Instant) DispatchReply}
    (h : (dispatching ports).machine.step p l = some p') :
    p.shared.store.Step p'.shared.store := by
  rcases Lts.Program.machine_step h with ⟨c, w, -, he, rfl⟩ | ⟨pid, a, -, -, rfl⟩ |
    ⟨pid, i, d, w, next, -, -, hs, rfl⟩ | ⟨pid, -, rfl⟩
  · obtain rfl := Option.some.inj he
    exact exec_step _ c
  · exact (SameMail.refl _).later OutboundJobRow.Move.refl
  · exact (Dispatch.moves_of_step hs).store_step
  · exact (SameMail.refl _).later OutboundJobRow.Move.refl

/-- The store of a pool only evolves. -/
theorem dispatching_evolves {p p' : Lts.Pool MailState Dispatch}
    {ls : List (Lts.PoolLabel Command (String × Instant) DispatchReply)}
    (h : (dispatching ports).machine.Run p ls p') :
    p.shared.store.Evolves p'.shared.store :=
  h.relates (R := fun p p' => p.shared.store.Evolves p'.shared.store)
    (fun _ => .refl _) (fun _ _ _ => .trans) fun _ _ _ hstep => (dispatching_step hstep).evolves

end process

/-! ### A sample run

  The sample message is approved and sent. -/

namespace Sample

def ports : DispatchPorts where
  materializeRemoteImages := .ok
  applicationOrigin := "https://mail.example.com"
  deriveApprovalToken := id
  mailDomain := ⟨"example.com", by decide +kernel⟩
  approvalAdminEmail := ⟨"admin@example.org", by decide +kernel⟩
  formatIso := toString

/-- A store without any dispatch. -/
def idle (store : Store) : Lts.Pool MailState Dispatch where
  shared := { store, sent := [] }
  procs _ := none

@[simp] theorem idle_store (s : Store) : (idle s).shared.store = s := rfl

/-- The approval of the sample message, and a dispatch of its job up to the send. -/
def sendLabels : List (Lts.PoolLabel Command (String × Instant) DispatchReply) :=
  [.env (.decideApproval { tokenHash := "token-1", decision := .approved, nowIso := 2000 }),
    .start 0 ("job-1", 3000), .step 0 .unit, .step 0 .unit,
    .step 0 (.policy (some supervisedPolicy)), .step 0 (.random "attempt-1"), .step 0 .unit,
    .step 0 .unit]

theorem idle_reachable_exec {s : Store} (h : (dispatching ports).machine.Reachable (idle s))
    (c : Command) : (dispatching ports).machine.Reachable (idle (s.exec c)) := h.step (.env c) rfl

theorem idle_mailbox_reachable : (dispatching ports).machine.Reachable (idle mailboxStore) := by
  have hempty : (dispatching ports).machine.Reachable (idle .empty) :=
    .init ⟨⟨rfl, rfl⟩, fun _ => rfl⟩
  exact idle_reachable_exec hempty _

theorem idle_waiting_step :
    (dispatching ports).machine.step (idle mailboxStore) (.env (.submitOutbound submit ids)) =
      some (idle waitingStore) := rfl

theorem idle_waiting_reachable : (dispatching ports).machine.Reachable (idle waitingStore) :=
  idle_reachable_exec idle_mailbox_reachable _

theorem idle_approved_reachable : (dispatching ports).machine.Reachable (idle approvedStore) :=
  idle_reachable_exec idle_waiting_reachable _

theorem sample_sends : ∃ p call, (dispatching ports).machine.Run (idle waitingStore)
    sendLabels p ∧
    p.shared.sent = [call] ∧ call.jobId = "job-1" ∧ call.job.purpose = .message := by
  have hfire : ((dispatching ports).machine.fire (idle waitingStore) sendLabels).any (fun p =>
      p.shared.sent.map (fun call => (call.jobId, call.job.purpose)) = [("job-1", .message)]) =
        true := by decide +kernel
  obtain ⟨p, hp, hsent⟩ := (Option.any_eq_true _ _).mp hfire
  obtain ⟨call, hcall, hpair⟩ := List.map_eq_singleton_iff.mp (of_decide_eq_true hsent)
  obtain ⟨hid, hpurpose⟩ := Prod.mk.inj hpair
  exact ⟨p, call, .of_fire hp, hcall, hid, hpurpose⟩

end Sample

end Umail
