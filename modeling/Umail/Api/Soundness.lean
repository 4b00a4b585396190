import Umail.Api.Safety

/-! # The API under interleaving

  Every request is sound under the interference of all the others, so the
  serving rule applies: in no state of the service has a request ended in a
  defect, and whoever submits again gets the job of the first submission.
-/

namespace Umail

open Lts Relational

section soundness
variable [Unicode] {s s' : Store}

/-! ### The service -/

section service
variable (ports : ApiPorts)

theorem ApiRequest.serves (r : ApiRequest) : Serves ports (r.interference ports) where
  idle _ := .inl rfl
  issued _ h := h
  evolves _ _ h := h
  kept s s' h := by
    rcases h with rfl | ⟨c, -, rfl⟩
    · exact .refl _
    · exact (exec_step s c).evolves
  fresh _ _ h := h

/-- The answer shows the status of a job, on its own or on a page. -/
def ApiAnswer.Shows (answer : ApiAnswer) (status : OutboundJobStatus) : Prop :=
  answer = .job status ∨ ∃ page, answer = .jobs page ∧ status ∈ page.items

@[simp] theorem ApiAnswer.shows_iff {answer : ApiAnswer} {status : OutboundJobStatus} :
    answer.Shows status ↔
      answer = .job status ∨ ∃ page, answer = .jobs page ∧ status ∈ page.items := Iff.rfl

/-- What the answer of a request that started at `start` establishes. -/
structure ApiRequest.Answered (r : ApiRequest) (start : Store) (answer : ApiAnswer) (s : Store) :
    Prop where
  /-- A submission answers with its job. -/
  submitted : ∀ payload decoded status, r.operation = .submitMessage payload decoded →
    answer = .job status → status.Answers r.principal payload s
  /-- A job is shown as it was while the request ran. -/
  shown : ∀ status, answer.Shows status →
    ∃ mid, start.Evolves mid ∧ mid.Evolves s ∧ ∃ j ∈ mid.jobs, status.Shows j

variable [DateTime] [Base64Url]

omit [DateTime] [Base64Url] in
/-- A request that shows no job only has to be safe. -/
theorem Operation.Safe.answered {α : Type} {r : ApiRequest} {op : Operation α}
    {answer : α → ApiAnswer} (h : op.Safe (r.interference ports))
    (hjob : ∀ a status, ¬ (answer a).Shows status) {start : Store} (s : Store) :
    (op >>= fun a => pure (answer a)).Sound (r.interference ports) (r.Answered start) s := by
  refine h.before (fun a _ => sound_pure fun _ _ _ => ?_) s
  exact ⟨fun _ _ status _ heq => absurd (.inl heq) (hjob a status),
    fun status hshows => absurd hshows (hjob a status)⟩

omit [DateTime] [Base64Url] in
/-- A request that submits nothing shows jobs as they were in between. -/
theorem Operation.Sound.answered {α : Type} {r : ApiRequest} {op : Operation α}
    {answer : α → ApiAnswer} {s : Store}
    (h : op.Sound (r.interference ports) (fun a s' => ∃ mid, s.Evolves mid ∧ mid.Evolves s' ∧
      ∀ status, (answer a).Shows status → ∃ j ∈ mid.jobs, status.Shows j) s)
    (hsubmit : ∀ payload decoded, r.operation ≠ .submitMessage payload decoded) :
    (op >>= fun a => pure (answer a)).Sound (r.interference ports) (r.Answered s) s := by
  refine sound_bind (h.mono fun a s₁ hshown => sound_pure fun s' hlater _ => ?_)
  obtain ⟨mid, hstart, hmid, hshown⟩ := hshown
  exact ⟨fun payload decoded _ hrequest => absurd hrequest (hsubmit payload decoded),
    fun status hstatus => ⟨mid, hstart, hmid.trans hlater, hshown status hstatus⟩⟩

/-- **Every request is sound.** -/
theorem ApiRequest.serve_sound (r : ApiRequest) (s : Store) :
    (r.serve ports).Sound (r.interference ports) (r.Answered s) s := by
  have hE := r.serves ports
  obtain ⟨principal, operation⟩ := r
  cases operation with
  | createAddress input =>
    exact (createAddressOperation_safe hE input
      fun s id domain now sending => .inr ⟨_, ⟨id, domain, now, sending, rfl⟩,
        rfl⟩).answered
      ports (by simp) s
  | listAddresses => exact (safe_look hE.idle _).answered ports (by simp) s
  | getAddress id => exact (getAddressOperation_safe hE id).answered ports (by simp) s
  | retireAddress id =>
    exact (safe_mailboxCommand hE.idle id (fun s now => .inr ⟨_, ⟨now, rfl⟩, rfl⟩)
      fun s now => retireAddress_isOk s id now).answered ports (by simp) s
  | retryAddressRouting id =>
    exact (safe_mailboxCommand hE.idle id (fun s now => .inr ⟨_, ⟨now, rfl⟩, rfl⟩)
      fun s now => retryAddressRouting_isOk s id now).answered ports (by simp) s
  | patchAddress id patch =>
    exact (safe_mailboxCommand hE.idle id (fun s now => .inr ⟨_, ⟨now, rfl⟩, rfl⟩)
      fun s now => patchAddress_isOk s id patch now).answered ports (by simp) s
  | setAddressForwarding id =>
    exact (setAddressForwardingOperation_safe hE id
      fun s id email now => .inr ⟨_, ⟨id, email, now, rfl⟩, rfl⟩).answered ports (by simp) s
  | removeAddressForwarding id =>
    exact (safe_mailboxCommand hE.idle id (fun s now => .inr ⟨_, ⟨now, rfl⟩, rfl⟩)
      fun s now => setAddressForwarding_isOk s id none now).answered ports (by simp) s
  | listSendingIdentities => exact (safe_look hE.idle _).answered ports (by simp) s
  | listThreads limit cursor =>
    exact (listThreads_safe hE principal limit cursor).answered ports (by simp) s
  | getThread threadId limit cursor =>
    exact (getThread_safe hE principal threadId limit cursor).answered ports (by simp) s
  | setThreadReadState threadId isRead =>
    exact (setThreadReadState_safe hE principal threadId isRead
      fun hread s now => .inr ⟨_, ⟨hread, now, rfl⟩, rfl⟩).answered ports (by simp) s
  | softDeleteVisibleThread threadId =>
    exact (softDeleteVisibleThread_safe hE principal threadId
      fun s now => .inr ⟨_, ⟨now, rfl⟩, rfl⟩).answered ports (by simp) s
  | listMessages query => exact (listMessages_safe hE principal query).answered ports (by simp) s
  | getMessage id => exact (getMessage_safe hE principal id).answered ports (by simp) s
  | readMessageSource messageId =>
    exact (readMessageSource_safe hE principal messageId).answered ports (by simp) s
  | getMessageHeaders messageId =>
    exact ((readMessageSource_safe hE principal messageId).bind fun _ => safe_pure _).answered
      ports (by simp) s
  | readAttachment messageId attachmentId =>
    exact (readAttachment_safe hE principal messageId attachmentId).answered ports (by simp) s
  | previewReplyRecipients messageId mode =>
    exact (previewReplyRecipients_safe hE principal messageId mode).answered ports (by simp) s
  | submitMessage payload decoded =>
    have hsubmit := submitMessage_sound hE principal decoded
      (fun hsend s i prepared now _ hi => .inr ⟨_, ⟨hsend, prepared, now, i.randomId, i.newIds,
        (i.fresh_ids hi prepared principal payload now).uuid, rfl⟩, rfl⟩) s
    refine sound_bind (hsubmit.mono fun status s₁ hanswered => ?_)
    refine sound_pure fun s' hlater _ => ?_
    have hfinal := hanswered.later hlater
    refine ⟨fun payload' decoded' status' hsubmit hjob => ?_, fun status' hjob => ?_⟩
    · obtain rfl := ApiOperation.submitMessage.inj hsubmit
      obtain rfl := ApiAnswer.job.inj hjob
      exact hfinal.answers
    · obtain rfl : status = status' := by simpa using hjob
      exact hfinal.shown
  | listJobs limit cursor =>
    have hlisted := listJobs_sound hE principal limit cursor s
    refine Operation.Sound.answered ports (hlisted.mono fun page s' hshown => ?_) (by simp)
    obtain ⟨mid, hstart, hmid, hshown⟩ := hshown
    exact ⟨mid, hstart, hmid, fun status hstatus => hshown status (by simpa using hstatus)⟩
  | getJob jobId =>
    have hpolled := getJob_sound hE principal jobId s
    refine Operation.Sound.answered ports (hpolled.mono fun status s' hshown => ?_) (by simp)
    obtain ⟨mid, hstart, hmid, hshown⟩ := hshown
    refine ⟨mid, hstart, hmid, fun status' hstatus => ?_⟩
    obtain rfl : status = status' := by simpa using hstatus
    exact hshown

/-! ### Runs of the service -/

omit [DateTime] [Base64Url] in
theorem ApiRequest.Issues.issued {r : ApiRequest} {c : Command} (h : r.Issues ports c) :
    c.Issued := by
  obtain ⟨principal, operation⟩ := r
  cases operation with
  | submitMessage payload decoded =>
    obtain ⟨-, prepared, now, approvalId, ids, huuid, rfl⟩ := h
    exact ⟨decoded, huuid⟩
  | createAddress input =>
    obtain ⟨_, _, _, _, rfl⟩ := h
    trivial
  | setAddressForwarding id =>
    obtain ⟨_, _, _, rfl⟩ := h
    trivial
  | retireAddress id =>
    obtain ⟨_, rfl⟩ := h
    trivial
  | retryAddressRouting id =>
    obtain ⟨_, rfl⟩ := h
    trivial
  | patchAddress id patch =>
    obtain ⟨_, rfl⟩ := h
    trivial
  | removeAddressForwarding id =>
    obtain ⟨_, rfl⟩ := h
    trivial
  | setThreadReadState threadId isRead =>
    obtain ⟨-, _, rfl⟩ := h
    trivial
  | softDeleteVisibleThread threadId =>
    obtain ⟨_, rfl⟩ := h
    trivial
  | _ => exact h.elim

theorem apiService_served : Served (· = Store.empty)
    (fun s (c : IssuedCommand) => some (s.exec c)) (ApiInput.fresh ports)
    (fun r => (r.serve ports).run) Store.Issued (ApiRequest.interference ports)
    (fun r => Settled fun answer s => ∃ start, r.Answered start answer s) where
  init s h := h ▸ ⟨[], .nil _⟩
  env s c s' hI h := by
    obtain rfl := Option.some.inj h
    exact ⟨hI.exec c.2, fun _ => (exec_step s c).evolves⟩
  call r s s' hI h := by
    rcases h with rfl | ⟨c, hc, rfl⟩
    · exact ⟨hI, fun _ => Store.Evolves.refl _⟩
    · exact ⟨hI.exec (hc.issued ports), fun _ => (exec_step s c).evolves⟩
  inv _ _ h := h
  accepts _ _ _ _ h := h
  body r s _ := (r.serve_sound ports s).mono fun _ _ hanswered => ⟨s, hanswered⟩

variable {ports} {w w' : ApiPool}

/-- **No request ends in a defect.** However the requests interleave with each
    other and with the rest of the system, and wherever some of them are cut
    off: what an operation returns is an answer or an error that its caller
    is told. -/
theorem requests_never_defect (hw : (apiService ports).machine.Reachable w) {pid : Nat}
    {p : Serving ApiRequest Store ApiInput (Except Failure ApiAnswer)}
    (hp : w.procs pid = some p) {result : Except Failure ApiAnswer}
    (hreturned : p.returned result) :
    (∃ answer, result = .ok answer) ∨ ∃ error, result = .error (.api error) := by
  have hsettled := (apiService_served ports).reachable hw |>.2 pid p result hp hreturned
  cases result with
  | ok answer => exact .inl ⟨answer, rfl⟩
  | error failure =>
    cases failure with
    | api error => exact .inr ⟨error, rfl⟩
    | defect error => exact hsettled.elim

/-- A request that submits the payload has returned the status. -/
def ApiPool.Submitted (w : ApiPool) (principal : Principal) (payload : SubmitMessagePayload)
    (status : OutboundJobStatus) : Prop :=
  ∃ pid p decoded, w.procs pid = some p ∧
    p.request = { principal, operation := .submitMessage payload decoded } ∧
    p.returned (.ok (.job status))

theorem ApiPool.Submitted.answers {principal : Principal} {payload : SubmitMessagePayload}
    {status : OutboundJobStatus} (hw : (apiService ports).machine.Reachable w)
    (h : w.Submitted principal payload status) : status.Answers principal payload w.shared := by
  obtain ⟨pid, p, decoded, hp, hrequest, hreturned⟩ := h
  have hanswered := (apiService_served ports).reachable hw |>.2 pid p _ hp hreturned
  rw [hrequest] at hanswered
  obtain ⟨start, hanswered⟩ := hanswered
  exact hanswered.submitted payload decoded status rfl rfl

/-- **A submission has one job.** Whoever submits under a request id again, in
    any later state of the service, gets the job that is stored under it,
    whether the first answer has arrived or its request was cut off; and what
    is submitted then is the content that was submitted first. -/
theorem submission_has_one_job {ls : List (PoolLabel IssuedCommand ApiRequest ApiInput)}
    (hw : (apiService ports).machine.Reachable w)
    (hrun : (apiService ports).machine.Run w ls w') {principal principal' : Principal}
    {payload payload' : SubmitMessagePayload} {status' : OutboundJobStatus}
    (hauthority : principal.authority = principal'.authority)
    (hclient : principal.identity.clientId = principal'.identity.clientId)
    (hrequest : payload.requestId = payload'.requestId)
    (hanswered' : w'.Submitted principal' payload' status') :
    status'.Answers principal' payload' w'.shared ∧ (∀ j ∈ w.shared.jobs,
      j.requestKey = (principal.authority, principal.identity.clientId, payload.requestId) →
        status'.jobId = j.id ∧ status'.messageId = j.message_id ∧
          j.intent_fingerprint = submissionFingerprint payload') ∧
    ∀ status, w.Submitted principal payload status →
      status'.jobId = status.jobId ∧ status'.messageId = status.messageId ∧
        payload.SameContent payload' := by
  have hlater : w.shared.Evolves w'.shared :=
    (apiService_served ports).run_rely hw hrun { principal, operation := .listAddresses }
  have hanswers : status'.Answers principal' payload' w'.shared :=
    hanswered'.answers (hrun.reachable hw)
  obtain ⟨k, hk, hid, hmessage, hkey, hfingerprint⟩ := id hanswers
  -- the job of the request key is the same at both ends of the run
  have hstored : ∀ j ∈ w.shared.jobs,
      j.requestKey = (principal.authority, principal.identity.clientId, payload.requestId) →
        status'.jobId = j.id ∧ status'.messageId = j.message_id ∧
          j.intent_fingerprint = submissionFingerprint payload' := by
    intro j hj hjkey
    obtain ⟨j', hj', hlater⟩ := hlater.jobs.exists_mem hj
    have hsame := hlater.sameRequest
    rw [OutboundJobRow.SameRequest] at hsame
    have hkey' : j'.requestKey = k.requestKey := by
      rw [hkey, ← hauthority, ← hclient, ← hrequest, ← hjkey, hsame]
      rfl
    have hjk : j' = k := Table.eq_of_clash _ hj' hk (.inr hkey')
    rw [hjk] at hsame
    refine ⟨?_, ?_, ?_⟩
    · rw [← hid, hsame]
    · rw [← hmessage, hsame]
    · rw [← hfingerprint, hsame]
  refine ⟨hanswers, hstored, fun status hanswered => ?_⟩
  obtain ⟨j, hj, hjid, hjmessage, hjkey, hjfingerprint⟩ := hanswered.answers hw
  obtain ⟨hid', hmessage', hfingerprint'⟩ := hstored j hj hjkey
  exact ⟨hid'.trans hjid, hmessage'.trans hjmessage,
    submissionFingerprint_eq_iff.mp (hjfingerprint.symm.trans hfingerprint')⟩

/-! ### Polling -/

/-- A later status of the same job: its state has moved along the edges of its
    life cycle, and a settled job only may have its thread merged. -/
structure OutboundJobStatus.Later (status status' : OutboundJobStatus) : Prop where
  request : status' = { status with
    threadId := status'.threadId
    state := status'.state
    attemptId := status'.attemptId
    providerMessageId := status'.providerMessageId
    rfcMessageId := status'.rfcMessageId
    failureClass := status'.failureClass
    failureDetail := status'.failureDetail
    updatedAt := status'.updatedAt }
  moved : Relation.ReflTransGen OutboundJobState.Edge status.state status'.state
  settled : status.state.settled = true → status' = { status with threadId := status'.threadId }

omit [Unicode] [DateTime] [Base64Url] in
/-- The state of a job moves along the edges. -/
theorem OutboundJobRow.Evolves.moved {j j' : OutboundJobRow} (h : j.Evolves j') :
    Relation.ReflTransGen OutboundJobState.Edge j.state j'.state := by
  induction h with
  | refl => exact .refl
  | tail _ hmove ih =>
    rcases hmove.edge with heq | hedge
    · rw [heq]
      exact ih
    · exact ih.tail hedge

omit [Unicode] [DateTime] [Base64Url] in
theorem OutboundJobStatus.Shows.later {status status' : OutboundJobStatus} {j j' : OutboundJobRow}
    (h : status.Shows j) (h' : status'.Shows j') (hlater : j.Evolves j') :
    status.Later status' := by
  obtain ⟨thread_id, rfl⟩ := h
  obtain ⟨thread_id', rfl⟩ := h'
  have hsame := hlater.sameRequest
  rw [OutboundJobRow.SameRequest] at hsame
  refine ⟨?_, hlater.moved, fun hsettled => ?_⟩
  · rw [hsame]
    rfl
  · rw [hlater.eq_of_settled hsettled]
    rfl

/-- A request of the service has shown the status of a job. -/
def ApiPool.Shown (w : ApiPool) (pid : Nat) (status : OutboundJobStatus) : Prop :=
  ∃ p answer, w.procs pid = some p ∧ p.returned (.ok answer) ∧ answer.Shows status

/-- What is shown since `s₀` is at least as late as the jobs of `s₀`. -/
def ShowsSince (s₀ : Store) (_ : ApiRequest) : Except Failure ApiAnswer → Store → Prop :=
  Settled fun answer _ => ∀ status, answer.Shows status →
    ∃ mid, s₀.Evolves mid ∧ ∃ j ∈ mid.jobs, status.Shows j

theorem ApiRequest.serve_since {s₀ : Store} (r : ApiRequest) (s : Store) (hs : s₀.Evolves s) :
    (r.serve ports).run.Ensures (r.interference ports) (ShowsSince s₀ r) s := by
  refine (r.serve_sound ports s).mono fun answer s' hanswered status hshown => ?_
  obtain ⟨mid, hmid, -, hshows⟩ := hanswered.shown status hshown
  exact ⟨mid, hs.trans hmid, hshows⟩

/-- **Polling moves forward.** When a request has shown the status of a job, on
    its own or on a page, every request that starts afterwards, of whoever,
    shows a later one: the request of the job is the same, its state has only
    moved along its life cycle, and once it is settled nothing of it changes. -/
theorem polling_moves_forward {ls : List (PoolLabel IssuedCommand ApiRequest ApiInput)}
    (hw : (apiService ports).machine.Reachable w)
    (hrun : (apiService ports).machine.Run w ls w') {pid pid' : Nat}
    {status status' : OutboundJobStatus} (hshown : w.Shown pid status)
    (hfree : w.procs pid' = none) (hshown' : w'.Shown pid' status')
    (hjob : status.jobId = status'.jobId) : status.Later status' := by
  have hserved := apiService_served ports
  obtain ⟨p, answer, hp, hreturned, hshown⟩ := hshown
  obtain ⟨p', answer', hp', hreturned', hshown'⟩ := hshown'
  -- what was shown then is a version of the job from before `w`
  obtain ⟨start, hanswered⟩ := (hserved.reachable hw).2 pid p _ hp hreturned
  obtain ⟨mid, -, hmid, j, hj, hshows⟩ := hanswered.shown status hshown
  -- what is shown now is one from after it
  have hsince : ShowsSince w.shared p'.request (.ok answer') w'.shared :=
    hserved.since hw hfree hrun (fun r s hs _ => r.serve_since s hs) hp' hreturned'
  obtain ⟨mid', hmid', j', hj', hshows'⟩ := hsince status' hshown'
  obtain ⟨j₁, hj₁, hlater⟩ := (hmid.trans hmid').jobs.exists_mem hj
  have hid : j₁.id = j'.id := by
    have hsame := hlater.sameRequest
    rw [OutboundJobRow.SameRequest] at hsame
    obtain ⟨thread_id, rfl⟩ := hshows
    obtain ⟨thread_id', rfl⟩ := hshows'
    rw [hsame]
    exact hjob
  have heq : j₁ = j' := Table.eq_of_clash _ hj₁ hj' (.inl hid)
  exact hshows.later hshows' (heq ▸ hlater)

end service

end soundness

/-! ### A sample service -/

namespace Sample

def apiPorts : ApiPorts where
  mailDomains := [{ name := "example.com", receive := true, send := true, zoneId := "zone" }]
  deriveApprovalToken approvalId := approvalId
  hashApprovalToken token := token

def apiInput (newIds : NewSubmissionIds) : ApiInput where
  now := 1000
  randomId := newIds.jobId
  newId := newIds.jobId
  newIds
  object := none
  sanitized := .error none
  destination := .error archiveUnavailable

def apiClient : Principal where
  authority := .mcp
  identity := { userId := "operator", clientId := "client-1", clientLabel := "Client" }
  policy := supervisedPolicy

def apiPayload : SubmitMessagePayload where
  requestId := "11111111-1111-4111-8111-111111111111"
  fromAddressId := "mailbox-1"
  subject := "Hello"
  text := some "Hello Bob"
  html := none
  intent := .compose { address := bob.address, displayName := none } [] none

theorem apiPayload_decoded : IsSubmissionRequestId apiPayload.requestId :=
  ⟨"11111111-1111-4111-8111-111111111111", by decide +kernel⟩

def apiSubmit : ApiRequest where
  principal := apiClient
  operation := .submitMessage apiPayload apiPayload_decoded

/-- The client lists its jobs. -/
def apiList : ApiRequest where
  principal := apiClient
  operation := .listJobs none none

/-- The inputs of the three calls of a submit. -/
def apiInputs (newIds : NewSubmissionIds) : List ApiInput := List.replicate 3 (apiInput newIds)

def laterIds : NewSubmissionIds where
  messageId := "33333333-3333-4333-8333-333333333333"
  jobId := "job-2"
  notificationJobId := "notification-2"

/-- A request on its own, in a store. -/
def ranAlone (r : ApiRequest) (s : Store) (inputs : List ApiInput) :
    Option (Except Failure ApiAnswer × Store) :=
  (r.serve apiPorts).run.alone (ApiInput.fresh apiPorts) s inputs

/-- The job that the answer of a submit shows. -/
def jobOf : ApiAnswer → Option OutboundJobStatus
  | .job status => some status
  | _ => none

theorem jobOf_some {answer : ApiAnswer} {status : OutboundJobStatus}
    (h : jobOf answer = some status) : answer = .job status := by
  unfold jobOf at h
  split at h
  · rw [Option.some.inj h]
  · exact absurd h (by simp)

/-- The last job that the answer of a listing shows. -/
def lastOf : ApiAnswer → Option OutboundJobStatus
  | .jobs page => page.items.getLast?
  | _ => none

theorem lastOf_some {answer : ApiAnswer} {status : OutboundJobStatus}
    (h : lastOf answer = some status) : answer.Shows status := by
  unfold lastOf at h
  split at h
  · exact .inr ⟨_, rfl, List.mem_of_getLast? h⟩
  · exact absurd h (by simp)

/-- The job that an answer shows, and the store after it. -/
def shownBy (pick : ApiAnswer → Option OutboundJobStatus) :
    Option (Except Failure ApiAnswer × Store) → Option (OutboundJobStatus × Store)
  | some (.ok answer, s) => (pick answer).map fun status => (status, s)
  | _ => none

theorem shownBy_some {pick : ApiAnswer → Option OutboundJobStatus}
    {ran : Option (Except Failure ApiAnswer × Store)} {r : OutboundJobStatus × Store}
    (h : shownBy pick ran = some r) :
    ∃ answer, ran = some (.ok answer, r.2) ∧ pick answer = some r.1 := by
  unfold shownBy at h
  split at h
  · obtain ⟨status, hstatus, rfl⟩ := Option.map_eq_some_iff.mp h
    exact ⟨_, rfl, hstatus⟩
  · exact absurd h (by simp)

/-- The request starts under a free id, and runs until it is answered. -/
theorem answered_alone {w : ApiPool} {pid : Nat} (hfree : w.procs pid = none) {r : ApiRequest}
    {inputs : List ApiInput} {answer : ApiAnswer} {s : Store}
    (h : ranAlone r w.shared inputs = some (.ok answer, s)) :
    ∃ (ls : _) (w' : ApiPool), (apiService apiPorts).machine.Run w ls w' ∧ w'.shared = s ∧
      w'.procs pid = some { request := r, rest := .ret (.ok answer) } ∧
      ∀ q, q ≠ pid → w'.procs q = w.procs q := by
  let started : ApiPool := { w with procs := w.set pid (some
    { request := r, rest := (r.serve apiPorts).run }) }
  have hstart : (apiService apiPorts).machine.step w (.start pid r) = some started := by
    simp only [Program.machine, hfree]
    rfl
  have hstarted : started.procs pid = some { request := r, rest := (r.serve apiPorts).run } := by
    simp [started, Pool.set]
  obtain ⟨w', hrun, hshared, hp, hothers⟩ := serve_alone hstarted h
  refine ⟨_, w', .cons _ _ hstart hrun, hshared, hp, fun q hq => ?_⟩
  rw [hothers q hq]
  simp [started, Pool.set, hq]

/-- The client submits and is answered, and a later answer shows a job. -/
structure Again (second : ApiRequest) (pick : ApiAnswer → Option OutboundJobStatus)
    (w w' : ApiPool) (status status' : OutboundJobStatus) : Prop where
  reachable : (apiService apiPorts).machine.Reachable w
  run : ∃ ls, (apiService apiPorts).machine.Run w ls w'
  first : w.procs 0 = some { request := apiSubmit, rest := .ret (.ok (.job status)) }
  free : w.procs 1 = none
  second : ∃ answer, pick answer = some status' ∧
    w'.procs 1 = some { request := second, rest := .ret (.ok answer) }
  job : status.jobId = status'.jobId

/-- The two answers name the same job. -/
def namesAgain (second : ApiRequest) (pick : ApiAnswer → Option OutboundJobStatus)
    (inputs : List ApiInput) : Bool :=
  (shownBy jobOf (ranAlone apiSubmit mailboxStore (apiInputs issuedIds))).any fun first =>
    (shownBy pick (ranAlone second first.2 inputs)).any fun later =>
      first.1.jobId = later.1.jobId

theorem apiService_again {second : ApiRequest} {pick : ApiAnswer → Option OutboundJobStatus}
    {inputs : List ApiInput} (h : namesAgain second pick inputs = true) :
    ∃ w w' status status', Again second pick w w' status status' := by
  obtain ⟨first, hfirst, hlater⟩ := (Option.any_eq_true _ _).mp h
  obtain ⟨later, hlater, hjob⟩ := (Option.any_eq_true _ _).mp hlater
  obtain ⟨submitted, hfirst, hsubmitted⟩ := shownBy_some hfirst
  obtain rfl := jobOf_some hsubmitted
  obtain ⟨answer, hlater, hshown⟩ := shownBy_some hlater
  let empty : ApiPool := { shared := Store.empty, procs := fun _ => none }
  let mailbox : ApiPool := { shared := mailboxStore, procs := fun _ => none }
  have hempty : (apiService apiPorts).machine.Reachable empty := .init ⟨rfl, fun _ => rfl⟩
  have hmailbox : (apiService apiPorts).machine.Reachable mailbox := hempty.step
    (.env ⟨.createAddress "mailbox-1" "agent" "example.com" none 10 true, trivial⟩) rfl
  have hnone : mailbox.procs 0 = none := rfl
  obtain ⟨ls, w, hrun, hshared, hp, hothers⟩ := answered_alone hnone hfirst
  have hfree : w.procs 1 = none := hothers 1 (by decide)
  obtain ⟨ls', w', hrun', -, hp', -⟩ := answered_alone hfree (hshared ▸ hlater)
  exact ⟨w, w', first.1, later.1, hrun.reachable hmailbox, ⟨ls', hrun'⟩, hp, hfree,
    ⟨answer, hshown, hp'⟩, of_decide_eq_true hjob⟩

/-- The client submits, and submits again. -/
theorem apiService_twice : ∃ w w' status status', Again apiSubmit jobOf w w' status status' := by
  have hagain : namesAgain apiSubmit jobOf (apiInputs laterIds) = true := by decide +kernel
  exact apiService_again hagain

/-- The client submits, and lists its jobs. -/
theorem apiService_listed : ∃ w w' status status', Again apiList lastOf w w' status status' := by
  have hlisted : namesAgain apiList lastOf [apiInput laterIds] = true := by decide +kernel
  exact apiService_again hlisted

end Sample

section sample
open Sample

theorem submission_has_one_job_twice :
    ∃ status status' : OutboundJobStatus, status'.messageId = status.messageId := by
  obtain ⟨w, w', status, status', h⟩ := apiService_twice
  obtain ⟨ls, hrun⟩ := h.run
  obtain ⟨answer, hanswer, hp'⟩ := h.second
  obtain rfl := jobOf_some hanswer
  have hsubmitted : w.Submitted apiClient apiPayload status :=
    ⟨0, _, apiPayload_decoded, h.first, rfl, rfl⟩
  have hsubmitted' : w'.Submitted apiClient apiPayload status' :=
    ⟨1, _, apiPayload_decoded, hp', rfl, rfl⟩
  exact ⟨status, status',
    ((submission_has_one_job h.reachable hrun rfl rfl rfl hsubmitted').2.2 status
      hsubmitted).2.1⟩

/-- The listing shows a later status of the job that was submitted. -/
theorem polling_moves_forward_listed :
    ∃ status status' : OutboundJobStatus, status.Later status' := by
  obtain ⟨w, w', status, status', h⟩ := apiService_listed
  obtain ⟨ls, hrun⟩ := h.run
  obtain ⟨answer, hanswer, hp'⟩ := h.second
  exact ⟨status, status', polling_moves_forward h.reachable hrun
    ⟨_, _, h.first, rfl, .inl rfl⟩ h.free ⟨_, _, hp', rfl, lastOf_some hanswer⟩ h.job⟩

theorem requests_never_defect_twice : ∃ result : Except Failure ApiAnswer,
    (∃ answer, result = .ok answer) ∨ ∃ error, result = .error (.api error) := by
  obtain ⟨w, w', status, status', h⟩ := apiService_twice
  exact ⟨_, requests_never_defect h.reachable h.first rfl⟩

end sample

end Umail
