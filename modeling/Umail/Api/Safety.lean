import Umail.Account.Integrity
import Umail.Account.ThreadList
import Umail.Api.Service

/-! # No request ends in a defect

  The errors of the store that an operation can run into are the ones that it
  tells its caller. A command on a mailbox finds the row that it wrote, a
  submission with fresh ids violates no constraint, and a read finds the rows
  behind its messages. What a request has found stays there while it runs:
  the others only let the store evolve.
-/

namespace Umail

open Lts Relational

section safety
variable [Unicode] {s s' : Store}

theorem Store.Issued.exec (h : s.Issued) {c : Command} (hc : c.Issued) : (s.exec c).Issued := by
  obtain ⟨cs, hrun⟩ := h
  exact ⟨cs ++ [c], hrun.append (.cons _ _ rfl hc (.nil _))⟩

/-! ### Mailboxes -/

/-- There is a mailbox of that id, with its route. -/
def HasMailbox (s : Store) (id : String) : Prop :=
  (∃ a ∈ s.addresses, a.id = id) ∧ Routed s id

theorem getAddress_isSome {id : String} : (getAddress s id).isSome = true ↔ HasMailbox s id := by
  have hrow : ∀ a : AddressRow,
      ((if a.id = id then (s.routes.find? (·.mailbox_id = a.id)).map (toAddress a)
        else none).isSome = true) ↔ a.id = id ∧ Routed s id := by
    intro a
    by_cases hid : a.id = id
    · rw [if_pos hid, Option.isSome_map, hid]
      simp only [true_and, Table.find?, List.find?_isSome, decide_eq_true_eq]
      rfl
    · simp [hid]
  simp only [getAddress, mailboxWhere, List.findSome?_isSome_iff, decide_eq_true_eq, hrow]
  exact ⟨fun ⟨a, ha, hid, hroute⟩ => ⟨⟨a, ha, hid⟩, hroute⟩,
    fun ⟨⟨a, ha, hid⟩, hroute⟩ => ⟨a, ha, hid, hroute⟩⟩

theorem requireAddress_isOk {id : String} (h : HasMailbox s id) :
    ∃ address, requireAddress s id = .ok address := by
  obtain ⟨address, haddress⟩ := Option.isSome_iff_exists.mp (getAddress_isSome.mpr h)
  exact ⟨address, by rw [requireAddress, haddress]⟩

theorem HasMailbox.updateAddress {id : String} (h : HasMailbox s id) (id' : String)
    (f : AddressRow → AddressRow) (hf : ∀ a, Keyed.key (f a) = Keyed.key a) :
    HasMailbox (updateAddress s id' f hf) id := by
  obtain ⟨⟨a, ha, hid⟩, hroute⟩ := h
  have hmem : _ ∈ s.addresses.update (·.id = id') f hf := Table.mem_update.mpr ⟨a, ha, rfl⟩
  refine ⟨⟨_, hmem, ?_⟩, hroute⟩
  by_cases hselected : a.id = id'
  · have hkept : (f a).id = a.id := congrArg Prod.fst (hf a)
    rw [if_pos (decide_eq_true hselected), hkept, hid]
  · rw [if_neg (by simpa using hselected), hid]

theorem HasMailbox.updateRoute {id : String} (h : HasMailbox s id) (id' : String)
    (f : MailboxRouteRow → MailboxRouteRow) (hf : ∀ r, Keyed.key (f r) = Keyed.key r) :
    HasMailbox (updateRoute s id' f hf) id := by
  obtain ⟨haddress, r, hr, hid⟩ := h
  have hmem : _ ∈ s.routes.update (·.mailbox_id = id') f hf :=
    Table.mem_update.mpr ⟨r, hr, rfl⟩
  refine ⟨haddress, _, hmem, ?_⟩
  by_cases hselected : r.mailbox_id = id'
  · have hkept : (f r).mailbox_id = r.mailbox_id := hf r
    rw [if_pos (decide_eq_true hselected), hkept, hid]
  · rw [if_neg (by simpa using hselected), hid]

theorem HasMailbox.of_getAddress {id : String} {address : AccountAddress}
    (h : getAddress s id = some address) : HasMailbox s id :=
  getAddress_isSome.mp (by rw [h]; rfl)

/-- What is written is read back. -/
theorem readBack_isOk {id : String} (h : HasMailbox s id) :
    ∃ r, (do
      let address ← requireAddress s id
      return (some address, s) : Except StoreError (Option AccountAddress × Store)) = .ok r := by
  obtain ⟨address, haddress⟩ := requireAddress_isOk h
  exact ⟨(some address, s), by rw [haddress]; rfl⟩

theorem patchAddress_isOk (s : Store) (id : String) (patch : PatchAddressInput) (now : Instant) :
    ∃ r, patchAddress s id patch now = .ok r := by
  unfold patchAddress
  split
  · exact ⟨_, rfl⟩
  · next current hcurrent =>
    split
    · exact ⟨_, rfl⟩
    split
    · exact ⟨_, rfl⟩
    · exact readBack_isOk ((HasMailbox.of_getAddress hcurrent).updateAddress _ _ _)

theorem setAddressForwarding_isOk (s : Store) (id : String) (forwardTo : Option String)
    (now : Instant) : ∃ r, setAddressForwarding s id forwardTo now = .ok r := by
  unfold setAddressForwarding
  split
  · exact ⟨_, rfl⟩
  · next current hcurrent =>
    exact readBack_isOk ((HasMailbox.of_getAddress hcurrent).updateAddress _ _ _)

theorem retireAddress_isOk (s : Store) (id : String) (now : Instant) :
    ∃ r, retireAddress s id now = .ok r := by
  unfold retireAddress
  split
  · exact ⟨_, rfl⟩
  · next current hcurrent =>
    split
    · exact ⟨_, rfl⟩
    · exact readBack_isOk
        (((HasMailbox.of_getAddress hcurrent).updateAddress _ _ _).updateRoute _ _ _)

theorem retryAddressRouting_isOk (s : Store) (id : String) (now : Instant) :
    ∃ r, retryAddressRouting s id now = .ok r := by
  unfold retryAddressRouting
  split
  · exact ⟨_, rfl⟩
  · next current hcurrent =>
    exact readBack_isOk ((HasMailbox.of_getAddress hcurrent).updateRoute _ _ _)

/-- A new mailbox collides with nothing but a mailbox of the same address. -/
theorem createAddress_error {id localPart mailDomain : String} {displayName : Option String}
    {now : Instant} {sendingAllowed : Bool} {e : StoreError}
    (hroutes : ∀ r ∈ s.routes, r.mailbox_id ≠ id)
    (h : createAddress s id localPart mailDomain displayName now sendingAllowed = .error e) :
    ∃ address, e = .accountConflict address := by
  unfold createAddress at h
  split at h
  · next parsed hparsed =>
    split at h
    · exact ⟨_, (Except.error.inj h).symm⟩
    · next addresses hins =>
      -- no route is there yet, and the row that was inserted is read back
      obtain ⟨routes, hroute⟩ : ∃ routes, s.routes.insert? (newRouteRow id now) =
          some routes :=
        Table.insert?_isSome fun r hr hclash => hroutes r hr hclash
      have hnew : HasMailbox { s with addresses, routes } id :=
        ⟨⟨_, (Table.mem_insert? hins).mpr (.inr rfl), rfl⟩,
          ⟨_, (Table.mem_insert? hroute).mpr (.inr rfl), rfl⟩⟩
      obtain ⟨r, hr⟩ := readBack_isOk hnew
      rw [hroute] at h
      exact absurd (hr.symm.trans h) (by simp)
  · exact absurd h (by simp)

/-! ### Submissions -/

/-- The status shows that row of a job. -/
def OutboundJobStatus.Shows (status : OutboundJobStatus) (j : OutboundJobRow) : Prop :=
  ∃ thread_id, status = projectJobStatus (toOutboundJob { row := j, thread_id })

/-- The jobs of a listing are those of the store. -/
theorem listOutboundJobs_shows {query : ListOutboundJobsQuery} {job : OutboundJob}
    (h : job ∈ (listOutboundJobs s query).items) :
    ∃ j ∈ s.jobs, (projectJobStatus job).Shows j := by
  obtain ⟨joined, hjoined, rfl⟩ := List.mem_map.mp h
  have hmem : joined ∈ (s.jobs.select query.matches).filterMap (joinMessage s) :=
    (List.mem_insertionSort _).mp (List.mem_of_mem_take (List.mem_of_mem_take hjoined))
  obtain ⟨j, hj, hjoin⟩ := List.mem_filterMap.mp hmem
  obtain ⟨m, -, rfl⟩ := Option.map_eq_some_iff.mp hjoin
  exact ⟨j, (Table.mem_select.mp hj).1, m.thread_id, rfl⟩

/-- The status shows the job of that request, with the content it was sent with. -/
def OutboundJobStatus.Answers (status : OutboundJobStatus) (principal : Principal)
    (payload : SubmitMessagePayload) (s : Store) : Prop :=
  ∃ j ∈ s.jobs, j.id = status.jobId ∧ j.message_id = status.messageId ∧
    j.requestKey = (principal.authority, principal.identity.clientId, payload.requestId) ∧
    j.intent_fingerprint = submissionFingerprint payload

/-- A job keeps its request, its message and its content. -/
theorem OutboundJobStatus.Answers.evolves {status : OutboundJobStatus} {principal : Principal}
    {payload : SubmitMessagePayload} (h : status.Answers principal payload s)
    (hs : s.Evolves s') : status.Answers principal payload s' := by
  obtain ⟨j, hj, hid, hmessage, hkey, hfingerprint⟩ := h
  obtain ⟨j', hj', hlater⟩ := hs.jobs.exists_mem hj
  have hsame := hlater.sameRequest
  rw [OutboundJobRow.SameRequest] at hsame
  refine ⟨j', hj', ?_, ?_, ?_, ?_⟩
  · rw [hsame]
    exact hid
  · rw [hsame]
    exact hmessage
  · rw [hsame]
    exact hkey
  · rw [hsame]
    exact hfingerprint

/-- What the answer of a submission establishes. -/
structure SubmissionAnswered (principal : Principal) (payload : SubmitMessagePayload)
    (start : Store) (status : OutboundJobStatus) (s : Store) : Prop where
  answers : status.Answers principal payload s
  /-- The job is shown as it was in some state in between. -/
  shown : ∃ mid, start.Evolves mid ∧ mid.Evolves s ∧ ∃ j ∈ mid.jobs, status.Shows j

theorem SubmissionAnswered.later {principal : Principal} {payload : SubmitMessagePayload}
    {start : Store}
    {status : OutboundJobStatus} (h : SubmissionAnswered principal payload start status s)
    (hs : s.Evolves s') : SubmissionAnswered principal payload start status s' := by
  obtain ⟨mid, hstart, hmid, hshown⟩ := h.shown
  exact ⟨h.answers.evolves hs, mid, hstart, hmid.trans hs, hshown⟩

section submission
variable {input : SubmitOutboundInput} {ids : NewSubmissionIds}

/-- What a submission returns is the job under its request key. -/
theorem submitOutbound_names {r : SubmitOutboundResult} (hs : s.Issued)
    (hrequest : IsSubmissionRequestId input.requestId) (hfresh : FreshIds s input ids)
    (h : submitOutbound s input ids = .ok (r, s')) :
    ∃ j ∈ s'.jobs, (∃ thread_id, r.job = toOutboundJob { row := j, thread_id }) ∧
      j.requestKey = input.requestKey ∧ j.intent_fingerprint = input.intentFingerprint := by
  by_cases hallowed : ∃ needsApproval, SubmitAllowed s input needsApproval
  · obtain ⟨needsApproval, hallowed⟩ := hallowed
    by_cases hused : ∃ j ∈ s.jobs, j.requestKey = input.requestKey
    · -- a retry finds the job that is there
      obtain ⟨j, hj, hkey⟩ := hused
      obtain ⟨m, -, -, hresult⟩ :=
        submitOutbound_existing ids hs.reachable.referential hallowed hj hkey
      rw [h] at hresult
      split at hresult
      · exact absurd hresult (by simp)
      · next hfingerprint =>
        obtain ⟨rfl, rfl⟩ := ok_pair_inj hresult
        exact ⟨j, hj, ⟨m.thread_id, rfl⟩, hkey, not_not.mp hfingerprint⟩
    · -- a first submission returns the job that it has inserted
      obtain ⟨_, _, hresult, hcreated, -⟩ :=
        submitOutbound_created hs.named hs.reachable hrequest
        hfresh hallowed fun j hj hkey => hused ⟨j, hj, hkey⟩
      obtain ⟨rfl, rfl⟩ := ok_pair_inj (h.symm.trans hresult)
      rcases submitOutbound_ok h with ⟨-, hold⟩ | ⟨-, identity, fromAddress, approval, hsub,
        ⟨job, hjob, heq⟩, -⟩
      · exact absurd (hold.symm.trans hcreated) (by simp)
      · obtain ⟨hrow, hid, -⟩ := readJob_some hjob
        have hnew := s'.jobs.eq_of_clash hrow hsub.job_mem (.inl hid)
        refine ⟨job.row, hrow, ⟨job.thread_id, heq⟩, ?_, ?_⟩
        · rw [hnew]
          rfl
        · rw [hnew]
          rfl
  · obtain ⟨reason, addresses, hresult⟩ := submitOutbound_refused ids
      fun needsApproval hn => hallowed ⟨needsApproval, hn⟩
    exact absurd (h.symm.trans hresult) (by simp)

/-- The errors of a submission with fresh ids. -/
theorem submitOutbound_error {e : StoreError} (hs : s.Issued)
    (hrequest : IsSubmissionRequestId input.requestId) (hfresh : FreshIds s input ids)
    (h : submitOutbound s input ids = .error e) :
    (∃ reason addresses, e = .jobAuthorization reason addresses) ∨
      e = .submissionConflict input.requestId input.requester.clientId := by
  by_cases hallowed : ∃ needsApproval, SubmitAllowed s input needsApproval
  · obtain ⟨needsApproval, hallowed⟩ := hallowed
    by_cases hused : ∃ j ∈ s.jobs, j.requestKey = input.requestKey
    · obtain ⟨j, hj, hkey⟩ := hused
      obtain ⟨m, -, -, hresult⟩ :=
        submitOutbound_existing ids hs.reachable.referential hallowed hj hkey
      rw [h] at hresult
      split at hresult
      · exact .inr (Except.error.inj hresult)
      · exact absurd hresult (by simp)
    · obtain ⟨r, s', hresult, -⟩ :=
        submitOutbound_created hs.named hs.reachable hrequest hfresh
        hallowed fun j hj hkey => hused ⟨j, hj, hkey⟩
      exact absurd (h.symm.trans hresult) (by simp)
  · obtain ⟨reason, addresses, hresult⟩ := submitOutbound_refused ids
      fun needsApproval hn => hallowed ⟨needsApproval, hn⟩
    exact .inl ⟨reason, addresses, Except.error.inj (h.symm.trans hresult)⟩

end submission

/-! ### Safe operations -/

/-- The operation does not end in a defect, whatever runs beside it. -/
def Operation.Safe {α : Type} (E : Interference Store ApiInput) (op : Operation α) : Prop :=
  ∀ s, op.Sound E (fun _ _ => True) s

section rules
variable {α β : Type} {E : Interference Store ApiInput}

theorem Operation.Safe.bind {op : Operation α} {f : α → Operation β} (h : op.Safe E)
    (hf : ∀ a, (f a).Safe E) : (op >>= f).Safe E :=
  fun s => sound_bind ((h s).mono fun a s' _ => hf a s')

/-- A safe operation before one that ensures more. -/
theorem Operation.Safe.before {op : Operation α} {f : α → Operation β}
    {R : β → Store → Prop}
    (h : op.Safe E) (hf : ∀ a s, (f a).Sound E R s) (s : Store) : (op >>= f).Sound E R s :=
  sound_bind ((h s).mono fun a s' _ => hf a s')

theorem safe_pure (a : α) : Operation.Safe E (pure a) := fun _ => sound_pure fun _ _ _ => trivial

theorem safe_failed (error : ApiError) : Operation.Safe (α := α) E (failed error) :=
  fun _ => sound_failed

theorem safe_checked (result : Except ApiError α) : Operation.Safe E (checked result) :=
  fun _ => sound_checked fun _ _ _ _ _ => trivial

theorem safe_found (missing : ApiError) (a : Option α) : Operation.Safe E (found missing a) :=
  fun _ => sound_found fun _ _ _ _ _ => trivial

variable (hidle : ∀ s, E.guarantee s s)
include hidle

theorem safe_awaited (answer : ApiInput → Except ApiError α) :
    Operation.Safe E (awaited answer) :=
  fun _ => sound_awaited hidle fun _ _ _ _ => trivial

/-- A read whose errors the caller is told. -/
theorem safe_read {run : Store → Except StoreError α}
    (h : ∀ s, E.inv s → ∀ e, run s = .error e → Expected e) :
      Operation.Safe E (storeRead run) :=
  fun _ => sound_read hidle h fun _ _ _ _ _ _ _ _ => trivial

/-- A read that does not fail. -/
theorem safe_look (look : Store → α) : Operation.Safe E (storeRead fun s => .ok (look s)) :=
  safe_read hidle fun s _ e h => absurd h (by simp)

/-- A read of a store in which the rows behind its messages are there. -/
theorem safe_backed (hinv : ∀ s, E.inv s → s.Issued) {run : Store → Except StoreError α}
    (h : ∀ s, s.Backed → ∃ r, run s = .ok r) : Operation.Safe E (storeRead run) := by
  refine safe_read hidle fun s hI e he => ?_
  obtain ⟨r, hr⟩ := h s (hinv s hI).reachable.backed
  exact absurd (hr.symm.trans he) (by simp)

omit hidle in
/-- A command whose errors the caller is told. -/
theorem safe_call {run : Store → ApiInput → Except StoreError (α × Store)}
    (hcall : ∀ s i, E.guarantee s (committedSnd s (run s i)))
    (hexpected : ∀ s i, E.inv s → E.accepts s i → ∀ e, run s i = .error e → Expected e) :
    Operation.Safe E (storeCall run) :=
  fun _ => sound_call (fun s i _ _ => hcall s i) hexpected fun _ _ _ _ _ _ _ _ _ _ _ => trivial

omit hidle in
/-- A command on a thread fails only where no thread is visible. -/
theorem safe_threadCall {handle : String} {scope : MailboxScope}
    {run : Store → Except StoreError Store} {write : Store → String → Store}
    (hcall : ∀ s, E.guarantee s (committed s (run s)))
    (hrun : ∀ s, run s = (resolveThread s handle scope).bind fun threadId =>
      .ok (write s threadId)) :
    Operation.Safe E (storeCall fun s _ => (run s).map fun s' => ((), s')) := by
  refine safe_call (fun s _ => ?_) fun s _ _ _ e he => ?_
  · have hcommitted : committedSnd s ((run s).map fun s' => ((), s')) = committed s (run s) := by
      cases run s <;> rfl
    rw [hcommitted]
    exact hcall s
  · rw [hrun] at he
    unfold resolveThread at he
    split at he
    · obtain rfl := Except.error.inj he
      exact ⟨_, rfl⟩
    · exact absurd he (by simp [Except.bind, Except.map])

/-- A command of the operator on one mailbox. -/
theorem safe_mailboxCommand (id : String)
    {run : Store → Instant → Except StoreError (Option AccountAddress × Store)}
    (hcall : ∀ s now, E.guarantee s (committedSnd s (run s now)))
    (hok : ∀ s now, ∃ r, run s now = .ok r) : (mailboxCommand id run).Safe E := by
  refine (safe_awaited hidle _).bind fun now => ?_
  refine Operation.Safe.bind (safe_call (fun s _ => hcall s now) fun s _ _ _ e he => ?_)
    fun address => safe_found _ _
  obtain ⟨r, hr⟩ := hok s now
  exact absurd (hr.symm.trans he) (by simp)

end rules

/-! ### The operations -/

theorem ApiInput.fresh_ids {ports : ApiPorts} {i : ApiInput} (h : i.fresh ports s = true)
    (prepared : PreparedOutbound) (principal : Principal) (payload : SubmitMessagePayload)
    (now : Instant) :
    FreshIds s (submitInput ports prepared principal payload now i.randomId) i.newIds := by
  simp only [ApiInput.fresh, Bool.and_eq_true, List.all_eq_true, ne_eq, decide_not,
    Bool.not_eq_true', decide_eq_false_iff_not] at h
  obtain ⟨⟨⟨⟨⟨⟨huuid, hdistinct⟩, hmessages⟩, hjobs⟩, happrovals⟩, -⟩, -⟩ :=
    h
  exact {
    uuid := huuid
    message := hmessages
    job := fun j hj => (hjobs j hj).1
    notification := fun j hj => (hjobs j hj).2
    distinct := hdistinct
    approval := fun a ha => (happrovals a ha).1
    token := fun a ha => (happrovals a ha).2 }

theorem ApiInput.fresh_route {ports : ApiPorts} {i : ApiInput} (h : i.fresh ports s = true) :
    ∀ r ∈ s.routes, r.mailbox_id ≠ i.newId := by
  simp only [ApiInput.fresh, Bool.and_eq_true, List.all_eq_true, decide_eq_true_eq] at h
  exact h.2

/-- What the operations rely on: the store evolves by issued commands, and
    the ids that are drawn are fresh. -/
structure Serves (ports : ApiPorts) (E : Interference Store ApiInput) : Prop where
  idle : ∀ s, E.guarantee s s
  issued : ∀ s, E.inv s → s.Issued
  evolves : ∀ s s', E.rely s s' → s.Evolves s'
  kept : ∀ s s', E.guarantee s s' → s.Evolves s'
  fresh : ∀ s i, E.accepts s i → i.fresh ports s = true

section operations
variable {ports : ApiPorts} {E : Interference Store ApiInput} (hE : Serves ports E)
  (principal : Principal)

/-- What follows the check of the read permission may rely on it. -/
theorem canRead_safe {α : Type} {f : Unit → Operation α}
    (h : principal.policy.canRead = true → (f ()).Safe E) : (canRead principal >>= f).Safe E := by
  intro s
  refine sound_bind (sound_checked fun a hread s' _ _ => ?_)
  refine h ?_ s'
  unfold requireRead at hread
  split at hread
  · assumption
  · exact absurd hread (by simp [Except.mapError])

include hE

/-- While an operation runs, the store evolves. -/
theorem Operation.Safe.since {α β : Type} {op : Operation α} {f : α → Operation β}
    {R : β → Store → Prop} {s : Store} (h : op.Safe E)
    (hf : ∀ a s', s.Evolves s' → (f a).Sound E R s') : (op >>= f).Sound E R s := by
  have htracked := (h s).tracks (R := Store.Evolves) (fun _ _ _ => Store.Evolves.trans) hE.evolves
    fun s s' _ => hE.kept s s'
  refine sound_bind (htracked.mono fun result s' hresult => ?_)
  cases result with
  | ok a => exact hf a s' hresult.2
  | error failure =>
    cases failure with
    | api error => trivial
    | defect error => exact hresult.1

theorem createAddressOperation_safe (input : CreateAddressInput)
    (hcall : ∀ s id domain now sending, E.guarantee s
      (s.exec (.createAddress id input.localPart domain input.displayName now sending))) :
    (createAddressOperation ports input).Safe E := by
  refine (safe_found _ _).bind fun domain => ?_
  cases constructMailboxAddress input.localPart domain.name with
  | reserved => exact safe_failed _
  | invalid => exact (safe_awaited hE.idle _).bind fun _ => safe_failed _
  | ok parsed =>
    refine (safe_awaited hE.idle _).bind fun now => ?_
    refine Operation.Safe.bind (safe_call (fun s i => ?_) fun s i _ hi e he => ?_)
      fun address => safe_found _ _
    · unfold createAddressRpc
      split
      · exact hcall s i.newId domain.name now _
      · exact hE.idle s
    · unfold createAddressRpc at he
      split at he
      · obtain ⟨address, rfl⟩ := createAddress_error (i.fresh_route (hE.fresh s i hi)) he
        exact ⟨_, rfl⟩
      · exact absurd he (by simp)

theorem getAddressOperation_safe (id : String) : (getAddressOperation id).Safe E :=
  (safe_look hE.idle _).bind fun _ => safe_found _ _

theorem setAddressForwardingOperation_safe (id : String)
    (hcall : ∀ s id email now,
      E.guarantee s (s.exec (.setAddressForwarding id (some email) now))) :
    (setAddressForwardingOperation id).Safe E := by
  refine (getAddressOperation_safe hE id).bind fun address => ?_
  refine (safe_awaited hE.idle _).bind fun destination => ?_
  refine Operation.Safe.bind (safe_mailboxCommand hE.idle id
    (fun s now => hcall s address.id destination.email now)
    fun s now => setAddressForwarding_isOk s _ _ now) fun updated => safe_pure _

section reading
variable [DateTime] [Base64Url]

omit hE in
theorem decodedCursor_safe (cursor : Option String) : (decodedCursor cursor).Safe E :=
  safe_checked _

theorem listThreads_safe (limit : Option Int) (cursor : Option String) :
    (listThreads principal limit cursor).Safe E := by
  refine (safe_checked _).bind fun _ => (decodedCursor_safe _).bind fun cursor => ?_
  refine Operation.Safe.bind (safe_read hE.idle fun s _ e he => ?_) fun page => safe_pure _
  rw [listThreadSummaries_ok] at he
  exact absurd he (by simp)

theorem getThread_safe (threadId : String) (limit : Option Int) (cursor : Option String) :
    (getThread principal threadId limit cursor).Safe E := by
  refine (safe_checked _).bind fun _ => (decodedCursor_safe _).bind fun cursor => ?_
  refine Operation.Safe.bind (safe_read hE.idle fun s hI e he => ?_) fun page => safe_pure _
  rcases listThreadMessageSummaries_isOk (hE.issued s hI).reachable.backed threadId _ with
    ⟨page, hpage⟩ | hmissing
  · exact absurd (hpage.symm.trans he) (by simp)
  · obtain rfl := Except.error.inj (hmissing.symm.trans he)
    exact ⟨_, rfl⟩

theorem setThreadReadState_safe (threadId : String) (isRead : Bool)
    (hcall : principal.policy.canRead = true → ∀ s now, E.guarantee s
      (s.exec (.markThreadRead threadId isRead (mailboxScopeOf principal.policy) now))) :
    (setThreadReadState principal threadId isRead).Safe E := by
  refine canRead_safe principal fun hread => (safe_awaited hE.idle _).bind fun now => ?_
  exact Operation.Safe.bind (safe_threadCall (fun s => hcall hread s now) fun s => rfl) fun _ =>
    getThread_safe hE principal threadId none none

omit [DateTime] [Base64Url] in
theorem softDeleteVisibleThread_safe (threadId : String)
    (hcall : ∀ s now, E.guarantee s
      (s.exec (.softDeleteThread threadId (mailboxScopeOf principal.policy) now))) :
    (softDeleteVisibleThread principal threadId).Safe E :=
  (safe_awaited hE.idle _).bind fun now => safe_threadCall (fun s => hcall s now) fun _ => rfl

theorem listMessages_safe (query : ListMessagesQuery) : (listMessages principal query).Safe E := by
  have hlisted : (checkListedMailbox principal query.addressId).Safe E := by
    unfold checkListedMailbox
    split
    · exact safe_pure ()
    · split
      · exact (getAddressOperation_safe hE _).bind fun _ => safe_pure ()
      · exact safe_failed _
  refine (safe_checked _).bind fun _ => hlisted.bind fun _ => ?_
  refine (decodedCursor_safe _).bind fun cursor => ?_
  exact Operation.Safe.bind (safe_backed hE.idle hE.issued fun s hs =>
    listMessageSummaries_isOk hs _) fun page => safe_pure _

omit [DateTime] [Base64Url] in
theorem getMessage_safe (id : String) : (getMessage principal id).Safe E := by
  refine (safe_checked _).bind fun _ => ?_
  refine Operation.Safe.bind (safe_backed hE.idle hE.issued fun s hs =>
    getMessageSummary_isOk hs id _) fun summary => ?_
  refine (safe_look hE.idle _).bind fun body => ?_
  exact (safe_found _ _).bind fun summary => (safe_found _ _).bind fun body => safe_pure _

omit [DateTime] [Base64Url] in
theorem readMessageSource_safe (messageId : String) :
    (readMessageSource principal messageId).Safe E := by
  refine (safe_checked _).bind fun _ => ?_
  refine Operation.Safe.bind (safe_backed hE.idle hE.issued fun s hs =>
    getMessageSource_isOk hs messageId _) fun source => ?_
  refine (safe_found _ _).bind fun source => Operation.Safe.bind ?_ fun _ =>
    (safe_awaited hE.idle _).bind fun bytes => safe_found _ _
  cases source with
  | inbound id mailboxId rawKey => exact safe_pure rawKey
  | outbound id mailboxId => exact safe_failed _

omit [DateTime] [Base64Url] in
theorem readAttachment_safe (messageId attachmentId : String) :
    (readAttachment principal messageId attachmentId).Safe E := by
  refine (safe_checked _).bind fun _ => (safe_look hE.idle _).bind fun stored => ?_
  refine (safe_found _ _).bind fun stored => (safe_awaited hE.idle _).bind fun bytes => ?_
  exact (safe_found _ _).bind fun bytes => safe_pure _

/-- All the jobs of a page are shown as they were in one state in between. -/
theorem listJobs_sound (limit : Option Int) (cursor : Option String) (s : Store) :
    (listJobs principal limit cursor).Sound E (fun page s' =>
      ∃ mid, s.Evolves mid ∧ mid.Evolves s' ∧
        ∀ status ∈ page.items, ∃ j ∈ mid.jobs, status.Shows j) s := by
  refine Operation.Safe.since hE (decodedCursor_safe cursor) fun cursor s₁ hs₁ => ?_
  refine sound_bind (sound_read hE.idle (fun s _ e he => absurd he (by simp))
    fun mid page hs _ hread s₂ hs₂ _ => ?_)
  refine sound_pure fun s₃ hs₃ _ => ⟨mid, hs₁.trans (hE.evolves _ _ hs),
    (hE.evolves _ _ hs₂).trans (hE.evolves _ _ hs₃), ?_⟩
  intro status hstatus
  obtain rfl := Except.ok.inj hread
  obtain ⟨job, hjob, rfl⟩ := List.mem_map.mp hstatus
  exact listOutboundJobs_shows hjob

omit [DateTime] [Base64Url] in
theorem getJob_safe (jobId : String) : (getJob principal jobId).Safe E :=
  (safe_look hE.idle _).bind fun _ => (safe_found _ _).bind fun _ => safe_pure _

end reading

/-! ### Submitting -/

theorem readReplyParentOperation_safe (messageId : String) :
    (readReplyParentOperation principal messageId).Safe E :=
  (safe_checked _).bind fun _ => Operation.Safe.bind
    (safe_backed hE.idle hE.issued fun _ hs => getMessageSummary_isOk hs messageId _)
    fun _ => safe_found _ _

theorem replyRecipientsOperation_safe (parent : MessageSummary) (mode : ReplyMode)
    (sendingAddressId : String) :
    (replyRecipientsOperation parent mode sendingAddressId).Safe E := by
  refine (safe_look hE.idle _).bind fun addresses => (safe_look hE.idle _).bind fun sending => ?_
  unfold writtenTo
  split
  · exact safe_failed _
  · exact safe_pure _

theorem previewReplyRecipients_safe (messageId : String) (mode : ReplyMode) :
    (previewReplyRecipients principal messageId mode).Safe E :=
  (readReplyParentOperation_safe hE principal messageId).bind fun parent =>
    (replyRecipientsOperation_safe hE parent mode _).bind fun _ => safe_pure _

theorem resolveSubmitRecipientsOperation_safe (payload : SubmitMessagePayload) :
    (resolveSubmitRecipientsOperation principal payload).Safe E := by
  unfold resolveSubmitRecipientsOperation
  split
  · exact safe_pure _
  · exact (readReplyParentOperation_safe hE principal _).bind fun parent =>
      (replyRecipientsOperation_safe hE parent _ _).bind fun _ => safe_pure _

theorem usableSender_safe (fromAddressId : String) :
    (usableSender principal fromAddressId).Safe E := by
  refine (safe_look hE.idle _).bind fun identity => ?_
  cases identity with
  | none =>
    show (unusableSender principal fromAddressId).Safe E
    unfold unusableSender
    split
    · exact (safe_look hE.idle _).bind fun _ => safe_failed _
    · exact safe_failed _
  | some identity =>
    show Operation.Safe E (if mailboxAllowed principal identity.id then pure identity
      else failed (mailboxForbidden identity.id))
    split
    · exact safe_pure _
    · exact safe_failed _

theorem prepareOutbound_safe (payload : SubmitMessagePayload) :
    (prepareOutbound principal payload).Safe E := by
  have hfew : ∀ recipients, (fewRecipients recipients).Safe E := by
    intro recipients
    unfold fewRecipients
    split
    · exact safe_failed _
    · exact safe_pure ()
  have hsanitized : (sanitizeOutboundHtml payload.html).Safe E := by
    unfold sanitizeOutboundHtml
    split
    · exact safe_pure none
    · exact safe_awaited hE.idle _
  refine (usableSender_safe hE principal _).bind fun identity => ?_
  refine (resolveSubmitRecipientsOperation_safe hE principal payload).bind fun resolved => ?_
  exact (hfew _).bind fun _ => hsanitized.bind fun _ => safe_pure _

/-- The last call of a submission returns the job of its request. -/
theorem submitPrepared_sound {payload : SubmitMessagePayload}
    (decoded : IsSubmissionRequestId payload.requestId) (prepared : PreparedOutbound)
    (now : Instant)
    (hcall : ∀ s (i : ApiInput), s.Issued → i.fresh ports s = true →
      E.guarantee s (s.exec (.submitOutbound
        (submitInput ports prepared principal payload now i.randomId) i.newIds))) (s : Store) :
    (submitPrepared ports prepared principal payload now).Sound E
      (fun submitted => SubmissionAnswered principal payload s (projectJobStatus submitted.job))
      s := by
  have hids : ∀ s i, E.accepts s i → FreshIds s
      (submitInput ports prepared principal payload now i.randomId) i.newIds :=
    fun s i hi => i.fresh_ids (hE.fresh s i hi) prepared principal payload now
  refine sound_call (fun s i hI hi => hcall s i (hE.issued s hI) (hE.fresh s i hi))
    (fun s i hI hi e he => ?_)
    fun s' i submitted s₁ hs hI hi hrun s₂ hlater _ => ?_
  · rcases submitOutbound_error (hE.issued s hI) decoded (hids s i hi) he with
      ⟨reason, addresses, rfl⟩ | rfl <;> exact ⟨_, rfl⟩
  · obtain ⟨j, hj, ⟨thread_id, heq⟩, hkey, hfingerprint⟩ :=
      submitOutbound_names (hE.issued s' hI) decoded (hids s' i hi) hrun
    have hcommitted : committedSnd s' (submitOutbound s' (submitInput ports prepared principal
        payload now i.randomId) i.newIds) = s₁ := by
      rw [hrun]
      rfl
    have hstep : s.Evolves s₁ := (hE.evolves _ _ hs).trans
      (hcommitted ▸ hE.kept _ _ (hcall s' i (hE.issued s' hI) (hE.fresh s' i hi)))
    have hanswered :
        SubmissionAnswered principal payload s (projectJobStatus submitted.job) s₁ := by
      rw [heq]
      exact ⟨⟨j, hj, rfl, rfl, hkey, hfingerprint⟩, s₁, hstep, .refl s₁, j, hj,
        thread_id, rfl⟩
    exact hanswered.later (hE.evolves _ _ hlater)

/-- **A submission** answers with the job of its request. -/
theorem submitMessage_sound {payload : SubmitMessagePayload}
    (decoded : IsSubmissionRequestId payload.requestId)
    (hcall : requireSend principal.policy = .ok () → ∀ s (i : ApiInput) prepared now,
      s.Issued → i.fresh ports s = true → E.guarantee s (s.exec (.submitOutbound
        (submitInput ports prepared principal payload now i.randomId) i.newIds))) (s : Store) :
    (submitMessage ports principal payload).Sound E (SubmissionAnswered principal payload s) s := by
  refine sound_bind (sound_checked fun _ hsend s₁ hs₁ _ => ?_)
  have hallowed : requireSend principal.policy = .ok () := by
    cases hrequire : requireSend principal.policy with
    | ok a => rfl
    | error error =>
      rw [hrequire] at hsend
      exact absurd hsend (by simp [Except.mapError])
  refine Operation.Safe.since hE (prepareOutbound_safe hE principal payload)
    fun prepared s₂ hs₂ => ?_
  refine Operation.Safe.since hE (safe_awaited hE.idle _) fun now s₃ hs₃ => ?_
  have hstart : s.Evolves s₃ := ((hE.evolves _ _ hs₁).trans hs₂).trans hs₃
  refine sound_bind ((submitPrepared_sound hE principal decoded prepared now
    (fun s i hs hi => hcall hallowed s i prepared now hs hi) s₃).mono ?_)
  intro submitted s₄ hanswered
  refine sound_pure fun s' hlater _ => ?_
  obtain ⟨mid, hmid, hshown⟩ := hanswered.shown
  have hfirst : SubmissionAnswered principal payload s (projectJobStatus submitted.job) s₄ :=
    ⟨hanswered.answers, mid, hstart.trans hmid, hshown⟩
  exact hfirst.later (hE.evolves _ _ hlater)

/-- A poll shows the job as it was in some state in between. -/
theorem getJob_sound (jobId : String) (s : Store) :
    (getJob principal jobId).Sound E (fun status s' =>
      ∃ mid, s.Evolves mid ∧ mid.Evolves s' ∧ ∃ j ∈ mid.jobs, status.Shows j) s := by
  refine sound_bind (sound_read hE.idle (fun s _ e he => absurd he (by simp))
    fun mid job hs _ hread s₁ hs₁ _ => ?_)
  refine sound_bind (sound_found fun shown hshown s₂ hs₂ _ => ?_)
  refine sound_pure fun s₃ hs₃ _ => ⟨mid, hE.evolves _ _ hs,
    ((hE.evolves _ _ hs₁).trans (hE.evolves _ _ hs₂)).trans (hE.evolves _ _ hs₃), ?_⟩
  -- the row that the read found
  obtain rfl := Except.ok.inj hread
  unfold getOutboundJob at hshown
  obtain ⟨j, hj, hsees⟩ := Option.bind_eq_some_iff.mp hshown
  obtain ⟨hrow, -⟩ := readJob_some hj
  split at hsees
  · obtain rfl := Option.some.inj hsees
    exact ⟨j.row, hrow, j.thread_id, rfl⟩
  · exact absurd hsees (by simp)

end operations

end safety

end Umail
