import Umail.Account.Retirement
import Umail.Api.Submit

/-! # The API under concurrent requests

  Any number of requests run against one account store, interleaved with each
  other and with every other command of the store; a request may be cut off
  between two of its calls. Each request issues commands of its own kind only.
  None of them ends in a defect, and a submission that is sent again, whether
  its answer was lost or not, gets the job of the first one.
-/

namespace Umail

open Lts Relational

section service
variable [Unicode]

/-! ### Requests -/

/-- What a caller asks for. A payload comes with its request id decoded. -/
inductive ApiOperation where
  | createAddress (input : CreateAddressInput)
  | listAddresses
  | getAddress (id : String)
  | retireAddress (id : String)
  | retryAddressRouting (id : String)
  | patchAddress (id : String) (patch : PatchAddressInput)
  | setAddressForwarding (id : String)
  | removeAddressForwarding (id : String)
  | listSendingIdentities
  | listThreads (limit : Option Int) (cursor : Option String)
  | getThread (threadId : String) (limit : Option Int) (cursor : Option String)
  | setThreadReadState (threadId : String) (isRead : Bool)
  | softDeleteVisibleThread (threadId : String)
  | listMessages (query : ListMessagesQuery)
  | getMessage (id : String)
  | readMessageSource (messageId : String)
  | getMessageHeaders (messageId : String)
  | readAttachment (messageId attachmentId : String)
  | previewReplyRecipients (messageId : String) (mode : ReplyMode)
  | submitMessage (payload : SubmitMessagePayload)
      (decoded : IsSubmissionRequestId payload.requestId)
  | listJobs (limit : Option Int) (cursor : Option String)
  | getJob (jobId : String)

structure ApiRequest where
  principal : Principal
  operation : ApiOperation

inductive ApiAnswer where
  | address (address : AccountAddress)
  | addresses (addresses : List AccountAddress)
  | forwarding (forwarding : AddressForwarding)
  | identities (identities : List AccountSendingIdentity)
  | threads (page : WirePage MailThreadSummary)
  | thread (thread : MailThreadDetail)
  | deleted
  | messages (page : WirePage MailMessageSummary)
  | message (message : ThreadMessage)
  | source (bytes : Bytes)
  | headers (headers : Option MessageHeaders)
  | attachment (stored : StoredAttachment) (bytes : Bytes)
  | preview (preview : ReplyPreview)
  | job (status : OutboundJobStatus)
  | jobs (page : WirePage OutboundJobStatus)

variable [DateTime] [Base64Url]

/-- Runs the operation of a request. -/
def ApiRequest.serve (ports : ApiPorts) (r : ApiRequest) : Operation ApiAnswer :=
  match r.operation with
  | .createAddress input => return .address (← createAddressOperation ports input)
  | .listAddresses => return .addresses (← listAddressesOperation)
  | .getAddress id => return .address (← getAddressOperation id)
  | .retireAddress id => return .address (← retireAddressOperation id)
  | .retryAddressRouting id => return .address (← retryAddressRoutingOperation id)
  | .patchAddress id patch => return .address (← patchAddressOperation id patch)
  | .setAddressForwarding id => return .forwarding (← setAddressForwardingOperation id)
  | .removeAddressForwarding id => return .address (← removeAddressForwarding id)
  | .listSendingIdentities => return .identities (← listSendingIdentitiesOperation r.principal)
  | .listThreads limit cursor => return .threads (← listThreads r.principal limit cursor)
  | .getThread threadId limit cursor =>
    return .thread (← getThread r.principal threadId limit cursor)
  | .setThreadReadState threadId isRead =>
    return .thread (← setThreadReadState r.principal threadId isRead)
  | .softDeleteVisibleThread threadId => do
    softDeleteVisibleThread r.principal threadId
    return .deleted
  | .listMessages query => return .messages (← listMessages r.principal query)
  | .getMessage id => return .message (← getMessage r.principal id)
  | .readMessageSource messageId => return .source (← readMessageSource r.principal messageId)
  | .getMessageHeaders messageId => return .headers (← getMessageHeaders r.principal messageId)
  | .readAttachment messageId attachmentId => do
    let attachment ← readAttachment r.principal messageId attachmentId
    return .attachment attachment.1 attachment.2
  | .previewReplyRecipients messageId mode =>
    return .preview (← previewReplyRecipients r.principal messageId mode)
  | .submitMessage payload _ => return .job (← submitMessage ports r.principal payload)
  | .listJobs limit cursor => return .jobs (← listJobs r.principal limit cursor)
  | .getJob jobId => return .job (← getJob r.principal jobId)

/-- The commands that a request may issue. -/
def ApiRequest.Issues (ports : ApiPorts) (r : ApiRequest) (c : Command) : Prop :=
  match r.operation with
  | .createAddress input => ∃ id domain now sending,
      c = .createAddress id input.localPart domain input.displayName now sending
  | .retireAddress id => ∃ now, c = .retireAddress id now
  | .retryAddressRouting id => ∃ now, c = .retryAddressRouting id now
  | .patchAddress id patch => ∃ now, c = .patchAddress id patch now
  | .setAddressForwarding _ => ∃ id email now, c = .setAddressForwarding id (some email) now
  | .removeAddressForwarding id => ∃ now, c = .setAddressForwarding id none now
  | .setThreadReadState threadId isRead => r.principal.policy.canRead = true ∧ ∃ now,
      c = .markThreadRead threadId isRead (mailboxScopeOf r.principal.policy) now
  | .softDeleteVisibleThread threadId => ∃ now,
      c = .softDeleteThread threadId (mailboxScopeOf r.principal.policy) now
  | .submitMessage payload _ => requireSend r.principal.policy = .ok () ∧
      ∃ prepared now approvalId ids, isUuid ids.messageId = true ∧
        c = .submitOutbound (submitInput ports prepared r.principal payload now approvalId) ids
  | _ => False

/-! ### The service -/

/-- The ids that a request draws are UUIDs that are not in use. -/
def ApiInput.fresh (ports : ApiPorts) (s : Store) (i : ApiInput) : Bool :=
  isUuid i.newIds.messageId && i.newIds.jobId ≠ i.newIds.notificationJobId &&
    s.messages.rows.all (·.id ≠ i.newIds.messageId) &&
    s.jobs.rows.all (fun j => j.id ≠ i.newIds.jobId && j.id ≠ i.newIds.notificationJobId) &&
    s.approvals.rows.all (fun a => a.id ≠ i.randomId &&
      a.token_hash ≠ ports.hashApprovalToken (ports.deriveApprovalToken i.randomId)) &&
    s.addresses.rows.all (·.id ≠ i.newId) && s.routes.rows.all (·.mailbox_id ≠ i.newId)

/-- The rest of the system changes the store by commands. -/
abbrev IssuedCommand := { c : Command // c.Issued }

/-- The API with the account store behind it. -/
def apiService (ports : ApiPorts) :
    Program Store (Serving ApiRequest Store ApiInput (Except Failure ApiAnswer)) IssuedCommand
      ApiRequest ApiInput :=
  Lts.serve (· = Store.empty) (fun s c => some (s.exec c)) (ApiInput.fresh ports)
    (fun r => (r.serve ports).run)

/-- A state of the service. -/
abbrev ApiPool := Pool Store (Serving ApiRequest Store ApiInput (Except Failure ApiAnswer))

/-- What the others may do while a request runs, and what it may do itself. -/
def ApiRequest.interference (ports : ApiPorts) (r : ApiRequest) : Interference Store ApiInput where
  inv := Store.Issued
  rely := Store.Evolves
  guarantee s s' := s' = s ∨ ∃ c : Command, r.Issues ports c ∧ s' = s.exec c
  accepts s i := i.fresh ports s = true
  refl := Store.Evolves.refl
  trans _ _ _ := Store.Evolves.trans

/-! ### Sound operations -/

/-- The operation ends in `R` or in an error of the API, never in a defect. -/
def Settled {α : Type} (R : α → Store → Prop) : Except Failure α → Store → Prop
  | .ok a, s => R a s
  | .error (.api _), _ => True
  | .error (.defect _), _ => False

def Operation.Sound {α : Type} (E : Interference Store ApiInput) (R : α → Store → Prop)
    (op : Operation α) (s : Store) : Prop := Proc.Ensures E (Settled R) op.run s

/-- A store error that the caller is told. -/
def Expected (e : StoreError) : Prop := ∃ error, storeFailure e = .api error

section sound
variable {α β : Type} {E : Interference Store ApiInput} {R : α → Store → Prop} {s : Store}

omit [DateTime] [Base64Url] in
theorem Operation.Sound.mono {R' : α → Store → Prop} {op : Operation α} (h : op.Sound E R s)
    (hR : ∀ a s, R a s → R' a s) : op.Sound E R' s := by
  refine Proc.Ensures.mono h ?_
  intro r s hr
  cases r with
  | ok a => exact hR a s hr
  | error failure =>
    cases failure with
    | api error => trivial
    | defect error => exact hr

omit [DateTime] [Base64Url] in
theorem sound_pure {a : α} (h : ∀ s', E.rely s s' → E.inv s' → R a s') :
    Operation.Sound E R (pure a) s := h

omit [DateTime] [Base64Url] in
theorem sound_failed {error : ApiError} : Operation.Sound E R (failed error) s :=
  fun _ _ _ => trivial

omit [DateTime] [Base64Url] in
theorem sound_checked {result : Except ApiError α}
    (h : ∀ a, result = .ok a → ∀ s', E.rely s s' → E.inv s' → R a s') :
    Operation.Sound E R (checked result) s := by
  intro s' hs hI
  cases result with
  | ok a => exact h a rfl s' hs hI
  | error error => trivial

omit [DateTime] [Base64Url] in
/-- **Sequencing.** -/
theorem sound_bind {op : Operation α} {f : α → Operation β} {R : β → Store → Prop}
    (h : op.Sound E (fun a s => (f a).Sound E R s) s) : Operation.Sound E R (op >>= f) s := by
  refine Proc.ensures_bind (Proc.Ensures.mono h ?_)
  intro r s hr
  cases r with
  | ok a => exact hr
  | error failure =>
    cases failure with
    | api error => exact fun _ _ _ => trivial
    | defect error => exact hr.elim

omit [DateTime] [Base64Url] in
theorem sound_found {missing : ApiError} {a : Option α}
    (h : ∀ b, a = some b → ∀ s', E.rely s s' → E.inv s' → R b s') :
    Operation.Sound E R (found missing a) s := by
  cases a with
  | none => exact sound_failed
  | some b => exact sound_pure (h b rfl)

omit [DateTime] [Base64Url] in
theorem sound_awaited {answer : ApiInput → Except ApiError α} (hidle : ∀ s, E.guarantee s s)
    (h : ∀ a s', E.rely s s' → E.inv s' → R a s') :
      Operation.Sound E R (awaited answer) s := by
  refine Proc.ensures_take hidle ?_
  intro i s' hs hI
  cases answer i with
  | ok a => exact h a s' hs hI
  | error error => trivial

omit [DateTime] [Base64Url] in
/-- A read whose errors the caller is told. -/
theorem sound_read {run : Store → Except StoreError α} (hidle : ∀ s, E.guarantee s s)
    (hexpected : ∀ s, E.inv s → ∀ e, run s = .error e → Expected e)
    (h : ∀ s' a, E.rely s s' → E.inv s' → run s' = .ok a →
      ∀ s'', E.rely s' s'' → E.inv s'' → R a s'') : Operation.Sound E R
        (storeRead run) s := by
  refine Proc.ensures_read hidle ?_
  intro s' hs hI s'' hs' hI'
  cases hrun : run s' with
  | ok a => exact h s' a hs hI hrun s'' hs' hI'
  | error e =>
    obtain ⟨error, herror⟩ := hexpected s' hI e hrun
    show Settled R (.error (storeFailure e)) s''
    rw [herror]
    trivial

omit [DateTime] [Base64Url] in
/-- A command whose errors the caller is told. -/
theorem sound_call {run : Store → ApiInput → Except StoreError (α × Store)}
    (hcall : ∀ s i, E.inv s → E.accepts s i → E.guarantee s (committedSnd s (run s i)))
    (hexpected : ∀ s i, E.inv s → E.accepts s i → ∀ e, run s i = .error e → Expected e)
    (h : ∀ s' i a s₁, E.rely s s' → E.inv s' → E.accepts s' i →
      run s' i = .ok (a, s₁) →
      ∀ s'', E.rely s₁ s'' → E.inv s'' → R a s'') : Operation.Sound E R
        (storeCall run) s := by
  intro s' hs hI i hi
  have hguarantee := hcall s' i hI hi
  cases hrun : run s' i with
  | ok r =>
    rw [hrun] at hguarantee
    simp only [hrun, transaction]
    exact ⟨hguarantee, h s' i r.1 r.2 hs hI hi hrun⟩
  | error e =>
    rw [hrun] at hguarantee
    obtain ⟨error, herror⟩ := hexpected s' i hI hi e hrun
    simp only [hrun, transaction, herror]
    exact ⟨hguarantee, fun _ _ _ => trivial⟩

end sound

end service

end Umail
