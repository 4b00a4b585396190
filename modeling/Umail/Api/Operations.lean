import Umail.Account.Peripheral
import Umail.Account.Queries
import Umail.Api.ReplyPlan
import Umail.Contract.References

/-! # Replying

  The part of `apps/server/src/api/operations.ts` that answers a message: the
  parent is read under the caller's policy, and the recipients and the
  threading headers of the reply are derived from it.
-/

namespace Umail

section operations
variable [Unicode]

/-! ### Errors of the operations -/

structure InvalidRequest where
  code : String
  message : String

structure NotFound where
  code : String
  message : String

structure NotPermitted where
  code : String
  message : String

inductive OperationError where
  | invalidRequest (error : InvalidRequest)
  | notFound (error : NotFound)
  | notPermitted (error : NotPermitted)
  | store (error : StoreError)

/-- Unknown ids and ids outside the caller's access get the same answer. -/
def notFound (code subject : String) : NotFound where
  code
  message := subject ++ " was not found, or it is outside this client's access."

def noExternalRecipients (parentId : String) : InvalidRequest where
  code := "no_external_recipients"
  message :=
    "Message " ++ parentId ++ " has no external recipients to reply to: all participants" ++
    " are this account's own addresses. Send a new message with explicit recipients."

/-! ### The parent -/

def requireRead (policy : PrincipalPolicy) : Except NotPermitted Unit :=
  if policy.canRead then .ok ()
  else .error { code := "read_denied", message := "This client has no read access." }

def mailboxScopeOf (policy : PrincipalPolicy) : MailboxScope :=
  match policy.mailboxIds with
  | .all => .all
  | .only first rest => .only (first :: rest)

def readReplyParent (s : Store) (policy : PrincipalPolicy) (messageId : String) :
    Except OperationError MessageSummary := do
  (requireRead policy).mapError .notPermitted
  match ← (getMessageSummary s messageId (mailboxScopeOf policy)).mapError .store with
  | none => .error (.notFound (notFound "message_not_found" ("Message " ++ messageId)))
  | some parent => return parent

/-! ### Recipients and headers -/

/-- `ORDER BY a.address` -/
def listAddresses (s : Store) : List AccountAddress :=
  (s.addresses.rows.filterMap fun a =>
    (s.routes.find? (·.mailbox_id = a.id)).map (toAddress a)).insertionSort
      fun a b => a.address.val ≤ b.address.val

def toMailContact (contact : AccountMailContact) : MailContact where
  address := contact.address
  displayName := contact.displayName

def SummaryDirection.messageDirection : SummaryDirection → MessageDirection
  | .inbound _ => .inbound
  | .outbound _ => .outbound

/-- The participants of the parent, as `replyRecipients` passes them on. -/
def MessageSummary.replyParticipants (parent : MessageSummary) : ReplyParticipants where
  «from» := parent.participants.from.map toMailContact
  replyTo := parent.participants.replyTo.map toMailContact
  «to» := parent.participants.to.map toMailContact
  cc := parent.participants.cc.map toMailContact

/-- Recipients of a submission; at least one is written to. -/
structure SubmitRecipients where
  firstTo : MailContact
  restTo : List MailContact
  cc : List MailContact

/-- The addresses the account has registered. -/
def registeredAddresses (s : Store) : List MailboxAddress := (listAddresses s).map (·.address)

def replyRecipients (s : Store) (parent : MessageSummary) (mode : ReplyMode)
    (sendingAddressId : String) : Except InvalidRequest SubmitRecipients :=
  let recipients := deriveReplyRecipients parent.direction.messageDirection mode
    parent.replyParticipants (registeredAddresses s)
    ((getAddress s sendingAddressId).map (·.address))
  match recipients.to with
  | [] => .error (noExternalRecipients parent.id)
  | first :: rest => .ok { firstTo := first, restTo := rest, cc := recipients.cc }

/-- What `resolveSubmitRecipients` returns. -/
structure ResolvedSubmission where
  recipients : SubmitRecipients
  inReplyToHeader : Option String
  referencesHeader : Option String

/-- The threading headers of a reply. -/
def replyHeaders (parent : MessageSummary) : Option String × Option String :=
  let references :=
    match parent.rfcMessageId with
    | none => []
    | some rfcMessageId => buildOutboundReferences rfcMessageId parent.references
  (parent.rfcMessageId.map (·.val),
    if references.isEmpty then none else some (joinRfcMessageIds references))

def resolveSubmitRecipients (s : Store) (policy : PrincipalPolicy)
    (payload : SubmitMessagePayload) : Except OperationError ResolvedSubmission :=
  match payload.intent with
  | .compose firstTo restTo cc =>
    .ok {
      recipients := { firstTo, restTo, cc := cc.getD [] }
      inReplyToHeader := none
      referencesHeader := none }
  | .reply replyToMessageId replyMode => do
    let parent ← readReplyParent s policy replyToMessageId
    let recipients ← (replyRecipients s parent replyMode payload.fromAddressId).mapError
      .invalidRequest
    let (inReplyToHeader, referencesHeader) := replyHeaders parent
    return { recipients, inReplyToHeader, referencesHeader }

/-! ### Registered addresses -/

section addresses
variable {s : Store}

theorem mem_listAddresses {address : AccountAddress} : address ∈ listAddresses s ↔
    ∃ a ∈ s.addresses, (s.routes.find? (·.mailbox_id = a.id)).map (toAddress a) =
      some address := by
  unfold listAddresses
  rw [List.mem_insertionSort, List.mem_filterMap]
  rfl

theorem getAddress_registered {id : String} {sending : AccountAddress}
    (h : getAddress s id = some sending) : sending.address ∈ registeredAddresses s := by
  unfold getAddress mailboxWhere at h
  obtain ⟨a, ha, hfound⟩ := List.exists_of_findSome?_eq_some h
  split at hfound
  · exact List.mem_map_of_mem (mem_listAddresses.mpr ⟨a, ha, hfound⟩)
  · exact absurd hfound (by simp)

end addresses

/-! ### Whom a reply reaches -/

/-- Everybody a reply to all should reach: the two seeds of that mode. -/
def replyAllContacts (direction : MessageDirection) (participants : ReplyParticipants) :
    List MailContact :=
  toSeed direction participants ++ ccSeed direction .reply_all participants

/-- Somebody besides the sending address can be written to: a seed or, for a
    sent message, a sender of it. -/
def HasAddressee (direction : MessageDirection) (participants : ReplyParticipants)
    (sending : MailboxAddress) : Prop :=
  (∃ c ∈ toSeed direction participants, ¬ IsOwn [sending] c) ∨
    (direction = .outbound ∧ ∃ c ∈ participants.from, ¬ IsOwn [sending] c)

instance (direction : MessageDirection) (participants : ReplyParticipants)
    (sending : MailboxAddress) : Decidable (HasAddressee direction participants sending) :=
  inferInstanceAs (Decidable (_ ∨ _))

section reach
variable {direction : MessageDirection} {mode : ReplyMode} {participants : ReplyParticipants}
  {registered : List MailboxAddress} {sending : MailboxAddress} {contact : MailContact}

/-- Whoever is not of the account is a recipient of a reply to all. -/
theorem exists_recipient (sendingAddress : Option MailboxAddress)
    (hmem : contact ∈ replyAllContacts direction participants)
    (hexternal : ¬ IsOwn registered contact) :
    ∃ r ∈ (deriveReplyRecipients direction .reply_all participants registered
      sendingAddress).to ++
        (deriveReplyRecipients direction .reply_all participants registered sendingAddress).cc,
      r.address = contact.address := by
  by_cases hto : contact.address ∈
      (selectTo direction participants registered sendingAddress).map (·.address)
  · -- the address is written to already
    obtain ⟨c, hc, heq⟩ := List.mem_map.mp hto
    obtain ⟨r, hr, hkept⟩ := exists_dedupeMailContacts hc
    exact ⟨r, List.mem_append_left _ hr, hkept.trans heq⟩
  · rcases List.mem_append.mp hmem with hseed | hseed
    · -- a seed that is not of the account is kept
      have hkept : contact ∈ excludeOwn (toSeed direction participants) registered :=
        mem_excludeOwn.mpr ⟨hseed, hexternal⟩
      have hto' : contact ∈ selectTo direction participants registered sendingAddress := by
        rw [selectTo_of_external _ (List.ne_nil_of_mem hkept)]
        exact hkept
      exact absurd (List.mem_map_of_mem hto') hto
    · have hcopied : contact ∈ (excludeOwn (ccSeed direction .reply_all participants)
          registered).filter fun c =>
            c.address ∉ (selectTo direction participants registered sendingAddress).map
              (·.address) :=
        List.mem_filter.mpr ⟨mem_excludeOwn.mpr ⟨hseed, hexternal⟩, decide_eq_true hto⟩
      obtain ⟨r, hr, hkept⟩ := exists_dedupeMailContacts hcopied
      exact ⟨r, List.mem_append_right _ hr, hkept⟩

theorem dedupeMailContacts_eq_nil {contacts : List MailContact} :
    dedupeMailContacts contacts = [] ↔ contacts = [] := by
  constructor
  · intro h
    apply List.eq_nil_iff_forall_not_mem.mpr
    intro c hc
    obtain ⟨kept, hkept, -⟩ := exists_dedupeMailContacts hc
    exact List.not_mem_nil (h ▸ hkept)
  · rintro rfl
    rfl

/-- Nobody is written to exactly when nobody but the sending address could be. -/
theorem selectTo_eq_nil (hsending : sending ∈ registered) :
    selectTo direction participants registered (some sending) = [] ↔
      ¬ HasAddressee direction participants sending := by
  have hall : ∀ contacts : List MailContact,
      (¬ ∃ c ∈ contacts, ¬ IsOwn [sending] c) ↔ ∀ c ∈ contacts, IsOwn [sending] c := by
    intro contacts
    push Not
    rfl
  unfold HasAddressee
  rw [not_or, not_and, hall, hall]
  -- in the first two cases recipients are left
  rcases selectTo_cases direction participants registered sending with
    ⟨heq, hne⟩ | ⟨-, heq, hne⟩ | ⟨hseeds, heq⟩
  · refine iff_of_false (heq ▸ hne) ?_
    rintro ⟨hseeds, -⟩
    apply hne
    apply excludeOwn_eq_nil.mpr
    intro c hc
    apply (hseeds c hc).mono
    intro a ha
    exact List.mem_singleton.mp ha ▸ hsending
  · refine iff_of_false (heq ▸ hne) ?_
    rintro ⟨hseeds, -⟩
    exact hne (excludeSendingAddress_eq_nil.mpr hseeds)
  · rw [heq, iff_true_intro hseeds, true_and]
    cases direction with
    | inbound => simp
    | outbound => simp [excludeSendingAddress_eq_nil]

/-- A failed derivation is one that writes to nobody. -/
theorem replyRecipients_error {s : Store} {parent : MessageSummary} {sendingAddressId : String}
    {address : AccountAddress} (hsending : getAddress s sendingAddressId = some address)
    {error : InvalidRequest} :
    replyRecipients s parent mode sendingAddressId = .error error ↔
      error = noExternalRecipients parent.id ∧
        ¬ HasAddressee parent.direction.messageDirection parent.replyParticipants
          address.address := by
  rw [← selectTo_eq_nil (getAddress_registered hsending), ← dedupeMailContacts_eq_nil]
  unfold replyRecipients
  rw [hsending]
  have hto : (deriveReplyRecipients parent.direction.messageDirection mode
      parent.replyParticipants (registeredAddresses s) (some address.address)).to =
      dedupeMailContacts (selectTo parent.direction.messageDirection parent.replyParticipants
        (registeredAddresses s) (some address.address)) := rfl
  rw [← hto]
  simp only [Option.map_some]
  split
  · next hnil =>
    rw [hnil, Except.error.injEq]
    exact ⟨fun h => ⟨h.symm, rfl⟩, fun h => h.1.symm⟩
  · next first rest hcons =>
    rw [hcons]
    simp

end reach

/-- A reply to all reaches everybody outside the account, and a reply is
    refused only when there is nobody outside it. -/
structure ReachesEveryone (s : Store) (parent : MessageSummary) (sendingAddressId : String)
    (sending : MailboxAddress) : Prop where
  reached : ∀ c ∈ replyAllContacts parent.direction.messageDirection parent.replyParticipants,
    ¬ IsOwn (registeredAddresses s) c →
      let recipients := deriveReplyRecipients parent.direction.messageDirection .reply_all
        parent.replyParticipants (registeredAddresses s) (some sending)
      ∃ r ∈ recipients.to ++ recipients.cc, r.address = c.address
  refused : ∀ mode,
    replyRecipients s parent mode sendingAddressId = .error (noExternalRecipients parent.id) →
      ∀ c ∈ replyAllContacts parent.direction.messageDirection parent.replyParticipants,
        IsOwn (registeredAddresses s) c

/-- **Reply to all.** Everybody is reached exactly when somebody can be written
    to besides the sending address, or everybody is of the account. -/
theorem replyRecipients_reach (s : Store) (parent : MessageSummary) (sendingAddressId : String)
    (sending : AccountAddress) (hsending : getAddress s sendingAddressId = some sending) :
    ReachesEveryone s parent sendingAddressId sending.address ↔
      HasAddressee parent.direction.messageDirection parent.replyParticipants sending.address ∨
        ∀ c ∈ replyAllContacts parent.direction.messageDirection parent.replyParticipants,
          IsOwn (registeredAddresses s) c := by
  constructor
  · intro h
    by_cases haddressee : HasAddressee parent.direction.messageDirection parent.replyParticipants
        sending.address
    · exact .inl haddressee
    · right
      apply h.refused .reply_all
      exact (replyRecipients_error hsending).mpr ⟨rfl, haddressee⟩
  · intro h
    refine ⟨fun c hc hexternal => exists_recipient _ hc hexternal, ?_⟩
    intro mode herror
    exact h.resolve_left ((replyRecipients_error hsending).mp herror).2

end operations

namespace Sample

theorem mailboxStore_sending : ∃ sending, getAddress mailboxStore "mailbox-1" = some sending ∧
    sending.address = agentAddress := by
  have haddress : (getAddress mailboxStore "mailbox-1").map (·.address) = some agentAddress := by
    decide +kernel
  obtain ⟨sending, hget, heq⟩ := Option.map_eq_some_iff.mp haddress
  exact ⟨sending, hget, heq⟩

theorem mailboxStore_registered : registeredAddresses mailboxStore = [agentAddress] := by
  decide +kernel

/-- A message with the given participants. -/
def summary (direction : SummaryDirection) (participants : StoredParticipants) :
    MessageSummary where
  id := "message-1"
  threadId := "message-1"
  parentMessageId := none
  mailboxId := "mailbox-1"
  subject := none
  occurredAt := 1000
  participants
  hasRemoteImages := false
  rfcMessageId := none
  inReplyToRfcMessageId := none
  references := []
  attachments := []
  isRead := false
  readAt := none
  createdAt := 1000
  updatedAt := none
  direction

/-- What the mailbox wrote to itself, with a copy to Bob. -/
def noteToSelf : MessageSummary :=
  summary (.outbound {
      state := .accepted
      failureClass := none
      failureDetail := none
      providerMessageId := none }) {
    «from» := [contact "agent@example.com" (by decide +kernel)]
    replyTo := []
    «to» := [contact "agent@example.com" (by decide +kernel)]
    cc := [bob] }

/-- What Bob wrote to the mailbox. -/
def bobsMessage : MessageSummary :=
  summary (.inbound {
      envelopeFrom := "bob@example.org", envelopeTo := "agent@example.com", parsedDate := none,
      forwardOutcome := .none, forwardDestination := none }) {
    «from» := [bob]
    replyTo := []
    «to» := [contact "agent@example.com" (by decide +kernel)]
    cc := [] }

end Sample

section sample
open Sample

/-- Bob gets no reply to a message of which he had a copy: the reply is refused
    because nobody but the mailbox itself could be written to. -/
theorem bob_not_reached : ∃ sending, getAddress mailboxStore "mailbox-1" = some sending ∧
    replyRecipients mailboxStore noteToSelf .reply_all "mailbox-1" =
      .error (noExternalRecipients noteToSelf.id) ∧
    toMailContact bob ∈ replyAllContacts .outbound noteToSelf.replyParticipants ∧
    ¬ IsOwn (registeredAddresses mailboxStore) (toMailContact bob) ∧
    ¬ ReachesEveryone mailboxStore noteToSelf "mailbox-1" sending.address := by
  obtain ⟨sending, hget, haddress⟩ := mailboxStore_sending
  have hrefused : replyRecipients mailboxStore noteToSelf .reply_all "mailbox-1" =
      .error (noExternalRecipients noteToSelf.id) := by
    apply (replyRecipients_error hget).mpr
    rw [haddress]
    exact ⟨rfl, by decide +kernel⟩
  have hbob : toMailContact bob ∈ replyAllContacts .outbound noteToSelf.replyParticipants :=
    List.mem_append_right _ (List.mem_singleton_self _)
  have hexternal : ¬ IsOwn (registeredAddresses mailboxStore) (toMailContact bob) := by
    rw [mailboxStore_registered]
    decide +kernel
  refine ⟨sending, hget, hrefused, hbob, hexternal, ?_⟩
  intro h
  exact hexternal (h.refused .reply_all hrefused _ hbob)

/-- A reply to Bob's own message reaches him. -/
theorem replyRecipients_reach_bob : ∃ sending, getAddress mailboxStore "mailbox-1" =
    some sending ∧
    ReachesEveryone mailboxStore bobsMessage "mailbox-1" sending.address := by
  obtain ⟨sending, hget, haddress⟩ := mailboxStore_sending
  refine ⟨sending, hget, ?_⟩
  apply (replyRecipients_reach mailboxStore bobsMessage "mailbox-1" sending hget).mpr
  left
  rw [haddress]
  decide +kernel

end sample

end Umail
