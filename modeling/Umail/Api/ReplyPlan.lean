import Umail.Account.Store
import Umail.Contract.MailboxForm
import Umail.Contract.Submission

/-! # Reply recipients

  `apps/server/src/api/reply-plan.ts`: who a reply goes to, from the
  participants of its parent. The account's own addresses are left out of a
  reply unless it would reach nobody else, and the sending address always is.
-/

namespace Umail

section replies
variable [Unicode]

/-! ### The derivation -/

structure ReplyParticipants where
  «from» : List MailContact
  replyTo : List MailContact
  «to» : List MailContact
  cc : List MailContact

structure ReplyRecipients where
  «to» : List MailContact
  cc : List MailContact

/-- The first contact of every address. -/
def dedupeMailContacts (contacts : List MailContact) : List MailContact :=
  keepFirst (fun contact => comparisonKey contact.address) [] contacts

def inboundReplyTo (participants : ReplyParticipants) : List MailContact :=
  if participants.replyTo.isEmpty then participants.from else participants.replyTo

/-- The contacts whose mailbox form, if they have one, is not excluded. -/
def excludeAddresses (contacts : List MailContact) (excluded : MailboxAddress → Bool) :
    List MailContact :=
  contacts.filter fun contact =>
    match parseMailboxAddress contact.address.val with
    | some parsed => !excluded parsed.address
    | none => true

def excludeOwn (contacts : List MailContact) (registered : List MailboxAddress) :
    List MailContact :=
  excludeAddresses contacts (· ∈ registered)

def excludeSendingAddress (contacts : List MailContact) (sendingAddress : MailboxAddress) :
    List MailContact :=
  excludeAddresses contacts (· = sendingAddress)

def toSeed (direction : MessageDirection) (participants : ReplyParticipants) : List MailContact :=
  match direction with
  | .inbound => inboundReplyTo participants
  | .outbound => participants.to

def ccSeed (direction : MessageDirection) (mode : ReplyMode) (participants : ReplyParticipants) :
    List MailContact :=
  match direction, mode with
  | .inbound, .reply_all => participants.to ++ participants.cc
  | .inbound, .reply => []
  | .outbound, _ => participants.cc

/-- The variable `to` of the source after its three assignments. -/
def selectTo (direction : MessageDirection) (participants : ReplyParticipants)
    (registered : List MailboxAddress) (sendingAddress : Option MailboxAddress) :
    List MailContact :=
  let external := excludeOwn (toSeed direction participants) registered
  match sendingAddress with
  | none => external
  | some sending =>
    let others :=
      if external.isEmpty then excludeSendingAddress (toSeed direction participants) sending
      else external
    if others.isEmpty && direction = .outbound then
      excludeSendingAddress participants.from sending
    else others

def deriveReplyRecipients (direction : MessageDirection) (mode : ReplyMode)
    (participants : ReplyParticipants) (registered : List MailboxAddress)
    (sendingAddress : Option MailboxAddress) : ReplyRecipients :=
  let recipients := selectTo direction participants registered sendingAddress
  let toKeys := recipients.map (·.address)
  let cc := (excludeOwn (ccSeed direction mode participants) registered).filter
    fun contact => contact.address ∉ toKeys
  { «to» := dedupeMailContacts recipients, cc := dedupeMailContacts cc }

/-! ### Own addresses -/

/-- The mailbox form of a contact is one of the account's addresses. -/
def IsOwn (registered : List MailboxAddress) (contact : MailContact) : Prop :=
  ∃ parsed, parseMailboxAddress contact.address.val = some parsed ∧
    parsed.address ∈ registered

instance (registered : List MailboxAddress) (contact : MailContact) :
    Decidable (IsOwn registered contact) :=
  match h : parseMailboxAddress contact.address.val with
  | none => .isFalse fun hown => by simp [IsOwn, h] at hown
  | some parsed => decidable_of_iff (parsed.address ∈ registered) (by simp [IsOwn, h])

section excluding
variable {contacts : List MailContact} {contact : MailContact} {registered : List MailboxAddress}
  {sending : MailboxAddress}

theorem mem_excludeAddresses {excluded : MailboxAddress → Bool} :
    contact ∈ excludeAddresses contacts excluded ↔ contact ∈ contacts ∧
      ¬ ∃ parsed, parseMailboxAddress contact.address.val = some parsed ∧
        excluded parsed.address = true := by
  unfold excludeAddresses
  rw [List.mem_filter]
  apply and_congr_right
  intro _
  cases parseMailboxAddress contact.address.val with
  | none => simp
  | some parsed => simp

theorem mem_excludeOwn :
    contact ∈ excludeOwn contacts registered ↔ contact ∈ contacts ∧
      ¬ IsOwn registered contact := by
  unfold excludeOwn IsOwn
  rw [mem_excludeAddresses]
  simp

theorem mem_excludeSendingAddress : contact ∈ excludeSendingAddress contacts sending ↔
    contact ∈ contacts ∧ ¬ IsOwn [sending] contact := by
  unfold excludeSendingAddress IsOwn
  rw [mem_excludeAddresses]
  simp

theorem excludeOwn_eq_nil :
    excludeOwn contacts registered = [] ↔ ∀ contact ∈ contacts, IsOwn registered contact := by
  rw [List.eq_nil_iff_forall_not_mem]
  simp [mem_excludeOwn]

theorem excludeSendingAddress_eq_nil :
    excludeSendingAddress contacts sending = [] ↔ ∀ contact ∈ contacts,
      IsOwn [sending] contact := by
  rw [List.eq_nil_iff_forall_not_mem]
  simp [mem_excludeSendingAddress]

theorem IsOwn.mono {registered' : List MailboxAddress} (h : IsOwn registered contact)
    (hsub : ∀ a ∈ registered, a ∈ registered') : IsOwn registered' contact := by
  obtain ⟨parsed, hparsed, hmem⟩ := h
  exact ⟨parsed, hparsed, hsub _ hmem⟩

/-- Among registered addresses, owned is the same as written in any letter case. -/
theorem owned_iff [LawfulUnicode] (hregistered : ∀ a ∈ registered, a.Registrable) :
    IsOwn registered contact ↔ ∃ a ∈ registered, SameAddress contact.address.val a.val := by
  constructor
  · rintro ⟨parsed, hparsed, hmem⟩
    exact ⟨parsed.address, hmem, (sameAddress_iff (hregistered _ hmem)).mpr
      ⟨parsed, hparsed, rfl⟩⟩
  · rintro ⟨a, hmem, hsame⟩
    obtain ⟨parsed, hparsed, rfl⟩ := (sameAddress_iff (hregistered _ hmem)).mp hsame
    exact ⟨parsed, hparsed, hmem⟩

/-! ### Contacts of one address -/

theorem mem_dedupeMailContacts (h : contact ∈ dedupeMailContacts contacts) :
    contact ∈ contacts :=
  (mem_keepFirst h).1

theorem dedupeMailContacts_nodup (contacts : List MailContact) :
    ((dedupeMailContacts contacts).map (·.address)).Nodup := by
  have hkeys := keepFirst_nodup (fun c : MailContact => comparisonKey c.address) [] contacts
  apply List.Nodup.of_map comparisonKey
  rw [List.map_map]
  exact hkeys

/-- Every address is represented. -/
theorem exists_dedupeMailContacts (h : contact ∈ contacts) :
    ∃ kept ∈ dedupeMailContacts contacts, kept.address = contact.address := by
  have hkeys : ∃ kept ∈ keepFirst (fun c : MailContact => comparisonKey c.address) [] contacts,
      comparisonKey kept.address = comparisonKey contact.address :=
    exists_keepFirst h List.not_mem_nil
  obtain ⟨kept, hkept, hkey⟩ := hkeys
  exact ⟨kept, hkept, Subtype.ext hkey⟩

end excluding

/-! ### The choice of the recipients -/

section choice
variable {direction : MessageDirection} {mode : ReplyMode} {participants : ReplyParticipants}
  {registered : List MailboxAddress} {sending : MailboxAddress} {contact : MailContact}

/-- With somebody from outside the account among the seeds, nobody else is chosen. -/
theorem selectTo_of_external (sendingAddress : Option MailboxAddress)
    (h : excludeOwn (toSeed direction participants) registered ≠ []) :
    selectTo direction participants registered sendingAddress =
      excludeOwn (toSeed direction participants) registered := by
  have hsome : (excludeOwn (toSeed direction participants) registered).isEmpty = false :=
    List.isEmpty_eq_false_iff.mpr h
  unfold selectTo
  cases sendingAddress with
  | none => rfl
  | some sending => simp [hsome]

/-- The three choices of `to`: somebody else, another mailbox, or for a sent
    message the mailbox that sent it. -/
theorem selectTo_cases (direction : MessageDirection) (participants : ReplyParticipants)
    (registered : List MailboxAddress) (sending : MailboxAddress) :
    (selectTo direction participants registered (some sending) =
        excludeOwn (toSeed direction participants) registered ∧
      excludeOwn (toSeed direction participants) registered ≠ []) ∨
    ((∀ c ∈ toSeed direction participants, IsOwn registered c) ∧
      selectTo direction participants registered (some sending) =
        excludeSendingAddress (toSeed direction participants) sending ∧
      excludeSendingAddress (toSeed direction participants) sending ≠ []) ∨
    ((∀ c ∈ toSeed direction participants, IsOwn [sending] c) ∧
      selectTo direction participants registered (some sending) =
        if direction = .outbound then excludeSendingAddress participants.from sending else []) := by
  -- the recipients are looked for in three places, one after the other
  by_cases hexternal : excludeOwn (toSeed direction participants) registered = []
  · right
    have hsecond : (if (excludeOwn (toSeed direction participants) registered).isEmpty = true then
        excludeSendingAddress (toSeed direction participants) sending
      else excludeOwn (toSeed direction participants) registered) =
        excludeSendingAddress (toSeed direction participants) sending :=
      if_pos (by simp [hexternal])
    unfold selectTo
    dsimp only
    rw [hsecond]
    by_cases hothers : excludeSendingAddress (toSeed direction participants) sending = []
    · right
      refine ⟨excludeSendingAddress_eq_nil.mp hothers, ?_⟩
      cases direction with
      | inbound => simp [hothers]
      | outbound => simp [hothers]
    · left
      refine ⟨excludeOwn_eq_nil.mp hexternal, ?_, hothers⟩
      rw [if_neg]
      simp [hothers]
  · exact .inl ⟨selectTo_of_external _ hexternal, hexternal⟩

theorem mem_toSeed (h : contact ∈ toSeed direction participants) :
    contact ∈ participants.from ++ participants.replyTo ++ participants.to ++
      participants.cc := by
  cases direction with
  | inbound =>
    unfold toSeed inboundReplyTo at h
    simp only at h
    split at h <;> simp [h]
  | outbound =>
    have hto : contact ∈ participants.to := h
    simp [hto]

theorem mem_ccSeed (h : contact ∈ ccSeed direction mode participants) :
    contact ∈ participants.from ++ participants.replyTo ++ participants.to ++
      participants.cc := by
  unfold ccSeed at h
  split at h
  · rcases List.mem_append.mp h with h | h <;> simp [h]
  · exact absurd h List.not_mem_nil
  · simp [h]

/-- A chosen recipient is a participant and not the sending address. -/
theorem mem_selectTo (hsending : sending ∈ registered)
    (h : contact ∈ selectTo direction participants registered (some sending)) :
    contact ∈ participants.from ++ participants.replyTo ++ participants.to ++ participants.cc ∧
      ¬ IsOwn [sending] contact := by
  have hsub : ∀ a ∈ [sending], a ∈ registered := by
    intro a ha
    exact List.mem_singleton.mp ha ▸ hsending
  rcases selectTo_cases direction participants registered sending with ⟨heq, -⟩ |
    ⟨-, heq, -⟩ | ⟨-, heq⟩
  · rw [heq, mem_excludeOwn] at h
    exact ⟨mem_toSeed h.1, fun hown => h.2 (hown.mono hsub)⟩
  · rw [heq, mem_excludeSendingAddress] at h
    exact ⟨mem_toSeed h.1, h.2⟩
  · rw [heq] at h
    split at h
    · rw [mem_excludeSendingAddress] at h
      refine ⟨?_, h.2⟩
      simp [h.1]
    · exact absurd h List.not_mem_nil

/-- A mailbox of the account is chosen only when there is nobody else. -/
theorem selectTo_owned (hsending : sending ∈ registered)
    (h : contact ∈ selectTo direction participants registered (some sending))
    (hown : IsOwn registered contact) : ∀ c ∈ toSeed direction participants,
      IsOwn registered c := by
  rcases selectTo_cases direction participants registered sending with ⟨heq, -⟩ |
    ⟨hall, -⟩ | ⟨hall, -⟩
  · rw [heq, mem_excludeOwn] at h
    exact absurd hown h.2
  · exact hall
  · intro c hc
    apply (hall c hc).mono
    intro a ha
    exact List.mem_singleton.mp ha ▸ hsending

theorem mem_derived_to
    (h : contact ∈ (deriveReplyRecipients direction mode participants registered
      (some sending)).to) :
    contact ∈ selectTo direction participants registered (some sending) :=
  mem_dedupeMailContacts h

theorem mem_derived_cc
    (h : contact ∈ (deriveReplyRecipients direction mode participants registered
      (some sending)).cc) :
    contact ∈ ccSeed direction mode participants ∧ ¬ IsOwn registered contact ∧
      ∀ c ∈ selectTo direction participants registered (some sending),
        c.address ≠ contact.address := by
  obtain ⟨hmem, hkeys⟩ := List.mem_filter.mp (mem_dedupeMailContacts h)
  obtain ⟨hseed, hexternal⟩ := mem_excludeOwn.mp hmem
  refine ⟨hseed, hexternal, ?_⟩
  intro c hc heq
  have hnot := of_decide_eq_true hkeys
  exact hnot (heq ▸ List.mem_map_of_mem hc)

end choice

/-! ### Soundness -/

/-- Recipients that may be written to from `sending`. -/
structure SoundRecipients (direction : MessageDirection) (participants : ReplyParticipants)
    (registered : List MailboxAddress) (sending : MailboxAddress) (recipients : ReplyRecipients) :
    Prop where
  to_distinct : (recipients.to.map (·.address)).Nodup
  cc_distinct : (recipients.cc.map (·.address)).Nodup
  disjoint : ∀ c ∈ recipients.to, ∀ d ∈ recipients.cc, c.address ≠ d.address
  /-- The sending address is no recipient in any letter case. -/
  notSending : ∀ c ∈ recipients.to ++ recipients.cc, ¬ SameAddress c.address.val sending.val
  /-- Nor is a copy sent to a mailbox of the account. -/
  ccExternal : ∀ c ∈ recipients.cc, ∀ a ∈ registered, ¬ SameAddress c.address.val a.val
  /-- One is written to only when every seed is such a mailbox. -/
  toOwn : (∃ c ∈ recipients.to, ∃ a ∈ registered, SameAddress c.address.val a.val) →
    ∀ c ∈ toSeed direction participants, ∃ a ∈ registered, SameAddress c.address.val a.val
  /-- Every recipient is a participant, under the name it has there. -/
  known : ∀ c ∈ recipients.to ++ recipients.cc,
    c ∈ participants.from ++ participants.replyTo ++ participants.to ++ participants.cc

section soundness
variable [LawfulUnicode]

/-- **Reply recipients.** Whatever the participants of the parent are, the
    derived recipients are sound. -/
theorem deriveReplyRecipients_sound (direction : MessageDirection) (mode : ReplyMode)
    (participants : ReplyParticipants) (registered : List MailboxAddress)
    (sending : MailboxAddress) (hregistered : ∀ a ∈ registered, a.Registrable)
    (hsending : sending ∈ registered) :
    SoundRecipients direction participants registered sending
      (deriveReplyRecipients direction mode participants registered (some sending)) := by
  have hself : ∀ a ∈ [sending], a.Registrable := by
    intro a ha
    exact List.mem_singleton.mp ha ▸ hregistered sending hsending
  have hsub : ∀ a ∈ [sending], a ∈ registered := by
    intro a ha
    exact List.mem_singleton.mp ha ▸ hsending
  -- What is said of letter case is what the code checks on mailbox forms.
  have hsame : ∀ c : MailContact, SameAddress c.address.val sending.val → IsOwn [sending] c :=
    fun c h => (owned_iff hself).mpr ⟨sending, List.mem_singleton_self sending, h⟩
  have howned : ∀ c : MailContact,
      IsOwn registered c ↔ ∃ a ∈ registered, SameAddress c.address.val a.val :=
    fun c => owned_iff hregistered
  refine ⟨dedupeMailContacts_nodup _, dedupeMailContacts_nodup _, ?_, ?_, ?_, ?_, ?_⟩
  · intro c hc d hd
    exact (mem_derived_cc hd).2.2 c (mem_derived_to hc)
  · intro c hc h
    rcases List.mem_append.mp hc with hc | hc
    · exact (mem_selectTo hsending (mem_derived_to hc)).2 (hsame c h)
    · exact (mem_derived_cc hc).2.1 ((hsame c h).mono hsub)
  · intro c hc a ha h
    exact (mem_derived_cc hc).2.1 ((howned c).mpr ⟨a, ha, h⟩)
  · rintro ⟨c, hc, hown⟩ d hd
    apply (howned d).mp
    exact selectTo_owned hsending (mem_derived_to hc) ((howned c).mpr hown) d hd
  · intro c hc
    rcases List.mem_append.mp hc with hc | hc
    · exact (mem_selectTo hsending (mem_derived_to hc)).1
    · exact mem_ccSeed (mem_derived_cc hc).1

end soundness

end replies

namespace Sample

scoped instance lawfulAsciiCase : LawfulUnicode where
  ascii _ _ := rfl
  trimmed raw h := by
    have hmap : (toLowerCase raw).toList = raw.toList.map Char.toLower := String.toList_ofList
    rw [hmap, trim_map isWhiteSpace_toLower, h]

/-- The mailbox of the sample store. -/
def agentAddress : MailboxAddress := ⟨"agent@example.com", by decide +kernel⟩

theorem agentAddress_registrable : agentAddress.Registrable :=
  ⟨"agent", "example.com",
    { localPart := ⟨"agent", by decide +kernel⟩,
      domain := ⟨"example.com", by decide +kernel⟩,
      address := agentAddress }, rfl, rfl⟩

/-- Bob writes to the mailbox, in other letters, and to Carol. -/
def bobsParticipants : ReplyParticipants where
  «from» := [{ bob with displayName := some "Bob" }]
  replyTo := []
  «to» := [{ address := ⟨"Agent@example.com", by decide +kernel⟩, displayName := none }]
  cc := [{ address := ⟨"carol@example.org", by decide +kernel⟩, displayName := none }]

end Sample

section sample
open Sample

/-- The reply to Bob's message. -/
theorem deriveReplyRecipients_sound_bob :
    SoundRecipients .inbound bobsParticipants [agentAddress] agentAddress
      (deriveReplyRecipients .inbound .reply_all bobsParticipants [agentAddress]
        (some agentAddress)) := by
  refine deriveReplyRecipients_sound .inbound .reply_all bobsParticipants [agentAddress]
    agentAddress ?_ (List.mem_singleton_self _)
  intro a ha
  exact List.mem_singleton.mp ha ▸ agentAddress_registrable

end sample

end Umail
