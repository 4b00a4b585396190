import Umail.Account.Peripheral
import Umail.Account.Submission

/-! # Identifiers

  The ids in a store are minted by the server: UUIDs, and digests for what
  arrives. All that the listings need of them is that they are never empty,
  and that no character of theirs serves as a separator anywhere.
-/

namespace Umail

open Relational

/-! ### Plain ids -/

/-- A character of the ids the server mints. -/
def isMintedChar (c : Char) : Bool := c.isAlphanum || c = '-' || c = '_'

def isPlainId (id : String) : Bool := !id.toList.isEmpty && id.toList.all isMintedChar

/-- A plain id has no other character. -/
theorem isPlainId_ne {id : String} {c : Char} (h : isPlainId id = true)
    (hc : isMintedChar c = false) : c ∉ id.toList := by
  intro hmem
  have hchar := List.all_eq_true.mp (Bool.and_eq_true_iff.mp h).2 c hmem
  exact absurd (hchar.symm.trans hc) (by decide)

theorem isPlainId_ne_nil {id : String} (h : isPlainId id = true) : id.toList ≠ [] := by
  simp only [isPlainId, Bool.and_eq_true, Bool.not_eq_true', List.isEmpty_eq_false_iff] at h
  exact h.1

/-- The ids of messages, jobs and mailboxes. -/
theorem isPlainId_of_isUuid {id : String} (h : isUuid id = true) : isPlainId id = true := by
  have hchars : ∀ c ∈ id.toList, isMintedChar c = true :=
    isUuid_forall h (by decide) (by decide)
  have hlength : id.toList.length = 36 := of_decide_eq_true (Bool.and_eq_true_iff.mp h).1
  simp only [isPlainId, Bool.and_eq_true, Bool.not_eq_true', List.isEmpty_eq_false_iff]
  refine ⟨?_, List.all_eq_true.mpr hchars⟩
  intro hnil
  rw [hnil] at hlength
  exact absurd hlength (by decide)

/-- The ids of receipts, and so of inbound messages. -/
theorem isPlainId_inboundMessageId [Unicode] {sha256Hex : Bytes → String}
    (hhex : ∀ bytes, (sha256Hex bytes).toList.all isHexDigit = true) (digest «from» : String)
    («to» : MailboxAddress) :
    isPlainId (inboundMessageId sha256Hex digest «from» «to») = true := by
  have hdigit : ∀ c, isHexDigit c = true → isMintedChar c = true := by
    intro c hc
    simp only [isHexDigit, Bool.or_eq_true, Bool.and_eq_true, decide_eq_true_eq] at hc
    -- a digit, a small or a capital letter
    rcases hc with (hc | hc) | hc
    · have hdigit : c.isDigit = true := by
        simp only [Char.isDigit, Bool.and_eq_true, decide_eq_true_eq]
        exact hc
      simp [isMintedChar, Char.isAlphanum, hdigit]
    · have hz : c ≤ 'z' := le_trans hc.2 (by decide)
      have hlower : c.isLower = true :=
        Bool.and_eq_true_iff.mpr ⟨decide_eq_true hc.1, decide_eq_true hz⟩
      have halpha : c.isAlpha = true := Bool.or_eq_true_iff.mpr (.inr hlower)
      simp [isMintedChar, Char.isAlphanum, halpha]
    · have hZ : c ≤ 'Z' := le_trans hc.2 (by decide)
      have hupper : c.isUpper = true :=
        decide_eq_true ⟨hc.1, hZ⟩
      have halpha : c.isAlpha = true := Bool.or_eq_true_iff.mpr (.inl hupper)
      simp [isMintedChar, Char.isAlphanum, halpha]
  have hall := List.all_eq_true.mp
    (hhex (envelopeIdentity digest «from» «to»).toUTF8)
  have hprefix : "in_".toList.all isMintedChar = true := by decide
  simp only [isPlainId, inboundMessageId, String.toList_append, Bool.and_eq_true, List.all_append]
  exact ⟨rfl, hprefix, List.all_eq_true.mpr fun c hc => hdigit c (hall c hc)⟩

section account
variable [Unicode] {s s' : Store}

/-! ### The ids in a store -/

/-- The ids that a command brings along are plain. -/
def Command.PlainIds : Command → Prop
  | .submitOutbound _ ids =>
    isPlainId ids.messageId = true ∧ isPlainId ids.jobId = true ∧
      isPlainId ids.notificationJobId = true
  | .registerInboundReceipt input => isPlainId input.receiptId = true
  | .acceptInbound input => isPlainId input.mailboxId = true
  | .createAddress id _ _ _ _ _ => isPlainId id = true
  | _ => True

/-- The ids of the message and of its mailbox are plain. -/
def MessageRow.PlainIds (m : MessageRow) : Prop :=
  isPlainId m.id = true ∧ isPlainId m.mailbox_id = true

structure Store.PlainIds (s : Store) : Prop where
  messages : ∀ m ∈ s.messages, m.PlainIds
  jobs : ∀ j ∈ s.jobs, isPlainId j.id = true
  receipts : ∀ r ∈ s.receipts, isPlainId r.id = true
  addresses : ∀ a ∈ s.addresses, isPlainId a.id = true

theorem Store.PlainIds.empty : Store.empty.PlainIds := by
  constructor <;> exact fun _ h => absurd h Table.mem_empty

/-! ### Receipts and mailboxes -/

theorem Store.PlainIds.receipts_exec (hs : s.PlainIds) {c : Command} (hc : c.PlainIds) :
    ∀ r ∈ (s.exec c).receipts, isPlainId r.id = true := by
  intro r' hr'
  rcases (exec_receipts s c).mem_cases hr' with ⟨r, hr, hmove⟩ | hnew
  · rw [hmove.evolves.id_eq]
    exact hs.receipts r hr
  · cases c with
    | registerInboundReceipt input =>
      rw [show r' = newReceiptRow input from hnew]
      exact hc
    | _ => exact absurd hnew id

/-- The command creates the mailbox. -/
def Command.Creates (c : Command) (a : AddressRow) : Prop :=
  ∃ localPart mailDomain displayName nowIso sendingAllowed,
    c = .createAddress a.id localPart mailDomain displayName nowIso sendingAllowed

/-- Mailboxes keep their ids, and a new one has the id of its command. -/
def KeepsMailboxes (c : Command) (s s' : Store) : Prop :=
  s.addresses.Extends (fun a a' => a'.id = a.id) c.Creates s'.addresses

theorem KeepsMailboxes.refl (c : Command) (s : Store) : KeepsMailboxes c s s :=
  Table.Extends.refl (R := fun a a' : AddressRow => a'.id = a.id) (fun _ => rfl) s.addresses

theorem KeepsMailboxes.of_same {c : Command} (h : s'.addresses = s.addresses) :
    KeepsMailboxes c s s' := by
  have hrefl := KeepsMailboxes.refl c s
  unfold KeepsMailboxes at hrefl ⊢
  rwa [h]

theorem exec_mailboxes (s : Store) (c : Command) : KeepsMailboxes c s (s.exec c) := by
  by_cases hp : c.peripheral = false
  · exact .of_same (exec_peripherals hp).addresses
  -- only the commands outside the mail flow are left
  cases c with
  | createAddress id localPart mailDomain displayName nowIso sendingAllowed =>
    refine committedSnd_of (.refl _ s) fun r s' hok => ?_
    rcases createAddress_cases hok with rfl | ⟨normalized, _, _, -, hins, -, rfl⟩
    · exact .refl _ _
    · -- the new mailbox is the one that the command names
      refine Table.Extends.append (R := fun a a' : AddressRow => a'.id = a.id) (fun _ => rfl)
        (Table.insert?_rows hins) fun a ha => ?_
      obtain rfl := List.mem_singleton.mp ha
      exact ⟨localPart, mailDomain, displayName, nowIso, sendingAllowed, rfl⟩
  | patchAddress id patch nowIso =>
    refine committedSnd_of (.refl _ s) fun r s' hok => ?_
    rcases patchAddress_cases hok with rfl | rfl
    · exact .refl _ _
    · exact Table.Extends.update rfl (fun _ => rfl) fun _ _ _ => rfl
  | setAddressForwarding addressId forwardTo nowIso =>
    refine committedSnd_of (.refl _ s) fun r s' hok => ?_
    rcases setAddressForwarding_cases hok with rfl | rfl
    · exact .refl _ _
    · exact Table.Extends.update rfl (fun _ => rfl) fun _ _ _ => rfl
  | retireAddress id nowIso =>
    refine committedSnd_of (.refl _ s) fun r s' hok => ?_
    rcases retireAddress_cases hok with rfl | rfl
    · exact .refl _ _
    · exact Table.Extends.update rfl (fun _ => rfl) fun _ _ _ => rfl
  | retryAddressRouting id nowIso =>
    refine committedSnd_of (.refl _ s) fun r s' hok => ?_
    rcases retryAddressRouting_cases hok with rfl | rfl
    · exact .refl _ _
    · exact .refl _ _
  | configureSendingDomains names => exact Table.Extends.update rfl (fun _ => rfl) fun _ _ _ => rfl
  | acceptInbound input =>
    refine committedSnd_of (.refl _ s) fun r s' hok => ?_
    rcases acceptInbound_ok hok with rfl | ⟨_, -, -, -, r', s₁, hwrite, rfl⟩
    · exact .refl _ _
    · exact .of_same (writeThreadedMail_peripherals hwrite).addresses
  | registerInboundReceipt input =>
    apply KeepsMailboxes.of_same
    show (registerInboundReceipt s input).addresses = s.addresses
    unfold registerInboundReceipt
    split <;> rfl
  | writeRoute id write => exact .of_same rfl
  | observeInboundForward _ | failInboundReceiptPolicy _ _ | redriveDueInboundReceipts _ _ =>
    exact .of_same rfl
  | submitOutbound _ _ | decideApproval _ | claimJob _ | completeAttempt _
  | rejectUndispatched _ _ _ | expireDueApprovals _ | settleAbandonedClaims _
  | softDeleteThread _ _ _ | markThreadRead _ _ _ _ => exact absurd rfl hp

theorem Store.PlainIds.addresses_exec (hs : s.PlainIds) {c : Command} (hc : c.PlainIds) :
    ∀ a ∈ (s.exec c).addresses, isPlainId a.id = true := by
  intro a' ha'
  rcases (exec_mailboxes s c).mem_cases ha' with ⟨a, ha, hid⟩ | ⟨_, _, _, _, _, rfl⟩
  · rw [hid]
    exact hs.addresses a ha
  · exact hc

/-- The id of a new mailbox is a UUID, as `random.uuidV4()` draws it. -/
def Command.MintsUuid : Command → Prop
  | .createAddress id _ _ _ _ _ => isUuid id = true
  | _ => True

/-- Where the ids of new mailboxes are UUIDs, those of all mailboxes are. -/
theorem Store.ReachedBy.isUuid_address (h : s.ReachedBy Command.MintsUuid) :
    ∀ a ∈ s.addresses, isUuid a.id = true := by
  induction h with
  | empty => exact fun _ h => absurd h Table.mem_empty
  | @exec s c _ hc ih =>
    intro a' ha'
    rcases (exec_mailboxes s c).mem_cases ha' with ⟨a, ha, hid⟩ | ⟨_, _, _, _, _, rfl⟩
    · rw [hid]
      exact ih a ha
    · exact hc

/-! ### Messages and jobs -/

/-- A sender is a mailbox of the store. -/
theorem submitSender_mem {input : SubmitOutboundInput} {identity : AccountSendingIdentity}
    {fromAddress : ExternalMailAddress} (h : submitSender s input = some (identity, fromAddress)) :
    ∃ a ∈ s.addresses, a.id = identity.id := by
  unfold submitSender at h
  split at h
  · exact absurd h (by simp)
  · next found hfound =>
    obtain ⟨parsed, -, heq⟩ := Option.map_eq_some_iff.mp h
    obtain ⟨rfl, -⟩ := Prod.mk.inj heq
    obtain ⟨a, ha, rfl⟩ := Option.map_eq_some_iff.mp hfound
    exact ⟨a, Table.find?_mem ha, rfl⟩

/-- The new message of a command has plain ids. -/
theorem Store.PlainIds.messages_exec (hs : s.PlainIds) {c : Command} (hc : c.PlainIds) :
    ∀ m ∈ (s.exec c).messages, m.PlainIds := by
  have hkept : ∀ {s' : Store} {N : MessageRow → Prop},
      s.messages.Extends MessageRow.Evolves N s'.messages →
      (∀ m, N m → m.PlainIds) →
      ∀ m ∈ s'.messages, m.PlainIds := by
    intro s' N hext hnew m' hm'
    rcases hext.mem_cases hm' with ⟨m, hm, hev⟩ | hm
    · unfold MessageRow.PlainIds
      rw [hev.id_eq, hev.mailbox_eq]
      exact hs.messages m hm
    · exact hnew m' hm
  by_cases hw : c.writesMail = false
  · exact hkept (exec_noNewMail s hw).messages fun _ => False.elim
  cases c with
  | submitOutbound input ids =>
    refine committedSnd_of (P := fun s' => ∀ m ∈ s'.messages, m.PlainIds) hs.messages
      fun r s' hok => ?_
    rcases submitOutbound_ok hok with ⟨rfl, -⟩ | ⟨-, identity, fromAddress, _, hsub, -⟩
    · exact hs.messages
    · obtain ⟨r, s₁, hwrite, hframe⟩ := hsub.written
      have hmessages : s'.messages = s₁.messages := by rw [hframe]
      rw [hmessages]
      refine hkept (writeThreadedMail_messages hwrite) fun m hev => ?_
      unfold MessageRow.PlainIds
      rw [hev.id_eq, hev.mailbox_eq]
      obtain ⟨a, ha, hid⟩ := submitSender_mem hsub.sender
      have hmailbox : isPlainId identity.id = true := hid ▸ hs.addresses a ha
      exact ⟨hc.1, hmailbox⟩
  | acceptInbound input =>
    refine committedSnd_of (P := fun s' => ∀ m ∈ s'.messages, m.PlainIds) hs.messages
      fun r s' hok => ?_
    rcases acceptInbound_ok hok with rfl | ⟨receipt, hreceipt, hid, -, r', s₁, hwrite, rfl⟩
    · exact hs.messages
    · refine @hkept s₁ _ (writeThreadedMail_messages hwrite) fun m hev => ?_
      unfold MessageRow.PlainIds
      rw [hev.id_eq, hev.mailbox_eq]
      -- the new message has the id of its receipt
      have hplain := hs.receipts receipt hreceipt
      rw [hid] at hplain
      exact ⟨hplain, hc⟩
  | _ => exact absurd rfl hw

/-- The new jobs of a command have plain ids. -/
theorem Store.PlainIds.jobs_exec (hs : s.PlainIds) {c : Command} (hc : c.PlainIds) :
    ∀ j ∈ (s.exec c).jobs, isPlainId j.id = true := by
  have hstep := exec_step s c
  -- without new mail every job is an old one
  by_cases hw : c.writesMail = false
  · have hmail := (exec_noNewMail s hw).messages
    intro j' hj'
    rcases hstep.jobs.mem_cases hj' with ⟨j, hj, hmove⟩ | hnew
    · rw [hmove.request]
      exact hs.jobs j hj
    · exact (newMessage_absurd hmail ⟨hnew.1, hnew.2.imp fun _ hm => ⟨hm.1, hm.2.1⟩⟩).elim
  cases c with
  | submitOutbound input ids =>
    refine committedSnd_of (P := fun s' => ∀ j ∈ s'.jobs, isPlainId j.id = true) hs.jobs
      fun r s' hok => ?_
    rcases submitOutbound_ok hok with ⟨rfl, -⟩ | ⟨-, identity, fromAddress, _, hsub, -⟩
    · exact hs.jobs
    · intro j hj
      -- the two ids of a submit are its job and its notification
      rcases hsub.job_cases hj with hj | rfl | ⟨-, rfl⟩
      · exact hs.jobs j hj
      · exact hc.2.1
      · exact hc.2.2
  | acceptInbound input =>
    refine committedSnd_of (P := fun s' => ∀ j ∈ s'.jobs, isPlainId j.id = true) hs.jobs
      fun r s' hok => ?_
    rcases acceptInbound_ok hok with rfl | ⟨_, -, -, -, r', s₁, hwrite, rfl⟩
    · exact hs.jobs
    · have hjobs : s₁.jobs = s.jobs := by rw [writeThreadedMail_frame hwrite]
      show ∀ j ∈ s₁.jobs, _
      rw [hjobs]
      exact hs.jobs
  | _ => exact absurd rfl hw

/-! ### Runs -/

theorem Store.PlainIds.exec (hs : s.PlainIds) {c : Command} (hc : c.PlainIds) :
    (s.exec c).PlainIds where
  messages := hs.messages_exec hc
  jobs := hs.jobs_exec hc
  receipts := hs.receipts_exec hc
  addresses := hs.addresses_exec hc

/-- `s'` comes after `s`, by commands with plain ids. -/
def Store.After (s s' : Store) : Prop :=
  ∃ cs, accountStore.RunBy (fun _ c _ => c.PlainIds) s cs s'

theorem Store.After.plainIds (h : s.After s') (hs : s.PlainIds) : s'.PlainIds := by
  obtain ⟨cs, hrun⟩ := h
  refine hrun.invariant (fun s c s' hs hstep hc => ?_) hs
  obtain rfl := Option.some.inj hstep
  exact hs.exec hc

theorem Store.After.trans {s'' : Store} (h : s.After s') (h' : s'.After s'') : s.After s'' := by
  obtain ⟨cs, hrun⟩ := h
  obtain ⟨cs', hrun'⟩ := h'
  exact ⟨cs ++ cs', hrun.append hrun'⟩

theorem Store.After.evolves (h : s.After s') : s.Evolves s' := by
  obtain ⟨cs, hrun⟩ := h
  exact run_evolves hrun.run

theorem Store.After.reachable (h : s.After s') (hs : s.Reachable) : s'.Reachable := by
  obtain ⟨cs, hrun⟩ := h
  exact hrun.run.reachable hs

end account

namespace Sample

theorem waitingStore_plainIds : waitingStore.PlainIds := by
  have hmailbox : (Command.createAddress "mailbox-1" "agent" "example.com" none 10 true).PlainIds :=
    show isPlainId "mailbox-1" = true by decide
  have hids : (Command.submitOutbound submit ids).PlainIds := ⟨by decide, by decide, by decide⟩
  exact (Store.PlainIds.empty.exec hmailbox).exec hids

end Sample

end Umail
