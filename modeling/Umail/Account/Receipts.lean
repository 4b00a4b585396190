import Mathlib.Data.Prod.Lex
import Umail.Account.DueWork
import Umail.Account.Evolution
import Umail.Account.Peripheral

/-! # The life of a receipt

  What commands do to the receipts and to the rows of messages: a receipt
  leaves `ready` once and for good, only `registerInboundReceipt` adds one,
  and only `submitOutbound` and `acceptInbound` add a message. A receipt that
  is `ready` is scheduled: the alarm is armed for it, and the pass after that
  sends it to the queue again.
-/

namespace Umail

open Relational

/-! ### Rows -/

/-- A later version of a receipt. Once settled, it keeps its work state. -/
structure InboundReceiptRow.Evolves (r r' : InboundReceiptRow) : Prop where
  columns : r' = { r with
    forward_outcome := r'.forward_outcome
    forward_destination := r'.forward_destination
    work_state := r'.work_state
    policy_error := r'.policy_error
    retry_after := r'.retry_after }
  settled : r.work_state ≠ .ready →
    r'.work_state = r.work_state ∧ r'.policy_error = r.policy_error

namespace InboundReceiptRow.Evolves

variable {r r' r'' : InboundReceiptRow}

theorem refl (r : InboundReceiptRow) : r.Evolves r := ⟨rfl, fun _ => ⟨rfl, rfl⟩⟩

theorem trans (h : r.Evolves r') (h' : r'.Evolves r'') : r.Evolves r'' := by
  refine ⟨?_, fun hr => ?_⟩
  · rw [h'.columns, h.columns]
  · obtain ⟨hstate, herror⟩ := h.settled hr
    obtain ⟨hstate', herror'⟩ := h'.settled (hstate ▸ hr)
    exact ⟨hstate'.trans hstate, herror'.trans herror⟩

theorem id_eq (h : r.Evolves r') : r'.id = r.id := by
  rw [h.columns]

theorem raw_key_eq (h : r.Evolves r') : r'.raw_key = r.raw_key := by
  rw [h.columns]

theorem envelope_from_eq (h : r.Evolves r') : r'.envelope_from = r.envelope_from := by
  rw [h.columns]

theorem envelope_to_eq (h : r.Evolves r') : r'.envelope_to = r.envelope_to := by
  rw [h.columns]

end InboundReceiptRow.Evolves

variable [Unicode] {s s' : Store}

/-! ### Receipts -/

/-- How a command settles a ready receipt. -/
def Command.Settles : Command → InboundReceiptRow → ReceiptWorkState → Prop
  | .acceptInbound input, r, state => r.id = input.messageId ∧ state = .indexed
  | .failInboundReceiptPolicy receiptId _, r, state => r.id = receiptId ∧ state = .policy_failed
  | _, _, _ => False

/-- What a command does to one receipt. -/
structure Command.Moves (c : Command) (r r' : InboundReceiptRow) : Prop where
  evolves : r.Evolves r'
  state : r'.work_state = r.work_state ∨ r.work_state = .ready ∧ c.Settles r r'.work_state

theorem Command.Moves.refl {c : Command} (r : InboundReceiptRow) : c.Moves r r :=
  ⟨.refl r, .inl rfl⟩

/-- Only `acceptInbound` indexes a receipt. -/
theorem Command.Settles.indexed {c : Command} {r : InboundReceiptRow} (h : c.Settles r .indexed) :
    ∃ input, c = .acceptInbound input ∧ r.id = input.messageId := by
  cases c with
  | acceptInbound input => exact ⟨input, rfl, h.1⟩
  | failInboundReceiptPolicy receiptId reason => exact absurd h.2 (by simp)
  | _ => exact absurd h id

theorem Command.Moves.indexed_iff {c : Command} {r r' : InboundReceiptRow} (h : c.Moves r r')
    (hc : ¬ c.Settles r .indexed) : r'.work_state = .indexed ↔ r.work_state = .indexed := by
  rcases h.state with heq | ⟨hready, hsettles⟩
  · rw [heq]
  · constructor
    · intro hindexed
      exact absurd (hindexed ▸ hsettles) hc
    · intro hindexed
      exact absurd (hready.symm.trans hindexed) (by simp)

/-- The receipt a command adds. -/
def Command.Registers : Command → InboundReceiptRow → Prop
  | .registerInboundReceipt input, r => r = newReceiptRow input
  | _, _ => False

theorem Command.Registers.ready {c : Command} {r : InboundReceiptRow} (h : c.Registers r) :
    r.work_state = .ready := by
  cases c with
  | registerInboundReceipt input =>
    rw [show r = newReceiptRow input from h]
    rfl
  | _ => exact absurd h id

/-- Two receipts with one id are one receipt. -/
theorem receipt_unique {r r' : InboundReceiptRow} (hr : r ∈ s.receipts) (hr' : r' ∈ s.receipts)
    (hid : r.id = r'.id) : r = r' := s.receipts.eq_of_clash hr hr' hid

theorem readInboundReceipt_some {id : String} {r : InboundReceiptRow}
    (h : readInboundReceipt s id = some r) : r ∈ s.receipts ∧ r.id = id :=
  ⟨Table.find?_mem h, by simpa using Table.find?_prop h⟩

theorem readInboundReceipt_mem {r : InboundReceiptRow} (hr : r ∈ s.receipts) :
    readInboundReceipt s r.id = some r := by
  refine Table.find?_eq_some_of_mem (fun a b ha hb => ?_) hr (by simp)
  simp only [decide_eq_true_eq] at ha hb
  exact ha.trans hb.symm

/-- After a registration there is a receipt with that id, the new one or an old one. -/
theorem registered_mem (s : Store) (input : RegisterInboundReceiptInput) :
    ∃ r ∈ (registerInboundReceipt s input).receipts, r.id = input.receiptId ∧
      (r ∈ s.receipts ∨ r = newReceiptRow input) := by
  unfold registerInboundReceipt
  cases hins : s.receipts.insert? (newReceiptRow input) with
  | some receipts =>
    exact ⟨newReceiptRow input, (Table.mem_insert? hins).mpr (.inr rfl), rfl, .inr rfl⟩
  | none =>
    -- the insert fails only on a receipt with the same id
    have hclash : ∃ x ∈ s.receipts, x.id = input.receiptId := by
      by_contra hno
      obtain ⟨t, ht⟩ := Table.insert?_isSome (t := s.receipts) (r := newReceiptRow input)
        fun x hx hclash => hno ⟨x, hx, hclash⟩
      rw [hins] at ht
      exact absurd ht (by simp)
    obtain ⟨x, hx, hid⟩ := hclash
    exact ⟨x, hx, hid, .inl hx⟩

theorem committedSnd_receipts {α : Type} {r : Except StoreError (α × Store)}
    (h : ∀ a s', r = .ok (a, s') → s'.receipts = s.receipts) :
    (committedSnd s r).receipts = s.receipts :=
  committedSnd_of (P := fun s' => s'.receipts = s.receipts) rfl h

/-- A receipt after an observation of its forward. -/
def InboundReceiptRow.observed (r : InboundReceiptRow) (input : ObserveInboundForwardInput) :
    InboundReceiptRow :=
  if r.id = input.receiptId && forwardMoves r input.kind then
    { r with
      forward_outcome := input.kind.outcome
      forward_destination := some input.destination }
  else r

/-- What a command does to the table of receipts. -/
inductive ReceiptsChange (c : Command) (t : Table InboundReceiptRow) :
    Table InboundReceiptRow → Prop where
  | same : ReceiptsChange c t t
  | registers (input : RegisterInboundReceiptInput) (t' : Table InboundReceiptRow) :
    c = .registerInboundReceipt input → t.insert? (newReceiptRow input) = some t' →
    ReceiptsChange c t t'
  | observes (input : ObserveInboundForwardInput) (t' : Table InboundReceiptRow) :
    c = .observeInboundForward input →
    t'.rows = t.rows.map (·.observed input) → ReceiptsChange c t t'
  /-- The columns of the forward are left alone. -/
  | moves (p : InboundReceiptRow → Bool) (f : InboundReceiptRow → InboundReceiptRow)
      (t' : Table InboundReceiptRow) :
    (t'.rows = t.rows.map fun r => if p r then f r else r) →
    (∀ r ∈ t, p r = true → c.Moves r (f r)) →
    (∀ r, (f r).forward_outcome = r.forward_outcome ∧
      (f r).forward_destination = r.forward_destination) →
    ReceiptsChange c t t'

theorem ReceiptsChange.of_eq {c : Command} {t t' : Table InboundReceiptRow} (h : t' = t) :
    ReceiptsChange c t t' := by
  rw [h]
  exact .same

theorem exec_receiptsChange (s : Store) (c : Command) :
    ReceiptsChange c s.receipts (s.exec c).receipts := by
  by_cases hp : c.peripheral = false
  · exact .of_eq (exec_peripherals hp).receipts
  cases c with
  | acceptInbound input =>
    show ReceiptsChange _ s.receipts (committedSnd s (acceptInbound s input)).receipts
    rcases committedSnd_cases (s := s) (r := acceptInbound s input) with heq | ⟨r, s', hok, heq⟩
    · rw [heq]
      exact .same
    · rw [heq]
      rcases acceptInbound_ok hok with rfl |
        ⟨receipt, hreceipt, hid, hready, r', s₁, hwrite, rfl⟩
      · exact .same
      · have hsame : s₁.receipts = s.receipts := (writeThreadedMail_peripherals hwrite).receipts
        refine .moves (fun r => r.id = input.messageId) (fun r => { r with work_state := .indexed })
          _ (by rw [← hsame]; rfl) ?_ fun _ => ⟨rfl, rfl⟩
        intro r hr hp
        -- the only receipt with the id of the input is the ready one
        obtain rfl : r = receipt :=
          receipt_unique hr hreceipt ((of_decide_eq_true hp).trans hid.symm)
        exact ⟨⟨rfl, fun hne => absurd hready hne⟩, .inr ⟨hready, hid, rfl⟩⟩
  | registerInboundReceipt input =>
    show ReceiptsChange _ s.receipts (registerInboundReceipt s input).receipts
    unfold registerInboundReceipt
    split
    · next receipts hins => exact .registers input receipts rfl hins
    · exact .same
  | observeInboundForward input => exact .observes input _ rfl rfl
  | failInboundReceiptPolicy receiptId reason =>
    refine .moves (fun r => r.id = receiptId && r.work_state = .ready)
      (fun r => { r with work_state := .policy_failed, policy_error := some reason }) _ rfl ?_
      fun _ => ⟨rfl, rfl⟩
    intro r _ hr
    have hid : r.id = receiptId := of_decide_eq_true (Bool.and_eq_true_iff.mp hr).1
    have hready : r.work_state = .ready := of_decide_eq_true (Bool.and_eq_true_iff.mp hr).2
    exact ⟨⟨rfl, fun hne => absurd hready hne⟩, .inr ⟨hready, hid, rfl⟩⟩
  | redriveDueInboundReceipts nowIso limit =>
    exact .moves _ _ _ rfl (fun _ _ _ => ⟨⟨rfl, fun _ => ⟨rfl, rfl⟩⟩, .inl rfl⟩)
      fun _ => ⟨rfl, rfl⟩
  | createAddress id localPart mailDomain displayName nowIso sendingAllowed =>
    exact .of_eq (committedSnd_receipts fun _ _ hok => (createAddress_ok hok).receipts)
  | patchAddress id patch nowIso =>
    exact .of_eq (committedSnd_receipts fun _ _ hok =>
      (Administered.of_addresses (patchAddress_ok hok)).receipts)
  | setAddressForwarding addressId forwardTo nowIso =>
    exact .of_eq (committedSnd_receipts fun _ _ hok =>
      (Administered.of_addresses (setAddressForwarding_ok hok)).receipts)
  | retireAddress id nowIso =>
    exact .of_eq (committedSnd_receipts fun _ _ hok => (retireAddress_ok hok).receipts)
  | retryAddressRouting id nowIso =>
    exact .of_eq (committedSnd_receipts fun _ _ hok => (retryAddressRouting_ok hok).receipts)
  | configureSendingDomains names => exact .same
  | writeRoute id write => exact .same
  | submitOutbound _ _ | decideApproval _ | claimJob _ | completeAttempt _
  | rejectUndispatched _ _ _ | expireDueApprovals _ | settleAbandonedClaims _
  | softDeleteThread _ _ _ | markThreadRead _ _ _ _ => exact absurd rfl hp

/-- **Receipts.** Every command keeps every receipt and moves it at most one
    step; only a registration adds one. -/
theorem exec_receipts (s : Store) (c : Command) :
    s.receipts.Extends c.Moves c.Registers (s.exec c).receipts := by
  have hchange := exec_receiptsChange s c
  generalize (s.exec c).receipts = t' at hchange ⊢
  cases hchange with
  | same => exact .refl Command.Moves.refl _
  | registers input _ hc hins =>
    refine .append Command.Moves.refl (Table.insert?_rows hins) fun r hr => ?_
    rw [hc, List.mem_singleton.mp hr]
    rfl
  | observes input _ _ hrows =>
    exact .update hrows Command.Moves.refl fun _ _ _ =>
      ⟨⟨rfl, fun _ => ⟨rfl, rfl⟩⟩, .inl rfl⟩
  | moves p f _ hrows hmoves _ => exact .update hrows Command.Moves.refl hmoves

/-! ### Forwards -/

/-- The recorded outcome of the native forward of a receipt and its
    destination; that of a receipt that is not registered is `none`. -/
def Store.forwarding (s : Store) (receiptId : String) : ForwardOutcome × Option String :=
  match readInboundReceipt s receiptId with
  | some receipt => (receipt.forward_outcome, receipt.forward_destination)
  | none => (.none, none)

theorem forwarding_of_mem {r : InboundReceiptRow} (hr : r ∈ s.receipts) :
    s.forwarding r.id = (r.forward_outcome, r.forward_destination) := by
  unfold Store.forwarding
  rw [readInboundReceipt_mem hr]

theorem forwarding_of_absent {receiptId : String} (h : ∀ r ∈ s.receipts, r.id ≠ receiptId) :
    s.forwarding receiptId = (.none, none) := by
  unfold Store.forwarding
  cases hread : readInboundReceipt s receiptId with
  | none => rfl
  | some r =>
    obtain ⟨hr, hid⟩ := readInboundReceipt_some hread
    exact absurd hid (h r hr)

/-- A receipt with a recorded outcome is registered. -/
theorem registered_of_forwarding {receiptId : String}
    (h : (s.forwarding receiptId).1 ≠ .none) : ∃ r ∈ s.receipts, r.id = receiptId := by
  by_contra hno
  refine h ?_
  rw [forwarding_of_absent fun r hr hid => hno ⟨r, hr, hid⟩]

/-- Only an observation changes what is recorded of a forward. -/
theorem exec_forwarding {c : Command} (hc : ∀ input, c ≠ .observeInboundForward input)
    (receiptId : String) : (s.exec c).forwarding receiptId = s.forwarding receiptId := by
  -- receipts keep what is recorded about the forwarding, and new ones have nothing
  have hext : s.receipts.Extends
      (fun r r' => r'.id = r.id ∧ r'.forward_outcome = r.forward_outcome ∧
        r'.forward_destination = r.forward_destination)
      (fun r => r.forward_outcome = .none ∧ r.forward_destination = none)
      (s.exec c).receipts := by
    have hchange := exec_receiptsChange s c
    generalize (s.exec c).receipts = t' at hchange ⊢
    cases hchange with
    | same => exact .refl (fun _ => ⟨rfl, rfl, rfl⟩) _
    | registers input _ _ hins =>
      refine .append (fun _ => ⟨rfl, rfl, rfl⟩) (Table.insert?_rows hins) fun r hr => ?_
      rw [List.mem_singleton.mp hr]
      exact ⟨rfl, rfl⟩
    | observes input _ heq _ => exact absurd heq (hc input)
    | moves p f _ hrows hmoves hkeeps =>
      exact .update hrows (fun _ => ⟨rfl, rfl, rfl⟩)
        fun r hr hp => ⟨(hmoves r hr hp).evolves.id_eq, hkeeps r⟩
  by_cases hreceipt : ∃ r ∈ s.receipts, r.id = receiptId
  · obtain ⟨r, hr, rfl⟩ := hreceipt
    obtain ⟨r', hr', hid, houtcome, hdestination⟩ := hext.exists_mem hr
    rw [forwarding_of_mem hr, ← hid, forwarding_of_mem hr', houtcome, hdestination]
  · -- no such receipt before: if there is one now it is new
    have hold : s.forwarding receiptId = (.none, none) :=
      forwarding_of_absent fun r hr hid => hreceipt ⟨r, hr, hid⟩
    rw [hold]
    by_cases hnew : ∃ r' ∈ (s.exec c).receipts, r'.id = receiptId
    · obtain ⟨r', hr', rfl⟩ := hnew
      rcases hext.mem_cases hr' with ⟨r, hr, hid, -⟩ | ⟨houtcome, hdestination⟩
      · exact absurd ⟨r, hr, hid.symm⟩ hreceipt
      · rw [forwarding_of_mem hr', houtcome, hdestination]
    · exact forwarding_of_absent fun r hr hid => hnew ⟨r, hr, hid⟩

/-- When an observation applies. -/
theorem observeInboundForward_applies {input : ObserveInboundForwardInput} :
    (observeInboundForward s input).1 = true ↔
      (∃ r ∈ s.receipts, r.id = input.receiptId) ∧
      ((s.forwarding input.receiptId).1 = .none ∨ (s.forwarding input.receiptId).1 = .unknown) ∧
      (s.forwarding input.receiptId).1 ≠ input.kind.outcome := by
  have hrow : ∀ r ∈ s.receipts, r.id = input.receiptId →
      (s.forwarding input.receiptId).1 = r.forward_outcome := by
    intro r hr hid
    rw [← hid, forwarding_of_mem hr]
  simp only [observeInboundForward, Bool.not_eq_true', List.isEmpty_eq_false_iff_exists_mem,
    Table.mem_select, Bool.and_eq_true, decide_eq_true_eq, forwardMoves, Bool.or_eq_true]
  constructor
  · intro ⟨r, hr, hid, hmoves⟩
    rw [hrow r hr hid]
    exact ⟨⟨r, hr, hid⟩, hmoves⟩
  · intro ⟨⟨r, hr, hid⟩, hmoves⟩
    rw [hrow r hr hid] at hmoves
    exact ⟨r, hr, hid, hmoves⟩

/-- What an observation records. -/
theorem observe_forwarding (s : Store) (input : ObserveInboundForwardInput) (receiptId : String) :
    (s.exec (.observeInboundForward input)).forwarding receiptId =
      if receiptId = input.receiptId ∧ (observeInboundForward s input).1 = true then
        (input.kind.outcome, some input.destination)
      else s.forwarding receiptId := by
  have hmem : ∀ r', r' ∈ (s.exec (.observeInboundForward input)).receipts ↔
      ∃ r ∈ s.receipts, r.observed input = r' := fun r' => Table.mem_of_map rfl
  by_cases hreceipt : ∃ r ∈ s.receipts, r.id = receiptId
  · obtain ⟨r, hr, rfl⟩ := hreceipt
    -- the update and the answer test the same row
    have happlies : (r.id = input.receiptId ∧ (observeInboundForward s input).1 = true) ↔
        (r.id = input.receiptId && forwardMoves r input.kind) = true := by
      rw [Bool.and_eq_true, decide_eq_true_eq]
      refine and_congr_right fun hid => ?_
      rw [observeInboundForward_applies, ← hid, forwarding_of_mem hr]
      simp only [forwardMoves, Bool.and_eq_true, Bool.or_eq_true, decide_eq_true_eq]
      exact ⟨And.right, fun h => ⟨⟨r, hr, rfl⟩, h⟩⟩
    have hr' := (hmem _).mpr ⟨r, hr, rfl⟩
    unfold InboundReceiptRow.observed at hr'
    by_cases happlied : (r.id = input.receiptId && forwardMoves r input.kind) = true
    · rw [if_pos happlied] at hr'
      rw [if_pos (happlies.mpr happlied)]
      exact forwarding_of_mem hr'
    · rw [if_neg happlied] at hr'
      rw [if_neg (mt happlies.mp happlied), forwarding_of_mem hr, forwarding_of_mem hr']
  · -- no such receipt: nothing is written and nothing is read
    have hnone : ¬ (receiptId = input.receiptId ∧ (observeInboundForward s input).1 = true) := by
      rintro ⟨rfl, happlies⟩
      exact hreceipt (observeInboundForward_applies.mp happlies).1
    rw [if_neg hnone, forwarding_of_absent fun r hr hid => hreceipt ⟨r, hr, hid⟩]
    refine forwarding_of_absent fun r' hr' hid => hreceipt ?_
    obtain ⟨r, hr, rfl⟩ := (hmem r').mp hr'
    refine ⟨r, hr, Eq.trans ?_ hid⟩
    unfold InboundReceiptRow.observed
    split <;> rfl

/-! ### Messages -/

/-- The messages a command adds. -/
def Command.WritesMessage : Command → MessageRow → Prop
  | .submitOutbound _ ids, m => m.id = ids.messageId ∧ m.direction = .outbound
  | .acceptInbound input, m => m.id = input.messageId ∧ m.direction = .inbound
  | _, _ => False

/-- A message that is added is outbound, or the one of an `acceptInbound`. -/
theorem Command.WritesMessage.cases {c : Command} {m : MessageRow} (h : c.WritesMessage m) :
    m.direction = .outbound ∨
      ∃ input, c = .acceptInbound input ∧ m.id = input.messageId ∧
        m.direction = .inbound := by
  cases c with
  | submitOutbound input ids => exact .inl h.2
  | acceptInbound input => exact .inr ⟨input, rfl, h⟩
  | _ => exact absurd h id

theorem insertMail_error {write : ThreadedMailWrite} {e : StoreError}
    (h : insertMail s write = .error e) : e = .constraint := by
  rcases bind_eq_error.mp h with h | ⟨messages, -, h⟩
  · exact inserted_eq_error h
  rcases bind_eq_error.mp h with h | ⟨references, -, h⟩
  · exact inserted_eq_error h
  rcases bind_eq_error.mp h with h | ⟨participants, -, h⟩
  · exact inserted_eq_error h
  rcases bind_eq_error.mp h with h | ⟨attachments, -, h⟩
  · exact inserted_eq_error h
  · exact absurd h (by simp [pure, Except.pure])

theorem linkThread_error {messageId : String} {e : StoreError}
    (h : linkThread s messageId = .error e) : e = .missing messageId := by
  unfold linkThread at h
  split at h
  · exact (Except.error.inj h).symm
  · split at h
    · exact (Except.error.inj h).symm
    · split at h <;> exact absurd h (by simp)

/-- A write conflicts only with a stored message of the same id. -/
theorem writeThreadedMail_conflict {write : ThreadedMailWrite} {messageId : String}
    (h : writeThreadedMail s write = .error (.messageConflict messageId)) :
    ∃ m ∈ s.messages, m.id = write.input.messageId := by
  unfold writeThreadedMail at h
  split at h
  · next m hm => exact ⟨m, Table.find?_mem hm, by simpa using Table.find?_prop hm⟩
  · rcases bind_eq_error.mp h with h | ⟨s₁, -, h⟩
    · exact absurd (insertMail_error h) (by simp)
    · rcases bind_eq_error.mp h with h | ⟨⟨threadId, s₂⟩, -, h⟩
      · exact absurd (linkThread_error h) (by simp)
      · exact absurd h (by simp [pure, Except.pure])

/-- The attachments a command adds. -/
def Command.WritesAttachment : Command → AttachmentRow → Prop
  | .acceptInbound input, a => a ∈ newAttachmentRows input.messageId input.nowIso
      input.attachments
  | _, _ => False

/-- Messages may be rewritten, but none is added. -/
structure NoNewMail (s s' : Store) : Prop where
  messages : s.messages.Extends MessageRow.Evolves (fun _ => False) s'.messages
  attachments : s'.attachments = s.attachments

theorem SameMail.noNewMail (h : SameMail s s') : NoNewMail s s' := by
  refine ⟨?_, h.attachments⟩
  rw [h.messages]
  exact .refl MessageRow.Evolves.refl _

theorem NoNewMail.of_messages (hmessages : s'.messages = s.messages)
    (hattachments : s'.attachments = s.attachments) : NoNewMail s s' := by
  refine ⟨?_, hattachments⟩
  rw [hmessages]
  exact .refl MessageRow.Evolves.refl _

theorem NoNewMail.of_committedSnd {α : Type} {r : Except StoreError (α × Store)}
    (h : ∀ a s', r = .ok (a, s') → NoNewMail s s') : NoNewMail s (committedSnd s r) :=
  committedSnd_of (SameMail.refl s).noNewMail h

theorem NoNewMail.of_committed {r : Except StoreError Store}
    (h : ∀ s', r = .ok s' → NoNewMail s s') : NoNewMail s (committed s r) :=
  committed_of (SameMail.refl s).noNewMail h

/-- The command can write a new message. -/
def Command.writesMail : Command → Bool
  | .submitOutbound _ _ => true
  | .acceptInbound _ => true
  | _ => false

/-- No other command adds a message. -/
theorem exec_noNewMail (s : Store) {c : Command} (h : c.writesMail = false) :
    NoNewMail s (s.exec c) := by
  have hrefl : NoNewMail s s := (SameMail.refl s).noNewMail
  cases c with
  | submitOutbound input ids => exact absurd h (by simp [Command.writesMail])
  | acceptInbound input => exact absurd h (by simp [Command.writesMail])
  | decideApproval input =>
    refine .of_committedSnd ?_
    intro r s' hok
    rcases decideApproval_ok hok with rfl | ⟨a, -, -, -, j, -, -, -, rfl⟩
    · exact hrefl
    · unfold applyDecision
      cases input.decision <;> exact .of_messages rfl rfl
  | claimJob input =>
    refine .of_committedSnd ?_
    intro r s' hok
    rcases claimJob_ok hok with ⟨rfl, -⟩ | ⟨j, -, -, ⟨_, -, rfl, -⟩ | ⟨-, rfl, -⟩⟩
    · exact hrefl
    · exact .of_messages rfl rfl
    · exact .of_messages rfl rfl
  | completeAttempt input =>
    refine .of_committedSnd ?_
    intro r s' hok
    rcases completeAttempt_ok hok with rfl | ⟨j, -, -, -, -, hrecord⟩
    · exact hrefl
    · exact ⟨recordOutcome_messages hrecord, (recordOutcome_frame hrecord).2.2⟩
  -- these write jobs and approvals only
  | rejectUndispatched messageIds failure nowIso => exact .of_messages rfl rfl
  | expireDueApprovals nowIso => exact .of_messages rfl rfl
  | settleAbandonedClaims nowIso => exact .of_messages rfl rfl
  | softDeleteThread handle scope deletedAt =>
    refine .of_committed ?_
    intro s' hok
    -- rows are marked as deleted, none is added
    obtain ⟨threadId, -, rfl⟩ := softDeleteThread_ok hok
    exact ⟨deleteLive_messages threadId scope deletedAt, rfl⟩
  | markThreadRead handle isRead scope nowIso =>
    refine .of_committed ?_
    intro s' hok
    obtain ⟨threadId, rfl⟩ := markThreadRead_ok hok
    exact ⟨.update rfl MessageRow.Evolves.refl fun _ _ _ => ⟨rfl, fun _ h => h⟩, rfl⟩
  | registerInboundReceipt input => exact (registerInboundReceipt_sameMail s input).noNewMail
  | createAddress id localPart mailDomain displayName nowIso sendingAllowed =>
    exact .of_committedSnd fun _ _ hok => (createAddress_ok hok).sameMail.noNewMail
  | patchAddress id patch nowIso =>
    exact .of_committedSnd fun _ _ hok =>
      (Administered.of_addresses (patchAddress_ok hok)).sameMail.noNewMail
  | setAddressForwarding addressId forwardTo nowIso =>
    exact .of_committedSnd fun _ _ hok =>
      (Administered.of_addresses (setAddressForwarding_ok hok)).sameMail.noNewMail
  | retireAddress id nowIso =>
    exact .of_committedSnd fun _ _ hok => (retireAddress_ok hok).sameMail.noNewMail
  | retryAddressRouting id nowIso =>
    exact .of_committedSnd fun _ _ hok => (retryAddressRouting_ok hok).sameMail.noNewMail
  | observeInboundForward _ | failInboundReceiptPolicy _ _ | redriveDueInboundReceipts _ _
  | configureSendingDomains _ | writeRoute _ _ => exact .of_messages rfl rfl

/-- **New mail.** The messages and the attachments a command adds are its own. -/
theorem exec_newMail (s : Store) (c : Command) :
    s.messages.Extends MessageRow.Evolves c.WritesMessage (s.exec c).messages ∧
      s.attachments.Extends Eq c.WritesAttachment (s.exec c).attachments := by
  have hrefl : ∀ s' : Store, NoNewMail s s' →
      s.messages.Extends MessageRow.Evolves c.WritesMessage s'.messages ∧
        s.attachments.Extends Eq c.WritesAttachment s'.attachments := by
    intro s' hsame
    refine ⟨hsame.messages.mono (fun _ _ hev => hev) fun _ => False.elim, ?_⟩
    rw [hsame.attachments]
    exact .refl (fun _ => rfl) _
  -- only a submit and an acceptance remain
  by_cases hw : c.writesMail = false
  · exact hrefl _ (exec_noNewMail s hw)
  cases c with
  | submitOutbound input ids =>
    show s.messages.Extends _ _ (committedSnd s (submitOutbound s input ids)).messages ∧
      s.attachments.Extends _ _ (committedSnd s (submitOutbound s input ids)).attachments
    rcases committedSnd_cases (s := s) (r := submitOutbound s input ids) with
      heq | ⟨r, s', hok, heq⟩
    · rw [heq]
      exact hrefl s (SameMail.refl s).noNewMail
    · rw [heq]
      rcases submitOutbound_ok hok with ⟨rfl, -⟩ | ⟨-, identity, fromAddress, _, hsub, -⟩
      · exact hrefl _ (SameMail.refl _).noNewMail
      · obtain ⟨r, s₁, hwrite, hs'⟩ := hsub.written
        have hmessages : s'.messages = s₁.messages := by rw [hs']
        have hattachments : s'.attachments = s₁.attachments := by rw [hs']
        rw [hmessages, hattachments]
        refine ⟨(writeThreadedMail_messages hwrite).mono (fun _ _ hev => hev) ?_, ?_⟩
        · intro m hm
          exact ⟨hm.id_eq, by rw [hm.columns]; rfl⟩
        · -- outbound mail has no attachments
          exact .append (fun _ => rfl) (writeThreadedMail_rows hwrite).2.2
            fun a ha => absurd ha List.not_mem_nil
  | acceptInbound input =>
    show s.messages.Extends _ _ (committedSnd s (acceptInbound s input)).messages ∧
      s.attachments.Extends _ _ (committedSnd s (acceptInbound s input)).attachments
    rcases committedSnd_cases (s := s) (r := acceptInbound s input) with heq | ⟨r, s', hok, heq⟩
    · rw [heq]
      exact hrefl s (SameMail.refl s).noNewMail
    · rw [heq]
      rcases acceptInbound_ok hok with rfl | ⟨receipt, -, -, -, r', s₁, hwrite, rfl⟩
      · exact hrefl _ (SameMail.refl _).noNewMail
      · refine ⟨(writeThreadedMail_messages hwrite).mono (fun _ _ hev => hev) ?_, ?_⟩
        · intro m hm
          exact ⟨hm.id_eq, by rw [hm.columns]; rfl⟩
        · exact .append (fun _ => rfl) (writeThreadedMail_rows hwrite).2.2 fun _ ha => ha
  | decideApproval _ | claimJob _ | completeAttempt _ | rejectUndispatched _ _ _
  | expireDueApprovals _ | settleAbandonedClaims _ | softDeleteThread _ _ _
  | markThreadRead _ _ _ _ | registerInboundReceipt _ | observeInboundForward _
  | failInboundReceiptPolicy _ _ | redriveDueInboundReceipts _ _ | createAddress _ _ _ _ _ _
  | patchAddress _ _ _ | setAddressForwarding _ _ _ | retireAddress _ _
  | retryAddressRouting _ _ | configureSendingDomains _ | writeRoute _ _ => exact absurd rfl hw

/-! ### Redriving -/

omit [Unicode] in
theorem redriveOrder_iff {a b : InboundReceiptRow} :
    redriveOrder a b ↔ toLex (a.retry_after, a.id) ≤ toLex (b.retry_after, b.id) := by
  rw [Prod.Lex.toLex_le_toLex]
  rfl

omit [Unicode] in
theorem redriveOrder_total (a b : InboundReceiptRow) : redriveOrder a b ∨ redriveOrder b a := by
  simp only [redriveOrder_iff]
  exact le_total _ _

omit [Unicode] in
theorem redriveOrder_trans {a b c : InboundReceiptRow} (hab : redriveOrder a b)
    (hbc : redriveOrder b c) : redriveOrder a c := by
  rw [redriveOrder_iff] at hab hbc ⊢
  exact le_trans hab hbc

/-- A due receipt is selected, unless the limit is used up by receipts that
    come before it. -/
theorem mem_dueReceipts {r : InboundReceiptRow} (hr : r ∈ s.receipts)
    (hready : r.work_state = .ready) {nowIso : Instant} (hdue : r.retry_after ≤ nowIso)
    (limit : Nat) : r ∈ dueReceipts s nowIso limit ∨
      ((dueReceipts s nowIso limit).length = limit ∧
        ∀ r' ∈ dueReceipts s nowIso limit, redriveOrder r' r) := by
  have htotal : Std.Total redriveOrder := ⟨redriveOrder_total⟩
  have htrans : IsTrans InboundReceiptRow redriveOrder := ⟨fun _ _ _ => redriveOrder_trans⟩
  set sorted := (s.receipts.select fun r =>
    r.work_state = .ready && r.retry_after ≤ nowIso).insertionSort redriveOrder with hsorted_def
  have hsorted : sorted.Pairwise redriveOrder := List.pairwise_insertionSort redriveOrder _
  have hmem : r ∈ sorted := by
    rw [hsorted_def, List.mem_insertionSort, Table.mem_select]
    exact ⟨hr, by simp [hready, hdue]⟩
  -- either side of the cut at the limit
  rw [← List.take_append_drop limit sorted] at hmem hsorted
  rcases List.mem_append.mp hmem with htake | hdrop
  · exact .inl htake
  · refine .inr ⟨?_, fun r' hr' => (List.pairwise_append.mp hsorted).2.2 r' hr' r hdrop⟩
    show (sorted.take limit).length = limit
    have hlong : 0 < (sorted.drop limit).length := List.length_pos_of_mem hdrop
    rw [List.length_drop] at hlong
    rw [List.length_take]
    omega

/-- A receipt in the queue of the due-work pass. -/
structure Store.Scheduled (s : Store) (r : InboundReceiptRow) : Prop where
  /-- The time the alarm is armed for is no later than its own. -/
  due : ∃ t, dueTimes s .receipts = some t ∧ t ≤ r.retry_after
  /-- A pass at that time or later sends it to the index queue and schedules
      it again within half an hour, or as many receipts as the pass takes are
      sent that come before it. -/
  redriven : ∀ nowIso limit, r.retry_after ≤ nowIso →
    (r.id ∈ (redriveDueInboundReceipts s nowIso limit).1 ∧
      ∃ r' ∈ (redriveDueInboundReceipts s nowIso limit).2.receipts, r'.id = r.id ∧
        r'.work_state = .ready ∧ nowIso < r'.retry_after ∧
        r'.retry_after ≤ nowIso + REDRIVE_MAX_MS) ∨
    ((dueReceipts s nowIso limit).length = limit ∧
      ∀ r' ∈ dueReceipts s nowIso limit, redriveOrder r' r)

omit [Unicode] in
theorem redriveAfter_bounds (nowIso receivedAt : Instant) :
    nowIso < redriveAfter nowIso receivedAt ∧
      redriveAfter nowIso receivedAt ≤ nowIso + REDRIVE_MAX_MS := by
  unfold redriveAfter REDRIVE_MIN_MS REDRIVE_MAX_MS
  show (_ : Nat) < _ ∧ (_ : Nat) ≤ _
  omega

/-- **Redrive.** As long as a receipt is ready, it is scheduled. -/
theorem scheduled_of_ready {r : InboundReceiptRow} (hr : r ∈ s.receipts)
    (hready : r.work_state = .ready) : s.Scheduled r where
  due := dueTimes_le (.receipt r hr hready)
  redriven nowIso limit hdue := by
    rcases mem_dueReceipts hr hready hdue limit with hmem | hlimit
    · have hid : r.id ∈ (redriveDueInboundReceipts s nowIso limit).1 :=
        List.mem_map_of_mem hmem
      refine .inl ⟨hid, { r with retry_after := redriveAfter nowIso r.received_at }, ?_, rfl,
        hready, redriveAfter_bounds nowIso r.received_at⟩
      have hrows : (redriveDueInboundReceipts s nowIso limit).2.receipts.rows =
          s.receipts.rows.map fun r =>
            if r.id ∈ (redriveDueInboundReceipts s nowIso limit).1 then
              { r with retry_after := redriveAfter nowIso r.received_at } else r := by
        simp [redriveDueInboundReceipts]
      exact (Table.mem_of_map hrows).mpr ⟨r, hr, if_pos hid⟩
    · exact .inr hlimit

end Umail
