import Umail.Account.Receipts
import Umail.Mail.Inbound

/-! # Inbound mail is indexed exactly once

  A receipt names the raw content of its delivery, and a message the receipt
  it was indexed from. Every step writes the archive before the row that names
  an object of it, and a receipt becomes `indexed` in the transaction that
  writes its message. So the rows and the archive stay in step however the
  processes interleave, and wherever one of them stops.
-/

namespace Umail

open Relational

section indexing
variable [Unicode]

/-! ### Receipts and messages of one store -/

/-- A receipt is indexed exactly when its message exists. A message that is
    inbound, or has an id like one, has a receipt. -/
structure Store.Indexed (s : Store) : Prop where
  shaped : ∀ r ∈ s.receipts, isInboundMessageId r.id = true
  indexed : ∀ r ∈ s.receipts, r.work_state = .indexed ↔ ∃ m ∈ s.messages, m.id = r.id
  inbound : ∀ m ∈ s.messages, m.direction = .inbound ∨ isInboundMessageId m.id = true →
    ∃ r ∈ s.receipts, r.id = m.id

section store
variable {s s' : Store}

theorem Store.Indexed.empty : Store.empty.Indexed where
  shaped _ hr := absurd hr Table.mem_empty
  indexed _ hr := absurd hr Table.mem_empty
  inbound _ hm := absurd hm Table.mem_empty

theorem exec_message (c : Command) {id : String} (h : ∃ m ∈ s.messages, m.id = id) :
    ∃ m ∈ (s.exec c).messages, m.id = id := by
  obtain ⟨m, hm, rfl⟩ := h
  obtain ⟨m', hm', hev⟩ := (exec_newMail s c).1.exists_mem hm
  exact ⟨m', hm', hev.id_eq⟩

theorem exec_receipt (c : Command) {id : String} (h : ∃ r ∈ s.receipts, r.id = id) :
    ∃ r ∈ (s.exec c).receipts, r.id = id := by
  obtain ⟨r, hr, rfl⟩ := h
  obtain ⟨r', hr', hmoves⟩ := (exec_receipts s c).exists_mem hr
  exact ⟨r', hr', hmoves.evolves.id_eq⟩

/-- An `acceptInbound` that changes the store has a receipt, which is indexed
    afterwards, and a message. -/
theorem exec_acceptInbound (s : Store) (input : AcceptInboundInput) :
    s.exec (.acceptInbound input) = s ∨
      ((∃ r ∈ s.receipts, r.id = input.messageId) ∧
        (∃ m ∈ (s.exec (.acceptInbound input)).messages, m.id = input.messageId) ∧
        ∀ r ∈ (s.exec (.acceptInbound input)).receipts, r.id = input.messageId →
          r.work_state = .indexed) := by
  rcases committedSnd_cases (s := s) (r := acceptInbound s input) with heq | ⟨r, s', hok, heq⟩
  · exact .inl heq
  · have hexec : s.exec (.acceptInbound input) = s' := heq
    rw [hexec]
    rcases acceptInbound_ok hok with rfl | ⟨receipt, hreceipt, hid, -, r', s₁, hwrite, rfl⟩
    · exact .inl rfl
    · obtain ⟨m, hm, hev⟩ := written_message hwrite
      refine .inr ⟨⟨receipt, hreceipt, hid⟩, ⟨m, hm, hev.id_eq⟩, ?_⟩
      intro r hr hrid
      obtain ⟨r₀, hr₀, rfl⟩ := (Table.mem_of_map rfl).mp hr
      by_cases hmatch : r₀.id = input.messageId
      · simp [hmatch]
      · simp [hmatch] at hrid

/-- Ids of sent messages do not look like ids of received ones. -/
def Command.SendsOutside (c : Command) : Prop :=
  ∀ m, c.WritesMessage m → m.direction = .outbound → isInboundMessageId m.id = false

/-- Without a new message under an id, the message of that id is an old one. -/
theorem exec_message_iff {c : Command} {id : String}
    (h : ∀ m, c.WritesMessage m → m.id ≠ id) :
    (∃ m ∈ (s.exec c).messages, m.id = id) ↔ ∃ m ∈ s.messages, m.id = id := by
  constructor
  · intro ⟨m', hm', hid⟩
    rcases (exec_newMail s c).1.mem_cases hm' with ⟨m, hm, hev⟩ | hnew
    · exact ⟨m, hm, hev.id_eq.symm.trans hid⟩
    · exact absurd hid (h m' hnew)
  · exact exec_message c

/-- **Indexing.** Every command keeps receipts and messages in step. -/
theorem Store.Indexed.exec (h : s.Indexed) (c : Command)
    (hregisters : ∀ r, c.Registers r → isInboundMessageId r.id = true)
    (hsends : c.SendsOutside) : (s.exec c).Indexed := by
  have hshaped : ∀ r' ∈ (s.exec c).receipts, isInboundMessageId r'.id = true := by
    intro r' hr'
    rcases (exec_receipts s c).mem_cases hr' with ⟨r, hr, hmoves⟩ | hnew
    · rw [hmoves.evolves.id_eq]
      exact h.shaped r hr
    · exact hregisters r' hnew
  -- a new message that is not the one of this `acceptInbound` has another id than any receipt
  have hother : ∀ id, isInboundMessageId id = true →
      (∀ input, c = .acceptInbound input → id ≠ input.messageId) →
      ∀ m, c.WritesMessage m → m.id ≠ id := by
    intro id hid haccept m hm hmid
    rcases hm.cases with hout | ⟨input, hc, hminput, -⟩
    · have hnot : isInboundMessageId m.id = false := hsends m hm hout
      rw [hmid, hid] at hnot
      exact absurd hnot (by simp)
    · exact haccept input hc (hmid ▸ hminput)
  refine ⟨hshaped, fun r' hr' => ?_, fun m' hm' hinbound => ?_⟩
  · by_cases hold : ∃ r ∈ s.receipts, r.id = r'.id
    · obtain ⟨r, hr, hid⟩ := hold
      have hmoves : c.Moves r r' :=
        (exec_receipts s c).version (fun a b hab => hab.evolves.id_eq) hr hr' hid
      by_cases haccept : ∃ input, c = .acceptInbound input ∧ r.id = input.messageId
      · obtain ⟨input, rfl, hinput⟩ := haccept
        rcases exec_acceptInbound s input with heq | ⟨-, hmessage, hindexed⟩
        · rw [heq] at hr' ⊢
          exact h.indexed r' hr'
        · have hid' : r'.id = input.messageId := hid.symm.trans hinput
          exact ⟨fun _ => hid' ▸ hmessage, fun _ => hindexed r' hr' hid'⟩
      · have hsettles : ¬ c.Settles r .indexed := fun hs => haccept hs.indexed
        rw [hmoves.indexed_iff hsettles, h.indexed r hr, hid]
        refine (exec_message_iff (hother _ (hshaped r' hr') fun input hc hinput => ?_)).symm
        exact haccept ⟨input, hc, hid.trans hinput⟩
    · -- a new receipt: nothing was indexed under its id
      rcases (exec_receipts s c).mem_cases hr' with ⟨r, hr, hmoves⟩ | hnew
      · exact absurd ⟨r, hr, hmoves.evolves.id_eq.symm⟩ hold
      · have hready : r'.work_state = .ready := hnew.ready
        have hnone : ¬ ∃ m ∈ (s.exec c).messages, m.id = r'.id := by
          rw [exec_message_iff (hother _ (hshaped r' hr') fun input hc _ => ?_)]
          · intro ⟨m, hm, hid⟩
            obtain ⟨r, hr, hrid⟩ := h.inbound m hm (.inr (hid ▸ hshaped r' hr'))
            exact hold ⟨r, hr, hrid.trans hid⟩
          · rw [hc] at hnew
            exact hnew
        rw [hready]
        exact ⟨fun hindexed => absurd hindexed (by simp), fun hmessage => absurd hmessage hnone⟩
  · rcases (exec_newMail s c).1.mem_cases hm' with ⟨m, hm, hev⟩ | hnew
    · rw [hev.direction_eq, hev.id_eq] at hinbound
      obtain ⟨r, hr, hid⟩ := h.inbound m hm hinbound
      exact exec_receipt c ⟨r, hr, hid.trans hev.id_eq.symm⟩
    · rcases hnew.cases with hout | ⟨input, rfl, hid, -⟩
      · have hnot : isInboundMessageId m'.id = false := hsends m' hnew hout
        rcases hinbound with hin | hin
        · exact absurd (hout.symm.trans hin) (by simp)
        · exact absurd (hnot.symm.trans hin) (by simp)
      · rcases exec_acceptInbound s input with heq | ⟨hreceipt, -, -⟩
        · rw [heq] at hm' ⊢
          exact h.inbound m' hm' hinbound
        · exact hid ▸ exec_receipt _ hreceipt

/-- **No conflict.** A receipt that is ready has no message, so the write of
    its message meets none. -/
theorem Store.Indexed.acceptInbound_no_conflict (h : s.Indexed) (input : AcceptInboundInput)
    (messageId : String) : acceptInbound s input ≠ .error (.messageConflict messageId) := by
  intro herror
  unfold acceptInbound at herror
  split at herror
  · exact absurd (Except.error.inj herror) (by simp)
  · next receipt hreceipt =>
    obtain ⟨hmem, hid⟩ := readInboundReceipt_some hreceipt
    split at herror
    · exact absurd herror (by simp)
    · next hready =>
      rcases bind_eq_error.mp herror with hwrite | ⟨a, -, hok⟩
      · obtain ⟨m, hm, hmid⟩ := writeThreadedMail_conflict hwrite
        have hindexed := (h.indexed receipt hmem).mpr ⟨m, hm, hmid.trans hid.symm⟩
        exact hready (by simp [hindexed])
      · exact absurd hok (by simp [pure, Except.pure])

end store

/-! ### The shared state -/

/-- The receipt is the one of this delivery. -/
structure InboundReceiptRow.Of (r : InboundReceiptRow) (sha256Hex : Bytes → String)
    (d : Delivery) : Prop where
  id : r.id = d.receiptId sha256Hex
  raw_key : r.raw_key = d.rawKey sha256Hex
  envelope_from : r.envelope_from = d.from
  envelope_to : r.envelope_to = d.to.val

/-- The delivery has a receipt. -/
def Delivery.Registered (d : Delivery) (sha256Hex : Bytes → String) (s : Store) : Prop :=
  ∃ r ∈ s.receipts, r.Of sha256Hex d

/-- What holds of the store and the archive at every moment. -/
structure InboundState.Sound (sha256Hex : Bytes → String) (w : InboundState) : Prop where
  indexed : w.store.Indexed
  /-- A receipt is the one of a delivery whose raw content is archived. -/
  receipts : ∀ r ∈ w.store.receipts, ∃ d : Delivery, r.Of sha256Hex d ∧
    w.archive r.raw_key = some d.bytes
  attachments : ∀ a ∈ w.store.attachments, (w.archive a.r2_key).isSome = true
  /-- Raw content is archived under its digest. -/
  addressed : ∀ digest bytes, w.archive (rawObjectKey digest) = some bytes →
    digest = sha256Hex bytes
  completed : ∀ d ∈ w.completed, d.Registered sha256Hex w.store

/-- Receipts and archived objects stay, and raw objects keep their content. -/
structure InboundState.Grows (w w' : InboundState) : Prop where
  receipts : ∀ r ∈ w.store.receipts, ∃ r' ∈ w'.store.receipts, r.Evolves r'
  archive : ∀ key, (w.archive key).isSome = true → (w'.archive key).isSome = true
  raw : ∀ digest bytes, w.archive (rawObjectKey digest) = some bytes →
    w'.archive (rawObjectKey digest) = some bytes

section shared
variable {sha256Hex : Bytes → String} {w w' : InboundState}

theorem InboundReceiptRow.Evolves.of {r r' : InboundReceiptRow} {d : Delivery}
    (h : r.Evolves r') (hr : r.Of sha256Hex d) : r'.Of sha256Hex d where
  id := h.id_eq.trans hr.id
  raw_key := h.raw_key_eq.trans hr.raw_key
  envelope_from := h.envelope_from_eq.trans hr.envelope_from
  envelope_to := h.envelope_to_eq.trans hr.envelope_to

theorem Delivery.Registered.grow {d : Delivery} (h : d.Registered sha256Hex w.store)
    (hgrows : w.Grows w') : d.Registered sha256Hex w'.store := by
  obtain ⟨r, hr, hof⟩ := h
  obtain ⟨r', hr', hev⟩ := hgrows.receipts r hr
  exact ⟨r', hr', hev.of hof⟩

/-- A change that leaves the store and the archive alone. -/
theorem InboundState.Grows.of_same (hstore : w'.store = w.store)
    (harchive : w'.archive = w.archive) : w.Grows w' where
  receipts r hr := ⟨r, hstore ▸ hr, .refl r⟩
  archive _ hkey := harchive ▸ hkey
  raw _ _ hraw := harchive ▸ hraw

theorem InboundState.Sound.of_same (h : w.Sound sha256Hex) (hstore : w'.store = w.store)
    (harchive : w'.archive = w.archive)
    (hcompleted : ∀ d ∈ w'.completed, d.Registered sha256Hex w.store) :
    w'.Sound sha256Hex where
  indexed := hstore ▸ h.indexed
  receipts := by
    rw [hstore, harchive]
    exact h.receipts
  attachments := by
    rw [hstore, harchive]
    exact h.attachments
  addressed := by
    rw [harchive]
    exact h.addressed
  completed := by
    rw [hstore]
    exact hcompleted

/-! ### Writing the archive -/

/-- Without collisions, what is archived under a digest is what has it. -/
theorem InboundState.Sound.content (h : w.Sound sha256Hex)
    (hdigest : Function.Injective sha256Hex) {bytes bytes' : Bytes}
    (harchived : w.archive (rawObjectKey (sha256Hex bytes)) = some bytes') : bytes' = bytes :=
  (hdigest (h.addressed _ _ harchived)).symm

/-- Without collisions, an id belongs to one delivery. -/
theorem InboundState.Sound.of_id (h : w.Sound sha256Hex) (hdigest : Function.Injective sha256Hex)
    {r : InboundReceiptRow} (hr : r ∈ w.store.receipts) {d : Delivery}
    (hid : r.id = d.receiptId sha256Hex) : r.Of sha256Hex d := by
  obtain ⟨⟨bytes, «from», «to»⟩, hof, -⟩ := h.receipts r hr
  obtain ⟨rfl, rfl, rfl⟩ := inboundMessageId_inj hdigest (hof.id.symm.trans hid)
  exact hof

/-- An object that may be written: raw content under its digest, or an attachment. -/
def Storable (sha256Hex : Bytes → String) (key : String) (value : Bytes) : Prop :=
  key = rawObjectKey (sha256Hex value) ∨
    ∃ messageId position, key = attachmentObjectKey messageId position

theorem put_archive (w : InboundState) (key : String) (value : Bytes) (k : String) :
    (w.put key value).archive k = if k = key then some value else w.archive k := rfl

/-- Writing an object leaves every raw object as it was. -/
theorem InboundState.Sound.put_raw (h : w.Sound sha256Hex)
    (hdigest : Function.Injective sha256Hex) {key : String} {value : Bytes}
    (hkey : Storable sha256Hex key value) {digest : String} {bytes : Bytes}
    (harchived : w.archive (rawObjectKey digest) = some bytes) :
    (w.put key value).archive (rawObjectKey digest) = some bytes := by
  rw [put_archive]
  split
  · next heq =>
    rcases hkey with rfl | ⟨messageId, position, rfl⟩
    · rw [heq] at harchived
      rw [h.content hdigest harchived]
    · exact absurd heq.symm (attachmentObjectKey_ne_raw messageId position digest)
  · exact harchived

theorem InboundState.Sound.put (h : w.Sound sha256Hex) (hdigest : Function.Injective sha256Hex)
    {key : String} {value : Bytes} (hkey : Storable sha256Hex key value) :
    (w.put key value).Sound sha256Hex ∧ w.Grows (w.put key value) := by
  -- nothing leaves the archive
  have hkept : ∀ k, (w.archive k).isSome = true →
      ((w.put key value).archive k).isSome = true := by
    intro k hk
    rw [put_archive]
    split
    · rfl
    · exact hk
  refine ⟨⟨h.indexed, ?_, fun a ha => hkept _ (h.attachments a ha), ?_, h.completed⟩,
    ⟨fun r hr => ⟨r, hr, .refl r⟩, hkept, fun digest bytes => h.put_raw hdigest hkey⟩⟩
  · intro r hr
    obtain ⟨d, hof, harchived⟩ := h.receipts r hr
    refine ⟨d, hof, ?_⟩
    rw [hof.raw_key] at harchived ⊢
    exact h.put_raw hdigest hkey harchived
  · intro digest bytes harchived
    rw [put_archive] at harchived
    split at harchived
    · -- a raw message is filed under its digest, and no attachment is filed like one
      next heq =>
      obtain rfl := Option.some.inj harchived
      rcases hkey with rfl | ⟨messageId, position, rfl⟩
      · exact rawObjectKey_injective heq
      · exact absurd heq.symm (attachmentObjectKey_ne_raw messageId position digest)
    · exact h.addressed digest bytes harchived

/-! ### Writing the store -/

/-- The rows a command adds name objects that are archived already. -/
structure InboundState.Admits (sha256Hex : Bytes → String) (w : InboundState) (c : Command) :
    Prop where
  registers : ∀ r, c.Registers r → ∃ d : Delivery, r.Of sha256Hex d ∧
    w.archive r.raw_key = some d.bytes
  sends : c.SendsOutside
  attaches : ∀ a, c.WritesAttachment a → (w.archive a.r2_key).isSome = true

theorem InboundState.Sound.exec (h : w.Sound sha256Hex) {c : Command}
    (hc : w.Admits sha256Hex c) : (w.exec c).Sound sha256Hex ∧ w.Grows (w.exec c) := by
  have hgrows : w.Grows (w.exec c) := by
    refine ⟨fun r hr => ?_, fun key hkey => hkey, fun digest bytes hraw => hraw⟩
    obtain ⟨r', hr', hmoves⟩ := (exec_receipts w.store c).exists_mem hr
    exact ⟨r', hr', hmoves.evolves⟩
  refine ⟨⟨h.indexed.exec c ?_ hc.sends, ?_, ?_, h.addressed, ?_⟩, hgrows⟩
  · intro r hr
    obtain ⟨d, hof, -⟩ := hc.registers r hr
    rw [hof.id]
    exact inboundMessageId_shape _ _ _ _
  · intro r' hr'
    -- an old receipt keeps its envelope and its raw message
    rcases (exec_receipts w.store c).mem_cases hr' with ⟨r, hr, hmoves⟩ | hnew
    · obtain ⟨d, hof, harchived⟩ := h.receipts r hr
      refine ⟨d, hmoves.evolves.of hof, ?_⟩
      rw [hmoves.evolves.raw_key_eq]
      exact harchived
    · exact hc.registers r' hnew
  · intro a ha
    rcases (exec_newMail w.store c).2.mem_cases ha with ⟨a, hold, rfl⟩ | hnew
    · exact h.attachments a hold
    · exact hc.attaches a hnew
  · intro d hd
    exact (h.completed d hd).grow hgrows

/-- The command can add a receipt or a message. -/
def Command.adds : Command → Bool
  | .submitOutbound _ _ => true
  | .acceptInbound _ => true
  | .registerInboundReceipt _ => true
  | _ => false

theorem admits_of_not_adds {c : Command} (h : c.adds = false) : w.Admits sha256Hex c := by
  refine ⟨fun r hr => ?_, fun m hm _ => ?_, fun a ha => ?_⟩
  · cases c with
    | registerInboundReceipt input => exact absurd h (by simp [Command.adds])
    | _ => exact absurd hr id
  · rcases hm.cases with hout | ⟨input, rfl, -, -⟩
    · cases c with
      | submitOutbound input ids => exact absurd h (by simp [Command.adds])
      | acceptInbound input => exact absurd h (by simp [Command.adds])
      | _ => exact absurd hm id
    · exact absurd h (by simp [Command.adds])
  · cases c with
    | acceptInbound input => exact absurd h (by simp [Command.adds])
    | _ => exact absurd ha id

/-- What the other uses of the store add names no object. -/
theorem admits_of_notInbound {c : Command} (h : c.notInbound = true) : w.Admits sha256Hex c := by
  cases c with
  | submitOutbound input ids =>
    refine ⟨fun _ hr => absurd hr id, fun m hm _ => ?_, fun _ ha => absurd ha id⟩
    rw [hm.1]
    simpa [Command.notInbound] using h
  | acceptInbound _ | registerInboundReceipt _ | observeInboundForward _
  | failInboundReceiptPolicy _ _ | redriveDueInboundReceipts _ _ =>
    exact absurd h (by simp [Command.notInbound])
  | _ => exact admits_of_not_adds rfl

end shared

/-! ### Processes -/

/-- What a reception relies on: the raw object before it registers, and the
    receipt from then on. -/
def Reception.Ready (sha256Hex : Bytes → String) (w : InboundState) (p : Reception) : Prop :=
  match p.point with
  | .checking | .resolving _ | .buffering _ _ | .archiving _ _ => True
  | .registering d _ => w.archive (d.rawKey sha256Hex) = some d.bytes
  | .claiming d _ | .forwarding d _ | .awaiting d _ | .observing d _ _ | .publishing d =>
    d.Registered sha256Hex w.store

/-- What an indexing relies on: each attachment it will name is archived, or
    still to be archived. -/
def Indexing.Ready (w : InboundState) (p : Indexing) : Prop :=
  match p.point with
  | .storing input attachments =>
    (∀ b ∈ attachments, ∃ messageId position,
      b.r2Key = attachmentObjectKey messageId position) ∧
      ∀ a ∈ input.attachments, (w.archive a.r2Key).isSome = true ∨
        ∃ b ∈ attachments, b.r2Key = a.r2Key
  | _ => True

def InboundProcess.Ready (sha256Hex : Bytes → String) (w : InboundState) :
    InboundProcess → Prop
  | .receives p => p.Ready sha256Hex w
  | .indexes p => p.Ready w
  | .redrives _ => True

section processes
variable {sha256Hex : Bytes → String} {mime : MimePorts} {w w' : InboundState}

theorem InboundProcess.Ready.grow {p : InboundProcess} (h : p.Ready sha256Hex w)
    (hgrows : w.Grows w') : p.Ready sha256Hex w' := by
  cases p with
  | receives p =>
    show p.Ready sha256Hex w'
    have hp : p.Ready sha256Hex w := h
    -- the facts are about what is stored, and nothing leaves the store
    unfold Reception.Ready at hp ⊢
    cases hpoint : p.point <;> rw [hpoint] at hp
    case registering d forwardTo => exact hgrows.raw _ _ hp
    case claiming | forwarding | awaiting | observing | publishing => exact hp.grow hgrows
    all_goals trivial
  | indexes p =>
    show p.Ready w'
    have hp : p.Ready w := h
    unfold Indexing.Ready at hp ⊢
    cases hpoint : p.point <;> rw [hpoint] at hp
    case storing input attachments =>
      exact ⟨hp.1, fun a ha => (hp.2 a ha).imp (hgrows.archive _) id⟩
    all_goals trivial
  | redrives p => trivial

/-- A step of a reception. -/
theorem Reception.Moves.keeps {p : Reception} {next : Option Reception}
    (hmove : p.Moves sha256Hex w w' next) (hdigest : Function.Injective sha256Hex)
    (h : w.Sound sha256Hex) (hp : p.Ready sha256Hex w) :
    (w'.Sound sha256Hex ∧ w.Grows w') ∧ ∀ q, next = some q → q.Ready sha256Hex w' := by
  unfold Reception.Ready at hp
  have hsame : w.Sound sha256Hex ∧ w.Grows w := ⟨h, .of_same rfl rfl⟩
  cases hmove with
  | rejects => exact ⟨hsame, fun q hq => absurd hq (by simp)⟩
  | parses | resolves | buffers =>
    exact ⟨hsame, fun q hq => by obtain rfl := Option.some.inj hq; trivial⟩
  | archives d forwardTo hpoint =>
    refine ⟨h.put hdigest (.inl rfl), ?_⟩
    intro q hq
    obtain rfl := Option.some.inj hq
    show (w.put _ _).archive _ = _
    rw [put_archive, if_pos rfl]
  | registers d forwardTo hpoint =>
    rw [hpoint] at hp
    -- the row it writes, or the one it finds under this id, is of this delivery
    have hof : (newReceiptRow (p.registration sha256Hex d)).Of sha256Hex d :=
      ⟨rfl, rfl, rfl, rfl⟩
    have hadmits : w.Admits sha256Hex (.registerInboundReceipt (p.registration sha256Hex d)) := by
      refine ⟨fun r hr => ?_, fun _ hm => absurd hm id, fun _ ha => absurd ha id⟩
      rw [show r = newReceiptRow (p.registration sha256Hex d) from hr]
      exact ⟨d, hof, hp⟩
    refine ⟨h.exec hadmits, ?_⟩
    intro q hq
    obtain rfl := Option.some.inj hq
    have hregistered : d.Registered sha256Hex
        (registerInboundReceipt w.store (p.registration sha256Hex d)) := by
      obtain ⟨r, hr, hid, hold | hnew⟩ := registered_mem w.store (p.registration sha256Hex d)
      · exact ⟨r, hr, h.of_id hdigest hold hid⟩
      · exact ⟨r, hr, hnew ▸ hof⟩
    cases forwardTo with
    | some destination => exact hregistered
    | none => exact hregistered
  | claims d destination input hpoint hinput =>
    rw [hpoint] at hp
    have hkeeps := h.exec (c := .observeInboundForward input) (admits_of_not_adds rfl)
    refine ⟨hkeeps, ?_⟩
    intro q hq
    obtain rfl := Option.some.inj hq
    have hregistered : d.Registered sha256Hex (w.exec (.observeInboundForward input)).store :=
      Delivery.Registered.grow hp hkeeps.2
    -- a lost claim skips the forward; the receipt is there either way
    by_cases hclaimed : (observeInboundForward w.store input).1 = true
    · simpa [Reception.Ready, Reception.goto, hclaimed] using hregistered
    · simpa [Reception.Ready, Reception.goto, hclaimed] using hregistered
  | forwards d destination hpoint =>
    rw [hpoint] at hp
    refine ⟨⟨h.of_same rfl rfl h.completed, .of_same rfl rfl⟩, ?_⟩
    intro q hq
    obtain rfl := Option.some.inj hq
    exact hp
  | answers d destination observation hpoint =>
    rw [hpoint] at hp
    refine ⟨⟨h.of_same rfl rfl h.completed, .of_same rfl rfl⟩, ?_⟩
    intro q hq
    obtain rfl := Option.some.inj hq
    exact hp
  | observes d destination observation hpoint =>
    rw [hpoint] at hp
    have hkeeps := h.exec (c := .observeInboundForward
      { receiptId := d.receiptId sha256Hex, kind := observation, destination })
      (admits_of_not_adds rfl)
    refine ⟨hkeeps, ?_⟩
    intro q hq
    obtain rfl := Option.some.inj hq
    exact Delivery.Registered.grow hp hkeeps.2
  | publishes d hpoint =>
    rw [hpoint] at hp
    refine ⟨⟨h.of_same rfl rfl fun d' hd' => ?_, .of_same rfl rfl⟩, fun q hq =>
      absurd hq (by simp)⟩
    -- only now does the delivery count as completed
    rcases List.mem_append.mp hd' with hold | hnew
    · exact h.completed d' hold
    · rw [List.mem_singleton.mp hnew]
      exact hp

/-- A step of an indexing. -/
theorem Indexing.Moves.keeps {p : Indexing} {next : Option Indexing}
    (hmove : p.Moves mime w w' next) (hdigest : Function.Injective sha256Hex)
    (h : w.Sound sha256Hex) (hp : p.Ready w) :
    (w'.Sound sha256Hex ∧ w.Grows w') ∧ ∀ q, next = some q → q.Ready w' := by
  unfold Indexing.Ready at hp
  have hsame : w.Sound sha256Hex ∧ w.Grows w := ⟨h, .of_same rfl rfl⟩
  cases hmove with
  | stops => exact ⟨hsame, fun q hq => absurd hq (by simp)⟩
  | starts | reads | locates | fetches | refuses =>
    exact ⟨hsame, fun q hq => by obtain rfl := Option.some.inj hq; trivial⟩
  | prepares receipt mailboxId raw html input attachments hpoint hprepared =>
    refine ⟨hsame, ?_⟩
    intro q hq
    obtain rfl := Option.some.inj hq
    obtain ⟨-, hinput, hkeys⟩ := prepareInbound_ready hprepared
    refine ⟨fun b hb => ⟨_, hkeys b hb⟩, fun a ha => .inr ?_⟩
    rw [hinput] at ha
    obtain ⟨b, hb, rfl⟩ := List.mem_map.mp ha
    exact ⟨b, hb, rfl⟩
  | fails reason hpoint =>
    exact ⟨h.exec (admits_of_not_adds rfl), fun q hq => absurd hq (by simp)⟩
  | archives input attachment rest hpoint =>
    rw [hpoint] at hp
    obtain ⟨hkeys, harchived⟩ := hp
    have hstorable : Storable sha256Hex attachment.r2Key attachment.bytes :=
      .inr (hkeys attachment List.mem_cons_self)
    have hkeeps := h.put hdigest hstorable
    refine ⟨hkeeps, ?_⟩
    intro q hq
    obtain rfl := Option.some.inj hq
    refine ⟨fun b hb => hkeys b (List.mem_cons_of_mem _ hb), ?_⟩
    intro a ha
    -- what is put now was the head of what was still to be put
    rcases harchived a ha with hold | ⟨b, hb, hkey⟩
    · exact .inl (hkeeps.2.archive _ hold)
    · rcases List.mem_cons.mp hb with rfl | hrest
      · left
        rw [put_archive, if_pos hkey.symm]
        rfl
      · exact .inr ⟨b, hrest, hkey⟩
  | accepts input hpoint =>
    rw [hpoint] at hp
    refine ⟨h.exec ⟨fun _ hr => absurd hr id, fun m hm hout => ?_, fun a ha => ?_⟩,
      fun q hq => absurd hq (by simp)⟩
    · exact absurd (hm.2.symm.trans hout) (by simp)
    · obtain ⟨b, hb, rfl⟩ := List.mem_map.mp ha
      -- nothing is left to be put, so every attachment is archived
      exact (hp.2 b hb).resolve_right fun ⟨_, hnil, _⟩ => absurd hnil List.not_mem_nil

theorem Redrive.Moves.keeps {p : Redrive} {next : Option Redrive}
    (hmove : Redrive.Moves w p w' next) (h : w.Sound sha256Hex) :
    w'.Sound sha256Hex ∧ w.Grows w' := by
  cases hmove with
  | selects nowIso =>
    exact h.exec (admits_of_not_adds rfl)
  | sends receiptId rest => exact ⟨h.of_same rfl rfl h.completed, .of_same rfl rfl⟩
  | ends => exact ⟨h, .of_same rfl rfl⟩

theorem InboundProcess.step_keeps {ports : InboundPorts} {p : InboundProcess}
    {reply : InboundReply} {next : Option InboundProcess}
    (hstep : p.step ports w reply = some (w', next))
    (hdigest : Function.Injective ports.sha256Hex) (h : w.Sound ports.sha256Hex)
    (hp : p.Ready ports.sha256Hex w) :
    (w'.Sound ports.sha256Hex ∧ w.Grows w') ∧
      ∀ q, next = some q → q.Ready ports.sha256Hex w' := by
  -- each kind of process by its own moves
  rcases InboundProcess.step_cases hstep with
    ⟨q, n, rfl, rfl, hmove⟩ | ⟨q, n, rfl, rfl, hmove⟩ | ⟨q, n, rfl, rfl, hmove⟩
  · obtain ⟨hkeeps, hnext⟩ := hmove.keeps hdigest h hp
    refine ⟨hkeeps, ?_⟩
    intro q' hq'
    obtain ⟨q₁, hq₁, rfl⟩ := Option.map_eq_some_iff.mp hq'
    exact hnext q₁ hq₁
  · obtain ⟨hkeeps, hnext⟩ := hmove.keeps hdigest h hp
    refine ⟨hkeeps, ?_⟩
    intro q' hq'
    obtain ⟨q₁, hq₁, rfl⟩ := Option.map_eq_some_iff.mp hq'
    exact hnext q₁ hq₁
  · refine ⟨hmove.keeps h, ?_⟩
    intro q' hq'
    obtain ⟨q₁, -, rfl⟩ := Option.map_eq_some_iff.mp hq'
    trivial

theorem InboundState.happens_keeps {e : InboundEvent} (he : w.happens e = some w')
    (h : w.Sound sha256Hex) : w'.Sound sha256Hex ∧ w.Grows w' := by
  cases e with
  | command c =>
    simp only [InboundState.happens] at he
    split at he
    · next hc =>
      obtain rfl := Option.some.inj he
      exact h.exec (admits_of_notInbound hc)
    · exact absurd he (by simp)
  | drop receiptId =>
    obtain rfl := Option.some.inj he
    exact ⟨h.of_same rfl rfl h.completed, .of_same rfl rfl⟩

end processes

section system
variable {ports : InboundPorts}

theorem InboundState.Sound.init {sha256Hex : Bytes → String} {w : InboundState}
    (hstore : w.store = Store.empty) (harchive : ∀ key, w.archive key = none)
    (hcompleted : w.completed = []) : w.Sound sha256Hex where
  indexed := hstore ▸ Store.Indexed.empty
  receipts r hr := absurd (hstore ▸ hr) Table.mem_empty
  attachments a ha := absurd (hstore ▸ ha) Table.mem_empty
  addressed digest bytes harchived := by
    rw [harchive] at harchived
    exact absurd harchived (by simp)
  completed d hd := by
    rw [hcompleted] at hd
    exact absurd hd List.not_mem_nil

/-- The assertions hold under every interleaving. -/
theorem inbound_valid (hdigest : Function.Injective ports.sha256Hex) :
    (inbound ports).Valid (InboundState.Sound ports.sha256Hex)
      (fun w p => p.Ready ports.sha256Hex w) (fun _ _ => True) where
  init w hinit := .init hinit.1 hinit.2.1 hinit.2.2.2.2
  symm _ _ _ := trivial
  env w e w' h he := by
    obtain ⟨hsound, hgrows⟩ := InboundState.happens_keeps he h
    exact ⟨hsound, fun p hp => hp.grow hgrows⟩
  start w a _ := by
    refine ⟨?_, fun _ _ => trivial⟩
    cases a <;> trivial
  step w p i w' p' h hp hstep := by
    obtain ⟨hkeeps, hnext⟩ := InboundProcess.step_keeps hstep hdigest h hp
    exact ⟨hkeeps.1, hnext⟩
  other w p i w' p' q h hp hq _ hstep := by
    obtain ⟨hkeeps, -⟩ := InboundProcess.step_keeps hstep hdigest h hp
    exact ⟨hq.grow hkeeps.2, fun _ _ => trivial⟩

theorem inbound_sound (hdigest : Function.Injective ports.sha256Hex)
    {w : Lts.Pool InboundState InboundProcess} (h : (inbound ports).machine.Reachable w) :
    w.shared.Sound ports.sha256Hex := ((inbound_valid hdigest).reachable h).inv

/-! ### Along a run -/

/-- One step: the store executes a command and the archive stays, or the
    store stays. -/
def InboundState.Writes (w w' : InboundState) : Prop :=
  w'.store = w.store ∨ w'.archive = w.archive ∧ ∃ c, w'.store = w.store.exec c

theorem InboundState.Writes.exec (w : InboundState) (c : Command) : w.Writes (w.exec c) :=
  .inr ⟨rfl, c, rfl⟩

theorem InboundState.happens_writes {w w' : InboundState} {e : InboundEvent}
    (h : w.happens e = some w') : w.Writes w' := by
  cases e with
  | command c =>
    simp only [InboundState.happens] at h
    split at h
    · obtain rfl := Option.some.inj h
      exact .exec w c
    · exact absurd h (by simp)
  | drop receiptId =>
    obtain rfl := Option.some.inj h
    exact .inl rfl

theorem InboundProcess.step_writes {w w' : InboundState} {p : InboundProcess}
    {reply : InboundReply} {next : Option InboundProcess}
    (h : p.step ports w reply = some (w', next)) : w.Writes w' := by
  rcases InboundProcess.step_cases h with
    ⟨q, n, -, -, hmove⟩ | ⟨q, n, -, -, hmove⟩ | ⟨q, n, -, -, hmove⟩
  · cases hmove with
    | registers | claims | observes => exact .exec w _
    | _ => exact .inl rfl
  · cases hmove with
    | fails | accepts => exact .exec w _
    | _ => exact .inl rfl
  · cases hmove with
    | selects nowIso => exact .exec w _
    | sends | ends => exact .inl rfl

/-- Every receipt stays, and moves on. -/
def InboundState.Keeps (w w' : InboundState) : Prop :=
  ∀ r ∈ w.store.receipts, ∃ r' ∈ w'.store.receipts, r.Evolves r'

theorem InboundState.Writes.keeps {w w' : InboundState} (h : w.Writes w') : w.Keeps w' := by
  intro r hr
  rcases h with hsame | ⟨-, c, hexec⟩
  · exact ⟨r, hsame ▸ hr, .refl r⟩
  · obtain ⟨r', hr', hmoves⟩ := (exec_receipts w.store c).exists_mem hr
    exact ⟨r', hexec ▸ hr', hmoves.evolves⟩

variable {w w' : Lts.Pool InboundState InboundProcess}

theorem inbound_run_keeps {ls : List (Lts.PoolLabel InboundEvent InboundStart InboundReply)}
    (h : (inbound ports).machine.Run w ls w') : w.shared.Keeps w'.shared := by
  refine Lts.Program.run_shared (R := InboundState.Keeps) (fun w r hr => ⟨r, hr, .refl r⟩) ?_
    (fun _ _ _ he => (InboundState.happens_writes he).keeps)
    (fun _ _ _ _ _ hs => (InboundProcess.step_writes hs).keeps) h
  intro a b c hab hbc r hr
  obtain ⟨r₁, hr₁, hev⟩ := hab r hr
  obtain ⟨r₂, hr₂, hev'⟩ := hbc r₁ hr₁
  exact ⟨r₂, hr₂, hev.trans hev'⟩

/-- The objects that the rows of a store name are in an archive. -/
structure Store.Archived (s : Store) (archive : String → Option Bytes) : Prop where
  receipts : ∀ r ∈ s.receipts, (archive r.raw_key).isSome = true
  attachments : ∀ a ∈ s.attachments, (archive a.r2_key).isSome = true

theorem InboundState.Sound.archived {sha256Hex : Bytes → String} {w : InboundState}
    (h : w.Sound sha256Hex) : w.store.Archived w.archive where
  receipts r hr := by
    obtain ⟨d, -, harchived⟩ := h.receipts r hr
    rw [harchived]
    rfl
  attachments := h.attachments

/-- **Archived first.** The rows after a step name objects that were in the
    archive before it. -/
theorem inbound_archived (hdigest : Function.Injective ports.sha256Hex)
    (h : (inbound ports).machine.Reachable w)
    {l : Lts.PoolLabel InboundEvent InboundStart InboundReply}
    (hstep : (inbound ports).machine.step w l = some w') :
    w'.shared.store.Archived w.shared.archive := by
  have hwrites : w.shared.Writes w'.shared := by
    rcases Lts.Program.machine_step hstep with ⟨e, s, -, he, rfl⟩ | ⟨pid, a, -, -, rfl⟩ |
      ⟨pid, i, p, s, next, -, -, hs, rfl⟩ | ⟨pid, -, rfl⟩
    · exact InboundState.happens_writes he
    · exact .inl rfl
    · exact InboundProcess.step_writes hs
    · exact .inl rfl
  rcases hwrites with hsame | ⟨hsame, -⟩
  · rw [hsame]
    exact (inbound_sound hdigest h).archived
  · rw [← hsame]
    exact (inbound_sound hdigest (h.step l hstep)).archived

/-- A receipt that was settled keeps its work state, and gets no message. -/
def InboundState.Settled (w w' : InboundState) : Prop :=
  ∀ r ∈ w.store.receipts, r.work_state ≠ .ready → ∃ r' ∈ w'.store.receipts,
    r'.id = r.id ∧
    r'.work_state = r.work_state ∧
    ((∃ m ∈ w'.store.messages, m.id = r.id) → ∃ m ∈ w.store.messages, m.id = r.id)

theorem InboundState.Sound.settled {sha256Hex : Bytes → String} {w w' : InboundState}
    (h : w.Sound sha256Hex) (h' : w'.Sound sha256Hex) (hkeeps : w.Keeps w') : w.Settled w' := by
  intro r hr hsettled
  obtain ⟨r', hr', hev⟩ := hkeeps r hr
  obtain ⟨hstate, -⟩ := hev.settled hsettled
  refine ⟨r', hr', hev.id_eq, hstate, ?_⟩
  intro hmessage
  -- a receipt with a message is indexed, and this one was so before
  have hindexed : r'.work_state = .indexed :=
    (h'.indexed.indexed r' hr').mpr (hev.id_eq.symm ▸ hmessage)
  exact (h.indexed.indexed r hr).mp (hstate ▸ hindexed)

/-! ### Exactly once -/

/-- The message was indexed from this raw content and envelope. -/
def InboundState.MessageOf (w : InboundState) (m : MessageRow) (bytes : Bytes)
    («from» «to» : String) : Prop :=
  ∃ r ∈ w.store.receipts, r.id = m.id ∧ w.archive r.raw_key = some bytes ∧
    r.envelope_from = «from» ∧ r.envelope_to = «to»

/-- What a state owes to the mail it received. -/
structure InboundState.ExactlyOnce (sha256Hex : Bytes → String) (w : InboundState) : Prop where
  /-- A receipt is indexed exactly when its message exists. -/
  indexed : ∀ r ∈ w.store.receipts,
    r.work_state = .indexed ↔ ∃ m ∈ w.store.messages, m.id = r.id
  /-- An inbound message comes from some raw content and envelope. -/
  derived : ∀ m ∈ w.store.messages, m.direction = .inbound →
    ∃ bytes «from» «to», w.MessageOf m bytes «from» «to»
  /-- No two messages come from the same raw content and envelope. -/
  unique : ∀ m ∈ w.store.messages, ∀ m' ∈ w.store.messages, ∀ bytes «from» «to»,
    w.MessageOf m bytes «from» «to» → w.MessageOf m' bytes «from» «to» → m = m'
  /-- A completed delivery has a receipt of its own, which stays scheduled
      while it is ready. -/
  completed : ∀ d ∈ w.completed, ∃ r ∈ w.store.receipts, r.id = d.receiptId sha256Hex ∧
    w.archive r.raw_key = some d.bytes ∧ r.envelope_from = d.from ∧ r.envelope_to = d.to.val ∧
    (r.work_state = .ready → w.store.Scheduled r)
  no_conflict : ∀ input messageId,
    acceptInbound w.store input ≠ .error (.messageConflict messageId)

theorem InboundState.Sound.derived {sha256Hex : Bytes → String} {w : InboundState}
    (h : w.Sound sha256Hex) {m : MessageRow} (hm : m ∈ w.store.messages)
    (hinbound : m.direction = .inbound) : ∃ bytes «from» «to»,
      w.MessageOf m bytes «from» «to» := by
  obtain ⟨r, hr, hid⟩ := h.indexed.inbound m hm (.inl hinbound)
  obtain ⟨d, -, harchived⟩ := h.receipts r hr
  exact ⟨d.bytes, r.envelope_from, r.envelope_to, r, hr, hid, harchived, rfl, rfl⟩

/-- The id of a message is computed from what it comes from. -/
theorem InboundState.Sound.messageOf_id {sha256Hex : Bytes → String} {w : InboundState}
    (h : w.Sound sha256Hex) {m : MessageRow} {bytes : Bytes} {«from» «to» : String}
    (hm : w.MessageOf m bytes «from» «to») :
    ∃ d : Delivery, m.id = d.receiptId sha256Hex ∧ d.bytes = bytes ∧ d.from = «from» ∧
      d.to.val = «to» := by
  obtain ⟨r, hr, hid, harchived, hfrom, hto⟩ := hm
  obtain ⟨d, hof, harchived'⟩ := h.receipts r hr
  refine ⟨d, hid.symm.trans hof.id, ?_, hof.envelope_from.symm.trans hfrom,
    hof.envelope_to.symm.trans hto⟩
  exact Option.some.inj (harchived'.symm.trans harchived)

theorem InboundState.Sound.unique {sha256Hex : Bytes → String} {w : InboundState}
    (h : w.Sound sha256Hex) {m m' : MessageRow} (hm : m ∈ w.store.messages)
    (hm' : m' ∈ w.store.messages) {bytes : Bytes} {«from» «to» : String}
    (hof : w.MessageOf m bytes «from» «to») (hof' : w.MessageOf m' bytes «from» «to») :
    m = m' := by
  obtain ⟨d, hid, hbytes, hfrom, hto⟩ := h.messageOf_id hof
  obtain ⟨d', hid', hbytes', hfrom', hto'⟩ := h.messageOf_id hof'
  have hd : d = d' := by
    cases d
    cases d'
    simp only [Delivery.mk.injEq]
    exact ⟨hbytes.trans hbytes'.symm, hfrom.trans hfrom'.symm,
      Subtype.ext (hto.trans hto'.symm)⟩
  exact w.store.messages.eq_of_clash hm hm' (hid.trans (hd ▸ hid'.symm))

theorem InboundState.Sound.exactlyOnce {sha256Hex : Bytes → String} {w : InboundState}
    (h : w.Sound sha256Hex) (hdigest : Function.Injective sha256Hex) :
    w.ExactlyOnce sha256Hex where
  indexed := h.indexed.indexed
  derived _ hm hinbound := h.derived hm hinbound
  unique _ hm _ hm' _ _ _ hof hof' := h.unique hm hm' hof hof'
  completed d hd := by
    obtain ⟨r, hr, hof⟩ := h.completed d hd
    obtain ⟨d', hof', harchived⟩ := h.receipts r hr
    refine ⟨r, hr, hof.id, ?_, hof.envelope_from, hof.envelope_to, scheduled_of_ready hr⟩
    rw [hof.raw_key] at harchived ⊢
    rw [harchived, h.content hdigest harchived]
  no_conflict := h.indexed.acceptInbound_no_conflict

/-- **Exactly once.** However deliveries, redeliveries, redrives and crashes
    interleave, mail is indexed exactly once and none of it is lost. -/
theorem inbound_exactly_once (hdigest : Function.Injective ports.sha256Hex)
    (h : (inbound ports).machine.Reachable w) :
    w.shared.ExactlyOnce ports.sha256Hex ∧
      (∀ l w', (inbound ports).machine.step w l = some w' →
        w'.shared.store.Archived w.shared.archive) ∧
      ∀ ls w', (inbound ports).machine.Run w ls w' → w.shared.Settled w'.shared := by
  have hsound := inbound_sound hdigest h
  refine ⟨hsound.exactlyOnce hdigest, fun l w' hstep => inbound_archived hdigest h hstep, ?_⟩
  intro ls w' hrun
  exact hsound.settled (inbound_sound hdigest (hrun.reachable h)) (inbound_run_keeps hrun)

end system

end indexing

/-! ### A sample delivery

  One message with an attachment, under a digest without collisions that is
  SHA-256 on the message and on its envelope identity. -/

namespace Sample

def inboundText : String :=
  "From: Alice <alice@example.org>\r\nTo: agent@example.com\r\nSubject: Hello\r\n" ++
  "Content-Type: text/plain\r\nContent-Disposition: attachment; filename=note.txt\r\n" ++
  "\r\nHello\r\n"

def rawDigest : String := "7a3a07a08a9d6ff87e419ef2543a7d33762d341af7390391ed0b4a15904914fb"

def identityDigest : String := "c2c09abafe880dada499c965893768691c022484f0f3e3f0b49be5a782320031"

/-- `JSON.stringify([digest, from, to])` of the sample. -/
def identityText : String :=
  "[\"" ++ rawDigest ++ "\",\"alice@example.org\",\"agent@example.com\"]"

/-- Elsewhere, the bytes themselves. -/
def bytesText (bytes : Bytes) : String := String.ofList ('x' :: bytes.data.toList.map Char.ofUInt8)

def sha256Hex (bytes : Bytes) : String :=
  if bytes = inboundText.toUTF8 then rawDigest
  else if bytes = identityText.toUTF8 then identityDigest
  else bytesText bytes

theorem bytesText_injective : Function.Injective bytesText := by
  intro a b h
  have hlist := congrArg String.toList h
  simp only [bytesText, String.toList_ofList, List.cons.injEq, true_and] at hlist
  have hchar : Function.Injective Char.ofUInt8 := by
    intro x y hxy
    exact UInt8.toUInt32_inj.mp (congrArg Char.val hxy)
  exact ByteArray.ext (Array.toList_inj.mp (List.map_injective_iff.mpr hchar hlist))

/-- A hexadecimal digest is not the text of any bytes. -/
theorem bytesText_ne (bytes : Bytes) {digest : String} (h : digest.toList.head? ≠ some 'x') :
    bytesText bytes ≠ digest := by
  intro heq
  rw [← heq] at h
  simp [bytesText] at h

theorem sha256Hex_injective : Function.Injective sha256Hex := by
  have hraw : rawDigest.toList.head? ≠ some 'x' := by decide +kernel
  have hidentity : identityDigest.toList.head? ≠ some 'x' := by decide +kernel
  have hne : rawDigest ≠ identityDigest := by decide +kernel
  intro a b h
  unfold sha256Hex at h
  -- two inputs have fixed digests, and every other one a text that no digest starts like
  by_cases ha : a = inboundText.toUTF8 <;> by_cases hb : b = inboundText.toUTF8
  · exact ha.trans hb.symm
  · simp only [ha, hb, if_true, if_false] at h
    split at h
    · exact absurd h hne
    · exact absurd h.symm (bytesText_ne b hraw)
  · simp only [ha, hb, if_true, if_false] at h
    split at h
    · exact absurd h.symm hne
    · exact absurd h (bytesText_ne a hraw)
  · simp only [ha, hb, if_false] at h
    by_cases ha' : a = identityText.toUTF8 <;> by_cases hb' : b = identityText.toUTF8
    · exact ha'.trans hb'.symm
    · simp only [ha', hb', if_true, if_false] at h
      exact absurd h.symm (bytesText_ne b hidentity)
    · simp only [ha', hb', if_true, if_false] at h
      exact absurd h (bytesText_ne a hidentity)
    · simp only [ha', hb', if_false] at h
      exact bytesText_injective h

def inboundEmail : Email where
  attachments := [
    { filename := some "note.txt"
      mimeType := "text/plain"
      disposition := some "attachment"
      related := none
      contentId := none
      content := .bytes "Hello\r\n".toUTF8
      rfc822DepthExceeded := none }]
  messageId := none
  inReplyTo := none
  references := none
  date := none
  subject := some "Hello"
  text := none
  html := none
  «from» := some (.mk (some "alice@example.org") (some "Alice") none)
  replyTo := none
  «to» := some [.mk (some "agent@example.com") (some "") none]
  cc := none

def inboundPorts : InboundPorts where
  sha256Hex
  mime :=
    { parse := fun raw => if raw = inboundText.toUTF8 then .ok inboundEmail else .error "no headers"
      parseUtcInstant := fun _ => none }

def inboundMessage : InboundMessage where
  «from» := "alice@example.org"
  «to» := "agent@example.com"
  bodySize := inboundText.utf8ByteSize
  body := inboundText.toUTF8

/-- Nothing has been received yet. -/
def noMail : Lts.Pool InboundState InboundProcess where
  shared := { store := Store.empty, archive := fun _ => none, queue := [], forwards := [],
              completed := [] }
  procs _ := none

/-- The message is received and indexed. -/
def indexingRun : List (Lts.PoolLabel InboundEvent InboundStart InboundReply) :=
  [.env (.command (.createAddress "mailbox-1" "agent" "example.com" none 10 true)),
    .start 0 (.receive inboundMessage 100)] ++
  List.replicate 6 (.step 0 .unit) ++
  [.start 1 (.index ("in_" ++ identityDigest) 200)] ++
  List.replicate 4 (.step 1 .unit) ++
  [.step 1 (.sanitized none), .step 1 .unit, .step 1 .unit]

end Sample

open Sample in
/-- The sample run reaches a state with one indexed receipt. -/
theorem inbound_exactly_once_indexed :
    ∃ w : Lts.Pool InboundState InboundProcess, (inbound inboundPorts).machine.Reachable w ∧
      w.shared.store.receipts.rows.map (·.work_state) = [.indexed] ∧
      w.shared.store.attachments.rows.length = 1 ∧ w.shared.completed.length = 1 ∧
      w.shared.ExactlyOnce Sample.sha256Hex ∧
      (∀ l w', (inbound inboundPorts).machine.step w l = some w' →
        w'.shared.store.Archived w.shared.archive) ∧
      ∀ ls w', (inbound inboundPorts).machine.Run w ls w' → w.shared.Settled w'.shared := by
  have hrun : ((inbound inboundPorts).machine.fire noMail indexingRun).any (fun w =>
      w.shared.store.receipts.rows.map (·.work_state) = [.indexed] &&
        w.shared.store.attachments.rows.length = 1 && w.shared.completed.length = 1) = true := by
    decide +kernel
  obtain ⟨w, hfire, hw⟩ := (Option.any_eq_true _ _).mp hrun
  simp only [Bool.and_eq_true, decide_eq_true_eq] at hw
  obtain ⟨⟨hreceipts, hattachments⟩, hcompleted⟩ := hw
  have hinit : (inbound inboundPorts).machine.Reachable noMail :=
    .init ⟨⟨rfl, fun _ => rfl, rfl, rfl, rfl⟩, fun _ => rfl⟩
  have hreach : (inbound inboundPorts).machine.Reachable w :=
    (Lts.Machine.Run.of_fire hfire).reachable hinit
  exact ⟨w, hreach, hreceipts, hattachments, hcompleted,
    inbound_exactly_once sha256Hex_injective hreach⟩

end Umail
