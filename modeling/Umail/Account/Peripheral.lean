import Umail.Account.Effects
import Umail.Contract.MailboxForm

/-! # Receipts, mailboxes and routes

  The three tables around the mail itself, each with the commands that write
  it. Every other command leaves all three alone.
-/

namespace Umail

open Relational

variable [Unicode]

/-- The command may write receipts, mailboxes or routes. -/
def Command.peripheral : Command → Bool
  | .acceptInbound _ => true
  | .registerInboundReceipt _ => true
  | .observeInboundForward _ => true
  | .failInboundReceiptPolicy _ _ => true
  | .redriveDueInboundReceipts _ _ => true
  | .createAddress _ _ _ _ _ _ => true
  | .patchAddress _ _ _ => true
  | .setAddressForwarding _ _ _ => true
  | .retireAddress _ _ => true
  | .retryAddressRouting _ _ => true
  | .configureSendingDomains _ => true
  | .writeRoute _ _ => true
  | _ => false

/-- The tables around the mail are as before. -/
structure SamePeripherals (s s' : Store) : Prop where
  receipts : s'.receipts = s.receipts
  addresses : s'.addresses = s.addresses
  routes : s'.routes = s.routes

variable {s s' : Store}

theorem SamePeripherals.refl (s : Store) : SamePeripherals s s := ⟨rfl, rfl, rfl⟩

theorem SamePeripherals.of_committedSnd {α : Type} {r : Except StoreError (α × Store)}
    (h : ∀ a s', r = .ok (a, s') → SamePeripherals s s') :
    SamePeripherals s (committedSnd s r) := committedSnd_of (.refl s) h

theorem SamePeripherals.of_committed {r : Except StoreError Store}
    (h : ∀ s', r = .ok s' → SamePeripherals s s') : SamePeripherals s (committed s r) :=
  committed_of (.refl s) h

theorem writeThreadedMail_peripherals {write : ThreadedMailWrite} {r : AcceptMessageResult}
    (h : writeThreadedMail s write = .ok (r, s')) : SamePeripherals s s' := by
  have hframe := writeThreadedMail_frame h
  constructor <;> rw [hframe]

/-- **Frame.** Mail, jobs and approvals are written without touching the rest. -/
theorem exec_peripherals {c : Command} (h : c.peripheral = false) :
    SamePeripherals s (s.exec c) := by
  cases c with
  | submitOutbound input ids =>
    refine .of_committedSnd ?_
    intro r s' hok
    rcases submitOutbound_ok hok with ⟨rfl, -⟩ | ⟨-, _, _, _, hsub, -⟩
    · exact .refl _
    · -- the threaded write, and the new jobs and approval
      obtain ⟨r, s₁, hwrite, heq⟩ := hsub.written
      have hsame := writeThreadedMail_peripherals hwrite
      constructor
      · rw [heq]
        exact hsame.receipts
      · rw [heq]
        exact hsame.addresses
      · rw [heq]
        exact hsame.routes
  | decideApproval input =>
    refine .of_committedSnd ?_
    intro r s' hok
    rcases decideApproval_ok hok with rfl | ⟨a, -, -, -, j, -, -, -, rfl⟩
    · exact .refl _
    · unfold applyDecision
      cases input.decision <;> exact ⟨rfl, rfl, rfl⟩
  | claimJob input =>
    refine .of_committedSnd ?_
    intro r s' hok
    rcases claimJob_ok hok with ⟨rfl, -⟩ | ⟨j, -, -, ⟨_, -, rfl, -⟩ | ⟨-, rfl, -⟩⟩
    · exact .refl _
    · exact ⟨rfl, rfl, rfl⟩
    · exact ⟨rfl, rfl, rfl⟩
  | completeAttempt input =>
    refine .of_committedSnd ?_
    intro r s' hok
    rcases completeAttempt_ok hok with rfl | ⟨j, -, -, -, -, hrecord⟩
    · exact .refl _
    · rcases recordOutcome_ok hrecord with ⟨_, _, -, hlink⟩ | ⟨_, -, -, rfl⟩ | rfl
      · obtain ⟨self, -, -, survivor, merged, -, -, rfl⟩ := linkThread_ok hlink
        exact ⟨rfl, rfl, rfl⟩
      · exact ⟨rfl, rfl, rfl⟩
      · exact ⟨rfl, rfl, rfl⟩
  | rejectUndispatched messageIds failure nowIso => exact ⟨rfl, rfl, rfl⟩
  | expireDueApprovals nowIso => exact ⟨rfl, rfl, rfl⟩
  | settleAbandonedClaims nowIso => exact ⟨rfl, rfl, rfl⟩
  | softDeleteThread handle scope deletedAt =>
    refine .of_committed ?_
    intro s' hok
    obtain ⟨threadId, -, rfl⟩ := softDeleteThread_ok hok
    exact ⟨rfl, rfl, rfl⟩
  | markThreadRead handle isRead scope nowIso =>
    refine .of_committed ?_
    intro s' hok
    obtain ⟨threadId, rfl⟩ := markThreadRead_ok hok
    exact ⟨rfl, rfl, rfl⟩
  | acceptInbound _ | registerInboundReceipt _ | observeInboundForward _
  | failInboundReceiptPolicy _ _ | redriveDueInboundReceipts _ _ | createAddress _ _ _ _ _ _
  | patchAddress _ _ _ | setAddressForwarding _ _ _ | retireAddress _ _
  | retryAddressRouting _ _ | configureSendingDomains _ | writeRoute _ _ =>
    exact absurd h (by simp [Command.peripheral])

/-! ### Mailboxes and routes -/

/-- A route keeps its mailbox. -/
abbrev MailboxRouteRow.SameMailbox (r r' : MailboxRouteRow) : Prop := r'.mailbox_id = r.mailbox_id

/-- A route keeps what is known about its rule. It is as before, or due. -/
structure MailboxRouteRow.Requested (r r' : MailboxRouteRow) : Prop where
  mailbox : r'.mailbox_id = r.mailbox_id
  zone : r'.zone_id = r.zone_id
  due : r' = r ∨ r'.retry_after.isSome = true

omit [Unicode] in
theorem MailboxRouteRow.Requested.refl (r : MailboxRouteRow) : r.Requested r :=
  ⟨rfl, rfl, .inl rfl⟩

/-- A mailbox keeps its name, and its retirement. -/
structure AddressRow.Later (a a' : AddressRow) : Prop where
  id : a'.id = a.id
  address : a'.address = a.address
  retired : a.retired_at.isSome = true → a'.retired_at.isSome = true

theorem AddressRow.Later.refl (a : AddressRow) : a.Later a := ⟨rfl, rfl, fun h => h⟩

/-- The commands record what is wanted of a route; what has become of it is
    left to the reconciliation. -/
structure Administers (s s' : Store) : Prop where
  /-- A new mailbox has an address that was constructed for it. -/
  addresses : s.addresses.Extends AddressRow.Later (fun a => a.address.Registrable) s'.addresses
  /-- A new route is due, and has its mailbox. -/
  routes : s.routes.Extends MailboxRouteRow.Requested
    (fun r => r.retry_after.isSome = true ∧ ∃ a ∈ s'.addresses, a.id = r.mailbox_id) s'.routes

theorem Administers.of_same (haddresses : s'.addresses = s.addresses)
    (hroutes : s'.routes = s.routes) : Administers s s' := by
  constructor
  · rw [haddresses]
    exact .refl AddressRow.Later.refl _
  · rw [hroutes]
    exact .refl MailboxRouteRow.Requested.refl _

theorem Administers.refl (s : Store) : Administers s s := .of_same rfl rfl

theorem createAddress_administers {id localPart mailDomain : String} {displayName : Option String}
    {nowIso : Instant} {sendingAllowed : Bool} {r : Option AccountAddress}
    (h : createAddress s id localPart mailDomain displayName nowIso sendingAllowed = .ok (r, s')) :
    Administers s s' := by
  rcases createAddress_cases h with rfl | ⟨normalized, _, _, hnormalized, hins, hroutes, rfl⟩
  · exact .refl _
  · constructor
    · refine .append AddressRow.Later.refl (Table.insert?_rows hins) fun a ha => ?_
      obtain rfl := List.mem_singleton.mp ha
      exact ⟨localPart, mailDomain, normalized, hnormalized, rfl⟩
    · refine .append MailboxRouteRow.Requested.refl (Table.insert?_rows hroutes) fun r hr => ?_
      obtain rfl := List.mem_singleton.mp hr
      exact ⟨rfl, _, (Table.mem_insert? hins).mpr (.inr rfl), rfl⟩

theorem patchAddress_administers {id : String} {patch : PatchAddressInput} {nowIso : Instant}
    {r : Option AccountAddress} (h : patchAddress s id patch nowIso = .ok (r, s')) :
    Administers s s' := by
  rcases patchAddress_cases h with rfl | rfl
  · exact .refl _
  · constructor
    · exact .update rfl .refl fun _ _ _ => ⟨rfl, rfl, fun h => h⟩
    · exact .refl .refl _

theorem setAddressForwarding_administers {addressId : String} {forwardTo : Option String}
    {nowIso : Instant} {r : Option AccountAddress}
    (h : setAddressForwarding s addressId forwardTo nowIso = .ok (r, s')) : Administers s s' := by
  rcases setAddressForwarding_cases h with rfl | rfl
  · exact .refl _
  · constructor
    · exact .update rfl .refl fun _ _ _ => ⟨rfl, rfl, fun h => h⟩
    · exact .refl .refl _

theorem retireAddress_administers {id : String} {nowIso : Instant} {r : Option AccountAddress}
    (h : retireAddress s id nowIso = .ok (r, s')) : Administers s s' := by
  rcases retireAddress_cases h with rfl | rfl
  · exact .refl _
  · constructor
    · exact .update rfl .refl fun _ _ _ => ⟨rfl, rfl, fun _ => rfl⟩
    · exact .update rfl .refl fun _ _ _ => ⟨rfl, rfl, .inr rfl⟩

theorem retryAddressRouting_administers {id : String} {nowIso : Instant}
    {r : Option AccountAddress} (h : retryAddressRouting s id nowIso = .ok (r, s')) :
    Administers s s' := by
  rcases retryAddressRouting_cases h with rfl | rfl
  · exact .refl _
  · constructor
    · exact .refl .refl _
    · exact .update rfl .refl fun _ _ _ => ⟨rfl, rfl, .inr rfl⟩

/-- Every command but the writes of the reconciliation itself. -/
theorem exec_administers (s : Store) {c : Command} (hc : ∀ id write, c ≠ .writeRoute id write) :
    Administers s (s.exec c) := by
  by_cases hp : c.peripheral = false
  · have hsame := exec_peripherals (s := s) hp
    exact .of_same hsame.addresses hsame.routes
  -- a command of the mail flow keeps mailboxes and routes
  cases c with
  | acceptInbound input =>
    apply committedSnd_of (.refl s)
    intro r s' hok
    rcases acceptInbound_ok hok with rfl | ⟨_, -, -, -, r', s₁, hwrite, rfl⟩
    · exact .refl _
    · have hsame := writeThreadedMail_peripherals hwrite
      exact .of_same hsame.addresses hsame.routes
  | registerInboundReceipt input =>
    show Administers s (registerInboundReceipt s input)
    unfold registerInboundReceipt
    split
    · exact .of_same rfl rfl
    · exact .of_same rfl rfl
  | observeInboundForward _ | failInboundReceiptPolicy _ _ | redriveDueInboundReceipts _ _ =>
    exact .of_same rfl rfl
  | configureSendingDomains names =>
    constructor
    · exact .update rfl .refl fun _ _ _ => ⟨rfl, rfl, fun h => h⟩
    · exact .refl .refl _
  | createAddress => exact committedSnd_of (.refl s) fun _ _ => createAddress_administers
  | patchAddress => exact committedSnd_of (.refl s) fun _ _ => patchAddress_administers
  | setAddressForwarding =>
    exact committedSnd_of (.refl s) fun _ _ => setAddressForwarding_administers
  | retireAddress => exact committedSnd_of (.refl s) fun _ _ => retireAddress_administers
  | retryAddressRouting =>
    exact committedSnd_of (.refl s) fun _ _ => retryAddressRouting_administers
  | writeRoute id write => exact absurd rfl (hc id write)
  | submitOutbound _ _ | decideApproval _ | claimJob _ | completeAttempt _
  | rejectUndispatched _ _ _ | expireDueApprovals _ | settleAbandonedClaims _
  | softDeleteThread _ _ _ | markThreadRead _ _ _ _ => exact absurd rfl hp

/-- Routes are never dropped. -/
theorem exec_routes (s : Store) (c : Command) :
    s.routes.Extends MailboxRouteRow.SameMailbox (fun _ => True) (s.exec c).routes := by
  by_cases hc : ∀ id write, c ≠ .writeRoute id write
  · exact (exec_administers s hc).routes.mono (fun _ _ h => h.mailbox) fun _ _ => trivial
  · push Not at hc
    obtain ⟨id, write, rfl⟩ := hc
    exact Table.Extends.update rfl (fun _ => rfl) fun r _ _ => by cases write <;> rfl

end Umail
