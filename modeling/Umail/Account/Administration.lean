import Umail.Account.Commands

/-! # Mailbox administration

  `apps/server/src/account/administration.ts`: mailboxes, the sending
  identity of a mailbox, and the route rows that record routing intent.
-/

namespace Umail

open Relational

variable [Unicode]

/-! ### Reading mailboxes -/

structure AccountRouting where
  state : RoutingState
  error : Option String
  ruleId : Option String
  zoneId : Option String

structure AccountAddress where
  id : String
  localPart : String
  address : MailboxAddress
  displayName : Option String
  active : Bool
  forwardTo : Option String
  createdAt : Instant
  updatedAt : Instant
  domain : String
  canSend : Bool
  retiredAt : Option Instant
  routing : AccountRouting

structure AccountSendingIdentity where
  id : String
  address : MailboxAddress
  displayName : Option String

/-- The text after the last `@`. -/
def addressDomain (address : MailboxAddress) : String :=
  match splitAtLast '@' address.val.toList with
  | some (_, domain) => String.ofList domain
  | none => address.val

def toAddress (a : AddressRow) (r : MailboxRouteRow) : AccountAddress where
  id := a.id
  localPart := a.local_part
  address := a.address
  displayName := a.display_name
  active := a.active
  forwardTo := a.forward_to
  createdAt := a.created_at
  updatedAt := a.updated_at
  domain := addressDomain a.address
  canSend := a.send_enabled
  retiredAt := a.retired_at
  routing := { state := r.state, error := r.error, ruleId := r.rule_id, zoneId := r.zone_id }

/-- `FROM addresses a JOIN mailbox_routes r ON r.mailbox_id = a.id WHERE ..` -/
def mailboxWhere (s : Store) (p : AddressRow → Bool) : Option AccountAddress :=
  s.addresses.rows.findSome? fun a =>
    if p a then (s.routes.find? (·.mailbox_id = a.id)).map (toAddress a) else none

def getAddress (s : Store) (id : String) : Option AccountAddress :=
  mailboxWhere s (·.id = id)

def getAddressByMailbox (s : Store) (address : String) : Option AccountAddress :=
  mailboxWhere s (·.address.val = address)

def requireAddress (s : Store) (id : String) : Except StoreError AccountAddress :=
  match getAddress s id with
  | some address => .ok address
  | none => .error (.missing id)

def toSendingIdentity (a : AddressRow) : AccountSendingIdentity where
  id := a.id
  address := a.address
  displayName := a.display_name

/-- `active = 1 AND retired_at IS NULL AND send_enabled = 1` -/
def AddressRow.sendable (a : AddressRow) : Bool :=
  a.active && a.retired_at.isNone && a.send_enabled

def resolveSendingIdentity (s : Store) (id : String) : Option AccountSendingIdentity :=
  (s.addresses.find? fun a => a.id = id && a.sendable).map toSendingIdentity

/-! ### Changing mailboxes -/

def newRouteRow (mailboxId : String) (nowIso : Instant) : MailboxRouteRow where
  mailbox_id := mailboxId
  zone_id := none
  rule_id := none
  state := .pending
  error := none
  attempts := 0
  retry_after := some nowIso

def newAddressRow (id : String) (normalized : ParsedMailboxAddress)
    (displayName : Option String) (nowIso : Instant) (sendingAllowed : Bool) : AddressRow where
  id
  local_part := normalized.localPart.val
  address := normalized.address
  display_name := displayName
  active := true
  forward_to := none
  created_at := nowIso
  updated_at := nowIso
  retired_at := none
  send_enabled := sendingAllowed

/-- `null` when the address cannot be constructed. -/
def createAddress (s : Store) (id localPart mailDomain : String) (displayName : Option String)
    (nowIso : Instant) (sendingAllowed : Bool) :
    Except StoreError (Option AccountAddress × Store) :=
  match constructMailboxAddress localPart mailDomain with
  | .ok normalized =>
    match s.addresses.insert? (newAddressRow id normalized displayName nowIso sendingAllowed) with
    | none => .error (.accountConflict normalized.address.val)
    | some addresses => do
      let routes ← inserted (s.routes.insert? (newRouteRow id nowIso))
      let s₁ := { s with addresses, routes }
      let address ← requireAddress s₁ id
      return (some address, s₁)
  | _ => .ok (none, s)

/-- `UPDATE addresses SET .. WHERE id = ?` -/
def updateAddress (s : Store) (id : String) (f : AddressRow → AddressRow)
    (hf : ∀ a, Keyed.key (f a) = Keyed.key a) : Store :=
  { s with addresses := s.addresses.update (·.id = id) f hf }

/-- `UPDATE mailbox_routes SET .. WHERE mailbox_id = ?` -/
def updateRoute (s : Store) (id : String) (f : MailboxRouteRow → MailboxRouteRow)
    (hf : ∀ r, Keyed.key (f r) = Keyed.key r) : Store :=
  { s with routes := s.routes.update (·.mailbox_id = id) f hf }

/-- `PatchAddressInput`: an absent field is not assigned. -/
structure PatchAddressInput where
  displayName : Option (Option String)
  active : Option Bool

def patchAddress (s : Store) (id : String) (patch : PatchAddressInput) (nowIso : Instant) :
    Except StoreError (Option AccountAddress × Store) :=
  match getAddress s id with
  | none => .ok (none, s)
  | some current =>
    if current.retiredAt.isSome then .ok (none, s)
    else if patch.displayName.isNone && patch.active.isNone then .ok (some current, s)
    else do
      let s₁ := updateAddress s id (fun a => { a with
        display_name := patch.displayName.getD a.display_name
        active := patch.active.getD a.active
        updated_at := nowIso }) fun _ => rfl
      let address ← requireAddress s₁ id
      return (some address, s₁)

def setAddressForwarding (s : Store) (addressId : String) (forwardTo : Option String)
    (nowIso : Instant) : Except StoreError (Option AccountAddress × Store) :=
  match getAddress s addressId with
  | none => .ok (none, s)
  | some _ => do
    let s₁ := updateAddress s addressId
      (fun a => { a with forward_to := forwardTo, updated_at := nowIso }) fun _ => rfl
    let address ← requireAddress s₁ addressId
    return (some address, s₁)

def retireAddress (s : Store) (id : String) (nowIso : Instant) :
    Except StoreError (Option AccountAddress × Store) :=
  match getAddress s id with
  | none => .ok (none, s)
  | some current =>
    if current.retiredAt.isSome then .ok (some current, s)
    else do
      let s₁ := updateAddress s id (fun a => { a with
        active := false
        retired_at := some nowIso
        updated_at := nowIso }) fun _ => rfl
      let s₂ := updateRoute s₁ id (fun r => { r with
        state := .pending
        error := none
        retry_after := some nowIso }) fun _ => rfl
      let address ← requireAddress s₂ id
      return (some address, s₂)

def retryAddressRouting (s : Store) (id : String) (nowIso : Instant) :
    Except StoreError (Option AccountAddress × Store) :=
  match getAddress s id with
  | none => .ok (none, s)
  | some _ => do
    let s₁ := updateRoute s id (fun r => { r with
      state := .pending
      error := none
      attempts := 0
      retry_after := some nowIso }) fun _ => rfl
    let address ← requireAddress s₁ id
    return (some address, s₁)

/-- The text after the first `@`: `substr(address, instr(address, '@') + 1)`. -/
def firstDomain (address : MailboxAddress) : String :=
  if '@' ∈ address.val.toList then
    String.ofList ((address.val.toList.dropWhile (· ≠ '@')).drop 1)
  else address.val

def configureSendingDomains (s : Store) (names : List String) : Store :=
  { s with
    addresses := s.addresses.update (fun _ => true)
      (fun a => { a with send_enabled := firstDomain a.address ∈ names }) fun _ => rfl }

end Umail
