import Umail.Contract.PolicyList
import Umail.Framework.JsonRead

/-! # Access policies

  `encodePolicy`, `decodeStoredPolicy` and `policyFromForm` of
  `apps/server/src/auth/access.ts`. A policy is stored as a JSON text, and is
  made from the fields of a form.
-/

namespace Umail

open Json

section access
variable [Unicode]

/-! ### Stored policies -/

def stringItem : Data → Option String
  | .string s => some s
  | _ => none

def addressItem (item : Data) : Option ExternalMailAddress :=
  (stringItem item).bind decodeExternalMailAddress

def PrincipalMailboxIds.data : PrincipalMailboxIds → Data
  | .all => .string "all"
  | .only first rest => .array ((first :: rest).map .string)

def decodePrincipalMailboxIds : Data → Option PrincipalMailboxIds
  | .string s => if s = "all" then some .all else none
  | .array items =>
    match items.mapM stringItem with
    | some (first :: rest) => some (.only first rest)
    | _ => none
  | _ => none

def addressData (address : ExternalMailAddress) : Data := .string address.val

def PrincipalRecipientAllowlist.data : PrincipalRecipientAllowlist → Data
  | .any => .string "any"
  | .only first rest => .array ((first :: rest).map addressData)

def decodePrincipalRecipientAllowlist : Data → Option PrincipalRecipientAllowlist
  | .string s => if s = "any" then some .any else none
  | .array items =>
    match items.mapM addressItem with
    | some (first :: rest) => some (.only first rest)
    | _ => none
  | _ => none

def PrincipalSendMode.data : PrincipalSendMode → Data
  | .deny => .object [("kind", .string "deny")]
  | .allow => .object [("kind", .string "allow")]
  | .requireApproval preapprovedRecipients => .object
      [("kind", .string "requireApproval"),
        ("preapprovedRecipients", .array (preapprovedRecipients.map addressData))]

def decodePrincipalSendMode (value : Data) : Option PrincipalSendMode :=
  match value.member "kind" with
  | some (.string kind) =>
    if kind = "deny" then some .deny
    else if kind = "allow" then some .allow
    else if kind = "requireApproval" then
      match value.member "preapprovedRecipients" with
      | some (.array items) => (items.mapM addressItem).map .requireApproval
      | _ => none
    else none
  | _ => none

def PrincipalPolicy.data (policy : PrincipalPolicy) : Data :=
  .object
    [("mailboxIds", policy.mailboxIds.data), ("canRead", .bool policy.canRead),
      ("sendMode", policy.sendMode.data), ("recipientAllowlist", policy.recipientAllowlist.data)]

def decodePrincipalPolicy (value : Data) : Option PrincipalPolicy := do
  let mailboxIds ← (value.member "mailboxIds").bind decodePrincipalMailboxIds
  let canRead ← match value.member "canRead" with
    | some (.bool canRead) => some canRead
    | _ => none
  let sendMode ← (value.member "sendMode").bind decodePrincipalSendMode
  let recipientAllowlist ←
    (value.member "recipientAllowlist").bind decodePrincipalRecipientAllowlist
  return { mailboxIds, canRead, sendMode, recipientAllowlist }

def encodePolicy (policy : PrincipalPolicy) : String := String.ofList policy.data.text

/-- The policy of a `PolicyRow`, or `null`. -/
def decodeStoredPolicy (row : Data) : Option PrincipalPolicy :=
  match row.member "policy" with
  | some (.string stored) => (parse stored.toList).bind decodePrincipalPolicy
  | _ => none

omit [Unicode] in
theorem mapM_stringItem (ids : List String) : (ids.map Data.string).mapM stringItem = some ids := by
  induction ids with
  | nil => rfl
  | cons id ids ih => simp [List.mapM_cons, stringItem, ih]

theorem mapM_addressItem (addresses : List ExternalMailAddress) :
    (addresses.map addressData).mapM addressItem = some addresses := by
  induction addresses with
  | nil => rfl
  | cons address addresses ih =>
    have hitem : addressItem (addressData address) = some address :=
      decodeExternalMailAddress_val address
    simp [List.mapM_cons, hitem, ih]

omit [Unicode] in
theorem decodePrincipalMailboxIds_data (mailboxIds : PrincipalMailboxIds) :
    decodePrincipalMailboxIds mailboxIds.data = some mailboxIds := by
  cases mailboxIds with
  | all => rfl
  | only first rest =>
    simp only [PrincipalMailboxIds.data, decodePrincipalMailboxIds, mapM_stringItem]

theorem decodePrincipalRecipientAllowlist_data (allowlist : PrincipalRecipientAllowlist) :
    decodePrincipalRecipientAllowlist allowlist.data = some allowlist := by
  cases allowlist with
  | any => rfl
  | only first rest =>
    simp only [PrincipalRecipientAllowlist.data, decodePrincipalRecipientAllowlist,
      mapM_addressItem]

theorem decodePrincipalSendMode_data (sendMode : PrincipalSendMode) :
    decodePrincipalSendMode sendMode.data = some sendMode := by
  cases sendMode with
  | deny => rfl
  | allow => rfl
  | requireApproval preapprovedRecipients =>
    have hitems := mapM_addressItem preapprovedRecipients
    have hmember : (PrincipalSendMode.requireApproval preapprovedRecipients).data.member
        "preapprovedRecipients" = some (.array (preapprovedRecipients.map addressData)) := rfl
    unfold decodePrincipalSendMode
    rw [hmember]
    simp only [hitems]
    rfl

theorem decodePrincipalPolicy_data (policy : PrincipalPolicy) :
    decodePrincipalPolicy policy.data = some policy := by
  have hmailboxes := decodePrincipalMailboxIds_data policy.mailboxIds
  have hsending := decodePrincipalSendMode_data policy.sendMode
  have hrecipients := decodePrincipalRecipientAllowlist_data policy.recipientAllowlist
  unfold decodePrincipalPolicy
  rw [show policy.data.member "mailboxIds" = some policy.mailboxIds.data from rfl,
    show policy.data.member "canRead" = some (.bool policy.canRead) from rfl,
    show policy.data.member "sendMode" = some policy.sendMode.data from rfl,
    show policy.data.member "recipientAllowlist" = some policy.recipientAllowlist.data from rfl]
  simp only [Option.bind_some, hmailboxes, hsending, hrecipients]
  rfl

/-- **Storage.** A stored policy is read back. -/
theorem decodeStoredPolicy_encode (policy : PrincipalPolicy) :
    decodeStoredPolicy (.object [("policy", .string (encodePolicy policy))]) = some policy := by
  have hmember : (Data.object [("policy", .string (encodePolicy policy))]).member "policy" =
      some (.string (encodePolicy policy)) := rfl
  unfold decodeStoredPolicy
  rw [hmember]
  simp only [encodePolicy, String.toList_ofList, parse_text, Option.bind_some,
    decodePrincipalPolicy_data]

/-! ### The policy form -/

/-- The `kind` of a `PrincipalSendMode`. -/
inductive SendModeKind where
  | deny
  | allow
  | requireApproval
deriving DecidableEq

def SendModeKind.value : SendModeKind → String
  | .deny => "deny"
  | .allow => "allow"
  | .requireApproval => "requireApproval"

/-- `PolicyForm` -/
structure PolicyForm where
  mailboxes : String
  sendMode : SendModeKind
  canRead : Option Bool
  recipients : Option String
  preapproved : Option String

def decodeSendMode : Option Data → Option SendModeKind
  | some (.string s) =>
    if s = "deny" then some .deny
    else if s = "allow" then some .allow
    else if s = "requireApproval" then some .requireApproval
    else none
  | _ => none

/-- `Schema.optionalKey(Schema.String)` -/
def optionalString : Option Data → Option (Option String)
  | none => some none
  | some (.string s) => some (some s)
  | some _ => none

/-- `Schema.optionalKey(Schema.Boolean)` -/
def optionalBoolean : Option Data → Option (Option Bool)
  | none => some none
  | some (.bool b) => some (some b)
  | some _ => none

def decodePolicyForm (input : Data) : Option PolicyForm := do
  let mailboxes ← (input.member "mailboxes").bind stringItem
  let sendMode ← decodeSendMode (input.member "sendMode")
  let canRead ← optionalBoolean (input.member "canRead")
  let recipients ← optionalString (input.member "recipients")
  let preapproved ← optionalString (input.member "preapproved")
  return { mailboxes, sendMode, canRead, recipients, preapproved }

inductive PolicyField where
  | mailboxes
  | recipients
  | preapproved

inductive PolicyFormResult where
  | ok (policy : PrincipalPolicy)
  | invalid (field : PolicyField) (message : String)

def notAnAddress (value : String) : String := "“" ++ value ++ "” is not an email address."

/-- The send mode of a form, or the entry of `preapproved` that is no address. -/
def formSendMode (form : PolicyForm) : Except String PrincipalSendMode :=
  match form.sendMode with
  | .deny => .ok .deny
  | .allow => .ok .allow
  | .requireApproval => (parseMailAddressList (form.preapproved.getD "")).map .requireApproval

/-- Omitted fields give read access and any recipient. -/
def policyFromForm (input : Data) : PolicyFormResult :=
  match decodePolicyForm input with
  | none =>
    .invalid .mailboxes "Choose which mailboxes this client may use and how it may send."
  | some form =>
    match parsePrincipalMailboxIds form.mailboxes with
    | none => .invalid .mailboxes "Choose at least one mailbox."
    | some mailboxIds =>
      match parsePrincipalRecipientAllowlist (form.recipients.getD "any") with
      | .empty => .invalid .recipients "List at least one recipient, or allow anyone."
      | .invalid_address value => .invalid .recipients (notAnAddress value)
      | .ok recipientAllowlist =>
        match formSendMode form with
        | .error value => .invalid .preapproved (notAnAddress value)
        | .ok sendMode =>
          .ok { mailboxIds, canRead := form.canRead.getD true, sendMode, recipientAllowlist }

/-! ### Policies from a form -/

/-- The recipients that need no approval; none where no message needs one. -/
def PrincipalSendMode.preapproved : PrincipalSendMode → List ExternalMailAddress
  | .requireApproval preapprovedRecipients => preapprovedRecipients
  | _ => []

/-- A policy whose lists can be entered in a form. -/
structure PrincipalPolicy.Enterable (policy : PrincipalPolicy) : Prop where
  mailboxes : ∀ id ∈ policy.mailboxIds.ids, IsEntry id
  preapproved : Listed policy.sendMode.preapproved
  recipients : Listed policy.recipientAllowlist.addresses

theorem Listed.nil : Listed [] := ⟨List.nodup_nil, fun _ h => absurd h List.not_mem_nil⟩

theorem formSendMode_listed [LawfulSeparator] {form : PolicyForm} {sendMode : PrincipalSendMode}
    (h : formSendMode form = .ok sendMode) : Listed sendMode.preapproved := by
  unfold formSendMode at h
  split at h
  · cases h
    exact .nil
  · cases h
    exact .nil
  · cases hparse : parseMailAddressList (form.preapproved.getD "") with
    | error value => simp [hparse, Except.map] at h
    | ok addresses =>
      rw [hparse] at h
      cases h
      exact parseMailAddressList_listed hparse

/-- What a form yields can be entered in one. -/
theorem policyFromForm_enterable [LawfulSeparator] {input : Data} {policy : PrincipalPolicy}
    (h : policyFromForm input = .ok policy) : policy.Enterable := by
  unfold policyFromForm at h
  split at h
  · cases h
  split at h
  · cases h
  next mailboxIds hmailboxes =>
  split at h
  · cases h
  · cases h
  next recipientAllowlist hrecipients =>
  split at h
  · cases h
  next sendMode hsending =>
  cases h
  exact
    { mailboxes := parsePrincipalMailboxIds_entries hmailboxes
      preapproved := formSendMode_listed hsending
      recipients := parsePrincipalRecipientAllowlist_listed hrecipients }

end access

end Umail
