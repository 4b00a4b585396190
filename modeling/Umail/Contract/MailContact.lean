import Umail.Contract.Text

/-! # Mail addresses

  `packages/api-contract/src/mail-contact.ts` and `mailbox-address.ts`: the
  canonical external address, the mailbox address, and their parsers. An
  address value carries the proof that it is canonical, as decoding a stored
  row checks it.
-/

namespace Umail

variable [Unicode]

/-! ### External addresses -/

/-- `hasDisallowedAddressChar` of one character. -/
def isDisallowedAddressChar (c : Char) : Bool := c.toNat ≤ 0x20 || c.toNat = 0x7f

def isCanonicalExternalMailAddress (raw : String) : Bool :=
  match splitAtLast '@' raw.toList with
  | none => false
  | some (localPart, domain) =>
    !localPart.isEmpty && !domain.isEmpty &&
      String.ofList domain = toLowerCase (String.ofList domain) &&
      !localPart.any isDisallowedAddressChar && !domain.any isDisallowedAddressChar &&
      !localPart.contains '@' && !domain.contains '@'

/-- A bare address such as `name@example.com` with a lower-case domain. -/
def ExternalMailAddress : Type :=
  { raw : String // isCanonicalExternalMailAddress raw = true }

instance : DecidableEq ExternalMailAddress := inferInstanceAs (DecidableEq (Subtype _))

def comparisonKey (address : ExternalMailAddress) : String := address.val

/-- What `parseExternalMailAddress` returns when it succeeds. -/
structure ParsedExternalMailAddress where
  localPart : String
  domain : String
  address : ExternalMailAddress
  comparisonKey : String

def parseExternalMailAddress (raw : String) : Option ParsedExternalMailAddress :=
  match splitAtLast '@' (trim raw.toList) with
  | none => none
  | some (localPart, rawDomain) =>
    if localPart.isEmpty || rawDomain.isEmpty then none
    else
      let domain := toLowerCase (String.ofList rawDomain)
      if domain.toList.isEmpty || localPart.any isDisallowedAddressChar ||
          domain.toList.any isDisallowedAddressChar || localPart.contains '@' ||
          domain.toList.contains '@' then none
      else
        let formatted := String.ofList localPart ++ "@" ++ domain
        if h : isCanonicalExternalMailAddress formatted = true then
          some {
            localPart := String.ofList localPart
            domain
            address := ⟨formatted, h⟩
            comparisonKey := formatted }
        else none

/-! ### Mailbox addresses -/

/-- `[A-Za-z0-9._-]` -/
def isRawLocalPartChar (c : Char) : Bool :=
  ('a' ≤ c && c ≤ 'z') || ('A' ≤ c && c ≤ 'Z') || ('0' ≤ c && c ≤ '9') ||
    c = '.' || c = '_' || c = '-'

/-- `[a-z0-9._-]` -/
def isLocalPartChar (c : Char) : Bool :=
  ('a' ≤ c && c ≤ 'z') || ('0' ≤ c && c ≤ '9') || c = '.' || c = '_' || c = '-'

def reservedLocalParts : List String :=
  ["postmaster", "abuse", "webmaster", "hostmaster", "admin", "administrator", "root",
   "mailer-daemon"]

/-- `Schema.isLowercased` -/
def isLowercased (raw : String) : Bool := raw = toLowerCase raw

/-- `MailDomain` -/
def isMailDomain (raw : String) : Bool :=
  !raw.toList.isEmpty && !raw.toList.contains '@' && isLowercased raw

/-- `MailboxLocalPart` -/
def isMailboxLocalPart (raw : String) : Bool :=
  !raw.toList.isEmpty && raw.toList.all isLocalPartChar && isLowercased raw

/-- `MailboxAddress`: `CANONICAL_ADDRESS` has exactly one `@`. -/
def isMailboxAddress (raw : String) : Bool :=
  (match splitAtLast '@' raw.toList with
    | none => false
    | some (localPart, domain) =>
      !localPart.isEmpty && localPart.all isLocalPartChar && !domain.isEmpty) &&
    isLowercased raw

def MailDomain : Type := { raw : String // isMailDomain raw = true }

def MailboxLocalPart : Type := { raw : String // isMailboxLocalPart raw = true }

def MailboxAddress : Type := { raw : String // isMailboxAddress raw = true }

instance : DecidableEq MailDomain := inferInstanceAs (DecidableEq (Subtype _))
instance : DecidableEq MailboxAddress := inferInstanceAs (DecidableEq (Subtype _))

structure ParsedMailboxAddress where
  localPart : MailboxLocalPart
  domain : MailDomain
  address : MailboxAddress

/-- `RegistrationMailboxAddressResult` -/
inductive RegistrationMailboxAddress where
  | ok (parsed : ParsedMailboxAddress)
  | invalid
  | reserved

def decodeMailDomain (canonical : String) : Option MailDomain :=
  if h : isMailDomain canonical = true then some ⟨canonical, h⟩ else none

def decodeMailboxLocalPart (canonical : String) : Option MailboxLocalPart :=
  if h : isMailboxLocalPart canonical = true then some ⟨canonical, h⟩ else none

def decodeRawMailboxLocalPart (raw : List Char) : Option MailboxLocalPart :=
  if !raw.isEmpty && raw.all isRawLocalPartChar then
    decodeMailboxLocalPart (toLowerCase (String.ofList raw))
  else none

def parseMailDomain (raw : String) : Option MailDomain :=
  decodeMailDomain (toLowerCase (String.ofList (trim raw.toList)))

def parseMailboxLocalPart (raw : String) : Option MailboxLocalPart :=
  decodeRawMailboxLocalPart (trim raw.toList)

def assembleMailboxAddress (localPart : MailboxLocalPart) (domain : MailDomain) :
    Option ParsedMailboxAddress :=
  let formatted := localPart.val ++ "@" ++ domain.val
  if h : isMailboxAddress formatted = true then
    some { localPart, domain, address := ⟨formatted, h⟩ }
  else none

def parseMailboxAddress (raw : String) : Option ParsedMailboxAddress :=
  match splitAtLast '@' (trim raw.toList) with
  | none => none
  | some (before, after) =>
    if before.isEmpty || after.isEmpty then none
    else
      match decodeRawMailboxLocalPart before,
          decodeMailDomain (toLowerCase (String.ofList after)) with
      | some localPart, some domain => assembleMailboxAddress localPart domain
      | _, _ => none

def constructMailboxAddress (rawLocalPart rawDomain : String) : RegistrationMailboxAddress :=
  match parseMailboxLocalPart rawLocalPart, parseMailDomain rawDomain with
  | some localPart, some domain =>
    if localPart.val ∈ reservedLocalParts then .reserved
    else
      match assembleMailboxAddress localPart domain with
      | some parsed => .ok parsed
      | none => .invalid
  | _, _ => .invalid

end Umail
