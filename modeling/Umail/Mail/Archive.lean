import Umail.Contract.MailContact
import Umail.Framework.Json

/-! # Names of archived objects

  The object keys of `mail/policy.ts` and the ids of `mail/archive.ts`. A
  receipt id hashes the digest of the raw message together with its envelope,
  so, as far as the digest has no collisions, it names one raw message from
  one sender to one mailbox.
-/

namespace Umail

/-- An `ArrayBuffer` or a `Uint8Array`. -/
abbrev Bytes := ByteArray

instance : DecidableEq Bytes := ByteArray.instDecidableEq

/-! ### Keys -/

def rawObjectKey (digest : String) : String := "raw/" ++ digest ++ ".eml"

def attachmentObjectKey (messageId : String) (position : Nat) : String :=
  "attachments/" ++ messageId ++ "/" ++ toString position

def inboundAttachmentId (messageId : String) (position : Nat) : String :=
  "att_" ++ messageId ++ "_" ++ toString position

theorem rawObjectKey_injective : Function.Injective rawObjectKey := by
  intro d d' h
  have hlist := congrArg String.toList h
  simp only [rawObjectKey, String.toList_append] at hlist
  exact String.toList_inj.mp (List.append_cancel_left (List.append_cancel_right hlist))

/-- An attachment is never archived over a raw message. -/
theorem attachmentObjectKey_ne_raw (messageId : String) (position : Nat) (digest : String) :
    attachmentObjectKey messageId position ≠ rawObjectKey digest := by
  intro h
  have hlist := congrArg String.toList h
  simp only [rawObjectKey, attachmentObjectKey, String.toList_append] at hlist
  exact absurd (congrArg List.head? hlist) (by simp)

/-! ### Receipt ids -/

section ids
variable [Unicode]

/-- The text that is hashed: `JSON.stringify([digest, from, to])`. -/
def envelopeIdentity (digest «from» : String) («to» : MailboxAddress) : String :=
  String.ofList (Json.stringify [digest.toList, «from».toList, «to».val.toList])

def inboundMessageId (sha256Hex : Bytes → String) (digest «from» : String)
    («to» : MailboxAddress) : String :=
  "in_" ++ sha256Hex (envelopeIdentity digest «from» «to»).toUTF8

/-- The shape of the ids of inbound messages. -/
def isInboundMessageId (id : String) : Bool := id.toList.take 3 = ['i', 'n', '_']

theorem inboundMessageId_shape (sha256Hex : Bytes → String) (digest «from» : String)
    («to» : MailboxAddress) :
    isInboundMessageId (inboundMessageId sha256Hex digest «from» «to») = true := by
  simp [isInboundMessageId, inboundMessageId, String.toList_append]

theorem envelopeIdentity_inj {digest digest' from₁ from₂ : String}
    {to₁ to₂ : MailboxAddress}
    (h : envelopeIdentity digest from₁ to₁ = envelopeIdentity digest' from₂ to₂) :
    digest = digest' ∧ from₁ = from₂ ∧ to₁ = to₂ := by
  have hlist := congrArg String.toList h
  simp only [envelopeIdentity, String.toList_ofList] at hlist
  have hfields := Json.stringify_injective hlist
  simp only [List.cons.injEq, String.toList_inj, and_true] at hfields
  exact ⟨hfields.1, hfields.2.1, Subtype.ext hfields.2.2⟩

/-- **Receipt ids.** Without collisions of the digest, an id names its raw
    message and envelope. -/
theorem inboundMessageId_inj {sha256Hex : Bytes → String} (hdigest : Function.Injective sha256Hex)
    {raw raw' : Bytes} {from₁ from₂ : String} {to₁ to₂ : MailboxAddress}
    (h : inboundMessageId sha256Hex (sha256Hex raw) from₁ to₁ =
      inboundMessageId sha256Hex (sha256Hex raw') from₂ to₂) :
    raw = raw' ∧ from₁ = from₂ ∧ to₁ = to₂ := by
  have hlist := congrArg String.toList h
  simp only [inboundMessageId, String.toList_append] at hlist
  have hhash := String.toList_inj.mp (List.append_cancel_left hlist)
  obtain ⟨hraw, hfrom, hto⟩ := envelopeIdentity_inj (String.toByteArray_inj.mp (hdigest hhash))
  exact ⟨hdigest hraw, hfrom, hto⟩

end ids

end Umail
