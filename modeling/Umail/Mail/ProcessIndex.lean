import Mathlib.Algebra.GroupWithZero.Nat
import Umail.Account.Commands
import Umail.Mail.Archive

/-! # Preparing an inbound message

  `prepareInbound` of `apps/server/src/mail/process-index.ts`: from raw MIME to
  the write of the account store, or to the content policy that refuses it.
  The MIME parser and the date parser are packages of the runtime and
  therefore parameters; the HTML sanitizer may fail at any time, so what it
  answers is an argument.
-/

namespace Umail

/-! ### The result of the MIME parser -/

inductive AttachmentContent where
  | bytes (content : Bytes)
  | text (content : String)

structure MimeAttachment where
  filename : Option String
  mimeType : String
  disposition : Option String
  related : Option Bool
  contentId : Option String
  content : AttachmentContent
  rfc822DepthExceeded : Option Bool

/-- An address, or a group of addresses. -/
inductive MimeAddress where
  | mk (address name : Option String) (group : Option (List MimeAddress))

structure Email where
  attachments : List MimeAttachment
  messageId : Option String
  inReplyTo : Option String
  references : Option String
  date : Option String
  subject : Option String
  text : Option String
  html : Option String
  «from» : Option MimeAddress
  replyTo : Option (List MimeAddress)
  «to» : Option (List MimeAddress)
  cc : Option (List MimeAddress)

structure StoredMailHtml where
  body : String
  hasRemoteImages : Bool

structure MimePorts where
  /-- `PostalMime.parse` under the limits for inbound mail: an email, or the
      message of the error. -/
  parse : Bytes → Except String Email
  parseUtcInstant : String → Option Instant

/-! ### Normalizing -/

def MAX_ATTACHMENTS : Nat := 50

def MAX_PERSISTED_MESSAGE_BYTES : Nat := 1750000

/-- The code units a character takes in UTF-16. -/
def utf16Width (c : Char) : Nat := if c.toNat < 0x10000 then 1 else 2

/-- `slice(0, n)`. Half of a surrogate pair is stored as U+FFFD. -/
def takeUtf16 : Nat → List Char → List Char
  | _, [] => []
  | n, c :: cs =>
    if utf16Width c ≤ n then c :: takeUtf16 (n - utf16Width c) cs
    else if n = 0 then [] else ['\ufffd']

def sanitizeFilename : Option String → String
  | none => "attachment"
  | some filename =>
    let stripped := filename.toList.filterMap fun c =>
      if c = '/' || c = '\\' then some '_' else if isControl c then none else some c
    let trimmed := trim stripped
    if trimmed.isEmpty then "attachment"
    else if (trimmed.map utf16Width).sum ≤ 200 then String.ofList trimmed
    else String.ofList (takeUtf16 200 trimmed)

def normalizeContentId (value : String) : String :=
  let trimmed := trim value.toList
  if trimmed.head? = some '<' && trimmed.getLast? = some '>' then
    String.ofList trimmed.tail.dropLast
  else String.ofList trimmed

def attachmentBytes : AttachmentContent → Bytes
  | .bytes content => content
  | .text content => content.toUTF8

structure PreparedAttachment extends MessageAttachmentWrite where
  bytes : Bytes

def normalizeAttachment (messageId : String) (attachment : MimeAttachment) (position : Nat) :
    PreparedAttachment where
  id := inboundAttachmentId messageId position
  position
  filename := sanitizeFilename attachment.filename
  mimeType := if attachment.mimeType.isEmpty then "application/octet-stream"
    else attachment.mimeType
  size := (attachmentBytes attachment.content).size
  r2Key := attachmentObjectKey messageId position
  contentId := attachment.contentId.map normalizeContentId
  disposition := attachment.disposition
  isInline := attachment.disposition = some "inline" || attachment.related = some true
  bytes := attachmentBytes attachment.content

def normalizeAttachments (messageId : String) (attachments : List MimeAttachment) :
    List PreparedAttachment :=
  attachments.zipIdx.map fun (attachment, position) =>
    normalizeAttachment messageId attachment position

/-- The members of a group take its place, one level deep. -/
def flattenMimeAddresses (addresses : List MimeAddress) : List MimeAddress :=
  addresses.flatMap fun
    | .mk address name none => [.mk address name none]
    | .mk _ _ (some members) => members

def isMimeBudgetMessage (message : String) : Bool :=
  ["Maximum MIME line ", "Maximum MIME part count ", "Maximum raw size of ",
    "Maximum decoded size of ", "Maximum text expansion of ", "Maximum HTML size of ",
    "Maximum References size of "].any fun start => start.toList.isPrefixOf message.toList

def mimeFailureReason (message : String) : ReceiptPolicyError :=
  if isMimeBudgetMessage message then .mime_budget else .parse_failed

/-- The HTML that is stored: none when there is none, or the sanitizer failed. -/
def sanitizeHtml (html : Option String) (sanitized : Option StoredMailHtml) :
    Option String × Bool :=
  match html with
  | none => (none, false)
  | some html =>
    if html.isEmpty then (none, false)
    else
      match sanitized with
      | some stored => (some stored.body, stored.hasRemoteImages)
      | none => (none, false)

section prepare
variable [Unicode]

def parseMailContact : MimeAddress → Option AccountMailContact
  | .mk none _ _ => none
  | .mk (some raw) name _ =>
    (parseExternalMailAddress raw).map fun parsed =>
      { address := parsed.address, displayName := name.filter fun name => !name.isEmpty }

def parseMailContacts (addresses : Option (List MimeAddress)) : List AccountMailContact :=
  (flattenMimeAddresses (addresses.getD [])).filterMap parseMailContact

/-- The bytes of the text columns and the contacts of a message. -/
def persistedByteLength (input : AcceptInboundInput) : Nat :=
  let strings := [input.subject, input.textBody, input.htmlBody, input.rfcMessageId,
    input.inReplyToHeader, input.referencesHeader]
  let contacts := input.from ++ input.replyTo ++ input.to ++ input.cc
  (strings.map fun value => (value.getD "").utf8ByteSize).sum +
    (contacts.map fun contact =>
      contact.address.val.utf8ByteSize + (contact.displayName.getD "").utf8ByteSize).sum

structure InboundTarget where
  messageId : String
  mailboxId : String
  occurredAt : Instant
  nowIso : Instant

inductive PreparedInbound where
  | ready (input : AcceptInboundInput) (attachments : List PreparedAttachment)
  | policy_failed (reason : ReceiptPolicyError)

/-- The write of a parsed email. -/
def inboundInput (ports : MimePorts) (email : Email) (target : InboundTarget)
    (sanitized : Option StoredMailHtml) (attachments : List PreparedAttachment) :
    AcceptInboundInput where
  messageId := target.messageId
  mailboxId := target.mailboxId
  rfcMessageId := email.messageId.bind fun raw =>
    (normalizeRfcMessageId raw).map fun id => id.val
  inReplyToHeader := email.inReplyTo
  referencesHeader := email.references
  occurredAt := target.occurredAt
  parsedDate := email.date.bind ports.parseUtcInstant
  nowIso := target.nowIso
  subject := email.subject
  textBody := email.text.filter fun text => !text.isEmpty
  htmlBody := (sanitizeHtml email.html sanitized).1
  hasRemoteImages := (sanitizeHtml email.html sanitized).2
  «from» := parseMailContacts (email.from.map fun address => [address])
  replyTo := parseMailContacts email.replyTo
  «to» := parseMailContacts email.to
  cc := parseMailContacts email.cc
  attachments := attachments.map (·.toMessageAttachmentWrite)

/-- Turns raw MIME into the write of the account store. It touches no storage. -/
def prepareInbound (ports : MimePorts) (raw : Bytes) (target : InboundTarget)
    (sanitized : Option StoredMailHtml) : PreparedInbound :=
  match ports.parse raw with
  | .error message => .policy_failed (mimeFailureReason message)
  | .ok email =>
    if email.attachments.any fun attachment => attachment.rfc822DepthExceeded = some true then
      .policy_failed .rfc822_depth
    else if MAX_ATTACHMENTS < email.attachments.length then .policy_failed .attachment_cap
    else
      let attachments := normalizeAttachments target.messageId email.attachments
      let input := inboundInput ports email target sanitized attachments
      if MAX_PERSISTED_MESSAGE_BYTES < persistedByteLength input then
        .policy_failed .message_budget
      else .ready input attachments

/-- What is prepared for a receipt is written under its id, with the objects
    of its attachments under keys of that id. -/
theorem prepareInbound_ready {ports : MimePorts} {raw : Bytes} {target : InboundTarget}
    {sanitized : Option StoredMailHtml} {input : AcceptInboundInput}
    {attachments : List PreparedAttachment}
    (h : prepareInbound ports raw target sanitized = .ready input attachments) :
    input.messageId = target.messageId ∧
      input.attachments = attachments.map (·.toMessageAttachmentWrite) ∧
      ∀ a ∈ attachments, ∃ position, a.r2Key = attachmentObjectKey target.messageId
        position := by
  -- every earlier branch refuses the message
  unfold prepareInbound at h
  split at h
  · exact absurd h (by simp)
  · split at h
    · exact absurd h (by simp)
    · split at h
      · exact absurd h (by simp)
      · simp only at h
        split at h
        · exact absurd h (by simp)
        · obtain ⟨rfl, rfl⟩ := PreparedInbound.ready.inj h
          refine ⟨rfl, rfl, ?_⟩
          intro a ha
          obtain ⟨⟨attachment, position⟩, -, rfl⟩ := List.mem_map.mp ha
          exact ⟨position, rfl⟩

end prepare

end Umail
