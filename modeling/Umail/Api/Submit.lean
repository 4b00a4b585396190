import Umail.Api.Requests

/-! # Submitting a message

  `submitMessage` of `apps/server/src/api/operations.ts`, with
  `newApprovalCapability` of `apps/server/src/mail/notifications.ts`: the
  sender is resolved, the recipients of a reply are derived, the HTML is
  sanitized, and only then the submission is written.
-/

namespace Umail

open Lts

section submit
variable [Unicode]

def MAX_OUTBOUND_RECIPIENTS : Nat := 50

def APPROVAL_TTL_HOURS : Nat := 24

/-- `newApprovalCapability` for a drawn id. -/
def newApprovalCapability (ports : ApiPorts) (approvalId : String) (nowIso : Instant) :
    ApprovalCapabilityWrite where
  approvalId
  tokenHash := ports.hashApprovalToken (ports.deriveApprovalToken approvalId)
  expiresAt := nowIso + APPROVAL_TTL_HOURS * 60 * 60 * 1000

/-! ### Recipients -/

def readReplyParentOperation (principal : Principal) (messageId : String) :
    Operation MessageSummary := do
  canRead principal
  let parent ← storeRead fun s => getMessageSummary s messageId (mailboxScopeOf principal.policy)
  found (messageNotFound messageId) parent

/-- Writes to the first recipient and the rest, if there is a first. -/
def writtenTo (parentId : String) (recipients : ReplyRecipients) : Operation SubmitRecipients :=
  match recipients.to with
  | [] => failed (.invalidRequest (noExternalRecipients parentId))
  | first :: rest => pure { firstTo := first, restTo := rest, cc := recipients.cc }

def replyRecipientsOperation (parent : MessageSummary) (mode : ReplyMode)
    (sendingAddressId : String) : Operation SubmitRecipients := do
  let addresses ← listAddressesOperation
  let sending ← storeRead fun s => .ok (getAddress s sendingAddressId)
  writtenTo parent.id (deriveReplyRecipients parent.direction.messageDirection mode
    parent.replyParticipants (addresses.map (·.address)) (sending.map (·.address)))

structure ReplyPreview where
  parent : MessageSummary
  recipients : SubmitRecipients

/-- The recipients that a reply would get, from the mailbox of its parent. -/
def previewReplyRecipients (principal : Principal) (messageId : String) (mode : ReplyMode) :
    Operation ReplyPreview := do
  let parent ← readReplyParentOperation principal messageId
  let recipients ← replyRecipientsOperation parent mode parent.mailboxId
  return { parent, recipients }

def resolveSubmitRecipientsOperation (principal : Principal) (payload : SubmitMessagePayload) :
    Operation ResolvedSubmission :=
  match payload.intent with
  | .compose firstTo restTo cc => pure {
      recipients := { firstTo, restTo, cc := cc.getD [] }
      inReplyToHeader := none
      referencesHeader := none }
  | .reply replyToMessageId replyMode => do
    let parent ← readReplyParentOperation principal replyToMessageId
    let recipients ← replyRecipientsOperation parent replyMode payload.fromAddressId
    return {
      recipients
      inReplyToHeader := (replyHeaders parent).1
      referencesHeader := (replyHeaders parent).2 }

/-! ### The sender -/

def fromAddressInactive (fromAddressId : String) (address : AccountAddress) : ApiError :=
  .invalidRequest {
    code := "from_address_inactive"
    message :=
      if address.retiredAt.isSome then
        "Mailbox " ++ address.address.val ++
          " is retired. Send from an active id in the sending-identities list."
      else "Mailbox " ++ fromAddressId ++ " (" ++ address.address.val ++ ") is inactive." ++
        " Reactivate it, or send from an active id in the sending-identities list." }

def senderDomainReceiveOnly (address : AccountAddress) : ApiError :=
  .invalidRequest {
    code := "sender_domain_receive_only"
    message := "Mailbox " ++ address.address.val ++
      " belongs to a receive-only domain and cannot send." }

def fromAddressUnknown (fromAddressId : String) : ApiError :=
  .invalidRequest {
    code := "from_address_unknown"
    message := "Sending identity " ++ fromAddressId ++
      " is unknown. Use an id from the sending-identities list." }

/-- Why a mailbox cannot be sent from. -/
def unusableReason (fromAddressId : String) : Option AccountAddress → ApiError
  | none => fromAddressUnknown fromAddressId
  | some address =>
    if !address.active then fromAddressInactive fromAddressId address
    else if !address.canSend then senderDomainReceiveOnly address
    else fromAddressUnknown fromAddressId

/-- An inactive mailbox is named only to a client that may use it; any other
    id reads as unknown. -/
def unusableSender (principal : Principal) (fromAddressId : String) :
    Operation AccountSendingIdentity :=
  if mailboxAllowed principal fromAddressId then do
    let address ← storeRead fun s => .ok (getAddress s fromAddressId)
    failed (unusableReason fromAddressId address)
  else failed (unusableReason fromAddressId none)

def mailboxForbidden (mailboxId : String) : ApiError :=
  .notPermitted {
    code := "mailbox_forbidden"
    message := "This client may not send from mailbox " ++ mailboxId ++
      ". Use a sending identity it is allowed to use." }

/-- The identity that a submit sends from. -/
def usableSender (principal : Principal) (fromAddressId : String) :
    Operation AccountSendingIdentity := do
  let identity ← storeRead fun s => .ok (resolveSendingIdentity s fromAddressId)
  match identity with
  | none => unusableSender principal fromAddressId
  | some identity =>
    if mailboxAllowed principal identity.id then pure identity
    else failed (mailboxForbidden identity.id)

/-! ### The submission -/

structure PreparedOutbound where
  mailboxId : String
  subject : String
  textBody : Option String
  htmlBody : Option String
  hasRemoteImages : Bool
  firstTo : AccountMailContact
  restTo : List AccountMailContact
  cc : List AccountMailContact
  inReplyToHeader : Option String
  referencesHeader : Option String

def toAccountMailContact (contact : MailContact) : AccountMailContact where
  address := contact.address
  displayName := contact.displayName

def tooManyRecipients : ApiError :=
  .invalidRequest {
    code := "too_many_recipients"
    message := "A message may have at most " ++ toString MAX_OUTBOUND_RECIPIENTS ++
      " To and CC recipients." }

/-- The recipients of a submission are not too many. -/
def fewRecipients (recipients : SubmitRecipients) : Operation Unit :=
  if MAX_OUTBOUND_RECIPIENTS < (recipients.restTo.length + 1) + recipients.cc.length then
    failed tooManyRecipients
  else pure ()

def prepareOutbound (principal : Principal) (payload : SubmitMessagePayload) :
    Operation PreparedOutbound := do
  let identity ← usableSender principal payload.fromAddressId
  let resolved ← resolveSubmitRecipientsOperation principal payload
  fewRecipients resolved.recipients
  let storedHtml ← sanitizeOutboundHtml payload.html
  return {
    mailboxId := identity.id
    subject := payload.subject
    textBody := payload.text
    htmlBody := storedHtml.map (·.body)
    hasRemoteImages := (storedHtml.map (·.hasRemoteImages)).getD false
    firstTo := toAccountMailContact resolved.recipients.firstTo
    restTo := resolved.recipients.restTo.map toAccountMailContact
    cc := resolved.recipients.cc.map toAccountMailContact
    inReplyToHeader := resolved.inReplyToHeader
    referencesHeader := resolved.referencesHeader }

/-- What a submit asks of the store. -/
def submitInput (ports : ApiPorts) (prepared : PreparedOutbound) (principal : Principal)
    (payload : SubmitMessagePayload) (nowIso : Instant) (approvalId : String) :
    SubmitOutboundInput where
  requestId := payload.requestId
  intentFingerprint := submissionFingerprint payload
  requester := outboundRequester principal
  policy := principal.policy
  mailboxId := prepared.mailboxId
  subject := prepared.subject
  textBody := prepared.textBody
  htmlBody := prepared.htmlBody
  hasRemoteImages := prepared.hasRemoteImages
  firstTo := prepared.firstTo
  restTo := prepared.restTo
  cc := prepared.cc
  inReplyToHeader := prepared.inReplyToHeader
  referencesHeader := prepared.referencesHeader
  nowIso
  approval := newApprovalCapability ports approvalId nowIso

/-- The id of the approval is drawn right before the call; nothing else sees it. -/
def submitPrepared (ports : ApiPorts) (prepared : PreparedOutbound) (principal : Principal)
    (payload : SubmitMessagePayload) (nowIso : Instant) : Operation SubmitOutboundResult :=
  storeCall fun s i =>
    submitOutbound s (submitInput ports prepared principal payload nowIso i.randomId) i.newIds

def submitMessage (ports : ApiPorts) (principal : Principal) (payload : SubmitMessagePayload) :
    Operation OutboundJobStatus := do
  canSend principal
  let prepared ← prepareOutbound principal payload
  let now ← currentIso
  let submitted ← submitPrepared ports prepared principal payload now
  return projectJobStatus submitted.job

end submit

end Umail
