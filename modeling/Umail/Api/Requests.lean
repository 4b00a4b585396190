import Umail.Account.RecipientRouting
import Umail.Account.Submission
import Umail.Api.Cursor
import Umail.Api.Projection
import Umail.Contract.MessageSource
import Umail.Framework.Process
import Umail.Mail.HtmlBudget
import Umail.Mail.ProcessIndex

/-! # Requests

  `apps/server/src/api/operations.ts` as a whole: what the REST API, the
  console and the MCP tools run. An operation is a sequence of calls to the
  account store, the archive, the HTML sanitizer and Cloudflare. Each store
  call is a transaction of its own, so other requests may run in between.
-/

namespace Umail

open Lts

section requests
variable [Unicode]

/-! ### Errors -/

structure Conflict where
  code : String
  message : String

structure Unavailable where
  code : String
  message : String

/-- `ApiError`: what a caller is told. -/
inductive ApiError where
  | invalidRequest (error : InvalidRequest)
  | notPermitted (error : NotPermitted)
  | notFound (error : NotFound)
  | conflict (error : Conflict)
  | unavailable (error : Unavailable)

/-- How an operation fails: with an error of the API, or with a defect, which
    is logged and answered with a fixed text. -/
inductive Failure where
  | api (error : ApiError)
  | defect (error : StoreError)

def JobAuthorizationReason.text : JobAuthorizationReason → String
  | .send_denied => "send_denied"
  | .recipient_not_allowed => "recipient_not_allowed"
  | .mailbox_forbidden => "mailbox_forbidden"
  | .client_inactive => "client_inactive"

def sendDeniedMessage (reason : JobAuthorizationReason) (addresses : List String) : String :=
  match reason with
  | .recipient_not_allowed => "Recipients not allowed for this client: " ++
      ", ".intercalate addresses ++ ". Remove them, or ask the operator to allow them."
  | .mailbox_forbidden =>
    "This client may not send from this mailbox. Use a sending identity it is allowed to use."
  | .send_denied => "This client may not send mail."
  | .client_inactive => "This client's access was revoked."

/-- The error that `storeCall` makes of one of the store. Only the expected
    ones are told to the caller. -/
def storeFailure : StoreError → Failure
  | .threadNotFound threadId =>
    .api (.notFound (notFound "thread_not_found" ("Thread " ++ threadId)))
  | .jobAuthorization reason addresses =>
    .api (.notPermitted { code := reason.text, message := sendDeniedMessage reason addresses })
  | .accountConflict address =>
    .api (.conflict { code := "address_exists", message := address ++ " already exists." })
  | .submissionConflict requestId _ =>
    .api (.conflict {
      code := "request_id_reused"
      message := "requestId " ++ requestId ++ " was already used for different content." ++
        " Resubmitting the same content returns the existing job;" ++
        " use a new requestId for a new message." })
  | .messageConflict messageId => .defect (.messageConflict messageId)
  | .receiptMissing messageId => .defect (.receiptMissing messageId)
  | .jobMissing messageId => .defect (.jobMissing messageId)
  | .missing id => .defect (.missing id)
  | .constraint => .defect .constraint

/-! ### Principals -/

structure PrincipalIdentity where
  userId : String
  clientId : String
  clientLabel : String

structure Principal where
  authority : OutboundRequesterKind
  identity : PrincipalIdentity
  policy : PrincipalPolicy

def operatorPrincipal (userId clientId clientLabel : String) : Principal where
  authority := .operator
  identity := { userId, clientId, clientLabel }
  policy := operatorPolicy

def requireSend (policy : PrincipalPolicy) : Except NotPermitted Unit :=
  match policy.sendMode with
  | .deny => .error { code := "send_denied", message := "This client may not send mail." }
  | .allow => .ok ()
  | .requireApproval _ => .ok ()

def mailboxAllowed (principal : Principal) (mailboxId : String) : Bool :=
  match principal.policy.mailboxIds with
  | .all => true
  | .only first rest => mailboxId ∈ first :: rest

def outboundRequester (principal : Principal) : OutboundRequester where
  kind := principal.authority
  clientId := principal.identity.clientId
  label := principal.identity.clientLabel

def jobViewer (principal : Principal) : JobViewer :=
  match principal.authority with
  | .operator => .operator
  | .mcp => .mcp principal.identity.clientId

/-! ### Calls -/

structure ForwardingDestination where
  email : String
  verified : Bool

/-- What an operation gets from outside the account store. -/
structure ApiInput where
  /-- `currentIso` -/
  now : Instant
  /-- `randomId` -/
  randomId : String
  /-- What `newId` gives a new mailbox. -/
  newId : String
  /-- What `newId` gives a submission. -/
  newIds : NewSubmissionIds
  /-- What the archive answers, if it can be reached. -/
  object : Option (Option Bytes)
  /-- What the HTML sanitizer answers; a failure may name a limit. -/
  sanitized : Except (Option MailHtmlResourceLimit) StoredMailHtml
  /-- What `destinations.ensure` answers. -/
  destination : Except ApiError ForwardingDestination

/-- An operation of `operations.ts`. -/
abbrev Operation (α : Type) := ExceptT Failure (Proc Store ApiInput) α

/-- The part of `ApiDeps` that the operations compute with. -/
structure ApiPorts where
  mailDomains : List ResolvedMailDomain
  /-- `deriveApprovalToken` under the notification key. -/
  deriveApprovalToken : String → String
  hashApprovalToken : String → String

def failed {α : Type} (error : ApiError) : Operation α := throw (.api error)

/-- A check that needs no call. -/
def checked {α : Type} (result : Except ApiError α) : Operation α :=
  ExceptT.mk (pure (result.mapError .api))

/-- What a transaction of the store commits and answers. -/
def transaction {α : Type} (s : Store) (result : Except StoreError (α × Store)) :
    Except Failure α × Store :=
  match result with
  | .ok (a, s') => (.ok a, s')
  | .error error => (.error (storeFailure error), s)

/-- `storeCall` -/
def storeCall {α : Type} (run : Store → ApiInput → Except StoreError (α × Store)) :
    Operation α :=
  ExceptT.mk (Proc.atomic fun s i => transaction s (run s i))

/-- A call of the store that only reads. -/
def storeRead {α : Type} (run : Store → Except StoreError α) : Operation α :=
  ExceptT.mk (Proc.read fun s => (run s).mapError storeFailure)

/-- An answer from elsewhere. -/
def awaited {α : Type} (answer : ApiInput → Except ApiError α) : Operation α :=
  ExceptT.mk (Proc.take fun i => (answer i).mapError .api)

def currentIso : Operation Instant := awaited fun i => .ok i.now

def archiveUnavailable : ApiError :=
  .unavailable {
    code := "archive_unavailable"
    message := "The message archive is temporarily unavailable. Try again." }

/-- `archive.get` -/
def archiveGet : Operation (Option Bytes) :=
  awaited fun i => (i.object.elim (.error archiveUnavailable) .ok)

def mailboxNotFound (id : String) : ApiError :=
  .notFound (notFound "mailbox_not_found" ("Mailbox " ++ id))

def messageNotFound (id : String) : ApiError :=
  .notFound (notFound "message_not_found" ("Message " ++ id))

def attachmentNotFound (id : String) : ApiError :=
  .notFound (notFound "attachment_not_found" ("Attachment " ++ id))

/-- The value of a lookup. -/
def found {α : Type} (missing : ApiError) : Option α → Operation α
  | some a => pure a
  | none => failed missing

def canRead (principal : Principal) : Operation Unit :=
  checked ((requireRead principal.policy).mapError .notPermitted)

def canSend (principal : Principal) : Operation Unit :=
  checked ((requireSend principal.policy).mapError .notPermitted)

/-! ### Mailboxes -/

structure CreateAddressInput where
  localPart : String
  displayName : Option String
  domain : Option String

/-- `trim()` of a text. -/
def trimmed (text : String) : String := String.ofList (trim text.toList)

/-- The receiving domain of a new mailbox. The only one is the default. -/
def receivingDomain (mailDomains : List ResolvedMailDomain) (domain : Option String) :
    Option ResolvedMailDomain :=
  let receiving := mailDomains.filter (·.receive)
  match domain, receiving with
  | none, [only] => some only
  | none, _ => none
  | some domain, _ => receiving.find? (·.name = toLowerCase (trimmed domain))

def receivingDomainRequired : ApiError :=
  .invalidRequest {
    code := "receiving_domain_required"
    message := "Choose a configured receiving domain for this mailbox." }

def addressReserved (localPart : String) : ApiError :=
  .invalidRequest {
    code := "address_reserved"
    message := "\"" ++ trimmed localPart ++
      "\" is reserved for mail-system use. Choose another name." }

def addressInvalid (localPart : String) : ApiError :=
  .invalidRequest {
    code := "address_invalid"
    message := "\"" ++ trimmed localPart ++
      "\" is not a valid mailbox name. Use only letters, digits, '.', '_' and '-'." }

/-- The command of the store as its RPC surface offers it: only for a domain
    that receives. -/
def createAddressRpc (mailDomains : List ResolvedMailDomain) (s : Store) (id localPart : String)
    (mailDomain : String) (displayName : Option String) (nowIso : Instant) :
    Except StoreError (Option AccountAddress × Store) :=
  if mailDomains.any fun domain => domain.name = mailDomain && domain.receive then
    createAddress s id localPart mailDomain displayName nowIso
      (mailDomains.any fun domain => domain.name = mailDomain && domain.send)
  else .ok (none, s)

def createAddressOperation (ports : ApiPorts) (input : CreateAddressInput) :
    Operation AccountAddress := do
  let domain ← found receivingDomainRequired (receivingDomain ports.mailDomains input.domain)
  match constructMailboxAddress input.localPart domain.name with
  | .reserved => failed (addressReserved input.localPart)
  | .ok _ => do
    let now ← currentIso
    let address ← storeCall fun s i => createAddressRpc ports.mailDomains s i.newId
        input.localPart
      domain.name input.displayName now
    found (addressInvalid input.localPart) address
  | .invalid => do
    let _ ← currentIso
    failed (addressInvalid input.localPart)

def listAddressesOperation : Operation (List AccountAddress) :=
  storeRead fun s => .ok (listAddresses s)

def getAddressOperation (id : String) : Operation AccountAddress := do
  let address ← storeRead fun s => .ok (getAddress s id)
  found (mailboxNotFound id) address

/-- A command of the operator on one mailbox, `null` when there is none. -/
def mailboxCommand (id : String)
    (run : Store → Instant → Except StoreError (Option AccountAddress × Store)) :
    Operation AccountAddress := do
  let now ← currentIso
  let address ← storeCall fun s _ => run s now
  found (mailboxNotFound id) address

def retireAddressOperation (id : String) : Operation AccountAddress :=
  mailboxCommand id fun s now => retireAddress s id now

def retryAddressRoutingOperation (id : String) : Operation AccountAddress :=
  mailboxCommand id fun s now => retryAddressRouting s id now

def patchAddressOperation (id : String) (patch : PatchAddressInput) : Operation AccountAddress :=
  mailboxCommand id fun s now => patchAddress s id patch now

def removeAddressForwarding (id : String) : Operation AccountAddress :=
  mailboxCommand id fun s now => setAddressForwarding s id none now

structure AddressForwarding where
  address : AccountAddress
  verified : Bool

/-- The destination is registered before the mailbox forwards to it. -/
def setAddressForwardingOperation (id : String) : Operation AddressForwarding := do
  let address ← getAddressOperation id
  let destination ← awaited (·.destination)
  let updated ← mailboxCommand id fun s now =>
    setAddressForwarding s address.id (some destination.email) now
  return { address := updated, verified := destination.verified }

/-- `active = 1 AND retired_at IS NULL AND send_enabled = 1`, in scope,
    `ORDER BY address`. -/
def listSendingIdentities (s : Store) (scope : MailboxScope) : List AccountSendingIdentity :=
  if scope.isEmpty then []
  else ((s.addresses.select fun a => a.sendable && mailboxInScope a.id scope).insertionSort
    fun a b => a.address.val ≤ b.address.val).map toSendingIdentity

def listSendingIdentitiesOperation (principal : Principal) :
    Operation (List AccountSendingIdentity) :=
  storeRead fun s => .ok (listSendingIdentities s (mailboxScopeOf principal.policy))

/-! ### Bodies and attachments -/

/-- `MailHtmlPolicy.sanitizeForStorage` -/
def sanitizeOutboundHtml (suppliedHtml : Option String) : Operation (Option StoredMailHtml) :=
  match suppliedHtml with
  | none => pure none
  | some _ => awaited fun i =>
    match i.sanitized with
    | .ok stored => .ok (some stored)
    | .error none => .error (.invalidRequest {
        code := "html_unsafe"
        message := "The HTML body could not be sanitized. Send text only." })
    | .error (some limit) => .error (.invalidRequest {
        code := "html_too_complex"
        message := "The HTML body exceeds the " ++ describeMailHtmlLimit limit ++
          " limit. Simplify it or send text only." })

structure StoredAttachment where
  messageId : String
  mailboxId : String
  fields : AccountAttachmentMeta
  r2Key : String

def getStoredAttachment (s : Store) (messageId attachmentId : String) (scope : MailboxScope) :
    Option StoredAttachment :=
  (s.attachments.find? fun a => a.id = attachmentId && a.message_id = messageId).bind fun a =>
    (s.messages.find? (·.id = a.message_id)).bind fun m =>
      if m.liveIn scope then
        some {
          messageId := a.message_id
          mailboxId := m.mailbox_id
          fields := toAttachmentMeta a
          r2Key := a.r2_key }
      else none

def getOutboundJob (s : Store) (jobId : String) (viewer : JobViewer) : Option OutboundJob :=
  (readJob s jobId).bind fun j => if viewer.sees j.row then some (toOutboundJob j) else none

section reading
variable [DateTime] [Base64Url]

def decodedCursor (cursor : Option String) : Operation (Option PageCursor) :=
  checked ((decodeCursor cursor).mapError .invalidRequest)

/-! ### Reading -/

/-- A page on the wire. -/
structure WirePage (ι : Type) where
  items : List ι
  nextCursor : Option String

structure MailThreadDetail where
  threadId : String
  messages : List MailMessageSummary
  nextCursor : Option String

def listThreads (principal : Principal) (limit : Option Int) (cursor : Option String) :
    Operation (WirePage MailThreadSummary) := do
  canRead principal
  let cursor ← decodedCursor cursor
  let page ← storeRead fun s =>
    listThreadSummaries s { mailboxScope := mailboxScopeOf principal.policy, limit, cursor }
  return {
    items := page.items.map projectThreadSummary
    nextCursor := encodeCursor page.nextCursor }

def getThread (principal : Principal) (threadId : String) (limit : Option Int)
    (cursor : Option String) : Operation MailThreadDetail := do
  canRead principal
  let cursor ← decodedCursor cursor
  let page ← storeRead fun s => listThreadMessageSummaries s threadId
    { mailboxScope := mailboxScopeOf principal.policy, limit, cursor }
  return {
    threadId := page.threadId
    messages := page.items.map projectMessageSummary
    nextCursor := encodeCursor page.nextCursor }

def setThreadReadState (principal : Principal) (threadId : String) (isRead : Bool) :
    Operation MailThreadDetail := do
  canRead principal
  let now ← currentIso
  storeCall fun s _ => (markThreadRead s threadId isRead (mailboxScopeOf principal.policy) now).map
    fun s' => ((), s')
  getThread principal threadId none none

def softDeleteVisibleThread (principal : Principal) (threadId : String) : Operation Unit := do
  let now ← currentIso
  storeCall fun s _ => (softDeleteThread s threadId (mailboxScopeOf principal.policy) now).map
    fun s' => ((), s')

/-- `ListMessagesQuery` -/
structure ListMessagesQuery where
  direction : Option MessageDirection
  addressId : Option String
  since : Option Instant
  unread : Option Bool
  limit : Option Int
  cursor : Option String

/-- The mailbox that a listing is restricted to exists and is allowed. -/
def checkListedMailbox (principal : Principal) : Option String → Operation Unit
  | none => pure ()
  | some addressId =>
    if mailboxAllowed principal addressId then do
      let _ ← getAddressOperation addressId
      pure ()
    else failed (mailboxNotFound addressId)

def listMessages (principal : Principal) (query : ListMessagesQuery) :
    Operation (WirePage MailMessageSummary) := do
  canRead principal
  checkListedMailbox principal query.addressId
  let cursor ← decodedCursor query.cursor
  let page ← storeRead fun s => listMessageSummaries s {
    mailboxScope := mailboxScopeOf principal.policy
    direction := query.direction
    addressId := query.addressId
    since := query.since
    unread := query.unread
    limit := query.limit
    cursor }
  return {
    items := page.items.map projectMessageSummary
    nextCursor := encodeCursor page.nextCursor }

def getMessage (principal : Principal) (id : String) : Operation ThreadMessage := do
  canRead principal
  let scope := mailboxScopeOf principal.policy
  let summary ← storeRead fun s => getMessageSummary s id scope
  let body ← storeRead fun s => .ok (getMessageBody s id scope)
  let summary ← found (messageNotFound id) summary
  let body ← found (messageNotFound id) body
  return projectThreadMessage summary body

def noArchivedSource (messageId : String) : ApiError :=
  .conflict {
    code := "no_archived_source"
    message := "Message " ++ messageId ++ " was sent by AgentMail and has no archived source;" ++
      " only inbound messages are archived." }

def sourceNotFound (messageId : String) : ApiError :=
  .notFound (notFound "source_not_found" ("The archived source of message " ++ messageId))

/-- The archive key of an inbound message; an outbound one has no source. -/
def archivedSource (messageId : String) : StoredMessageSource → Operation String
  | .inbound _ _ rawKey => pure rawKey
  | .outbound _ _ => failed (noArchivedSource messageId)

def readMessageSource (principal : Principal) (messageId : String) : Operation Bytes := do
  canRead principal
  let source ← storeRead fun s => getMessageSource s messageId (mailboxScopeOf principal.policy)
  let source ← found (messageNotFound messageId) source
  let _ ← archivedSource messageId source
  let bytes ← archiveGet
  found (sourceNotFound messageId) bytes

def getMessageHeaders (principal : Principal) (messageId : String) :
    Operation (Option MessageHeaders) := do
  let bytes ← readMessageSource principal messageId
  return headerBlock bytes.toList

def readAttachment (principal : Principal) (messageId attachmentId : String) :
    Operation (StoredAttachment × Bytes) := do
  canRead principal
  let stored ← storeRead fun s =>
    .ok (getStoredAttachment s messageId attachmentId (mailboxScopeOf principal.policy))
  let stored ← found (attachmentNotFound attachmentId) stored
  let bytes ← archiveGet
  let bytes ← found (attachmentNotFound attachmentId) bytes
  return (stored, bytes)

/-! ### Jobs -/

def listJobs (principal : Principal) (limit : Option Int) (cursor : Option String) :
    Operation (WirePage OutboundJobStatus) := do
  let cursor ← decodedCursor cursor
  let page ← storeRead fun s =>
    .ok (listOutboundJobs s { viewer := jobViewer principal, limit, cursor })
  return {
    items := page.items.map projectJobStatus
    nextCursor := encodeCursor page.nextCursor }

def getJob (principal : Principal) (jobId : String) : Operation OutboundJobStatus := do
  let job ← storeRead fun s => .ok (getOutboundJob s jobId (jobViewer principal))
  let job ← found (.notFound (notFound "job_not_found" ("Job " ++ jobId))) job
  return projectJobStatus job

end reading

end requests

end Umail
