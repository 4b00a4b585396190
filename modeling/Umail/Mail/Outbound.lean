import Umail.Account.Content

/-! # Outbound mail

  `apps/server/src/mail/email-sender.ts`, `notifications.ts`, `policy.ts` and
  the mail half of `dispatch.ts`: the mail that is handed to the provider.

  The HTML policy, the HMAC of an approval id and the text of an instant are
  ports: nothing here depends on what they compute.
-/

namespace Umail

open Relational

variable [Unicode]

structure NamedMailboxSender where
  email : String
  name : Option String

structure OutboundMail where
  «from» : NamedMailboxSender
  replyTo : NamedMailboxSender
  «to» : List String
  cc : List String
  subject : String
  text : Option String
  html : Option String
  inReplyTo : Option String
  references : Option String

/-- The `reason` of a `MailHtmlPolicyError`. -/
inductive MailHtmlPolicyReason where
  | resource_exhausted
  | rewrite_failed
  deriving DecidableEq

def MailHtmlPolicyReason.text : MailHtmlPolicyReason → String
  | .resource_exhausted => "resource_exhausted"
  | .rewrite_failed => "rewrite_failed"

/-- `DispatchPorts` without the sender and the policy lookup, whose replies a
    dispatch awaits. -/
structure DispatchPorts where
  /-- `htmlPolicy.materializeRemoteImages` at the application URL. -/
  materializeRemoteImages : String → Except MailHtmlPolicyReason String
  /-- `applicationUrl.origin` -/
  applicationOrigin : String
  /-- `deriveApprovalToken` under the notification key: 64 hex digits. -/
  deriveApprovalToken : String → String
  mailDomain : MailDomain
  approvalAdminEmail : ExternalMailAddress
  /-- `DateTime.formatIso` -/
  formatIso : Instant → String

/-! ### Materialization -/

/-- Stored HTML keeps remote images inert; the provider gets them as live sources. -/
def materializeProviderMail (ports : DispatchPorts) (mail : OutboundMail) :
    Except MailHtmlPolicyReason OutboundMail :=
  match mail.html with
  | none => .ok mail
  | some html => (ports.materializeRemoteImages html).map fun html =>
      { mail with html := some html }

/-! ### Notifications -/

def APPROVAL_NOTIFICATION_SUBJECT : String := "Outbound email needs review"

def approvalNotificationText (expiresAt reviewUrl : String) : String :=
  "\n".intercalate [
    "An outbound email is waiting for review in AgentMail.",
    "Open the secure review page to inspect the message and approve or deny it.",
    "This request expires at " ++ expiresAt ++ ".",
    "",
    "Review & decide: " ++ reviewUrl]

/-- The token is hex, which the URL encoding leaves alone. -/
def approvalReviewUrl (applicationOrigin token : String) : String :=
  applicationOrigin ++ "/approvals/" ++ token

def approvalNotificationMail (ports : DispatchPorts) (expiresAt reviewUrl : String) :
    OutboundMail :=
  let sender : NamedMailboxSender := { email := "noreply@" ++ ports.mailDomain.val, name := none }
  { «from» := sender
    replyTo := sender
    «to» := [ports.approvalAdminEmail.val]
    cc := []
    subject := APPROVAL_NOTIFICATION_SUBJECT
    text := some (approvalNotificationText expiresAt reviewUrl)
    html := none
    inReplyTo := none
    references := none }

/-! ### Preparing -/

def namedSender (contact : AccountMailContact) : NamedMailboxSender where
  email := contact.address.val
  name := contact.displayName

/-- `null` when the message has no sender. -/
def messageMailFromDispatch (dispatch : OutboundDispatch) : Option OutboundMail :=
  match dispatch.from with
  | none => none
  | some sender =>
    let replyTo := dispatch.replyTo.getD sender
    some {
      «from» := namedSender sender
      replyTo := namedSender replyTo
      «to» := dispatch.to.map (·.address.val)
      cc := dispatch.cc.map (·.address.val)
      subject := dispatch.subject
      text := dispatch.textBody
      html := dispatch.htmlBody
      inReplyTo := dispatch.inReplyToHeader
      references := dispatch.referencesHeader }

inductive PreparedMail where
  | ready (mail : OutboundMail)
  | reject (detail : String)

def materializePreparedMail (ports : DispatchPorts) (mail : OutboundMail) : PreparedMail :=
  match materializeProviderMail ports mail with
  | .ok mail => .ready mail
  | .error reason => .reject reason.text

/-- Builds the exact provider mail before the claim, so mail that can never be
    sent is rejected without an attempt. -/
def prepareDispatchMail (ports : DispatchPorts) (dispatch : OutboundDispatch) : PreparedMail :=
  match dispatch.job.purpose with
  | .approval_notification =>
    match dispatch.approval with
    | none => .reject "approval_unavailable"
    | some (approvalId, expiresAt) =>
      let token := ports.deriveApprovalToken approvalId
      materializePreparedMail ports (approvalNotificationMail ports (ports.formatIso expiresAt)
        (approvalReviewUrl ports.applicationOrigin token))
  | .message =>
    match messageMailFromDispatch dispatch with
    | none => .reject "missing_sender"
    | some mail => materializePreparedMail ports mail

def SEND_CLAIM_TTL_MS : Nat := 15 * 60 * 1000

/-- `sendClaimUntilIso` -/
def sendClaimUntil (nowMs : Instant) : Instant := nowMs + SEND_CLAIM_TTL_MS

/-! ### The mail of a stored message -/

/-- The mail a content stands for, before its HTML is materialized. -/
def MailContent.mail (c : MailContent) : Option OutboundMail :=
  c.participants.from.head?.map fun sender => {
    «from» := namedSender sender
    replyTo := namedSender (c.participants.replyTo.head?.getD sender)
    «to» := c.participants.to.map (·.address.val)
    cc := c.participants.cc.map (·.address.val)
    subject := c.subject.getD ""
    text := c.textBody
    html := c.htmlBody
    inReplyTo := c.inReplyTo.map (·.val)
    references := joinStoredReferences c.references }

/-- What a dispatch read says about the store it was read from. -/
theorem readDispatch_some {s : Store} {jobId : String} {dispatch : OutboundDispatch}
    (h : readDispatch s jobId = .ok (some dispatch)) :
    ∃ j, readJob s jobId = some j ∧ dispatch.job = toOutboundJob j ∧
      dispatch.approval = readPendingNotificationApproval s j.row.id ∧
      ∃ c, storedContent s j.row.message_id = some c ∧
        messageMailFromDispatch dispatch = c.mail := by
  unfold readDispatch at h
  split at h
  · exact absurd h (by simp)
  · next j hj =>
    split at h
    · exact absurd h (by simp)
    · next m hm =>
      obtain rfl := Option.some.inj (Except.ok.inj h)
      -- the message of the job
      have hid : m.id = j.row.message_id := by simpa using Table.find?_prop hm
      refine ⟨j, hj, rfl, rfl, m.content s, ?_, ?_⟩
      · rw [storedContent, hm]
        rfl
      · simp only [messageMailFromDispatch, MailContent.mail, MessageRow.content, hid]
        cases (loadParticipants s j.row.message_id).from.head? <;> rfl

/-- A message is prepared to the materialized mail of its content. -/
theorem prepareDispatchMail_message {ports : DispatchPorts} {dispatch : OutboundDispatch}
    {mail : OutboundMail} (h : prepareDispatchMail ports dispatch = .ready mail)
    (hpurpose : dispatch.job.purpose = .message) :
    ∃ raw, messageMailFromDispatch dispatch = some raw ∧
      materializeProviderMail ports raw = .ok mail := by
  simp only [prepareDispatchMail, hpurpose] at h
  split at h
  · exact absurd h (by simp)
  · next raw hraw =>
    refine ⟨raw, hraw, ?_⟩
    unfold materializePreparedMail at h
    split at h
    · next mail' hmail => rw [hmail, PreparedMail.ready.inj h]
    · exact absurd h (by simp)

/-- Materialization touches the HTML only. -/
theorem materializeProviderMail_ok {ports : DispatchPorts} {raw mail : OutboundMail}
    (h : materializeProviderMail ports raw = .ok mail) :
    mail = { raw with html := mail.html } := by
  unfold materializeProviderMail at h
  split at h
  · exact (Except.ok.inj h) ▸ rfl
  · next html _ =>
    cases himages : ports.materializeRemoteImages html with
    | error reason =>
      rw [himages] at h
      exact absurd h (by simp [Except.map])
    | ok html' =>
      rw [himages] at h
      obtain rfl := Except.ok.inj h
      rfl

end Umail
