import Umail.Framework.Machine
import Umail.Account.Queries

/-! # The account store as a machine

  Every way in which the rows of one account store change: the RPC commands,
  the steps of the due-work pass, and the row writes of route
  reconciliation. A command that throws leaves the store as it was, since
  `transactionSync` rolls it back.
-/

namespace Umail

open Relational

section account
variable [Unicode]

/-! ### Route writes

  The four `UPDATE mailbox_routes` statements of `recipient-routing.ts`. -/

inductive RouteWrite where
  /-- The zone is stored before any remote write. -/
  | zone (zoneId : String)
  /-- The id a save returned. -/
  | rule (ruleId : String)
  /-- The owned rule of a retired mailbox is gone. -/
  | removed
  /-- The owned rule is confirmed; a retirement in the meantime stays due. -/
  | confirmed (ruleId : String) (now : Instant)
  /-- The attempt failed. -/
  | failed (message : String) (attempts : Nat) (retryAfter : Option Instant)

/-- Whether the mailbox is retired: `(SELECT retired_at FROM addresses WHERE id = ?)`. -/
def retiredNow (s : Store) (id : String) : Bool :=
  ((s.addresses.find? (·.id = id)).bind (·.retired_at)).isSome

/-- The assignment of one route write. -/
def RouteWrite.assign (w : RouteWrite) (s : Store) (id : String) (r : MailboxRouteRow) :
    MailboxRouteRow :=
  match w with
  | .zone zoneId => { r with zone_id := some zoneId }
  | .rule ruleId => { r with rule_id := some ruleId }
  | .removed =>
    { r with rule_id := none, state := .ready, error := none, attempts := 0, retry_after := none }
  | .confirmed ruleId now =>
    { r with
      rule_id := some ruleId
      error := none
      attempts := 0
      state := if retiredNow s id then .pending else .ready
      retry_after := if retiredNow s id then some now else none }
  | .failed message attempts retryAfter =>
    { r with state := .error, error := some message, attempts, retry_after := retryAfter }

def writeRoute (s : Store) (id : String) (w : RouteWrite) : Store :=
  updateRoute s id (w.assign s id) fun r => by cases w <;> rfl

/-! ### Commands -/

inductive Command where
  | submitOutbound (input : SubmitOutboundInput) (ids : NewSubmissionIds)
  | decideApproval (input : DecideApprovalInput)
  | claimJob (input : ClaimJobInput)
  | completeAttempt (input : CompleteAttemptInput)
  | rejectUndispatched (messageIds : List String) (failure : RejectionFailure)
      (nowIso : Instant)
  | expireDueApprovals (nowIso : Instant)
  | settleAbandonedClaims (nowIso : Instant)
  | softDeleteThread (handle : String) (scope : MailboxScope) (deletedAt : Instant)
  | markThreadRead (handle : String) (isRead : Bool) (scope : MailboxScope) (nowIso : Instant)
  | acceptInbound (input : AcceptInboundInput)
  | registerInboundReceipt (input : RegisterInboundReceiptInput)
  | observeInboundForward (input : ObserveInboundForwardInput)
  | failInboundReceiptPolicy (receiptId : String) (reason : ReceiptPolicyError)
  | redriveDueInboundReceipts (nowIso : Instant) (limit : Nat)
  | createAddress (id localPart mailDomain : String) (displayName : Option String)
      (nowIso : Instant) (sendingAllowed : Bool)
  | patchAddress (id : String) (patch : PatchAddressInput) (nowIso : Instant)
  | setAddressForwarding (addressId : String) (forwardTo : Option String) (nowIso : Instant)
  | retireAddress (id : String) (nowIso : Instant)
  | retryAddressRouting (id : String) (nowIso : Instant)
  | configureSendingDomains (names : List String)
  | writeRoute (id : String) (write : RouteWrite)

/-- The domain in which a command creates a mailbox. -/
def Command.mailDomain : Command → Option String
  | .createAddress _ _ mailDomain _ _ _ => some mailDomain
  | _ => none

/-- The committed store of a transaction on `s`. -/
def committed (s : Store) : Except StoreError Store → Store
  | .ok s' => s'
  | .error _ => s

/-- `committed` of a transaction that also returns a value. -/
def committedSnd {α : Type} (s : Store) (r : Except StoreError (α × Store)) : Store :=
  committed s (r.map (·.2))

def Store.exec (s : Store) : Command → Store
  | .submitOutbound input ids => committedSnd s (Umail.submitOutbound s input ids)
  | .decideApproval input => committedSnd s (Umail.decideApproval s input)
  | .claimJob input => committedSnd s (Umail.claimJob s input)
  | .completeAttempt input => committedSnd s (Umail.completeAttempt s input)
  | .rejectUndispatched messageIds failure nowIso =>
    Umail.rejectUndispatched s messageIds failure nowIso
  | .expireDueApprovals nowIso => Umail.expireDueApprovals s nowIso
  | .settleAbandonedClaims nowIso => Umail.settleAbandonedClaims s nowIso
  | .softDeleteThread handle scope deletedAt =>
    committed s (Umail.softDeleteThread s handle scope deletedAt)
  | .markThreadRead handle isRead scope nowIso =>
    committed s (Umail.markThreadRead s handle isRead scope nowIso)
  | .acceptInbound input => committedSnd s (Umail.acceptInbound s input)
  | .registerInboundReceipt input => Umail.registerInboundReceipt s input
  | .observeInboundForward input => (Umail.observeInboundForward s input).2
  | .failInboundReceiptPolicy receiptId reason =>
    Umail.failInboundReceiptPolicy s receiptId reason
  | .redriveDueInboundReceipts nowIso limit =>
    (Umail.redriveDueInboundReceipts s nowIso limit).2
  | .createAddress id localPart mailDomain displayName nowIso sendingAllowed =>
    committedSnd s
      (Umail.createAddress s id localPart mailDomain displayName nowIso sendingAllowed)
  | .patchAddress id patch nowIso => committedSnd s (Umail.patchAddress s id patch nowIso)
  | .setAddressForwarding addressId forwardTo nowIso =>
    committedSnd s (Umail.setAddressForwarding s addressId forwardTo nowIso)
  | .retireAddress id nowIso => committedSnd s (Umail.retireAddress s id nowIso)
  | .retryAddressRouting id nowIso => committedSnd s (Umail.retryAddressRouting s id nowIso)
  | .configureSendingDomains names => Umail.configureSendingDomains s names
  | .writeRoute id write => Umail.writeRoute s id write

/-- The account store under arbitrary sequences of commands. -/
def accountStore : Lts.Machine Store Command where
  init s := s = Store.empty
  step s c := some (s.exec c)

/-- A store that some sequence of commands on the migrated empty store reaches. -/
abbrev Store.Reachable (s : Store) : Prop := accountStore.Reachable s

theorem Store.Reachable.exec {s : Store} (h : s.Reachable) (c : Command) :
    (s.exec c).Reachable := h.step c rfl

/-- A store that some sequence of allowed commands reaches. -/
inductive Store.ReachedBy (allowed : Command → Prop) : Store → Prop where
  | empty : ReachedBy allowed Store.empty
  | exec {s : Store} (c : Command) : ReachedBy allowed s → allowed c →
      ReachedBy allowed (s.exec c)

end account

/-! ### A sample store

  One mailbox and one message that waits for its approval, under the case
  mapping of ASCII. It serves as the instance at which results are applied. -/

namespace Sample

scoped instance asciiCase : Unicode := ⟨fun raw => String.ofList (raw.toList.map Char.toLower)⟩

def contact (raw : String) (h : isCanonicalExternalMailAddress raw = true) :
    AccountMailContact :=
  { address := ⟨raw, h⟩, displayName := none }

def bob : AccountMailContact := contact "bob@example.org" (by decide +kernel)

/-- A client that needs an approval for every recipient. -/
def supervisedPolicy : PrincipalPolicy where
  mailboxIds := .all
  canRead := true
  sendMode := .requireApproval []
  recipientAllowlist := .any

def submit : SubmitOutboundInput where
  requestId := "request-1"
  intentFingerprint := "fingerprint-1"
  requester := { kind := .mcp, clientId := "client-1", label := "Client" }
  policy := supervisedPolicy
  mailboxId := "mailbox-1"
  subject := "Hello"
  textBody := some "Hello Bob"
  htmlBody := none
  hasRemoteImages := false
  firstTo := bob
  restTo := []
  cc := []
  inReplyToHeader := none
  referencesHeader := none
  nowIso := 1000
  approval := { approvalId := "approval-1", tokenHash := "token-1", expiresAt := 90000 }

def ids : NewSubmissionIds where
  messageId := "message-1"
  jobId := "job-1"
  notificationJobId := "notification-1"

/-- The store with one mailbox. -/
def mailboxStore : Store :=
  Store.empty.exec (.createAddress "mailbox-1" "agent" "example.com" none 10 true)

/-- The store after the submit. -/
def waitingStore : Store := mailboxStore.exec (.submitOutbound submit ids)

/-- The store after the approval. -/
def approvedStore : Store :=
  waitingStore.exec (.decideApproval
    { tokenHash := "token-1", decision := .approved, nowIso := 2000 })

theorem mailboxStore_reachable : mailboxStore.Reachable :=
  (Lts.Machine.Reachable.init rfl).step _ rfl

theorem waitingStore_reachable : waitingStore.Reachable := mailboxStore_reachable.exec _

/-- The submit creates the job. -/
theorem submit_created : ∃ r s, submitOutbound mailboxStore submit ids = .ok (r, s) ∧
    r.created = true ∧ r.job.jobId = "job-1" := by
  have hrun : ((submitOutbound mailboxStore submit ids).toOption.any
      fun (r, _) => r.created && r.job.jobId = "job-1") = true := by decide +kernel
  cases hresult : submitOutbound mailboxStore submit ids with
  | error e =>
    rw [hresult] at hrun
    exact absurd hrun (by simp [Except.toOption])
  | ok rs =>
    rw [hresult] at hrun
    exact ⟨rs.1, rs.2, rfl, by simpa [Except.toOption] using hrun⟩

/-! ### Sample conversations -/

/-- Registers and accepts an inbound message from Bob. -/
def receive (s : Store) (messageId mailboxId : String) (now : Instant)
    (rfcMessageId inReplyTo references : Option String) : Store :=
  (s.exec (.registerInboundReceipt
    { receiptId := messageId, envelopeFrom := "bob@example.org", envelopeTo := "agent@example.com"
      rawKey := "raw/1.eml", receivedAt := now })).exec (.acceptInbound
    { messageId, mailboxId, rfcMessageId, inReplyToHeader := inReplyTo
      referencesHeader := references, occurredAt := now, nowIso := now, subject := some "Hello"
      textBody := none, htmlBody := none, hasRemoteImages := false, «from» := [bob]
      replyTo := [], «to» := [], cc := [], attachments := [], parsedDate := none })

theorem receive_reachable {s : Store} (hs : s.Reachable) {messageId mailboxId : String}
    {now : Instant} {rfcMessageId inReplyTo references : Option String} :
    (receive s messageId mailboxId now rfcMessageId inReplyTo references).Reachable :=
  (hs.exec _).exec _

/-- A row that was listed by its id and one more column is in the store. -/
theorem message_of_rows {β : Type} {f : MessageRow → β} {s : Store} {rows : List (String × β)}
    (h : s.messages.rows.map (fun m => (m.id, f m)) = rows) {id : String} {b : β}
    (hmem : (id, b) ∈ rows) : ∃ m ∈ s.messages, m.id = id ∧ f m = b := by
  obtain ⟨m, hm, heq⟩ := List.mem_map.mp (h.symm ▸ hmem)
  obtain ⟨hid, hcolumn⟩ := Prod.mk.inj heq
  exact ⟨m, hm, hid, hcolumn⟩

/-- Two messages of `mailbox-1` that have nothing in common. -/
def unlinkedStore : Store :=
  receive (receive Store.empty "in_a" "mailbox-1" 1000 (some "<a@x>") none none)
    "in_c" "mailbox-1" 1000 none none (some "<b@x>")

/-- A message of `mailbox-2` replies to the one and refers to what the other
    refers to. -/
def repliedStore : Store :=
  receive unlinkedStore "in_b" "mailbox-2" 1000 none (some "<a@x>") (some "<b@x> <a@x>")

theorem unlinkedStore_reachable : unlinkedStore.Reachable :=
  receive_reachable (receive_reachable (.init rfl))

theorem repliedStore_reachable : repliedStore.Reachable :=
  receive_reachable unlinkedStore_reachable

/-- A reader of `mailbox-2`. -/
def reader : MailboxScope := .only ["mailbox-2"]

end Sample

end Umail
