import Umail.Api.Soundness
import Umail.Mail.Authorization

/-! # The tools of a client

  `apps/server/src/api/mcp/tools.ts`: what an OAuth client can do with mail.
  A client may call its tools in any order and any number of times, also at
  the same time, and any call may be cut off. `Confined` is what that can
  change: marks on the messages that the client may read, and new messages
  with their jobs, from mailboxes and to recipients that its policy admits and
  with the approval that it asks for. A new message may join the threads that
  it refers to. Everything else stays as it is.
-/

namespace Umail

open Lts Relational

section tools
variable [Unicode]

/-! ### Tools -/

structure ToolAnnotations where
  readOnlyHint : Bool
  destructiveHint : Bool
  idempotentHint : Bool
  openWorldHint : Bool

def readOnly : ToolAnnotations where
  readOnlyHint := true
  destructiveHint := false
  idempotentHint := true
  openWorldHint := true

def sends : ToolAnnotations where
  readOnlyHint := false
  destructiveHint := true
  idempotentHint := false
  openWorldHint := true

/-- `composeFields` with `fromAddressId`, decoded. -/
structure ComposeInput where
  requestId : String
  fromAddressId : String
  subject : String
  text : Option String
  html : Option String
  firstTo : MailContact
  restTo : List MailContact
  cc : Option (List MailContact)
  decoded : IsSubmissionRequestId requestId

/-- `new ComposeSubmissionPayload({ intent: "compose", ...input })` -/
def ComposeInput.payload (input : ComposeInput) : SubmitMessagePayload where
  requestId := input.requestId
  fromAddressId := input.fromAddressId
  subject := input.subject
  text := input.text
  html := input.html
  intent := .compose input.firstTo input.restTo input.cc

/-- `replyFields` with `fromAddressId`, decoded. -/
structure ReplyInput where
  requestId : String
  fromAddressId : String
  subject : String
  text : Option String
  html : Option String
  replyToMessageId : String
  replyMode : ReplyMode
  decoded : IsSubmissionRequestId requestId

def ReplyInput.payload (input : ReplyInput) : SubmitMessagePayload where
  requestId := input.requestId
  fromAddressId := input.fromAddressId
  subject := input.subject
  text := input.text
  html := input.html
  intent := .reply input.replyToMessageId input.replyMode

/-- A call of a tool. -/
inductive ToolCall where
  | umail_list_mailboxes
  | umail_list_sending_identities
  | umail_list_threads (limit : Option Int) (cursor : Option String)
  | umail_list_messages (query : ListMessagesQuery)
  | umail_get_thread (threadId : String) (limit : Option Int) (cursor : Option String)
  | umail_get_message (messageId : String)
  | umail_get_message_headers (messageId : String)
  | umail_set_thread_read_state (threadId : String) (isRead : Bool)
  | umail_send_message (input : ComposeInput)
  | umail_reply_to_message (input : ReplyInput)
  | umail_get_job (jobId : String)

def ToolCall.annotations : ToolCall → ToolAnnotations
  | .umail_list_mailboxes => { readOnly with openWorldHint := false }
  | .umail_list_sending_identities => { readOnly with openWorldHint := false }
  | .umail_list_threads _ _ => readOnly
  | .umail_list_messages _ => readOnly
  | .umail_get_thread _ _ _ => readOnly
  | .umail_get_message _ => readOnly
  | .umail_get_message_headers _ => readOnly
  | .umail_set_thread_read_state _ _ =>
    { readOnly with readOnlyHint := false, openWorldHint := false }
  | .umail_send_message _ => sends
  | .umail_reply_to_message _ => sends
  | .umail_get_job _ => readOnly

inductive ToolOutput where
  | mailboxes (mailboxes : List AccountAddress)
  | sendingIdentities (sendingIdentities : List AccountSendingIdentity)
  | threads (page : WirePage MailThreadSummary)
  | messages (page : WirePage MailMessageSummary)
  | thread (thread : MailThreadDetail)
  | message (message : ThreadMessage)
  | headers (headers : Option MessageHeaders)
  | job (job : OutboundJobStatus)

/-- `htmlBody` is left out where there is a text body. -/
def ThreadMessageFields.textFirst (fields : ThreadMessageFields) : ThreadMessageFields :=
  if fields.textBody.isNone then fields else { fields with htmlBody := none }

def ThreadMessage.textFirst : ThreadMessage → ThreadMessage
  | .inbound message => .inbound { message with toThreadMessageFields := message.textFirst }
  | .outbound message => .outbound { message with toThreadMessageFields := message.textFirst }

/-- `umail_list_mailboxes` -/
def listReadableMailboxes (principal : Principal) : Operation (List AccountAddress) := do
  canRead principal
  let addresses ← listAddressesOperation
  return addresses.filter fun address => mailboxAllowed principal address.id

variable [DateTime] [Base64Url]

/-- The handler of a tool. -/
def ToolCall.run (ports : ApiPorts) (principal : Principal) : ToolCall → Operation ToolOutput
  | .umail_list_mailboxes => return .mailboxes (← listReadableMailboxes principal)
  | .umail_list_sending_identities =>
    return .sendingIdentities (← listSendingIdentitiesOperation principal)
  | .umail_list_threads limit cursor => return .threads (← listThreads principal limit cursor)
  | .umail_list_messages query => return .messages (← listMessages principal query)
  | .umail_get_thread threadId limit cursor =>
    return .thread (← getThread principal threadId limit cursor)
  | .umail_get_message messageId => return .message (← getMessage principal messageId).textFirst
  | .umail_get_message_headers messageId =>
    return .headers (← getMessageHeaders principal messageId)
  | .umail_set_thread_read_state threadId isRead =>
    return .thread (← setThreadReadState principal threadId isRead)
  | .umail_send_message input => return .job (← submitMessage ports principal input.payload)
  | .umail_reply_to_message input => return .job (← submitMessage ports principal input.payload)
  | .umail_get_job jobId => return .job (← getJob principal jobId)

end tools

/-! ### Policies -/

section policies
variable [Unicode] {policy : PrincipalPolicy} {mailboxId : String}
  {recipients : List AccountMailContact}

/-- The policy lets mail go from the mailbox to the recipients, if need be
    after an approval. -/
structure PrincipalPolicy.Admits (policy : PrincipalPolicy) (mailboxId : String)
    (recipients : List AccountMailContact) : Prop where
  covers : mailboxInPolicy policy.mailboxIds mailboxId = true
  sends : policy.sendMode ≠ .deny
  allowlisted : ∀ r ∈ recipients, policy.recipientAllowlist.Admits r.address.val

/-- Mail to the recipients needs no approval. -/
def PrincipalPolicy.Trusts (policy : PrincipalPolicy) (recipients : List AccountMailContact) :
    Prop :=
  policy.sendMode = .allow ∨ ∃ preapproved, policy.sendMode = .requireApproval preapproved ∧
    ∀ r ∈ recipients, ∃ a ∈ preapproved, a.val = r.address.val

theorem PrincipalPolicy.admits_of_authorized (h : ∀ reason addresses,
      authorizeOutbound (some policy) mailboxId recipients ≠ .denied reason addresses) :
    policy.Admits mailboxId recipients := by
  obtain ⟨p, hp, hcovers, hsends, hnil⟩ := authorizeOutbound_not_denied h
  obtain rfl := Option.some.inj hp
  exact ⟨hcovers, hsends, recipientsNotAllowed_eq_nil hnil⟩

theorem PrincipalPolicy.trusts_of_allow
    (h : authorizeOutbound (some policy) mailboxId recipients = .allow) :
    policy.Trusts recipients := by
  rcases authorizeOutbound_allow h with hallow | ⟨preapproved, hmode, hinside⟩
  · exact .inl hallow
  · exact .inr ⟨preapproved, hmode, recipientsOutside_eq_nil hinside⟩

end policies

/-! ### Confinement -/

section confinement
variable [Unicode] {s s' s'' : Store} {principal : Principal}

/-- The marks of a message, which change only where the client may read it. -/
structure Principal.MayMark (principal : Principal) (m m' : MessageRow) : Prop where
  columns : m' = { m with
    is_read := m'.is_read
    read_at := m'.read_at
    updated_at := m'.updated_at }
  readable : m' = m ∨ (principal.policy.canRead = true ∧ m.direction = .inbound ∧
    m.liveIn (mailboxScopeOf principal.policy) = true)

/-- What may happen to a message that is there: it is marked, and its thread
    may get another name. -/
def Principal.MayRewrite (principal : Principal) (m m' : MessageRow) : Prop :=
  principal.MayMark { m with thread_id := m'.thread_id } m'

/-- A message that may be added. -/
structure Principal.MayAdd (principal : Principal) (m : MessageRow) : Prop where
  sends : requireSend principal.policy = .ok ()
  direction : m.direction = .outbound
  mailbox : mailboxAllowed principal m.mailbox_id = true

/-- Threads are only joined: a thread keeps its name, or goes as a whole into
    the thread of a message that was added. -/
structure Joins (rename : String → String) (s s' : Store) : Prop where
  named : ∀ m ∈ s.messages, ∀ m' ∈ s'.messages, m'.id = m.id → m'.thread_id = rename m.thread_id
  joined : ∀ m ∈ s.messages, rename m.thread_id ≠ m.thread_id →
    ∃ added ∈ s'.messages, (∀ n ∈ s.messages, n.id ≠ added.id) ∧
      added.thread_id = rename m.thread_id

/-- The client requested the job, and it is still to be dispatched. -/
def Principal.Requested (principal : Principal) (j : OutboundJobRow) : Prop :=
  j.requester_kind = principal.authority ∧
    j.requester_client_id = principal.identity.clientId ∧ j.undispatched = true

/-- An approval that may be added: it is to be decided, and the message waits. -/
structure Principal.MayAsk (principal : Principal) (s' : Store) (a : ApprovalRequestRow) :
    Prop where
  pending : a.state = .pending
  job : ∃ j ∈ s'.jobs, j.id = a.job_id ∧ j.purpose = .message ∧ j.state = .waiting_approval ∧
    principal.Requested j

/-- A job that may be added. The policy covers the mailbox and admits every
    recipient of the message, and where it asks for an approval, the message
    waits for one that is to be decided; the job of its notification does not. -/
structure Principal.MayQueue (principal : Principal) (s' : Store) (j : OutboundJobRow) :
    Prop where
  requested : principal.Requested j
  message : ∃ m ∈ s'.messages, m.id = j.message_id ∧ m.mailbox_id = j.mailbox_id
  admitted : principal.policy.Admits j.mailbox_id (storedRecipients s' j.message_id)
  supervised : (j.purpose = .message ∧
      principal.policy.Trusts (storedRecipients s' j.message_id)) ∨
    ∃ a ∈ s'.approvals, a.state = .pending ∧
      ((j.purpose = .message ∧ j.state = .waiting_approval ∧ a.job_id = j.id) ∨
        (j.purpose = .approval_notification ∧ a.notification_job_id = j.id))

/-- What the tools of a client may have changed. -/
structure Confined (principal : Principal) (s s' : Store) : Prop where
  evolves : s.Evolves s'
  addresses : s'.addresses = s.addresses
  routes : s'.routes = s.routes
  receipts : s'.receipts = s.receipts
  attachments : s'.attachments = s.attachments
  messages : s.messages.Extends principal.MayRewrite principal.MayAdd s'.messages
  threads : ∃ rename, Joins rename s s'
  jobs : s.jobs.Extends Eq (principal.MayQueue s') s'.jobs
  approvals : s.approvals.Extends Eq (principal.MayAsk s') s'.approvals

theorem Principal.MayMark.refl (m : MessageRow) : principal.MayMark m m := ⟨rfl, .inl rfl⟩

theorem Principal.MayRewrite.refl (m : MessageRow) : principal.MayRewrite m m :=
  Principal.MayMark.refl m

theorem Principal.MayRewrite.trans {a b c : MessageRow} (h : principal.MayRewrite a b)
    (h' : principal.MayRewrite b c) : principal.MayRewrite a c := by
  have hb := h.columns
  have hc := h'.columns
  refine ⟨?_, ?_⟩
  · rw [hc, hb]
  · rcases h.readable with hab | hab
    · rcases h'.readable with hbc | ⟨hread, hinbound, hlive⟩
      · refine .inl ?_
        rw [hbc, hab]
      · -- what is readable under another thread name was readable before
        refine .inr ⟨hread, ?_, ?_⟩
        · rw [hab] at hinbound
          exact hinbound
        · rw [hab] at hlive
          exact hlive
    · exact .inr hab

theorem Joins.refl (s : Store) : Joins id s s := by
  refine ⟨fun m hm m' hm' hid => ?_, fun m _ hne => absurd rfl hne⟩
  rw [s.messages.eq_of_clash hm' hm hid]
  rfl

/-- A thread that was joined in either of two stretches was joined in both together. -/
theorem Joins.trans {rename rename' : String → String} (hs : s.Evolves s') (hs' : s'.Evolves s'')
    (h : Joins rename s s') (h' : Joins rename' s' s'') : Joins (rename' ∘ rename) s s'' := by
  constructor
  · intro m hm m'' hm'' hid
    obtain ⟨m', hm', hev⟩ := hs.messages.exists_mem hm
    have hname := h'.named m' hm' m'' hm'' (hid.trans hev.id_eq.symm)
    rwa [h.named m hm m' hm' hev.id_eq] at hname
  · intro m hm hmoved
    by_cases hfirst : rename m.thread_id = m.thread_id
    · -- only the second stretch joins the thread
      obtain ⟨m', hm', hev⟩ := hs.messages.exists_mem hm
      have hthread : m'.thread_id = m.thread_id := (h.named m hm m' hm' hev.id_eq).trans hfirst
      have hmoved' : rename' m'.thread_id ≠ m'.thread_id := by
        intro heq
        rw [hthread] at heq
        exact hmoved ((congrArg rename' hfirst).trans heq)
      obtain ⟨added, hadded, hnew, hjoined⟩ := h'.joined m' hm' hmoved'
      refine ⟨added, hadded, fun n hn hid => ?_, ?_⟩
      · obtain ⟨n', hn', hnev⟩ := hs.messages.exists_mem hn
        exact hnew n' hn' (hnev.id_eq.trans hid)
      · rw [hjoined, hthread]
        exact congrArg rename' hfirst.symm
    · -- what it joined in the first stretch has a later version
      obtain ⟨added, hadded, hnew, hjoined⟩ := h.joined m hm hfirst
      obtain ⟨added', hadded', hev⟩ := hs'.messages.exists_mem hadded
      refine ⟨added', hadded', fun n hn hid => hnew n hn (hid.trans hev.id_eq), ?_⟩
      rw [h'.named added hadded added' hadded' hev.id_eq, hjoined]
      rfl

theorem Confined.refl (principal : Principal) (s : Store) : Confined principal s s where
  evolves := .refl s
  addresses := rfl
  routes := rfl
  receipts := rfl
  attachments := rfl
  messages := .refl Principal.MayRewrite.refl _
  threads := ⟨id, .refl s⟩
  jobs := .refl (fun _ => rfl) _
  approvals := .refl (fun _ => rfl) _

/-- What was asked of an earlier store is still asked, while jobs stay. -/
theorem Principal.MayAsk.later {a : ApprovalRequestRow} (h : principal.MayAsk s' a)
    (hjobs : s'.jobs.Extends Eq (principal.MayQueue s'') s''.jobs) : principal.MayAsk s'' a := by
  obtain ⟨j, hj, hlinked⟩ := h.job
  obtain ⟨j', hj', rfl⟩ := hjobs.exists_mem hj
  exact ⟨h.pending, j, hj', hlinked⟩

/-- A job may still be queued in view of a later store. -/
theorem Principal.MayQueue.later {j : OutboundJobRow} (h : principal.MayQueue s' j)
    (hs : s'.Evolves s'')
    (happrovals : s'.approvals.Extends Eq (principal.MayAsk s'') s''.approvals) :
    principal.MayQueue s'' j := by
  obtain ⟨m, hm, hid, hmailbox⟩ := h.message
  obtain ⟨m', hm', hev⟩ := hs.messages.exists_mem hm
  -- the recipients of a message are final
  have hrecipients : storedRecipients s'' j.message_id = storedRecipients s' j.message_id := by
    rw [← hid]
    exact hs.storedRecipients_eq hm
  refine ⟨h.requested, ⟨m', hm', hev.id_eq.trans hid, hev.mailbox_eq.trans hmailbox⟩, ?_, ?_⟩
  · rw [hrecipients]
    exact h.admitted
  · rw [hrecipients]
    rcases h.supervised with htrusts | ⟨a, ha, hpending, hlinked⟩
    · exact .inl htrusts
    · obtain ⟨a', ha', rfl⟩ := happrovals.exists_mem ha
      exact .inr ⟨a, ha', hpending, hlinked⟩

theorem Confined.trans (h : Confined principal s s') (h' : Confined principal s' s'') :
    Confined principal s s'' where
  evolves := h.evolves.trans h'.evolves
  addresses := h'.addresses.trans h.addresses
  routes := h'.routes.trans h.routes
  receipts := h'.receipts.trans h.receipts
  attachments := h'.attachments.trans h.attachments
  messages := by
    refine h.messages.trans (fun _ _ _ => .trans) (fun m m' hadd hrewrite => ?_) (fun _ => id)
      h'.messages
    have hcolumns := hrewrite.columns
    exact ⟨hadd.sends, by rw [hcolumns]; exact hadd.direction,
      by rw [hcolumns]; exact hadd.mailbox⟩
  threads := by
    obtain ⟨rename, hjoins⟩ := h.threads
    obtain ⟨rename', hjoins'⟩ := h'.threads
    exact ⟨rename' ∘ rename, hjoins.trans h.evolves h'.evolves hjoins'⟩
  jobs := by
    refine h.jobs.trans (fun _ _ _ => .trans) (fun j j' hnew heq => ?_) (fun _ => id) h'.jobs
    subst heq
    exact hnew.later h'.evolves h'.approvals
  approvals := by
    refine h.approvals.trans (fun _ _ _ => .trans) (fun a a' hnew heq => ?_) (fun _ => id)
      h'.approvals
    subst heq
    exact hnew.later h'.jobs

/-- Only marks of readable messages change. -/
structure MarkedOnly (principal : Principal) (s s' : Store) : Prop where
  rest : s' = { s with messages := s'.messages }
  messages : s.messages.Extends principal.MayMark (fun _ => False) s'.messages

theorem MarkedOnly.refl (principal : Principal) (s : Store) : MarkedOnly principal s s :=
  ⟨rfl, .refl Principal.MayMark.refl _⟩

theorem Principal.MayMark.thread_id {m m' : MessageRow} (h : principal.MayMark m m') :
    m'.thread_id = m.thread_id := by rw [h.columns]

theorem MarkedOnly.confined (h : MarkedOnly principal s s') (hs : s.Evolves s') :
    Confined principal s s' where
  evolves := hs
  addresses := by rw [h.rest]
  routes := by rw [h.rest]
  receipts := by rw [h.rest]
  attachments := by rw [h.rest]
  messages := by
    refine h.messages.mono (fun m m' hmark => ?_) fun _ => False.elim
    show principal.MayMark { m with thread_id := m'.thread_id } m'
    rw [hmark.thread_id]
    exact hmark
  threads := by
    refine ⟨id, fun m hm m' hm' hid => ?_, fun m _ hne => absurd rfl hne⟩
    have hkey : ∀ a b : MessageRow, principal.MayMark a b → Keyed.key b = Keyed.key a := by
      intro a b hmark
      show b.id = a.id
      rw [hmark.columns]
    exact (h.messages.version hkey hm hm' hid.symm).thread_id
  jobs := by
    rw [h.rest]
    exact .refl (fun _ => rfl) _
  approvals := by
    rw [h.rest]
    exact .refl (fun _ => rfl) _

theorem markThreadRead_markedOnly (hread : principal.policy.canRead = true) (s : Store)
    (handle : String) (isRead : Bool) (now : Instant) :
    MarkedOnly principal s
      (s.exec (.markThreadRead handle isRead (mailboxScopeOf principal.policy) now)) := by
  refine committed_of (P := MarkedOnly principal s) (.refl principal s) fun s' h => ?_
  obtain ⟨threadId, -, h⟩ := bind_eq_ok.mp h
  obtain rfl := Except.ok.inj h
  refine ⟨rfl, .update rfl Principal.MayMark.refl fun m _ hm => ?_⟩
  simp only [Bool.and_eq_true, decide_eq_true_eq] at hm
  exact ⟨rfl, .inr ⟨hread, hm.2, hm.1.2⟩⟩

/-! ### A submission -/

/-- The message that a write adds, and the threads that go into its own. -/
theorem writeThreadedMail_linked {write : ThreadedMailWrite} {r : AcceptMessageResult}
    (h : writeThreadedMail s write = .ok (r, s')) :
    ∃ (survivor : String) (merged : List String),
      s'.messages.rows = (s.messages.rows ++ [write.row]).map (fun m =>
        { m with thread_id := if m.thread_id ∈ merged then survivor else m.thread_id }) ∧
      (write.row.thread_id ∈ merged ∨ write.row.thread_id = survivor) := by
  obtain ⟨s₀, threadId, hins, hlink, -⟩ := writeThreadedMail_ok h
  obtain ⟨self, hself, hid, survivor, merged, hfounders, -, rfl⟩ := linkThread_ok hlink
  have hrows := moveThreads_rows s₀.messages survivor.id (merged.map (·.id))
  rw [Table.insert?_rows hins.messages] at hrows
  refine ⟨survivor.id, merged.map (·.id), hrows, ?_⟩
  -- the new message founds a thread of its own, which is one of those that are linked
  have hrow : self = write.row :=
    s₀.messages.eq_of_clash hself ((Table.mem_insert? hins.messages).mpr (.inr rfl)) hid
  have hown : self.id ∈ linkedThreads s₀ self := mem_linkedThreads.mpr (.inl (by rw [hrow]; rfl))
  have hthread : write.row.thread_id = self.id := by
    rw [hrow]
    rfl
  rw [hthread]
  rcases ((linkedFounders_cons hfounders).1 self).mp ⟨hself, hown⟩ with heq | hmem
  · exact .inr (congrArg (·.id) heq)
  · exact .inl (List.mem_map_of_mem hmem)

theorem writeThreadedMail_joins {write : ThreadedMailWrite} {r : AcceptMessageResult}
    (h : writeThreadedMail s write = .ok (r, s')) : ∃ rename, Joins rename s s' := by
  obtain ⟨survivor, merged, hrows, hown⟩ := writeThreadedMail_linked h
  have hnew := (newMessage_of_write h).1
  let rename := fun thread => if thread ∈ merged then survivor else thread
  have hmem : ∀ m, m ∈ s'.messages ↔ ∃ n, (n ∈ s.messages ∨ n = write.row) ∧
      { n with thread_id := rename n.thread_id } = m := by
    intro m
    rw [← Table.mem_rows, hrows, List.mem_map]
    simp only [List.mem_append, List.mem_singleton, Table.mem_rows]
    rfl
  refine ⟨rename, fun m hm m' hm' hid => ?_, fun m hm hmoved => ?_⟩
  · obtain ⟨n, hn, rfl⟩ := (hmem m').mp hm'
    rcases hn with hn | rfl
    · rw [s.messages.eq_of_clash hn hm hid]
    · exact absurd hid.symm (hnew m hm)
  · refine ⟨_, (hmem _).mpr ⟨write.row, .inr rfl, rfl⟩, fun n hn => hnew n hn, ?_⟩
    -- a thread that is renamed has got the name of the survivor
    have hsurvivor : rename m.thread_id = survivor := by
      by_cases hmerged : m.thread_id ∈ merged
      · exact if_pos hmerged
      · exact absurd (if_neg hmerged) hmoved
    show rename write.row.thread_id = _
    rw [hsurvivor]
    rcases hown with hmerged | heq
    · exact if_pos hmerged
    · by_cases hmerged : write.row.thread_id ∈ merged
      · exact if_pos hmerged
      · exact (if_neg hmerged).trans heq

/-- The jobs of a submission are what its policy lets the client queue. -/
theorem Submitted.mayQueue {input : SubmitOutboundInput} {ids : NewSubmissionIds}
    {identity : AccountSendingIdentity} {fromAddress : ExternalMailAddress}
    {needsApproval : Bool} (href : s.Referential)
    (hsub : Submitted s input ids identity fromAddress needsApproval s')
    (hrequester : input.requester = outboundRequester principal)
    (hpolicy : input.policy = principal.policy) {jobId key : String}
    {purpose : OutboundJobPurpose} {state : OutboundJobState}
    (hstate : state = .waiting_approval ∨ state = .ready)
    (hsupervised : (needsApproval = false ∧ purpose = .message) ∨ (needsApproval = true ∧
      ((purpose = .message ∧ state = .waiting_approval ∧ jobId = ids.jobId) ∨
        (purpose = .approval_notification ∧ jobId = ids.notificationJobId)))) :
    principal.MayQueue s' (newJobRow jobId input key ids.messageId identity.id purpose state) := by
  have hauth := hsub.authorized
  have hrecipients := hsub.recipients href
  rw [hpolicy] at hauth
  refine ⟨⟨?_, ?_, ?_⟩, ?_, ?_, ?_⟩
  · show input.requester.kind = _
    rw [hrequester]
    rfl
  · show input.requester.clientId = _
    rw [hrequester]
    rfl
  · rcases hstate with rfl | rfl <;> rfl
  · obtain ⟨r, s₁, hwrite, hframe⟩ := hsub.written
    obtain ⟨m, hm, hev⟩ := written_message hwrite
    rw [hframe]
    exact ⟨m, hm, hev.id_eq, hev.mailbox_eq⟩
  · show principal.policy.Admits identity.id (storedRecipients s' ids.messageId)
    rw [hrecipients]
    apply PrincipalPolicy.admits_of_authorized
    intro reason addresses hdenied
    rw [hauth] at hdenied
    cases needsApproval <;> exact absurd hdenied (by simp)
  · show (purpose = .message ∧ principal.policy.Trusts (storedRecipients s' ids.messageId)) ∨ _
    rw [hrecipients]
    rcases hsupervised with ⟨hfree, hmessage⟩ | ⟨hneeds, hlinked⟩
    · rw [hfree] at hauth
      exact .inl ⟨hmessage, PrincipalPolicy.trusts_of_allow hauth⟩
    · -- the approval was added with the job
      have hadded : newApprovalRow input ids ∈ s'.approvals := by
        rw [← Table.mem_rows, hsub.approvals, if_pos hneeds]
        exact List.mem_append_right _ List.mem_cons_self
      refine .inr ⟨_, hadded, rfl, ?_⟩
      rcases hlinked with ⟨hmessage, hwaits, rfl⟩ | ⟨hnotifies, rfl⟩
      · exact .inl ⟨hmessage, hwaits, rfl⟩
      · exact .inr ⟨hnotifies, rfl⟩

theorem submitOutbound_confined (hsend : requireSend principal.policy = .ok ())
    (href : s.Referential) {input : SubmitOutboundInput} (ids : NewSubmissionIds)
    (hrequester : input.requester = outboundRequester principal)
    (hpolicy : input.policy = principal.policy) :
    Confined principal s (s.exec (.submitOutbound input ids)) := by
  refine committedSnd_of (.refl principal s) fun r s' h => ?_
  rcases submitOutbound_ok h with ⟨rfl, -⟩ |
    ⟨-, identity, fromAddress, needsApproval, hsub, -⟩
  · exact .refl principal _
  obtain ⟨r₁, s₁, hwrite, hframe⟩ := hsub.written
  have hmessages : s'.messages = s₁.messages := by rw [hframe]
  have hrest := hsub.added.rest
  -- the job of the message waits exactly where an approval is needed
  have hmessage : principal.MayQueue s' (newJobRow ids.jobId input input.requestId ids.messageId
      identity.id .message (if needsApproval then .waiting_approval else .ready)) := by
    apply hsub.mayQueue href hrequester hpolicy
    · cases needsApproval <;> simp
    · cases needsApproval <;> simp
  have hrequested := hmessage.requested
  constructor
  · exact (submitted_step hsub).evolves
  · rw [hrest]
  · rw [hrest]
  · rw [hrest]
  · rw [hrest]
  · obtain ⟨survivor, merged, hrows, -⟩ := writeThreadedMail_linked hwrite
    rw [List.map_append, ← hmessages] at hrows
    refine ⟨_, _, hrows, fun m _ => ⟨rfl, .inl rfl⟩, fun m hm => ?_⟩
    obtain rfl := List.mem_singleton.mp hm
    exact ⟨hsend, rfl, hmessage.admitted.covers⟩
  · obtain ⟨rename, hjoins⟩ := writeThreadedMail_joins hwrite
    refine ⟨rename, ?_, ?_⟩
    · rw [hmessages]
      exact hjoins.named
    · rw [hmessages]
      exact hjoins.joined
  · refine .append (fun _ => rfl) hsub.jobs fun j hj => ?_
    rcases List.mem_cons.mp hj with rfl | hj
    · exact hmessage
    · cases needsApproval with
      | false => exact absurd hj (by simp)
      | true =>
        obtain rfl := List.mem_singleton.mp hj
        exact hsub.mayQueue href hrequester hpolicy (.inr rfl) (.inr ⟨rfl, .inr ⟨rfl, rfl⟩⟩)
  · refine .append (fun _ => rfl) hsub.approvals fun a ha => ?_
    cases needsApproval with
    | false => exact absurd ha (by simp)
    | true =>
      obtain rfl := List.mem_singleton.mp ha
      have hadded : newJobRow ids.jobId input input.requestId ids.messageId identity.id .message
          .waiting_approval ∈ s'.jobs := by
        rw [← Table.mem_rows, hsub.jobs]
        exact List.mem_append_right _ List.mem_cons_self
      exact ⟨rfl, _, hadded, rfl, rfl, rfl, hrequested⟩

end confinement

/-! ### The calls of a client -/

section service
variable [Unicode] {s s' : Store} (ports : ApiPorts) (principal : Principal)

/-- What a call of a tool may do. Its annotations say how far it goes. -/
def ToolCall.interference (call : ToolCall) : Interference Store ApiInput where
  inv := Store.Issued
  rely := Store.Evolves
  guarantee s s' := s' = s ∨
    (call.annotations.readOnlyHint = false ∧ (∃ c : Command, c.Issued ∧ s' = s.exec c) ∧
      Confined principal s s' ∧
      (call.annotations.destructiveHint = false → MarkedOnly principal s s'))
  accepts s i := i.fresh ports s = true
  refl := Store.Evolves.refl
  trans _ _ _ := Store.Evolves.trans

theorem ToolCall.serves (call : ToolCall) : Serves ports (call.interference ports principal) where
  idle _ := .inl rfl
  issued _ h := h
  evolves _ _ h := h
  kept s s' h := by
    rcases h with rfl | ⟨-, -, hconfined, -⟩
    · exact .refl _
    · exact hconfined.evolves
  fresh _ _ h := h

/-- A submission is confined. -/
theorem ToolCall.submits {call : ToolCall} (hcall : call.annotations = sends)
    {payload : SubmitMessagePayload} (decoded : IsSubmissionRequestId payload.requestId) :
    Operation.Safe (call.interference ports principal) (submitMessage ports principal payload) := by
  intro s
  refine (submitMessage_sound (call.serves ports principal) principal decoded ?_ s).mono
    fun _ _ _ => trivial
  intro hsend s i prepared now hs hi
  refine .inr ⟨by rw [hcall]; rfl, ⟨_, ?_, rfl⟩, ?_, fun hmild => ?_⟩
  · exact ⟨decoded, (i.fresh_ids hi prepared principal payload now).uuid⟩
  · exact submitOutbound_confined hsend hs.reachable.referential i.newIds rfl rfl
  · rw [hcall] at hmild
    exact absurd hmild (by decide)

variable [DateTime] [Base64Url]

theorem ToolCall.run_safe (call : ToolCall) :
    (call.run ports principal).Safe (call.interference ports principal) := by
  have hE := call.serves ports principal
  cases call with
  | umail_list_mailboxes =>
    exact Operation.Safe.bind (canRead_safe principal fun _ =>
      (safe_look hE.idle _).bind fun _ => safe_pure _) fun _ => safe_pure _
  | umail_list_sending_identities => exact (safe_look hE.idle _).bind fun _ => safe_pure _
  | umail_list_threads limit cursor =>
    exact (listThreads_safe hE principal limit cursor).bind fun _ => safe_pure _
  | umail_list_messages query =>
    exact (listMessages_safe hE principal query).bind fun _ => safe_pure _
  | umail_get_thread threadId limit cursor =>
    exact (getThread_safe hE principal threadId limit cursor).bind fun _ => safe_pure _
  | umail_get_message messageId =>
    exact (getMessage_safe hE principal messageId).bind fun _ => safe_pure _
  | umail_get_message_headers messageId =>
    exact Operation.Safe.bind ((readMessageSource_safe hE principal messageId).bind
      fun _ => safe_pure _) fun _ => safe_pure _
  | umail_set_thread_read_state threadId isRead =>
    refine (setThreadReadState_safe hE principal threadId isRead fun hread s now => ?_).bind
      fun _ => safe_pure _
    have hmarked := markThreadRead_markedOnly hread s threadId isRead now
    exact .inr ⟨rfl, ⟨.markThreadRead threadId isRead (mailboxScopeOf principal.policy) now,
      trivial,
      rfl⟩, hmarked.confined (exec_step s _).evolves, fun _ => hmarked⟩
  | umail_send_message input =>
    exact (ToolCall.submits ports principal rfl input.decoded).bind fun _ => safe_pure _
  | umail_reply_to_message input =>
    exact (ToolCall.submits ports principal rfl input.decoded).bind fun _ => safe_pure _
  | umail_get_job jobId => exact (getJob_safe hE principal jobId).bind fun _ => safe_pure _

variable {ports principal} {w w' : ToolPool}

end service

/-! ### A sample client -/

namespace Sample

def toolInput : ComposeInput where
  requestId := apiPayload.requestId
  fromAddressId := apiPayload.fromAddressId
  subject := apiPayload.subject
  text := apiPayload.text
  html := apiPayload.html
  firstTo := { address := bob.address, displayName := none }
  restTo := []
  cc := none
  decoded := apiPayload_decoded

end Sample

section sample
open Sample

end sample

end Umail
