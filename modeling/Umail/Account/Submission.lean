import Umail.Account.Content
import Umail.Account.Coupling
import Umail.Account.Receipts
import Umail.Contract.Submission
import Umail.Mail.Archive

/-! # Submitting

  `submitOutbound` as a whole: a retry returns the job it finds, a refused
  request changes nothing, and any other request adds its message, its job
  and what an approval needs. No insert can fail. That the keys of the rows
  never collide depends on the shape of the ids the server hands out: request
  ids and generated ids are UUIDs, the ids of inbound messages are not.
-/

namespace Umail

open Relational

/-! ### Participant ids -/

/-- The id `insertParticipants` builds. -/
def participantId (messageId : String) (role : ParticipantRole) (position : Nat) : String :=
  s!"pt_{messageId}_{role.text}_{position}"

theorem participantId_toList (messageId : String) (role : ParticipantRole) (position : Nat) :
    (participantId messageId role position).toList = 'p' :: 't' :: '_' ::
      (messageId.toList ++ '_' :: (role.text.toList ++ '_' :: Nat.toDigits 10 position)) := by
  simp [participantId, toString, String.toList_append]

/-- The role and the position can be read off the end of an id. -/
theorem participantId_inj {messageId : String} {role role' : ParticipantRole}
    {position position' : Nat}
    (h : participantId messageId role position = participantId messageId role' position') :
    role = role' ∧ position = position' := by
  have hlist := congrArg String.toList h
  simp only [participantId_toList, List.cons.injEq, true_and, List.append_cancel_left_eq] at hlist
  have hposition : ∀ {p p' : Nat}, Nat.toDigits 10 p = Nat.toDigits 10 p' → p = p' := by
    intro p p' hdigits
    rw [← Nat.ofDigitChars_ten_toDigits (n := p), hdigits, Nat.ofDigitChars_ten_toDigits]
  -- two roles differ in their first letter
  cases role <;> cases role' <;> simp [ParticipantRole.text] at hlist ⊢ <;> exact hposition hlist

theorem takeWhile_of_isUuid {id : String} (h : isUuid id = true) (rest : List Char) :
    (id.toList ++ '_' :: rest).takeWhile (· ≠ '_') = id.toList := by
  rw [List.takeWhile_append_of_pos]
  · simp
  · intro c hc
    simpa using isUuid_ne_underscore h c hc

/-- The id of a message: a generated one, or that of an inbound receipt. -/
def IsMessageId (id : String) : Prop := isUuid id = true ∨ isInboundMessageId id = true

/-- No participant of a stored message has the id of one of a new message. -/
theorem participantId_message {messageId messageId' : String} {role role' : ParticipantRole}
    {position position' : Nat} (huuid : isUuid messageId = true) (hid : IsMessageId messageId')
    (h : participantId messageId role position = participantId messageId' role' position') :
    messageId = messageId' := by
  have hlist := congrArg String.toList h
  simp only [participantId_toList, List.cons.injEq, true_and] at hlist
  -- what comes before the first underscore
  have hhead := congrArg (List.takeWhile (· ≠ '_')) hlist
  rw [takeWhile_of_isUuid huuid] at hhead
  rcases hid with huuid' | hinbound
  · rw [takeWhile_of_isUuid huuid'] at hhead
    exact String.toList_inj.mp hhead
  · have hprefix : messageId'.toList.take 3 = ['i', 'n', '_'] := of_decide_eq_true hinbound
    have hsplit : messageId'.toList = 'i' :: 'n' :: '_' :: messageId'.toList.drop 3 := by
      rw [← List.take_append_drop 3 messageId'.toList, hprefix]
      simp
    rw [hsplit] at hhead
    have hlength : messageId.toList.length = 36 :=
      of_decide_eq_true (Bool.and_eq_true_iff.mp huuid).1
    rw [hhead] at hlength
    exact absurd hlength (by simp)

/-! ### Derived request keys -/

/-- No request id is the key of an approval notification. -/
theorem approvalNotificationIdempotencyKey_ne {requestId requestId' : String}
    (h : IsSubmissionRequestId requestId) :
    requestId ≠ approvalNotificationIdempotencyKey requestId' := by
  intro heq
  subst heq
  exact h.ne_colon ':' (by simp [approvalNotificationIdempotencyKey, String.toList_append]) rfl

theorem approvalNotificationIdempotencyKey_injective :
    Function.Injective approvalNotificationIdempotencyKey := by
  intro r r' h
  have hlist := congrArg String.toList h
  simp only [approvalNotificationIdempotencyKey, String.toList_append] at hlist
  exact String.toList_inj.mp (List.append_cancel_right hlist)

section submitting
variable [Unicode] {s s' : Store}

/-! ### The ids the server hands out -/

/-- The ids of a command have the shape that the server gives them. -/
def Command.Issued : Command → Prop
  | .submitOutbound input ids =>
    IsSubmissionRequestId input.requestId ∧ isUuid ids.messageId = true
  | .registerInboundReceipt input => isInboundMessageId input.receiptId = true
  | _ => True

/-- A store that commands with issued ids reach. -/
def Store.Issued (s : Store) : Prop :=
  ∃ cs, accountStore.RunBy (fun _ c _ => c.Issued) Store.empty cs s

theorem Store.Issued.reachable (h : s.Issued) : s.Reachable := by
  obtain ⟨cs, hrun⟩ := h
  exact hrun.run.reachable (.init rfl)

/-- The shape of the ids in a store. -/
structure Store.Named (s : Store) : Prop where
  messages : ∀ m ∈ s.messages, IsMessageId m.id
  receipts : ∀ r ∈ s.receipts, isInboundMessageId r.id = true
  participants : ∀ p ∈ s.participants, p.id = participantId p.message_id p.role p.position
  message_jobs : ∀ j ∈ s.jobs, j.purpose = .message → IsSubmissionRequestId j.idempotency_key
  /-- The key of a notification is derived from that of the message it is about. -/
  notification_jobs : ∀ j ∈ s.jobs, j.purpose = .approval_notification →
    ∃ k ∈ s.jobs, k.purpose = .message ∧ j.requestKey =
      (k.requester_kind, k.requester_client_id,
        approvalNotificationIdempotencyKey k.idempotency_key)
  approvals : ∀ a ∈ s.approvals, ∃ j ∈ s.jobs, j.id = a.notification_job_id

theorem Store.Named.empty : Store.empty.Named := by
  constructor <;> exact fun _ h => absurd h Table.mem_empty

/-- Rows that are rewritten, and new messages with their participants, keep the shape. -/
theorem Store.Named.rewrite (hs : s.Named)
    (hmessages : s.messages.Extends MessageRow.Evolves (fun m => IsMessageId m.id) s'.messages)
    (hreceipts : ∀ r ∈ s'.receipts, isInboundMessageId r.id = true)
    (hparticipants : s.participants.Extends Eq
      (fun p => p.id = participantId p.message_id p.role p.position) s'.participants)
    (hjobs : s.jobs.Extends OutboundJobRow.Move (fun _ => False) s'.jobs)
    (happrovals : s.approvals.Extends ApprovalRequestRow.Evolves (fun _ => False) s'.approvals) :
    s'.Named where
  messages := by
    intro m' hm'
    rcases hmessages.mem_cases hm' with ⟨m, hm, hev⟩ | hnew
    · rw [hev.id_eq]
      exact hs.messages m hm
    · exact hnew
  receipts := hreceipts
  participants := by
    intro p' hp'
    rcases hparticipants.mem_cases hp' with ⟨p, hp, rfl⟩ | hnew
    · exact hs.participants p hp
    · exact hnew
  message_jobs := by
    intro j' hj' hpurpose
    rcases hjobs.mem_cases hj' with ⟨j, hj, hmove⟩ | hnew
    · rw [hmove.request] at hpurpose ⊢
      exact hs.message_jobs j hj hpurpose
    · exact hnew.elim
  notification_jobs := by
    intro j' hj' hpurpose
    rcases hjobs.mem_cases hj' with ⟨j, hj, hmove⟩ | hnew
    · rw [hmove.request] at hpurpose ⊢
      -- its message job is rewritten too, and keeps its request
      obtain ⟨k, hk, hkpurpose, hkey⟩ := hs.notification_jobs j hj hpurpose
      obtain ⟨k', hk', hkmove⟩ := hjobs.exists_mem hk
      refine ⟨k', hk', ?_⟩
      rw [hkmove.request]
      exact ⟨hkpurpose, hkey⟩
    · exact hnew.elim
  approvals := by
    intro a' ha'
    rcases happrovals.mem_cases ha' with ⟨a, ha, hev⟩ | hnew
    · obtain ⟨j, hj, hid⟩ := hs.approvals a ha
      obtain ⟨j', hj', hmove⟩ := hjobs.exists_mem hj
      refine ⟨j', hj', ?_⟩
      rw [hev.columns, hmove.request]
      exact hid
    · exact hnew.elim

theorem newMessage_absurd {id : String}
    (hmessages : s.messages.Extends MessageRow.Evolves (fun _ => False) s'.messages)
    (h : NewMessage s s' id) : False := by
  obtain ⟨hold, m', hm', hid⟩ := h
  rcases hmessages.mem_cases hm' with ⟨m, hm, hev⟩ | hnew
  · exact hold m hm (hev.id_eq.symm.trans hid)
  · exact hnew

theorem newMessageParticipants_id {input : AcceptOutboundInput} {p : ParticipantRow}
    (h : p ∈ newMessageParticipants input) :
    p.id = participantId p.message_id p.role p.position := by
  simp only [newMessageParticipants, newParticipantRows, List.mem_append, List.mem_map] at h
  rcases h with ((⟨_, -, rfl⟩ | ⟨_, -, rfl⟩) | ⟨_, -, rfl⟩) | ⟨_, -, rfl⟩ <;> rfl

theorem writeThreadedMail_participants {write : ThreadedMailWrite} {r : AcceptMessageResult}
    (h : writeThreadedMail s write = .ok (r, s')) :
    s.participants.Extends Eq
      (fun p => p.id = participantId p.message_id p.role p.position) s'.participants :=
  .append (fun _ => rfl) (writeThreadedMail_rows h).2.1 fun _ hp => newMessageParticipants_id hp

/-- A submission keeps the shape. -/
theorem Store.Named.submitted (hs : s.Named) {input : SubmitOutboundInput}
    {ids : NewSubmissionIds} {identity : AccountSendingIdentity}
    {fromAddress : ExternalMailAddress} {needsApproval : Bool}
    (hrequest : IsSubmissionRequestId input.requestId) (huuid : isUuid ids.messageId = true)
    (h : Submitted s input ids identity fromAddress needsApproval s') : s'.Named := by
  obtain ⟨r, s₁, hwrite, hframe⟩ := h.written
  have hperipheral := writeThreadedMail_peripherals hwrite
  constructor
  · intro m' hm'
    have hmessages : s'.messages = s₁.messages := by rw [hframe]
    rw [hmessages] at hm'
    rcases (writeThreadedMail_messages hwrite).mem_cases hm' with ⟨m, hm, hev⟩ | hnew
    · rw [hev.id_eq]
      exact hs.messages m hm
    · rw [hnew.id_eq]
      exact .inl huuid
  · intro r hr
    have hreceipts : s'.receipts = s₁.receipts := by rw [hframe]
    rw [hreceipts, hperipheral.receipts] at hr
    exact hs.receipts r hr
  · intro p hp
    have hparticipants : s'.participants = s₁.participants := by rw [hframe]
    rw [hparticipants] at hp
    rcases (writeThreadedMail_participants hwrite).mem_cases hp with ⟨p, hold, rfl⟩ | hnew
    · exact hs.participants p hold
    · exact hnew
  · intro j hj hpurpose
    rcases h.job_cases hj with hj | rfl | ⟨-, rfl⟩
    · exact hs.message_jobs j hj hpurpose
    · exact hrequest
    · -- the notification has the other purpose
      exact absurd hpurpose (by simp [newJobRow])
  · intro j hj hpurpose
    rcases h.job_cases hj with hj | rfl | ⟨-, rfl⟩
    · obtain ⟨k, hk, hkey⟩ := hs.notification_jobs j hj hpurpose
      exact ⟨k, h.job_mem_of_old hk, hkey⟩
    · exact absurd hpurpose (by simp [newJobRow])
    · exact ⟨_, h.job_mem, rfl, rfl⟩
  · intro a ha
    rcases h.approval_cases ha with ha | ⟨rfl, rfl⟩
    · obtain ⟨j, hj, hid⟩ := hs.approvals a ha
      exact ⟨j, h.job_mem_of_old hj, hid⟩
    · refine ⟨newJobRow ids.notificationJobId input
        (approvalNotificationIdempotencyKey input.requestId) ids.messageId identity.id
        .approval_notification .ready, ?_, rfl⟩
      rw [← Table.mem_rows, h.jobs]
      simp

theorem Store.Named.receipts_exec (hs : s.Named) {c : Command} (hc : c.Issued) :
    ∀ r ∈ (s.exec c).receipts, isInboundMessageId r.id = true := by
  intro r' hr'
  rcases (exec_receipts s c).mem_cases hr' with ⟨r, hr, hmove⟩ | hnew
  · rw [hmove.evolves.id_eq]
    exact hs.receipts r hr
  · cases c with
    | registerInboundReceipt input =>
      rw [show r' = newReceiptRow input from hnew]
      exact hc
    | _ => exact absurd hnew id

theorem Store.Named.exec (hs : s.Named) {c : Command} (hc : c.Issued) : (s.exec c).Named := by
  have hreceipts := hs.receipts_exec hc
  have hstep := exec_step s c
  by_cases hw : c.writesMail = false
  · -- without a new message there is no new participant, job or approval
    have hmail := (exec_noNewMail s hw).messages
    have hjobs : s.jobs.Extends OutboundJobRow.Move (fun _ => False) (s.exec c).jobs :=
      hstep.jobs.mono (fun _ _ hmove => hmove) fun _ hnew =>
        newMessage_absurd hmail ⟨hnew.1, hnew.2.imp fun _ hm => ⟨hm.1, hm.2.1⟩⟩
    refine hs.rewrite (hmail.mono (fun _ _ hev => hev) fun _ => False.elim) hreceipts
      (hstep.participants.mono (fun _ _ heq => heq) fun _ hnew =>
        (newMessage_absurd hmail hnew).elim)
      hjobs (hstep.approvals.mono (fun _ _ hev => hev) fun a hnew => ?_)
    obtain ⟨hold, j', hj', hid⟩ := hnew
    rcases hjobs.mem_cases hj' with ⟨j, hj, hmove⟩ | hfalse
    · rw [hmove.request] at hid
      exact hold j hj hid
    · exact hfalse
  cases c with
  | submitOutbound input ids =>
    show (committedSnd s (submitOutbound s input ids)).Named
    rcases committedSnd_cases (s := s) (r := submitOutbound s input ids) with
      heq | ⟨r, s', hok, heq⟩
    · rwa [heq]
    · rw [heq]
      rcases submitOutbound_ok hok with ⟨rfl, -⟩ | ⟨-, identity, fromAddress, _, hsub, -⟩
      · exact hs
      · exact hs.submitted hc.1 hc.2 hsub
  | acceptInbound input =>
    have hshow : s.exec (.acceptInbound input) = committedSnd s (acceptInbound s input) := rfl
    rw [hshow] at hreceipts ⊢
    rcases committedSnd_cases (s := s) (r := acceptInbound s input) with heq | ⟨r, s', hok, heq⟩
    · rwa [heq]
    · rw [heq] at hreceipts ⊢
      rcases acceptInbound_ok hok with rfl | ⟨receipt, hreceipt, hid, -, r', s₁, hwrite, rfl⟩
      · exact hs
      · have hframe := writeThreadedMail_frame hwrite
        have hparticipants := writeThreadedMail_participants hwrite
        have hjobs : s₁.jobs = s.jobs := by rw [hframe]
        have happrovals : s₁.approvals = s.approvals := by rw [hframe]
        refine hs.rewrite ((writeThreadedMail_messages hwrite).mono (fun _ _ hev => hev) ?_)
          hreceipts hparticipants ?_ ?_
        · -- the new message has the id of its receipt
          intro m hm
          have hshape := hs.receipts receipt hreceipt
          rw [hid] at hshape
          rw [hm.id_eq]
          exact .inr hshape
        · rw [hjobs]
          exact .refl OutboundJobRow.Move.refl _
        · rw [happrovals]
          exact .refl ApprovalRequestRow.Evolves.refl _
  | _ => exact absurd rfl hw

theorem Store.Issued.named (h : s.Issued) : s.Named := by
  obtain ⟨cs, hrun⟩ := h
  refine hrun.invariant (fun s c s' hs hstep hc => ?_) Store.Named.empty
  obtain rfl := Option.some.inj hstep
  exact hs.exec hc

/-! ### Writing a message cannot fail -/

theorem newParticipantRows_role {messageId : String} {role : ParticipantRole}
    {contacts : List AccountMailContact} {p : ParticipantRow}
    (h : p ∈ newParticipantRows messageId role contacts) : p.role = role := by
  obtain ⟨_, -, rfl⟩ := List.mem_map.mp h
  rfl

/-- Two participants of a new message differ in their role or in their position. -/
theorem newMessageParticipants_places (input : AcceptOutboundInput) :
    (newMessageParticipants input).Pairwise
      fun a b => ¬ (a.role = b.role ∧ a.position = b.position) := by
  have hrows : ∀ role contacts, (newParticipantRows input.messageId role contacts).Pairwise
      fun a b => ¬ (a.role = b.role ∧ a.position = b.position) := fun role contacts =>
    (newParticipantRows_positions input.messageId role contacts).imp
      fun hlt heq => absurd heq.2 (Nat.ne_of_lt hlt)
  unfold newMessageParticipants
  -- rows of two roles never clash
  have hroles : ∀ {role role' contacts contacts'}, role ≠ role' →
      ∀ a ∈ newParticipantRows input.messageId role contacts,
      ∀ b ∈ newParticipantRows input.messageId role' contacts',
      ¬ (a.role = b.role ∧ a.position = b.position) := by
    intro role role' contacts contacts' hne a ha b hb heq
    rw [newParticipantRows_role ha, newParticipantRows_role hb] at heq
    exact hne heq.1
  simp only [List.pairwise_append, List.mem_append]
  refine ⟨⟨⟨hrows _ _, hrows _ _, hroles (by decide)⟩, hrows _ _, ?_⟩, hrows _ _, ?_⟩
  · rintro a (ha | ha)
    · exact hroles (by decide) a ha
    · exact hroles (by decide) a ha
  · rintro a ((ha | ha) | ha)
    · exact hroles (by decide) a ha
    · exact hroles (by decide) a ha
    · exact hroles (by decide) a ha

theorem newMessageParticipants_distinct (input : AcceptOutboundInput) :
    (newMessageParticipants input).Pairwise fun a b => ¬ Clash a b := by
  apply (newMessageParticipants_places input).imp_of_mem
  intro a b ha hb hplaces hclash
  apply hplaces
  rcases hclash with hid | hkey
  · have hid : a.id = b.id := hid
    rw [newMessageParticipants_id ha, newMessageParticipants_id hb,
      newMessageParticipants_message_id ha, newMessageParticipants_message_id hb] at hid
    exact participantId_inj hid
  · exact ⟨(Prod.mk.inj (Prod.mk.inj hkey).2).1, (Prod.mk.inj (Prod.mk.inj hkey).2).2⟩

/-- Linking a stored message that is its own thread cannot fail. -/
theorem linkThread_isOk {self : MessageRow} (hself : self ∈ s.messages)
    (hroot : self.thread_id = self.id) : ∃ threadId s', linkThread s self.id =
      .ok (threadId, s') := by
  unfold linkThread
  rw [find_message hself]
  have hfounder : self ∈ linkedFounders s self := by
    refine (List.mem_insertionSort _).mpr (Table.mem_select.mpr ⟨hself, decide_eq_true ?_⟩)
    rw [← hroot]
    exact List.mem_cons_self
  cases hfounders : linkedFounders s self with
  | nil => exact absurd (hfounders ▸ hfounder) List.not_mem_nil
  | cons survivor merged =>
    by_cases hmerged : merged.isEmpty = true
    · exact ⟨survivor.id, s, by simp [hfounders, hmerged]⟩
    · exact ⟨survivor.id, _, by simp only [hfounders, hmerged]; rfl⟩

/-- A message with a generated id that is not in use, and without attachments,
    can be written. -/
theorem writeThreadedMail_isOk (hs : s.Named) (href : s.Referential) {w : ThreadedMailWrite}
    (huuid : isUuid w.input.messageId = true)
    (hfresh : ∀ m ∈ s.messages, m.id ≠ w.input.messageId)
    (hattachments : w.input.attachments = []) :
    ∃ r s', writeThreadedMail s w = .ok (r, s') := by
  have hnone : s.messages.find? (·.id = w.input.messageId) = none :=
    Table.find?_eq_none.mpr fun m hm => decide_eq_false (hfresh m hm)
  obtain ⟨messages, hmessages⟩ := Table.insert?_isSome (t := s.messages) (r := w.row) hfresh
  obtain ⟨references, hreferences⟩ := Table.insertAll?_isSome (t := s.references)
    (l := newReferenceRows w.input.messageId (normalizeThreadingHeaders
      w.input.rfcMessageId w.input.inReplyToHeader w.input.referencesHeader).references)
    (by
      intro x hx r hr hclash
      -- an old reference belongs to an old message, a new one to the new
      obtain ⟨m, hm, hid⟩ := href.references x hx
      refine hfresh m hm (hid.trans ?_)
      rw [← newReferenceRows_message_id hr]
      exact (Prod.mk.inj hclash).1)
    ((newReferenceRows_positions _ _).imp fun hlt hclash =>
      absurd (Prod.mk.inj hclash).2 (Nat.ne_of_lt hlt))
  obtain ⟨participants, hparticipants⟩ := Table.insertAll?_isSome (t := s.participants)
    (l := newMessageParticipants w.input)
    (by
      intro x hx p hp hclash
      obtain ⟨m, hm, hid⟩ := href.participants x hx
      refine hfresh m hm (hid.trans ?_)
      rcases hclash with hclash | hclash
      · -- a participant id names its message, also when the key is the id
        have hids : p.id = x.id := Eq.symm hclash
        rw [newMessageParticipants_id hp, hs.participants x hx,
          newMessageParticipants_message_id hp] at hids
        exact (participantId_message huuid (hid ▸ hs.messages m hm) hids).symm
      · rw [← newMessageParticipants_message_id hp]
        exact (Prod.mk.inj hclash).1)
    (newMessageParticipants_distinct w.input)
  have hinsert : insertMail s w = .ok { s with messages, references, participants } := by
    simp only [insertMail, hmessages, hreferences, hparticipants, hattachments]
    rfl
  have hmem : w.row ∈ messages := (Table.mem_insert? hmessages).mpr (.inr rfl)
  obtain ⟨threadId, s', hlink⟩ := linkThread_isOk
    (s := { s with messages, references, participants }) hmem rfl
  refine ⟨{ messageId := w.input.messageId, threadId }, s', ?_⟩
  unfold writeThreadedMail
  rw [hnone]
  show (insertMail s w >>= _) = _
  rw [hinsert]
  show (linkThread _ w.row.id >>= _) = _
  rw [hlink]
  rfl

/-! ### The rows of a new submission -/

/-- The ids and the token hash that are generated for a submit are not in use. -/
structure FreshIds (s : Store) (input : SubmitOutboundInput) (ids : NewSubmissionIds) : Prop where
  uuid : isUuid ids.messageId = true
  message : ∀ m ∈ s.messages, m.id ≠ ids.messageId
  job : ∀ j ∈ s.jobs, j.id ≠ ids.jobId
  notification : ∀ j ∈ s.jobs, j.id ≠ ids.notificationJobId
  distinct : ids.jobId ≠ ids.notificationJobId
  approval : ∀ a ∈ s.approvals, a.id ≠ input.approval.approvalId
  token : ∀ a ∈ s.approvals, a.token_hash ≠ input.approval.tokenHash

/-- What a submit is idempotent over. -/
def SubmitOutboundInput.requestKey (input : SubmitOutboundInput) :
    OutboundRequesterKind × String × String :=
  (input.requester.kind, input.requester.clientId, input.requestId)

variable {input : SubmitOutboundInput} {ids : NewSubmissionIds}

/-- No job has the key of the notification of a request that has no job. -/
theorem Store.Named.notification_unused (hs : s.Named)
    (hunused : ∀ j ∈ s.jobs, j.requestKey ≠ input.requestKey) :
    ∀ j ∈ s.jobs, j.requestKey ≠ (input.requester.kind, input.requester.clientId,
      approvalNotificationIdempotencyKey input.requestId) := by
  intro j hj hkey
  cases hpurpose : j.purpose with
  | message =>
    -- the keys of messages are request ids
    exact approvalNotificationIdempotencyKey_ne (hs.message_jobs j hj hpurpose)
      (Prod.mk.inj (Prod.mk.inj hkey).2).2
  | approval_notification =>
    -- the message the notification is about has the request id
    obtain ⟨k, hk, -, hnotification⟩ := hs.notification_jobs j hj hpurpose
    rw [hnotification] at hkey
    obtain ⟨hkind, hrest⟩ := Prod.mk.inj hkey
    obtain ⟨hclient, hrequest⟩ := Prod.mk.inj hrest
    apply hunused k hk
    rw [OutboundJobRow.requestKey, SubmitOutboundInput.requestKey, hkind, hclient,
      approvalNotificationIdempotencyKey_injective hrequest]

/-- The inserts of a submit cannot fail. -/
theorem insertSubmission_isOk (hs : s.Named) (href : s.Referential)
    (hrequest : IsSubmissionRequestId input.requestId) (hfresh : FreshIds s input ids)
    (hunused : ∀ j ∈ s.jobs, j.requestKey ≠ input.requestKey)
    (identity : AccountSendingIdentity) (fromAddress : ExternalMailAddress)
    (needsApproval : Bool) :
    ∃ s', insertSubmission s input ids identity fromAddress needsApproval = .ok s' := by
  obtain ⟨r, s₁, hwrite⟩ := writeThreadedMail_isOk hs href
    (w := .outbound (submittedMail input ids identity fromAddress)) hfresh.uuid hfresh.message rfl
  have hframe := writeThreadedMail_frame hwrite
  have hjobs₁ : s₁.jobs = s.jobs := by rw [hframe]
  have happrovals₁ : s₁.approvals = s.approvals := by rw [hframe]
  set job := newJobRow ids.jobId input input.requestId ids.messageId identity.id .message
    (if needsApproval then .waiting_approval else .ready) with hjob
  obtain ⟨jobs, hjobs⟩ := Table.insert?_isSome (t := s₁.jobs) (r := job) (by
    rw [hjobs₁]
    rintro j hj (hid | hkey)
    · exact hfresh.job j hj hid
    · exact hunused j hj hkey)
  unfold insertSubmission
  rw [hwrite]
  show ∃ s', (inserted (s₁.jobs.insert? job) >>= _) = .ok s'
  rw [hjobs]
  cases needsApproval with
  -- without approval there is nothing more to insert
  | false => exact ⟨_, rfl⟩
  | true =>
    set notification := newJobRow ids.notificationJobId input
      (approvalNotificationIdempotencyKey input.requestId) ids.messageId identity.id
      .approval_notification .ready with hnotification
    obtain ⟨jobs', hjobs'⟩ := Table.insert?_isSome (t := jobs) (r := notification) (by
      intro j hj hclash
      rcases (Table.mem_insert? hjobs).mp hj with hold | rfl
      · rw [hjobs₁] at hold
        rcases hclash with hid | hkey
        · exact hfresh.notification j hold hid
        · exact hs.notification_unused hunused j hold hkey
      · rcases hclash with hid | hkey
        · exact hfresh.distinct hid
        · -- the two new jobs share their client and kind, but not their request
          exact approvalNotificationIdempotencyKey_ne hrequest
            (Prod.mk.inj (Prod.mk.inj hkey).2).2)
    obtain ⟨approvals, happrovals⟩ := Table.insert?_isSome (t := s₁.approvals)
      (r := newApprovalRow input ids) (by
      rw [happrovals₁]
      rintro a ha (hid | hid | hid | htoken)
      · exact hfresh.approval a ha hid
      · obtain ⟨j, hj, hjid⟩ := href.approvals a ha
        exact hfresh.job j hj (hjid.trans hid)
      · obtain ⟨j, hj, hjid⟩ := hs.approvals a ha
        exact hfresh.notification j hj (hjid.trans hid)
      · exact hfresh.token a ha htoken)
    refine ⟨{ s₁ with jobs := jobs', approvals }, ?_⟩
    show (inserted (jobs.insert? notification) >>= _) = _
    rw [hjobs']
    show (inserted (s₁.approvals.insert? (newApprovalRow input ids)) >>= _) = _
    rw [happrovals]
    rfl

/-- The rows a submission adds: one message, one message job and, when an
    approval is needed, one approval and one notification job. Old messages
    may be moved to another thread; nothing else changes. -/
structure SubmissionAdded (s : Store) (input : SubmitOutboundInput) (ids : NewSubmissionIds)
    (needsApproval : Bool) (s' : Store) : Prop where
  message : ∃ (thread : MessageRow → String) (m : MessageRow), m.id = ids.messageId ∧
    m.direction = .outbound ∧
    s'.messages.rows =
      s.messages.rows.map (fun r => { r with thread_id := thread r }) ++ [m]
  jobs : ∃ mailboxId, s'.jobs.rows = s.jobs.rows ++
    newJobRow ids.jobId input input.requestId ids.messageId mailboxId .message
      (if needsApproval then .waiting_approval else .ready) ::
    if needsApproval then
      [newJobRow ids.notificationJobId input (approvalNotificationIdempotencyKey input.requestId)
        ids.messageId mailboxId .approval_notification .ready]
    else []
  approvals : s'.approvals.rows = s.approvals.rows ++
    if needsApproval then [newApprovalRow input ids] else []
  participants : ∃ news, s'.participants.rows = s.participants.rows ++ news ∧
    ∀ p ∈ news, p.message_id = ids.messageId
  references : ∃ news, s'.references.rows = s.references.rows ++ news ∧
    ∀ r ∈ news, r.message_id = ids.messageId
  rest : s' = { s with
    messages := s'.messages
    jobs := s'.jobs
    approvals := s'.approvals
    participants := s'.participants
    references := s'.references }

omit [Unicode] in
/-- Linking assigns threads only. -/
theorem moveThreads_rows (t : Table MessageRow) (survivor : String) (merged : List String) :
    (moveThreads t survivor merged).rows = t.rows.map fun r =>
      { r with thread_id := if r.thread_id ∈ merged then survivor else r.thread_id } := by
  rw [moveThreads, Table.update_rows]
  refine List.map_congr_left fun r _ => ?_
  by_cases hmerged : r.thread_id ∈ merged <;> simp [hmerged]

/-- A write adds one message. -/
theorem writeThreadedMail_added {write : ThreadedMailWrite} {r : AcceptMessageResult}
    (h : writeThreadedMail s write = .ok (r, s')) :
    ∃ (thread : MessageRow → String) (m : MessageRow), m.id = write.input.messageId ∧
      m.direction = write.direction ∧ s'.messages.rows =
        s.messages.rows.map (fun r => { r with thread_id := thread r }) ++ [m] := by
  obtain ⟨s₀, threadId, hins, hlink, -⟩ := writeThreadedMail_ok h
  obtain ⟨self, -, -, survivor, merged, -, -, rfl⟩ := linkThread_ok hlink
  have hrows := moveThreads_rows s₀.messages survivor.id (merged.map (·.id))
  -- the new message is moved like the old ones
  rw [Table.insert?_rows hins.messages, List.map_append] at hrows
  exact ⟨_, _, rfl, rfl, hrows⟩

theorem Submitted.added {identity : AccountSendingIdentity} {fromAddress : ExternalMailAddress}
    {needsApproval : Bool} (h : Submitted s input ids identity fromAddress needsApproval s') :
    SubmissionAdded s input ids needsApproval s' := by
  obtain ⟨r, s₁, hwrite, hframe⟩ := h.written
  obtain ⟨hreferences, hparticipants, hattachments⟩ := writeThreadedMail_rows hwrite
  obtain ⟨thread, m, hid, hdirection, hmessages⟩ := writeThreadedMail_added hwrite
  refine ⟨⟨thread, m, hid, hdirection, ?_⟩, ⟨identity.id, h.jobs⟩, h.approvals,
    ?_, ?_, ?_⟩
  · rw [hframe]
    exact hmessages
  · exact ⟨_, by rw [hframe]; exact hparticipants, fun p hp =>
      newMessageParticipants_message_id hp⟩
  · exact ⟨_, by rw [hframe]; exact hreferences, fun r hr => newReferenceRows_message_id hr⟩
  · -- an outbound message has no attachments
    have hsame : s₁.attachments = s.attachments :=
      Table.ext (hattachments.trans (List.append_nil _))
    have hwritten := writeThreadedMail_frame hwrite
    rw [hsame] at hwritten
    rw [hframe]
    rw [hwritten]

/-! ### Submitting as a whole -/

/-- The sender and the recipients of a submit are allowed, possibly after an approval. -/
def SubmitAllowed (s : Store) (input : SubmitOutboundInput) (needsApproval : Bool) : Prop :=
  ∃ identity fromAddress, submitSender s input = some (identity, fromAddress) ∧
    authorizeOutbound (some input.policy) identity.id (submitRecipients input) =
      if needsApproval then .require_approval else .allow

/-- What `submitOutbound` does. -/
structure SubmitSpec (s : Store) (input : SubmitOutboundInput) (ids : NewSubmissionIds) : Prop where
  /-- A retry returns the job and its approval as they are now. -/
  replayed : ∀ needsApproval, SubmitAllowed s input needsApproval →
    ∀ j ∈ s.jobs, j.requestKey = input.requestKey →
    j.intent_fingerprint = input.intentFingerprint →
    ∃ r, submitOutbound s input ids = .ok (r, s) ∧ r.created = false ∧
      (∃ m ∈ s.messages, m.id = j.message_id ∧
        r.job = toOutboundJob { row := j, thread_id := m.thread_id }) ∧
      ∀ a, r.approval = some a ↔ a ∈ s.approvals ∧ a.job_id = j.id
  /-- Another content under the same request id is refused. -/
  conflict : ∀ needsApproval, SubmitAllowed s input needsApproval →
    ∀ j ∈ s.jobs, j.requestKey = input.requestKey →
    j.intent_fingerprint ≠ input.intentFingerprint →
    submitOutbound s input ids =
      .error (.submissionConflict input.requestId input.requester.clientId)
  /-- A sender or recipients that are not allowed are refused. -/
  refused : (∀ needsApproval, ¬ SubmitAllowed s input needsApproval) →
    ∃ reason addresses, submitOutbound s input ids = .error (.jobAuthorization reason addresses)
  /-- A new request is written. -/
  created : FreshIds s input ids → ∀ needsApproval, SubmitAllowed s input needsApproval →
    (∀ j ∈ s.jobs, j.requestKey ≠ input.requestKey) →
    ∃ r s', submitOutbound s input ids = .ok (r, s') ∧ r.created = true ∧
      SubmissionAdded s input ids needsApproval s' ∧ r.job.jobId = ids.jobId ∧
      ∀ a, r.approval = some a ↔ a ∈ s'.approvals ∧ a.job_id = ids.jobId
  /-- A request that fails leaves the store as it was. -/
  unchanged : ∀ e, submitOutbound s input ids = .error e →
    s.exec (.submitOutbound input ids) = s
  /-- No uniqueness constraint is violated. -/
  no_constraint : FreshIds s input ids → submitOutbound s input ids ≠ .error .constraint

theorem readApprovalByJob_eq_some {jobId : String} {a : ApprovalRequestRow} :
    readApprovalByJob s jobId = some a ↔ a ∈ s.approvals ∧ a.job_id = jobId := by
  constructor
  · exact readApprovalByJob_some
  · rintro ⟨ha, rfl⟩
    exact readApprovalByJob_of_mem ha

/-- The job of a request is the one that the submit finds. -/
theorem submitOutbound_existing (ids : NewSubmissionIds) (href : s.Referential)
    {needsApproval : Bool}
    (hallowed : SubmitAllowed s input needsApproval) {j : OutboundJobRow} (hj : j ∈ s.jobs)
    (hkey : j.requestKey = input.requestKey) :
    ∃ m ∈ s.messages, m.id = j.message_id ∧ submitOutbound s input ids =
      if j.intent_fingerprint ≠ input.intentFingerprint then
        .error (.submissionConflict input.requestId input.requester.clientId)
      else
        .ok ({ job := toOutboundJob { row := j, thread_id := m.thread_id }
               created := false
               approval := readApprovalByJob s j.id }, s) := by
  obtain ⟨m, hm, hid, -⟩ := href.jobs j hj
  obtain ⟨identity, fromAddress, hsender, hauth⟩ := hallowed
  -- the request key names one job
  have hread := readJobWhere_of_mem (p := fun j => j.requestKey = input.requestKey) hj hm hid
    (decide_eq_true hkey) fun k hk hkkey =>
      s.jobs.eq_of_clash hk hj (.inr ((of_decide_eq_true hkkey).trans hkey.symm))
  refine ⟨m, hm, hid, ?_⟩
  unfold submitOutbound
  rw [hsender]
  simp only [hauth]
  cases needsApproval <;> simp only [Bool.false_eq_true, if_true, if_false] <;>
    rw [show readJobWhere s (fun j => j.requestKey =
      (input.requester.kind, input.requester.clientId, input.requestId)) = _ from hread]

theorem submitOutbound_refused (ids : NewSubmissionIds)
    (h : ∀ needsApproval, ¬ SubmitAllowed s input needsApproval) :
    ∃ reason addresses, submitOutbound s input ids =
      .error (.jobAuthorization reason addresses) := by
  unfold submitOutbound
  cases hsender : submitSender s input with
  | none => exact ⟨.mailbox_forbidden, [], rfl⟩
  | some sender =>
    obtain ⟨identity, fromAddress⟩ := sender
    cases hauth : authorizeOutbound (some input.policy) identity.id (submitRecipients input) with
    | denied reason addresses => exact ⟨reason, addresses, by simp only [hauth]⟩
    | allow => exact absurd ⟨identity, fromAddress, hsender, hauth⟩ (h false)
    | require_approval => exact absurd ⟨identity, fromAddress, hsender, hauth⟩ (h true)

/-- A new request is written. -/
theorem submitOutbound_created (hs : s.Named) (hr : s.Reachable)
    (hrequest : IsSubmissionRequestId input.requestId) (hfresh : FreshIds s input ids)
    {needsApproval : Bool} (hallowed : SubmitAllowed s input needsApproval)
    (hunused : ∀ j ∈ s.jobs, j.requestKey ≠ input.requestKey) :
    ∃ r s', submitOutbound s input ids = .ok (r, s') ∧ r.created = true ∧
      SubmissionAdded s input ids needsApproval s' ∧ r.job.jobId = ids.jobId ∧
      ∀ a, r.approval = some a ↔ a ∈ s'.approvals ∧ a.job_id = ids.jobId := by
  obtain ⟨identity, fromAddress, hsender, hauth⟩ := hallowed
  have hread : readJobWhere s (fun j => j.requestKey =
      (input.requester.kind, input.requester.clientId, input.requestId)) = none := by
    cases hread : readJobWhere s (fun j => j.requestKey =
      (input.requester.kind, input.requester.clientId, input.requestId)) with
    | none => rfl
    | some j =>
      obtain ⟨hj, hkey, -⟩ := readJobWhere_some hread
      exact absurd (of_decide_eq_true hkey) (hunused j.row hj)
  obtain ⟨s', hinsert⟩ :=
    insertSubmission_isOk hs hr.referential hrequest hfresh hunused identity
    fromAddress needsApproval
  have hsub := insertSubmission_ok hinsert hsender hauth hread
  -- the job that was inserted is read back with its message
  have hreferential := hr.referential.evolves (submitted_step hsub).evolves
  obtain ⟨m, hm, hid, -⟩ := hreferential.jobs _ hsub.job_mem
  obtain ⟨job, hrequire, hjobId⟩ : ∃ job, requireJob s' ids.jobId = .ok job ∧
      job.row.id = ids.jobId := by
    have hjob := readJob_of_mem hsub.job_mem hm hid
    exact ⟨_, by rw [requireJob, show readJob s' ids.jobId = _ from hjob], rfl⟩
  have hresult : submitOutbound s input ids =
      insertSubmission s input ids identity fromAddress needsApproval >>= fun s₁ =>
        requireJob s₁ ids.jobId >>= fun job => .ok ({
          job := toOutboundJob job
          created := true
          approval := readApprovalByJob s₁ ids.jobId }, s₁) := by
    unfold submitOutbound
    rw [hsender]
    simp only [hauth]
    cases needsApproval <;> simp only [Bool.false_eq_true, if_true, if_false, hread] <;> rfl
  rw [hinsert] at hresult
  have hok : submitOutbound s input ids = .ok ({
      job := toOutboundJob job
      created := true
      approval := readApprovalByJob s' ids.jobId }, s') := by
    rw [hresult]
    show (requireJob s' ids.jobId >>= _) = _
    rw [hrequire]
    rfl
  exact ⟨_, s', hok, rfl, hsub.added, hjobId, fun a => readApprovalByJob_eq_some⟩

theorem submitOutbound_spec (hs : s.Issued) (hrequest : IsSubmissionRequestId input.requestId) :
    SubmitSpec s input ids := by
  have href := hs.reachable.referential
  -- a refused submit is rolled back
  have hunchanged : ∀ e, submitOutbound s input ids = .error e →
      s.exec (.submitOutbound input ids) = s := by
    intro e he
    show committedSnd s (submitOutbound s input ids) = s
    rw [he]
    rfl
  constructor
  · intro needsApproval hallowed j hj hkey hfingerprint
    obtain ⟨m, hm, hid, hresult⟩ := submitOutbound_existing ids href hallowed hj hkey
    rw [if_neg (not_not.mpr hfingerprint)] at hresult
    exact ⟨_, hresult, rfl, ⟨m, hm, hid, rfl⟩, fun a => readApprovalByJob_eq_some⟩
  · intro needsApproval hallowed j hj hkey hfingerprint
    obtain ⟨m, -, -, hresult⟩ := submitOutbound_existing ids href hallowed hj hkey
    rwa [if_pos hfingerprint] at hresult
  · exact submitOutbound_refused ids
  · intro hfresh needsApproval hallowed hunused
    exact submitOutbound_created hs.named hs.reachable hrequest hfresh hallowed hunused
  · exact hunchanged
  · intro hfresh herror
    -- an error of the database would have to come from the creation, which succeeds
    by_cases hallowed : ∃ needsApproval, SubmitAllowed s input needsApproval
    · obtain ⟨needsApproval, hallowed⟩ := hallowed
      by_cases hused : ∃ j ∈ s.jobs, j.requestKey = input.requestKey
      · obtain ⟨j, hj, hkey⟩ := hused
        obtain ⟨m, -, -, hresult⟩ := submitOutbound_existing ids href hallowed hj hkey
        rw [hresult] at herror
        split at herror <;> exact absurd herror (by simp)
      · obtain ⟨r, s', hresult, -⟩ :=
          submitOutbound_created hs.named hs.reachable hrequest hfresh
          hallowed fun j hj hkey => hused ⟨j, hj, hkey⟩
        rw [hresult] at herror
        exact absurd herror (by simp)
    · obtain ⟨reason, addresses, hresult⟩ := submitOutbound_refused ids
        fun needsApproval hn => hallowed ⟨needsApproval, hn⟩
      rw [hresult] at herror
      exact absurd herror (by simp)

/-- **Submit is idempotent and atomic**, and two payloads have one fingerprint
    exactly when they have the same content. -/
theorem submit_is_idempotent :
    (∀ (s : Store) (input : SubmitOutboundInput) (ids : NewSubmissionIds), s.Issued →
      IsSubmissionRequestId input.requestId → SubmitSpec s input ids) ∧
    ∀ p q : SubmitMessagePayload,
      submissionFingerprint p = submissionFingerprint q ↔ p.SameContent q :=
  ⟨fun _ _ _ hs hrequest => submitOutbound_spec hs hrequest, fun _ _ =>
    submissionFingerprint_eq_iff⟩

end submitting

namespace Sample

/-- The sample submit under a request id that a client can choose. -/
def issuedSubmit : SubmitOutboundInput :=
  { submit with requestId := "11111111-1111-4111-8111-111111111111" }

def issuedIds : NewSubmissionIds :=
  { ids with messageId := "22222222-2222-4222-8222-222222222222" }

end Sample

section sample
open Sample

theorem submit_is_idempotent_waiting :
    SubmitSpec (mailboxStore.exec (.submitOutbound issuedSubmit issuedIds)) issuedSubmit ids := by
  have hrequest : IsSubmissionRequestId issuedSubmit.requestId :=
    ⟨"11111111-1111-4111-8111-111111111111", by decide +kernel⟩
  refine submit_is_idempotent.1 _ _ _
    ⟨[.createAddress "mailbox-1" "agent" "example.com" none 10 true,
    .submitOutbound issuedSubmit issuedIds], ?_⟩ hrequest
  exact .cons _ _ rfl trivial (.cons _ _ rfl ⟨hrequest, by decide +kernel⟩ (.nil _))

end sample

end Umail
