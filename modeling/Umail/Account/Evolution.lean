import Umail.Account.Effects

/-! # How the store evolves

  What any command leaves of the rows that exist: a message keeps every
  column but six, participants and references are only appended, jobs move
  along the edges of their life cycle, and a resolved approval is frozen.
  `Store.Evolves` collects this as a preorder, so that it holds along runs.
-/

namespace Umail

open Relational

/-! ### Rows -/

/-- A later version of a message: only `is_read`, `read_at`, `updated_at`,
    `deleted_at`, `rfc_message_id` and `thread_id` may differ. -/
structure MessageRow.Evolves (m m' : MessageRow) : Prop where
  columns : m' = { m with
    is_read := m'.is_read
    read_at := m'.read_at
    updated_at := m'.updated_at
    deleted_at := m'.deleted_at
    rfc_message_id := m'.rfc_message_id
    thread_id := m'.thread_id }
  /-- A delete is final. -/
  deleted : ∀ t, m.deleted_at = some t → m'.deleted_at = some t

theorem MessageRow.Evolves.refl (m : MessageRow) : m.Evolves m := ⟨rfl, fun _ h => h⟩

theorem MessageRow.Evolves.trans {a b c : MessageRow} (h : a.Evolves b) (h' : b.Evolves c) :
    a.Evolves c := by
  refine ⟨?_, fun t ht => h'.deleted t (h.deleted t ht)⟩
  rw [h'.columns, h.columns]

theorem MessageRow.Evolves.id_eq {m m' : MessageRow} (h : m.Evolves m') : m'.id = m.id := by
  rw [h.columns]

theorem MessageRow.Evolves.mailbox_eq {m m' : MessageRow} (h : m.Evolves m') :
    m'.mailbox_id = m.mailbox_id := by
  rw [h.columns]

theorem MessageRow.Evolves.direction_eq {m m' : MessageRow} (h : m.Evolves m') :
    m'.direction = m.direction := by
  rw [h.columns]

/-- A later version of an approval: a resolved one does not change. -/
structure ApprovalRequestRow.Evolves (a a' : ApprovalRequestRow) : Prop where
  columns : a' = { a with state := a'.state, resolved_at := a'.resolved_at }
  resolved : a.state ≠ .pending → a' = a

theorem ApprovalRequestRow.Evolves.refl (a : ApprovalRequestRow) : a.Evolves a :=
  ⟨rfl, fun _ => rfl⟩

theorem ApprovalRequestRow.Evolves.trans {a b c : ApprovalRequestRow} (h : a.Evolves b)
    (h' : b.Evolves c) : a.Evolves c := by
  refine ⟨?_, fun ha => ?_⟩
  · rw [h'.columns, h.columns]
  · have hb : b = a := h.resolved ha
    rw [h'.resolved (hb ▸ ha), hb]

/-- A pending approval may be resolved in any way. -/
theorem ApprovalRequestRow.resolve_evolves {a : ApprovalRequestRow} (state : ApprovalState)
    (nowIso : Instant) (h : a.state = .pending) : a.Evolves (a.resolve state nowIso) :=
  ⟨rfl, fun hne => absurd h hne⟩

/-- The columns of a job that its life cycle writes. -/
def OutboundJobRow.SameRequest (j j' : OutboundJobRow) : Prop :=
  j' = { j with
    state := j'.state
    attempt_id := j'.attempt_id
    attempt_claimed_at := j'.attempt_claimed_at
    claim_expires_at := j'.claim_expires_at
    provider_message_id := j'.provider_message_id
    rfc_message_id := j'.rfc_message_id
    failure_class := j'.failure_class
    failure_detail := j'.failure_detail
    updated_at := j'.updated_at }

/-- `state IN ('accepted', 'rejected', 'unknown')` -/
def OutboundJobState.settled : OutboundJobState → Bool
  | .accepted => true
  | .rejected => true
  | .unknown => true
  | _ => false

/-- The edges of the life cycle of a job. -/
inductive OutboundJobState.Edge : OutboundJobState → OutboundJobState → Prop where
  | ready : Edge .waiting_approval .ready
  | in_flight : Edge .ready .in_flight
  | settled {state : OutboundJobState} : state.settled = true → Edge .in_flight state
  | rejected_waiting : Edge .waiting_approval .rejected
  | rejected_ready : Edge .ready .rejected

/-- What one command does to one job: nothing, or one edge. -/
structure OutboundJobRow.Move (j j' : OutboundJobRow) : Prop where
  request : j.SameRequest j'
  edge : j' = j ∨ j.state.Edge j'.state
  /-- Only a claim writes the attempt. -/
  attempt : j'.attempt_id = j.attempt_id ∨ (j.state = .ready ∧ j'.state = .in_flight)

theorem OutboundJobRow.Move.refl (j : OutboundJobRow) : j.Move j := ⟨rfl, .inl rfl, .inl rfl⟩

/-- A later version of a job. -/
def OutboundJobRow.Evolves : OutboundJobRow → OutboundJobRow → Prop :=
  Relation.ReflTransGen OutboundJobRow.Move

section jobs
variable {j j' : OutboundJobRow}

theorem OutboundJobRow.SameRequest.key_eq (h : j.SameRequest j') :
    Keyed.key j' = Keyed.key j := by
  rw [OutboundJobRow.SameRequest] at h
  rw [h]
  rfl

theorem OutboundJobRow.Evolves.sameRequest (h : j.Evolves j') : j.SameRequest j' := by
  induction h with
  | refl => rfl
  | tail _ hmove ih =>
    have hlast := hmove.request
    rw [OutboundJobRow.SameRequest] at ih hlast ⊢
    rw [hlast, ih]

theorem OutboundJobRow.Evolves.key_eq (h : j.Evolves j') : Keyed.key j' = Keyed.key j :=
  h.sameRequest.key_eq

theorem OutboundJobState.not_edge_of_settled {a b : OutboundJobState} (h : a.settled = true) :
    ¬ a.Edge b := by
  intro hedge
  cases hedge <;> simp [OutboundJobState.settled] at h

/-- A settled job does not move. -/
theorem OutboundJobRow.Move.eq_of_settled (h : j.Move j') (hs : j.state.settled = true) :
    j' = j :=
  h.edge.resolve_right (OutboundJobState.not_edge_of_settled hs)

/-- A settled job never changes again. -/
theorem OutboundJobRow.Evolves.eq_of_settled (h : j.Evolves j') (hs : j.state.settled = true) :
    j' = j := by
  induction h with
  | refl => rfl
  | tail _ hmove ih => rw [← ih] at hs; rw [hmove.eq_of_settled hs, ih]

theorem OutboundJobRow.undispatched_iff :
    j.undispatched = true ↔ j.state = .waiting_approval ∨ j.state = .ready := by
  simp [OutboundJobRow.undispatched]

/-- No edge leads back to the states before the claim. -/
theorem OutboundJobState.Edge.source {a b : OutboundJobState} (h : a.Edge b)
    (hb : b = .waiting_approval ∨ b = .ready) : a = .waiting_approval ∨ a = .ready := by
  cases h with
  | ready => exact .inl rfl
  | in_flight => exact .inr rfl
  | settled hs => rcases hb with rfl | rfl <;> exact absurd hs (by decide)
  | rejected_waiting => exact .inl rfl
  | rejected_ready => exact .inr rfl

/-- A job that is dispatched stays dispatched. -/
theorem OutboundJobRow.Move.undispatched_of (h : j.Move j') (hj' : j'.undispatched = true) :
    j.undispatched = true := by
  rcases h.edge with rfl | hedge
  · exact hj'
  · exact undispatched_iff.mpr (hedge.source (undispatched_iff.mp hj'))

theorem OutboundJobRow.Evolves.undispatched_of (h : j.Evolves j')
    (hj' : j'.undispatched = true) : j.undispatched = true := by
  induction h with
  | refl => exact hj'
  | tail _ hmove ih => exact ih (hmove.undispatched_of hj')

/-- Once a job is past `ready`, its attempt is fixed. -/
theorem OutboundJobRow.Evolves.attempt_eq (h : j.Evolves j') (hj : j.undispatched = false) :
    j'.attempt_id = j.attempt_id := by
  induction h with
  | refl => rfl
  | @tail b c hab hmove ih =>
    rcases hmove.attempt with heq | ⟨hready, -⟩
    · rw [heq, ih]
    · have hb : b.undispatched = true := by simp [OutboundJobRow.undispatched, hready]
      exact absurd (OutboundJobRow.Evolves.undispatched_of hab hb) (by simp [hj])

/-- A job that is refused moves to `rejected`. -/
theorem OutboundJobRow.reject_move (failure : RejectionFailure) (nowIso : Instant)
    (h : j.undispatched = true) : j.Move (j.reject failure nowIso) := by
  refine ⟨rfl, .inr ?_, .inl rfl⟩
  show j.state.Edge .rejected
  rcases undispatched_iff.mp h with hs | hs
  · rw [hs]
    exact .rejected_waiting
  · rw [hs]
    exact .rejected_ready

theorem CompleteAttemptInput.settle_move {input : CompleteAttemptInput}
    (h : input.claims j = true) : j.Move (input.settle j) := by
  simp only [CompleteAttemptInput.claims, Bool.and_eq_true, decide_eq_true_eq] at h
  obtain ⟨⟨-, hflight⟩, -⟩ := h
  unfold CompleteAttemptInput.settle
  cases input.outcome with
  | accepted => exact ⟨rfl, .inr (hflight ▸ .settled rfl), .inl rfl⟩
  | rejected => exact ⟨rfl, .inr (hflight ▸ .settled rfl), .inl rfl⟩
  | unknown => exact ⟨rfl, .inr (hflight ▸ .settled rfl), .inl rfl⟩

theorem CompleteAttemptInput.settle_settled (input : CompleteAttemptInput)
    (j : OutboundJobRow) : (input.settle j).state.settled = true := by
  unfold CompleteAttemptInput.settle
  cases input.outcome <;> rfl

end jobs

/-! ### Rows of a write -/

theorem moveThreads_messages {N : MessageRow → Prop} (t : Table MessageRow) (survivor : String)
    (merged : List String) : t.Extends MessageRow.Evolves N (moveThreads t survivor merged) :=
  Table.Extends.update rfl MessageRow.Evolves.refl fun _ _ _ => ⟨rfl, fun _ h => h⟩

theorem newReferenceRows_message_id {messageId : String} {ids : List NormalizedRfcMessageId}
    {r : ReferenceRow} (h : r ∈ newReferenceRows messageId ids) : r.message_id = messageId := by
  obtain ⟨_, -, rfl⟩ := List.mem_map.mp h
  rfl

theorem newAttachmentRows_message_id {messageId : String} {createdAt : Instant}
    {attachments : List MessageAttachmentWrite} {a : AttachmentRow}
    (h : a ∈ newAttachmentRows messageId createdAt attachments) : a.message_id = messageId := by
  obtain ⟨_, -, rfl⟩ := List.mem_map.mp h
  rfl


variable [Unicode]

/-! ### Stores -/

/-- The message is in `s'` but not yet in `s`. -/
def NewMessage (s s' : Store) (messageId : String) : Prop :=
  (∀ m ∈ s.messages, m.id ≠ messageId) ∧ ∃ m ∈ s'.messages, m.id = messageId

/-- The job belongs to a message of `s'` that is not yet in `s`, and to its mailbox. -/
def NewJob (s s' : Store) (j : OutboundJobRow) : Prop :=
  (∀ m ∈ s.messages, m.id ≠ j.message_id) ∧
    ∃ m ∈ s'.messages, m.id = j.message_id ∧ m.mailbox_id = j.mailbox_id

/-- `s'` is a later version of `s`, with jobs related by `J`: new participants,
    references, attachments and jobs belong to new messages, and new approvals
    to new jobs. -/
structure Store.Later (J : OutboundJobRow → OutboundJobRow → Prop) (s s' : Store) : Prop where
  messages : s.messages.Extends MessageRow.Evolves (fun _ => True) s'.messages
  references : s.references.Extends Eq (fun r => NewMessage s s' r.message_id) s'.references
  participants :
    s.participants.Extends Eq (fun p => NewMessage s s' p.message_id) s'.participants
  attachments : s.attachments.Extends Eq (fun a => NewMessage s s' a.message_id) s'.attachments
  jobs : s.jobs.Extends J (NewJob s s') s'.jobs
  approvals : s.approvals.Extends ApprovalRequestRow.Evolves
    (fun a => (∀ j ∈ s.jobs, j.id ≠ a.job_id) ∧ ∃ j ∈ s'.jobs, j.id = a.job_id)
      s'.approvals

/-- One command later. -/
abbrev Store.Step : Store → Store → Prop := Store.Later OutboundJobRow.Move

/-- Any number of commands later. -/
abbrev Store.Evolves : Store → Store → Prop := Store.Later OutboundJobRow.Evolves

section later
variable {J : OutboundJobRow → OutboundJobRow → Prop} {s s' s'' : Store}

theorem NewMessage.mono_left {id : String} (h : NewMessage s' s'' id)
    (hs : s.messages.Extends MessageRow.Evolves (fun _ => True) s'.messages) :
    NewMessage s s'' id := by
  refine ⟨fun m hm hid => ?_, h.2⟩
  obtain ⟨m', hm', hev⟩ := hs.exists_mem hm
  exact h.1 m' hm' (hev.id_eq.trans hid)

theorem NewMessage.mono_right {id : String} (h : NewMessage s s' id)
    (hs : s'.messages.Extends MessageRow.Evolves (fun _ => True) s''.messages) :
    NewMessage s s'' id := by
  obtain ⟨m, hm, hid⟩ := h.2
  obtain ⟨m', hm', hev⟩ := hs.exists_mem hm
  exact ⟨h.1, m', hm', hev.id_eq.trans hid⟩

theorem NewJob.mono_left {j : OutboundJobRow} (h : NewJob s' s'' j)
    (hs : s.messages.Extends MessageRow.Evolves (fun _ => True) s'.messages) :
    NewJob s s'' j := by
  refine ⟨fun m hm hid => ?_, h.2⟩
  obtain ⟨m', hm', hev⟩ := hs.exists_mem hm
  exact h.1 m' hm' (hev.id_eq.trans hid)

theorem NewJob.mono_right {j : OutboundJobRow} (h : NewJob s s' j)
    (hs : s'.messages.Extends MessageRow.Evolves (fun _ => True) s''.messages) :
    NewJob s s'' j := by
  obtain ⟨m, hm, hid, hmailbox⟩ := h.2
  obtain ⟨m', hm', hev⟩ := hs.exists_mem hm
  exact ⟨h.1, m', hm', hev.id_eq.trans hid, hev.mailbox_eq.trans hmailbox⟩

/-- A change of jobs and approvals only. -/
theorem Store.Later.of_jobs (hmessages : s'.messages = s.messages)
    (hreferences : s'.references = s.references)
    (hparticipants : s'.participants = s.participants)
    (hattachments : s'.attachments = s.attachments)
    (hjobs : s.jobs.Extends J (NewJob s s') s'.jobs)
    (happrovals : s.approvals.Extends ApprovalRequestRow.Evolves
      (fun a => (∀ j ∈ s.jobs, j.id ≠ a.job_id) ∧ ∃ j ∈ s'.jobs, j.id = a.job_id)
      s'.approvals) : s.Later J s' where
  messages := by
    rw [hmessages]
    exact .refl MessageRow.Evolves.refl _
  references := by
    rw [hreferences]
    exact .refl (fun _ => rfl) _
  participants := by
    rw [hparticipants]
    exact .refl (fun _ => rfl) _
  attachments := by
    rw [hattachments]
    exact .refl (fun _ => rfl) _
  jobs := hjobs
  approvals := happrovals

theorem SameMail.later (hJ : ∀ j, J j j) (h : SameMail s s') : s.Later J s' := by
  refine .of_jobs h.messages h.references h.participants h.attachments ?_ ?_
  · rw [h.jobs]
    exact .refl hJ _
  · rw [h.approvals]
    exact .refl ApprovalRequestRow.Evolves.refl _

theorem Store.Evolves.refl (s : Store) : s.Evolves s :=
  (SameMail.refl s).later fun _ => .refl

/-- Rows that belong to a message and never change. -/
theorem owned_trans {ρ κ : Type} [Keyed ρ κ] {t t' t'' : Table ρ} {owner : ρ → String}
    (hs : s.messages.Extends MessageRow.Evolves (fun _ => True) s'.messages)
    (hs' : s'.messages.Extends MessageRow.Evolves (fun _ => True) s''.messages)
    (h : t.Extends Eq (fun r => NewMessage s s' (owner r)) t')
    (h' : t'.Extends Eq (fun r => NewMessage s' s'' (owner r)) t'') :
    t.Extends Eq (fun r => NewMessage s s'' (owner r)) t'' := by
  refine h.trans (fun _ _ _ => .trans) ?_ ?_ h'
  · intro r _ hr heq
    obtain rfl := heq
    exact hr.mono_right hs'
  · exact fun r hr => hr.mono_left hs

theorem Store.Evolves.trans (h : s.Evolves s') (h' : s'.Evolves s'') : s.Evolves s'' where
  messages := h.messages.trans (fun _ _ _ => .trans) (fun _ _ _ _ => trivial)
    (fun _ _ => trivial) h'.messages
  references := owned_trans h.messages h'.messages h.references h'.references
  participants := owned_trans h.messages h'.messages h.participants h'.participants
  attachments := owned_trans h.messages h'.messages h.attachments h'.attachments
  jobs := by
    refine h.jobs.trans (fun _ _ _ => .trans) ?_ ?_ h'.jobs
    · intro j j' hj hev
      have hsame := hev.sameRequest
      rw [OutboundJobRow.SameRequest] at hsame
      rw [hsame]
      exact hj.mono_right h'.messages
    · exact fun j hj => hj.mono_left h.messages
  approvals := by
    refine h.approvals.trans (fun _ _ _ => .trans) ?_ ?_ h'.approvals
    · intro a a' hparts hev
      obtain ⟨hfresh, j, hj, hid⟩ := hparts
      obtain ⟨j', hj', hjev⟩ := h'.jobs.exists_mem hj
      rw [hev.columns]
      exact ⟨hfresh, j', hj', (congrArg Prod.fst hjev.key_eq).trans hid⟩
    · intro a hparts
      obtain ⟨hfresh, hex⟩ := hparts
      refine ⟨fun j hj hid => ?_, hex⟩
      obtain ⟨j', hj', hjev⟩ := h.jobs.exists_mem hj
      exact hfresh j' hj' ((congrArg Prod.fst hjev.key_eq).trans hid)

theorem Store.Step.evolves (h : s.Step s') : s.Evolves s' where
  messages := h.messages
  references := h.references
  participants := h.participants
  attachments := h.attachments
  jobs := h.jobs.mono (fun _ _ hmove => .single hmove) fun _ h => h
  approvals := h.approvals

end later

/-! ### The steps of the commands -/

section steps
variable {s s' : Store}

theorem rejectUndispatched_jobs {N : OutboundJobRow → Prop} (messageIds : List String)
    (failure : RejectionFailure) (nowIso : Instant) :
    s.jobs.Extends OutboundJobRow.Move N
      (rejectUndispatched s messageIds failure nowIso).jobs := by
  apply Table.Extends.update rfl OutboundJobRow.Move.refl
  intro j _ hj
  exact OutboundJobRow.reject_move failure nowIso (Bool.and_eq_true_iff.mp hj).2

/-- A job that is not rejected afterwards was left alone. -/
theorem mem_jobs_of_rejectUndispatched {messageIds : List String} {failure : RejectionFailure}
    {nowIso : Instant} {j : OutboundJobRow}
    (hj : j ∈ (rejectUndispatched s messageIds failure nowIso).jobs)
    (hstate : j.state ≠ .rejected) :
    j ∈ s.jobs := by
  rcases Table.mem_updated rfl hj with ⟨hold, -⟩ | ⟨j, -, -, rfl⟩
  · exact hold
  · exact absurd rfl hstate

theorem rejectUndispatched_approvals {N : ApprovalRequestRow → Prop} (messageIds : List String)
    (failure : RejectionFailure) (nowIso : Instant) :
    s.approvals.Extends ApprovalRequestRow.Evolves N
      (rejectUndispatched s messageIds failure nowIso).approvals := by
  apply Table.Extends.update rfl ApprovalRequestRow.Evolves.refl
  intro a _ ha
  exact a.resolve_evolves _ _ (by simpa using (Bool.and_eq_true_iff.mp ha).1)

theorem resolveApproval_approvals {N : ApprovalRequestRow → Prop} (approvalId : String)
    (state : ApprovalState) (nowIso : Instant) :
    s.approvals.Extends ApprovalRequestRow.Evolves N
      (resolveApproval s approvalId state nowIso).approvals := by
  apply Table.Extends.update rfl ApprovalRequestRow.Evolves.refl
  intro a _ ha
  exact a.resolve_evolves _ _ (by simpa using (Bool.and_eq_true_iff.mp ha).2)

theorem expireApprovals_approvals {N : ApprovalRequestRow → Prop} (nowIso : Instant) :
    s.approvals.Extends ApprovalRequestRow.Evolves N (expireApprovals s nowIso).approvals := by
  apply Table.Extends.update rfl ApprovalRequestRow.Evolves.refl
  intro a _ ha
  exact a.resolve_evolves _ _ (by simpa using (Bool.and_eq_true_iff.mp ha).1)

/-- A rejection after a first write of the approvals. -/
theorem rejectUndispatched_after {N : ApprovalRequestRow → Prop} {s₁ : Store}
    (h : s.approvals.Extends ApprovalRequestRow.Evolves (fun _ => False) s₁.approvals)
    (messageIds : List String) (failure : RejectionFailure) (nowIso : Instant) :
    s.approvals.Extends ApprovalRequestRow.Evolves N
      (rejectUndispatched s₁ messageIds failure nowIso).approvals := by
  have hreject : s₁.approvals.Extends ApprovalRequestRow.Evolves (fun _ => False)
      (rejectUndispatched s₁ messageIds failure nowIso).approvals :=
    rejectUndispatched_approvals messageIds failure nowIso
  exact h.trans (fun _ _ _ => .trans) (fun _ _ => False.elim) (fun _ => False.elim) hreject

/-! ### Writing a message -/

/-- The row `writeThreadedMail` inserts, before the message is linked. -/
abbrev ThreadedMailWrite.row (write : ThreadedMailWrite) : MessageRow :=
  newMessageRow write (normalizeThreadingHeaders write.input.rfcMessageId
    write.input.inReplyToHeader write.input.referencesHeader)

theorem written_message {write : ThreadedMailWrite} {r : AcceptMessageResult}
    (h : writeThreadedMail s write = .ok (r, s')) :
    ∃ m ∈ s'.messages, write.row.Evolves m := by
  obtain ⟨s₁, threadId, hins, hlink, -⟩ := writeThreadedMail_ok h
  obtain ⟨self, -, -, survivor, merged, -, -, rfl⟩ := linkThread_ok hlink
  exact (moveThreads_messages (N := fun _ => False) s₁.messages survivor.id _).exists_mem
    ((Table.mem_insert? hins.messages).mpr (.inr rfl))

theorem newMessage_of_write {write : ThreadedMailWrite} {r : AcceptMessageResult}
    (h : writeThreadedMail s write = .ok (r, s')) : NewMessage s s' write.input.messageId := by
  obtain ⟨s₁, threadId, hins, -, -⟩ := writeThreadedMail_ok h
  refine ⟨fun m hm hid => ?_, ?_⟩
  · have hnone := Table.find?_eq_none.mp hins.fresh m hm
    simp [hid] at hnone
  · obtain ⟨m, hm, hev⟩ := written_message h
    exact ⟨m, hm, hev.id_eq⟩

theorem writeThreadedMail_messages {write : ThreadedMailWrite} {r : AcceptMessageResult}
    (h : writeThreadedMail s write = .ok (r, s')) :
    s.messages.Extends MessageRow.Evolves write.row.Evolves s'.messages := by
  obtain ⟨s₁, threadId, hins, hlink, -⟩ := writeThreadedMail_ok h
  obtain ⟨self, -, -, survivor, merged, -, -, rfl⟩ := linkThread_ok hlink
  have hinsert : s.messages.Extends MessageRow.Evolves (· = write.row) s₁.messages :=
    .append MessageRow.Evolves.refl (Table.insert?_rows hins.messages) (by simp)
  refine hinsert.trans (fun _ _ _ => .trans) (fun m m' hm hev => ?_) (fun _ => False.elim)
    (moveThreads_messages _ _ _)
  exact hm ▸ hev

/-- The rows a new message brings along. -/
theorem writeThreadedMail_rows {write : ThreadedMailWrite} {r : AcceptMessageResult}
    (h : writeThreadedMail s write = .ok (r, s')) :
    s'.references.rows = s.references.rows ++ newReferenceRows write.input.messageId
      (normalizeThreadingHeaders write.input.rfcMessageId write.input.inReplyToHeader
        write.input.referencesHeader).references ∧
    s'.participants.rows = s.participants.rows ++ newMessageParticipants write.input ∧
    s'.attachments.rows = s.attachments.rows ++ newAttachmentRows write.input.messageId
      write.input.nowIso write.input.attachments := by
  obtain ⟨s₁, threadId, hins, hlink, -⟩ := writeThreadedMail_ok h
  obtain ⟨self, -, -, survivor, merged, -, -, rfl⟩ := linkThread_ok hlink
  exact ⟨Table.insertAll?_rows hins.references, Table.insertAll?_rows hins.participants,
    Table.insertAll?_rows hins.attachments⟩

theorem newMessageParticipants_message_id {input : AcceptOutboundInput} {p : ParticipantRow}
    (h : p ∈ newMessageParticipants input) : p.message_id = input.messageId := by
  simp only [newMessageParticipants, newParticipantRows, List.mem_append, List.mem_map] at h
  rcases h with ((⟨_, -, rfl⟩ | ⟨_, -, rfl⟩) | ⟨_, -, rfl⟩) | ⟨_, -, rfl⟩ <;> rfl

/-- A store with a new message, and possibly new jobs and approvals of it. -/
theorem Store.Step.of_write {write : ThreadedMailWrite} {r : AcceptMessageResult} {s₁ : Store}
    (h : writeThreadedMail s write = .ok (r, s₁))
    (hmessages : s'.messages = s₁.messages) (hreferences : s'.references = s₁.references)
    (hparticipants : s'.participants = s₁.participants)
    (hattachments : s'.attachments = s₁.attachments)
    (hjobs : s.jobs.Extends OutboundJobRow.Move (NewJob s s') s'.jobs)
    (happrovals : s.approvals.Extends ApprovalRequestRow.Evolves
      (fun a => (∀ j ∈ s.jobs, j.id ≠ a.job_id) ∧ ∃ j ∈ s'.jobs, j.id = a.job_id)
      s'.approvals) : s.Step s' := by
  have hnew : NewMessage s s' write.input.messageId := by
    have hwrite := newMessage_of_write h
    rwa [NewMessage, ← hmessages] at hwrite
  obtain ⟨hrefs, hparts, hatts⟩ := writeThreadedMail_rows h
  have hmail : s.messages.Extends MessageRow.Evolves (fun _ => True) s₁.messages :=
    (writeThreadedMail_messages h).mono (fun _ _ hev => hev) fun _ _ => trivial
  -- every other new row belongs to the new message
  refine ⟨hmessages ▸ hmail, ?_, ?_, ?_, hjobs, happrovals⟩
  · refine .append (fun _ => rfl) (hreferences ▸ hrefs) fun r hr => ?_
    rwa [newReferenceRows_message_id hr]
  · refine .append (fun _ => rfl) (hparticipants ▸ hparts) fun p hp => ?_
    rwa [newMessageParticipants_message_id hp]
  · refine .append (fun _ => rfl) (hattachments ▸ hatts) fun a ha => ?_
    rwa [newAttachmentRows_message_id ha]

theorem Submitted.job_mem {input : SubmitOutboundInput} {ids : NewSubmissionIds}
    {identity : AccountSendingIdentity} {fromAddress : ExternalMailAddress}
    {needsApproval : Bool} (h : Submitted s input ids identity fromAddress needsApproval s') :
    newJobRow ids.jobId input input.requestId ids.messageId identity.id .message
      (if needsApproval then .waiting_approval else .ready) ∈ s'.jobs := by
  rw [← Table.mem_rows, h.jobs]
  exact List.mem_append_right _ List.mem_cons_self

theorem submitted_step {input : SubmitOutboundInput} {ids : NewSubmissionIds}
    {identity : AccountSendingIdentity} {fromAddress : ExternalMailAddress}
    {needsApproval : Bool} (h : Submitted s input ids identity fromAddress needsApproval s') :
    s.Step s' := by
  obtain ⟨r, s₁, hwrite, hs'⟩ := h.written
  have hmessages : s'.messages = s₁.messages := by rw [hs']
  obtain ⟨m, hm, hev⟩ := written_message hwrite
  rw [← hmessages] at hm
  refine .of_write hwrite hmessages (by rw [hs']) (by rw [hs']) (by rw [hs']) ?_ ?_
  · refine .append OutboundJobRow.Move.refl h.jobs ?_
    intro j hj
    -- the new jobs are for the new message
    have hjob : j.message_id = ids.messageId ∧ j.mailbox_id = identity.id := by
      cases needsApproval <;> simp at hj
      · rw [hj]
        exact ⟨rfl, rfl⟩
      · rcases hj with rfl | rfl <;> exact ⟨rfl, rfl⟩
    rw [NewJob, hjob.1, hjob.2]
    exact ⟨(newMessage_of_write hwrite).1, m, hm, hev.id_eq, hev.mailbox_eq⟩
  · refine .append ApprovalRequestRow.Evolves.refl h.approvals ?_
    intro a ha
    -- the new approval is for the new job
    have hjob : a.job_id = ids.jobId := by
      cases needsApproval <;> simp at ha
      rw [ha]
      rfl
    rw [hjob]
    refine ⟨fun j hj hid => ?_, ?_⟩
    · exact Table.not_clash_of_append h.jobs hj List.mem_cons_self (.inl hid)
    · exact ⟨_, h.job_mem, rfl⟩

/-! ### Every command is a step -/

theorem deleteLive_messages {N : MessageRow → Prop} (threadId : String) (scope : MailboxScope)
    (deletedAt : Instant) :
    s.messages.Extends MessageRow.Evolves N (deleteLive s threadId scope deletedAt).messages := by
  apply Table.Extends.update rfl MessageRow.Evolves.refl
  intro m _ hm
  refine ⟨rfl, ?_⟩
  intro t ht
  -- only live messages are deleted
  simp [liveInThread, MessageRow.liveIn, ht] at hm

/-- Completing an attempt moves the claimed job; a rejected notification also
    moves the jobs that have not been dispatched. -/
theorem recordOutcome_jobs {N : OutboundJobRow → Prop} {j : OutboundJobRow}
    {input : CompleteAttemptInput} (h : recordOutcome s j input = .ok s') :
    s.jobs.Extends OutboundJobRow.Move N s'.jobs := by
  have hsettle : s.jobs.Extends OutboundJobRow.Move N (settleAttempt s input).jobs :=
    Table.Extends.update rfl OutboundJobRow.Move.refl fun _ _ hk =>
      CompleteAttemptInput.settle_move hk
  rcases recordOutcome_ok h with ⟨_, _, -, hlink⟩ | ⟨failureDetail, -, -, rfl⟩ | rfl
  · obtain ⟨self, -, -, survivor, merged, -, -, rfl⟩ := linkThread_ok hlink
    exact hsettle
  · refine Table.Extends.update_update rfl rfl OutboundJobRow.Move.refl ?_ ?_
    · intro k _ hk
      refine ⟨CompleteAttemptInput.settle_move hk, ?_⟩
      have hsettled := input.settle_settled k
      cases hstate : (input.settle k).state <;>
        simp_all [OutboundJobState.settled, OutboundJobRow.rejectable, OutboundJobRow.undispatched]
    · intro k _ hk
      exact OutboundJobRow.reject_move _ _ (Bool.and_eq_true_iff.mp hk).2
  · exact hsettle

theorem recordOutcome_messages {N : MessageRow → Prop} {j : OutboundJobRow}
    {input : CompleteAttemptInput} (h : recordOutcome s j input = .ok s') :
    s.messages.Extends MessageRow.Evolves N s'.messages := by
  rcases recordOutcome_ok h with ⟨rfcMessageId, _, -, hlink⟩ |
    ⟨failureDetail, -, -, rfl⟩ | rfl
  · obtain ⟨self, -, -, survivor, merged, -, -, rfl⟩ := linkThread_ok hlink
    have hassign : s.messages.Extends MessageRow.Evolves (fun _ => False)
        (assignRfcMessageId (settleAttempt s input) j.message_id rfcMessageId
          input.nowIso).messages :=
      Table.Extends.update rfl MessageRow.Evolves.refl fun _ _ _ => ⟨rfl, fun _ h => h⟩
    exact hassign.trans (fun _ _ _ => .trans) (fun _ _ => False.elim) (fun _ => False.elim)
      (moveThreads_messages _ _ _)
  · exact .refl MessageRow.Evolves.refl _
  · exact .refl MessageRow.Evolves.refl _

theorem recordOutcome_frame {j : OutboundJobRow} {input : CompleteAttemptInput}
    (h : recordOutcome s j input = .ok s') : s'.references = s.references ∧
      s'.participants = s.participants ∧ s'.attachments = s.attachments := by
  rcases recordOutcome_ok h with ⟨rfcMessageId, _, -, hlink⟩ |
    ⟨failureDetail, -, -, rfl⟩ | rfl
  · obtain ⟨self, -, -, survivor, merged, -, -, rfl⟩ := linkThread_ok hlink
    exact ⟨rfl, rfl, rfl⟩
  · exact ⟨rfl, rfl, rfl⟩
  · exact ⟨rfl, rfl, rfl⟩

theorem recordOutcome_approvals {N : ApprovalRequestRow → Prop} {j : OutboundJobRow}
    {input : CompleteAttemptInput} (h : recordOutcome s j input = .ok s') :
    s.approvals.Extends ApprovalRequestRow.Evolves N s'.approvals := by
  rcases recordOutcome_ok h with ⟨rfcMessageId, _, -, hlink⟩ |
    ⟨failureDetail, -, -, rfl⟩ | rfl
  · obtain ⟨self, -, -, survivor, merged, -, -, rfl⟩ := linkThread_ok hlink
    exact .refl ApprovalRequestRow.Evolves.refl _
  · exact rejectUndispatched_approvals (s := settleAttempt s input) _ _ _
  · exact .refl ApprovalRequestRow.Evolves.refl _

/-- **Evolution.** Every command moves every row at most one step. -/
theorem Effect.step (h : Effect s s') : s.Step s' := by
  cases h with
  | peripheral hsame => exact hsame.later OutboundJobRow.Move.refl
  | submitted input ids identity fromAddress needsApproval hsub => exact submitted_step hsub
  | accepted_inbound input r receipts hwrite =>
    have hframe := writeThreadedMail_frame hwrite
    refine .of_write hwrite rfl rfl rfl rfl ?_ ?_
    · rw [hframe]
      exact .refl OutboundJobRow.Move.refl _
    · rw [hframe]
      exact .refl ApprovalRequestRow.Evolves.refl _
  | marked_read threadId isRead scope nowIso =>
    refine ⟨?_, .refl (fun _ => rfl) _, .refl (fun _ => rfl) _, .refl (fun _ => rfl) _,
      .refl OutboundJobRow.Move.refl _, .refl ApprovalRequestRow.Evolves.refl _⟩
    exact Table.Extends.update rfl MessageRow.Evolves.refl fun _ _ _ => ⟨rfl, fun _ h => h⟩
  | deleted threadId scope deletedAt =>
    exact ⟨deleteLive_messages threadId scope deletedAt, .refl (fun _ => rfl) _,
      .refl (fun _ => rfl) _, .refl (fun _ => rfl) _,
      rejectUndispatched_jobs _ { failureClass := .cancelled, failureDetail := none } deletedAt,
      rejectUndispatched_approvals _ { failureClass := .cancelled, failureDetail := none }
        deletedAt⟩
  | approved a j nowIso =>
    refine .of_jobs rfl rfl rfl rfl ?_ (resolveApproval_approvals _ _ _)
    apply Table.Extends.update rfl OutboundJobRow.Move.refl
    intro k _ hk
    -- the update is guarded by the state, so only this move is left
    have hwaiting : k.state = .waiting_approval := by
      simpa using (Bool.and_eq_true_iff.mp hk).2
    exact ⟨rfl, .inr (hwaiting ▸ .ready), .inl rfl⟩
  | denied a j nowIso =>
    exact .of_jobs rfl rfl rfl rfl (rejectUndispatched_jobs _ _ _)
      (rejectUndispatched_after (resolveApproval_approvals _ _ _) _ _ _)
  | rejected messageIds failure nowIso =>
    exact .of_jobs rfl rfl rfl rfl (rejectUndispatched_jobs _ _ _)
      (rejectUndispatched_approvals _ _ _)
  | expired nowIso =>
    exact .of_jobs rfl rfl rfl rfl (rejectUndispatched_jobs _ _ _)
      (rejectUndispatched_after (expireApprovals_approvals nowIso) _ _ _)
  | claimed j input =>
    refine .of_jobs rfl rfl rfl rfl ?_ (.refl ApprovalRequestRow.Evolves.refl _)
    apply Table.Extends.update rfl OutboundJobRow.Move.refl
    intro k _ hk
    have hready : k.state = .ready := by simpa using (Bool.and_eq_true_iff.mp hk).2
    exact ⟨rfl, .inr (hready ▸ .in_flight), .inr ⟨hready, rfl⟩⟩
  | completed j input _ _ _ _ hrecord =>
    obtain ⟨hreferences, hparticipants, hattachments⟩ := recordOutcome_frame hrecord
    refine ⟨recordOutcome_messages hrecord, ?_, ?_, ?_, recordOutcome_jobs hrecord,
      recordOutcome_approvals hrecord⟩
    · rw [hreferences]
      exact .refl (fun _ => rfl) _
    · rw [hparticipants]
      exact .refl (fun _ => rfl) _
    · rw [hattachments]
      exact .refl (fun _ => rfl) _
  | settled nowIso =>
    refine .of_jobs rfl rfl rfl rfl ?_ (.refl ApprovalRequestRow.Evolves.refl _)
    apply Table.Extends.update rfl OutboundJobRow.Move.refl
    intro k _ hk
    have hflight : k.state = .in_flight := by simpa using (Bool.and_eq_true_iff.mp hk).1
    exact ⟨rfl, .inr (hflight ▸ .settled rfl), .inl rfl⟩

theorem exec_step (s : Store) (c : Command) : s.Step (s.exec c) := (exec_effect s c).step

theorem run_evolves {cs : List Command} (h : accountStore.Run s cs s') : s.Evolves s' := by
  apply h.relates Store.Evolves.refl (fun _ _ _ => .trans)
  intro s c s' hstep
  obtain rfl := Option.some.inj hstep
  exact (exec_step s c).evolves

end steps

/-! ### Referential integrity -/

/-- The foreign keys to messages and to jobs; a job has the mailbox of its message. -/
structure Store.Referential (s : Store) : Prop where
  references : ∀ r ∈ s.references, ∃ m ∈ s.messages, m.id = r.message_id
  participants : ∀ p ∈ s.participants, ∃ m ∈ s.messages, m.id = p.message_id
  attachments : ∀ a ∈ s.attachments, ∃ m ∈ s.messages, m.id = a.message_id
  jobs : ∀ j ∈ s.jobs, ∃ m ∈ s.messages, m.id = j.message_id ∧ m.mailbox_id = j.mailbox_id
  approvals : ∀ a ∈ s.approvals, ∃ j ∈ s.jobs, j.id = a.job_id

theorem Store.Referential.empty : Store.empty.Referential := by
  constructor <;> exact fun _ h => absurd h Table.mem_empty

section referential
variable {s s' : Store}

theorem Store.Evolves.message (h : s.Evolves s') {id : String}
    (hid : ∃ m ∈ s.messages, m.id = id) : ∃ m ∈ s'.messages, m.id = id := by
  obtain ⟨m, hm, rfl⟩ := hid
  obtain ⟨m', hm', hev⟩ := h.messages.exists_mem hm
  exact ⟨m', hm', hev.id_eq⟩

theorem Store.Evolves.job (h : s.Evolves s') {id : String}
    (hid : ∃ j ∈ s.jobs, j.id = id) : ∃ j ∈ s'.jobs, j.id = id := by
  obtain ⟨j, hj, rfl⟩ := hid
  obtain ⟨j', hj', hev⟩ := h.jobs.exists_mem hj
  exact ⟨j', hj', congrArg Prod.fst hev.key_eq⟩

theorem Store.Referential.evolves (hs : s.Referential) (h : s.Evolves s') :
    s'.Referential where
  references := by
    intro r hr
    -- an old row points to an old message, which is kept
    rcases h.references.mem_cases hr with ⟨r, hold, rfl⟩ | hnew
    · exact h.message (hs.references r hold)
    · exact hnew.2
  participants := by
    intro p hp
    rcases h.participants.mem_cases hp with ⟨p, hold, rfl⟩ | hnew
    · exact h.message (hs.participants p hold)
    · exact hnew.2
  attachments := by
    intro a ha
    rcases h.attachments.mem_cases ha with ⟨a, hold, rfl⟩ | hnew
    · exact h.message (hs.attachments a hold)
    · exact hnew.2
  jobs := by
    intro j' hj'
    rcases h.jobs.mem_cases hj' with ⟨j, hold, hev⟩ | hnew
    · -- a job keeps its message and its mailbox, and so does the message
      obtain ⟨m, hm, hid, hmailbox⟩ := hs.jobs j hold
      obtain ⟨m', hm', hmev⟩ := h.messages.exists_mem hm
      rw [hev.sameRequest]
      exact ⟨m', hm', hmev.id_eq.trans hid, hmev.mailbox_eq.trans hmailbox⟩
    · exact hnew.2
  approvals := by
    intro a' ha'
    rcases h.approvals.mem_cases ha' with ⟨a, hold, hev⟩ | hnew
    · rw [hev.columns]
      exact h.job (hs.approvals a hold)
    · exact hnew.2

theorem Store.Reachable.referential (h : s.Reachable) : s.Referential := by
  obtain ⟨s₀, cs, rfl, hrun⟩ := h.exists_run
  exact Store.Referential.empty.evolves (run_evolves hrun)

end referential

end Umail
