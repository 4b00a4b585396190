import Umail.Account.Evolution

/-! # What a message says

  The part of a stored message that no command changes: its mailbox, its
  texts, its participants and its threading headers. Whatever reads a message
  later, the review page or the dispatch, reads this content; and the content
  of a submitted message is the one the submit was called with.
-/

namespace Umail

open Relational

/-! ### Reference rows -/

/-- The indices of `zipIdx` increase. -/
theorem zipIdx_pairwise_lt {α : Type} (xs : List α) : xs.zipIdx.Pairwise fun a b =>
    a.2 < b.2 := by
  have hpositions : (xs.zipIdx.map Prod.snd).Pairwise (· < ·) := by
    rw [List.zipIdx_map_snd]
    exact List.pairwise_lt_range'
  exact List.pairwise_map.mp hpositions

/-- The references of a message have different positions. -/
theorem newReferenceRows_positions (messageId : String) (ids : List NormalizedRfcMessageId) :
    (newReferenceRows messageId ids).Pairwise fun a b => a.position < b.position :=
  List.pairwise_map.mpr (zipIdx_pairwise_lt ids)

/-- References are read back in the order in which they were written. -/
theorem newReferenceRows_sorted (messageId : String) (ids : List NormalizedRfcMessageId) :
    (newReferenceRows messageId ids).Pairwise fun a b => a.position ≤ b.position :=
  (newReferenceRows_positions messageId ids).imp fun h => Nat.le_of_lt h

theorem newReferenceRows_ids (messageId : String) (ids : List NormalizedRfcMessageId) :
    (newReferenceRows messageId ids).map (·.rfc_message_id) = ids := by
  unfold newReferenceRows
  rw [List.map_map]
  exact (List.map_congr_left fun _ _ => rfl).trans (List.zipIdx_map_fst 0 ids)

variable [Unicode]

/-! ### Contents -/

/-- The lasting part of a message. -/
structure MailContent where
  mailboxId : String
  direction : MessageDirection
  subject : Option String
  textBody : Option String
  htmlBody : Option String
  participants : StoredParticipants
  inReplyTo : Option NormalizedRfcMessageId
  references : List NormalizedRfcMessageId

/-- The content of a message row. -/
def MessageRow.content (m : MessageRow) (s : Store) : MailContent where
  mailboxId := m.mailbox_id
  direction := m.direction
  subject := m.subject
  textBody := m.text_body
  htmlBody := m.html_body
  participants := loadParticipants s m.id
  inReplyTo := m.in_reply_to_rfc_message_id
  references := loadReferences s m.id

/-- The content of the message with this id. -/
def storedContent (s : Store) (messageId : String) : Option MailContent :=
  (s.messages.find? (·.id = messageId)).map (·.content s)

variable {s s' : Store}

theorem storedContent_of_mem {m : MessageRow} (hm : m ∈ s.messages) :
    storedContent s m.id = some (m.content s) := by
  rw [storedContent, find_message hm]
  rfl

theorem storedContent_some {messageId : String} {c : MailContent}
    (h : storedContent s messageId = some c) :
    ∃ m ∈ s.messages, m.id = messageId ∧ c = m.content s := by
  obtain ⟨m, hfind, hc⟩ := Option.map_eq_some_iff.mp h
  exact ⟨m, Table.find?_mem hfind, by simpa using Table.find?_prop hfind, hc.symm⟩

/-! ### The content is frozen -/

/-- The participants of a message that exists are final. -/
theorem Store.Evolves.loadContacts_eq (h : s.Evolves s') {m : MessageRow} (hm : m ∈ s.messages)
    (role : ParticipantRole) : loadContacts s' m.id role = loadContacts s m.id role := by
  unfold loadContacts
  rw [h.participants.select_eq fun p hnew => ?_]
  -- a new participant belongs to a new message
  have hne : p.message_id ≠ m.id := fun hid => hnew.1 m hm hid.symm
  simp [hne]

theorem Store.Evolves.loadParticipants_eq (h : s.Evolves s') {m : MessageRow}
    (hm : m ∈ s.messages) : loadParticipants s' m.id = loadParticipants s m.id := by
  simp only [loadParticipants, h.loadContacts_eq hm]

theorem Store.Evolves.storedRecipients_eq (h : s.Evolves s') {m : MessageRow}
    (hm : m ∈ s.messages) : storedRecipients s' m.id = storedRecipients s m.id := by
  unfold storedRecipients
  rw [h.loadParticipants_eq hm]

/-- The references of a message that exists are final. -/
theorem Store.Evolves.loadReferences_eq (h : s.Evolves s') {m : MessageRow}
    (hm : m ∈ s.messages) : loadReferences s' m.id = loadReferences s m.id := by
  unfold loadReferences
  rw [h.references.select_eq fun r hnew => ?_]
  have hne : r.message_id ≠ m.id := fun hid => hnew.1 m hm hid.symm
  simp [hne]

/-- **Frame.** The content of a message never changes. -/
theorem Store.Evolves.content_eq (h : s.Evolves s') {messageId : String} {c : MailContent}
    (hc : storedContent s messageId = some c) : storedContent s' messageId = some c := by
  obtain ⟨m, hm, rfl, rfl⟩ := storedContent_some hc
  obtain ⟨m', hm', hev⟩ := h.messages.exists_mem hm
  rw [← hev.id_eq, storedContent_of_mem hm', MessageRow.content, MessageRow.content, hev.id_eq,
    h.loadParticipants_eq hm, h.loadReferences_eq hm, hev.columns]

/-! ### The content of a new message -/

/-- The contacts of one role have different positions. -/
theorem newParticipantRows_positions (messageId : String) (role : ParticipantRole)
    (contacts : List AccountMailContact) :
    (newParticipantRows messageId role contacts).Pairwise fun a b => a.position < b.position :=
  List.pairwise_map.mpr (zipIdx_pairwise_lt contacts)

/-- Contacts are read back in the order in which they were written. -/
theorem newParticipantRows_sorted (messageId : String) (role : ParticipantRole)
    (contacts : List AccountMailContact) :
    (newParticipantRows messageId role contacts).Pairwise fun a b => a.position ≤ b.position :=
  (newParticipantRows_positions messageId role contacts).imp fun h => Nat.le_of_lt h

theorem newParticipantRows_contacts (messageId : String) (role : ParticipantRole)
    (contacts : List AccountMailContact) :
    ((newParticipantRows messageId role contacts).map fun p =>
      ({ address := p.address, displayName := p.display_name } : AccountMailContact)) =
        contacts := by
  unfold newParticipantRows
  rw [List.map_map]
  exact (List.map_congr_left fun _ _ => rfl).trans (List.zipIdx_map_fst 0 contacts)

/-- The rows of one role among the rows of a new message. -/
theorem filter_newParticipantRows (messageId : String) (role role' : ParticipantRole)
    (contacts : List AccountMailContact) :
    (newParticipantRows messageId role contacts).filter
      (fun p => p.message_id = messageId && p.role = role') =
        if role = role' then newParticipantRows messageId role contacts else [] := by
  split
  · next h =>
    apply List.filter_eq_self.mpr
    intro p hp
    obtain ⟨_, -, rfl⟩ := List.mem_map.mp hp
    simpa using h
  · next h =>
    apply List.filter_eq_nil_iff.mpr
    intro p hp
    obtain ⟨_, -, rfl⟩ := List.mem_map.mp hp
    simpa using h

/-- The contacts an input writes for a role. -/
def AcceptOutboundInput.contacts (input : AcceptOutboundInput) :
    ParticipantRole → List AccountMailContact
  | .from => input.from
  | .reply_to => input.replyTo
  | .to => input.to
  | .cc => input.cc

theorem filter_newMessageParticipants (input : AcceptOutboundInput) (role : ParticipantRole) :
    (newMessageParticipants input).filter
      (fun p => p.message_id = input.messageId && p.role = role) =
        newParticipantRows input.messageId role (input.contacts role) := by
  unfold newMessageParticipants
  simp only [List.filter_append, filter_newParticipantRows]
  cases role <;> simp [AcceptOutboundInput.contacts]

section written
variable {write : ThreadedMailWrite} {r : AcceptMessageResult}

theorem loadContacts_written (href : s.Referential)
    (h : writeThreadedMail s write = .ok (r, s')) (role : ParticipantRole) :
    loadContacts s' write.input.messageId role = write.input.contacts role := by
  obtain ⟨-, hrows, -⟩ := writeThreadedMail_rows h
  -- no stored participant belongs to the new message
  have hold : s.participants.rows.filter
      (fun p => p.message_id = write.input.messageId && p.role = role) = [] := by
    apply List.filter_eq_nil_iff.mpr
    intro p hp
    obtain ⟨m, hm, hid⟩ := href.participants p hp
    have hne : p.message_id ≠ write.input.messageId := fun heq =>
      (newMessage_of_write h).1 m hm (hid.trans heq)
    simp [hne]
  rw [loadContacts, Table.select, hrows, List.filter_append, hold, List.nil_append,
    filter_newMessageParticipants, (newParticipantRows_sorted _ _ _).insertionSort_eq,
    newParticipantRows_contacts]

theorem loadReferences_written (href : s.Referential)
    (h : writeThreadedMail s write = .ok (r, s')) :
    loadReferences s' write.input.messageId =
      (normalizeThreadingHeaders write.input.rfcMessageId write.input.inReplyToHeader
        write.input.referencesHeader).references := by
  obtain ⟨hrows, -, -⟩ := writeThreadedMail_rows h
  have hold : s.references.rows.filter (·.message_id = write.input.messageId) = [] := by
    apply List.filter_eq_nil_iff.mpr
    intro p hp
    obtain ⟨m, hm, hid⟩ := href.references p hp
    have hne : p.message_id ≠ write.input.messageId := fun heq =>
      (newMessage_of_write h).1 m hm (hid.trans heq)
    simp [hne]
  have hnew : ∀ ids, (newReferenceRows write.input.messageId ids).filter
      (·.message_id = write.input.messageId) = newReferenceRows write.input.messageId ids :=
    fun ids => List.filter_eq_self.mpr fun p hp => by simp [newReferenceRows_message_id hp]
  rw [loadReferences, Table.select, hrows, List.filter_append, hold, List.nil_append, hnew,
    (newReferenceRows_sorted _ _).insertionSort_eq, newReferenceRows_ids]

/-- The content a write stores. -/
def ThreadedMailWrite.content (write : ThreadedMailWrite) : MailContent :=
  let headers := normalizeThreadingHeaders write.input.rfcMessageId write.input.inReplyToHeader
    write.input.referencesHeader
  { mailboxId := write.input.mailboxId
    direction := write.direction
    subject := write.input.subject
    textBody := write.input.textBody
    htmlBody := write.input.htmlBody
    participants := {
      «from» := write.input.from
      replyTo := write.input.replyTo
      «to» := write.input.to
      cc := write.input.cc }
    inReplyTo := headers.inReplyTo
    references := headers.references }

/-- A written message says what it was written with. -/
theorem storedContent_written (href : s.Referential)
    (h : writeThreadedMail s write = .ok (r, s')) :
    storedContent s' write.input.messageId = some write.content := by
  obtain ⟨m, hm, hev⟩ := written_message h
  have hid : m.id = write.input.messageId := hev.id_eq
  rw [← hid, storedContent_of_mem hm, MessageRow.content, hid, loadParticipants,
    loadReferences_written href h]
  simp only [loadContacts_written href h]
  rw [hev.columns]
  rfl

end written

/-- A submitted message says what it was submitted with. -/
theorem Submitted.content {input : SubmitOutboundInput} {ids : NewSubmissionIds}
    {identity : AccountSendingIdentity} {fromAddress : ExternalMailAddress}
    {needsApproval : Bool} (href : s.Referential)
    (h : Submitted s input ids identity fromAddress needsApproval s') :
    storedContent s' ids.messageId =
      some (ThreadedMailWrite.outbound
        (submittedMail input ids identity fromAddress)).content := by
  obtain ⟨r, s₁, hwrite, hs'⟩ := h.written
  have hcontent := storedContent_written href hwrite
  rw [hs']
  exact hcontent

/-- It goes to the recipients that it was authorized for. -/
theorem Submitted.recipients {input : SubmitOutboundInput} {ids : NewSubmissionIds}
    {identity : AccountSendingIdentity} {fromAddress : ExternalMailAddress}
    {needsApproval : Bool} (href : s.Referential)
    (h : Submitted s input ids identity fromAddress needsApproval s') :
    storedRecipients s' ids.messageId = submitRecipients input := by
  obtain ⟨m, -, hid, hcontent⟩ := storedContent_some (h.content href)
  have hparticipants := congrArg MailContent.participants hcontent
  unfold storedRecipients
  rw [← hid]
  show (m.content s').participants.to ++ (m.content s').participants.cc = _
  rw [← hparticipants]
  rfl

end Umail
