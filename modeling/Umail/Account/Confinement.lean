import Mathlib.Data.Prod.Lex
import Umail.Account.Integrity

/-! # What a scoped reader sees

  A summary is read from the live message in scope alone, with one exception
  by design: `parentMessageId` is an opaque id that may point at a message
  the reader cannot open. It names the message of the conversation that is
  replied to and carries none of its content. Two stores that agree on what is
  live and in scope give the same pages up to these ids.
-/

namespace Umail

open Relational Components

/-! ### The order of activity -/

theorem oldestFirst_iff (a b : MessageRow) :
    oldestFirst a b ↔ toLex (a.occurred_at, a.id) ≤ toLex (b.occurred_at, b.id) := by
  rw [Prod.Lex.toLex_le_toLex]
  rfl

theorem newestFirst_iff (a b : MessageRow) : newestFirst a b ↔
    OrderDual.toDual (toLex (a.occurred_at, a.id)) ≤
      OrderDual.toDual (toLex (b.occurred_at, b.id)) := by
  rw [OrderDual.toDual_le_toDual, ← oldestFirst_iff]
  rfl

instance : Std.Total oldestFirst := Table.total_of_key oldestFirst_iff
instance : IsTrans MessageRow oldestFirst := Table.trans_of_key oldestFirst_iff
instance : Std.Total newestFirst := Table.total_of_key newestFirst_iff
instance : IsTrans MessageRow newestFirst := Table.trans_of_key newestFirst_iff

theorem oldestFirst_id {a b : MessageRow} (hab : oldestFirst a b) (hba : oldestFirst b a) :
    a.id = b.id :=
  congrArg (fun k => (ofLex k).2) (Table.key_eq_of_key oldestFirst_iff hab hba)

section views
variable [Unicode] {s s' : Store} {scope : MailboxScope}

/-! ### Views -/

/-- Two stores agree on what is live and in scope: the messages with their
    thread ids, and what belongs to them. -/
structure SameView (scope : MailboxScope) (s s' : Store) : Prop where
  messages : ∀ m : MessageRow, m.liveIn scope = true → (m ∈ s.messages ↔ m ∈ s'.messages)
  participants : ∀ m ∈ s.messages, m.liveIn scope = true →
    ∀ p : ParticipantRow, p.message_id = m.id → (p ∈ s.participants ↔ p ∈ s'.participants)
  references : ∀ m ∈ s.messages, m.liveIn scope = true →
    ∀ r : ReferenceRow, r.message_id = m.id → (r ∈ s.references ↔ r ∈ s'.references)
  attachments : ∀ m ∈ s.messages, m.liveIn scope = true →
    ∀ a : AttachmentRow, a.message_id = m.id → (a ∈ s.attachments ↔ a ∈ s'.attachments)
  jobs : ∀ m ∈ s.messages, m.liveIn scope = true →
    ∀ j : OutboundJobRow, j.message_id = m.id → (j ∈ s.jobs ↔ j ∈ s'.jobs)
  receipts : ∀ m ∈ s.messages, m.liveIn scope = true →
    ∀ r : InboundReceiptRow, r.id = m.id → (r ∈ s.receipts ↔ r ∈ s'.receipts)

/-- A summary without the opaque id of its parent. -/
def MessageSummary.withoutParent (summary : MessageSummary) : MessageSummary :=
  { summary with parentMessageId := none }

def MessageSummaryPage.withoutParents (page : MessageSummaryPage) : MessageSummaryPage :=
  { page with items := page.items.map (·.withoutParent) }

def ThreadMessageSummaryPage.withoutParents (page : ThreadMessageSummaryPage) :
    ThreadMessageSummaryPage :=
  { page with items := page.items.map (·.withoutParent) }

/-! ### What belongs to a message -/

variable {m : MessageRow}

/-- The contacts of a message are read from its own rows alone. -/
theorem loadContacts_congr {messageId : String} (h : ∀ p : ParticipantRow,
      p.message_id = messageId → (p ∈ s.participants ↔ p ∈ s'.participants))
    (role : ParticipantRole) : loadContacts s messageId role = loadContacts s' messageId role := by
  unfold loadContacts
  rw [Table.select_sorted_eq_of_key (·.position) (fun _ => Or.inl rfl) (u := s'.participants)]
  · intro p hp
    simp only [Bool.and_eq_true, decide_eq_true_eq] at hp
    exact h p hp.1
  · intro a ha b hb hpa hpb hposition
    simp only [Bool.and_eq_true, decide_eq_true_eq] at hpa hpb
    refine s.participants.eq_of_clash ha hb (.inr ?_)
    show (a.message_id, a.role, a.position) = (b.message_id, b.role, b.position)
    rw [hpa.1, hpb.1, hpa.2, hpb.2, hposition]

theorem SameView.loadContacts_eq (h : SameView scope s s') (hm : m ∈ s.messages)
    (hlive : m.liveIn scope = true) (role : ParticipantRole) :
    loadContacts s m.id role = loadContacts s' m.id role :=
  loadContacts_congr (h.participants m hm hlive) role

theorem SameView.loadReferences_eq (h : SameView scope s s') (hm : m ∈ s.messages)
    (hlive : m.liveIn scope = true) : loadReferences s m.id = loadReferences s' m.id := by
  unfold loadReferences
  rw [Table.select_sorted_eq_of_key (·.position) (fun _ => rfl) (u := s'.references)]
  · intro r hr
    exact h.references m hm hlive r (of_decide_eq_true hr)
  · intro a ha b hb hpa hpb hposition
    refine s.references.eq_of_clash ha hb ?_
    show (a.message_id, a.position) = (b.message_id, b.position)
    rw [of_decide_eq_true hpa, of_decide_eq_true hpb, hposition]

theorem SameView.loadAttachments_eq (h : SameView scope s s') (hm : m ∈ s.messages)
    (hlive : m.liveIn scope = true) : loadAttachments s m.id = loadAttachments s' m.id := by
  unfold loadAttachments
  rw [Table.select_sorted_eq_of_key (·.position) (fun _ => Or.inl rfl) (u := s'.attachments)]
  · intro a ha
    exact h.attachments m hm hlive a (of_decide_eq_true ha)
  · intro a ha b hb hpa hpb hposition
    refine s.attachments.eq_of_clash ha hb (.inr (.inr ?_))
    show (a.message_id, a.position) = (b.message_id, b.position)
    rw [of_decide_eq_true hpa, of_decide_eq_true hpb, hposition]

/-- A message has at most one message job, so the last one is the only one. -/
theorem SameView.loadOutboundJob_eq (h : SameView scope s s') (hr : s.Reachable)
    (hm : m ∈ s.messages) (hlive : m.liveIn scope = true) :
    loadOutboundJob s m.id = loadOutboundJob s' m.id := by
  have hagree : ∀ j : OutboundJobRow, (j.message_id = m.id && j.purpose = .message) = true →
      (j ∈ s.jobs ↔ j ∈ s'.jobs) := by
    intro j hj
    simp only [Bool.and_eq_true, decide_eq_true_eq] at hj
    exact h.jobs m hm hlive j hj.1
  -- a message has one job, so the two selections agree as lists
  have hselect : (s.jobs.select fun j => j.message_id = m.id && j.purpose = .message) =
      s'.jobs.select fun j => j.message_id = m.id && j.purpose = .message := by
    refine (Table.select_perm (fun _ => Or.inl rfl) hagree).eq_of_pairwise ?_
      (List.pairwise_of_forall (R := fun _ _ => True) fun _ _ => trivial)
      (List.pairwise_of_forall fun _ _ => trivial)
    intro a b ha hb _ _
    obtain ⟨ha, hpa⟩ := Table.mem_select.mp ha
    obtain ⟨hb, hpb⟩ := Table.mem_select.mp hb
    have hb := (hagree b hpb).mpr hb
    simp only [Bool.and_eq_true, decide_eq_true_eq] at hpa hpb
    refine s.jobs.eq_of_clash ha hb (.inl ?_)
    exact hr.coupled.message_job a ha b hb hpa.2 hpb.2 (hpa.1.trans hpb.1.symm)
  unfold loadOutboundJob
  rw [hselect]

theorem SameView.receipt_eq (h : SameView scope s s') (hm : m ∈ s.messages)
    (hlive : m.liveIn scope = true) :
    readInboundReceipt s m.id = readInboundReceipt s' m.id := by
  apply Option.ext
  intro r
  constructor
  · intro hread
    obtain ⟨hr, hid⟩ := readInboundReceipt_some hread
    rw [← hid]
    exact readInboundReceipt_mem ((h.receipts m hm hlive r hid).mp hr)
  · intro hread
    obtain ⟨hr, hid⟩ := readInboundReceipt_some hread
    rw [← hid]
    exact readInboundReceipt_mem ((h.receipts m hm hlive r hid).mpr hr)

/-! ### Summaries -/

theorem SameView.summaryDirection_eq (h : SameView scope s s') (hr : s.Reachable)
    (hm : m ∈ s.messages) (hlive : m.liveIn scope = true) :
    summaryDirection s m = summaryDirection s' m := by
  unfold summaryDirection
  rw [h.loadOutboundJob_eq hr hm hlive]
  rw [show s.receipts.find? (·.id = m.id) = s'.receipts.find? (·.id = m.id) from
    h.receipt_eq hm hlive]

/-- The summary of a message depends on what is live and in scope, except for
    the id of its parent. -/
theorem SameView.enrichMessageSummary_eq (h : SameView scope s s') (hr : s.Reachable)
    (hm : m ∈ s.messages) (hlive : m.liveIn scope = true) :
    (enrichMessageSummary s m).map (·.withoutParent) =
      (enrichMessageSummary s' m).map (·.withoutParent) := by
  unfold enrichMessageSummary
  rw [h.summaryDirection_eq hr hm hlive]
  cases summaryDirection s' m with
  | error e => rfl
  | ok direction =>
    simp only [loadParticipants, h.loadContacts_eq hm hlive, h.loadReferences_eq hm hlive,
      h.loadAttachments_eq hm hlive]
    rfl

omit [Unicode] in
/-- Reading one row after the other, and changing what was read. -/
theorem mapM_map {α β γ : Type} (f : α → Except StoreError β) (g : β → γ)
    (xs : List α) :
    (xs.mapM f).map (List.map g) = xs.mapM fun x => (f x).map g := by
  induction xs with
  | nil => rfl
  | cons x xs ih =>
    rw [List.mapM_cons, List.mapM_cons, ← ih]
    cases f x with
    | error e => rfl
    | ok b => cases xs.mapM f <;> rfl

omit [Unicode] in
theorem mapM_congr {α β : Type} {f f' : α → Except StoreError β} {xs : List α}
    (h : ∀ x ∈ xs, f x = f' x) : xs.mapM f = xs.mapM f' := by
  induction xs with
  | nil => rfl
  | cons x xs ih =>
    rw [List.mapM_cons, List.mapM_cons, h x List.mem_cons_self,
      ih fun y hy => h y (List.mem_cons_of_mem _ hy)]

theorem SameView.enrichMessageSummaries_eq (h : SameView scope s s') (hr : s.Reachable)
    {rows : List MessageRow} (hrows : ∀ m ∈ rows, m ∈ s.messages ∧ m.liveIn scope = true) :
    (enrichMessageSummaries s rows).map (List.map (·.withoutParent)) =
      (enrichMessageSummaries s' rows).map (List.map (·.withoutParent)) := by
  unfold enrichMessageSummaries
  rw [mapM_map, mapM_map]
  exact mapM_congr fun m hm => h.enrichMessageSummary_eq hr (hrows m hm).1 (hrows m hm).2

/-! ### Pages -/

omit [Unicode] in
theorem ListMessageSummariesQuery.matches_live {query : ListMessageSummariesQuery}
    (h : query.matches m = true) : m.liveIn query.mailboxScope = true := by
  simp only [ListMessageSummariesQuery.matches, Bool.and_eq_true] at h
  exact h.1.1.1.1.1

omit [Unicode] in
theorem ListThreadMessageSummariesQuery.matches_live {query : ListThreadMessageSummariesQuery}
    {threadId : String} (h : query.matches threadId m = true) :
    m.liveIn query.mailboxScope = true := by
  simp only [ListThreadMessageSummariesQuery.matches, Bool.and_eq_true] at h
  exact h.1.2

theorem SameView.selectMessageSummaryRows_eq {query : ListMessageSummariesQuery}
    (h : SameView query.mailboxScope s s') (limit : Nat) :
    selectMessageSummaryRows s query limit = selectMessageSummaryRows s' query limit := by
  unfold selectMessageSummaryRows
  rw [Table.select_sorted_eq (fun _ => rfl) (u := s'.messages)]
  · exact fun m hm => h.messages m (ListMessageSummariesQuery.matches_live hm)
  · intro a ha b hb _ _ hab hba
    have hid : b.id = a.id := oldestFirst_id hab hba
    exact s.messages.eq_of_clash ha hb hid.symm

theorem SameView.selectThreadMessages_eq {query : ListThreadMessageSummariesQuery}
    (h : SameView query.mailboxScope s s') (threadId : String) (limit : Nat) :
    selectThreadMessages s threadId query limit = selectThreadMessages s' threadId query limit := by
  unfold selectThreadMessages
  rw [Table.select_sorted_eq (fun _ => rfl) (u := s'.messages)]
  · exact fun m hm => h.messages m (ListThreadMessageSummariesQuery.matches_live hm)
  · exact fun a ha b hb _ _ hab hba => s.messages.eq_of_clash ha hb (oldestFirst_id hab hba)

omit [Unicode] in
/-- Pages whose items agree once the parents are erased agree in the same way. -/
theorem page_eq {α β : Type} {items items' : Except StoreError α} {hide : α → α}
    {f : α → β}
    {hidePage : β → β} (hpage : ∀ a, hidePage (f a) = f (hide a))
    (h : items.map hide = items'.map hide) :
    (items.map f).map hidePage = (items'.map f).map hidePage := by
  have hmap : ∀ x : Except StoreError α, (x.map f).map hidePage = (x.map hide).map f := by
    intro x
    cases x with
    | error e => rfl
    | ok a => exact congrArg Except.ok (hpage a)
  rw [hmap, hmap, h]

theorem SameView.listMessageSummaries_eq {query : ListMessageSummariesQuery}
    (h : SameView query.mailboxScope s s') (hr : s.Reachable) :
    (listMessageSummaries s query).map (·.withoutParents) =
      (listMessageSummaries s' query).map (·.withoutParents) := by
  unfold listMessageSummaries
  split
  · rfl
  split
  · rfl
  simp only [← h.selectMessageSummaryRows_eq]
  refine page_eq (fun _ => rfl) (h.enrichMessageSummaries_eq hr fun m hm => ?_)
  exact ⟨(mem_page hm).1, ListMessageSummariesQuery.matches_live (mem_page hm).2⟩

theorem SameView.listThreadMessageSummaries_eq {query : ListThreadMessageSummariesQuery}
    {handle : String} (h : SameView query.mailboxScope s s') (hr : s.Reachable)
    (hresolve : resolveThread s handle query.mailboxScope =
      resolveThread s' handle query.mailboxScope) :
    (listThreadMessageSummaries s handle query).map (·.withoutParents) =
      (listThreadMessageSummaries s' handle query).map (·.withoutParents) := by
  unfold listThreadMessageSummaries
  rw [← hresolve]
  cases resolveThread s handle query.mailboxScope with
  | error e => rfl
  | ok threadId =>
    simp only [← h.selectThreadMessages_eq]
    refine page_eq (f := fun items => ThreadMessageSummaryPage.mk threadId items _)
      (fun _ => rfl) (h.enrichMessageSummaries_eq hr fun m hm => ?_)
    exact ⟨(mem_page hm).1, ListThreadMessageSummariesQuery.matches_live (mem_page hm).2⟩

/-- A message that is not live and in scope is not shown. -/
theorem getMessageSummary_hidden {messageId : String}
    (h : ∀ m ∈ s.messages, m.id = messageId → m.liveIn scope = false) :
    getMessageSummary s messageId scope = .ok none := by
  unfold getMessageSummary
  split
  · rfl
  · next m hfind =>
    have hsel := Table.find?_prop hfind
    simp only [Bool.and_eq_true, decide_eq_true_eq] at hsel
    have hhidden := h m (Table.find?_mem hfind) hsel.1
    simp only [MessageRow.liveIn, hsel.2, Bool.true_and] at hhidden
    simp [hhidden]

theorem SameView.getMessageSummary_eq (h : SameView scope s s') (hr : s.Reachable)
    (messageId : String) :
    (getMessageSummary s messageId scope).map (Option.map (·.withoutParent)) =
      (getMessageSummary s' messageId scope).map (Option.map (·.withoutParent)) := by
  by_cases hshown : ∃ m ∈ s.messages, m.id = messageId ∧ m.liveIn scope = true
  · obtain ⟨m, hm, rfl, hlive⟩ := hshown
    rw [getMessageSummary_live hm hlive, getMessageSummary_live ((h.messages m hlive).mp hm) hlive]
    exact page_eq (fun _ => rfl) (h.enrichMessageSummary_eq hr hm hlive)
  · have hhidden : ∀ u : Store, (∀ m : MessageRow, m.liveIn scope = true →
        m ∈ u.messages → m ∈ s.messages) → getMessageSummary u messageId scope =
          .ok none := by
      intro u hu
      refine getMessageSummary_hidden fun m hm hid => ?_
      by_contra hlive
      have hlive : m.liveIn scope = true := by simpa using hlive
      exact hshown ⟨m, hu m hlive hm, hid, hlive⟩
    rw [hhidden s fun _ _ hm => hm, hhidden s' fun m hlive hm => (h.messages m hlive).mpr hm]

/-- A handle that names a live message in scope, or the thread of one,
    resolves alike wherever the view is the same. -/
theorem SameView.resolveThread_eq (h : SameView scope s s') (hr : s.Reachable)
    (hr' : s'.Reachable) {handle : String}
    (hhandle : ∃ m ∈ s.messages, m.liveIn scope = true ∧
      (m.id = handle ∨ m.thread_id = handle)) :
    resolveThread s handle scope = resolveThread s' handle scope := by
  obtain ⟨m, hm, hlive, hname⟩ := hhandle
  have hm' : m ∈ s'.messages := (h.messages m hlive).mp hm
  rcases hname with rfl | rfl
  · rw [resolveThread_message hm hm rfl hlive, resolveThread_message hm' hm' rfl hlive]
  · -- the founder of the thread may be hidden, but it is stored in both
    have hroot : ∀ u : Store, u.Reachable → m ∈ u.messages →
        resolveThread u m.thread_id scope = .ok m.thread_id := by
      intro u hu hmu
      obtain ⟨f, hf, hid, hthread⟩ := (Store.Reachable.threaded hu).root hmu
      have hsame : f.thread_id = m.thread_id := hthread.trans hid
      rw [← hid, resolveThread_message hf hmu hsame.symm hlive, hthread]
    rw [hroot s hr hm, hroot s' hr' hm']

/-! ### Parents -/

/-- The summaries that a reader of the scope gets from the three reads. -/
inductive Shown (s : Store) (scope : MailboxScope) (summary : MessageSummary) : Prop where
  | summary (messageId : String) :
      getMessageSummary s messageId scope = .ok (some summary) → Shown s scope summary
  | listed (query : ListMessageSummariesQuery) (page : MessageSummaryPage) :
      query.mailboxScope = scope → listMessageSummaries s query = .ok page →
      summary ∈ page.items → Shown s scope summary
  | opened (handle : String) (query : ListThreadMessageSummariesQuery)
      (page : ThreadMessageSummaryPage) :
      query.mailboxScope = scope → listThreadMessageSummaries s handle query = .ok page →
      summary ∈ page.items → Shown s scope summary

theorem mem_enrichMessageSummaries {rows : List MessageRow} {items : List MessageSummary}
    (h : enrichMessageSummaries s rows = .ok items) {summary : MessageSummary}
    (hsummary : summary ∈ items) : ∃ m ∈ rows, enrichMessageSummary s m = .ok summary := by
  unfold enrichMessageSummaries at h
  induction rows generalizing items with
  | nil =>
    obtain rfl : [] = items := Except.ok.inj h
    exact absurd hsummary List.not_mem_nil
  | cons m rows ih =>
    rw [List.mapM_cons] at h
    obtain ⟨first, hfirst, h⟩ := bind_eq_ok.mp h
    obtain ⟨rest, hrest, h⟩ := bind_eq_ok.mp h
    obtain rfl : first :: rest = items := Except.ok.inj h
    rcases List.mem_cons.mp hsummary with rfl | hmem
    · exact ⟨m, List.mem_cons_self, hfirst⟩
    · obtain ⟨n, hn, heq⟩ := ih hrest hmem
      exact ⟨n, List.mem_cons_of_mem _ hn, heq⟩

/-- A summary that is shown is that of a live message in scope. -/
theorem Shown.message {summary : MessageSummary} (h : Shown s scope summary) :
    ∃ m ∈ s.messages, m.liveIn scope = true ∧ enrichMessageSummary s m = .ok summary := by
  cases h with
  | summary messageId hread =>
    by_cases hshown : ∃ m ∈ s.messages, m.id = messageId ∧ m.liveIn scope = true
    · obtain ⟨m, hm, rfl, hlive⟩ := hshown
      rw [getMessageSummary_live hm hlive] at hread
      obtain ⟨summary', hsummary, heq⟩ := map_eq_ok.mp hread
      obtain rfl := Option.some.inj heq
      exact ⟨m, hm, hlive, hsummary⟩
    · -- a hidden message is answered by nothing
      rw [getMessageSummary_hidden fun m hm hid => by
        by_contra hlive
        exact hshown ⟨m, hm, hid, by simpa using hlive⟩] at hread
      exact absurd hread (by simp)
  | listed query page hscope hread hmem =>
    subst hscope
    -- the two early returns show no message
    unfold listMessageSummaries at hread
    split at hread
    · obtain rfl := Except.ok.inj hread
      exact absurd hmem List.not_mem_nil
    split at hread
    · obtain rfl := Except.ok.inj hread
      exact absurd hmem List.not_mem_nil
    obtain ⟨items, hitems, rfl⟩ := map_eq_ok.mp hread
    obtain ⟨m, hm, hsummary⟩ := mem_enrichMessageSummaries hitems hmem
    exact ⟨m, (mem_page hm).1, ListMessageSummariesQuery.matches_live (mem_page hm).2, hsummary⟩
  | opened handle query page hscope hread hmem =>
    subst hscope
    obtain ⟨threadId, -, hread⟩ := bind_eq_ok.mp hread
    obtain ⟨items, hitems, hread⟩ := bind_eq_ok.mp hread
    obtain rfl := Except.ok.inj hread
    obtain ⟨m, hm, hsummary⟩ := mem_enrichMessageSummaries hitems hmem
    exact ⟨m, (mem_page hm).1, ListThreadMessageSummariesQuery.matches_live (mem_page hm).2,
      hsummary⟩

/-- The message that the parent id of a summary points at. -/
structure ParentOf (s : Store) (scope : MailboxScope) (summary : MessageSummary)
    (parent : MessageRow) : Prop where
  stored : parent ∈ s.messages
  ne : parent.id ≠ summary.id
  thread : parent.thread_id = summary.threadId
  /-- It is the message that is replied to, -/
  replied : parent.rfc_message_id = summary.inReplyToRfcMessageId
  /-- the oldest one if there are several. -/
  oldest : ∀ p ∈ s.messages, p.id ≠ summary.id →
    p.rfc_message_id = summary.inReplyToRfcMessageId → founderOrder parent p
  /-- The reader can open it exactly when it is live and in scope. -/
  opened : (∃ r, getMessageSummary s parent.id scope = .ok (some r)) ↔
    parent.liveIn scope = true
  hidden : parent.liveIn scope = false → getMessageSummary s parent.id scope = .ok none

theorem parentMessageId_some {m : MessageRow} {id : String} (h : parentMessageId s m = some id) :
    ∃ value, m.in_reply_to_rfc_message_id = some value ∧ ∃ p ∈ s.messages, p.id = id ∧
      p.id ≠ m.id ∧ p.rfc_message_id = some value ∧
      ∀ q ∈ s.messages, q.id ≠ m.id → q.rfc_message_id = some value →
        founderOrder p q := by
  have htotal : Std.Total founderOrder := ⟨founderOrder_total⟩
  have htrans : IsTrans MessageRow founderOrder := ⟨fun _ _ _ => founderOrder_trans⟩
  obtain ⟨value, hvalue, h⟩ := Option.bind_eq_some_iff.mp h
  obtain ⟨p, hp, rfl⟩ := Option.map_eq_some_iff.mp h
  refine ⟨value, hvalue, p, ?_⟩
  -- the parent is the oldest of the candidates
  have hsorted := List.pairwise_insertionSort founderOrder
    (s.messages.select fun p => p.rfc_message_id = some value && p.id ≠ m.id)
  obtain ⟨rest, hrest⟩ := List.head?_eq_some_iff.mp hp
  rw [hrest] at hsorted
  have hmem : ∀ q, q ∈ p :: rest ↔ q ∈ s.messages ∧ q.rfc_message_id = some value ∧
      q.id ≠ m.id := by
    intro q
    rw [← hrest, List.mem_insertionSort, Table.mem_select]
    simp
  obtain ⟨hps, hpvalue, hne⟩ := (hmem p).mp List.mem_cons_self
  refine ⟨hps, rfl, hne, hpvalue, ?_⟩
  intro q hq hqne hqvalue
  rcases List.mem_cons.mp ((hmem q).mpr ⟨hq, hqvalue, hqne⟩) with rfl | hqrest
  · exact founderOrder_refl q
  · exact (List.pairwise_cons.mp hsorted).1 q hqrest

/-- The parent of a summary that is shown. -/
theorem Shown.parent (hr : s.Reachable) {summary : MessageSummary} (h : Shown s scope summary)
    {id : String} (hid : summary.parentMessageId = some id) :
    ∃ parent, parent.id = id ∧ ParentOf s scope summary parent := by
  obtain ⟨m, hm, hlive, hsummary⟩ := h.message
  obtain ⟨direction, -, hrest⟩ := bind_eq_ok.mp hsummary
  obtain rfl := Except.ok.inj hrest
  obtain ⟨value, hvalue, p, hp, hpid, hne, hpvalue, holdest⟩ := parentMessageId_some hid
  refine ⟨p, hpid, hp, hne, ?_, hpvalue.trans hvalue.symm, ?_, ?_, ?_⟩
  · -- the two messages share the Message-ID that is replied to
    refine ((Store.Reachable.threaded hr).thread_eq_iff hp hm).mpr ?_
    refine Connected.single ⟨p, hp, rfl⟩ ⟨m, hm, rfl⟩ ⟨value, ?_, ?_⟩
    · exact (holds_iff hp).mpr (mem_linkIds.mpr (.inl hpvalue))
    · exact (holds_iff hm).mpr (mem_linkIds.mpr (.inr (.inl hvalue)))
  · intro q hq hqne hqvalue
    exact holdest q hq hqne (hqvalue.trans hvalue)
  · constructor
    · intro ⟨r, hread⟩
      by_contra hhidden
      rw [getMessageSummary_hidden fun q hq hqid => by
        rw [s.messages.eq_of_clash hq hp hqid]
        simpa using hhidden] at hread
      exact absurd hread (by simp)
    · intro hplive
      obtain ⟨r, hr⟩ := enrichMessageSummary_isOk hr.backed hp
      exact ⟨r, by rw [getMessageSummary_live hp hplive, hr]; rfl⟩
  · intro hhidden
    refine getMessageSummary_hidden fun q hq hqid => ?_
    rwa [s.messages.eq_of_clash hq hp hqid]

/-- **Scoped reads.** A parent id names the message that is replied to, in
    the same conversation; the reader can open it exactly when it is live and
    in scope. Two stores that agree on the live messages in scope and on what
    belongs to them give the same summaries and pages up to the parent ids,
    for every handle that resolves alike in both; one that names a live
    message in scope or its thread does. -/
theorem scoped_reads (hr : s.Reachable) (scope : MailboxScope) :
    (∀ summary, Shown s scope summary → ∀ id, summary.parentMessageId = some id →
      ∃ parent, parent.id = id ∧ ParentOf s scope summary parent) ∧
    (∀ s' : Store, s'.Reachable → SameView scope s s' →
      (∀ query, query.mailboxScope = scope →
        (listMessageSummaries s query).map (·.withoutParents) =
          (listMessageSummaries s' query).map (·.withoutParents)) ∧
      (∀ handle query, query.mailboxScope = scope →
        resolveThread s handle scope = resolveThread s' handle scope →
        (listThreadMessageSummaries s handle query).map (·.withoutParents) =
          (listThreadMessageSummaries s' handle query).map (·.withoutParents)) ∧
      (∀ handle, (∃ m ∈ s.messages, m.liveIn scope = true ∧
          (m.id = handle ∨ m.thread_id = handle)) →
        resolveThread s handle scope = resolveThread s' handle scope) ∧
      ∀ messageId, (getMessageSummary s messageId scope).map (Option.map (·.withoutParent)) =
        (getMessageSummary s' messageId scope).map (Option.map (·.withoutParent))) := by
  refine ⟨fun summary hshown id hid => hshown.parent hr hid, fun s' hr' hview =>
    ⟨?_, ?_, ?_, ?_⟩⟩
  · intro query hscope
    subst hscope
    exact hview.listMessageSummaries_eq hr
  · intro handle query hscope hresolve
    subst hscope
    exact hview.listThreadMessageSummaries_eq hr hresolve
  · exact fun handle hhandle => hview.resolveThread_eq hr hr' hhandle
  · exact hview.getMessageSummary_eq hr

end views

/-! ### Sample stores -/

namespace Sample

/-- The same reply in the same thread, where the founder has another Message-ID. -/
def unrelatedStore : Store :=
  receive (receive Store.empty "in_a" "mailbox-1" 1000 (some "<b@x>") none none)
    "in_b" "mailbox-2" 1000 none (some "<a@x>") (some "<b@x> <a@x>")

theorem unrelatedStore_reachable : unrelatedStore.Reachable :=
  receive_reachable (receive_reachable (.init rfl))

def pageOf : ListThreadMessageSummariesQuery where
  mailboxScope := reader
  limit := none
  cursor := none

end Sample

section sample
open Sample

deriving instance DecidableEq for MessageRow, ParticipantRow, ReferenceRow, InboundReceiptRow

/-- Rows that two tables select alike belong to both or to none. -/
theorem mem_iff_of_select {ρ κ : Type} [Keyed ρ κ] {t t' : Table ρ} {p : ρ → Bool}
    (h : t.select p = t'.select p) {x : ρ} (hx : p x = true) : x ∈ t ↔ x ∈ t' := by
  have hmem : ∀ u : Table ρ, x ∈ u ↔ x ∈ u.select p := fun u => by
    rw [Table.mem_select]
    exact (and_iff_left hx).symm
  rw [hmem t, hmem t', h]

theorem replied_view : SameView reader repliedStore unrelatedStore := by
  have hlive : repliedStore.messages.select (·.liveIn reader) =
      unrelatedStore.messages.select (·.liveIn reader) := by decide +kernel
  have hid : ∀ m ∈ repliedStore.messages, m.liveIn reader = true → m.id = "in_b" := by
    have hall : (repliedStore.messages.select (·.liveIn reader)).all (·.id = "in_b") = true := by
      decide +kernel
    intro m hm hscope
    exact of_decide_eq_true (List.all_eq_true.mp hall m (Table.mem_select.mpr ⟨hm, hscope⟩))
  -- tables without rows agree
  have hempty : ∀ {ρ κ : Type} [Keyed ρ κ] {t t' : Table ρ}, t.rows.isEmpty = true →
      t'.rows.isEmpty = true → ∀ x, x ∈ t ↔ x ∈ t' := by
    intro ρ κ _ t t' ht ht' x
    rw [← Table.mem_rows, ← Table.mem_rows, List.isEmpty_iff.mp ht, List.isEmpty_iff.mp ht']
  refine ⟨fun m hm => mem_iff_of_select hlive hm, ?_, ?_, ?_, ?_, ?_⟩
  · intro m hm hscope p hp
    rw [hid m hm hscope] at hp
    have hselect : repliedStore.participants.select (·.message_id = "in_b") =
      unrelatedStore.participants.select (·.message_id = "in_b") := by decide +kernel
    exact mem_iff_of_select hselect (decide_eq_true hp)
  · intro m hm hscope r hr
    rw [hid m hm hscope] at hr
    have hselect : repliedStore.references.select (·.message_id = "in_b") =
      unrelatedStore.references.select (·.message_id = "in_b") := by decide +kernel
    exact mem_iff_of_select hselect (decide_eq_true hr)
  · exact fun _ _ _ a _ => hempty (by decide +kernel) (by decide +kernel) a
  · exact fun _ _ _ j _ => hempty (by decide +kernel) (by decide +kernel) j
  · intro m hm hscope r hr
    rw [hid m hm hscope] at hr
    have hselect : repliedStore.receipts.select (·.id = "in_b") =
      unrelatedStore.receipts.select (·.id = "in_b") := by decide +kernel
    exact mem_iff_of_select hselect (decide_eq_true hr)

/-- The parent of a reply that `reader` sees is a message it cannot open. In a
    store with the same view the reply has no parent, and a handle that names a
    hidden message is unknown. -/
theorem parent_outside_scope :
    repliedStore.Reachable ∧ unrelatedStore.Reachable ∧
    SameView reader repliedStore unrelatedStore ∧
    (∃ summary, getMessageSummary repliedStore "in_b" reader = .ok (some summary) ∧
      summary.parentMessageId = some "in_a") ∧
    getMessageSummary repliedStore "in_a" reader = .ok none ∧
    (∃ summary, getMessageSummary unrelatedStore "in_b" reader = .ok (some summary) ∧
      summary.parentMessageId = none) ∧
    (∃ page, listThreadMessageSummaries repliedStore "in_c" pageOf = .ok page) ∧
    listThreadMessageSummaries unrelatedStore "in_c" pageOf = .error (.threadNotFound "in_c") := by
  -- the check evaluates a Boolean, here read as the answer it says
  have hread : ∀ {s : Store} {messageId : String} {parent : Option String},
      ((getMessageSummary s messageId reader).toOption.bind id).map (·.parentMessageId) =
        some parent →
      ∃ summary, getMessageSummary s messageId reader = .ok (some summary) ∧
        summary.parentMessageId = parent := by
    intro s messageId parent h
    obtain ⟨summary, hsummary, hparent⟩ := Option.map_eq_some_iff.mp h
    obtain ⟨r, hr, hid⟩ := Option.bind_eq_some_iff.mp hsummary
    obtain rfl : r = some summary := hid
    exact ⟨summary, ok_of_toOption hr, hparent⟩
  refine ⟨repliedStore_reachable, unrelatedStore_reachable, replied_view,
    hread (by decide +kernel),
    ?_, hread (by decide +kernel), ?_, ?_⟩
  · have hhidden : repliedStore.messages.rows.all
        (fun m => m.id ≠ "in_a" || !m.liveIn reader) = true := by decide +kernel
    refine getMessageSummary_hidden fun m hm hid => ?_
    simpa [hid] using List.all_eq_true.mp hhidden m hm
  · have hsome : (listThreadMessageSummaries repliedStore "in_c" pageOf).toOption.isSome =
        true := by
      decide +kernel
    obtain ⟨page, hpage⟩ := Option.isSome_iff_exists.mp hsome
    exact ⟨page, ok_of_toOption hpage⟩
  · have hresolve : resolveThread unrelatedStore "in_c" reader =
        .error (.threadNotFound "in_c") := by decide +kernel
    show (resolveThread unrelatedStore "in_c" reader >>= _) = _
    rw [hresolve]
    rfl

theorem scoped_reads_replied : ∃ summary parent, parent.id = "in_a" ∧
    ParentOf repliedStore reader summary parent := by
  have hread : ((getMessageSummary repliedStore "in_b" reader).toOption.bind id).map
      (·.parentMessageId) = some (some "in_a") := by decide +kernel
  obtain ⟨summary, hsummary, hparent⟩ := Option.map_eq_some_iff.mp hread
  obtain ⟨r, hr, hid⟩ := Option.bind_eq_some_iff.mp hsummary
  obtain rfl : r = some summary := hid
  exact ⟨summary, (scoped_reads repliedStore_reachable reader).1 summary
    (.summary "in_b" (ok_of_toOption hr)) "in_a" hparent⟩

end sample

end Umail
