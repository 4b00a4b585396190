import Umail.Account.Paging

/-! # The list of threads

  The list is put together from separate queries: the newest message of each
  thread, its counts, its participants and its mailboxes. Here it is compared
  with what it is for: one entry for each thread with a live message in
  scope, taken from the live messages in scope alone.
-/

namespace Umail

open Relational Paging

/-! ### What an entry says -/

section specification
variable [Unicode]

/-- The live messages in scope. -/
def Store.liveMail (s : Store) (scope : MailboxScope) : List MessageRow :=
  s.messages.select (·.liveIn scope)

/-- Those of one thread. -/
def Store.threadMail (s : Store) (scope : MailboxScope) (threadId : String) : List MessageRow :=
  (s.liveMail scope).filter (·.thread_id = threadId)

/-- The newest message, by its time and then by its id. -/
def IsNewest (mail : List MessageRow) (m : MessageRow) : Prop :=
  m ∈ mail ∧ ∀ n ∈ mail, n.activity ≤ m.activity

/-- The entry of the thread whose newest live message in scope is `head`. -/
structure DescribesThread (s : Store) (scope : MailboxScope) (entry : ThreadSummary)
    (head : MessageRow) : Prop where
  threadId : entry.threadId = head.thread_id
  newest : IsNewest (s.threadMail scope head.thread_id) head
  lastActivityAt : entry.lastActivityAt = head.occurred_at
  subject : entry.subject = head.subject
  sender : entry.latestSender = (loadParticipants s head.id).from.head?
  recipients : entry.latestRecipients = (loadParticipants s head.id).to
  messageCount : entry.messageCount = (s.threadMail scope head.thread_id).length
  unreadCount : entry.unreadCount =
    ((s.threadMail scope head.thread_id).filter fun m =>
      m.direction = .inbound && !m.is_read).length
  /-- The mailboxes of the thread that can send now. -/
  identities : ∀ identity, identity ∈ entry.involvedMailboxIdentities ↔
    ∃ a ∈ s.addresses, a.sendable = true ∧ identity = toSendingIdentity a ∧
      ∃ m ∈ s.threadMail scope head.thread_id, m.mailbox_id = a.id
  /-- Each of them once. -/
  distinct : (entry.involvedMailboxIdentities.map (·.id)).Nodup

/-- The list of the threads in scope. -/
structure IsThreadList (s : Store) (scope : MailboxScope) (entries : List ThreadSummary) :
    Prop where
  /-- The entries are in the order of their newest messages, newest first. -/
  sorted : ∃ newest : List MessageRow, List.Forall₂ (DescribesThread s scope) entries newest ∧
    newest.Pairwise fun a b => b.activity < a.activity
  once : (entries.map (·.threadId)).Nodup
  complete : ∀ threadId, threadId ∈ entries.map (·.threadId) ↔
    s.threadMail scope threadId ≠ []

/-! ### Heads -/

variable {s s' : Store} {scope : MailboxScope}

theorem mem_liveMail {m : MessageRow} :
    m ∈ s.liveMail scope ↔ m ∈ s.messages ∧ m.liveIn scope = true := Table.mem_select

theorem mem_threadMail {threadId : String} {m : MessageRow} :
    m ∈ s.threadMail scope threadId ↔ m ∈ s.liveMail scope ∧ m.thread_id = threadId := by
  simp [Store.threadMail]

theorem isThreadHead_iff {m : MessageRow} : isThreadHead s scope m = true ↔
    ∀ n ∈ s.threadMail scope m.thread_id, n.activity ≤ m.activity := by
  -- the test of the source is the order of the activities
  have hnewer : ∀ n : MessageRow, ((m.occurred_at < n.occurred_at) ||
      (n.occurred_at = m.occurred_at && m.id < n.id)) = true ↔ ¬ n.activity ≤ m.activity := by
    intro n
    rw [not_le, MessageRow.activity, MessageRow.activity, Prod.Lex.toLex_lt_toLex]
    simp [eq_comm (a := n.occurred_at)]
  unfold isThreadHead
  rw [Bool.not_eq_true', List.any_eq_false]
  constructor
  · intro h n hn
    obtain ⟨hlive, hthread⟩ := mem_threadMail.mp hn
    obtain ⟨hmem, hlive⟩ := mem_liveMail.mp hlive
    by_contra hle
    exact h n hmem (by simp only [hthread, hlive, (hnewer n).mpr hle, decide_true, Bool.and_self])
  · intro h n hmem htest
    simp only [Bool.and_eq_true, decide_eq_true_eq] at htest
    obtain ⟨⟨hthread, hlive⟩, hnew⟩ := htest
    have hn := mem_threadMail.mpr ⟨mem_liveMail.mpr ⟨hmem, hlive⟩, hthread⟩
    exact (hnewer n).mp hnew (h n hn)

/-- The heads in scope: the newest message of each thread. -/
def Store.threadHeads (s : Store) (scope : MailboxScope) : List MessageRow :=
  s.messages.select fun m => m.liveIn scope && isThreadHead s scope m

theorem mem_threadHeads {m : MessageRow} : m ∈ s.threadHeads scope ↔
    IsNewest (s.threadMail scope m.thread_id) m := by
  have hmem : m ∈ s.threadMail scope m.thread_id ↔ m ∈ s.messages ∧
      m.liveIn scope = true := by
    rw [mem_threadMail, mem_liveMail]
    exact and_iff_left rfl
  rw [Store.threadHeads, Table.mem_select, Bool.and_eq_true, isThreadHead_iff, IsNewest, hmem,
    and_assoc]

/-- A thread has one head. -/
theorem threadHeads_unique {a b : MessageRow} (ha : a ∈ s.threadHeads scope)
    (hb : b ∈ s.threadHeads scope) (hthread : a.thread_id = b.thread_id) : a = b := by
  obtain ⟨hamem, hamax⟩ := mem_threadHeads.mp ha
  obtain ⟨hbmem, hbmax⟩ := mem_threadHeads.mp hb
  have hkey : a.activity = b.activity :=
    le_antisymm (hbmax a (hthread ▸ hamem)) (hamax b (hthread ▸ hbmem))
  exact Table.eq_of_clash s.messages (Table.mem_select.mp ha).1 (Table.mem_select.mp hb).1
    (MessageRow.id_of_activity hkey)

/-- A thread with a live message has a head. -/
theorem exists_threadHead {threadId : String} (h : s.threadMail scope threadId ≠ []) :
    ∃ m ∈ s.threadHeads scope, m.thread_id = threadId := by
  have hsorted := List.pairwise_insertionSort newestFirst (s.threadMail scope threadId)
  cases hlist : (s.threadMail scope threadId).insertionSort newestFirst with
  | nil =>
    have hperm := List.perm_insertionSort newestFirst (s.threadMail scope threadId)
    rw [hlist] at hperm
    exact absurd hperm.symm.eq_nil h
  -- the first of the thread, newest first
  | cons m rest =>
    rw [hlist] at hsorted
    have hmem : ∀ n, n ∈ s.threadMail scope threadId ↔ n ∈ m :: rest := by
      intro n
      rw [← hlist, List.mem_insertionSort]
    have hm := (hmem m).mpr List.mem_cons_self
    have hthread := (mem_threadMail.mp hm).2
    refine ⟨m, mem_threadHeads.mpr ?_, hthread⟩
    rw [hthread]
    refine ⟨hm, fun n hn => ?_⟩
    rcases List.mem_cons.mp ((hmem n).mp hn) with rfl | hrest
    · exact le_refl _
    · exact (oldestFirst_iff n m).mp ((List.pairwise_cons.mp hsorted).1 n hrest)

/-! ### Entries -/

omit [Unicode] in
/-- What the query groups is split again: no mailbox id has a comma. -/
theorem splitGroupConcat_ids {ids : List String} (hne : ids ≠ [])
    (hids : ∀ id ∈ ids, isPlainId id = true) :
    splitGroupConcat (some (",".intercalate ids)) = ids := by
  have hlist : (",".intercalate ids).toList = [','].intercalate (ids.map String.toList) :=
    String.toList_intercalate
  have hsplit : ([','].intercalate (ids.map String.toList)).splitOn ',' =
      ids.map String.toList := by
    refine List.splitOn_intercalate ',' ?_ (by simpa using hne)
    intro l hl
    obtain ⟨id, hid, rfl⟩ := List.mem_map.mp hl
    exact isPlainId_ne (hids id hid) (by decide)
  have hnil : ([','].intercalate (ids.map String.toList)).isEmpty = false := by
    rw [List.isEmpty_eq_false_iff]
    intro hempty
    rw [hempty, List.splitOn_nil] at hsplit
    -- the only part would be an empty id
    obtain ⟨id, hid, hempty⟩ := List.mem_map.mp (hsplit ▸ List.mem_singleton_self [])
    exact isPlainId_ne_nil (hids id hid) hempty
  unfold splitGroupConcat
  simp only [hlist, hsplit, hnil, Bool.false_eq_true, if_false, List.map_map]
  exact List.map_id'' (fun _ => String.ofList_toList) _

/-- The mailboxes of a thread, each once, in the order of its messages. -/
def Store.threadMailboxes (s : Store) (scope : MailboxScope) (threadId : String) : List String :=
  keepFirst id [] (((s.threadMail scope threadId).insertionSort oldestFirst).map (·.mailbox_id))

theorem mem_threadMailboxes {threadId mailboxId : String} :
    mailboxId ∈ s.threadMailboxes scope threadId ↔
      ∃ m ∈ s.threadMail scope threadId, m.mailbox_id = mailboxId := by
  unfold Store.threadMailboxes
  rw [mem_keepFirst_id, List.mem_map]
  exact exists_congr fun m => and_congr_left' (List.mem_insertionSort _)

theorem threadStats_some {threadId : String} (h : s.threadMail scope threadId ≠ []) :
    threadStats s scope threadId = some {
      message_count := (s.threadMail scope threadId).length
      unread_count := ((s.threadMail scope threadId).filter fun m =>
        m.direction = .inbound && !m.is_read).length
      involved_mailbox_ids := some (",".intercalate (s.threadMailboxes scope threadId)) } := by
  have hselect : (s.messages.select fun m => m.thread_id = threadId && m.liveIn scope) =
      s.threadMail scope threadId := (List.filter_filter ..).symm
  have hperm := List.perm_insertionSort oldestFirst (s.threadMail scope threadId)
  -- the counts do not depend on the order of the group
  have hunread := (hperm.filter fun m => m.direction = .inbound && !m.is_read).length_eq
  unfold threadStats Store.threadMailboxes
  rw [hselect, ← hperm.length_eq, ← hunread]
  cases hmail : (s.threadMail scope threadId).insertionSort oldestFirst with
  | nil =>
    rw [hmail] at hperm
    exact absurd hperm.symm.eq_nil h
  | cons m rest => rfl

theorem resolveSendingIdentity_eq_some {id : String} {identity : AccountSendingIdentity} :
    resolveSendingIdentity s id = some identity ↔
      ∃ a ∈ s.addresses, a.id = id ∧ a.sendable = true ∧
        identity = toSendingIdentity a := by
  unfold resolveSendingIdentity
  rw [Option.map_eq_some_iff]
  constructor
  · rintro ⟨a, hfind, rfl⟩
    have hprop := Table.find?_prop hfind
    simp only [Bool.and_eq_true, decide_eq_true_eq] at hprop
    exact ⟨a, Table.find?_mem hfind, hprop.1, hprop.2, rfl⟩
  · rintro ⟨a, ha, rfl, hsendable, rfl⟩
    refine ⟨a, Table.find?_eq_some_of_mem (fun b c hb hc => ?_) ha (by simp [hsendable]), rfl⟩
    simp only [Bool.and_eq_true, decide_eq_true_eq] at hb hc
    exact .inl (hb.1.trans hc.1.symm)

omit [Unicode] in
/-- What is found under its own key. -/
theorem filterMap_sublist {α β : Type} {f : α → Option β} {key : β → α} {l : List α}
    (h : ∀ x y, f x = some y → key y = x) : ((l.filterMap f).map key).Sublist l := by
  induction l with
  | nil => exact .slnil
  | cons x l ih =>
    cases hx : f x with
    | none =>
      rw [List.filterMap_cons_none hx]
      exact ih.cons x
    | some y =>
      rw [List.filterMap_cons_some hx, List.map_cons, h x y hx]
      exact ih.cons_cons x

theorem enrichThreadSummary_identities (hs : s.PlainIds) {head : MessageRow}
    (h : s.threadMail scope head.thread_id ≠ []) :
    (enrichThreadSummary s scope head).involvedMailboxIdentities =
      (s.threadMailboxes scope head.thread_id).filterMap (resolveSendingIdentity s) := by
  have hids : splitGroupConcat (some (",".intercalate (s.threadMailboxes scope head.thread_id))) =
      s.threadMailboxes scope head.thread_id := by
    apply splitGroupConcat_ids
    · intro hnil
      obtain ⟨m, hm⟩ := List.exists_mem_of_ne_nil _ h
      have hmailbox : m.mailbox_id ∈ s.threadMailboxes scope head.thread_id :=
        mem_threadMailboxes.mpr ⟨m, hm, rfl⟩
      rw [hnil] at hmailbox
      exact List.not_mem_nil hmailbox
    · intro id hid
      obtain ⟨m, hm, rfl⟩ := mem_threadMailboxes.mp hid
      exact (hs.messages m (mem_liveMail.mp (mem_threadMail.mp hm).1).1).2
  unfold enrichThreadSummary
  rw [threadStats_some h]
  exact congrArg _ hids

/-- **Entries.** A head is described by its entry. -/
theorem enrichThreadSummary_describes (hs : s.PlainIds) {head : MessageRow}
    (h : head ∈ s.threadHeads scope) :
    DescribesThread s scope (enrichThreadSummary s scope head) head := by
  have hnewest := mem_threadHeads.mp h
  have hne : s.threadMail scope head.thread_id ≠ [] := List.ne_nil_of_mem hnewest.1
  have hstats := threadStats_some hne
  have hidentities := enrichThreadSummary_identities hs hne
  refine ⟨rfl, hnewest, rfl, rfl, rfl, rfl, ?_, ?_, ?_, ?_⟩
  · simp [enrichThreadSummary, hstats]
  · simp [enrichThreadSummary, hstats]
  · intro identity
    rw [hidentities, List.mem_filterMap]
    constructor
    · rintro ⟨id, hid, hresolve⟩
      obtain ⟨m, hm, rfl⟩ := mem_threadMailboxes.mp hid
      obtain ⟨a, ha, hmailbox, hsendable, rfl⟩ := resolveSendingIdentity_eq_some.mp hresolve
      exact ⟨a, ha, hsendable, rfl, m, hm, hmailbox.symm⟩
    · rintro ⟨a, ha, hsendable, rfl, m, hm, hmailbox⟩
      exact ⟨a.id, mem_threadMailboxes.mpr ⟨m, hm, hmailbox⟩,
        resolveSendingIdentity_eq_some.mpr ⟨a, ha, rfl, hsendable, rfl⟩⟩
  · rw [hidentities]
    -- one mailbox, one identity
    have hsub : (((s.threadMailboxes scope head.thread_id).filterMap
        (resolveSendingIdentity s)).map (·.id)).Sublist (s.threadMailboxes scope head.thread_id) :=
      filterMap_sublist fun id identity hresolve => by
        obtain ⟨a, -, rfl, -, rfl⟩ := resolveSendingIdentity_eq_some.mp hresolve
        rfl
    exact (keepFirst_id_nodup _).sublist hsub

/-! ### Following the cursors -/

/-- One page of threads. -/
def threadListPage (query : ListThreadSummariesQuery) (s : Store) (start : Option PageCursor)
    (items : List ThreadSummary) (next : Option PageCursor) : Prop :=
  listThreadSummaries s { query with cursor := start } = .ok { items, nextCursor := next }

/-- The heads that a query finds, in the order of the listing. -/
def ListThreadSummariesQuery.found (query : ListThreadSummariesQuery) (s : Store) :
    List MessageRow :=
  ((s.threadHeads query.mailboxScope).filter fun m =>
    query.cursor.all (·.passedDown m)).insertionSort newestFirst

theorem selectThreadHeads_eq (query : ListThreadSummariesQuery) (s : Store) (limit : Nat) :
    selectThreadHeads s query limit = (query.found s).take limit := by
  unfold selectThreadHeads ListThreadSummariesQuery.found Store.threadHeads Table.select
  rw [List.filter_filter]
  refine congrArg (fun l => (List.insertionSort newestFirst l).take limit)
    (List.filter_congr fun m _ => ?_)
  exact Bool.and_comm _ _

theorem threadHeads_isEmpty (h : scope.isEmpty = true) : s.threadHeads scope = [] := by
  refine List.filter_eq_nil_iff.mpr fun m _ => ?_
  have hlive : m.liveIn scope = false := by
    unfold MessageRow.liveIn
    rw [mailboxInScope_isEmpty h, Bool.and_false]
  simp [hlive]

/-- A page is the entries of the first heads found. -/
theorem listThreadSummaries_ok (query : ListThreadSummariesQuery) (s : Store) :
    listThreadSummaries s query = .ok {
      items := ((query.found s).take (pageLimit query.limit)).map
        (enrichThreadSummary s query.mailboxScope)
      nextCursor := nextPage MessageRow.cursor (query.found s) (pageLimit query.limit) } := by
  unfold listThreadSummaries
  split
  · next hscope =>
    have hfound : query.found s = [] := by
      unfold ListThreadSummariesQuery.found
      rw [threadHeads_isEmpty hscope]
      rfl
    rw [hfound, List.take_nil]
    rfl
  · have hnext := nextMessageCursor_eq (query.found s) (pageLimit query.limit)
    rw [lookahead_take] at hnext
    simp only [selectThreadHeads_eq, lookahead_take, hnext]

theorem threadListPage_lists {query : ListThreadSummariesQuery} {start next : Option PageCursor}
    {items : List ThreadSummary} (h : threadListPage query s start items next) :
    Lists MessageRow.recency PageCursor.recency MessageRow.cursor
      (s.threadHeads query.mailboxScope)
      (fun item m => item = enrichThreadSummary s query.mailboxScope m) start items next := by
  have hok := (listThreadSummaries_ok { query with cursor := start } s).symm.trans h
  obtain ⟨rfl, rfl⟩ := ThreadSummaryPage.mk.inj (Except.ok.inj hok)
  refine lists_of_found (pageLimit_pos query.limit) newestFirst_iff
    (nodup_of_id fun _ _ => MessageRow.id_of_recency)
    (fun _ => rfl) PageCursor.passedDown_iff rfl ?_
  rw [List.forall₂_map_left_iff]
  exact List.forall₂_same.mpr fun _ _ => rfl

/-- The entries of the heads, sorted, are the list of the threads. -/
theorem isThreadList_of_heads (hs : s.PlainIds) {entries : List ThreadSummary}
    (h : List.Forall₂ (fun item m => item = enrichThreadSummary s scope m) entries
      ((s.threadHeads scope).insertionSort newestFirst)) : IsThreadList s scope entries := by
  set heads := (s.threadHeads scope).insertionSort newestFirst with hdef
  have hentries : entries = heads.map (enrichThreadSummary s scope) := by
    rw [← List.forall₂_eq_eq_eq, List.forall₂_map_right_iff]
    exact h
  have hsorted : heads.Pairwise fun a b => a.recency < b.recency :=
    sorted_lt newestFirst_iff (nodup_of_id fun _ _ => MessageRow.id_of_recency)
  have hthreads : entries.map (·.threadId) = heads.map (·.thread_id) := by
    rw [hentries, List.map_map]
    rfl
  have hheads : ∀ m, m ∈ heads ↔ m ∈ s.threadHeads scope :=
    fun m => List.mem_insertionSort _
  refine ⟨⟨heads, ?_, hsorted⟩, ?_, fun threadId => ?_⟩
  · rw [hentries, List.forall₂_map_left_iff]
    exact List.forall₂_same.mpr fun m hm => enrichThreadSummary_describes hs ((hheads m).mp hm)
  · rw [hthreads]
    -- two heads of one thread are one head, and no head comes twice
    refine List.pairwise_map.mpr (hsorted.imp_of_mem ?_)
    intro a b ha hb hlt hthread
    obtain rfl := threadHeads_unique ((hheads a).mp ha) ((hheads b).mp hb) hthread
    exact lt_irrefl _ hlt
  · rw [hthreads, List.mem_map]
    constructor
    · rintro ⟨m, hm, rfl⟩
      exact List.ne_nil_of_mem (mem_threadHeads.mp ((hheads m).mp hm)).1
    · intro hne
      obtain ⟨m, hm, hthread⟩ := exists_threadHead hne
      exact ⟨m, (hheads m).mpr hm, hthread⟩

/-- The listing serves the heads. -/
theorem threadListPage_serves (query : ListThreadSummariesQuery) :
    Serves MessageRow.recency (fun s => s.threadHeads query.mailboxScope) Store.PlainIds Eq
      (threadListPage query) (fun cursor k => cursor.recency = k)
      (fun s item m => item = enrichThreadSummary s query.mailboxScope m) where
  kept _ _ hs heq := heq ▸ hs
  served s _ start _ _ := ⟨_, _, listThreadSummaries_ok { query with cursor := start } s⟩
  isPage s _ cursor start items next hcursor h := by
    obtain ⟨page, hpage, hitems, -⟩ := threadListPage_lists h
    have hstart : cursor.map PageCursor.recency = start := by
      cases hcursor with
      | none => rfl
      | some hread => exact congrArg some hread
    refine ⟨page, _, hstart ▸ hpage, hitems, ?_⟩
    cases next with
    | none => exact .none
    | some next => exact .some rfl

/-! ### What the list depends on -/

/-- The message in a thread of another name. -/
def MessageRow.inThread (rename : String → String) (m : MessageRow) : MessageRow :=
  { m with thread_id := rename m.thread_id }

def ThreadSummary.inThread (rename : String → String) (entry : ThreadSummary) : ThreadSummary :=
  { entry with threadId := rename entry.threadId }

def ThreadSummaryPage.inThreads (rename : String → String) (page : ThreadSummaryPage) :
    ThreadSummaryPage :=
  { page with items := page.items.map (·.inThread rename) }

/-- Two stores have the same live mail in scope and the same mailboxes, stored
    in whatever order. What is deleted or out of scope may differ, and with it
    the name of a thread. -/
structure SameLiveMail (scope : MailboxScope) (rename : String → String) (s s' : Store) :
    Prop where
  messages : ∀ m', m' ∈ s'.liveMail scope ↔ ∃ m ∈ s.liveMail scope, m' = m.inThread rename
  injective : ∀ m ∈ s.liveMail scope, ∀ n ∈ s.liveMail scope,
    rename m.thread_id = rename n.thread_id → m.thread_id = n.thread_id
  participants : ∀ m ∈ s.liveMail scope, ∀ p : ParticipantRow, p.message_id = m.id →
    (p ∈ s.participants ↔ p ∈ s'.participants)
  addresses : ∀ a, a ∈ s.addresses ↔ a ∈ s'.addresses

section dependence
variable {rename : String → String}

/-- Messages of one store are one message when they have one id. -/
theorem eq_of_mem_liveMail {m n : MessageRow} (hm : m ∈ s.liveMail scope)
    (hn : n ∈ s.liveMail scope) (hid : m.id = n.id) : m = n :=
  s.messages.eq_of_clash (mem_liveMail.mp hm).1 (mem_liveMail.mp hn).1 hid

theorem SameLiveMail.liveMail (h : SameLiveMail scope rename s s') :
    (s'.liveMail scope).Perm ((s.liveMail scope).map (·.inThread rename)) := by
  have hnodup : ∀ u : Store, ((u.liveMail scope).map (·.id)).Nodup :=
    fun u => nodup_of_id fun _ _ hid => hid
  refine (List.perm_ext_iff_of_nodup (hnodup s').of_map ?_).mpr fun m' => ?_
  · -- a message keeps its id when its thread is renamed
    apply List.Nodup.of_map (·.id)
    rw [List.map_map]
    exact hnodup s
  · rw [h.messages, List.mem_map]
    exact exists_congr fun m => and_congr_right' eq_comm

theorem SameLiveMail.threadMail (h : SameLiveMail scope rename s s') {m : MessageRow}
    (hm : m ∈ s.liveMail scope) : (s'.threadMail scope (rename m.thread_id)).Perm
      ((s.threadMail scope m.thread_id).map (·.inThread rename)) := by
  have hfilter := h.liveMail.filter (·.thread_id = rename m.thread_id)
  rw [List.filter_map] at hfilter
  have hthread : (s.liveMail scope).filter
      ((fun n => decide (n.thread_id = rename m.thread_id)) ∘ (·.inThread rename)) =
        s.threadMail scope m.thread_id := by
    refine List.filter_congr fun n hn => ?_
    simp only [Function.comp_apply, MessageRow.inThread, decide_eq_decide]
    exact ⟨h.injective n hn m hm, fun heq => congrArg rename heq⟩
  rwa [hthread] at hfilter

theorem threadHeads_eq (s : Store) (scope : MailboxScope) :
    s.threadHeads scope = (s.liveMail scope).filter (isThreadHead s scope) := by
  unfold Store.threadHeads Store.liveMail Table.select
  rw [List.filter_filter]
  exact List.filter_congr fun m _ => Bool.and_comm _ _

theorem SameLiveMail.threadHeads (h : SameLiveMail scope rename s s') :
    (s'.threadHeads scope).Perm ((s.threadHeads scope).map (·.inThread rename)) := by
  have hfilter := h.liveMail.filter (isThreadHead s' scope)
  rw [List.filter_map, ← threadHeads_eq] at hfilter
  have hheads : (s.liveMail scope).filter (isThreadHead s' scope ∘ (·.inThread rename)) =
      s.threadHeads scope := by
    rw [threadHeads_eq]
    refine List.filter_congr fun m hm => Bool.eq_iff_iff.mpr ?_
    -- the messages it is compared with are the same
    rw [Function.comp_apply, isThreadHead_iff, isThreadHead_iff]
    show (∀ n ∈ s'.threadMail scope (rename m.thread_id), n.activity ≤ m.activity) ↔ _
    have hmem := fun n => (h.threadMail hm).mem_iff (a := n)
    simp only [hmem, List.forall_mem_map]
    rfl
  rwa [hheads] at hfilter

omit [Unicode] in
/-- Messages are sorted alike under both names of their threads. -/
theorem sorted_inThread {r : MessageRow → MessageRow → Prop} [DecidableRel r] [Std.Total r]
    [IsTrans MessageRow r] {l l' : List MessageRow} (h : l'.Perm (l.map (·.inThread rename)))
    (hrename : ∀ a b : MessageRow, r a b ↔ r (a.inThread rename) (b.inThread rename))
    (hl : ∀ a ∈ l, ∀ b ∈ l, r a b → r b a → a = b) :
    l'.insertionSort r = (l.insertionSort r).map (·.inThread rename) := by
  have hmap : (l.map (·.inThread rename)).insertionSort r =
      (l.insertionSort r).map (·.inThread rename) :=
    (List.map_insertionSort r r (MessageRow.inThread rename) l fun a _ b _ => hrename a b).symm
  rw [← hmap]
  symm
  apply Table.sorted_eq_of_perm h.symm
  intro x hx y hy hxy hyx
  obtain ⟨a, ha, rfl⟩ := List.mem_map.mp hx
  obtain ⟨b, hb, rfl⟩ := List.mem_map.mp hy
  rw [hl a ha b hb ((hrename a b).mpr hxy) ((hrename b a).mpr hyx)]

theorem SameLiveMail.found (query : ListThreadSummariesQuery)
    (h : SameLiveMail query.mailboxScope rename s s') :
    query.found s' = (query.found s).map (·.inThread rename) := by
  have hperm := h.threadHeads.filter fun m => query.cursor.all (·.passedDown m)
  rw [List.filter_map] at hperm
  refine sorted_inThread hperm (fun _ _ => Iff.rfl) fun a ha b hb hab hba => ?_
  have hlive : ∀ m ∈ (s.threadHeads query.mailboxScope).filter
      fun m => query.cursor.all (·.passedDown m), m ∈ s.liveMail query.mailboxScope := by
    intro m hm
    have hhead := (List.mem_filter.mp hm).1
    rw [threadHeads_eq] at hhead
    exact (List.mem_filter.mp hhead).1
  exact eq_of_mem_liveMail (hlive a ha) (hlive b hb) (oldestFirst_id hba hab)

theorem SameLiveMail.stats_eq (h : SameLiveMail scope rename s s') {m : MessageRow}
    (hm : m ∈ s.liveMail scope) :
    threadStats s' scope (rename m.thread_id) = threadStats s scope m.thread_id := by
  have hmail := h.threadMail hm
  have hne : s.threadMail scope m.thread_id ≠ [] :=
    List.ne_nil_of_mem (mem_threadMail.mpr ⟨hm, rfl⟩)
  have hne' : s'.threadMail scope (rename m.thread_id) ≠ [] := by
    intro hnil
    rw [hnil] at hmail
    exact hne (List.map_eq_nil_iff.mp hmail.nil_eq.symm)
  have hcount := hmail.length_eq
  have hunread := (hmail.filter fun n => n.direction = .inbound && !n.is_read).length_eq
  rw [List.length_map] at hcount
  rw [List.filter_map, List.length_map] at hunread
  have hsorted : (s'.threadMail scope (rename m.thread_id)).insertionSort oldestFirst =
      ((s.threadMail scope m.thread_id).insertionSort oldestFirst).map (·.inThread rename) := by
    refine sorted_inThread hmail (fun _ _ => Iff.rfl) fun a ha b hb hab hba => ?_
    exact eq_of_mem_liveMail (mem_threadMail.mp ha).1 (mem_threadMail.mp hb).1
      (oldestFirst_id hab hba)
  have hmailboxes : s'.threadMailboxes scope (rename m.thread_id) =
      s.threadMailboxes scope m.thread_id := by
    unfold Store.threadMailboxes
    rw [hsorted, List.map_map]
    rfl
  rw [threadStats_some hne, threadStats_some hne', hcount, hunread, hmailboxes]
  rfl

theorem SameLiveMail.identity_eq (h : SameLiveMail scope rename s s') :
    resolveSendingIdentity s' = resolveSendingIdentity s := by
  funext id
  refine Option.ext fun identity => ?_
  rw [resolveSendingIdentity_eq_some, resolveSendingIdentity_eq_some]
  exact exists_congr fun a => and_congr_left' (h.addresses a).symm

theorem SameLiveMail.participants_eq (h : SameLiveMail scope rename s s') {m : MessageRow}
    (hm : m ∈ s.liveMail scope) : loadParticipants s' m.id = loadParticipants s m.id := by
  have hcontacts : ∀ role, loadContacts s' m.id role = loadContacts s m.id role :=
    fun role => (loadContacts_congr (h.participants m hm) role).symm
  simp only [loadParticipants, hcontacts]

/-- The entry of a thread is read from the live mail in scope. -/
theorem SameLiveMail.entry (h : SameLiveMail scope rename s s') {m : MessageRow}
    (hm : m ∈ s.liveMail scope) : enrichThreadSummary s' scope (m.inThread rename) =
      (enrichThreadSummary s scope m).inThread rename := by
  have hstats : threadStats s' scope (m.inThread rename).thread_id =
      threadStats s scope m.thread_id := h.stats_eq hm
  have hparticipants : loadParticipants s' (m.inThread rename).id = loadParticipants s m.id := by
    show loadParticipants s' m.id = _
    exact h.participants_eq hm
  unfold enrichThreadSummary ThreadSummary.inThread
  rw [hstats, hparticipants, h.identity_eq]
  rfl

/-- **Dependence.** Every page is the same, up to the names of the threads. -/
theorem SameLiveMail.page (query : ListThreadSummariesQuery)
    (h : SameLiveMail query.mailboxScope rename s s') :
    listThreadSummaries s' query = (listThreadSummaries s query).map (·.inThreads rename) := by
  rw [listThreadSummaries_ok, listThreadSummaries_ok, h.found query]
  have hnext : nextPage MessageRow.cursor ((query.found s).map (·.inThread rename))
      (pageLimit query.limit) = nextPage MessageRow.cursor (query.found s)
      (pageLimit query.limit) := by
    unfold nextPage
    rw [List.length_map, ← List.map_take, List.getLast?_map, Option.map_map]
    rfl
  -- the rows of the page are heads, whose entries agree up to the name of the thread
  have hitems : (((query.found s).map (·.inThread rename)).take (pageLimit query.limit)).map
      (enrichThreadSummary s' query.mailboxScope) =
        (((query.found s).take (pageLimit query.limit)).map
          (enrichThreadSummary s query.mailboxScope)).map (·.inThread rename) := by
    rw [← List.map_take, List.map_map, List.map_map]
    refine List.map_congr_left fun m hm => ?_
    have hhead := (List.mem_insertionSort _).mp (List.mem_of_mem_take hm)
    rw [threadHeads_eq] at hhead
    exact h.entry (List.mem_filter.mp (List.mem_filter.mp hhead).1).1
  rw [hnext, hitems]
  rfl

end dependence

/-! ### The list -/

/-- What is to be shown of the list of threads. -/
structure ThreadListing (query : ListThreadSummariesQuery) : Prop where
  /-- The cursors come to an end. -/
  ends : ∀ s : Store, s.PlainIds →
    ∃ visits, Session Eq (threadListPage query) s none visits none
  /-- The pages together are the list. -/
  lists : ∀ (s : Store) visits, s.PlainIds →
    Session Eq (threadListPage query) s none visits none →
    IsThreadList s query.mailboxScope (seen visits)
  /-- No page depends on what is deleted or out of scope. -/
  unaffected : ∀ (s s' : Store) rename, SameLiveMail query.mailboxScope rename s s' →
    listThreadSummaries s' query = (listThreadSummaries s query).map (·.inThreads rename)

/-- **The thread list.** It is what it is for. -/
theorem listThreadSummaries_specified (query : ListThreadSummariesQuery) : ThreadListing query := by
  have hserves := threadListPage_serves query
  refine ⟨fun s hs => exists_session hserves hs none none .none, fun s visits hs h => ?_,
    fun s s' rename h => h.page query⟩
  exact isThreadList_of_heads hs (h.all_seen hserves hs newestFirst_iff
    (nodup_of_id fun _ _ => MessageRow.id_of_recency))

end specification

/-! ### Sample conversations -/

namespace Sample

def allThreads : ListThreadSummariesQuery where
  mailboxScope := .all
  limit := none
  cursor := none

deriving instance DecidableEq for AddressRow

/-- Two mailboxes. -/
def mailboxesStore : Store :=
  mailboxStore.exec (.createAddress "mailbox-2" "sales" "example.com" none 20 true)

/-- A message to the second mailbox and an older one that arrives after it, a
    later message on its own, and a deleted one. -/
def conversations : Store :=
  (receive (receive (receive (receive mailboxesStore
    "in_a" "mailbox-2" 1000 (some "<a@x>") none none)
    "in_b" "mailbox-1" 900 (some "<b@x>") (some "<a@x>") (some "<z@x>"))
    "in_c" "mailbox-2" 1100 (some "<c@x>") none none)
    "in_d" "mailbox-1" 1200 (some "<d@x>") none none).exec (.softDeleteThread "in_d" .all 1300)

/-- The same live mail, received in another order. The founder of the first
    conversation is deleted. -/
def rearranged : Store :=
  receive (receive (receive ((receive mailboxesStore
    "in_z" "mailbox-1" 800 (some "<z@x>") none none).exec (.softDeleteThread "in_z" .all 850))
    "in_c" "mailbox-2" 1100 (some "<c@x>") none none)
    "in_b" "mailbox-1" 900 (some "<b@x>") (some "<a@x>") (some "<z@x>"))
    "in_a" "mailbox-2" 1000 (some "<a@x>") none none

/-- The name of a conversation where its founder was deleted. -/
def foundedByDeleted (threadId : String) : String :=
  if threadId = "in_b" then "in_z" else threadId

theorem conversations_plainIds : conversations.PlainIds := by
  have hmessages : conversations.messages.rows.all
      (fun m => isPlainId m.id && isPlainId m.mailbox_id) = true := by decide +kernel
  have hreceipts : conversations.receipts.rows.all (isPlainId ·.id) = true := by decide +kernel
  have haddresses : conversations.addresses.rows.all (isPlainId ·.id) = true := by
    decide +kernel
  have hjobs : conversations.jobs.rows.isEmpty = true := by decide +kernel
  refine ⟨fun m hm => ?_, fun j hj => ?_, List.all_eq_true.mp hreceipts,
    List.all_eq_true.mp haddresses⟩
  · exact Bool.and_eq_true_iff.mp (List.all_eq_true.mp hmessages m hm)
  · rw [← Table.mem_rows, List.isEmpty_iff.mp hjobs] at hj
    exact absurd hj List.not_mem_nil

/-- The two stores agree up to the name of the first conversation. -/
theorem conversations_rearranged :
    SameLiveMail .all foundedByDeleted conversations rearranged := by
  have hto : (conversations.liveMail .all).all (fun m => m.thread_id ∈ ["in_b", "in_c"] &&
      m.id ∈ ["in_a", "in_b", "in_c"] &&
      m.inThread foundedByDeleted ∈ rearranged.liveMail .all) = true := by decide +kernel
  have hfrom : (rearranged.liveMail .all).all
      (· ∈ (conversations.liveMail .all).map (·.inThread foundedByDeleted)) = true := by
    decide +kernel
  have hsenders : ∀ messageId ∈ ["in_a", "in_b", "in_c"],
      conversations.participants.select (·.message_id = messageId) =
        rearranged.participants.select (·.message_id = messageId) := by decide +kernel
  have hmailboxes : conversations.addresses.rows = rearranged.addresses.rows := by
    decide +kernel
  have hlive : ∀ m ∈ conversations.liveMail .all, (m.thread_id ∈ ["in_b", "in_c"] ∧
      m.id ∈ ["in_a", "in_b", "in_c"]) ∧
        m.inThread foundedByDeleted ∈ rearranged.liveMail .all := by
    intro m hm
    simpa only [Bool.and_eq_true, decide_eq_true_eq] using List.all_eq_true.mp hto m hm
  refine ⟨fun m' => ⟨fun hm' => ?_, fun hm' => ?_⟩, fun m hm n hn hname => ?_,
    fun m hm p hp => ?_, fun a => ?_⟩
  · obtain ⟨m, hm, heq⟩ := List.mem_map.mp (of_decide_eq_true (List.all_eq_true.mp hfrom m' hm'))
    exact ⟨m, hm, heq.symm⟩
  · obtain ⟨m, hm, rfl⟩ := hm'
    exact (hlive m hm).2
  · -- the two names stay apart
    have hnames : ∀ a ∈ ["in_b", "in_c"], ∀ b ∈ ["in_b", "in_c"],
        foundedByDeleted a = foundedByDeleted b → a = b := by decide
    exact hnames _ (hlive m hm).1.1 _ (hlive n hn).1.1 hname
  · exact mem_iff_of_select (hsenders m.id (hlive m hm).1.2) (decide_eq_true hp)
  · rw [← Table.mem_rows, ← Table.mem_rows, hmailboxes]

/-- Two conversations are listed, the newer one first, and the older one with
    its two mailboxes; the deleted message is not. Where the mail came in
    another order the list is the same, up to the name of a thread. -/
theorem conversations_threads :
    (∃ visits, Session Eq (threadListPage allThreads) conversations none visits none ∧
      IsThreadList conversations .all (seen visits)) ∧
    ((listThreadSummaries conversations allThreads).toOption.map fun page =>
      page.items.map fun entry => (entry.threadId, entry.messageCount,
        entry.involvedMailboxIdentities.map (·.id))) =
      some [("in_c", 1, ["mailbox-2"]), ("in_b", 2, ["mailbox-1", "mailbox-2"])] ∧
    listThreadSummaries rearranged allThreads =
      (listThreadSummaries conversations allThreads).map (·.inThreads foundedByDeleted) := by
  have hlisting := listThreadSummaries_specified allThreads
  obtain ⟨visits, hsession⟩ := hlisting.ends conversations conversations_plainIds
  exact ⟨⟨visits, hsession, hlisting.lists conversations visits conversations_plainIds hsession⟩,
    by decide +kernel, hlisting.unaffected conversations rearranged foundedByDeleted
      conversations_rearranged⟩

end Sample

end Umail
