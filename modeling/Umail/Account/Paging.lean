import Umail.Account.Confinement
import Umail.Account.Identifiers
import Umail.Account.Listing
import Umail.Framework.Paging

/-! # The pages of the store

  Every listing walks its rows in the order of a timestamp and an id, one
  page at a time, and looks at one row more than the page holds. Here each of
  them is shown to return the page of its rows after the cursor.
-/

namespace Umail

open Relational Paging

/-! ### The order of a listing -/

/-- A timestamp, and an id among equal timestamps. -/
abbrev ListKey := Lex (Instant × String)

def MessageRow.activity (m : MessageRow) : ListKey := toLex (m.occurred_at, m.id)

def OutboundJobRow.activity (j : OutboundJobRow) : ListKey := toLex (j.created_at, j.id)

def PageCursor.activity (cursor : PageCursor) : ListKey := toLex (cursor.at, cursor.id)

/-- The latest comes first. -/
def MessageRow.recency (m : MessageRow) : ListKeyᵒᵈ := OrderDual.toDual m.activity

def OutboundJobRow.recency (j : OutboundJobRow) : ListKeyᵒᵈ := OrderDual.toDual j.activity

def PageCursor.recency (cursor : PageCursor) : ListKeyᵒᵈ := OrderDual.toDual cursor.activity

/-- The cursor behind a message. -/
def MessageRow.cursor (m : MessageRow) : PageCursor where
  «at» := m.occurred_at
  id := m.id

def OutboundJobRow.cursor (j : OutboundJobRow) : PageCursor where
  «at» := j.created_at
  id := j.id

theorem PageCursor.passedUp_iff (cursor : PageCursor) (m : MessageRow) :
    cursor.passedUp m = true ↔ cursor.activity < m.activity := by
  simp only [passedUp, activity, MessageRow.activity, Prod.Lex.toLex_lt_toLex, Bool.or_eq_true,
    Bool.and_eq_true, decide_eq_true_eq, eq_comm (a := m.occurred_at)]

theorem PageCursor.passedDown_iff (cursor : PageCursor) (m : MessageRow) :
    cursor.passedDown m = true ↔ cursor.recency < m.recency := by
  simp only [passedDown, recency, MessageRow.recency, OrderDual.toDual_lt_toDual, activity,
    MessageRow.activity, Prod.Lex.toLex_lt_toLex, Bool.or_eq_true, Bool.and_eq_true,
    decide_eq_true_eq]

theorem PageCursor.passedDownJob_iff (cursor : PageCursor) (j : OutboundJobRow) :
    cursor.passedDownJob j = true ↔ cursor.recency < j.recency := by
  simp only [passedDownJob, recency, OutboundJobRow.recency, OrderDual.toDual_lt_toDual, activity,
    OutboundJobRow.activity, Prod.Lex.toLex_lt_toLex, Bool.or_eq_true, Bool.and_eq_true,
    decide_eq_true_eq]

/-- Jobs in the order of their listing. -/
def newestFirstJob (a b : OutboundJobRow) : Prop :=
  b.created_at < a.created_at ∨ (b.created_at = a.created_at ∧ b.id ≤ a.id)

instance : DecidableRel newestFirstJob := fun _ _ => inferInstanceAs (Decidable (_ ∨ _))

theorem newestFirstJob_iff (a b : OutboundJobRow) :
    newestFirstJob a b ↔ a.recency ≤ b.recency := by
  simp only [newestFirstJob, OutboundJobRow.recency, OrderDual.toDual_le_toDual,
    OutboundJobRow.activity, Prod.Lex.toLex_le_toLex]

/-- No two rows of a table have the same place in a listing. -/
theorem nodup_of_id {ρ κ : Type} [Keyed ρ κ] {t : Table ρ} {p : ρ → Bool} {ξ : Type}
    {place : ρ → ξ} (hplace : ∀ a b, place a = place b → Clash a b) :
    ((t.select p).map place).Nodup := by
  refine List.pairwise_map.mpr ((t.distinct.filter _).imp ?_)
  exact fun hab heq => hab (hplace _ _ heq)

theorem MessageRow.id_of_activity {a b : MessageRow} (h : a.activity = b.activity) : a.id = b.id :=
  congrArg (fun k => (ofLex k).2) h

theorem MessageRow.id_of_recency {a b : MessageRow} (h : a.recency = b.recency) : a.id = b.id :=
  MessageRow.id_of_activity (OrderDual.toDual_inj.mp h)

theorem OutboundJobRow.id_of_recency {a b : OutboundJobRow} (h : a.recency = b.recency) :
    a.id = b.id :=
  congrArg (fun k => (ofLex (OrderDual.ofDual k)).2) h

theorem pageLimit_pos (limit : Option Int) : 0 < pageLimit limit := by
  unfold pageLimit
  split
  · decide
  · split
    · decide
    · split
      · decide
      · omega

/-! ### The cursor of the next page -/

/-- The cursor behind the first rows, if there are more. -/
def nextPage {ρ : Type} (cursorOf : ρ → PageCursor) (sorted : List ρ) (limit : Nat) :
    Option PageCursor :=
  if sorted.length ≤ limit then none else (sorted.take limit).getLast?.map cursorOf

theorem lookahead_length {ρ : Type} {sorted : List ρ} {limit : Nat} :
    (sorted.take (limit + 1)).length ≤ limit ↔ sorted.length ≤ limit := by
  rw [List.length_take]
  omega

theorem lookahead_take {ρ : Type} (sorted : List ρ) (limit : Nat) :
    (sorted.take (limit + 1)).take limit = sorted.take limit := by
  rw [List.take_take, Nat.min_eq_left (Nat.le_succ limit)]

theorem nextMessageCursor_eq (sorted : List MessageRow) (limit : Nat) :
    nextMessageCursor (sorted.take (limit + 1)) ((sorted.take (limit + 1)).take limit) limit =
      nextPage MessageRow.cursor sorted limit := by
  unfold nextMessageCursor nextPage
  rw [lookahead_take]
  simp only [lookahead_length]
  split
  · next hnone => simp [hnone]
  · next last hlast => simp [hlast, MessageRow.cursor]

/-- What one call of a listing returns: the rows of a page, item by item, and
    the cursor behind it. -/
def Lists {ρ κ ι : Type} [LinearOrder κ] (key : ρ → κ) (keyOf : PageCursor → κ)
    (cursorOf : ρ → PageCursor) (rows : List ρ) (Shows : ι → ρ → Prop)
    (start : Option PageCursor) (items : List ι) (next : Option PageCursor) : Prop :=
  ∃ page, IsPage key rows (start.map keyOf) page (next.map keyOf) ∧
    List.Forall₂ Shows items page ∧ ∀ cursor ∈ next, ∃ r ∈ rows, cursor = cursorOf r

/-- The page of what a query finds: the rows it selects that the cursor has
    not passed. -/
theorem lists_of_found {ρ κ ι : Type} [LinearOrder κ] {key : ρ → κ}
    {keyOf : PageCursor → κ}
    {cursorOf : ρ → PageCursor} {order : ρ → ρ → Prop} [DecidableRel order]
    {rows : List ρ}
    {Shows : ι → ρ → Prop} {start : Option PageCursor} {after : PageCursor → ρ → Bool}
    {sorted : List ρ} {limit : Nat} {items : List ι} (hlimit : 0 < limit)
    (horder : ∀ a b, order a b ↔ key a ≤ key b) (hdistinct : (rows.map key).Nodup)
    (hkey : ∀ r, keyOf (cursorOf r) = key r)
    (hafter : ∀ cursor r, after cursor r = true ↔ keyOf cursor < key r)
    (hsorted : sorted = (rows.filter fun r => start.all (after · r)).insertionSort order)
    (hitems : List.Forall₂ Shows items (sorted.take limit)) :
    Lists key keyOf cursorOf rows Shows start items (nextPage cursorOf sorted limit) := by
  refine ⟨sorted.take limit, ?_, hitems, ?_⟩
  · -- the cursor of the page is the key of its last row
    have hnext : (nextPage cursorOf sorted limit).map keyOf =
        if sorted.length ≤ limit then none else (sorted.take limit).getLast?.map key := by
      unfold nextPage
      split
      · rfl
      · rw [Option.map_map]
        exact congrArg (fun f => (sorted.take limit).getLast?.map f) (funext hkey)
    rw [hnext]
    refine isPage_sorted hlimit horder hdistinct (fun r _ => ?_) hsorted
    cases start with
    | none => simp
    | some cursor => simp [hafter]
  · intro cursor hcursor
    -- a cursor comes from a row
    unfold nextPage at hcursor
    split at hcursor
    · exact absurd hcursor (by simp)
    · obtain ⟨r, hlast, rfl⟩ := Option.map_eq_some_iff.mp hcursor
      have hr := List.mem_of_mem_take (List.mem_of_getLast? hlast)
      rw [hsorted, List.mem_insertionSort] at hr
      exact ⟨r, (List.mem_filter.mp hr).1, rfl⟩

section account
variable [Unicode] {s : Store}

/-- The summaries of messages, one by one. -/
theorem enrichMessageSummaries_each {rows : List MessageRow} {items : List MessageSummary}
    (h : enrichMessageSummaries s rows = .ok items) :
    List.Forall₂ (fun item m => enrichMessageSummary s m = .ok item) items rows := by
  unfold enrichMessageSummaries at h
  induction rows generalizing items with
  | nil =>
    obtain rfl : [] = items := Except.ok.inj h
    exact .nil
  | cons m rows ih =>
    rw [List.mapM_cons] at h
    obtain ⟨first, hfirst, h⟩ := bind_eq_ok.mp h
    obtain ⟨rest, hrest, h⟩ := bind_eq_ok.mp h
    obtain rfl : first :: rest = items := Except.ok.inj h
    exact .cons hfirst (ih hrest)

theorem enrichMessageSummary_id {m : MessageRow} {item : MessageSummary}
    (h : enrichMessageSummary s m = .ok item) : item.id = m.id := by
  obtain ⟨direction, -, h⟩ := bind_eq_ok.mp h
  obtain rfl := Except.ok.inj h
  rfl

omit [Unicode] in
/-- No mailbox is in an empty scope. -/
theorem mailboxInScope_isEmpty {scope : MailboxScope} (h : scope.isEmpty = true)
    (mailboxId : String) : mailboxInScope mailboxId scope = false := by
  cases scope with
  | all => exact absurd h Bool.false_ne_true
  | only mailboxIds =>
    have hnil : mailboxIds = [] := List.isEmpty_iff.mp h
    simp [mailboxInScope, hnil]

/-! ### Messages -/

/-- The messages that a query finds, in the order of the listing. -/
def ListMessageSummariesQuery.found (query : ListMessageSummariesQuery) (s : Store) :
    List MessageRow := (s.messages.select query.matches).insertionSort newestFirst

theorem ListMessageSummariesQuery.found_nil {query : ListMessageSummariesQuery}
    (h : ∀ m, query.matches m = false) : query.found s = [] := by
  have hnone : s.messages.select query.matches = [] := by
    refine List.filter_eq_nil_iff.mpr fun m _ => ?_
    rw [h m]
    exact Bool.false_ne_true
  rw [found, hnone]
  rfl

/-- The page is the first rows found. An empty scope, or a mailbox outside
    the scope, finds nothing. -/
theorem listMessageSummaries_ok {query : ListMessageSummariesQuery} {page : MessageSummaryPage}
    (h : listMessageSummaries s query = .ok page) :
    List.Forall₂ (fun item m => enrichMessageSummary s m = .ok item) page.items
        ((query.found s).take (pageLimit query.limit)) ∧
      page.nextCursor = nextPage MessageRow.cursor (query.found s) (pageLimit query.limit) := by
  -- the two early returns answer the empty page, and nothing is found then
  have hempty : query.found s = [] → page = emptyMessagePage →
      List.Forall₂ (fun item m => enrichMessageSummary s m = .ok item) page.items
          ((query.found s).take (pageLimit query.limit)) ∧
        page.nextCursor = nextPage MessageRow.cursor (query.found s) (pageLimit query.limit) := by
    rintro hfound rfl
    rw [hfound, List.take_nil]
    exact ⟨.nil, rfl⟩
  unfold listMessageSummaries at h
  split at h
  · next hscope =>
    refine hempty (ListMessageSummariesQuery.found_nil fun m => ?_) (Except.ok.inj h).symm
    have hout := mailboxInScope_isEmpty hscope m.mailbox_id
    simp [ListMessageSummariesQuery.matches, MessageRow.liveIn, hout]
  split at h
  · next haddress =>
    refine hempty (ListMessageSummariesQuery.found_nil fun m => ?_) (Except.ok.inj h).symm
    obtain ⟨addressId, hid, hout⟩ := (Option.any_eq_true _ _).mp haddress
    by_cases hmailbox : m.mailbox_id = addressId
    · have hlive : m.liveIn query.mailboxScope = false := by
        simp only [MessageRow.liveIn, hmailbox]
        simpa using fun _ => by simpa using hout
      simp [ListMessageSummariesQuery.matches, hlive]
    · simp [ListMessageSummariesQuery.matches, hid, hmailbox]
  obtain ⟨items, hitems, rfl⟩ := map_eq_ok.mp h
  -- one row more than the page holds was selected
  have hrows : (selectMessageSummaryRows s query (pageLimit query.limit + 1)).take
      (pageLimit query.limit) = (query.found s).take (pageLimit query.limit) :=
    lookahead_take _ _
  refine ⟨?_, nextMessageCursor_eq _ _⟩
  rw [← hrows]
  exact enrichMessageSummaries_each hitems

/-- The messages of a listing: all that match, whatever the cursor. -/
def ListMessageSummariesQuery.rows (query : ListMessageSummariesQuery) (s : Store) :
    List MessageRow := s.messages.select ({ query with cursor := none }).matches

theorem ListMessageSummariesQuery.found_eq (query : ListMessageSummariesQuery) (s : Store) :
    query.found s = ((query.rows s).filter fun m =>
      query.cursor.all (·.passedDown m)).insertionSort newestFirst := by
  unfold found rows Table.select
  rw [List.filter_filter]
  refine congrArg _ (List.filter_congr fun m _ => ?_)
  simp only [ListMessageSummariesQuery.matches, Option.all_none, Bool.and_true]
  exact Bool.and_comm _ _

theorem listMessageSummaries_lists {query : ListMessageSummariesQuery} {page : MessageSummaryPage}
    (h : listMessageSummaries s query = .ok page) :
    Lists MessageRow.recency PageCursor.recency MessageRow.cursor (query.rows s)
      (fun item m => enrichMessageSummary s m = .ok item) query.cursor page.items
      page.nextCursor := by
  obtain ⟨hitems, hnext⟩ := listMessageSummaries_ok h
  rw [hnext]
  exact lists_of_found (pageLimit_pos _) newestFirst_iff
    (nodup_of_id fun _ _ => MessageRow.id_of_recency) (fun _ => rfl) PageCursor.passedDown_iff
    (ListMessageSummariesQuery.found_eq query s) hitems

/-! ### The messages of one thread -/

/-- The messages of the thread, in the order of the listing. -/
def ListThreadMessageSummariesQuery.found (query : ListThreadMessageSummariesQuery) (s : Store)
    (threadId : String) : List MessageRow :=
  (s.messages.select (query.matches threadId)).insertionSort oldestFirst

theorem listThreadMessageSummaries_ok {query : ListThreadMessageSummariesQuery}
    {handle : String} {page : ThreadMessageSummaryPage}
    (h : listThreadMessageSummaries s handle query = .ok page) :
    resolveThread s handle query.mailboxScope = .ok page.threadId ∧
      List.Forall₂ (fun item m => enrichMessageSummary s m = .ok item) page.items
        ((query.found s page.threadId).take (pageLimit query.limit)) ∧
      page.nextCursor =
        nextPage MessageRow.cursor (query.found s page.threadId) (pageLimit query.limit) := by
  obtain ⟨threadId, hthread, h⟩ := bind_eq_ok.mp h
  obtain ⟨items, hitems, h⟩ := bind_eq_ok.mp h
  obtain rfl := Except.ok.inj h
  have hrows : (selectThreadMessages s threadId query (pageLimit query.limit + 1)).take
      (pageLimit query.limit) = (query.found s threadId).take (pageLimit query.limit) :=
    lookahead_take _ _
  refine ⟨hthread, ?_, nextMessageCursor_eq _ _⟩
  show List.Forall₂ _ items ((query.found s threadId).take (pageLimit query.limit))
  rw [← hrows]
  exact enrichMessageSummaries_each hitems

def ListThreadMessageSummariesQuery.rows (query : ListThreadMessageSummariesQuery) (s : Store)
    (threadId : String) : List MessageRow :=
  s.messages.select (({ query with cursor := none }).matches threadId)

theorem ListThreadMessageSummariesQuery.found_eq (query : ListThreadMessageSummariesQuery)
    (s : Store) (threadId : String) :
    query.found s threadId = ((query.rows s threadId).filter fun m =>
      query.cursor.all (·.passedUp m)).insertionSort oldestFirst := by
  unfold found rows Table.select
  rw [List.filter_filter]
  refine congrArg _ (List.filter_congr fun m _ => ?_)
  simp only [ListThreadMessageSummariesQuery.matches, Option.all_none, Bool.and_true]
  exact Bool.and_comm _ _

theorem listThreadMessageSummaries_lists {query : ListThreadMessageSummariesQuery}
    {handle : String} {page : ThreadMessageSummaryPage}
    (h : listThreadMessageSummaries s handle query = .ok page) :
    Lists MessageRow.activity PageCursor.activity MessageRow.cursor (query.rows s page.threadId)
      (fun item m => enrichMessageSummary s m = .ok item) query.cursor page.items
      page.nextCursor := by
  obtain ⟨-, hitems, hnext⟩ := listThreadMessageSummaries_ok h
  rw [hnext]
  exact lists_of_found (pageLimit_pos _) oldestFirst_iff
    (nodup_of_id fun _ _ => MessageRow.id_of_activity) (fun _ => rfl) PageCursor.passedUp_iff
    (ListThreadMessageSummariesQuery.found_eq query s page.threadId) hitems

/-! ### Outbound jobs -/

/-- The jobs that a query finds, in the order of the listing. -/
def ListOutboundJobsQuery.found (query : ListOutboundJobsQuery) (s : Store) :
    List OutboundJobRow := (s.jobs.select query.matches).insertionSort newestFirstJob

/-- Every job of the store has its message. -/
theorem joinMessage_isSome (hs : s.Referential) {j : OutboundJobRow} (hj : j ∈ s.jobs) :
    ∃ joined, joinMessage s j = some joined ∧ joined.row = j := by
  obtain ⟨m, hm, hid, -⟩ := hs.jobs j hj
  obtain ⟨found, hfound⟩ := Option.isSome_iff_exists.mp
    (Table.find?_isSome (p := (·.id = j.message_id)) hm (by simpa using hid))
  exact ⟨_, Option.map_eq_some_iff.mpr ⟨found, hfound, rfl⟩, rfl⟩

theorem joinMessage_row {j : OutboundJobRow} {joined : JoinedJob}
    (h : joinMessage s j = some joined) : joined.row = j := by
  obtain ⟨m, -, rfl⟩ := Option.map_eq_some_iff.mp h
  rfl

/-- The join drops no job. -/
theorem joinMessage_rows (hs : s.Referential) {rows : List OutboundJobRow}
    (hrows : ∀ j ∈ rows, j ∈ s.jobs) :
    (rows.filterMap (joinMessage s)).map JoinedJob.row = rows := by
  induction rows with
  | nil => rfl
  | cons j rows ih =>
    obtain ⟨joined, hjoined, hrow⟩ := joinMessage_isSome hs (hrows j List.mem_cons_self)
    rw [List.filterMap_cons_some hjoined, List.map_cons, hrow,
      ih fun k hk => hrows k (List.mem_cons_of_mem _ hk)]

/-- The joined jobs in the order of the listing. -/
def ListOutboundJobsQuery.joined (query : ListOutboundJobsQuery) (s : Store) : List JoinedJob :=
  ((s.jobs.select query.matches).filterMap (joinMessage s)).insertionSort newestJobFirst

theorem ListOutboundJobsQuery.joined_rows (hs : s.Referential) (query : ListOutboundJobsQuery) :
    (query.joined s).map JoinedJob.row = query.found s := by
  unfold joined found
  rw [List.map_insertionSort newestJobFirst newestFirstJob _ _ fun _ _ _ _ => Iff.rfl,
    joinMessage_rows hs fun j hj => (Table.mem_select.mp hj).1]

theorem listOutboundJobs_page (hs : s.Referential) (query : ListOutboundJobsQuery) :
    List.Forall₂ (fun item j => ∃ joined, joinMessage s j = some joined ∧
      item = toOutboundJob joined)
        (listOutboundJobs s query).items ((query.found s).take (pageLimit query.limit)) ∧
      (listOutboundJobs s query).nextCursor =
        nextPage OutboundJobRow.cursor (query.found s) (pageLimit query.limit) := by
  have htake : (selectOutboundJobs s query (pageLimit query.limit + 1)).take
      (pageLimit query.limit) = (query.joined s).take (pageLimit query.limit) := lookahead_take _ _
  have hlength : (selectOutboundJobs s query (pageLimit query.limit + 1)).length ≤
      pageLimit query.limit ↔ (query.joined s).length ≤ pageLimit query.limit :=
        lookahead_length
  rw [← ListOutboundJobsQuery.joined_rows hs]
  constructor
  · show List.Forall₂ _ (((selectOutboundJobs s query (pageLimit query.limit + 1)).take
      (pageLimit query.limit)).map toOutboundJob) _
    rw [htake, ← List.map_take, List.forall₂_map_left_iff, List.forall₂_map_right_iff,
      List.forall₂_same]
    intro joined hjoined
    -- a joined job is the join of its row
    have hmem := (List.mem_insertionSort _).mp (List.mem_of_mem_take hjoined)
    obtain ⟨j, -, hj⟩ := List.mem_filterMap.mp hmem
    exact ⟨joined, (joinMessage_row hj).symm ▸ hj, rfl⟩
  · unfold nextPage listOutboundJobs
    rw [List.length_map, ← List.map_take, List.getLast?_map]
    simp only [htake, hlength]
    split
    · next hnone => simp [hnone]
    · next last hlast => simp [hlast, OutboundJobRow.cursor]

def ListOutboundJobsQuery.rows (query : ListOutboundJobsQuery) (s : Store) :
    List OutboundJobRow := s.jobs.select query.viewer.sees

theorem ListOutboundJobsQuery.found_eq (query : ListOutboundJobsQuery) (s : Store) :
    query.found s = ((query.rows s).filter fun j =>
      query.cursor.all (·.passedDownJob j)).insertionSort newestFirstJob := by
  unfold found rows Table.select
  rw [List.filter_filter]
  refine congrArg _ (List.filter_congr fun j _ => ?_)
  exact Bool.and_comm _ _

theorem listOutboundJobs_lists (hs : s.Referential) (query : ListOutboundJobsQuery) :
    Lists OutboundJobRow.recency PageCursor.recency OutboundJobRow.cursor (query.rows s)
      (fun item j => ∃ joined, joinMessage s j = some joined ∧ item = toOutboundJob joined)
      query.cursor (listOutboundJobs s query).items (listOutboundJobs s query).nextCursor := by
  obtain ⟨hitems, hnext⟩ := listOutboundJobs_page hs query
  rw [hnext]
  exact lists_of_found (pageLimit_pos _) newestFirstJob_iff
    (nodup_of_id fun a b h => .inl (OutboundJobRow.id_of_recency h)) (fun _ => rfl)
    PageCursor.passedDownJob_iff (ListOutboundJobsQuery.found_eq query s) hitems

end account

end Umail
