import Umail.Account.Paging
import Umail.Api.Cursor

/-! # Following the cursors

  A client lists messages, jobs or the messages of a thread: it starts without
  a cursor and passes back the cursor of each page. Between two pages the
  store may run any commands. Nothing is listed twice, what is there all the
  time is listed, and no cursor is refused.
-/

namespace Umail

open Relational Paging

/-! ### Listings on the wire -/

section wire
variable [DateTime] [Base64Url]

/-- A listing whose cursors are coded. -/
def onWire {σ ι : Type}
    (list : σ → Option PageCursor → List ι → Option PageCursor → Prop)
    (s : σ) (cursor : Option String) (items : List ι) (next : Option String) : Prop :=
  ∃ start last, decodeCursor cursor = .ok start ∧ list s start items last ∧
    next = encodeCursor last

/-- A coded cursor stands for a place in the listing. -/
def Reads {κ : Type} (keyOf : PageCursor → κ) (cursor : String) (k : κ) : Prop :=
  ∃ c : PageCursor, c.Stored ∧ encodeCursor (some c) = some cursor ∧ keyOf c = k

/-- `decodeCursor` accepts the cursor. -/
def Accepted (cursor : String) : Prop := ∃ c, decodeCursor (some cursor) = .ok c

variable [LawfulBase64Url]

theorem Reads.accepted {κ : Type} {keyOf : PageCursor → κ} {cursor : String} {k : κ}
    (h : Reads keyOf cursor k) : Accepted cursor := by
  obtain ⟨c, hc, hcode, -⟩ := h
  exact ⟨some c, hcode ▸ decodeCursor_encodeCursor hc⟩

theorem decodeCursor_reads {κ : Type} {keyOf : PageCursor → κ} {cursor : Option String}
    {start : Option κ} (h : Option.Rel (Reads keyOf) cursor start) :
    ∃ c, decodeCursor cursor = .ok c ∧ c.map keyOf = start := by
  cases h with
  | none => exact ⟨none, rfl, rfl⟩
  | some hread =>
    obtain ⟨c, hc, hcode, rfl⟩ := hread
    exact ⟨some c, hcode ▸ decodeCursor_encodeCursor hc, rfl⟩

/-- A listing of the store is served on the wire. -/
theorem serves_onWire {σ ρ κ ι : Type} [LinearOrder κ] {key : ρ → κ}
    {keyOf : PageCursor → κ} {rows : σ → List ρ} {good : σ → Prop} {step : σ → σ → Prop}
    (cursorOf : ρ → PageCursor)
    {list : σ → Option PageCursor → List ι → Option PageCursor → Prop}
    {Shows : σ → ι → ρ → Prop}
    (hkept : ∀ s s', good s → step s s' → good s')
    (hserved : ∀ s, good s → ∀ start, ∃ items next, list s start items next)
    (hlists : ∀ s, good s → ∀ start items next, list s start items next →
      Lists key keyOf cursorOf (rows s) (Shows s) start items next)
    (hstored : ∀ s, good s → ∀ r ∈ rows s, (cursorOf r).Stored) :
    Serves key rows good step (onWire list) (Reads keyOf) Shows where
  kept := hkept
  served s hs cursor start hcursor := by
    obtain ⟨c, hdecode, -⟩ := decodeCursor_reads hcursor
    obtain ⟨items, next, hlist⟩ := hserved s hs c
    exact ⟨items, _, c, next, hdecode, hlist, rfl⟩
  isPage := by
    rintro s hs cursor start items next hcursor ⟨c, last, hdecode, hlist, rfl⟩
    -- the cursor stands for one position only
    obtain ⟨c', hdecode', rfl⟩ := decodeCursor_reads hcursor
    obtain rfl := Except.ok.inj (hdecode.symm.trans hdecode')
    obtain ⟨page, hpage, hitems, hnext⟩ := hlists s hs c items last hlist
    refine ⟨page, _, hpage, hitems, ?_⟩
    cases last with
    | none => exact .none
    | some last =>
      obtain ⟨r, hr, rfl⟩ := hnext last rfl
      exact .some ⟨cursorOf r, hstored s hs r hr, rfl, rfl⟩

end wire

section listings
variable [Unicode] {s s' : Store}

/-! ### Rows over time -/

/-- A message keeps its place in every listing. -/
theorem messages_stable {κ : Type} {place : ListKey → κ} (hplace : Function.Injective place)
    {rows : Store → List MessageRow} {step : Store → Store → Prop}
    (hrows : ∀ s, ∀ m ∈ rows s, m ∈ s.messages) (hstep : ∀ s s', step s s' → s.After s')
    (htrans : ∀ ⦃a b c⦄, step a b → step b c → step a c) :
    Stable (fun m : MessageRow => place m.activity) MessageRow.id rows step where
  trans := htrans
  within s m hm m' hm' hid := by
    rw [Table.eq_of_clash s.messages (hrows s m hm) (hrows s m' hm') hid]
  between s s' h m hm m' hm' hid := by
    have hev : m.Evolves m' := (hstep s s' h).evolves.messages.version
      (fun _ _ hev => hev.id_eq) (hrows s m hm) (hrows s' m' hm') hid
    rw [hev.columns]
    rfl
  names m m' h := MessageRow.id_of_activity (hplace h)

theorem jobs_stable {rows : Store → List OutboundJobRow} {step : Store → Store → Prop}
    (hrows : ∀ s, ∀ j ∈ rows s, j ∈ s.jobs) (hstep : ∀ s s', step s s' → s.After s')
    (htrans : ∀ ⦃a b c⦄, step a b → step b c → step a c) :
    Stable OutboundJobRow.recency OutboundJobRow.id rows step where
  trans := htrans
  within s j hj j' hj' hid := by
    rw [Table.eq_of_clash s.jobs (hrows s j hj) (hrows s j' hj') (.inl hid)]
  between s s' h j hj j' hj' hid := by
    have hev : j.Evolves j' := (hstep s s' h).evolves.jobs.version
      (fun _ _ hev => hev.key_eq) (hrows s j hj) (hrows s' j' hj') (.inl hid)
    rw [hev.sameRequest]
    rfl
  names j j' h := OutboundJobRow.id_of_recency h

/-! ### Stores that are listed -/

section listed
variable [DateTime]

/-- The timestamps that cursors carry are canonical. -/
structure Store.Timestamped (s : Store) : Prop where
  messages : ∀ m ∈ s.messages, IsCanonical m.occurred_at
  jobs : ∀ j ∈ s.jobs, IsCanonical j.created_at

structure Store.Listed (s : Store) : Prop where
  reachable : s.Reachable
  plainIds : s.PlainIds
  timestamped : s.Timestamped

/-- What may happen between two pages: any commands, with the ids and
    timestamps that the server gives them. -/
def Store.Continues (s s' : Store) : Prop := s.After s' ∧ s'.Timestamped

theorem Store.Listed.continues (hs : s.Listed) (h : s.Continues s') : s'.Listed where
  reachable := h.1.reachable hs.reachable
  plainIds := h.1.plainIds hs.plainIds
  timestamped := h.2

theorem Store.Continues.trans {s'' : Store} (h : s.Continues s') (h' : s'.Continues s'') :
    s.Continues s'' := ⟨h.1.trans h'.1, h'.2⟩

theorem Store.Listed.message_cursor (hs : s.Listed) {m : MessageRow} (hm : m ∈ s.messages) :
    m.cursor.Stored := ⟨hs.timestamped.messages m hm, (hs.plainIds.messages m hm).1⟩

theorem Store.Listed.job_cursor (hs : s.Listed) {j : OutboundJobRow} (hj : j ∈ s.jobs) :
    j.cursor.Stored := ⟨hs.timestamped.jobs j hj, hs.plainIds.jobs j hj⟩

end listed

/-! ### The three listings -/

/-- One page of messages. -/
def messagePage (query : ListMessageSummariesQuery) (s : Store) (start : Option PageCursor)
    (items : List MessageSummary) (next : Option PageCursor) : Prop :=
  listMessageSummaries s { query with cursor := start } = .ok { items, nextCursor := next }

/-- One page of jobs. -/
def jobPage (query : ListOutboundJobsQuery) (s : Store) (start : Option PageCursor)
    (items : List OutboundJob) (next : Option PageCursor) : Prop :=
  listOutboundJobs s { query with cursor := start } = { items, nextCursor := next }

/-- One page of a thread. -/
def threadPage (handle : String) (query : ListThreadMessageSummariesQuery) (s : Store)
    (start : Option PageCursor) (items : List MessageSummary) (next : Option PageCursor) : Prop :=
  ∃ threadId, listThreadMessageSummaries s handle { query with cursor := start } =
    .ok { threadId, items, nextCursor := next }

variable [DateTime]

theorem messagePage_served (query : ListMessageSummariesQuery) (hs : s.Listed)
    (start : Option PageCursor) : ∃ items next, messagePage query s start items next := by
  obtain ⟨page, hpage⟩ := listMessageSummaries_isOk hs.reachable.backed
      { query with cursor := start }
  exact ⟨_, _, hpage⟩

theorem threadPage_served {handle threadId : String} (query : ListThreadMessageSummariesQuery)
    (hs : s.Listed) (hthread : resolveThread s handle query.mailboxScope = .ok threadId)
    (start : Option PageCursor) : ∃ items next, threadPage handle query s start items next := by
  set limit := pageLimit query.limit
  set lookahead := selectThreadMessages s threadId { query with cursor := start } (limit + 1)
    with hlookahead
  obtain ⟨items, hitems⟩ := enrichMessageSummaries_isOk hs.reachable.backed
    (l := lookahead.take limit) fun m hm => (mem_page (hlookahead ▸ hm)).1
  refine ⟨items, nextMessageCursor lookahead (lookahead.take limit) limit, threadId, ?_⟩
  show (resolveThread s handle query.mailboxScope >>= _) = _
  rw [hthread]
  show (enrichMessageSummaries s _ >>= _) = _
  rw [hitems]
  rfl

/-- Messages, in the order of the listing, each once. -/
def ListMessageSummariesQuery.All (query : ListMessageSummariesQuery) (s : Store)
    (items : List MessageSummary) : Prop :=
  List.Forall₂ (fun item m => enrichMessageSummary s m = .ok item) items
    ((query.rows s).insertionSort newestFirst)

def ListOutboundJobsQuery.All (query : ListOutboundJobsQuery) (s : Store)
    (items : List OutboundJob) : Prop :=
  List.Forall₂ (fun item j => ∃ joined, joinMessage s j = some joined ∧
    item = toOutboundJob joined)
    items ((query.rows s).insertionSort newestFirstJob)

def ListThreadMessageSummariesQuery.All (query : ListThreadMessageSummariesQuery)
    (threadId : String) (s : Store) (items : List MessageSummary) : Prop :=
  List.Forall₂ (fun item m => enrichMessageSummary s m = .ok item) items
    ((query.rows s threadId).insertionSort oldestFirst)

/-- The handle stands for the thread. -/
def Store.Resolves (s : Store) (handle : String) (scope : MailboxScope) (threadId : String) :
    Prop :=
  resolveThread s handle scope = .ok threadId

variable [Base64Url]

/-- Every listing enumerates the rows that match. -/
structure ListingsEnumerate : Prop where
  messages : ∀ query : ListMessageSummariesQuery,
    Enumerates Store.Listed Store.Continues (onWire (messagePage query)) query.All (·.id)
      (fun s id => ∃ m ∈ query.rows s, m.id = id) Accepted
  jobs : ∀ query : ListOutboundJobsQuery,
    Enumerates Store.Listed Store.Continues (onWire (jobPage query)) query.All (·.jobId)
      (fun s id => ∃ j ∈ query.rows s, j.id = id) Accepted
  /-- As long as the handle stands for the same thread. -/
  thread : ∀ (handle threadId : String) (query : ListThreadMessageSummariesQuery),
    Enumerates (fun s => s.Listed ∧ s.Resolves handle query.mailboxScope threadId)
      (fun s s' => s.Continues s' ∧ s'.Resolves handle query.mailboxScope threadId)
      (onWire (threadPage handle query)) (query.All threadId) (·.id)
      (fun s id => ∃ m ∈ query.rows s threadId, m.id = id) Accepted

variable [LawfulBase64Url]

/-- **Paging.** Following the cursors of a listing enumerates its rows. -/
theorem listings_enumerate : ListingsEnumerate where
  messages query := by
    have hserves : Serves MessageRow.recency query.rows Store.Listed Store.Continues
        (onWire (messagePage query)) (Reads PageCursor.recency)
        (fun s item m => enrichMessageSummary s m = .ok item) := by
      refine serves_onWire MessageRow.cursor (fun s s' hs h => hs.continues h)
        (fun s hs start => messagePage_served query hs start) ?_ ?_
      · intro s _ start items next h
        exact listMessageSummaries_lists h
      · intro s hs m hm
        exact hs.message_cursor (Table.mem_select.mp hm).1
    refine enumerates hserves ?_ newestFirst_iff ?_ (fun s item m => enrichMessageSummary_id)
      fun _ _ => Reads.accepted
    · exact messages_stable OrderDual.toDual.injective (fun s m hm => (Table.mem_select.mp hm).1)
        (fun _ _ h => h.1) fun _ _ _ => Store.Continues.trans
    · exact fun s _ => nodup_of_id fun _ _ => MessageRow.id_of_recency
  jobs query := by
    have hserves : Serves OutboundJobRow.recency query.rows Store.Listed Store.Continues
        (onWire (jobPage query)) (Reads PageCursor.recency)
        (fun s item j => ∃ joined, joinMessage s j = some joined ∧
          item = toOutboundJob joined) := by
      refine serves_onWire OutboundJobRow.cursor (fun s s' hs h => hs.continues h)
        (fun s _ start => ⟨_, _, rfl⟩) ?_ ?_
      · intro s hs start items next h
        have hlists := listOutboundJobs_lists hs.reachable.referential
          { query with cursor := start }
        rw [show listOutboundJobs s _ = _ from h] at hlists
        exact hlists
      · intro s hs j hj
        exact hs.job_cursor (Table.mem_select.mp hj).1
    refine enumerates hserves ?_ newestFirstJob_iff ?_ ?_ fun _ _ => Reads.accepted
    · exact jobs_stable (fun s j hj => (Table.mem_select.mp hj).1)
        (fun _ _ h => h.1) fun _ _ _ => Store.Continues.trans
    · exact fun s _ => nodup_of_id fun _ _ h => .inl (OutboundJobRow.id_of_recency h)
    · rintro s item j ⟨joined, hjoined, rfl⟩
      rw [← joinMessage_row hjoined]
      rfl
  thread handle threadId query := by
    have hserves : Serves MessageRow.activity (query.rows · threadId)
        (fun s => s.Listed ∧ s.Resolves handle query.mailboxScope threadId)
        (fun s s' => s.Continues s' ∧ s'.Resolves handle query.mailboxScope threadId)
        (onWire (threadPage handle query)) (Reads PageCursor.activity)
        (fun s item m => enrichMessageSummary s m = .ok item) := by
      refine serves_onWire MessageRow.cursor (fun s s' hs h => ⟨hs.1.continues h.1, h.2⟩)
        (fun s hs start => threadPage_served query hs.1 hs.2 start) ?_ ?_
      · rintro s hs start items next ⟨threadId', h⟩
        -- the page is that of the thread the handle stands for
        obtain ⟨hthread, -⟩ := listThreadMessageSummaries_ok h
        obtain rfl := Except.ok.inj (hs.2.symm.trans hthread)
        exact listThreadMessageSummaries_lists h
      · intro s hs m hm
        exact hs.1.message_cursor (Table.mem_select.mp hm).1
    refine enumerates hserves ?_ oldestFirst_iff ?_ (fun s item m => enrichMessageSummary_id)
      fun _ _ => Reads.accepted
    · exact messages_stable (fun _ _ h => h) (fun s m hm => (Table.mem_select.mp hm).1)
        (fun _ _ h => h.1.1) fun _ _ _ h h' => ⟨h.1.trans h'.1, h'.2⟩
    · exact fun s _ => nodup_of_id fun _ _ => MessageRow.id_of_activity

end listings

/-! ### Two messages of one instant -/

namespace Sample

/-- A second submission, with the timestamp of the first. -/
def secondSubmit : SubmitOutboundInput :=
  { submit with
    requestId := "request-2"
    intentFingerprint := "fingerprint-2"
    approval := { approvalId := "approval-2", tokenHash := "token-2", expiresAt := 90000 } }

def secondIds : NewSubmissionIds where
  messageId := "message-2"
  jobId := "job-2"
  notificationJobId := "notification-2"

def pairStore : Store := waitingStore.exec (.submitOutbound secondSubmit secondIds)

theorem pairStore_listed : pairStore.Listed where
  reachable := waitingStore_reachable.exec _
  plainIds := by
    have hids : (Command.submitOutbound secondSubmit secondIds).PlainIds :=
      ⟨by decide, by decide, by decide⟩
    exact waitingStore_plainIds.exec hids
  timestamped := by
    have hsecond : IsCanonical 1000 := by decide +kernel
    have hmessages : ∀ m ∈ pairStore.messages.rows, m.occurred_at = 1000 := by decide +kernel
    have hjobs : ∀ j ∈ pairStore.jobs.rows, j.created_at = 1000 := by decide +kernel
    constructor
    · exact fun m hm => hmessages m hm ▸ hsecond
    · exact fun j hj => hjobs j hj ▸ hsecond

/-- All messages, one on a page. -/
def oneByOne : ListMessageSummariesQuery where
  mailboxScope := .all
  direction := none
  addressId := none
  since := none
  unread := none
  limit := some 0
  cursor := none

/-- The border between the two pages lies between equal timestamps. -/
theorem listings_enumerate_pair : ∃ visits,
    Session Eq (onWire (messagePage oneByOne)) pairStore none visits none ∧
      (seen visits).map (·.id) = ["message-2", "message-1"] := by
  have henumerates := listings_enumerate.messages oneByOne
  obtain ⟨visits, hsession⟩ := henumerates.ends pairStore pairStore_listed
  have hall := henumerates.atRest pairStore visits pairStore_listed hsession
  refine ⟨visits, hsession, ?_⟩
  have hids : (seen visits).map (·.id) =
      ((oneByOne.rows pairStore).insertionSort newestFirst).map (·.id) := by
    rw [← List.forall₂_eq_eq_eq, List.forall₂_map_left_iff, List.forall₂_map_right_iff]
    exact hall.imp fun item m => enrichMessageSummary_id
  rw [hids]
  decide +kernel

end Sample

end Umail
