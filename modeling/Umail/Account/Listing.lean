import Umail.Account.Queries

/-! # Listing messages and threads

  The list queries of `apps/server/src/account/queries.ts`: a page of
  messages, a page of threads and a page of one thread, each walked in the
  order of activity from a cursor, and the source of one message. The page of
  outbound jobs of `jobs.ts` is walked in the same way.
-/

namespace Umail

open Relational

variable [Unicode]

/-! ### Queries and pages -/

structure PageCursor where
  «at» : Instant
  id : String

structure ListMessageSummariesQuery where
  mailboxScope : MailboxScope
  direction : Option MessageDirection
  addressId : Option String
  since : Option Instant
  unread : Option Bool
  limit : Option Int
  cursor : Option PageCursor

structure ListThreadSummariesQuery where
  mailboxScope : MailboxScope
  limit : Option Int
  cursor : Option PageCursor

structure ListThreadMessageSummariesQuery where
  mailboxScope : MailboxScope
  limit : Option Int
  cursor : Option PageCursor

structure MessageSummaryPage where
  items : List MessageSummary
  nextCursor : Option PageCursor

structure ThreadMessageSummaryPage where
  threadId : String
  items : List MessageSummary
  nextCursor : Option PageCursor

structure ThreadSummary where
  threadId : String
  subject : Option String
  latestSender : Option AccountMailContact
  latestRecipients : List AccountMailContact
  unreadCount : Nat
  messageCount : Nat
  involvedMailboxIdentities : List AccountSendingIdentity
  lastActivityAt : Instant

structure ThreadSummaryPage where
  items : List ThreadSummary
  nextCursor : Option PageCursor

/-- Who asks for jobs: an operator sees all, a client its own. -/
inductive JobViewer where
  | operator
  | mcp (clientId : String)

structure ListOutboundJobsQuery where
  viewer : JobViewer
  limit : Option Int
  cursor : Option PageCursor

structure OutboundJobPage where
  items : List OutboundJob
  nextCursor : Option PageCursor

inductive StoredMessageSource where
  | inbound (messageId mailboxId rawKey : String)
  | outbound (messageId mailboxId : String)

/-! ### The order of activity -/

/-- `ORDER BY occurred_at ASC, id ASC` -/
def oldestFirst (a b : MessageRow) : Prop :=
  a.occurred_at < b.occurred_at ∨ (a.occurred_at = b.occurred_at ∧ a.id ≤ b.id)

/-- `ORDER BY occurred_at DESC, id DESC` -/
def newestFirst (a b : MessageRow) : Prop := oldestFirst b a

instance : DecidableRel oldestFirst := fun _ _ => inferInstanceAs (Decidable (_ ∨ _))

instance : DecidableRel newestFirst := fun a b => inferInstanceAs (Decidable (oldestFirst b a))

/-- `occurred_at > ? OR (occurred_at = ? AND id > ?)` -/
def PageCursor.passedUp (cursor : PageCursor) (m : MessageRow) : Bool :=
  cursor.at < m.occurred_at || (m.occurred_at = cursor.at && cursor.id < m.id)

/-- `occurred_at < ? OR (occurred_at = ? AND id < ?)` -/
def PageCursor.passedDown (cursor : PageCursor) (m : MessageRow) : Bool :=
  m.occurred_at < cursor.at || (m.occurred_at = cursor.at && m.id < cursor.id)

/-- `scope !== "all" && scope.length === 0` -/
def MailboxScope.isEmpty : MailboxScope → Bool
  | .all => false
  | .only mailboxIds => mailboxIds.isEmpty

def emptyMessagePage : MessageSummaryPage where
  items := []
  nextCursor := none

def nextMessageCursor (lookahead pageRows : List MessageRow) (limit : Nat) : Option PageCursor :=
  match pageRows.getLast? with
  | none => none
  | some last =>
    if lookahead.length ≤ limit then none
    else some { «at» := last.occurred_at, id := last.id }

def enrichMessageSummaries (s : Store) (rows : List MessageRow) :
    Except StoreError (List MessageSummary) :=
  rows.mapM (enrichMessageSummary s)

/-! ### Messages -/

/-- The `WHERE` of `selectMessageSummaryRows`. -/
def ListMessageSummariesQuery.matches (query : ListMessageSummariesQuery) (m : MessageRow) : Bool :=
  m.liveIn query.mailboxScope &&
    query.direction.all (m.direction = ·) &&
    query.addressId.all (m.mailbox_id = ·) &&
    query.since.all (· ≤ m.occurred_at) &&
    (query.unread ≠ some true || (m.direction = .inbound && !m.is_read)) &&
    query.cursor.all (·.passedDown m)

def selectMessageSummaryRows (s : Store) (query : ListMessageSummariesQuery) (limit : Nat) :
    List MessageRow :=
  ((s.messages.select query.matches).insertionSort newestFirst).take limit

def listMessageSummaries (s : Store) (query : ListMessageSummariesQuery) :
    Except StoreError MessageSummaryPage :=
  if query.mailboxScope.isEmpty then .ok emptyMessagePage
  else if query.addressId.any fun addressId => !mailboxInScope addressId query.mailboxScope then
    .ok emptyMessagePage
  else
    let limit := pageLimit query.limit
    let lookahead := selectMessageSummaryRows s query (limit + 1)
    let pageRows := lookahead.take limit
    (enrichMessageSummaries s pageRows).map fun items =>
      { items, nextCursor := nextMessageCursor lookahead pageRows limit }

/-! ### The messages of one thread -/

/-- The `WHERE` of `threadMessagesSql`. -/
def ListThreadMessageSummariesQuery.matches (query : ListThreadMessageSummariesQuery)
    (threadId : String) (m : MessageRow) : Bool :=
  m.thread_id = threadId && m.liveIn query.mailboxScope && query.cursor.all (·.passedUp m)

def selectThreadMessages (s : Store) (threadId : String)
    (query : ListThreadMessageSummariesQuery) (limit : Nat) : List MessageRow :=
  ((s.messages.select (query.matches threadId)).insertionSort oldestFirst).take limit

def listThreadMessageSummaries (s : Store) (handle : String)
    (query : ListThreadMessageSummariesQuery) : Except StoreError ThreadMessageSummaryPage := do
  let limit := pageLimit query.limit
  let threadId ← resolveThread s handle query.mailboxScope
  let lookahead := selectThreadMessages s threadId query (limit + 1)
  let pageRows := lookahead.take limit
  let items ← enrichMessageSummaries s pageRows
  return { threadId, items, nextCursor := nextMessageCursor lookahead pageRows limit }

/-! ### Threads -/

/-- No live message of the thread in scope is newer. -/
def isThreadHead (s : Store) (scope : MailboxScope) (m : MessageRow) : Bool :=
  !s.messages.rows.any fun n => n.thread_id = m.thread_id && n.liveIn scope &&
    ((m.occurred_at < n.occurred_at) || (n.occurred_at = m.occurred_at && m.id < n.id))

def selectThreadHeads (s : Store) (query : ListThreadSummariesQuery) (limit : Nat) :
    List MessageRow :=
  ((s.messages.select fun m => m.liveIn query.mailboxScope &&
      isThreadHead s query.mailboxScope m && query.cursor.all (·.passedDown m)).insertionSort
    newestFirst).take limit

structure ThreadStats where
  message_count : Nat
  unread_count : Nat
  /-- `GROUP_CONCAT(DISTINCT mailbox_id)` -/
  involved_mailbox_ids : Option String

/-- The row of `loadThreadStats` for one thread; a thread without a live
    message in scope has no row. -/
def threadStats (s : Store) (scope : MailboxScope) (threadId : String) : Option ThreadStats :=
  -- a group is read in the order of `messages_thread_idx (thread_id, occurred_at, id)`
  match (s.messages.select fun m => m.thread_id = threadId && m.liveIn scope).insertionSort
    oldestFirst with
  | [] => none
  | members => some {
      message_count := members.length
      unread_count := (members.filter fun m => m.direction = .inbound && !m.is_read).length
      involved_mailbox_ids :=
        some (",".intercalate (keepFirst id [] (members.map (·.mailbox_id)))) }

def splitGroupConcat : Option String → List String
  | none => []
  | some value =>
    if value.toList.isEmpty then [] else (value.toList.splitOn ',').map String.ofList

/-- One item of `enrichThreadSummaries`. -/
def enrichThreadSummary (s : Store) (scope : MailboxScope) (head : MessageRow) : ThreadSummary :=
  let stats := threadStats s scope head.thread_id
  let participants := loadParticipants s head.id
  { threadId := head.thread_id
    subject := head.subject
    latestSender := participants.from.head?
    latestRecipients := participants.to
    unreadCount := (stats.map (·.unread_count)).getD 0
    messageCount := (stats.map (·.message_count)).getD 0
    involvedMailboxIdentities :=
      (splitGroupConcat (stats.bind (·.involved_mailbox_ids))).filterMap (resolveSendingIdentity s)
    lastActivityAt := head.occurred_at }

def listThreadSummaries (s : Store) (query : ListThreadSummariesQuery) :
    Except StoreError ThreadSummaryPage :=
  if query.mailboxScope.isEmpty then .ok { items := [], nextCursor := none }
  else
    let limit := pageLimit query.limit
    let lookahead := selectThreadHeads s query (limit + 1)
    let heads := lookahead.take limit
    .ok {
      items := heads.map (enrichThreadSummary s query.mailboxScope)
      nextCursor := nextMessageCursor lookahead heads limit }

/-! ### Outbound jobs -/

/-- `ORDER BY j.created_at DESC, j.id DESC` -/
def newestJobFirst (a b : JoinedJob) : Prop :=
  b.row.created_at < a.row.created_at ∨
    (b.row.created_at = a.row.created_at ∧ b.row.id ≤ a.row.id)

instance : DecidableRel newestJobFirst := fun _ _ => inferInstanceAs (Decidable (_ ∨ _))

/-- `j.created_at < ? OR (j.created_at = ? AND j.id < ?)` -/
def PageCursor.passedDownJob (cursor : PageCursor) (j : OutboundJobRow) : Bool :=
  j.created_at < cursor.at || (j.created_at = cursor.at && j.id < cursor.id)

/-- `j.requester_kind = 'mcp' AND j.requester_client_id = ?`, unless the
    viewer is the operator. -/
def JobViewer.sees (j : OutboundJobRow) : JobViewer → Bool
  | .operator => true
  | .mcp clientId => j.requester_kind = .mcp && j.requester_client_id = clientId

/-- The `WHERE` of `listOutboundJobs`. -/
def ListOutboundJobsQuery.matches (query : ListOutboundJobsQuery) (j : OutboundJobRow) : Bool :=
  query.viewer.sees j && query.cursor.all (·.passedDownJob j)

/-- `JOIN messages m ON m.id = j.message_id` -/
def joinMessage (s : Store) (j : OutboundJobRow) : Option JoinedJob :=
  (s.messages.find? (·.id = j.message_id)).map fun m => { row := j, thread_id := m.thread_id }

def selectOutboundJobs (s : Store) (query : ListOutboundJobsQuery) (limit : Nat) :
    List JoinedJob :=
  (((s.jobs.select query.matches).filterMap (joinMessage s)).insertionSort
    newestJobFirst).take limit

def listOutboundJobs (s : Store) (query : ListOutboundJobsQuery) : OutboundJobPage :=
  let limit := pageLimit query.limit
  let rows := selectOutboundJobs s query (limit + 1)
  let pageRows := rows.take limit
  { items := pageRows.map toOutboundJob
    nextCursor :=
      match pageRows.getLast? with
      | none => none
      | some last =>
        if rows.length ≤ limit then none
        else some { «at» := last.row.created_at, id := last.row.id } }

/-! ### Sources -/

def getMessageSource (s : Store) (messageId : String) (scope : MailboxScope) :
    Except StoreError (Option StoredMessageSource) :=
  match s.messages.find? (·.id = messageId) with
  | none => .ok none
  | some m =>
    if m.liveIn scope then
      match m.direction with
      | .outbound => .ok (some (.outbound m.id m.mailbox_id))
      | .inbound =>
        match s.receipts.find? (·.id = m.id) with
        | none => .error (.receiptMissing m.id)
        | some receipt => .ok (some (.inbound m.id m.mailbox_id receipt.raw_key))
    else .ok none

end Umail
