import Umail.Account.Coupling
import Umail.Account.Listing
import Umail.Account.Receipts
import Umail.Account.ThreadInvariant

/-! # Reads never fail

  The reads require rows that no foreign key of the schema guarantees: an
  outbound message has its job, an inbound one its receipt. Every writer keeps
  these links, so no read of a reachable store meets an integrity error.
-/

namespace Umail

open Relational

section reads
variable [Unicode] {s s' : Store}

/-! ### What stands behind a message -/

/-- An outbound message has its job, an inbound one its receipt. -/
structure Store.Backed (s : Store) : Prop where
  outbound : ∀ m ∈ s.messages, m.direction = .outbound →
    ∃ j ∈ s.jobs, j.purpose = .message ∧ j.message_id = m.id
  inbound : ∀ m ∈ s.messages, m.direction = .inbound → ∃ r ∈ s.receipts, r.id = m.id

theorem Store.Backed.empty : Store.empty.Backed where
  outbound := fun _ h => absurd h Table.mem_empty
  inbound := fun _ h => absurd h Table.mem_empty

/-- The job of a message is still there after a command. -/
theorem job_of_message_exec (c : Command) {messageId : String}
    (h : ∃ j ∈ s.jobs, j.purpose = .message ∧ j.message_id = messageId) :
    ∃ j ∈ (s.exec c).jobs, j.purpose = .message ∧ j.message_id = messageId := by
  obtain ⟨j, hj, hpurpose, hmessage⟩ := h
  obtain ⟨j', hj', hmove⟩ := (exec_step s c).jobs.exists_mem hj
  refine ⟨j', hj', ?_⟩
  rw [hmove.request]
  exact ⟨hpurpose, hmessage⟩

theorem receipt_exec (c : Command) {id : String} (h : ∃ r ∈ s.receipts, r.id = id) :
    ∃ r ∈ (s.exec c).receipts, r.id = id := by
  obtain ⟨r, hr, rfl⟩ := h
  obtain ⟨r', hr', hmove⟩ := (exec_receipts s c).exists_mem hr
  exact ⟨r', hr', hmove.evolves.id_eq⟩

/-- What stands behind the messages that are already stored. -/
theorem Store.Backed.exec_of_new (hs : s.Backed) {c : Command} {N : MessageRow → Prop}
    (hmessages : s.messages.Extends MessageRow.Evolves N (s.exec c).messages)
    (houtbound : ∀ m, N m → m.direction = .outbound →
      ∃ j ∈ (s.exec c).jobs, j.purpose = .message ∧ j.message_id = m.id)
    (hinbound : ∀ m, N m → m.direction = .inbound → ∃ r ∈ (s.exec c).receipts,
      r.id = m.id) :
    (s.exec c).Backed where
  outbound := by
    intro m' hm' hdirection
    -- an old message keeps its job, a new one brings its own
    rcases hmessages.mem_cases hm' with ⟨m, hm, hev⟩ | hnew
    · rw [hev.direction_eq] at hdirection
      rw [hev.id_eq]
      exact job_of_message_exec c (hs.outbound m hm hdirection)
    · exact houtbound m' hnew hdirection
  inbound := by
    intro m' hm' hdirection
    rcases hmessages.mem_cases hm' with ⟨m, hm, hev⟩ | hnew
    · rw [hev.direction_eq] at hdirection
      rw [hev.id_eq]
      exact receipt_exec c (hs.inbound m hm hdirection)
    · exact hinbound m' hnew hdirection

theorem Store.Backed.exec (hs : s.Backed) (c : Command) : (s.exec c).Backed := by
  by_cases hw : c.writesMail = false
  · exact hs.exec_of_new (exec_noNewMail s hw).messages (fun _ => False.elim) fun _ => False.elim
  cases c with
  | submitOutbound input ids =>
    have hshow : s.exec (.submitOutbound input ids) =
      committedSnd s (submitOutbound s input ids) := rfl
    rcases committedSnd_cases (s := s) (r := submitOutbound s input ids) with
      heq | ⟨r, s', hok, heq⟩
    · rwa [hshow, heq]
    · rcases submitOutbound_ok hok with ⟨rfl, -⟩ | ⟨-, identity, fromAddress, _, hsub, -⟩
      · rwa [hshow, heq]
      · -- the message and its job are inserted together
        refine hs.exec_of_new (exec_newMail s _).1 ?_ ?_
        · intro m hm _
          rw [hshow, heq]
          exact ⟨_, hsub.job_mem, rfl, hm.1.symm⟩
        · intro m hm hdirection
          exact absurd (hm.2.symm.trans hdirection) (by simp)
  | acceptInbound input =>
    have hshow : s.exec (.acceptInbound input) = committedSnd s (acceptInbound s input) := rfl
    rcases committedSnd_cases (s := s) (r := acceptInbound s input) with heq | ⟨r, s', hok, heq⟩
    · rwa [hshow, heq]
    · rcases acceptInbound_ok hok with rfl | ⟨receipt, hreceipt, hid, -⟩
      · rwa [hshow, heq]
      · -- a message is only accepted for its receipt
        refine hs.exec_of_new (exec_newMail s _).1 ?_ ?_
        · intro m hm hdirection
          exact absurd (hm.2.symm.trans hdirection) (by simp)
        · intro m hm _
          exact receipt_exec _ ⟨receipt, hreceipt, hid.trans hm.1.symm⟩
  | _ => exact absurd rfl hw

theorem Store.Reachable.backed (h : s.Reachable) : s.Backed := by
  refine h.invariant ?_ ?_
  · intro s₀ heq
    obtain rfl := heq
    exact .empty
  · intro s c s' _ hs hstep
    obtain rfl := Option.some.inj hstep
    exact hs.exec c

/-! ### Summaries -/

theorem loadOutboundJob_isSome {messageId : String}
    (h : ∃ j ∈ s.jobs, j.purpose = .message ∧ j.message_id = messageId) :
    ∃ job, loadOutboundJob s messageId = some job := by
  obtain ⟨j, hj, hpurpose, hmessage⟩ := h
  have hmem : j ∈ s.jobs.select fun j => j.message_id = messageId && j.purpose = .message :=
    Table.mem_select.mpr ⟨hj, by simp [hpurpose, hmessage]⟩
  unfold loadOutboundJob
  cases hlast :
    (s.jobs.select fun j => j.message_id = messageId && j.purpose = .message).getLast? with
  | none => exact absurd (List.getLast?_eq_none_iff.mp hlast ▸ hmem) List.not_mem_nil
  | some last => exact ⟨_, rfl⟩

theorem receipt_isSome {id : String} (h : ∃ r ∈ s.receipts, r.id = id) :
    ∃ r ∈ s.receipts, r.id = id ∧ s.receipts.find? (·.id = id) = some r := by
  obtain ⟨r, hr, rfl⟩ := h
  exact ⟨r, hr, rfl, readInboundReceipt_mem hr⟩

theorem summaryDirection_isOk (hs : s.Backed) {m : MessageRow} (hm : m ∈ s.messages) :
    ∃ direction, summaryDirection s m = .ok direction := by
  unfold summaryDirection
  cases hdirection : m.direction with
  | inbound =>
    obtain ⟨r, -, -, hfind⟩ := receipt_isSome (hs.inbound m hm hdirection)
    exact ⟨_, by rw [hfind]⟩
  | outbound =>
    obtain ⟨job, hjob⟩ := loadOutboundJob_isSome (hs.outbound m hm hdirection)
    exact ⟨_, by rw [hjob]⟩

theorem enrichMessageSummary_isOk (hs : s.Backed) {m : MessageRow} (hm : m ∈ s.messages) :
    ∃ summary, enrichMessageSummary s m = .ok summary := by
  obtain ⟨direction, hdirection⟩ := summaryDirection_isOk hs hm
  unfold enrichMessageSummary
  rw [hdirection]
  exact ⟨_, rfl⟩

theorem enrichMessageSummaries_isOk (hs : s.Backed) {l : List MessageRow}
    (h : ∀ m ∈ l, m ∈ s.messages) : ∃ items, enrichMessageSummaries s l = .ok items := by
  unfold enrichMessageSummaries
  induction l with
  | nil => exact ⟨[], rfl⟩
  | cons m l ih =>
    obtain ⟨summary, hsummary⟩ := enrichMessageSummary_isOk hs (h m List.mem_cons_self)
    obtain ⟨items, hitems⟩ := ih fun m hm => h m (List.mem_cons_of_mem _ hm)
    refine ⟨summary :: items, ?_⟩
    rw [List.mapM_cons, hsummary]
    show (l.mapM (enrichMessageSummary s) >>= _) = _
    rw [hitems]
    rfl

/-! ### Every read -/

/-- A page holds stored messages that its query matches. -/
theorem mem_page {order : MessageRow → MessageRow → Prop} [DecidableRel order]
    {p : MessageRow → Bool} {m : MessageRow} {limit limit' : Nat}
    (h : m ∈ (((s.messages.select p).insertionSort order).take limit).take limit') :
    m ∈ s.messages ∧ p m = true := by
  have hsorted := List.mem_of_mem_take (List.mem_of_mem_take h)
  exact Table.mem_select.mp ((List.mem_insertionSort _).mp hsorted)

theorem listMessageSummaries_isOk (hs : s.Backed) (query : ListMessageSummariesQuery) :
    ∃ page, listMessageSummaries s query = .ok page := by
  unfold listMessageSummaries
  split
  · exact ⟨_, rfl⟩
  split
  · exact ⟨_, rfl⟩
  obtain ⟨items, hitems⟩ := enrichMessageSummaries_isOk hs
    (l := (selectMessageSummaryRows s query (pageLimit query.limit + 1)).take
      (pageLimit query.limit)) fun m hm => (mem_page hm).1
  simp only [hitems]
  exact ⟨_, rfl⟩

theorem listThreadMessageSummaries_isOk (hs : s.Backed) (handle : String)
    (query : ListThreadMessageSummariesQuery) :
    (∃ page, listThreadMessageSummaries s handle query = .ok page) ∨
      listThreadMessageSummaries s handle query = .error (.threadNotFound handle) := by
  unfold listThreadMessageSummaries resolveThread
  split
  · exact .inr rfl
  · next m hm =>
    set lookahead := selectThreadMessages s m.thread_id query (pageLimit query.limit + 1)
    set pageRows := lookahead.take (pageLimit query.limit)
    obtain ⟨items, hitems⟩ := enrichMessageSummaries_isOk hs
      (l := pageRows) fun m hm => (mem_page hm).1
    refine .inl ⟨{
      threadId := m.thread_id
      items
      nextCursor := nextMessageCursor lookahead pageRows (pageLimit query.limit) }, ?_⟩
    show (enrichMessageSummaries s _ >>= _) = _
    rw [hitems]
    rfl

/-- The message that a read of one summary shows. -/
theorem getMessageSummary_live {m : MessageRow} {scope : MailboxScope} (hm : m ∈ s.messages)
    (hlive : m.liveIn scope = true) :
    getMessageSummary s m.id scope = (enrichMessageSummary s m).map some := by
  simp only [MessageRow.liveIn, Bool.and_eq_true] at hlive
  have hfind : (s.messages.find? fun n => n.id = m.id && n.deleted_at.isNone) = some m := by
    refine Table.find?_eq_some_of_mem (fun a b ha hb => ?_) hm (by simp [hlive.1])
    simp only [Bool.and_eq_true, decide_eq_true_eq] at ha hb
    exact ha.1.trans hb.1.symm
  simp only [getMessageSummary, hfind, hlive.2, if_true]

theorem getMessageSummary_isOk (hs : s.Backed) (messageId : String) (scope : MailboxScope) :
    ∃ r, getMessageSummary s messageId scope = .ok r := by
  unfold getMessageSummary
  split
  · exact ⟨none, rfl⟩
  · next m hm =>
    split
    · obtain ⟨summary, hsummary⟩ := enrichMessageSummary_isOk hs (Table.find?_mem hm)
      exact ⟨some summary, by rw [hsummary]; rfl⟩
    · exact ⟨none, rfl⟩

/-- The source of an inbound message is the raw object of its receipt. -/
theorem getMessageSource_inbound {m : MessageRow} {r : InboundReceiptRow} (hm : m ∈ s.messages)
    (hdirection : m.direction = .inbound) (hr : r ∈ s.receipts) (hid : r.id = m.id)
    {scope : MailboxScope} (hlive : m.liveIn scope = true) :
    getMessageSource s m.id scope = .ok (some (.inbound m.id m.mailbox_id r.raw_key)) := by
  have hfind : s.receipts.find? (·.id = m.id) = some r := by
    rw [← hid]
    exact readInboundReceipt_mem hr
  simp only [getMessageSource, find_message hm, hlive, if_true, hdirection, hfind]

theorem getMessageSource_isOk (hs : s.Backed) (messageId : String) (scope : MailboxScope) :
    ∃ r, getMessageSource s messageId scope = .ok r := by
  cases hfind : s.messages.find? (·.id = messageId) with
  | none => exact ⟨none, by simp only [getMessageSource, hfind]⟩
  | some m =>
    have hm := Table.find?_mem hfind
    by_cases hlive : m.liveIn scope = true
    · cases hdirection : m.direction with
      | outbound =>
        exact ⟨some (.outbound m.id m.mailbox_id), by
          simp only [getMessageSource, hfind, hlive, if_true, hdirection]⟩
      | inbound =>
        obtain ⟨r, hr, hid⟩ := hs.inbound m hm hdirection
        have hmid : m.id = messageId := by simpa using Table.find?_prop hfind
        exact ⟨_, hmid ▸ getMessageSource_inbound hm hdirection hr hid hlive⟩
    · exact ⟨none, by simp [getMessageSource, hfind, hlive]⟩

/-- A job that is read has its message, so its content is there to send. -/
theorem readDispatch_isOk (s : Store) (jobId : String) : ∃ r, readDispatch s jobId = .ok r := by
  unfold readDispatch
  cases hread : readJob s jobId with
  | none => exact ⟨none, rfl⟩
  | some j =>
    obtain ⟨-, -, m, hm, hid, -⟩ := readJob_some hread
    have hfind : s.messages.find? (·.id = j.row.message_id) = some m := by
      rw [← hid]
      exact find_message hm
    simp only [hfind]
    exact ⟨_, rfl⟩

theorem Store.Reachable.one_message_job (hr : s.Reachable) {m : MessageRow} (hm : m ∈ s.messages)
    (hdirection : m.direction = .outbound) :
    ∃! j, j ∈ s.jobs ∧ j.purpose = .message ∧ j.message_id = m.id := by
  obtain ⟨j, hj, hpurpose, hmessage⟩ := hr.backed.outbound m hm hdirection
  refine ⟨j, ⟨hj, hpurpose, hmessage⟩, ?_⟩
  intro k ⟨hk, hkpurpose, hkmessage⟩
  have hid := hr.coupled.message_job k hk j hj hkpurpose hpurpose (hkmessage.trans hmessage.symm)
  exact s.jobs.eq_of_clash hk hj (.inl hid)

/-- Every thread id names a stored message that founds its own thread. -/
theorem Store.Threaded.root (hs : s.Threaded) {m : MessageRow} (hm : m ∈ s.messages) :
    ∃ f ∈ s.messages, f.id = m.thread_id ∧ f.thread_id = f.id := by
  obtain ⟨f, hf, hid, hlinked, -⟩ := hs.founder hm
  exact ⟨f, hf, hid, ((hs.thread_eq_iff hm hf).mpr hlinked).symm.trans hid.symm⟩

/-- **Reads never hit an integrity error.** Behind every message of a reachable
    store stand its one job or its receipt, behind every job its message and
    behind every thread its founder. So every read succeeds, whatever its
    scope, filter or cursor; a handle may name no visible thread. -/
theorem reads_never_fail (hr : s.Reachable) :
    (∀ m ∈ s.messages, m.direction = .outbound →
      ∃! j, j ∈ s.jobs ∧ j.purpose = .message ∧ j.message_id = m.id) ∧
    (∀ m ∈ s.messages, m.direction = .inbound → ∃ r ∈ s.receipts, r.id = m.id ∧
      ∀ scope, m.liveIn scope = true →
        getMessageSource s m.id scope = .ok (some (.inbound m.id m.mailbox_id r.raw_key))) ∧
    (∀ j ∈ s.jobs, ∃ m ∈ s.messages, m.id = j.message_id) ∧
    (∀ m ∈ s.messages, ∃ f ∈ s.messages, f.id = m.thread_id ∧ f.thread_id = f.id) ∧
    (∀ query, ∃ page, listMessageSummaries s query = .ok page) ∧
    (∀ query, ∃ page, listThreadSummaries s query = .ok page) ∧
    (∀ handle query, (∃ page, listThreadMessageSummaries s handle query = .ok page) ∨
      listThreadMessageSummaries s handle query = .error (.threadNotFound handle)) ∧
    (∀ messageId scope, ∃ r, getMessageSummary s messageId scope = .ok r) ∧
    (∀ messageId scope, ∃ r, getMessageSource s messageId scope = .ok r) ∧
    (∀ jobId, ∃ r, readDispatch s jobId = .ok r) := by
  have hs := hr.backed
  refine ⟨fun m hm hdirection => hr.one_message_job hm hdirection, ?_, ?_,
    fun m hm => (Store.Reachable.threaded hr).root hm, listMessageSummaries_isOk hs, ?_,
    listThreadMessageSummaries_isOk hs, getMessageSummary_isOk hs, getMessageSource_isOk hs,
    readDispatch_isOk s⟩
  · -- an inbound message has its receipt, which says where its source is
    intro m hm hdirection
    obtain ⟨r, hrec, hid⟩ := hs.inbound m hm hdirection
    exact ⟨r, hrec, hid, fun scope => getMessageSource_inbound hm hdirection hrec hid⟩
  · intro j hj
    obtain ⟨m, hm, hid, -⟩ := hr.referential.jobs j hj
    exact ⟨m, hm, hid⟩
  · intro query
    unfold listThreadSummaries
    split <;> exact ⟨_, rfl⟩

end reads

section sample
open Sample

/-- A message that waits for its approval, and one that came in. -/
def mixedStore : Store := receive waitingStore "in_a" "mailbox-1" 1100 (some "<a@x>") none none

theorem mixedStore_reachable : mixedStore.Reachable := receive_reachable waitingStore_reachable

/-- The sent message has its job and the received one its source; the jobs,
    threads and pages of both are read. -/
theorem reads_never_fail_mixed :
    (∃! j, j ∈ mixedStore.jobs ∧ j.purpose = .message ∧ j.message_id = "message-1") ∧
    getMessageSource mixedStore "in_a" .all =
      .ok (some (.inbound "in_a" "mailbox-1" "raw/1.eml")) ∧
    (∃ j ∈ mixedStore.jobs, j.purpose = .approval_notification ∧
      ∃ m ∈ mixedStore.messages, m.id = j.message_id) ∧
    (∀ messageId ∈ ["message-1", "in_a"], (∃ f ∈ mixedStore.messages, f.thread_id = f.id ∧
        ∃ m ∈ mixedStore.messages, m.id = messageId ∧ f.id = m.thread_id) ∧
      (∃ r, getMessageSummary mixedStore messageId .all = .ok r) ∧
      ∃ r, getMessageSource mixedStore messageId .all = .ok r) ∧
    (∀ query, ∃ page, listMessageSummaries mixedStore query = .ok page) ∧
    (∀ query, ∃ page, listThreadSummaries mixedStore query = .ok page) ∧
    (∀ query, (∃ page, listThreadMessageSummaries mixedStore "in_z" query = .ok page) ∨
      listThreadMessageSummaries mixedStore "in_z" query = .error (.threadNotFound "in_z")) ∧
    ∀ jobId ∈ ["job-1", "notification-1"], ∃ r, readDispatch mixedStore jobId = .ok r := by
  obtain ⟨hsent, hreceived, hjobs, hthreads, hlisted, hheads, hopened, hsummary, hsource,
    hdispatch⟩ := reads_never_fail mixedStore_reachable
  have hmessages : mixedStore.messages.rows.map (fun m => (m.id, m.direction)) =
      [("message-1", .outbound), ("in_a", .inbound)] := by decide +kernel
  obtain ⟨sent, hsentmem, hsentid, hout⟩ := message_of_rows hmessages List.mem_cons_self
  obtain ⟨received, hreceivedmem, hreceivedid, hin⟩ := message_of_rows hmessages
    (List.mem_cons_of_mem _ List.mem_cons_self)
  refine ⟨hsentid ▸ hsent sent hsentmem hout, ?_, ?_, ?_, hlisted, hheads, hopened "in_z",
    fun jobId _ => hdispatch jobId⟩
  · obtain ⟨r, hr, -, hread⟩ := hreceived received hreceivedmem hin
    have hlive : mixedStore.messages.rows.all
        (fun m => m.liveIn .all && m.mailbox_id = "mailbox-1") = true := by decide +kernel
    have hraw : mixedStore.receipts.rows.all (·.raw_key = "raw/1.eml") = true := by
      decide +kernel
    have hrow := List.all_eq_true.mp hlive received hreceivedmem
    simp only [Bool.and_eq_true, decide_eq_true_eq] at hrow
    have hread := hread .all hrow.1
    rwa [hreceivedid, hrow.2, of_decide_eq_true (List.all_eq_true.mp hraw r hr)] at hread
  · have hnotice : mixedStore.jobs.rows.any (·.purpose = .approval_notification) = true := by
      decide +kernel
    obtain ⟨j, hj, hpurpose⟩ := List.any_eq_true.mp hnotice
    exact ⟨j, hj, of_decide_eq_true hpurpose, hjobs j hj⟩
  · intro messageId hid
    refine ⟨?_, hsummary messageId .all, hsource messageId .all⟩
    have hm : ∃ m ∈ mixedStore.messages, m.id = messageId := by
      rcases List.mem_cons.mp hid with rfl | hid
      · exact ⟨sent, hsentmem, hsentid⟩
      · rw [List.mem_singleton.mp hid]
        exact ⟨received, hreceivedmem, hreceivedid⟩
    obtain ⟨m, hm, hmid⟩ := hm
    obtain ⟨f, hf, hfid, hroot⟩ := hthreads m hm
    exact ⟨f, hf, hroot, m, hm, hmid, hfid⟩

end sample

end Umail
