import Umail.Framework.Components
import Umail.Account.Evolution

/-! # Threads are connected components

  The graph of a store has its message ids as vertices; two of them are
  adjacent when both messages contribute a common Message-ID. `Threaded` says
  that `thread_id` names the oldest message of each component. The link
  query asks for one other holder of each Message-ID; since two other holders
  are adjacent already, one is enough.
-/

namespace Umail

open Relational Components

/-! ### The founder order -/

theorem founderOrder_refl (m : MessageRow) : founderOrder m m := .inr ⟨rfl, le_refl _⟩

theorem founderOrder_trans {a b c : MessageRow} (h : founderOrder a b) (h' : founderOrder b c) :
    founderOrder a c := by
  rcases h with hlt | ⟨heq, hid⟩
  · rcases h' with hlt' | ⟨heq', -⟩
    · exact .inl (hlt.trans hlt')
    · exact .inl (heq' ▸ hlt)
  · rcases h' with hlt' | ⟨heq', hid'⟩
    · exact .inl (heq ▸ hlt')
    · exact .inr ⟨heq.trans heq', hid.trans hid'⟩

theorem founderOrder_antisymm {a b : MessageRow} (h : founderOrder a b)
    (h' : founderOrder b a) : a.id = b.id := by
  rcases h with hlt | ⟨heq, hid⟩
  · rcases h' with hlt' | ⟨heq', -⟩
    · exact absurd (hlt.trans hlt') (lt_irrefl _)
    · exact absurd (heq' ▸ hlt) (lt_irrefl _)
  · rcases h' with hlt' | ⟨-, hid'⟩
    · exact absurd (heq ▸ hlt') (lt_irrefl _)
    · exact le_antisymm hid hid'

theorem founderOrder_total (a b : MessageRow) : founderOrder a b ∨ founderOrder b a := by
  rcases Nat.lt_trichotomy a.created_at b.created_at with hlt | heq | hgt
  · exact .inl (.inl hlt)
  · rcases le_total a.id b.id with hid | hid
    · exact .inl (.inr ⟨heq, hid⟩)
    · exact .inr (.inr ⟨heq.symm, hid⟩)
  · exact .inr (.inl hgt)

/-! ### Assigning a Message-ID -/

section assigning
variable {messageId : String} {rfcMessageId : NormalizedRfcMessageId} {nowIso : Instant}

/-- The row `assignRfcMessageId` leaves of a message. -/
def assigned (messageId : String) (rfcMessageId : NormalizedRfcMessageId) (nowIso : Instant)
    (m : MessageRow) : MessageRow :=
  if m.id = messageId && m.rfc_message_id.isNone then
    { m with rfc_message_id := some rfcMessageId, updated_at := some nowIso }
  else m

theorem assigned_thread_id (m : MessageRow) :
    (assigned messageId rfcMessageId nowIso m).thread_id = m.thread_id := by
  unfold assigned
  split <;> rfl

theorem assigned_of_ne {m : MessageRow} (h : m.id ≠ messageId) :
    assigned messageId rfcMessageId nowIso m = m := by
  simp [assigned, h]

end assigning

section graph
variable [Unicode]

/-! ### The graph of a store -/

/-- The vertices. -/
def Store.messageIds (s : Store) : Set String := {id | ∃ m ∈ s.messages, m.id = id}

/-- The message contributes the Message-ID `value`. -/
def Store.Holds (s : Store) (id : String) (value : NormalizedRfcMessageId) : Prop :=
  ∃ m ∈ s.messages, m.id = id ∧ value ∈ linkIds s m

/-- Neighbours share a Message-ID. -/
def Store.Shares (s : Store) (a b : String) : Prop := ∃ value, s.Holds a value ∧ s.Holds b value

/-- `(created_at, id)` of the one message is at most that of the other. -/
def Store.FoundedBefore (s : Store) (a b : String) : Prop :=
  ∃ m ∈ s.messages, ∃ n ∈ s.messages, m.id = a ∧ n.id = b ∧ founderOrder m n

/-- The current thread of a message id. -/
def Store.threadOf (s : Store) (id : String) : String :=
  ((s.messages.find? (·.id = id)).map (·.thread_id)).getD id

/-- `thread_id` names the oldest message of each component. -/
def Store.Threaded (s : Store) : Prop :=
  Rooted s.messageIds s.Shares s.FoundedBefore s.threadOf

variable {s s' : Store}

theorem threadOf_eq {m : MessageRow} (hm : m ∈ s.messages) : s.threadOf m.id = m.thread_id := by
  simp [Store.threadOf, find_message hm]

theorem holds_iff {m : MessageRow} {value : NormalizedRfcMessageId} (hm : m ∈ s.messages) :
    s.Holds m.id value ↔ value ∈ linkIds s m := by
  constructor
  · intro hex
    obtain ⟨n, hn, hid, hvalue⟩ := hex
    rwa [s.messages.eq_of_clash hn hm hid] at hvalue
  · exact fun hvalue => ⟨m, hm, rfl, hvalue⟩

theorem Store.Shares.symm (a b : String) (h : s.Shares a b) : s.Shares b a := by
  obtain ⟨value, ha, hb⟩ := h
  exact ⟨value, hb, ha⟩

theorem foundedBefore_trans (a b c : String) (h : s.FoundedBefore a b)
    (h' : s.FoundedBefore b c) : s.FoundedBefore a c := by
  obtain ⟨m, hm, n, hn, hma, hnb, hle⟩ := h
  obtain ⟨n', hn', o, ho, hn'b, hoc, hle'⟩ := h'
  obtain rfl := s.messages.eq_of_clash hn' hn (hn'b.trans hnb.symm)
  exact ⟨m, hm, o, ho, hma, hoc, founderOrder_trans hle hle'⟩

theorem foundedBefore_antisymm {a b : String} (h : s.FoundedBefore a b)
    (h' : s.FoundedBefore b a) : a = b := by
  obtain ⟨m, hm, n, hn, rfl, rfl, hle⟩ := h
  obtain ⟨n', hn', m', hm', hnid, hmid, hle'⟩ := h'
  rw [s.messages.eq_of_clash hn' hn hnid, s.messages.eq_of_clash hm' hm hmid] at hle'
  exact founderOrder_antisymm hle hle'

theorem mem_linkIds {m : MessageRow} {value : NormalizedRfcMessageId} :
    value ∈ linkIds s m ↔ m.rfc_message_id = some value ∨
      m.in_reply_to_rfc_message_id = some value ∨
      ∃ r ∈ s.references, r.message_id = m.id ∧ r.rfc_message_id = value := by
  simp [linkIds, and_assoc, eq_comm]

/-! ### The link query -/

theorem linkHolder_eq (self : MessageRow) (value : NormalizedRfcMessageId) :
    linkHolder s self value =
      ((s.messages.find? fun m => m.id ≠ self.id && m.rfc_message_id = some value).or
        ((s.messages.find? fun m =>
            m.id ≠ self.id && m.in_reply_to_rfc_message_id = some value).or
          (s.references.rows.findSome? fun r =>
            if r.rfc_message_id = value then
              s.messages.find? fun m => m.id = r.message_id && m.id ≠ self.id
            else none))) := by
  simp only [linkHolder, Option.orElse_eq_orElse, Option.orElse_eq_or]

/-- The holder it finds holds the Message-ID. -/
theorem linkHolder_sound {self h : MessageRow} {value : NormalizedRfcMessageId}
    (hh : linkHolder s self value = some h) :
    h ∈ s.messages ∧ h.id ≠ self.id ∧ value ∈ linkIds s h := by
  rw [linkHolder_eq, Option.or_eq_some_iff, Option.or_eq_some_iff] at hh
  rcases hh with hown | ⟨-, hreply | ⟨-, href⟩⟩
  · have hprop := Table.find?_prop hown
    simp only [Bool.and_eq_true, decide_eq_true_eq] at hprop
    exact ⟨Table.find?_mem hown, hprop.1, mem_linkIds.mpr (.inl hprop.2)⟩
  · have hprop := Table.find?_prop hreply
    simp only [Bool.and_eq_true, decide_eq_true_eq] at hprop
    exact ⟨Table.find?_mem hreply, hprop.1, mem_linkIds.mpr (.inr (.inl hprop.2))⟩
  · obtain ⟨r, hr, hfind⟩ := List.exists_of_findSome?_eq_some href
    split at hfind
    · next hvalue =>
      have hprop := Table.find?_prop hfind
      simp only [Bool.and_eq_true, decide_eq_true_eq] at hprop
      exact ⟨Table.find?_mem hfind, hprop.2,
        mem_linkIds.mpr (.inr (.inr ⟨r, hr, hprop.1.symm, hvalue⟩))⟩
    · exact absurd hfind (by simp)

/-- When another message holds the Message-ID, some holder is found. -/
theorem linkHolder_complete {self b : MessageRow} {value : NormalizedRfcMessageId}
    (hb : b ∈ s.messages) (hne : b.id ≠ self.id) (hvalue : value ∈ linkIds s b) :
    ∃ h, linkHolder s self value = some h := by
  rw [← Option.isSome_iff_exists, linkHolder_eq, Option.isSome_or, Option.isSome_or]
  rcases mem_linkIds.mp hvalue with hown | hreply | ⟨r, hr, hmsg, hid⟩
  · rw [Table.find?_isSome hb (by simp [hne, hown]), Bool.true_or]
  · rw [Table.find?_isSome hb (p := fun m =>
      m.id ≠ self.id && m.in_reply_to_rfc_message_id = some value) (by simp [hne, hreply])]
    simp
  · have hfind : ((s.messages.find? fun m => m.id = r.message_id && m.id ≠ self.id)).isSome =
        true := Table.find?_isSome hb (by simp [hne, hmsg])
    have hsome : (s.references.rows.findSome? fun r =>
        if r.rfc_message_id = value then
          s.messages.find? fun m => m.id = r.message_id && m.id ≠ self.id
        else none).isSome = true :=
      List.findSome?_isSome_iff.mpr ⟨r, hr, by simpa [hid] using hfind⟩
    rw [hsome]
    simp

/-- The threads of the message itself and of one other holder of each of its
    Message-IDs. -/
theorem mem_linkedThreads {self : MessageRow} {l : String} :
    l ∈ linkedThreads s self ↔ l = self.thread_id ∨
      ∃ value ∈ linkIds s self, ∃ h, linkHolder s self value = some h ∧
        h.thread_id = l := by
  simp [linkedThreads, List.mem_filterMap, Option.map_eq_some_iff]

/-- The founders are the messages named by the linked threads, oldest first. -/
theorem linkedFounders_cons {self survivor : MessageRow} {merged : List MessageRow}
    (h : linkedFounders s self = survivor :: merged) :
    (∀ m, m ∈ s.messages ∧ m.id ∈ linkedThreads s self ↔ m = survivor ∨
      m ∈ merged) ∧
      ∀ m ∈ merged, founderOrder survivor m := by
  have hperm := List.perm_insertionSort founderOrder
    (s.messages.select (·.id ∈ linkedThreads s self))
  have htotal : Std.Total founderOrder := ⟨founderOrder_total⟩
  have htrans : IsTrans MessageRow founderOrder := ⟨fun _ _ _ => founderOrder_trans⟩
  have hsorted := List.pairwise_insertionSort founderOrder
    (s.messages.select (·.id ∈ linkedThreads s self))
  unfold linkedFounders at h
  rw [h] at hperm hsorted
  refine ⟨fun m => ?_, (List.pairwise_cons.mp hsorted).1⟩
  rw [← List.mem_cons, hperm.mem_iff, Table.mem_select]
  simp

/-! ### Rewriting messages -/

/-- The messages are rewritten in place; ids and creation times are kept. -/
structure Rewritten (g : MessageRow → MessageRow) (s s' : Store) : Prop where
  rows : s'.messages.rows = s.messages.rows.map g
  id : ∀ m, (g m).id = m.id
  created_at : ∀ m, (g m).created_at = m.created_at

/-- The messages are rewritten in place without a change of the graph. -/
structure SameGraph (g : MessageRow → MessageRow) (s s' : Store) : Prop
    extends Rewritten g s s' where
  rfc_message_id : ∀ m, (g m).rfc_message_id = m.rfc_message_id
  in_reply_to : ∀ m, (g m).in_reply_to_rfc_message_id = m.in_reply_to_rfc_message_id
  references : s'.references = s.references

section rewriting
variable {g : MessageRow → MessageRow}

theorem Rewritten.mem (h : Rewritten g s s') {m' : MessageRow} :
    m' ∈ s'.messages ↔ ∃ m ∈ s.messages, g m = m' := Table.mem_of_map h.rows

theorem Rewritten.messageIds (h : Rewritten g s s') : s'.messageIds = s.messageIds := by
  ext id
  constructor
  · intro hex
    obtain ⟨m', hm', rfl⟩ := hex
    obtain ⟨m, hm, rfl⟩ := h.mem.mp hm'
    exact ⟨m, hm, (h.id m).symm⟩
  · intro hex
    obtain ⟨m, hm, rfl⟩ := hex
    exact ⟨g m, h.mem.mpr ⟨m, hm, rfl⟩, h.id m⟩

theorem Rewritten.foundedBefore (h : Rewritten g s s') {a b : String}
    (hle : s.FoundedBefore a b) : s'.FoundedBefore a b := by
  obtain ⟨m, hm, n, hn, rfl, rfl, hle⟩ := hle
  refine ⟨g m, h.mem.mpr ⟨m, hm, rfl⟩, g n, h.mem.mpr ⟨n, hn, rfl⟩, h.id m, h.id n, ?_⟩
  unfold founderOrder at hle ⊢
  rwa [h.created_at m, h.created_at n, h.id m, h.id n]

theorem Rewritten.threadOf (h : Rewritten g s s') {m : MessageRow} (hm : m ∈ s.messages) :
    s'.threadOf m.id = (g m).thread_id := by
  rw [← h.id m, threadOf_eq (h.mem.mpr ⟨m, hm, rfl⟩)]

theorem SameGraph.linkIds (h : SameGraph g s s') (m : MessageRow) :
    linkIds s' (g m) = linkIds s m := by
  simp only [Umail.linkIds, h.id m, h.rfc_message_id m, h.in_reply_to m, h.references]

theorem SameGraph.holds (h : SameGraph g s s') {id : String} {value : NormalizedRfcMessageId} :
    s'.Holds id value ↔ s.Holds id value := by
  constructor
  · intro hex
    obtain ⟨m', hm', rfl, hvalue⟩ := hex
    obtain ⟨m, hm, rfl⟩ := h.mem.mp hm'
    exact ⟨m, hm, (h.id m).symm, h.linkIds m ▸ hvalue⟩
  · intro hex
    obtain ⟨m, hm, rfl, hvalue⟩ := hex
    exact ⟨g m, h.mem.mpr ⟨m, hm, rfl⟩, h.id m, (h.linkIds m).symm ▸ hvalue⟩

theorem SameGraph.shares (h : SameGraph g s s') {a b : String} :
    s'.Shares a b ↔ s.Shares a b := by
  simp only [Store.Shares, h.holds]

/-- Rewriting that keeps the threads keeps the invariant. -/
theorem Store.Threaded.rewrite (hs : s.Threaded) (h : SameGraph g s s')
    (hthread : ∀ m ∈ s.messages, (g m).thread_id = m.thread_id) : s'.Threaded := by
  apply Rooted.congr hs h.messageIds (fun _ _ _ _ => h.shares) (fun _ _ => h.foundedBefore)
  intro _ hex
  obtain ⟨m, hm, rfl⟩ := hex
  rw [h.threadOf hm, hthread m hm, threadOf_eq hm]

/-- The invariant reads messages and references only. -/
theorem Store.Threaded.same (hs : s.Threaded) (hmessages : s'.messages = s.messages)
    (hreferences : s'.references = s.references) : s'.Threaded :=
  hs.rewrite (g := id) ⟨⟨by rw [hmessages, List.map_id], fun _ => rfl, fun _ => rfl⟩,
    fun _ => rfl, fun _ => rfl, hreferences⟩ fun _ _ => rfl

end rewriting

/-! ### Linking -/

/-- A linked thread is that of the message, or of one that shares a Message-ID with it. -/
theorem linkedThreads_neighbour {self : MessageRow} (hself : self ∈ s.messages) :
    ∀ l ∈ linkedThreads s self, ∃ a ∈ s.messageIds, s.threadOf a = l ∧
      (a = self.id ∨ s.Shares self.id a) := by
  intro l hl
  rcases mem_linkedThreads.mp hl with rfl | ⟨value, hvalue, n, hn, rfl⟩
  · exact ⟨self.id, ⟨self, hself, rfl⟩, threadOf_eq hself, .inl rfl⟩
  · obtain ⟨hnm, -, hvn⟩ := linkHolder_sound hn
    exact ⟨n.id, ⟨n, hnm, rfl⟩, threadOf_eq hnm,
      .inr ⟨value, ⟨self, hself, rfl, hvalue⟩, ⟨n, hnm, rfl, hvn⟩⟩⟩

/-- **One holder is enough.** When the threads are the components of a graph
    that lacks only edges at the message, linking it restores the invariant. -/
theorem linkThread_threaded {E : String → String → Prop} {messageId threadId : String}
    (hroot : Rooted s.messageIds E s.FoundedBefore s.threadOf)
    (hmono : ∀ a ∈ s.messageIds, ∀ b ∈ s.messageIds, E a b → s.Shares a b)
    (hold : ∀ a ∈ s.messageIds, ∀ b ∈ s.messageIds, a ≠ messageId → b ≠ messageId →
      s.Shares a b → E a b)
    (h : linkThread s messageId = .ok (threadId, s')) : s'.Threaded := by
  obtain ⟨self, hself, rfl, survivor, merged, hfounders, -, rfl⟩ := linkThread_ok h
  obtain ⟨hmem, hleast⟩ := linkedFounders_cons hfounders
  have hself_root : s.threadOf self.id = self.thread_id := threadOf_eq hself
  -- two messages other than `self` that hold one Message-ID are in one thread
  have hholder : ∀ m ∈ s.messages, ∀ n ∈ s.messages, m.id ≠ self.id →
      n.id ≠ self.id →
      ∀ value, value ∈ linkIds s m → value ∈ linkIds s n → m.thread_id = n.thread_id := by
    intro m hm n hn hmself hnself value hvm hvn
    have hshare : s.Shares m.id n.id := ⟨value, ⟨m, hm, rfl, hvm⟩, ⟨n, hn, rfl, hvn⟩⟩
    have hadj := hroot.adjacent m.id ⟨m, hm, rfl⟩ n.id ⟨n, hn, rfl⟩
      (hold m.id ⟨m, hm, rfl⟩ n.id ⟨n, hn, rfl⟩ hmself hnself hshare)
    rwa [threadOf_eq hm, threadOf_eq hn] at hadj
  have hneighbour := linkedThreads_neighbour hself
  -- so each of them is named by a message of its own
  have hfounder : ∀ l ∈ linkedThreads s self, ∃ m, m.id = l ∧
      (m = survivor ∨ m ∈ merged) := by
    intro l hl
    obtain ⟨a, ha, rfl, -⟩ := hneighbour l hl
    obtain ⟨m, hm, hid⟩ := hroot.root_mem a ha
    exact ⟨m, hid, (hmem m).mp ⟨hm, hid ▸ hl⟩⟩
  obtain ⟨hsurvivor, hsurvivor_linked⟩ := (hmem survivor).mpr (.inl rfl)
  have hgraph : SameGraph
      (fun m => if decide (m.thread_id ∈ merged.map (·.id)) then
        { m with thread_id := survivor.id } else m) s
      { s with messages := moveThreads s.messages survivor.id (merged.map (·.id)) } := by
    refine ⟨⟨rfl, fun m => ?_, fun m => ?_⟩, fun m => ?_, fun m => ?_, rfl⟩ <;>
      split <;> rfl
  have hlinked := Rooted.link hroot (F := s.Shares) (x := self.id)
    (L := {l | l ∈ linkedThreads s self}) (m := survivor.id)
    (r := Store.threadOf
      { s with messages := moveThreads s.messages survivor.id (merged.map (·.id)) })
    Store.Shares.symm foundedBefore_trans ⟨self, hself, rfl⟩ hmono
    (fun a ha b hb hax hbx hab => hroot.adjacent a ha b hb (hold a ha b hb hax hbx hab))
    (mem_linkedThreads.mpr (.inl hself_root)) ?_ hneighbour hsurvivor_linked ?_ ?_ ?_
  · exact Rooted.congr hlinked hgraph.messageIds (fun _ _ _ _ => hgraph.shares)
      (fun _ _ => hgraph.foundedBefore) fun _ _ => rfl
  · intro b hex hex'
    obtain ⟨n, hn, rfl⟩ := hex
    obtain ⟨value, hvself, hvn⟩ := hex'
    rw [holds_iff hself] at hvself
    rw [holds_iff hn] at hvn
    show s.threadOf n.id ∈ linkedThreads s self
    rw [threadOf_eq hn]
    by_cases hne : n.id = self.id
    · obtain rfl := s.messages.eq_of_clash hn hself hne
      exact mem_linkedThreads.mpr (.inl rfl)
    · obtain ⟨m, hm⟩ := linkHolder_complete hn hne hvn
      obtain ⟨hmm, hmself, hvm⟩ := linkHolder_sound hm
      exact mem_linkedThreads.mpr (.inr ⟨value, hvself, m, hm,
        hholder m hmm n hn hmself hne value hvm hvn⟩)
  · intro l hl
    obtain ⟨m, rfl, hm⟩ := hfounder l hl
    obtain ⟨hms, -⟩ := (hmem m).mpr hm
    refine ⟨survivor, hsurvivor, m, hms, rfl, rfl, ?_⟩
    rcases hm with rfl | hm
    · exact founderOrder_refl m
    · exact hleast m hm
  · intro a hex hl
    obtain ⟨m, hm, rfl⟩ := hex
    rw [hgraph.threadOf hm]
    rw [threadOf_eq hm] at hl
    obtain ⟨f, hid, hf⟩ := hfounder m.thread_id hl
    by_cases hmoved : m.thread_id ∈ merged.map (·.id)
    · simp only [hmoved, decide_true, if_true]
    · rcases hf with rfl | hf
      · simp only [hmoved, decide_false, Bool.false_eq_true, if_false]
        exact hid.symm
      · exact absurd (hid ▸ List.mem_map_of_mem hf) hmoved
  · intro a hex hl
    obtain ⟨m, hm, rfl⟩ := hex
    rw [hgraph.threadOf hm, threadOf_eq hm]
    rw [threadOf_eq hm] at hl
    have hkept : m.thread_id ∉ merged.map (·.id) := by
      intro hmoved
      obtain ⟨f, hf, hid⟩ := List.mem_map.mp hmoved
      exact hl (hid ▸ ((hmem f).mpr (.inr hf)).2)
    simp only [hkept, decide_false, Bool.false_eq_true, if_false]

/-! ### Inserting a message -/

section inserting
variable {s₁ : Store} {write : ThreadedMailWrite}

theorem Inserted.mem_messages (h : Inserted s write s₁) {m : MessageRow} :
    m ∈ s₁.messages ↔ m ∈ s.messages ∨ m = newMessageRow write (normalizeThreadingHeaders
      write.input.rfcMessageId write.input.inReplyToHeader write.input.referencesHeader) :=
  Table.mem_insert? h.messages

theorem Inserted.not_mem (h : Inserted s write s₁) : write.input.messageId ∉ s.messageIds := by
  intro hex
  obtain ⟨m, hm, hid⟩ := hex
  have hnone := Table.find?_eq_none.mp h.fresh m hm
  simp [hid] at hnone

theorem Inserted.messageIds (h : Inserted s write s₁) :
    s₁.messageIds = insert write.input.messageId s.messageIds := by
  ext id
  constructor
  · intro hex
    obtain ⟨m, hm, rfl⟩ := hex
    rcases h.mem_messages.mp hm with hm | rfl
    · exact .inr ⟨m, hm, rfl⟩
    · exact .inl rfl
  · intro hor
    rcases hor with rfl | ⟨m, hm, rfl⟩
    · exact ⟨_, h.mem_messages.mpr (.inr rfl), rfl⟩
    · exact ⟨m, h.mem_messages.mpr (.inl hm), rfl⟩

/-- The new references are those of the new message. -/
theorem Inserted.linkIds (h : Inserted s write s₁) {m : MessageRow}
    (hm : m.id ≠ write.input.messageId) : linkIds s₁ m = linkIds s m := by
  have hnew : (newReferenceRows write.input.messageId (normalizeThreadingHeaders
      write.input.rfcMessageId write.input.inReplyToHeader
      write.input.referencesHeader).references).filter (·.message_id = m.id) = [] := by
    apply List.filter_eq_nil_iff.mpr
    intro r hr
    simp [newReferenceRows_message_id hr, hm.symm]
  simp only [Umail.linkIds, Table.select, Table.insertAll?_rows h.references,
    List.filter_append, hnew, List.append_nil]

theorem Inserted.holds (h : Inserted s write s₁) {id : String} {value : NormalizedRfcMessageId}
    (hid : id ≠ write.input.messageId) : s₁.Holds id value ↔ s.Holds id value := by
  constructor
  · intro hex
    obtain ⟨m, hm, rfl, hvalue⟩ := hex
    rcases h.mem_messages.mp hm with hm | rfl
    · exact ⟨m, hm, rfl, h.linkIds hid ▸ hvalue⟩
    · exact absurd rfl hid
  · intro hex
    obtain ⟨m, hm, rfl, hvalue⟩ := hex
    exact ⟨m, h.mem_messages.mpr (.inl hm), rfl, (h.linkIds hid).symm ▸ hvalue⟩

theorem Inserted.shares (h : Inserted s write s₁) {a b : String}
    (ha : a ≠ write.input.messageId) (hb : b ≠ write.input.messageId) :
    s₁.Shares a b ↔ s.Shares a b := by
  simp only [Store.Shares, h.holds ha, h.holds hb]

theorem writeThreadedMail_threaded {r : AcceptMessageResult} (hs : s.Threaded)
    (h : writeThreadedMail s write = .ok (r, s')) : s'.Threaded := by
  obtain ⟨s₁, threadId, hins, hlink, -⟩ := writeThreadedMail_ok h
  have hnew : newMessageRow write (normalizeThreadingHeaders write.input.rfcMessageId
      write.input.inReplyToHeader write.input.referencesHeader) ∈ s₁.messages :=
    hins.mem_messages.mpr (.inr rfl)
  -- before the link the new message is a thread of its own
  have hold : Rooted s.messageIds s.Shares s₁.FoundedBefore s.threadOf := by
    refine Rooted.congr hs rfl (fun _ _ _ _ => Iff.rfl) ?_ fun _ _ => rfl
    intro a b hex
    obtain ⟨m, hm, n, hn, hma, hnb, hle⟩ := hex
    exact ⟨m, hins.mem_messages.mpr (.inl hm), n, hins.mem_messages.mpr (.inl hn), hma, hnb,
      hle⟩
  have hroot := hold.insert (r := s₁.threadOf) hins.not_mem
    ⟨_, hnew, _, hnew, rfl, rfl, founderOrder_refl _⟩
    (by
      intro a hex
      obtain ⟨m, hm, rfl⟩ := hex
      rw [threadOf_eq hm, threadOf_eq (hins.mem_messages.mpr (.inl hm))])
    (threadOf_eq hnew)
  rw [← hins.messageIds] at hroot
  -- the link then joins the threads that the message shares an id with
  refine linkThread_threaded hroot ?_ ?_ hlink
  · intro a _ b _ hparts
    obtain ⟨ha, hb, hab⟩ := hparts
    exact (hins.shares ha hb).mpr hab
  · intro a _ b _ ha hb hab
    exact ⟨ha, hb, (hins.shares ha hb).mp hab⟩

end inserting

/-! ### Completing an attempt -/

section completing
variable {messageId : String} {rfcMessageId : NormalizedRfcMessageId} {nowIso : Instant}

theorem assigned_rewritten : Rewritten (assigned messageId rfcMessageId nowIso) s
    (assignRfcMessageId s messageId rfcMessageId nowIso) := by
  refine ⟨rfl, fun m => ?_, fun m => ?_⟩ <;> unfold assigned <;> split <;> rfl

/-- A message keeps the Message-IDs it contributed. -/
theorem linkIds_assigned {m : MessageRow} {value : NormalizedRfcMessageId}
    (h : value ∈ linkIds s m) :
    value ∈ linkIds (assignRfcMessageId s messageId rfcMessageId nowIso)
      (assigned messageId rfcMessageId nowIso m) := by
  rw [mem_linkIds] at h ⊢
  unfold assigned
  split
  · next hsel =>
    rcases h with hown | hrest
    · simp [hown] at hsel
    · exact .inr hrest
  · exact h

/-- Assigning a Message-ID and linking the message keeps the invariant. -/
theorem assign_threaded {threadId : String} (hs : s.Threaded)
    (h : linkThread (assignRfcMessageId s messageId rfcMessageId nowIso) messageId =
      .ok (threadId, s')) : s'.Threaded := by
  have hrew : Rewritten _ s (assignRfcMessageId s messageId rfcMessageId nowIso) :=
    assigned_rewritten
  have hkeep : ∀ id value, s.Holds id value →
      (assignRfcMessageId s messageId rfcMessageId nowIso).Holds id value := by
    intro _ value hex
    obtain ⟨m, hm, rfl, hvalue⟩ := hex
    exact ⟨_, hrew.mem.mpr ⟨m, hm, rfl⟩, hrew.id m, linkIds_assigned hvalue⟩
  have hback : ∀ id value, id ≠ messageId →
      (assignRfcMessageId s messageId rfcMessageId nowIso).Holds id value →
        s.Holds id value := by
    intro _ value hne hex
    obtain ⟨m', hm', rfl, hvalue⟩ := hex
    obtain ⟨m, hm, rfl⟩ := hrew.mem.mp hm'
    rw [hrew.id m] at hne ⊢
    rw [assigned_of_ne hne] at hvalue
    exact ⟨m, hm, rfl, hvalue⟩
  have hroot : Rooted (assignRfcMessageId s messageId rfcMessageId nowIso).messageIds s.Shares
      (assignRfcMessageId s messageId rfcMessageId nowIso).FoundedBefore
      (assignRfcMessageId s messageId rfcMessageId nowIso).threadOf := by
    refine Rooted.congr hs hrew.messageIds (fun _ _ _ _ => Iff.rfl)
      (fun _ _ => hrew.foundedBefore) ?_
    intro _ hex
    obtain ⟨m, hm, rfl⟩ := hex
    rw [hrew.threadOf hm, assigned_thread_id, threadOf_eq hm]
  -- the assigned message gains a value; linking it joins what that connects
  refine linkThread_threaded hroot ?_ ?_ h
  · intro a _ b _ hex
    obtain ⟨value, ha, hb⟩ := hex
    exact ⟨value, hkeep a value ha, hkeep b value hb⟩
  · intro a _ b _ hax hbx hex
    obtain ⟨value, ha, hb⟩ := hex
    exact ⟨value, hback a value hax ha, hback b value hbx hb⟩

end completing

/-! ### Every command keeps the invariant -/

theorem Store.Threaded.empty : Store.empty.Threaded := by
  have hnone : ∀ a, a ∉ Store.empty.messageIds := by
    intro a hex
    obtain ⟨m, hm, -⟩ := hex
    exact Table.mem_empty hm
  constructor <;> exact fun a ha => absurd ha (hnone a)

theorem completed_threaded {j : OutboundJobRow} {input : CompleteAttemptInput} (hs : s.Threaded)
    (h : recordOutcome s j input = .ok s') : s'.Threaded := by
  have hsettle : (settleAttempt s input).Threaded := hs.same rfl rfl
  rcases recordOutcome_ok h with ⟨rfcMessageId, _, -, hlink⟩ |
    ⟨failureDetail, -, -, rfl⟩ | rfl
  · exact assign_threaded hsettle hlink
  · exact hs.same rfl rfl
  · exact hsettle

theorem Effect.threaded (h : Effect s s') (hs : s.Threaded) : s'.Threaded := by
  cases h with
  | peripheral hsame => exact hs.same hsame.messages hsame.references
  | submitted input ids identity fromAddress needsApproval hsub =>
    -- only new mail and a delivery move messages between threads
    obtain ⟨r, s₁, hwrite, hs'⟩ := hsub.written
    exact (writeThreadedMail_threaded hs hwrite).same (by rw [hs']) (by rw [hs'])
  | accepted_inbound input r receipts hwrite =>
    exact (writeThreadedMail_threaded hs hwrite).same rfl rfl
  | marked_read threadId isRead scope nowIso =>
    refine hs.rewrite ⟨⟨rfl, fun m => ?_, fun m => ?_⟩, fun m => ?_, fun m => ?_, rfl⟩
      fun m _ => ?_
    all_goals split <;> rfl
  | deleted threadId scope deletedAt =>
    refine hs.rewrite ⟨⟨rfl, fun m => ?_, fun m => ?_⟩, fun m => ?_, fun m => ?_, rfl⟩
      fun m _ => ?_
    all_goals split <;> rfl
  | approved a j nowIso => exact hs.same rfl rfl
  | denied a j nowIso => exact hs.same rfl rfl
  | rejected messageIds failure nowIso => exact hs.same rfl rfl
  | expired nowIso => exact hs.same rfl rfl
  | claimed j input => exact hs.same rfl rfl
  | completed j input _ _ _ _ hrecord => exact completed_threaded hs hrecord
  | settled nowIso => exact hs.same rfl rfl

theorem Store.Reachable.threaded (h : s.Reachable) : s.Threaded := by
  refine h.invariant (P := Store.Threaded) ?_ ?_
  · intro s heq
    obtain rfl := heq
    exact .empty
  · intro s c s' _ hs hstep
    obtain rfl := Option.some.inj hstep
    exact (exec_effect s c).threaded hs

/-! ### What the invariant says -/

/-- A chain of messages in which neighbours share a Message-ID. -/
def Store.Linked (s : Store) (m n : MessageRow) : Prop :=
  Connected s.messageIds s.Shares m.id n.id

/-- Two messages are in one thread exactly when they are linked. -/
theorem Store.Threaded.thread_eq_iff (hs : s.Threaded) {m n : MessageRow} (hm : m ∈ s.messages)
    (hn : n ∈ s.messages) : m.thread_id = n.thread_id ↔ s.Linked m n := by
  rw [← threadOf_eq hm, ← threadOf_eq hn]
  exact Rooted.root_eq_iff hs Store.Shares.symm ⟨m, hm, rfl⟩ ⟨n, hn, rfl⟩

/-- The thread is named by the oldest linked message. -/
theorem Store.Threaded.founder (hs : s.Threaded) {m : MessageRow} (hm : m ∈ s.messages) :
    ∃ f ∈ s.messages, f.id = m.thread_id ∧ s.Linked m f ∧
      ∀ n ∈ s.messages, s.Linked m n → founderOrder f n := by
  obtain ⟨f, hf, hid⟩ := hs.root_mem m.id ⟨m, hm, rfl⟩
  rw [threadOf_eq hm] at hid
  have hlinked : s.Linked m f := by
    have hconn := hs.connected m.id ⟨m, hm, rfl⟩
    rwa [threadOf_eq hm, ← hid] at hconn
  refine ⟨f, hf, hid, hlinked, ?_⟩
  intro n hn hmn
  obtain ⟨f', hf', n', hn', hfid, hnid, hle⟩ := Rooted.root_le hs ⟨n, hn, rfl⟩ hmn
  rw [threadOf_eq hm, ← hid] at hfid
  rwa [s.messages.eq_of_clash hf' hf hfid, s.messages.eq_of_clash hn' hn hnid] at hle

/-- Any message id resolves to its thread while that has a live message. -/
theorem resolveThread_message {m live : MessageRow} {scope : MailboxScope}
    (hm : m ∈ s.messages) (hlive : live ∈ s.messages) (hthread : live.thread_id = m.thread_id)
    (hscope : live.liveIn scope = true) : resolveThread s m.id scope = .ok m.thread_id := by
  have hany : (s.messages.rows.any fun l => l.thread_id = m.thread_id && l.liveIn scope) =
      true := List.any_eq_true.mpr ⟨live, hlive, by simp [hthread, hscope]⟩
  have hfind : (s.messages.find? fun n => n.id = m.id && s.messages.rows.any fun l =>
      l.thread_id = n.thread_id && l.liveIn scope) = some m := by
    refine Table.find?_eq_some_of_mem (fun a b ha hb => ?_) hm (by simp [hany])
    simp only [Bool.and_eq_true, decide_eq_true_eq] at ha hb
    exact ha.1.trans hb.1.symm
  simp [resolveThread, hfind]

/-- **Threads are the connected components of the Message-ID graph.** In every
    reachable store two messages are in one thread exactly when a chain of
    messages with common Message-IDs joins them, and the thread is named by the
    oldest of them. So two reachable stores with the same messages, whatever
    the order in which they arrived, have the same partition, and the same
    thread ids once creation times agree. Every message id resolves to its
    current thread while that has a live message in scope. -/
theorem threads_are_components (hr : s.Reachable) :
    (∀ m ∈ s.messages, ∀ n ∈ s.messages, m.thread_id = n.thread_id ↔ s.Linked m n) ∧
    (∀ m ∈ s.messages, ∃ f ∈ s.messages, f.id = m.thread_id ∧ s.Linked m f ∧
      ∀ n ∈ s.messages, s.Linked m n → founderOrder f n) ∧
    (∀ s' : Store, s'.Reachable → s'.messageIds = s.messageIds →
      (∀ id value, s'.Holds id value ↔ s.Holds id value) →
      ∀ m ∈ s.messages, ∀ n ∈ s.messages, ∀ m' ∈ s'.messages, ∀ n' ∈ s'.messages,
        m'.id = m.id → n'.id = n.id →
        (m'.thread_id = n'.thread_id ↔ m.thread_id = n.thread_id) ∧
        ((∀ a b, s'.FoundedBefore a b ↔ s.FoundedBefore a b) →
          m'.thread_id = m.thread_id)) ∧
    (∀ m ∈ s.messages, ∀ scope, (∃ live ∈ s.messages, live.thread_id = m.thread_id ∧
      live.liveIn scope = true) → resolveThread s m.id scope = .ok m.thread_id) := by
  have hs := Store.Reachable.threaded hr
  refine ⟨fun m hm n hn => hs.thread_eq_iff hm hn, fun m hm => hs.founder hm, ?_, ?_⟩
  · intro s' hr' hids hholds m hm n hn m' hm' n' hn' hmid hnid
    have hs' := Store.Reachable.threaded hr'
    have hshares : s'.Shares = s.Shares := by
      funext a b
      simp only [Store.Shares, hholds]
    have hlinked : ∀ a b a' b', a'.id = a.id → b'.id = b.id →
        (s'.Linked a' b' ↔ s.Linked a b) := by
      intro a b a' b' ha hb
      rw [Store.Linked, Store.Linked, hids, hshares, ha, hb]
    refine ⟨?_, fun hfounded => ?_⟩
    · rw [hs'.thread_eq_iff hm' hn', hs.thread_eq_iff hm hn, hlinked m n m' n' hmid hnid]
    · obtain ⟨f, hf, hfid, hmf, hleast⟩ := hs.founder hm
      obtain ⟨f', hf', hfid', hmf', hleast'⟩ := hs'.founder hm'
      obtain ⟨g, hg, hgid⟩ : f'.id ∈ s.messageIds := hids ▸ ⟨f', hf', rfl⟩
      obtain ⟨g', hg', hgid'⟩ : f.id ∈ s'.messageIds := hids.symm ▸ ⟨f, hf, rfl⟩
      -- each founder is linked to the message in the other store, so neither is older
      have hle := hleast g hg ((hlinked m g m' f' hmid hgid.symm).mp hmf')
      have hle' := hleast' g' hg' ((hlinked m f m' g' hmid hgid').mpr hmf)
      have hback : s.FoundedBefore f'.id f.id :=
        (hfounded _ _).mp ⟨f', hf', g', hg', rfl, hgid', hle'⟩
      rw [← hfid, ← hfid']
      exact foundedBefore_antisymm hback ⟨f, hf, g, hg, rfl, hgid, hle⟩
  · intro m hm scope ⟨live, hlive, hthread, hscope⟩
    exact resolveThread_message hm hlive hthread hscope

end graph

section sample
open Sample

/-- The same messages as in `repliedStore`; the reply arrives first. -/
def earlyReplyStore : Store :=
  receive (receive (receive Store.empty "in_b" "mailbox-2" 1000 none (some "<a@x>")
    (some "<b@x> <a@x>")) "in_c" "mailbox-1" 1000 none none (some "<b@x>"))
    "in_a" "mailbox-1" 1000 (some "<a@x>") none none

theorem earlyReplyStore_reachable : earlyReplyStore.Reachable :=
  receive_reachable (receive_reachable (receive_reachable (.init rfl)))

/-- Every message of the one store is in the other, with its creation time and
    its Message-IDs. -/
def sameLinks (s s' : Store) : Bool :=
  s.messages.rows.all fun m => s'.messages.rows.any fun m' =>
    m'.id = m.id && m'.created_at = m.created_at && (linkIds s m).all (· ∈ linkIds s' m')

theorem exists_of_sameLinks {s s' : Store} (h : sameLinks s s' = true) {m : MessageRow}
    (hm : m ∈ s.messages) : ∃ m' ∈ s'.messages, m'.id = m.id ∧ m'.created_at = m.created_at ∧
      ∀ value ∈ linkIds s m, value ∈ linkIds s' m' := by
  obtain ⟨m', hm', htest⟩ := List.any_eq_true.mp (List.all_eq_true.mp h m hm)
  simp only [Bool.and_eq_true, decide_eq_true_eq, List.all_eq_true] at htest
  exact ⟨m', hm', htest.1.1, htest.1.2, htest.2⟩

theorem Store.Holds.of_sameLinks {s s' : Store} (h : sameLinks s s' = true) {id : String}
    {value : NormalizedRfcMessageId} (hholds : s.Holds id value) : s'.Holds id value := by
  obtain ⟨m, hm, rfl, hvalue⟩ := hholds
  obtain ⟨m', hm', hid, -, hlinks⟩ := exists_of_sameLinks h hm
  exact ⟨m', hm', hid, hlinks value hvalue⟩

theorem Store.FoundedBefore.of_sameLinks {s s' : Store} (h : sameLinks s s' = true)
    {a b : String} (hfounded : s.FoundedBefore a b) : s'.FoundedBefore a b := by
  obtain ⟨m, hm, n, hn, rfl, rfl, hle⟩ := hfounded
  obtain ⟨m', hm', hmid, hmtime, -⟩ := exists_of_sameLinks h hm
  obtain ⟨n', hn', hnid, hntime, -⟩ := exists_of_sameLinks h hn
  refine ⟨m', hm', n', hn', hmid, hnid, ?_⟩
  unfold founderOrder at hle ⊢
  rwa [hmid, hnid, hmtime, hntime]

theorem messageIds_of_sameLinks {s s' : Store} (h : sameLinks s s' = true) :
    s.messageIds ⊆ s'.messageIds := by
  intro id hid
  obtain ⟨m, hm, rfl⟩ := hid
  obtain ⟨m', hm', hid', -⟩ := exists_of_sameLinks h hm
  exact ⟨m', hm', hid'⟩

/-- The reply joins two threads, in whichever order the messages arrive, and
    the joined thread opens for a reader of the reply alone. -/
theorem threads_are_components_replied :
    (∃ a ∈ unlinkedStore.messages, ∃ c ∈ unlinkedStore.messages, a.id = "in_a" ∧
      c.id = "in_c" ∧ ¬ unlinkedStore.Linked a c) ∧
    (∃ a ∈ repliedStore.messages, ∃ c ∈ repliedStore.messages, a.id = "in_a" ∧
      c.id = "in_c" ∧ repliedStore.Linked a c) ∧
    (∀ m ∈ repliedStore.messages, ∀ m' ∈ earlyReplyStore.messages, m'.id = m.id →
      m'.thread_id = m.thread_id) ∧
    ∀ m ∈ repliedStore.messages, resolveThread repliedStore m.id reader = .ok "in_a" := by
  have hunlinked : unlinkedStore.messages.rows.map (fun m => (m.id, m.thread_id)) =
      [("in_a", "in_a"), ("in_c", "in_c")] := by decide +kernel
  have hreplied : repliedStore.messages.rows.map (fun m => (m.id, m.thread_id)) =
      [("in_a", "in_a"), ("in_c", "in_a"), ("in_b", "in_a")] := by decide +kernel
  have hcomponents := threads_are_components repliedStore_reachable
  refine ⟨?_, ?_, ?_, ?_⟩
  · obtain ⟨a, ha, haid, hathread⟩ := message_of_rows hunlinked List.mem_cons_self
    obtain ⟨c, hc, hcid, hcthread⟩ := message_of_rows hunlinked
      (List.mem_cons_of_mem _ List.mem_cons_self)
    refine ⟨a, ha, c, hc, haid, hcid, fun hlinked => ?_⟩
    have hthread := ((threads_are_components unlinkedStore_reachable).1 a ha c hc).mpr hlinked
    rw [hathread, hcthread] at hthread
    exact absurd hthread (by decide)
  · obtain ⟨a, ha, haid, hathread⟩ := message_of_rows hreplied List.mem_cons_self
    obtain ⟨c, hc, hcid, hcthread⟩ := message_of_rows hreplied
      (List.mem_cons_of_mem _ List.mem_cons_self)
    exact ⟨a, ha, c, hc, haid, hcid,
      (hcomponents.1 a ha c hc).mp (hathread.trans hcthread.symm)⟩
  · have hto : sameLinks repliedStore earlyReplyStore = true := by decide +kernel
    have hfrom : sameLinks earlyReplyStore repliedStore = true := by decide +kernel
    intro m hm m' hm' hid
    exact (hcomponents.2.2.1 earlyReplyStore earlyReplyStore_reachable
      ((messageIds_of_sameLinks hfrom).antisymm (messageIds_of_sameLinks hto))
      (fun _ _ => ⟨.of_sameLinks hfrom, .of_sameLinks hto⟩) m hm m hm m' hm' m' hm' hid hid).2
      fun _ _ => ⟨.of_sameLinks hfrom, .of_sameLinks hto⟩
  · have hthreads : repliedStore.messages.rows.all (·.thread_id = "in_a") = true := by
      decide +kernel
    have hlive : repliedStore.messages.rows.any (·.liveIn reader) = true := by decide +kernel
    obtain ⟨live, hmem, hscope⟩ := List.any_eq_true.mp hlive
    have hthread : ∀ m ∈ repliedStore.messages, m.thread_id = "in_a" :=
      fun m hm => of_decide_eq_true (List.all_eq_true.mp hthreads m hm)
    intro m hm
    have hresolve := hcomponents.2.2.2 m hm reader
      ⟨live, hmem, (hthread live hmem).trans (hthread m hm).symm, hscope⟩
    rwa [hthread m hm] at hresolve

end sample

end Umail
