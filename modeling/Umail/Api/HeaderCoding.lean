import Umail.Account.Content
import Umail.Account.Receipts
import Umail.Api.Operations
import Umail.Contract.MessageIdCoding
import Umail.Mail.ProcessIndex

/-! # Threading headers keep their ids

  A Message-ID is normalized before a message is written and once more by the
  write; References are normalized by the write, joined when the message is
  sent, and normalized again by whoever receives it. None of it changes an id
  or the order of the ids.
-/

namespace Umail

open Relational

/-! ### References of a header -/

/-- The newest ids of a References header, as a write keeps them. -/
def headerReferences (references : Option String) : List NormalizedRfcMessageId :=
  (normalizeThreadingHeaders none none references).references

/-- The ids that a list of ids keeps when it is joined and written again. -/
structure RoundTrips (ids : List NormalizedRfcMessageId) : Prop where
  parsed : ∀ id ∈ ids, id.Parsed
  distinct : ids.Nodup

theorem RoundTrips.suffix {ids ids' : List NormalizedRfcMessageId} (h : RoundTrips ids)
    (hsuffix : ids' <:+ ids) : RoundTrips ids' :=
  ⟨fun id hid => h.parsed id (hsuffix.mem hid), hsuffix.sublist.nodup h.distinct⟩

/-- The ids a joined header is parsed to. -/
def parsedHeader (header : Option String) : List NormalizedRfcMessageId :=
  header.elim [] normalizeRfcMessageIdList

theorem parsedHeader_roundTrips (header : Option String) : RoundTrips (parsedHeader header) := by
  cases header with
  | none => exact ⟨fun _ h => absurd h List.not_mem_nil, List.nodup_nil⟩
  | some raw => exact ⟨fun _ => parsed_of_mem, normalizeRfcMessageIdList_nodup raw⟩

/-- The newest ids of a list, oldest first. -/
def newestReferences (ids : List NormalizedRfcMessageId) : List NormalizedRfcMessageId :=
  ids.drop (ids.length - THREADING_REFERENCE_LIMIT)

theorem headerReferences_eq (references : Option String) :
    headerReferences references = newestReferences (parsedHeader references) := by
  cases references with
  | none => rfl
  | some raw =>
    simp only [headerReferences, normalizeThreadingHeaders, newestReferences, parsedHeader,
      Option.elim]

theorem headerReferences_roundTrips (references : Option String) :
    RoundTrips (headerReferences references) := by
  rw [headerReferences_eq]
  exact (parsedHeader_roundTrips references).suffix (List.drop_suffix _ _)

theorem headerReferences_length (references : Option String) :
    (headerReferences references).length ≤ THREADING_REFERENCE_LIMIT := by
  rw [headerReferences_eq, newestReferences, List.length_drop]
  omega

theorem parsedHeader_join {ids : List NormalizedRfcMessageId} (h : RoundTrips ids) :
    parsedHeader (joinStoredReferences ids) = ids := by
  unfold joinStoredReferences
  split
  · next hempty => exact (List.isEmpty_iff.mp hempty).symm
  · exact normalizeRfcMessageIdList_join h.parsed h.distinct

/-- What a write would keep of a joined list that is not too long. -/
theorem headerReferences_join {ids : List NormalizedRfcMessageId} (h : RoundTrips ids)
    (hlength : ids.length ≤ THREADING_REFERENCE_LIMIT) :
    headerReferences (joinStoredReferences ids) = ids := by
  rw [headerReferences_eq, parsedHeader_join h, newestReferences, Nat.sub_eq_zero_of_le hlength,
    List.drop_zero]

section stored
variable [Unicode] {s s' : Store}

/-! ### Replies -/

/-- The headers of a reply to a parent whose ids were parsed. -/
theorem replyHeaders_normalized (parent : MessageSummary)
    (hid : ∀ id, parent.rfcMessageId = some id → id.Parsed)
    (hreferences : ∀ id ∈ parent.references, id.Parsed) :
    (replyHeaders parent).1.bind normalizeRfcMessageId = parent.rfcMessageId ∧
      parsedHeader (replyHeaders parent).2 = parent.rfcMessageId.elim []
        fun id => buildOutboundReferences id parent.references := by
  unfold replyHeaders
  cases hparent : parent.rfcMessageId with
  | none => exact ⟨rfl, rfl⟩
  | some id =>
    refine ⟨normalizeRfcMessageId_self (hid id hparent), ?_⟩
    have hchain : RoundTrips (referenceChain id parent.references) := by
      refine ⟨?_, referenceChain_nodup⟩
      intro x hx
      rcases mem_referenceChain.mp hx with hx | rfl
      · exact hreferences x hx
      · exact hid _ hparent
    exact parsedHeader_join (hchain.suffix pruneReferences_suffix)

/-! ### Stored references -/

/-- The message and the References header that a command may write. -/
def Command.mailHeaders : Command → Option (String × Option String)
  | .submitOutbound input ids => some (ids.messageId, input.referencesHeader)
  | .acceptInbound input => some (input.messageId, input.referencesHeader)
  | _ => none

theorem NewMessage.irrefl {id : String} : ¬ NewMessage s s id := by
  rintro ⟨hfresh, m, hm, hid⟩
  exact hfresh m hm hid

/-- A write adds one message only. -/
theorem writeThreadedMail_unique {write : ThreadedMailWrite} {r : AcceptMessageResult} {id : String}
    (hwrite : writeThreadedMail s write = .ok (r, s')) (h : NewMessage s s' id) :
    write.input.messageId = id := by
  obtain ⟨m, hm, rfl⟩ := h.2
  rcases (writeThreadedMail_messages hwrite).mem_cases hm with ⟨old, hold, hev⟩ | hnew
  · exact absurd hev.id_eq.symm (h.1 old hold)
  · exact hnew.id_eq.symm

/-- A new message has the newest references of the header it was written with. -/
theorem loadReferences_exec (href : s.Referential) {c : Command} {id : String}
    (h : NewMessage s (s.exec c) id) : ∃ header, c.mailHeaders = some (id, header) ∧
      loadReferences (s.exec c) id = headerReferences header := by
  by_cases hw : c.writesMail = false
  · obtain ⟨m, hm, hid⟩ := h.2
    rcases (exec_noNewMail s hw).messages.mem_cases hm with ⟨old, hold, hev⟩ | hfalse
    · exact absurd (hev.id_eq.symm.trans hid) (h.1 old hold)
    · exact hfalse.elim
  -- only a submit and an acceptance remain
  cases c with
  | submitOutbound input ids =>
    change NewMessage s (committedSnd s (submitOutbound s input ids)) id at h
    show ∃ header, _ ∧ loadReferences (committedSnd s (submitOutbound s input ids)) id = _
    rcases committedSnd_cases (s := s) (r := submitOutbound s input ids) with
      heq | ⟨r, s', hok, heq⟩
    · exact absurd (heq ▸ h) NewMessage.irrefl
    · rw [heq] at h ⊢
      rcases submitOutbound_ok hok with ⟨rfl, -⟩ | ⟨-, identity, fromAddress, _, hsub, -⟩
      · exact absurd h NewMessage.irrefl
      · obtain ⟨r, s₁, hwrite, hs'⟩ := hsub.written
        have hmessages : s'.messages = s₁.messages := by rw [hs']
        have hreferences : s'.references = s₁.references := by rw [hs']
        obtain rfl : ids.messageId = id :=
          writeThreadedMail_unique hwrite (by rwa [NewMessage, ← hmessages])
        refine ⟨_, rfl, ?_⟩
        rw [loadReferences, hreferences]
        exact loadReferences_written href hwrite
  | acceptInbound input =>
    change NewMessage s (committedSnd s (acceptInbound s input)) id at h
    show ∃ header, _ ∧ loadReferences (committedSnd s (acceptInbound s input)) id = _
    rcases committedSnd_cases (s := s) (r := acceptInbound s input) with heq | ⟨r, s', hok, heq⟩
    · exact absurd (heq ▸ h) NewMessage.irrefl
    · rw [heq] at h ⊢
      rcases acceptInbound_ok hok with rfl | ⟨receipt, -, -, -, r', s₁, hwrite, rfl⟩
      · exact absurd h NewMessage.irrefl
      · obtain rfl : input.messageId = id := writeThreadedMail_unique hwrite h
        exact ⟨_, rfl, loadReferences_written href hwrite⟩
  | decideApproval _ | claimJob _ | completeAttempt _ | rejectUndispatched _ _ _
  | expireDueApprovals _ | settleAbandonedClaims _ | softDeleteThread _ _ _ | markThreadRead _ _ _ _
  | registerInboundReceipt _ | observeInboundForward _ | failInboundReceiptPolicy _ _
  | redriveDueInboundReceipts _ _ | createAddress _ _ _ _ _ _ | patchAddress _ _ _
  | setAddressForwarding _ _ _ | retireAddress _ _ | retryAddressRouting _ _
  | configureSendingDomains _ | writeRoute _ _ => exact absurd rfl hw

/-- What a dispatch says of the references of its message. -/
theorem readDispatch_references {jobId : String} {dispatch : OutboundDispatch}
    (h : readDispatch s jobId = .ok (some dispatch)) :
    dispatch.referencesHeader = joinStoredReferences (loadReferences s dispatch.job.messageId) := by
  unfold readDispatch at h
  split at h
  · exact absurd h (by simp)
  · split at h
    · exact absurd h (by simp)
    · obtain rfl := Option.some.inj (Except.ok.inj h)
      rfl

/-! ### The round trip -/

/-- No id is lost, changed or moved between the headers and the store. -/
structure ThreadingHeadersKept : Prop where
  /-- A header is parsed to distinct ids, each of which is normalized to itself. -/
  parsed : ∀ raw, (normalizeRfcMessageIdList raw).Nodup ∧
    ∀ id ∈ normalizeRfcMessageIdList raw, normalizeRfcMessageId id.val = some id
  /-- A joined list of distinct ids is parsed back. -/
  joined : ∀ ids, ids.Nodup →
    (∀ id ∈ ids, ∃ raw, id ∈ normalizeRfcMessageIdList raw) →
    normalizeRfcMessageIdList (joinRfcMessageIds ids) = ids
  /-- A received message is stored under the Message-ID that was prepared. -/
  inbound : ∀ (ports : MimePorts) email target sanitized attachments,
    (ThreadedMailWrite.inbound
      (inboundInput ports email target sanitized attachments)).row.rfc_message_id =
        email.messageId.bind normalizeRfcMessageId
  /-- A reply is stored under the Message-ID of its parent and the references built for it. -/
  reply : ∀ (parent : MessageSummary) rfcMessageId inReplyTo references,
    let headers := normalizeThreadingHeaders rfcMessageId inReplyTo references
    parent.rfcMessageId = headers.rfcMessageId → parent.references = headers.references →
      let written := normalizeThreadingHeaders none (replyHeaders parent).1 (replyHeaders parent).2
      written.inReplyTo = parent.rfcMessageId ∧
        written.references = newestReferences (parent.rfcMessageId.elim []
          fun id => buildOutboundReferences id parent.references)
  /-- The newest references of a written header are stored for good, and every dispatch of the
      message carries them to its recipients. -/
  stored : ∀ (s s' : Store) c id cs, s.Reachable → NewMessage s (s.exec c) id →
    accountStore.Run (s.exec c) cs s' →
      ∃ header, c.mailHeaders = some (id, header) ∧
        loadReferences s' id = newestReferences (parsedHeader header) ∧
        ∀ jobId dispatch, readDispatch s' jobId = .ok (some dispatch) →
          dispatch.job.messageId = id →
          parsedHeader dispatch.referencesHeader = loadReferences s' id ∧
            ∀ rfcMessageId inReplyTo, (normalizeThreadingHeaders rfcMessageId inReplyTo
              dispatch.referencesHeader).references = loadReferences s' id

omit [Unicode] in
/-- The references of a parent were parsed, and so was its Message-ID. -/
theorem normalizeThreadingHeaders_parsed (rfcMessageId inReplyTo references : Option String) :
    (∀ id, (normalizeThreadingHeaders rfcMessageId inReplyTo references).rfcMessageId =
      some id →
      id.Parsed) ∧
    ∀ id ∈ (normalizeThreadingHeaders rfcMessageId inReplyTo references).references,
      id.Parsed := by
  refine ⟨?_, (headerReferences_roundTrips references).parsed⟩
  intro id hid
  obtain ⟨raw, -, hraw⟩ := Option.bind_eq_some_iff.mp hid
  exact parsed_of_normalizeRfcMessageId hraw

/-- **Threading headers.** They round-trip through the parser, the store and
    the dispatch. -/
theorem threadingHeaders_kept : ThreadingHeadersKept where
  parsed raw := by
    refine ⟨normalizeRfcMessageIdList_nodup raw, ?_⟩
    intro id hid
    exact normalizeRfcMessageId_self (parsed_of_mem hid)
  joined ids hnodup houtput := by
    apply normalizeRfcMessageIdList_join _ hnodup
    intro id hid
    obtain ⟨raw, hraw⟩ := houtput id hid
    exact parsed_of_mem hraw
  inbound ports email target sanitized attachments := by
    show Option.bind (email.messageId.bind _) normalizeRfcMessageId = _
    cases email.messageId with
    | none => rfl
    | some raw => exact normalizeRfcMessageId_twice raw
  reply parent rfcMessageId inReplyTo references := by
    intro headers hid hreferences written
    obtain ⟨hparsed, hall⟩ := normalizeThreadingHeaders_parsed rfcMessageId inReplyTo references
    obtain ⟨hreply, hchain⟩ := replyHeaders_normalized parent
      (fun id h => hparsed id (hid ▸ h)) fun id h => hall id (hreferences ▸ h)
    refine ⟨hreply, ?_⟩
    rw [← hchain]
    exact headerReferences_eq _
  stored s s' c id cs hs hnew hrun := by
    -- written once at the insertion, and never rewritten after it
    obtain ⟨header, hheader, hwritten⟩ := loadReferences_exec hs.referential hnew
    obtain ⟨m, hm, rfl⟩ := hnew.2
    have hstored : loadReferences s' m.id = headerReferences header := by
      rw [(run_evolves hrun).loadReferences_eq hm, hwritten]
    refine ⟨header, hheader, hstored.trans (headerReferences_eq header), ?_⟩
    intro jobId dispatch hdispatch hmessage
    -- the dispatch joins what is stored
    have hjoined : dispatch.referencesHeader = joinStoredReferences (headerReferences header) := by
      rw [readDispatch_references hdispatch, hmessage, hstored]
    rw [hjoined, hstored]
    refine ⟨parsedHeader_join (headerReferences_roundTrips header), ?_⟩
    intro _ _
    exact headerReferences_join (headerReferences_roundTrips header)
      (headerReferences_length header)

end stored

end Umail
