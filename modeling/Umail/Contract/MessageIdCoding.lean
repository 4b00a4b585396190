import Umail.Contract.MessageThreading

/-! # Message-IDs are read back

  The header parser and the writer of a References header are inverse to each
  other: an id that was parsed is parsed again to itself, and the ids of a
  joined list come back in their order. So a text that is normalized twice, or
  stored, joined and parsed by somebody else, keeps its ids.
-/

namespace Umail

/-! ### Tokens -/

/-- The text between the angle brackets of an id that a token is parsed to. -/
structure IsIdToken (token : List Char) : Prop where
  nonempty : token ≠ []
  no_open : '<' ∉ token
  no_close : '>' ∉ token
  no_space : ' ' ∉ token
  no_control : token.any isControl = false
  separated : ∃ before after, splitAtLast '@' token = some (before, after) ∧
    before ≠ [] ∧ after ≠ []

theorem decodeNormalizedRfcMessageId_some {raw : List Char} {id : NormalizedRfcMessageId}
    (h : decodeNormalizedRfcMessageId raw = some id) : id.val.toList = raw := by
  unfold decodeNormalizedRfcMessageId at h
  split at h
  · rw [← Option.some.inj h]
    exact String.toList_ofList
  · exact absurd h (by simp)

/-- What the parser says about a token it accepts. -/
theorem normalizeRfcMessageIdToken_some {raw : List Char} {id : NormalizedRfcMessageId}
    (h : normalizeRfcMessageIdToken raw = some id) :
    ∃ token, IsIdToken token ∧ id.val.toList = '<' :: token ++ ['>'] := by
  unfold normalizeRfcMessageIdToken at h
  split at h
  · exact absurd h (by simp)
  · simp only at h
    split at h
    · exact absurd h (by simp)
    · -- a token without brackets, blanks or control characters, with two nonempty sides
      next hclean =>
      simp only [Bool.or_eq_true, not_or, Bool.not_eq_true, List.isEmpty_eq_false_iff,
        List.contains_eq_mem, decide_eq_false_iff_not] at hclean
      obtain ⟨⟨⟨⟨hne, hopen⟩, hclose⟩, hspace⟩, hcontrol⟩ := hclean
      split at h
      · exact absurd h (by simp)
      · next before after hsplit =>
        split at h
        · exact absurd h (by simp)
        · next hends =>
          simp only [Bool.or_eq_true, not_or, Bool.not_eq_true,
            List.isEmpty_eq_false_iff] at hends
          exact ⟨_, ⟨hne, hopen, hclose, hspace, hcontrol, before, after, hsplit, hends⟩,
            decodeNormalizedRfcMessageId_some h⟩

theorem stripAngles_wrapped {token : List Char} (h : token ≠ []) :
    stripAngles ('<' :: token ++ ['>']) = token := by
  have hlength : 3 ≤ ('<' :: token ++ ['>']).length := by
    have hpos := List.length_pos_of_ne_nil h
    rw [List.length_append, List.length_cons, List.length_singleton]
    omega
  have hlast : ('<' :: token ++ ['>']).getLast? = some '>' := List.getLast?_concat
  unfold stripAngles
  rw [if_pos]
  · simp
  · rw [hlast, decide_eq_true hlength]
    rfl

/-- An id around such a token is parsed to itself. -/
theorem normalizeRfcMessageIdToken_wrapped {token : List Char} {id : NormalizedRfcMessageId}
    (h : IsIdToken token) (hid : id.val.toList = '<' :: token ++ ['>']) :
    normalizeRfcMessageIdToken id.val.toList = some id := by
  obtain ⟨before, after, hsplit, hbefore, hafter⟩ := h.separated
  have hcontrol : ('<' :: token ++ ['>']).any isControl = false := by
    rw [List.any_append, List.any_cons, h.no_control]
    decide
  have hdecode : decodeNormalizedRfcMessageId ('<' :: token ++ ['>']) = some id := by
    unfold decodeNormalizedRfcMessageId
    rw [← hid, String.ofList_toList, dif_pos id.property]
    rfl
  rw [hid]
  unfold normalizeRfcMessageIdToken
  simp only [hcontrol, stripAngles_wrapped h.nonempty, h.no_control, hsplit, hdecode,
    List.contains_eq_mem, h.no_open, h.no_close, h.no_space]
  simp [h.nonempty, hbefore, hafter]

/-- An id that some token is parsed to. -/
def NormalizedRfcMessageId.Parsed (id : NormalizedRfcMessageId) : Prop :=
  ∃ raw, normalizeRfcMessageIdToken raw = some id

theorem NormalizedRfcMessageId.Parsed.self {id : NormalizedRfcMessageId} (h : id.Parsed) :
    normalizeRfcMessageIdToken id.val.toList = some id := by
  obtain ⟨raw, hraw⟩ := h
  obtain ⟨token, htoken, hid⟩ := normalizeRfcMessageIdToken_some hraw
  exact normalizeRfcMessageIdToken_wrapped htoken hid

/-- A parsed id has no blanks and no line breaks. -/
theorem NormalizedRfcMessageId.Parsed.plain {id : NormalizedRfcMessageId} (h : id.Parsed) :
    ∀ c ∈ id.val.toList, isBlank c = false ∧ c ≠ '\n' := by
  obtain ⟨raw, hraw⟩ := h
  obtain ⟨token, htoken, hid⟩ := normalizeRfcMessageIdToken_some hraw
  intro c hc
  rw [hid, List.mem_append, List.mem_cons, List.mem_singleton] at hc
  -- an angle bracket, or a character of the token
  rcases hc with (rfl | hc) | rfl
  · decide
  · have hcontrol : isControl c = false := by
      simpa using List.any_eq_false.mp htoken.no_control c hc
    refine ⟨?_, ?_⟩
    · have hspace : c ≠ ' ' := ne_of_mem_of_not_mem hc htoken.no_space
      have htab : c ≠ '\t' := by
        intro heq
        subst heq
        exact absurd hcontrol (by decide)
      simp [isBlank, hspace, htab]
    · intro heq
      subst heq
      exact absurd hcontrol (by decide)
  · decide

/-! ### Unfolding -/

theorem unfoldCrlf_eq_self {raw : List Char} (h : '\n' ∉ raw) : unfoldCrlf false raw = raw := by
  induction raw with
  | nil => rfl
  | cons c cs ih =>
    have hcs := ih fun hmem => h (List.mem_cons_of_mem _ hmem)
    cases cs with
    | nil => simp [unfoldCrlf]
    | cons d ds =>
      have hd : d ≠ '\n' := fun heq => h (by simp [heq])
      rw [unfoldCrlf]
      · simp [hcs]
      · intro _ _ heq
        exact hd (by simpa using congrArg List.head? heq)

theorem unfoldLf_eq_self {raw : List Char} (h : '\n' ∉ raw) : unfoldLf false raw = raw := by
  induction raw with
  | nil => rfl
  | cons c cs ih =>
    have hc : c ≠ '\n' := fun heq => h (by simp [heq])
    rw [unfoldLf, ih fun hmem => h (List.mem_cons_of_mem _ hmem)]
    simp [hc]

/-- A text of one line is not folded. -/
theorem unfoldHeader_eq_self {raw : List Char} (h : '\n' ∉ raw) : unfoldHeader raw = raw := by
  unfold unfoldHeader
  rw [unfoldCrlf_eq_self h, unfoldLf_eq_self h]

/-! ### Lists -/

/-- The ids of a text, repetitions included. -/
def headerIds (raw : List Char) : List NormalizedRfcMessageId :=
  (raw.splitOnP isBlank).filterMap normalizeRfcMessageIdToken

theorem normalizeRfcMessageIdList_eq (raw : String) :
    normalizeRfcMessageIdList raw = keepFirst id [] (headerIds (unfoldHeader raw.toList)) := rfl

theorem parsed_of_mem {raw : String} {id : NormalizedRfcMessageId}
    (h : id ∈ normalizeRfcMessageIdList raw) : id.Parsed := by
  rw [normalizeRfcMessageIdList_eq, mem_keepFirst_id] at h
  obtain ⟨token, -, htoken⟩ := List.mem_filterMap.mp h
  exact ⟨token, htoken⟩

theorem normalizeRfcMessageIdList_nodup (raw : String) :
    (normalizeRfcMessageIdList raw).Nodup := keepFirst_id_nodup _

theorem headerIds_single {id : NormalizedRfcMessageId} (h : id.Parsed) :
    headerIds id.val.toList = [id] := by
  unfold headerIds
  rw [List.splitOnP_eq_singleton fun c hc => (h.plain c hc).1]
  simp [h.self]

/-- The text `joinRfcMessageIds` writes. -/
theorem joinRfcMessageIds_toList (ids : List NormalizedRfcMessageId) :
    (joinRfcMessageIds ids).toList = [' '].intercalate (ids.map (·.val.toList)) := by
  unfold joinRfcMessageIds
  rw [String.toList_intercalate, List.map_map]
  rfl

theorem headerIds_join {ids : List NormalizedRfcMessageId} (h : ∀ id ∈ ids, id.Parsed) :
    headerIds ([' '].intercalate (ids.map (·.val.toList))) = ids := by
  induction ids with
  | nil => rfl
  | cons id ids ih =>
    have hid := h id List.mem_cons_self
    have hrest := ih fun x hx => h x (List.mem_cons_of_mem _ hx)
    cases ids with
    | nil =>
      rw [List.map_singleton, List.intercalate_singleton]
      exact headerIds_single hid
    | cons next rest =>
      rw [List.map_cons, List.map_cons, List.intercalate_cons_cons, List.append_assoc,
        List.singleton_append]
      unfold headerIds
      rw [List.splitOnP_append_cons _ _ (by decide), List.filterMap_append]
      exact congrArg₂ (· ++ ·) (headerIds_single hid) hrest

theorem join_no_newline {ids : List NormalizedRfcMessageId} (h : ∀ id ∈ ids, id.Parsed) :
    '\n' ∉ [' '].intercalate (ids.map (·.val.toList)) := by
  induction ids with
  | nil => exact List.not_mem_nil
  | cons id ids ih =>
    have hid : '\n' ∉ id.val.toList := fun hmem => ((h id List.mem_cons_self).plain _ hmem).2 rfl
    have hrest := ih fun x hx => h x (List.mem_cons_of_mem _ hx)
    cases ids with
    | nil => simpa using hid
    | cons next rest =>
      rw [List.map_cons, List.map_cons, List.intercalate_cons_cons, List.append_assoc,
        List.singleton_append, List.mem_append, List.mem_cons, not_or, not_or]
      exact ⟨hid, by decide, hrest⟩

/-- **Round trip.** The ids of a joined list are parsed back. -/
theorem normalizeRfcMessageIdList_join {ids : List NormalizedRfcMessageId}
    (h : ∀ id ∈ ids, id.Parsed) (hnodup : ids.Nodup) :
    normalizeRfcMessageIdList (joinRfcMessageIds ids) = ids := by
  rw [normalizeRfcMessageIdList_eq, joinRfcMessageIds_toList,
    unfoldHeader_eq_self (join_no_newline h), headerIds_join h]
  exact keepFirst_of_nodup hnodup fun _ _ => List.not_mem_nil

/-- A parsed id is normalized to itself. -/
theorem normalizeRfcMessageId_self {id : NormalizedRfcMessageId} (h : id.Parsed) :
    normalizeRfcMessageId id.val = some id := by
  have hlist : normalizeRfcMessageIdList id.val = [id] := by
    have hparsed : ∀ x ∈ [id], x.Parsed := fun x hx => List.mem_singleton.mp hx ▸ h
    have hjoin := normalizeRfcMessageIdList_join hparsed (List.nodup_singleton id)
    rwa [joinRfcMessageIds, List.map_singleton, String.intercalate_singleton] at hjoin
  unfold normalizeRfcMessageId
  rw [hlist]

theorem parsed_of_normalizeRfcMessageId {raw : String} {id : NormalizedRfcMessageId}
    (h : normalizeRfcMessageId raw = some id) : id.Parsed := by
  unfold normalizeRfcMessageId at h
  split at h
  · next token hlist =>
    obtain rfl := Option.some.inj h
    exact parsed_of_mem (hlist ▸ List.mem_singleton_self token)
  · exact absurd h (by simp)

/-- Normalizing a second time changes nothing. -/
theorem normalizeRfcMessageId_twice (raw : String) :
    ((normalizeRfcMessageId raw).map (·.val)).bind normalizeRfcMessageId =
      normalizeRfcMessageId raw := by
  cases h : normalizeRfcMessageId raw with
  | none => rfl
  | some id => exact normalizeRfcMessageId_self (parsed_of_normalizeRfcMessageId h)

end Umail
