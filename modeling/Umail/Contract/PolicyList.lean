import Umail.Contract.ExternalAddress
import Umail.Contract.Policy

/-! # Lists in policy fields

  The readers of `packages/api-contract/src/principal-authorization.ts` for
  the text fields of a policy: comma-separated entries with white space around
  them. What a reader returns, joined again, is read as the same list.
-/

namespace Umail

/-! ### Entries -/

def splitPolicyList (raw : String) : List String :=
  (((raw.toList.splitOn ',').map trim).filter fun entry => !entry.isEmpty).map String.ofList

/-- A text that can stand between two commas. -/
structure IsEntry (entry : String) : Prop where
  nonempty : entry.toList ≠ []
  trimmed : trim entry.toList = entry.toList
  noComma : ',' ∉ entry.toList

theorem trim_sublist (raw : List Char) : (trim raw).Sublist raw := by
  have hinner := List.dropWhile_sublist isWhiteSpace (l := (raw.dropWhile isWhiteSpace).reverse)
  have htrim := hinner.reverse
  rw [List.reverse_reverse] at htrim
  exact htrim.trans (List.dropWhile_sublist isWhiteSpace)

theorem not_mem_of_mem_splitOn {c : Char} {raw piece : List Char} (h : piece ∈ raw.splitOn c) :
    c ∉ piece := by
  induction raw generalizing piece with
  | nil =>
    rw [List.splitOn_nil, List.mem_singleton] at h
    rw [h]
    exact List.not_mem_nil
  | cons d raw ih =>
    rw [List.splitOn_cons_eq_if_modifyHead] at h
    split at h
    · rcases List.mem_cons.mp h with rfl | h
      · exact List.not_mem_nil
      · exact ih h
    · next hne =>
      cases hpieces : raw.splitOn c with
      | nil => exact absurd hpieces (List.splitOn_ne_nil c raw)
      | cons first rest =>
        rw [hpieces, List.modifyHead_cons] at h
        rcases List.mem_cons.mp h with rfl | h
        · rw [List.mem_cons, not_or]
          exact ⟨fun heq => hne (by simp [heq]), ih (by simp [hpieces])⟩
        · exact ih (by simp [hpieces, h])

theorem mem_dropWhile_of_neg {p : Char → Bool} {c : Char} {raw : List Char} (hc : p c = false)
    (h : c ∈ raw) : c ∈ raw.dropWhile p := by
  have hsplit : raw.takeWhile p ++ raw.dropWhile p = raw := List.takeWhile_append_dropWhile
  rw [← hsplit] at h
  rcases List.mem_append.mp h with h | h
  · exact absurd (List.mem_takeWhile_imp h) (by simp [hc])
  · exact h

/-- Only white space is trimmed. -/
theorem mem_trim {c : Char} {raw : List Char} (hc : isWhiteSpace c = false) (h : c ∈ raw) :
    c ∈ trim raw := by
  unfold trim
  rw [List.mem_reverse]
  apply mem_dropWhile_of_neg hc
  rw [List.mem_reverse]
  exact mem_dropWhile_of_neg hc h

/-- A text that is trimmed to an entry has that entry only. -/
theorem splitPolicyList_of_trim {raw word : String} (hword : IsEntry word)
    (h : trim raw.toList = word.toList) : splitPolicyList raw = [word] := by
  have hcomma : ',' ∉ raw.toList := fun hmem =>
    hword.noComma (h ▸ mem_trim (by decide) hmem)
  have hkeep : [word.toList].filter (fun entry => !entry.isEmpty) = [word.toList] := by
    simpa using hword.nonempty
  unfold splitPolicyList
  rw [List.splitOn_eq_singleton hcomma, List.map_singleton, h, hkeep, List.map_singleton,
    String.ofList_toList]

/-- Splitting yields entries. -/
theorem isEntry_of_split {raw entry : String} (h : entry ∈ splitPolicyList raw) :
    IsEntry entry := by
  obtain ⟨text, htext, rfl⟩ := List.mem_map.mp h
  obtain ⟨hmem, hne⟩ := List.mem_filter.mp htext
  obtain ⟨piece, hpiece, rfl⟩ := List.mem_map.mp hmem
  constructor <;> rw [String.toList_ofList]
  · simpa using hne
  · exact trim_trim piece
  · exact fun hcomma => not_mem_of_mem_splitOn hpiece ((trim_sublist piece).subset hcomma)

/-! ### Joining -/

theorem trim_append_of_space {pad raw : List Char} (h : ∀ c ∈ pad, isWhiteSpace c = true) :
    trim (pad ++ raw) = trim raw := by
  unfold trim
  rw [List.dropWhile_append_of_pos h]

/-- White space behind a comma counts for the next entry. -/
theorem intercalate_pad (pad first : List Char) (rest : List (List Char)) :
    (',' :: pad).intercalate (first :: rest) =
      [','].intercalate (first :: rest.map (pad ++ ·)) := by
  induction rest generalizing first with
  | nil => rw [List.map_nil, List.intercalate_singleton, List.intercalate_singleton]
  | cons next rest ih =>
    have hnext := ih next
    rw [List.map_cons, List.intercalate_cons_cons, List.intercalate_cons_cons, hnext]
    cases rest with
    | nil => simp
    | cons last rest =>
      rw [List.map_cons, List.intercalate_cons_cons, List.intercalate_cons_cons]
      simp

/-- **Rejoining.** Entries joined by a comma and white space are split again. -/
theorem splitPolicyList_join {entries : List String} {pad : List Char}
    (hentries : ∀ entry ∈ entries, IsEntry entry)
    (hspace : ∀ c ∈ pad, isWhiteSpace c = true) :
    splitPolicyList ((String.ofList (',' :: pad)).intercalate entries) = entries := by
  unfold splitPolicyList
  rw [String.toList_intercalate, String.toList_ofList]
  cases entries with
  | nil => rfl
  | cons first rest =>
    have hpad : ',' ∉ pad := fun hcomma => absurd (hspace ',' hcomma) (by decide)
    have hpieces : ∀ piece ∈ first.toList :: (rest.map String.toList).map (pad ++ ·),
        ',' ∉ piece := by
      intro piece hpiece
      rcases List.mem_cons.mp hpiece with rfl | hpiece
      · exact (hentries first List.mem_cons_self).noComma
      · obtain ⟨text, htext, rfl⟩ := List.mem_map.mp hpiece
        obtain ⟨entry, hentry, rfl⟩ := List.mem_map.mp htext
        rw [List.mem_append, not_or]
        exact ⟨hpad, (hentries entry (List.mem_cons_of_mem first hentry)).noComma⟩
    rw [List.map_cons, intercalate_pad, List.splitOn_intercalate ',' hpieces (List.cons_ne_nil _ _)]
    -- trimming takes the white space away and leaves the entries
    have htrim : (first.toList :: (rest.map String.toList).map (pad ++ ·)).map trim =
        (first :: rest).map String.toList := by
      rw [List.map_cons, List.map_map, List.map_map, List.map_cons,
        (hentries first List.mem_cons_self).trimmed]
      congr 1
      apply List.map_congr_left
      intro entry hentry
      rw [Function.comp_apply, Function.comp_apply, trim_append_of_space hspace]
      exact (hentries entry (List.mem_cons_of_mem first hentry)).trimmed
    have hkeep : ((first :: rest).map String.toList).filter (fun entry => !entry.isEmpty) =
        (first :: rest).map String.toList := by
      apply List.filter_eq_self.mpr
      intro text htext
      obtain ⟨entry, hentry, rfl⟩ := List.mem_map.mp htext
      simpa using (hentries entry hentry).nonempty
    rw [htrim, hkeep, List.map_map]
    simp

section policy
variable [Unicode]

/-! ### Addresses -/

/-- The addresses of the entries, or the first entry that is none. -/
def parseEntries : List String → Except String (List ExternalMailAddress)
  | [] => .ok []
  | entry :: entries =>
    match parseExternalMailAddress entry with
    | none => .error entry
    | some parsed => (parseEntries entries).map (parsed.address :: ·)

def parseMailAddressList (raw : String) : Except String (List ExternalMailAddress) :=
  (parseEntries (splitPolicyList raw)).map (keepFirst id [])

/-- What the readers rely on in `String.prototype.toLowerCase`, beside its
    treatment of white space: a comma comes from a comma only. -/
class LawfulSeparator : Prop extends LawfulWhiteSpace where
  comma : ∀ raw : String, ',' ∈ (toLowerCase raw).toList → ',' ∈ raw.toList

/-- Addresses that can be listed in a field. -/
structure Listed (addresses : List ExternalMailAddress) : Prop where
  nodup : addresses.Nodup
  entries : ∀ address ∈ addresses, IsEntry address.val

/-- The address of an entry is an entry. -/
theorem isEntry_parsed [LawfulSeparator] {entry : String} {parsed : ParsedExternalMailAddress}
    (hentry : IsEntry entry) (h : parseExternalMailAddress entry = some parsed) :
    IsEntry parsed.address.val := by
  have hdecoded : decodeExternalMailAddress (configuredForm entry) = some parsed.address := by
    have heq := parseExternalMailAddress_eq entry
    rw [h] at heq
    exact heq.symm
  have hval := decodeExternalMailAddress_some hdecoded
  refine ⟨?_, trim_parsed h, ?_⟩
  · intro hnil
    have hcanonical := parsed.address.property
    simp [isCanonicalExternalMailAddress, hnil, splitAtLast] at hcanonical
  · rw [hval, configuredForm, hentry.trimmed]
    split
    · rw [String.toList_ofList]
      exact hentry.noComma
    · next before after hsplit =>
      have htext := (splitAtLast_some hsplit).1
      have hnot := hentry.noComma
      rw [htext, List.mem_append, List.mem_cons, not_or, not_or] at hnot
      obtain ⟨hbefore, -, hafter⟩ := hnot
      intro hmem
      simp only [String.toList_append, List.mem_append, String.toList_ofList] at hmem
      rcases hmem with (hmem | hmem) | hmem
      · exact hbefore hmem
      · exact absurd hmem (by decide)
      · have hcomma := LawfulSeparator.comma _ hmem
        rw [String.toList_ofList] at hcomma
        exact hafter hcomma

theorem parseEntries_ok [LawfulSeparator] {entries : List String}
    {addresses : List ExternalMailAddress} (hentries : ∀ entry ∈ entries, IsEntry entry)
    (h : parseEntries entries = .ok addresses) : ∀ address ∈ addresses,
      IsEntry address.val := by
  induction entries generalizing addresses with
  | nil =>
    cases h
    exact fun _ hmem => absurd hmem List.not_mem_nil
  | cons entry entries ih =>
    unfold parseEntries at h
    split at h
    · cases h
    · next parsed hparsed =>
      cases hrest : parseEntries entries with
      | error value => simp [hrest, Except.map] at h
      | ok rest =>
        rw [hrest] at h
        cases h
        intro address hmem
        rcases List.mem_cons.mp hmem with rfl | hmem
        · exact isEntry_parsed (hentries entry List.mem_cons_self) hparsed
        · exact ih (fun e he => hentries e (List.mem_cons_of_mem entry he)) hrest address hmem

theorem parseEntries_vals {addresses : List ExternalMailAddress} [LawfulUnicode]
    (h : ∀ address ∈ addresses, IsEntry address.val) :
    parseEntries (addresses.map (·.val)) = .ok addresses := by
  induction addresses with
  | nil => rfl
  | cons address addresses ih =>
    obtain ⟨parsed, hparsed, haddress⟩ :=
      parse_of_trimmed (h address List.mem_cons_self).trimmed
    have hrest := ih fun a ha => h a (List.mem_cons_of_mem address ha)
    simp only [List.map_cons, parseEntries, hparsed, hrest, haddress, Except.map]

/-- What is read can be listed. -/
theorem parseMailAddressList_listed [LawfulSeparator] {raw : String}
    {addresses : List ExternalMailAddress} (h : parseMailAddressList raw = .ok addresses) :
    Listed addresses := by
  unfold parseMailAddressList at h
  cases hentries : parseEntries (splitPolicyList raw) with
  | error value => simp [hentries, Except.map] at h
  | ok all =>
    rw [hentries] at h
    cases h
    exact ⟨keepFirst_id_nodup all, fun address hmem =>
      parseEntries_ok (fun _ => isEntry_of_split) hentries address (mem_keepFirst_id.mp hmem)⟩

/-- **Addresses.** Listed addresses are read back in their order. -/
theorem parseMailAddressList_join [LawfulUnicode] {addresses : List ExternalMailAddress}
    (h : Listed addresses) :
    parseMailAddressList (", ".intercalate (addresses.map (·.val))) = .ok addresses := by
  have hentries : ∀ entry ∈ addresses.map (·.val), IsEntry entry := by
    intro entry hentry
    obtain ⟨address, haddress, rfl⟩ := List.mem_map.mp hentry
    exact h.entries address haddress
  have hspace : ∀ c ∈ [' '], isWhiteSpace c = true := by
    intro c hc
    rw [List.mem_singleton.mp hc]
    rfl
  have hsplit : splitPolicyList (", ".intercalate (addresses.map (·.val))) =
      addresses.map (·.val) := splitPolicyList_join hentries hspace
  unfold parseMailAddressList
  rw [hsplit, parseEntries_vals h.entries]
  exact congrArg Except.ok (keepFirst_of_nodup h.nodup fun _ _ => List.not_mem_nil)

/-! ### Mailboxes -/

/-- `none` when the field is empty. -/
def parsePrincipalMailboxIds (raw : String) : Option PrincipalMailboxIds :=
  if trim raw.toList = "all".toList then some .all
  else
    match keepFirst id [] (splitPolicyList raw) with
    | [] => none
    | first :: rest => some (.only first rest)

omit [Unicode] in
theorem parsePrincipalMailboxIds_all : parsePrincipalMailboxIds "all" = some .all :=
  if_pos (by decide)

/-- The ids of a policy for some mailboxes; none for all of them. -/
def PrincipalMailboxIds.ids : PrincipalMailboxIds → List String
  | .all => []
  | .only first rest => first :: rest

omit [Unicode] in
theorem parsePrincipalMailboxIds_entries {raw : String} {mailboxIds : PrincipalMailboxIds}
    (h : parsePrincipalMailboxIds raw = some mailboxIds) :
    ∀ id ∈ mailboxIds.ids, IsEntry id := by
  unfold parsePrincipalMailboxIds at h
  split at h
  · cases h
    exact fun _ hmem => absurd hmem List.not_mem_nil
  · split at h
    · cases h
    · next first rest hkeep =>
      cases h
      intro id hmem
      rw [PrincipalMailboxIds.ids, ← hkeep] at hmem
      exact isEntry_of_split (mem_keepFirst_id.mp hmem)

omit [Unicode] in
/-- **Mailboxes.** Joined ids are read as their set, unless the one id is the
    word for all mailboxes. -/
theorem parsePrincipalMailboxIds_join {ids : List String} (hentries : ∀ id ∈ ids, IsEntry id)
    (hne : ids ≠ []) (hall : ids ≠ ["all"]) :
    ∃ first rest, parsePrincipalMailboxIds (",".intercalate ids) = some (.only first rest) ∧
      ∀ id, id ∈ first :: rest ↔ id ∈ ids := by
  have hsplit : splitPolicyList (",".intercalate ids) = ids :=
    splitPolicyList_join hentries fun _ h => absurd h List.not_mem_nil
  have hnotAll : trim (",".intercalate ids).toList ≠ "all".toList := by
    intro htrim
    have hword : IsEntry "all" := ⟨by decide, by decide, by decide⟩
    exact hall (hsplit.symm.trans (splitPolicyList_of_trim hword htrim))
  unfold parsePrincipalMailboxIds
  rw [if_neg hnotAll, hsplit]
  cases hkeep : keepFirst id [] ids with
  | nil =>
    cases ids with
    | nil => exact absurd rfl hne
    | cons first rest => simp [keepFirst] at hkeep
  | cons first rest =>
    refine ⟨first, rest, rfl, fun id => ?_⟩
    rw [← hkeep]
    exact mem_keepFirst_id

/-! ### Recipients -/

inductive PrincipalRecipientAllowlistParseResult where
  | ok (recipientAllowlist : PrincipalRecipientAllowlist)
  | empty
  | invalid_address (value : String)

def parsePrincipalRecipientAllowlist (raw : String) : PrincipalRecipientAllowlistParseResult :=
  if trim raw.toList = "any".toList then .ok .any
  else
    match parseMailAddressList raw with
    | .error value => .invalid_address value
    | .ok [] => .empty
    | .ok (first :: rest) => .ok (.only first rest)

theorem parsePrincipalRecipientAllowlist_any :
    parsePrincipalRecipientAllowlist "any" = .ok .any := if_pos (by decide)

/-- The addresses of an allowlist; none for any recipient. -/
def PrincipalRecipientAllowlist.addresses : PrincipalRecipientAllowlist → List ExternalMailAddress
  | .any => []
  | .only first rest => first :: rest

theorem parsePrincipalRecipientAllowlist_listed [LawfulSeparator] {raw : String}
    {allowlist : PrincipalRecipientAllowlist}
    (h : parsePrincipalRecipientAllowlist raw = .ok allowlist) : Listed allowlist.addresses := by
  unfold parsePrincipalRecipientAllowlist at h
  split at h
  · cases h
    exact ⟨List.nodup_nil, fun _ hmem => absurd hmem List.not_mem_nil⟩
  · split at h
    · cases h
    · cases h
    · next hparse =>
      cases h
      exact parseMailAddressList_listed hparse

theorem parseExternalMailAddress_any : parseExternalMailAddress "any" = none := rfl

/-- **Recipients.** A joined allowlist is read back; no address is the word
    for any recipient. -/
theorem parsePrincipalRecipientAllowlist_join [LawfulUnicode] {first : ExternalMailAddress}
    {rest : List ExternalMailAddress} (h : Listed (first :: rest)) :
    parsePrincipalRecipientAllowlist (", ".intercalate ((first :: rest).map (·.val))) =
      .ok (.only first rest) := by
  have hparse := parseMailAddressList_join h
  have hnotAny : trim (", ".intercalate ((first :: rest).map (·.val))).toList ≠
      "any".toList := by
    intro htrim
    have hword : IsEntry "any" := ⟨by decide, by decide, by decide⟩
    rw [parseMailAddressList, splitPolicyList_of_trim hword htrim] at hparse
    exact absurd hparse (by simp [parseEntries, parseExternalMailAddress_any, Except.map])
  unfold parsePrincipalRecipientAllowlist
  rw [if_neg hnotAny, hparse]

end policy

/-! ### At the mapping of ASCII -/

namespace Sample.External

scoped instance lawfulSeparator : LawfulSeparator where
  comma raw h := by
    have hmap : (toLowerCase raw).toList = raw.toList.map Char.toLower := String.toList_ofList
    rw [hmap] at h
    obtain ⟨c, hc, hlower⟩ := List.mem_map.mp h
    have hcomma : c = ',' := by
      rw [char_eq_iff, toNat_toLower] at hlower
      rw [char_eq_iff]
      simp only [Char.reduceToNat] at hlower ⊢
      split at hlower <;> omega
    exact hcomma ▸ hc

end Sample.External

end Umail
