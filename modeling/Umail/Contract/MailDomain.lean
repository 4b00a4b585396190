import Umail.Contract.ExternalAddress

/-! # Mailbox addresses in configured domains

  `ConfiguredMailDomain` of `apps/server/src/mail/domains.ts` and the domains of
  `layoutForStage` in `apps/server/src/site.ts` name the domains in which
  mailboxes are created. Their names have no other characters than a local part
  has, so an address that `constructMailboxAddress` makes of them is read by
  all the parsers, and read alike in any letter case.
-/

namespace Umail

section domains
variable [Unicode]

/-! ### Configured domains -/

/-- `[a-z0-9](?:[a-z0-9-]{0,61}[a-z0-9])?` -/
def isHostLabel (label : List Char) : Bool :=
  let isInner := fun c : Char => ('a' ≤ c && c ≤ 'z') || ('0' ≤ c && c ≤ '9') || c = '-'
  !label.isEmpty && label.length ≤ 63 && label.all isInner && label.head? ≠ some '-' &&
    label.getLast? ≠ some '-'

/-- `[a-z]{2,63}` -/
def isTopLabel (label : List Char) : Bool :=
  2 ≤ label.length && label.length ≤ 63 && label.all fun c => 'a' ≤ c && c ≤ 'z'

/-- The pattern of `ConfiguredMailDomain`: labels, each with a dot, and a top label. -/
def isHostname (raw : List Char) : Bool :=
  match (raw.splitOn '.').reverse with
  | top :: label :: labels => isTopLabel top && (label :: labels).all isHostLabel
  | _ => false

/-- `ConfiguredMailDomain` -/
def decodeConfiguredMailDomain (raw : String) : Option MailDomain :=
  (parseMailDomain raw).filter fun domain => isHostname domain.val.toList

/-- `stageHostnameLabel` -/
def isStageLabel (stage : List Char) : Bool := stage.length ≤ 58 && isHostLabel stage

/-- `previewMailDomain` -/
def previewMailDomain (label root : String) : Option MailDomain :=
  parseMailDomain (label ++ "-mail." ++ root)

/-- A mail domain of some site: a configured one, or that of a preview. -/
inductive IsConfigured : String → Prop where
  | prod {raw : String} {domain : MailDomain} :
      decodeConfiguredMailDomain raw = some domain → IsConfigured domain.val
  | preview {raw label : String} {root domain : MailDomain} :
      decodeConfiguredMailDomain raw = some root → isStageLabel label.toList = true →
        previewMailDomain label root.val = some domain → IsConfigured domain.val

/-! ### Their characters -/

/-- A text of the characters that a local part may have. -/
def HostText (raw : List Char) : Prop := raw ≠ [] ∧ ∀ c ∈ raw, isLocalPartChar c = true

omit [Unicode] in
theorem HostText.of_label {label : List Char} (h : isHostLabel label = true) : HostText label := by
  simp only [isHostLabel, Bool.and_eq_true, Bool.not_eq_true', List.isEmpty_eq_false_iff,
    List.all_eq_true] at h
  obtain ⟨⟨⟨⟨hne, -⟩, hall⟩, -⟩, -⟩ := h
  refine ⟨hne, fun c hc => ?_⟩
  have hinner := hall c hc
  simp only [Bool.or_eq_true, decide_eq_true_eq] at hinner
  simp only [isLocalPartChar, Bool.or_eq_true, decide_eq_true_eq]
  tauto

omit [Unicode] in
theorem HostText.of_top {label : List Char} (h : isTopLabel label = true) : HostText label := by
  simp only [isTopLabel, Bool.and_eq_true, decide_eq_true_eq, List.all_eq_true] at h
  obtain ⟨⟨hlow, -⟩, hall⟩ := h
  refine ⟨fun hnil => ?_, fun c hc => ?_⟩
  · simp [hnil] at hlow
  · simp [isLocalPartChar, hall c hc]

omit [Unicode] in
theorem mem_intercalate_cases {sep c : Char} {pieces : List (List Char)}
    (h : c ∈ [sep].intercalate pieces) : c = sep ∨ ∃ piece ∈ pieces, c ∈ piece := by
  induction pieces with
  | nil => cases h
  | cons piece pieces ih =>
    cases pieces with
    | nil => exact .inr ⟨piece, List.mem_cons_self, by simpa [List.intercalate] using h⟩
    | cons next rest =>
      have hsplit : [sep].intercalate (piece :: next :: rest) =
          piece ++ sep :: [sep].intercalate (next :: rest) := by
        simp [List.intercalate]
      rw [hsplit, List.mem_append, List.mem_cons] at h
      obtain hpiece | hsep | hrest := h
      · exact .inr ⟨piece, List.mem_cons_self, hpiece⟩
      · exact .inl hsep
      · exact (ih hrest).imp id fun ⟨other, hmem, hc⟩ =>
          ⟨other, List.mem_cons_of_mem piece hmem, hc⟩

omit [Unicode] in
theorem HostText.of_hostname {raw : List Char} (h : isHostname raw = true) : HostText raw := by
  unfold isHostname at h
  split at h
  · next top label labels hsplit =>
    rw [Bool.and_eq_true, List.all_eq_true] at h
    obtain ⟨htop, hlabels⟩ := h
    have hpieces : ∀ piece ∈ raw.splitOn '.', HostText piece := by
      intro piece hpiece
      rw [← List.mem_reverse, hsplit] at hpiece
      obtain rfl | hpiece := List.mem_cons.mp hpiece
      · exact .of_top htop
      · exact .of_label (hlabels piece hpiece)
    have hraw : ['.'].intercalate (raw.splitOn '.') = raw := List.intercalate_splitOn '.'
    constructor
    · rintro rfl
      cases hsplit
    · intro c hc
      rw [← hraw] at hc
      obtain rfl | ⟨piece, hpiece, hc⟩ := mem_intercalate_cases hc
      · decide
      · exact (hpieces piece hpiece).2 c hc
  · cases h

omit [Unicode] in
theorem HostText.append {a b : List Char} (ha : HostText a) (hb : HostText b) :
    HostText (a ++ b) := by
  refine ⟨List.append_ne_nil_of_left_ne_nil ha.1 b, fun c hc => ?_⟩
  obtain hc | hc := List.mem_append.mp hc
  · exact ha.2 c hc
  · exact hb.2 c hc

section text
variable {raw : List Char}

omit [Unicode] in
theorem HostText.range (h : HostText raw) {c : Char} (hc : c ∈ raw) :
    (97 ≤ c.toNat ∧ c.toNat ≤ 122) ∨ (48 ≤ c.toNat ∧ c.toNat ≤ 57) ∨
      c.toNat = 46 ∨ c.toNat = 95 ∨ c.toNat = 45 := isLocalPartChar_iff.mp (h.2 c hc)

omit [Unicode] in
theorem HostText.map_toLower (h : HostText raw) : raw.map Char.toLower = raw := by
  have hchars : ∀ c ∈ raw, c.toLower = id c := fun c hc =>
    toLower_of_isLocalPartChar (h.2 c hc)
  rw [List.map_congr_left hchars, List.map_id]

omit [Unicode] in
theorem HostText.trim_eq (h : HostText raw) : trim raw = raw := by
  have hspace : ∀ c ∈ raw, isWhiteSpace c = false := by
    intro c hc
    apply isWhiteSpace_of_isRawLocalPartChar
    rw [isRawLocalPartChar_iff, toLower_of_isLocalPartChar (h.2 c hc)]
    exact h.2 c hc
  exact trim_of_ends (fun c hc => hspace c (List.mem_of_head? hc))
    fun c hc => hspace c (List.mem_of_getLast? hc)

omit [Unicode] in
theorem HostText.not_at (h : HostText raw) : '@' ∉ raw := fun hat =>
  absurd (h.2 '@' hat) (by decide)

omit [Unicode] in
theorem HostText.allowed (h : HostText raw) : ∀ c ∈ raw, isDisallowedAddressChar c = false := by
  intro c hc
  have hrange := h.range hc
  simp only [isDisallowedAddressChar, Bool.or_eq_false_iff, decide_eq_false_iff_not]
  omega

theorem HostText.toLowerCase_eq [LawfulUnicode] (h : HostText raw) :
    toLowerCase (String.ofList raw) = String.ofList raw := by
  rw [LawfulUnicode.ascii, String.toList_ofList, h.map_toLower]
  intro c hc
  rw [String.toList_ofList] at hc
  have hrange := h.range hc
  omega

end text

variable [LawfulUnicode]

theorem HostText.of_configured {domain : String} (h : IsConfigured domain) :
    HostText domain.toList := by
  have hprod : ∀ {raw : String} {domain : MailDomain},
      decodeConfiguredMailDomain raw = some domain → HostText domain.val.toList := by
    intro raw domain hdecode
    exact .of_hostname (Option.filter_eq_some_iff.mp hdecode).2
  cases h with
  | prod hdecode => exact hprod hdecode
  | @preview raw label root domain hdecode hlabel hpreview =>
    have hlabel' : HostText label.toList := .of_label (Bool.and_eq_true_iff.mp hlabel).2
    have hchars : "-mail.".toList.all isLocalPartChar = true := by decide
    have hmail : HostText "-mail.".toList := ⟨by decide, List.all_eq_true.mp hchars⟩
    have htext : HostText (label ++ "-mail." ++ root.val).toList := by
      rw [String.toList_append, String.toList_append]
      exact (hlabel'.append hmail).append (hprod hdecode)
    -- such a text is trimmed and in lower case already
    have hval := decodeMailDomain_some hpreview
    rw [htext.trim_eq, htext.toLowerCase_eq, String.ofList_toList] at hval
    rw [hval]
    exact htext

/-! ### Constructed addresses -/

/-- `raw` is `address` in other letters, with white space around it. -/
def SpellingOf (raw address : String) : Prop :=
  (trim raw.toList).map Char.toLower = address.toList.map Char.toLower

/-- The form in which the two parts of an address are compared. -/
def canonicalPart (raw : String) : String := toLowerCase (String.ofList (trim raw.toList))

omit [LawfulUnicode] in
/-- What `constructMailboxAddress` has checked when it succeeds. -/
theorem constructMailboxAddress_ok {rawLocalPart rawDomain : String}
    {parsed : ParsedMailboxAddress}
    (h : constructMailboxAddress rawLocalPart rawDomain = .ok parsed) :
    ∃ (l : MailboxLocalPart) (d : MailDomain),
      l.val = canonicalPart rawLocalPart ∧ d.val = canonicalPart rawDomain ∧
      (∀ c ∈ trim rawLocalPart.toList, isRawLocalPartChar c = true) ∧
      l.val ∉ reservedLocalParts ∧ assembleMailboxAddress l d = some parsed := by
  unfold constructMailboxAddress at h
  split at h
  · next l d hl hd =>
    split at h
    · cases h
    · next hreserved =>
      split at h
      · next parsed' hassemble =>
        cases h
        unfold parseMailboxLocalPart decodeRawMailboxLocalPart at hl
        split at hl
        · next hraw =>
          rw [Bool.and_eq_true, List.all_eq_true] at hraw
          exact ⟨l, d, decodeMailboxLocalPart_some hl, decodeMailDomain_some hd, hraw.2,
            hreserved, hassemble⟩
        · cases hl
      · cases h
  · cases h

/-- A local part of permitted characters is reserved in any letter case or in none. -/
theorem canonicalPart_of_raw {raw : String}
    (h : ∀ c ∈ trim raw.toList, isRawLocalPartChar c = true) :
    canonicalPart raw = String.ofList ((trim raw.toList).map Char.toLower) :=
  toLowerCase_of_raw h

theorem canonicalPart_of_configured {domain : String} (h : IsConfigured domain) :
    canonicalPart domain = domain := by
  have htext := HostText.of_configured h
  rw [canonicalPart, htext.trim_eq, htext.toLowerCase_eq, String.ofList_toList]

omit [Unicode] [LawfulUnicode] in
/-- Nothing but the separator is mapped to it. -/
theorem toLower_eq_at {c : Char} (h : c.toLower = '@') : c = '@' := by
  rw [char_eq_iff, toNat_toLower] at h
  rw [char_eq_iff]
  simp only [Char.reduceToNat] at h ⊢
  split at h <;> omega

omit [LawfulUnicode] in
theorem MailboxLocalPart.hostText (l : MailboxLocalPart) : HostText l.val.toList :=
  ⟨l.spec.1, l.spec.2⟩

omit [LawfulUnicode] in
theorem trim_parts {l : MailboxLocalPart} {d : MailDomain} (hd : HostText d.val.toList) :
    trim (l.val ++ "@" ++ d.val).toList = (l.val ++ "@" ++ d.val).toList := by
  have htext : (l.val ++ "@" ++ d.val).toList = l.val.toList ++ '@' :: d.val.toList := by simp
  rw [htext]
  apply trim_of_ends
  · intro c hc
    rw [List.head?_append_of_ne_nil _ l.hostText.1] at hc
    exact trim_head (by rwa [l.hostText.trim_eq])
  · intro c hc
    rw [List.getLast?_append_of_ne_nil _ (List.cons_ne_nil _ _),
      List.getLast?_cons_of_ne_nil hd.1] at hc
    exact trim_last (by rwa [hd.trim_eq])

/-- A spelling of an address splits where the address does. -/
theorem sameAddress_of_spelling {raw : String} {l : MailboxLocalPart} {d : MailDomain}
    (hd : HostText d.val.toList) (h : SpellingOf raw (l.val ++ "@" ++ d.val)) :
    SameAddress raw (l.val ++ "@" ++ d.val) := by
  have htext : (l.val ++ "@" ++ d.val).toList = l.val.toList ++ '@' :: d.val.toList := by simp
  rw [SpellingOf, htext, List.map_append, List.map_cons, l.lower, hd.map_toLower,
    List.map_eq_append_iff] at h
  obtain ⟨before, rest, hraw, hbefore, hrest⟩ := h
  obtain ⟨at', after, rfl, hat, hafter⟩ := List.map_eq_cons_iff.mp hrest
  have hat' : at' = '@' := toLower_eq_at hat
  subst hat'
  have hnot : '@' ∉ after := by
    intro hmem
    exact hd.not_at (hafter ▸ List.mem_map_of_mem hmem)
  -- the domain is in ASCII, so its letters are mapped one by one
  have hascii : toLowerCase (String.ofList after) = d.val := by
    rw [LawfulUnicode.ascii, String.toList_ofList, hafter, String.ofList_toList]
    intro c hc
    rw [String.toList_ofList] at hc
    have hrange := hd.range (hafter ▸ List.mem_map_of_mem hc)
    rw [toNat_toLower] at hrange
    split at hrange <;> omega
  refine ⟨before, after, l.val.toList, d.val.toList, ?_, ?_, ?_, ?_⟩
  · rw [hraw, splitAtLast_append hnot]
  · rw [trim_parts hd, splitAtLast_assembled]
  · rw [hbefore, l.lower]
  · rw [hascii, hd.toLowerCase_eq, String.ofList_toList]

/-- The outbound sender check takes the address as it is. -/
theorem parseExternalMailAddress_of_parts {l : MailboxLocalPart} {d : MailDomain}
    (hd : HostText d.val.toList) :
    ∃ external, parseExternalMailAddress (l.val ++ "@" ++ d.val) = some external ∧
      external.address.val = l.val ++ "@" ++ d.val := by
  have hparts : CanonicalParts l.val.toList d.val.toList :=
    { local_ne := l.spec.1
      domain_ne := hd.1
      lower := hd.toLowerCase_eq
      local_chars := l.hostText.allowed
      domain_chars := hd.allowed
      local_at := l.hostText.not_at
      domain_at := hd.not_at }
  have hcanonical : isCanonicalExternalMailAddress (l.val ++ "@" ++ d.val) = true := by
    have hjoin := isCanonical_join.mpr hparts
    rwa [String.ofList_toList] at hjoin
  obtain ⟨external, hparse, haddress⟩ := @parse_of_trimmed _ _ ⟨_, hcanonical⟩
      (trim_parts hd)
  exact ⟨external, hparse, congrArg Subtype.val haddress⟩

/-- What holds of an address that is constructed of two texts. -/
structure CanonicalMailbox (rawLocalPart rawDomain : String) (parsed : ParsedMailboxAddress) :
    Prop where
  /-- Every spelling of the address is read as it. -/
  spellings : ∀ raw, SpellingOf raw parsed.address.val →
    ∃ again, parseMailboxAddress raw = some again ∧ again.address = parsed.address
  reparsed : ∃ again, parseMailboxAddress parsed.address.val = some again ∧
    again.address = parsed.address
  /-- Another constructed address is this one exactly when its parts are. -/
  equal_iff : ∀ rawLocalPart' rawDomain' parsed',
    constructMailboxAddress rawLocalPart' rawDomain' = .ok parsed' →
      (parsed'.address = parsed.address ↔
        canonicalPart rawLocalPart' = canonicalPart rawLocalPart ∧
          canonicalPart rawDomain' = canonicalPart rawDomain)
  not_reserved : ∀ reserved ∈ reservedLocalParts,
    (trim rawLocalPart.toList).map Char.toLower ≠ reserved.toList ∧
      canonicalPart rawLocalPart ≠ reserved
  external : ∃ external, parseExternalMailAddress parsed.address.val = some external ∧
    external.address.val = parsed.address.val

/-- A mailbox address in a configured domain has one canonical form. -/
theorem CanonicalMailbox.of_construct {rawLocalPart rawDomain : String}
    {parsed : ParsedMailboxAddress} (hdomain : IsConfigured rawDomain)
    (h : constructMailboxAddress rawLocalPart rawDomain = .ok parsed) :
    CanonicalMailbox rawLocalPart rawDomain parsed := by
  obtain ⟨l, d, hl, hd, hchars, hreserved, hassemble⟩ := constructMailboxAddress_ok h
  have hval := assembleMailboxAddress_some hassemble
  have hhost : HostText d.val.toList := by
    rw [hd, canonicalPart_of_configured hdomain]
    exact .of_configured hdomain
  have hregistrable : parsed.address.Registrable := ⟨rawLocalPart, rawDomain, parsed, h, rfl⟩
  have hspellings : ∀ raw, SpellingOf raw parsed.address.val →
      ∃ again, parseMailboxAddress raw = some again ∧ again.address = parsed.address := by
    intro raw hraw
    rw [hval] at hraw
    have hsame := sameAddress_of_spelling hhost hraw
    rw [← hval] at hsame
    exact (sameAddress_iff hregistrable).mp hsame
  refine ⟨hspellings, hspellings _ ?_, ?_, ?_, ?_⟩
  · rw [SpellingOf, hval, trim_parts hhost]
  · intro rawLocalPart' rawDomain' parsed' h'
    obtain ⟨l', d', hl', hd', -, -, hassemble'⟩ := constructMailboxAddress_ok h'
    rw [← hl, ← hd, ← hl', ← hd']
    have hval' := assembleMailboxAddress_some hassemble'
    constructor
    · intro heq
      -- both addresses split into their parts in the same way
      have hsplit := splitAtLast_assembled l' d'
      rw [← hval', heq, hval, splitAtLast_assembled] at hsplit
      obtain ⟨hlocal, hdom⟩ := Prod.mk.inj (Option.some.inj hsplit)
      exact ⟨(String.toList_inj.mp hlocal).symm, (String.toList_inj.mp hdom).symm⟩
    · rintro ⟨hlocal, hdom⟩
      apply Subtype.ext
      rw [hval, hval', hlocal, hdom]
  · intro reserved hmem
    have hne : canonicalPart rawLocalPart ≠ reserved := by
      rintro rfl
      exact hreserved (hl ▸ hmem)
    refine ⟨?_, hne⟩
    rw [canonicalPart_of_raw hchars] at hne
    intro heq
    exact hne (by rw [heq, String.ofList_toList])
  · rw [hval]
    exact parseExternalMailAddress_of_parts hhost

end domains

end Umail
