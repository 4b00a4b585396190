import Umail.Contract.MailboxForm

/-! # The validators of external addresses

  `packages/api-contract/src/mail-contact.ts` and `apps/server/src/site.ts`
  read an external address in three places: the schema `ExternalMailAddress`
  checks a text, `parseExternalMailAddress` normalizes one first, and
  `ConfiguredMailAddress` does that for the configuration.

  The two readers agree. The schema takes texts that neither would return,
  though: it refuses white space by its character codes up to U+0020, while
  trimming removes white space beyond ASCII as well.
-/

namespace Umail

/-- What the readers rely on in `String.prototype.toLowerCase`, beside the
    mapping of ASCII: white space comes last only where it did before. -/
class LawfulWhiteSpace [Unicode] : Prop extends LawfulUnicode where
  last : ∀ raw c, (toLowerCase raw).toList.getLast? = some c → isWhiteSpace c = true →
    ∃ d, raw.toList.getLast? = some d ∧ isWhiteSpace d = true

section validators
variable [Unicode]

/-! ### The decoders -/

def decodeExternalMailAddress (raw : String) : Option ExternalMailAddress :=
  if h : isCanonicalExternalMailAddress raw = true then some ⟨raw, h⟩ else none

/-- The transformation of `ConfiguredMailAddress`. -/
def configuredForm (raw : String) : String :=
  match splitAtLast '@' (trim raw.toList) with
  | none => String.ofList (trim raw.toList)
  | some (before, after) => String.ofList before ++ "@" ++ toLowerCase (String.ofList after)

/-- `ConfiguredMailAddress` -/
def decodeConfiguredMailAddress (raw : String) : Option ExternalMailAddress :=
  decodeExternalMailAddress (configuredForm raw)

/-! ### Canonical texts -/

omit [Unicode] in
theorem splitAtLast_some {c : Char} {raw before after : List Char}
    (h : splitAtLast c raw = some (before, after)) : raw = before ++ c :: after ∧
      c ∉ after := by
  induction raw generalizing before after with
  | nil => cases h
  | cons x xs ih =>
    unfold splitAtLast at h
    split at h
    · next before' after' hsplit =>
      cases h
      obtain ⟨heq, hnot⟩ := ih hsplit
      exact ⟨by rw [heq, List.cons_append], hnot⟩
    · next hnone =>
      split at h
      · next hx =>
        cases h
        exact ⟨by rw [hx, List.nil_append], splitAtLast_eq_none.mp hnone⟩
      · cases h

/-- What the schema asks of the two parts of an address. -/
structure CanonicalParts (localPart domain : List Char) : Prop where
  local_ne : localPart ≠ []
  domain_ne : domain ≠ []
  lower : toLowerCase (String.ofList domain) = String.ofList domain
  local_chars : ∀ c ∈ localPart, isDisallowedAddressChar c = false
  domain_chars : ∀ c ∈ domain, isDisallowedAddressChar c = false
  local_at : '@' ∉ localPart
  domain_at : '@' ∉ domain

theorem isCanonical_iff {raw : String} : isCanonicalExternalMailAddress raw = true ↔
    ∃ localPart domain, raw.toList = localPart ++ '@' :: domain ∧
      CanonicalParts localPart domain := by
  constructor
  · intro h
    unfold isCanonicalExternalMailAddress at h
    split at h
    · cases h
    · next localPart domain hsplit =>
      simp only [Bool.and_eq_true, Bool.not_eq_true', List.isEmpty_eq_false_iff,
        decide_eq_true_eq, List.any_eq_false, List.contains_eq_mem, decide_eq_false_iff_not,
        Bool.not_eq_true] at h
      obtain ⟨⟨⟨⟨⟨⟨hlocal, hdomain⟩, hlower⟩, hlchars⟩, hdchars⟩,
          hlat⟩, hdat⟩ := h
      exact ⟨localPart, domain, (splitAtLast_some hsplit).1, hlocal, hdomain, hlower.symm,
        hlchars, hdchars, hlat, hdat⟩
  · rintro ⟨localPart, domain, hraw, h⟩
    have hsplit : splitAtLast '@' raw.toList = some (localPart, domain) := by
      rw [hraw, splitAtLast_append h.domain_at]
    have hlocal : localPart.any isDisallowedAddressChar = false :=
      List.any_eq_false.mpr fun c hc => by simp [h.local_chars c hc]
    have hdomain : domain.any isDisallowedAddressChar = false :=
      List.any_eq_false.mpr fun c hc => by simp [h.domain_chars c hc]
    simp [isCanonicalExternalMailAddress, hsplit, h.local_ne, h.domain_ne, h.lower, hlocal,
      hdomain, h.local_at, h.domain_at]

/-- A text put together from two parts is canonical exactly when they are. -/
theorem isCanonical_join {localPart : List Char} {domain : String} :
    isCanonicalExternalMailAddress (String.ofList localPart ++ "@" ++ domain) = true ↔
      CanonicalParts localPart domain.toList := by
  have htext : (String.ofList localPart ++ "@" ++ domain).toList =
      localPart ++ '@' :: domain.toList := by simp
  rw [isCanonical_iff, htext]
  constructor
  · rintro ⟨localPart', domain', heq, h⟩
    -- the text has one separator, so it has one split
    have hcount : (localPart ++ '@' :: domain.toList).count '@' = 1 := by
      rw [heq, List.count_append, List.count_cons_self, List.count_eq_zero.mpr h.local_at,
        List.count_eq_zero.mpr h.domain_at]
    rw [List.count_append, List.count_cons_self] at hcount
    have hdomain : '@' ∉ domain.toList := List.count_eq_zero.mp (by omega)
    have hsplit := congrArg (splitAtLast '@') heq
    rw [splitAtLast_append hdomain, splitAtLast_append h.domain_at] at hsplit
    cases hsplit
    exact h
  · intro h
    exact ⟨localPart, domain.toList, rfl, h⟩

/-! ### The two readers -/

variable [LawfulUnicode]

omit [LawfulUnicode] in
theorem decodeExternalMailAddress_eq_none {raw : String} :
    decodeExternalMailAddress raw = none ↔ ¬ isCanonicalExternalMailAddress raw = true := by
  unfold decodeExternalMailAddress
  split <;> simp_all

theorem toLowerCase_empty : toLowerCase (String.ofList []) = String.ofList [] := by
  have hascii : ∀ c ∈ (String.ofList []).toList, c.toNat < 128 := by simp
  rw [LawfulUnicode.ascii _ hascii]
  rfl

omit [LawfulUnicode] in
theorem configuredForm_of_split {raw : String} {before after : List Char}
    (h : splitAtLast '@' (trim raw.toList) = some (before, after)) :
    configuredForm raw = String.ofList before ++ "@" ++ toLowerCase (String.ofList after) := by
  rw [configuredForm, h]

/-- The checks of `parseExternalMailAddress` before the schema refuse nothing
    that the schema accepts. -/
theorem parseExternalMailAddress_of_split {raw : String} {localPart rawDomain : List Char}
    (h : splitAtLast '@' (trim raw.toList) = some (localPart, rawDomain)) :
    (parseExternalMailAddress raw).map (·.address) = decodeExternalMailAddress
      (String.ofList localPart ++ "@" ++ toLowerCase (String.ofList rawDomain)) := by
  rw [parseExternalMailAddress, h]
  dsimp only
  by_cases hcanonical : isCanonicalExternalMailAddress
      (String.ofList localPart ++ "@" ++ toLowerCase (String.ofList rawDomain)) = true
  · have hparts := isCanonical_join.mp hcanonical
    have hraw : rawDomain ≠ [] := by
      intro hnil
      apply hparts.domain_ne
      rw [hnil, toLowerCase_empty, String.toList_ofList]
    have hlocal : localPart.any isDisallowedAddressChar = false :=
      List.any_eq_false.mpr fun c hc => by simp [hparts.local_chars c hc]
    have hdomain :
        (toLowerCase (String.ofList rawDomain)).toList.any isDisallowedAddressChar = false :=
      List.any_eq_false.mpr fun c hc => by simp [hparts.domain_chars c hc]
    have hchecks : ((toLowerCase (String.ofList rawDomain)).toList.isEmpty ||
        localPart.any isDisallowedAddressChar ||
        (toLowerCase (String.ofList rawDomain)).toList.any isDisallowedAddressChar ||
        localPart.contains '@' || (toLowerCase (String.ofList rawDomain)).toList.contains '@') =
        false := by
      rw [hlocal, hdomain, List.isEmpty_eq_false_iff.mpr hparts.domain_ne]
      simp [hparts.local_at, hparts.domain_at]
    have hnonempty : (localPart.isEmpty || rawDomain.isEmpty) = false := by
      simp [hparts.local_ne, hraw]
    rw [hnonempty, hchecks, decodeExternalMailAddress, dif_pos hcanonical]
    simp [hcanonical]
  · rw [decodeExternalMailAddress_eq_none.mpr hcanonical]
    simp [hcanonical]

/-- **One language.** `parseExternalMailAddress` and `ConfiguredMailAddress`
    return the same address. -/
theorem parseExternalMailAddress_eq (raw : String) :
    (parseExternalMailAddress raw).map (·.address) = decodeConfiguredMailAddress raw := by
  rw [decodeConfiguredMailAddress]
  cases hsplit : splitAtLast '@' (trim raw.toList) with
  | none =>
    have hform : configuredForm raw = String.ofList (trim raw.toList) := by
      rw [configuredForm, hsplit]
    have hnot : ¬ isCanonicalExternalMailAddress (String.ofList (trim raw.toList)) = true := by
      intro hcanonical
      obtain ⟨localPart, domain, htext, -⟩ := isCanonical_iff.mp hcanonical
      rw [String.toList_ofList] at htext
      exact splitAtLast_eq_none.mp hsplit (by rw [htext]; simp)
    rw [hform, decodeExternalMailAddress_eq_none.mpr hnot, parseExternalMailAddress, hsplit]
    rfl
  | some parts =>
    rw [configuredForm_of_split hsplit, parseExternalMailAddress_of_split hsplit]

/-! ### Fixed points -/

omit [LawfulUnicode] in
/-- A canonical text without white space around it is its own form. -/
theorem configuredForm_of_trimmed {raw : String}
    (h : isCanonicalExternalMailAddress raw = true) (htrim : trim raw.toList = raw.toList) :
    configuredForm raw = raw := by
  obtain ⟨localPart, domain, htext, hparts⟩ := isCanonical_iff.mp h
  have hsplit : splitAtLast '@' (trim raw.toList) = some (localPart, domain) := by
    rw [htrim, htext, splitAtLast_append hparts.domain_at]
  rw [configuredForm_of_split hsplit, hparts.lower, ← String.toList_inj, htext]
  simp

omit [LawfulUnicode] in
/-- A canonical form has no white space around it. -/
theorem trim_configuredForm [LawfulWhiteSpace] {raw : String}
    (h : isCanonicalExternalMailAddress (configuredForm raw) = true) :
    trim (configuredForm raw).toList = (configuredForm raw).toList := by
  cases hsplit : splitAtLast '@' (trim raw.toList) with
  | none =>
    have hform : configuredForm raw = String.ofList (trim raw.toList) := by
      rw [configuredForm, hsplit]
    rw [hform, String.toList_ofList, trim_trim]
  | some parts =>
    obtain ⟨localPart, rawDomain⟩ := parts
    rw [configuredForm_of_split hsplit] at h ⊢
    have hparts := isCanonical_join.mp h
    obtain ⟨htrimmed, -⟩ := splitAtLast_some hsplit
    have htext : (String.ofList localPart ++ "@" ++
        toLowerCase (String.ofList rawDomain)).toList =
        localPart ++ '@' :: (toLowerCase (String.ofList rawDomain)).toList := by simp
    rw [htext]
    apply trim_of_ends
    · -- the first character is that of the trimmed input
      intro c hc
      rw [List.head?_append_of_ne_nil _ hparts.local_ne] at hc
      have hhead : (trim raw.toList).head? = some c := by
        rw [htrimmed, List.head?_append_of_ne_nil _ hparts.local_ne, hc]
      exact trim_head hhead
    · intro c hc
      rw [List.getLast?_append_of_ne_nil _ (List.cons_ne_nil _ _),
        List.getLast?_cons_of_ne_nil hparts.domain_ne] at hc
      refine Bool.eq_false_iff.mpr fun hspace => ?_
      obtain ⟨d, hd, hdspace⟩ := LawfulWhiteSpace.last _ c hc hspace
      rw [String.toList_ofList] at hd
      have hlast : (trim raw.toList).getLast? = some d := by
        rw [htrimmed, List.getLast?_append_of_ne_nil _ (List.cons_ne_nil _ _),
          List.getLast?_cons_of_ne_nil (List.ne_nil_of_mem (List.mem_of_getLast? hd)), hd]
      exact absurd hdspace (by rw [trim_last hlast]; decide)

/-! ### Agreement -/

omit [LawfulUnicode] in
theorem decodeExternalMailAddress_val (address : ExternalMailAddress) :
    decodeExternalMailAddress address.val = some address := dif_pos address.property

omit [LawfulUnicode] in
theorem decodeExternalMailAddress_some {raw : String} {address : ExternalMailAddress}
    (h : decodeExternalMailAddress raw = some address) : address.val = raw := by
  unfold decodeExternalMailAddress at h
  split at h
  · cases h
    rfl
  · cases h

omit [LawfulUnicode] in
/-- What `parseExternalMailAddress` returns is canonical and has no white space around it. -/
theorem trim_parsed [LawfulWhiteSpace] {raw : String} {parsed : ParsedExternalMailAddress}
    (h : parseExternalMailAddress raw = some parsed) :
    trim parsed.address.val.toList = parsed.address.val.toList := by
  have hdecoded : decodeExternalMailAddress (configuredForm raw) = some parsed.address := by
    have heq := parseExternalMailAddress_eq raw
    rw [h] at heq
    exact heq.symm
  have hval := decodeExternalMailAddress_some hdecoded
  have hcanonical := parsed.address.property
  rw [hval] at hcanonical ⊢
  exact trim_configuredForm hcanonical

/-- A canonical text without white space around it is what the parser makes of it. -/
theorem parse_of_trimmed {address : ExternalMailAddress}
    (h : trim address.val.toList = address.val.toList) :
    ∃ parsed, parseExternalMailAddress address.val = some parsed ∧
      parsed.address = address := by
  have heq := parseExternalMailAddress_eq address.val
  rw [decodeConfiguredMailAddress, configuredForm_of_trimmed address.property h,
    decodeExternalMailAddress_val] at heq
  exact Option.map_eq_some_iff.mp heq

/-- The three validators say the same of a text. -/
structure ValidatorsAgree (raw : String) : Prop where
  /-- What the parser returns, the schema accepts and the parser returns again. -/
  reparsed : ∀ parsed, parseExternalMailAddress raw = some parsed →
    isCanonicalExternalMailAddress parsed.address.val = true ∧
      ∃ again, parseExternalMailAddress parsed.address.val = some again ∧
        again.address = parsed.address
  /-- What the schema accepts, the parser returns unchanged. -/
  fixed : isCanonicalExternalMailAddress raw = true →
    ∃ parsed, parseExternalMailAddress raw = some parsed ∧ parsed.address.val = raw
  configured : decodeConfiguredMailAddress raw = (parseExternalMailAddress raw).map (·.address)

omit [LawfulUnicode] in
/-- **Agreement.** The validators differ exactly on the texts that the schema
    accepts with white space around them. -/
theorem validatorsAgree_iff [LawfulWhiteSpace] (raw : String) : ValidatorsAgree raw ↔
    (isCanonicalExternalMailAddress raw = true → trim raw.toList = raw.toList) := by
  constructor
  · intro h hcanonical
    obtain ⟨parsed, hparsed, hval⟩ := h.fixed hcanonical
    rw [← hval]
    exact trim_parsed hparsed
  · intro htrim
    refine ⟨?_, ?_, (parseExternalMailAddress_eq raw).symm⟩
    · intro parsed hparsed
      exact ⟨parsed.address.property, parse_of_trimmed (trim_parsed hparsed)⟩
    · intro hcanonical
      obtain ⟨parsed, hparsed, haddress⟩ :=
        @parse_of_trimmed _ _ ⟨raw, hcanonical⟩ (htrim hcanonical)
      exact ⟨parsed, hparsed, congrArg Subtype.val haddress⟩

end validators

/-! ### At the mapping of ASCII -/

namespace Sample.External

/-- The mapping of ASCII, which is that of the language on the texts used here. -/
scoped instance asciiMapping : Unicode :=
  ⟨fun raw => String.ofList (raw.toList.map Char.toLower)⟩

scoped instance lawfulAsciiMapping : LawfulWhiteSpace where
  ascii _ _ := rfl
  trimmed raw h := by
    have hmap : (toLowerCase raw).toList = raw.toList.map Char.toLower := String.toList_ofList
    rw [hmap, trim_map isWhiteSpace_toLower, h]
  last raw c hc hspace := by
    have hmap : (toLowerCase raw).toList = raw.toList.map Char.toLower := String.toList_ofList
    rw [hmap, List.getLast?_map, Option.map_eq_some_iff] at hc
    obtain ⟨d, hd, rfl⟩ := hc
    exact ⟨d, hd, by rwa [isWhiteSpace_toLower] at hspace⟩

/-- An address with a no-break space behind it. -/
def padded : String := "bob@example.org\u00a0"

end Sample.External

open Sample.External in
theorem validatorsAgree_iff_bob : ValidatorsAgree "bob@example.org" :=
  (validatorsAgree_iff "bob@example.org").mpr fun _ => by decide +kernel

open Sample.External in
/-- The schema accepts the padded address, and the parser returns another one. -/
theorem not_validatorsAgree_padded : ¬ ∀ raw, ValidatorsAgree raw := by
  intro h
  obtain ⟨parsed, hparsed, hval⟩ := (h padded).fixed (by decide +kernel)
  have hother : (parseExternalMailAddress padded).map (·.address.val) =
      some "bob@example.org" := by
    decide +kernel
  rw [hparsed] at hother
  exact absurd (hval.symm.trans (Option.some.inj hother)) (by decide +kernel)

end Umail
