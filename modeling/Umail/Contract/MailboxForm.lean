import Mathlib.Data.List.DropRight
import Umail.Contract.MailContact

/-! # The mailbox form of an address

  A mailbox address is registered in one form: trimmed and in lower case. An
  external address keeps the letter case of its local part, so it is compared
  with mailboxes by the form `parseMailboxAddress` gives it. Here: that form
  does not depend on the letter case, and a registered address is in it.
-/

namespace Umail

/-! ### The case mapping -/

/-- What the code relies on in `String.prototype.toLowerCase`. -/
class LawfulUnicode [Unicode] : Prop where
  /-- ASCII letters are mapped one by one. -/
  ascii : ∀ raw : String, (∀ c ∈ raw.toList, c.toNat < 128) →
    toLowerCase raw = String.ofList (raw.toList.map Char.toLower)
  /-- White space is neither made at the ends of a text nor taken away there. -/
  trimmed : ∀ raw : String, trim raw.toList = raw.toList →
    trim (toLowerCase raw).toList = (toLowerCase raw).toList

/-! ### Characters -/

theorem char_eq_iff {c d : Char} : c = d ↔ c.toNat = d.toNat := Char.toNat_inj.symm

theorem char_le_iff {c d : Char} : c ≤ d ↔ c.toNat ≤ d.toNat := UInt32.le_iff_toNat_le

theorem toNat_toLower (c : Char) :
    c.toLower.toNat = if 65 ≤ c.toNat ∧ c.toNat ≤ 90 then c.toNat + 32 else c.toNat := by
  unfold Char.toLower
  split
  · next h =>
    have hrange : 65 ≤ c.toNat ∧ c.toNat ≤ 90 := by
      simpa [UInt32.le_iff_toNat_le] using h
    rw [if_pos hrange]
    show (c.val + 32).toNat = _
    rw [UInt32.toNat_add]
    show (c.toNat + 32) % 2 ^ 32 = _
    omega
  · next h =>
    rw [if_neg]
    simpa [UInt32.le_iff_toNat_le] using h

theorem isLocalPartChar_iff {c : Char} : isLocalPartChar c = true ↔
    (97 ≤ c.toNat ∧ c.toNat ≤ 122) ∨ (48 ≤ c.toNat ∧ c.toNat ≤ 57) ∨
      c.toNat = 46 ∨ c.toNat = 95 ∨ c.toNat = 45 := by
  simp only [isLocalPartChar, Bool.or_eq_true, Bool.and_eq_true, decide_eq_true_eq, char_le_iff,
    char_eq_iff]
  simp [or_assoc]

/-- A raw character of a local part is one in either letter case. -/
theorem isRawLocalPartChar_iff {c : Char} :
    isRawLocalPartChar c = true ↔ isLocalPartChar c.toLower = true := by
  rw [isLocalPartChar_iff, toNat_toLower]
  simp only [isRawLocalPartChar, Bool.or_eq_true, Bool.and_eq_true, decide_eq_true_eq, char_le_iff,
    char_eq_iff]
  simp only [Char.reduceToNat]
  split <;> omega

theorem toLower_of_isLocalPartChar {c : Char} (h : isLocalPartChar c = true) : c.toLower = c := by
  rw [char_eq_iff, toNat_toLower, if_neg]
  rw [isLocalPartChar_iff] at h
  omega

/-- White space is not among the characters of a local part. -/
theorem isWhiteSpace_range {c : Char} (h : isWhiteSpace c = true) :
    c.toNat ≤ 32 ∨ 160 ≤ c.toNat := by
  simp only [isWhiteSpace, Bool.or_eq_true, decide_eq_true_eq, Bool.and_eq_true, List.mem_cons,
    char_eq_iff, List.not_mem_nil, or_false] at h
  simp at h
  omega

theorem isWhiteSpace_of_isRawLocalPartChar {c : Char} (h : isRawLocalPartChar c = true) :
    isWhiteSpace c = false := by
  rw [isRawLocalPartChar_iff, isLocalPartChar_iff, toNat_toLower] at h
  refine Bool.eq_false_iff.mpr fun hspace => ?_
  have hrange := isWhiteSpace_range hspace
  split at h <;> omega

/-! ### Trimming -/

theorem dropWhile_eq_self {α : Type} {p : α → Bool} {xs : List α}
    (h : ∀ x, xs.head? = some x → p x = false) : xs.dropWhile p = xs := by
  cases xs with
  | nil => rfl
  | cons x xs => rw [List.dropWhile_cons, if_neg (by simp [h x rfl])]

theorem of_head_dropWhile {α : Type} {p : α → Bool} {xs : List α} {x : α}
    (h : (xs.dropWhile p).head? = some x) : p x = false := by
  have hnot := List.head?_dropWhile_not p xs
  rwa [h] at hnot

/-- A text with no white space at its ends. -/
theorem trim_of_ends {raw : List Char} (hhead : ∀ c, raw.head? = some c →
    isWhiteSpace c = false)
    (hlast : ∀ c, raw.getLast? = some c → isWhiteSpace c = false) : trim raw = raw := by
  unfold trim
  rw [dropWhile_eq_self hhead, dropWhile_eq_self, List.reverse_reverse]
  intro c hc
  exact hlast c (by rwa [List.head?_reverse] at hc)

theorem trim_head {raw : List Char} {c : Char} (h : (trim raw).head? = some c) :
    isWhiteSpace c = false := by
  obtain ⟨rest, hrest⟩ : trim raw <+: raw.dropWhile isWhiteSpace :=
    List.rdropWhile_prefix (p := isWhiteSpace) _
  have hhead : (raw.dropWhile isWhiteSpace).head? = some c := by
    rw [← hrest, List.head?_append, h]
    rfl
  exact of_head_dropWhile hhead

theorem trim_last {raw : List Char} {c : Char} (h : (trim raw).getLast? = some c) :
    isWhiteSpace c = false := by
  unfold trim at h
  rw [List.getLast?_reverse] at h
  exact of_head_dropWhile h

theorem trim_trim (raw : List Char) : trim (trim raw) = trim raw :=
  trim_of_ends (fun _ => trim_head) fun _ => trim_last

theorem isWhiteSpace_toLower (c : Char) : isWhiteSpace c.toLower = isWhiteSpace c := by
  by_cases hupper : 65 ≤ c.toNat ∧ c.toNat ≤ 90
  · have hvisible : ∀ d : Char, 65 ≤ d.toNat → d.toNat ≤ 122 →
        isWhiteSpace d = false := by
      intro d hlow hhigh
      refine Bool.eq_false_iff.mpr fun hspace => ?_
      have hrange := isWhiteSpace_range hspace
      omega
    have hlower : c.toLower.toNat = c.toNat + 32 := by rw [toNat_toLower, if_pos hupper]
    rw [hvisible c hupper.1 (by omega), hvisible c.toLower (by omega) (by omega)]
  · have hsame : c.toLower = c := by rw [char_eq_iff, toNat_toLower, if_neg hupper]
    rw [hsame]

/-- A mapping that neither makes nor removes white space. -/
theorem trim_map {f : Char → Char} (h : ∀ c, isWhiteSpace (f c) = isWhiteSpace c)
    (raw : List Char) : trim (raw.map f) = (trim raw).map f := by
  have hspace : isWhiteSpace ∘ f = isWhiteSpace := funext h
  unfold trim
  rw [List.dropWhile_map, hspace, ← List.map_reverse, List.dropWhile_map, hspace,
    List.map_reverse]

/-! ### Splitting -/

theorem splitAtLast_eq_none {c : Char} {raw : List Char} :
    splitAtLast c raw = none ↔ c ∉ raw := by
  induction raw with
  | nil => simp [splitAtLast]
  | cons x xs ih =>
    unfold splitAtLast
    split
    · next before after hsplit =>
      have hmem : c ∈ xs := by
        by_contra hnot
        exact absurd (ih.mpr hnot) (by simp [hsplit])
      simp [hmem]
    · next hnone =>
      have hnot := ih.mp hnone
      by_cases hx : x = c
      · simp [hx]
      · simp [hx, hnot, Ne.symm hx]

/-- The last separator is the one with no other after it. -/
theorem splitAtLast_append {c : Char} {before after : List Char} (h : c ∉ after) :
    splitAtLast c (before ++ c :: after) = some (before, after) := by
  induction before with
  | nil =>
    rw [List.nil_append, splitAtLast, splitAtLast_eq_none.mpr h]
    simp
  | cons x xs ih => rw [List.cons_append, splitAtLast, ih]

section forms
variable [Unicode]

/-! ### The parts of an address -/

theorem MailDomain.spec (d : MailDomain) :
    d.val.toList ≠ [] ∧ '@' ∉ d.val.toList ∧ toLowerCase d.val = d.val := by
  have h := d.property
  simp only [isMailDomain, isLowercased, Bool.and_eq_true, Bool.not_eq_true',
    List.isEmpty_eq_false_iff, decide_eq_true_eq] at h
  obtain ⟨⟨hne, hat⟩, hlower⟩ := h
  exact ⟨hne, by simpa using hat, hlower.symm⟩

theorem MailboxLocalPart.spec (l : MailboxLocalPart) :
    l.val.toList ≠ [] ∧ ∀ c ∈ l.val.toList, isLocalPartChar c = true := by
  have h := l.property
  simp only [isMailboxLocalPart, Bool.and_eq_true, Bool.not_eq_true',
    List.isEmpty_eq_false_iff, List.all_eq_true] at h
  exact h.1

theorem MailboxLocalPart.lower (l : MailboxLocalPart) :
    l.val.toList.map Char.toLower = l.val.toList := by
  have hchars : ∀ c ∈ l.val.toList, c.toLower = id c := by
    intro c hc
    exact toLower_of_isLocalPartChar (l.spec.2 c hc)
  rw [List.map_congr_left hchars, List.map_id]

theorem assembleMailboxAddress_some {l : MailboxLocalPart} {d : MailDomain}
    {parsed : ParsedMailboxAddress} (h : assembleMailboxAddress l d = some parsed) :
    parsed.address.val = l.val ++ "@" ++ d.val := by
  unfold assembleMailboxAddress at h
  dsimp only at h
  split at h
  · obtain rfl := Option.some.inj h
    rfl
  · exact absurd h (by simp)

theorem splitAtLast_assembled (l : MailboxLocalPart) (d : MailDomain) :
    splitAtLast '@' (l.val ++ "@" ++ d.val).toList = some (l.val.toList, d.val.toList) := by
  rw [String.toList_append, String.toList_append, List.append_assoc]
  exact splitAtLast_append d.spec.2.1

theorem decodeMailboxLocalPart_self (l : MailboxLocalPart) :
    decodeMailboxLocalPart l.val = some l := dif_pos l.property

theorem decodeMailDomain_self (d : MailDomain) : decodeMailDomain d.val = some d :=
  dif_pos d.property

theorem decodeMailboxLocalPart_some {canonical : String} {l : MailboxLocalPart}
    (h : decodeMailboxLocalPart canonical = some l) : l.val = canonical := by
  unfold decodeMailboxLocalPart at h
  split at h
  · obtain rfl := Option.some.inj h
    rfl
  · exact absurd h (by simp)

theorem decodeMailDomain_some {canonical : String} {d : MailDomain}
    (h : decodeMailDomain canonical = some d) : d.val = canonical := by
  unfold decodeMailDomain at h
  split at h
  · obtain rfl := Option.some.inj h
    rfl
  · exact absurd h (by simp)

/-- What a successful `parseMailboxAddress` says. -/
theorem parseMailboxAddress_some {raw : String} {parsed : ParsedMailboxAddress}
    (h : parseMailboxAddress raw = some parsed) : ∃ before after l d,
      splitAtLast '@' (trim raw.toList) = some (before, after) ∧
      (∀ c ∈ before, isRawLocalPartChar c = true) ∧
      l.val = toLowerCase (String.ofList before) ∧ d.val = toLowerCase (String.ofList after) ∧
      assembleMailboxAddress l d = some parsed := by
  unfold parseMailboxAddress at h
  split at h
  · exact absurd h (by simp)
  · -- both parts nonempty, then both decoded, then put together
    next before after hsplit =>
    split at h
    · exact absurd h (by simp)
    · split at h
      · next l d hl hd =>
        unfold decodeRawMailboxLocalPart at hl
        split at hl
        · next hraw =>
          rw [Bool.and_eq_true, List.all_eq_true] at hraw
          exact ⟨before, after, l, d, hsplit, hraw.2, decodeMailboxLocalPart_some hl,
            decodeMailDomain_some hd, h⟩
        · exact absurd hl (by simp)
      · exact absurd h (by simp)

/-! ### Registered addresses -/

/-- An address that `constructMailboxAddress` builds; no other is registered. -/
def MailboxAddress.Registrable (a : MailboxAddress) : Prop :=
  ∃ rawLocalPart rawDomain parsed,
    constructMailboxAddress rawLocalPart rawDomain = .ok parsed ∧ parsed.address = a

variable [LawfulUnicode]

/-- A registered address is made of its two parts, the second of which is trimmed. -/
theorem MailboxAddress.Registrable.parts {a : MailboxAddress} (ha : a.Registrable) :
    ∃ (l : MailboxLocalPart) (d : MailDomain), a.val = l.val ++ "@" ++ d.val ∧
      trim d.val.toList = d.val.toList := by
  obtain ⟨rawLocalPart, rawDomain, parsed, hparsed, rfl⟩ := ha
  unfold constructMailboxAddress at hparsed
  split at hparsed
  · next l d hl hd =>
    split at hparsed
    · exact absurd hparsed (by simp)
    · split at hparsed
      · next parsed' hassemble =>
        obtain rfl := RegistrationMailboxAddress.ok.inj hparsed
        refine ⟨l, d, assembleMailboxAddress_some hassemble, ?_⟩
        rw [decodeMailDomain_some hd]
        apply LawfulUnicode.trimmed
        rw [String.toList_ofList, trim_trim]
      · exact absurd hparsed (by simp)
  · exact absurd hparsed (by simp)

/-- A registered address has no white space around it. -/
theorem MailboxAddress.Registrable.trim_eq {a : MailboxAddress} (ha : a.Registrable) :
    trim a.val.toList = a.val.toList := by
  obtain ⟨l, d, heq, hd⟩ := ha.parts
  have hl := l.spec
  rw [heq, String.toList_append, String.toList_append]
  apply trim_of_ends
  · intro c hc
    rw [List.append_assoc, List.head?_append_of_ne_nil _ hl.1] at hc
    apply isWhiteSpace_of_isRawLocalPartChar
    rw [isRawLocalPartChar_iff, toLower_of_isLocalPartChar (hl.2 c (List.mem_of_head? hc))]
    exact hl.2 c (List.mem_of_head? hc)
  · intro c hc
    rw [List.getLast?_append_of_ne_nil _ d.spec.1] at hc
    exact trim_last (by rwa [hd])

/-- The same address up to letter case and surrounding white space. The local
    part of a mailbox has no letters but those of ASCII. -/
def SameAddress (x y : String) : Prop :=
  ∃ localX domainX localY domainY,
    splitAtLast '@' (trim x.toList) = some (localX, domainX) ∧
    splitAtLast '@' (trim y.toList) = some (localY, domainY) ∧
    localX.map Char.toLower = localY.map Char.toLower ∧
    toLowerCase (String.ofList domainX) = toLowerCase (String.ofList domainY)

theorem toLowerCase_of_raw {raw : List Char} (h : ∀ c ∈ raw, isRawLocalPartChar c = true) :
    toLowerCase (String.ofList raw) = String.ofList (raw.map Char.toLower) := by
  rw [LawfulUnicode.ascii, String.toList_ofList]
  intro c hc
  rw [String.toList_ofList] at hc
  have hchar := h c hc
  rw [isRawLocalPartChar_iff, isLocalPartChar_iff, toNat_toLower] at hchar
  split at hchar <;> omega

/-- The mailbox form of an address is a registered one exactly when the two are
    the same up to letter case. -/
theorem sameAddress_iff {raw : String} {a : MailboxAddress} (ha : a.Registrable) :
    SameAddress raw a.val ↔ ∃ parsed, parseMailboxAddress raw = some parsed ∧
      parsed.address = a := by
  obtain ⟨l, d, heq, -⟩ := ha.parts
  have hsplit : splitAtLast '@' (trim a.val.toList) = some (l.val.toList, d.val.toList) := by
    rw [ha.trim_eq, heq, splitAtLast_assembled]
  constructor
  · rintro ⟨before, after, localY, domainY, hraw, hself, hlocal, hdomain⟩
    obtain ⟨rfl, rfl⟩ := Prod.mk.inj (Option.some.inj (hself.symm.trans hsplit))
    rw [l.lower] at hlocal
    -- the local part is the stored one up to case, so its characters are permitted
    have hchars : ∀ c ∈ before, isRawLocalPartChar c = true := by
      intro c hc
      rw [isRawLocalPartChar_iff]
      exact l.spec.2 _ (hlocal ▸ List.mem_map_of_mem hc)
    rw [String.ofList_toList, d.spec.2.2] at hdomain
    -- neither part is empty, since no stored part is
    have hbefore : before.isEmpty = false := by
      rw [List.isEmpty_eq_false_iff]
      rintro rfl
      exact l.spec.1 hlocal.symm
    have hafter : after.isEmpty = false := by
      rw [List.isEmpty_eq_false_iff]
      rintro rfl
      apply d.spec.1
      rw [← hdomain, LawfulUnicode.ascii _ (by simp)]
      rfl
    have hform : isMailboxAddress (l.val ++ "@" ++ d.val) = true := heq ▸ a.property
    refine ⟨{ localPart := l, domain := d, address := ⟨_, hform⟩ }, ?_,
      Subtype.ext heq.symm⟩
    -- the parser takes the same two parts and passes every check
    unfold parseMailboxAddress
    rw [hraw]
    dsimp only
    rw [hbefore, hafter, hdomain, decodeMailDomain_self, decodeRawMailboxLocalPart, hbefore,
      toLowerCase_of_raw hchars, hlocal, String.ofList_toList, decodeMailboxLocalPart_self,
      if_neg (by simp), if_pos]
    · exact dif_pos hform
    · rw [List.all_eq_true.mpr hchars]
      rfl
  · rintro ⟨parsed, hparsed, rfl⟩
    obtain ⟨before, after, l', d', hraw, hchars, hl, hd, hassemble⟩ :=
      parseMailboxAddress_some hparsed
    -- both addresses split at the separator in the same way
    have hself := hsplit
    rw [ha.trim_eq, assembleMailboxAddress_some hassemble, splitAtLast_assembled] at hself
    obtain ⟨hlocal, hdomain⟩ := Prod.mk.inj (Option.some.inj hself)
    refine ⟨before, after, _, _, hraw, hsplit, ?_, ?_⟩
    · rw [l.lower, ← hlocal, hl, toLowerCase_of_raw hchars, String.toList_ofList]
    · rw [← hd, ← hdomain, String.ofList_toList, d'.spec.2.2]

end forms

end Umail
