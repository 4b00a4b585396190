import Mathlib.Algebra.GroupWithZero.Nat
import Mathlib.Data.List.Basic
import Mathlib.Data.List.DropRight

/-! # JavaScript strings

  A JavaScript string is a sequence of UTF-16 code units that need not be well
  formed. Here: its code points, the strings that encode a text, what cutting
  such a string leaves of the text, and percent-encoding as
  `encodeURIComponent` does it.
-/

namespace JsString

abbrev CodeUnit := UInt16

/-- A test of every code unit of a text. -/
theorem forall_of_all {P : CodeUnit → Prop} [DecidablePred P] {text : List CodeUnit}
    (h : (text.all fun u => decide (P u)) = true) : ∀ u ∈ text, P u :=
  fun u hu => of_decide_eq_true (List.all_eq_true.mp h u hu)

/-! ### Code points -/

def isHighSurrogate (u : CodeUnit) : Bool := 0xd800 ≤ u.toNat && u.toNat < 0xdc00

def isLowSurrogate (u : CodeUnit) : Bool := 0xdc00 ≤ u.toNat && u.toNat < 0xe000

/-- The code point of half a surrogate pair. -/
def isSurrogate (code : Nat) : Bool := 0xd800 ≤ code && code < 0xe000

/-- The code units of a code point. -/
def encodePoint (code : Nat) : List CodeUnit :=
  if code < 0x10000 then [.ofNat code]
  else [.ofNat (0xd800 + (code - 0x10000) / 0x400), .ofNat (0xdc00 + (code - 0x10000) % 0x400)]

/-- The well-formed string of a text. -/
def encode (text : List Char) : List CodeUnit := text.flatMap fun c => encodePoint c.toNat

/-- The code points that a `for .. of` loop visits; half a pair is visited as
    it is. -/
def codePoints : List CodeUnit → List Nat
  | [] => []
  | [u] => [u.toNat]
  | u :: v :: rest =>
    if isHighSurrogate u && isLowSurrogate v then
      (0x10000 + (u.toNat - 0xd800) * 0x400 + (v.toNat - 0xdc00)) :: codePoints rest
    else u.toNat :: codePoints (v :: rest)

/-- The code units of a character. -/
def width (c : Char) : Nat := if c.toNat < 0x10000 then 1 else 2

/-- The string of a literal. -/
def ofString (text : String) : List CodeUnit := encode text.toList

/-! ### Well-formed strings -/

theorem toNat_char_lt (c : Char) : c.toNat < 0x110000 := by
  rcases c.valid with h | ⟨-, h⟩
  · exact Nat.lt_trans h (by decide)
  · exact h

theorem isSurrogate_char (c : Char) : isSurrogate c.toNat = false := by
  have hvalid : c.toNat < 0xd800 ∨ (0xdfff < c.toNat ∧ c.toNat < 0x110000) := c.valid
  simp only [isSurrogate, Bool.and_eq_false_iff, decide_eq_false_iff_not]
  omega

theorem toNat_ofNat_unit {n : Nat} (h : n < 0x10000) : (UInt16.ofNat n).toNat = n :=
  Nat.mod_eq_of_lt h

theorem encodePoint_small {code : Nat} (h : code < 0x10000) :
    encodePoint code = [.ofNat code] := if_pos h

/-- The two halves of a pair. -/
theorem encodePoint_pair {code : Nat} (h : 0x10000 ≤ code) (hlt : code < 0x110000) :
    ∃ high low, encodePoint code = [high, low] ∧ isHighSurrogate high = true ∧
      isLowSurrogate low = true ∧
      0x10000 + (high.toNat - 0xd800) * 0x400 + (low.toNat - 0xdc00) = code := by
  have hhigh : (UInt16.ofNat (0xd800 + (code - 0x10000) / 0x400)).toNat =
      0xd800 + (code - 0x10000) / 0x400 := toNat_ofNat_unit (by omega)
  have hlow : (UInt16.ofNat (0xdc00 + (code - 0x10000) % 0x400)).toNat =
      0xdc00 + (code - 0x10000) % 0x400 := toNat_ofNat_unit (by omega)
  refine ⟨_, _, if_neg (Nat.not_lt.mpr h), ?_, ?_, ?_⟩
  · simp only [isHighSurrogate, hhigh, Bool.and_eq_true, decide_eq_true_eq]
    omega
  · simp only [isLowSurrogate, hlow, Bool.and_eq_true, decide_eq_true_eq]
    omega
  · rw [hhigh, hlow]
    omega

theorem encode_nil : encode [] = [] := rfl

theorem encode_cons (c : Char) (cs : List Char) :
    encode (c :: cs) = encodePoint c.toNat ++ encode cs := rfl

theorem encode_append (cs ds : List Char) : encode (cs ++ ds) = encode cs ++ encode ds :=
  List.flatMap_append

theorem encode_singleton (c : Char) : encode [c] = encodePoint c.toNat := by
  rw [encode_cons, encode_nil, List.append_nil]

theorem length_encodePoint (c : Char) : (encodePoint c.toNat).length = width c := by
  unfold encodePoint width
  split <;> rfl

theorem length_encode (cs : List Char) : (encode cs).length = (cs.map width).sum := by
  induction cs with
  | nil => rfl
  | cons c cs ih =>
    rw [encode_cons, List.length_append, length_encodePoint, ih, List.map_cons, List.sum_cons]

/-- A unit that starts no pair is visited alone. -/
theorem codePoints_cons {u : CodeUnit} (h : isHighSurrogate u = false) (rest : List CodeUnit) :
    codePoints (u :: rest) = u.toNat :: codePoints rest := by
  cases rest with
  | nil => rfl
  | cons v rest => rw [codePoints, h, Bool.false_and, if_neg Bool.false_ne_true]

theorem codePoints_encodePoint (c : Char) (rest : List CodeUnit) :
    codePoints (encodePoint c.toNat ++ rest) = c.toNat :: codePoints rest := by
  by_cases hsmall : c.toNat < 0x10000
  · have hunit : (UInt16.ofNat c.toNat).toNat = c.toNat := toNat_ofNat_unit hsmall
    rw [encodePoint_small hsmall, List.singleton_append, codePoints_cons, hunit]
    have hsurrogate := isSurrogate_char c
    simp only [isSurrogate, Bool.and_eq_false_iff, decide_eq_false_iff_not] at hsurrogate
    simp only [isHighSurrogate, hunit, Bool.and_eq_false_iff, decide_eq_false_iff_not]
    omega
  · obtain ⟨high, low, heq, hhigh, hlow, hcode⟩ :=
      encodePoint_pair (Nat.le_of_not_lt hsmall) (toNat_char_lt c)
    rw [heq, List.cons_append, List.singleton_append, codePoints, hhigh, hlow, Bool.true_and,
      if_pos rfl, hcode]

/-- The code points of a well-formed string are the characters of its text,
    whatever follows it. -/
theorem codePoints_encode_append (cs : List Char) (rest : List CodeUnit) :
    codePoints (encode cs ++ rest) = cs.map (·.toNat) ++ codePoints rest := by
  induction cs with
  | nil => rfl
  | cons c cs ih =>
    rw [encode_cons, List.append_assoc, codePoints_encodePoint, ih, List.map_cons,
      List.cons_append]

theorem codePoints_encode (cs : List Char) : codePoints (encode cs) = cs.map (·.toNat) := by
  have happend := codePoints_encode_append cs []
  rwa [List.append_nil, codePoints, List.append_nil] at happend

/-! ### Trimming and cutting -/

section trimming
variable {p : Char → Bool}

/-- A property of characters of one unit, on units. -/
def unitIs (p : Char → Bool) (u : CodeUnit) : Bool := p (Char.ofNat u.toNat)

theorem not_isValidChar {n : Nat} (h : isSurrogate n = true) : ¬ n.isValidChar := by
  simp only [isSurrogate, Bool.and_eq_true, decide_eq_true_eq] at h
  rintro (hsmall | ⟨hlarge, -⟩)
  · omega
  · omega

theorem unitIs_surrogate (hp : p (Char.ofNat 0) = false) {u : CodeUnit}
    (h : isSurrogate u.toNat = true) : unitIs p u = false := by
  unfold unitIs
  have hzero : Char.ofNat u.toNat = Char.ofNat 0 := by
    rw [Char.ofNat, dif_neg (not_isValidChar h)]
    rfl
  rw [hzero, hp]

theorem unitIs_char {c : Char} (h : c.toNat < 0x10000) :
    unitIs p (UInt16.ofNat c.toNat) = p c := by
  rw [unitIs, toNat_ofNat_unit h, Char.ofNat_toNat]

/-- Whether the units of a character have the property: both do, or neither. -/
theorem unitIs_encodePoint (hp : p (Char.ofNat 0) = false)
    (hsmall : ∀ c, p c = true → c.toNat < 0x10000) (c : Char) :
    ∀ u ∈ encodePoint c.toNat, unitIs p u = p c := by
  intro u hu
  by_cases hc : c.toNat < 0x10000
  · rw [encodePoint_small hc, List.mem_singleton] at hu
    rw [hu, unitIs_char hc]
  · obtain ⟨high, low, heq, hhigh, hlow, -⟩ :=
      encodePoint_pair (Nat.le_of_not_lt hc) (toNat_char_lt c)
    have hnot : p c = false := Bool.eq_false_iff.mpr fun h => hc (hsmall c h)
    simp only [isHighSurrogate, isLowSurrogate, Bool.and_eq_true, decide_eq_true_eq] at hhigh hlow
    rw [hnot]
    apply unitIs_surrogate hp
    rw [heq, List.mem_cons, List.mem_singleton] at hu
    simp only [isSurrogate, Bool.and_eq_true, decide_eq_true_eq]
    rcases hu with rfl | rfl <;> omega

theorem dropWhile_encode (hp : p (Char.ofNat 0) = false)
    (hsmall : ∀ c, p c = true → c.toNat < 0x10000) (cs : List Char) :
    (encode cs).dropWhile (unitIs p) = encode (cs.dropWhile p) := by
  induction cs with
  | nil => rfl
  | cons c cs ih =>
    have hunits := unitIs_encodePoint hp hsmall c
    rw [List.dropWhile_cons, encode_cons]
    split
    · next hc =>
      rw [List.dropWhile_append_of_pos fun u hu => (hunits u hu).trans hc, ih]
    · next hc =>
      obtain ⟨u, rest, heq⟩ : ∃ u rest, encodePoint c.toNat = u :: rest := by
        unfold encodePoint
        split <;> exact ⟨_, _, rfl⟩
      rw [encode_cons, heq, List.cons_append, List.dropWhile_cons, if_neg]
      rw [hunits u (heq ▸ List.mem_cons_self)]
      exact hc

theorem rdropWhile_encode (hp : p (Char.ofNat 0) = false)
    (hsmall : ∀ c, p c = true → c.toNat < 0x10000) (cs : List Char) :
    (encode cs).rdropWhile (unitIs p) = encode (cs.rdropWhile p) := by
  induction cs using List.reverseRecOn with
  | nil => rfl
  | append_singleton cs c ih =>
    have hunits := unitIs_encodePoint hp hsmall c
    rw [encode_append, encode_singleton, List.rdropWhile_concat]
    split
    · next hc =>
      -- a dropped character is dropped with all of its units
      have hall : ∀ u ∈ (encodePoint c.toNat).reverse, unitIs p u = true := by
        intro u hu
        exact (hunits u (List.mem_reverse.mp hu)).trans hc
      rw [← ih, List.rdropWhile, List.reverse_append, List.dropWhile_append_of_pos hall]
      rfl
    · next hc =>
      obtain ⟨first, u, heq⟩ : ∃ first u, encodePoint c.toNat = first ++ [u] := by
        unfold encodePoint
        split
        · exact ⟨[], _, rfl⟩
        · exact ⟨[_], _, rfl⟩
      -- and one that stays keeps its last unit
      have hlast : ¬ unitIs p u = true := by
        rw [hunits u (heq ▸ List.mem_append_right _ (List.mem_singleton_self u))]
        exact hc
      rw [heq, ← List.append_assoc, List.rdropWhile_concat_neg _ _ _ hlast, List.append_assoc,
        ← heq, encode_append, encode_singleton]

end trimming

/-- `toWellFormed`: half of a pair becomes U+FFFD. -/
def wellFormed (text : List CodeUnit) : List Char :=
  (codePoints text).map fun code => if isSurrogate code then '\ufffd' else Char.ofNat code

theorem wellFormed_encode_append (cs : List Char) (rest : List CodeUnit) :
    wellFormed (encode cs ++ rest) = cs ++ wellFormed rest := by
  unfold wellFormed
  rw [codePoints_encode_append, List.map_append, List.map_map]
  refine congrArg (· ++ _) ?_
  have hchars :
      ∀ c ∈ cs, ((fun code => if isSurrogate code then '\ufffd' else Char.ofNat code) ∘
      fun c : Char => c.toNat) c = id c := by
    intro c _
    show (if isSurrogate c.toNat then '\ufffd' else Char.ofNat c.toNat) = c
    rw [isSurrogate_char, if_neg Bool.false_ne_true, Char.ofNat_toNat]
  rw [List.map_congr_left hchars, List.map_id]

theorem wellFormed_encode (cs : List Char) : wellFormed (encode cs) = cs := by
  have hnil : wellFormed [] = [] := rfl
  have happend := wellFormed_encode_append cs []
  rwa [List.append_nil, hnil, List.append_nil] at happend

theorem isSurrogate_high {u : CodeUnit} (h : isHighSurrogate u = true) :
    isSurrogate u.toNat = true := by
  simp only [isHighSurrogate, Bool.and_eq_true, decide_eq_true_eq] at h
  simp only [isSurrogate, Bool.and_eq_true, decide_eq_true_eq]
  omega

/-- The first `n` units end between the halves of a pair. -/
def EndsInside (n : Nat) (text : List Char) : Prop :=
  ∃ before c after, text = before ++ c :: after ∧ (before.map width).sum + 1 = n ∧ width c = 2

theorem take_encode_inside {n : Nat} {text : List Char} (h : EndsInside n text) :
    ∃ before high, isHighSurrogate high = true ∧
      (encode text).take n = encode before ++ [high] := by
  obtain ⟨before, c, after, rfl, rfl, hwide⟩ := h
  have hlarge : ¬ c.toNat < 0x10000 := by
    intro hsmall
    rw [width, if_pos hsmall] at hwide
    exact absurd hwide (by decide)
  obtain ⟨high, low, heq, hhigh, -, -⟩ :=
    encodePoint_pair (Nat.le_of_not_lt hlarge) (toNat_char_lt c)
  refine ⟨before, high, hhigh, ?_⟩
  rw [encode_append, encode_cons, heq, ← length_encode, List.take_length_add_append]
  rfl

/-- A cut that does not end inside a pair leaves a text. -/
theorem take_encode {n : Nat} {text : List Char} (h : ¬ EndsInside n text) :
    ∃ kept, kept <+: text ∧ (encode text).take n = encode kept := by
  induction text generalizing n with
  | nil => exact ⟨[], List.prefix_rfl, List.take_nil⟩
  | cons c cs ih =>
    cases n with
    | zero => exact ⟨[], List.nil_prefix, List.take_zero⟩
    | succ n =>
      -- the first character fits, or the cut would be inside it
      have hfits : width c ≤ n + 1 := by
        by_contra hwide
        have hwidth : width c = 1 ∨ width c = 2 := by
          unfold width
          split
          · exact .inl rfl
          · exact .inr rfl
        apply h
        refine ⟨[], c, cs, rfl, ?_, ?_⟩
        · simp only [List.map_nil, List.sum_nil]
          omega
        · omega
      -- and a cut inside a later character is one inside the text
      have hrest : ¬ EndsInside (n + 1 - width c) cs := by
        rintro ⟨before, d, after, rfl, hsum, hwide⟩
        apply h
        refine ⟨c :: before, d, after, rfl, ?_, hwide⟩
        rw [List.map_cons, List.sum_cons]
        omega
      obtain ⟨kept, hkept, htake⟩ := ih hrest
      refine ⟨c :: kept, List.cons_prefix_cons.mpr ⟨rfl, hkept⟩, ?_⟩
      rw [encode_cons, List.take_append, length_encodePoint, htake, encode_cons,
        List.take_of_length_le (by rw [length_encodePoint]; exact hfits)]

/-! ### Percent-encoding -/

/-- `encodeURIComponent` throws on half of a surrogate pair. -/
inductive UriError where
  | malformed

def isAsciiAlphanumeric (code : Nat) : Bool :=
  (48 ≤ code && code ≤ 57) || (65 ≤ code && code ≤ 90) || (97 ≤ code && code ≤ 122)

/-- The code points that stand for themselves: letters, digits and `-_.!~*'()`. -/
def isUriUnreserved (code : Nat) : Bool :=
  isAsciiAlphanumeric code || code ∈ [45, 95, 46, 33, 126, 42, 39, 40, 41]

def percent : CodeUnit := 37

/-- A digit of an upper-case hexadecimal number. -/
def hexDigit (n : Nat) : CodeUnit := .ofNat (if n < 10 then 48 + n else 55 + n)

def percentEncodeByte (b : UInt8) : List CodeUnit :=
  [percent, hexDigit (b.toNat / 16), hexDigit (b.toNat % 16)]

/-- The UTF-8 bytes of a character, percent-encoded. -/
def percentEncodeChar (c : Char) : List CodeUnit :=
  (String.utf8EncodeChar c).flatMap percentEncodeByte

def encodeURIPoint (code : Nat) : Except UriError (List CodeUnit) :=
  if isUriUnreserved code then .ok (encodePoint code)
  else if isSurrogate code then .error .malformed
  else .ok (percentEncodeChar (Char.ofNat code))

def encodeURIComponent (text : List CodeUnit) : Except UriError (List CodeUnit) :=
  ((codePoints text).mapM encodeURIPoint).map List.flatten

theorem isUriUnreserved_lt {code : Nat} (h : isUriUnreserved code = true) :
    32 < code ∧ code < 127 ∧ code ≠ 37 := by
  simp only [isUriUnreserved, isAsciiAlphanumeric, Bool.or_eq_true, Bool.and_eq_true,
    decide_eq_true_eq, List.mem_cons, List.not_mem_nil, or_false] at h
  omega

/-- What `encodeURIComponent` makes of a character. -/
def uriChar (c : Char) : List CodeUnit :=
  if isUriUnreserved c.toNat then encodePoint c.toNat else percentEncodeChar c

theorem encodeURIPoint_char (c : Char) : encodeURIPoint c.toNat = .ok (uriChar c) := by
  unfold encodeURIPoint uriChar
  rw [isSurrogate_char, Char.ofNat_toNat]
  split <;> rfl

theorem encodeURIComponent_encode (text : List Char) :
    encodeURIComponent (encode text) = .ok (text.flatMap uriChar) := by
  have hpoints : (text.map (·.toNat)).mapM encodeURIPoint = .ok (text.map uriChar) := by
    induction text with
    | nil => rfl
    | cons c text ih =>
      rw [List.map_cons, List.mapM_cons, encodeURIPoint_char, ih]
      rfl
  rw [encodeURIComponent, codePoints_encode, hpoints]
  rfl

/-- Half of a pair makes it throw. -/
theorem encodeURIComponent_error {text : List CodeUnit} {code : Nat} (h : code ∈ codePoints text)
    (hsurrogate : isSurrogate code = true) : ∃ e, encodeURIComponent text = .error e := by
  have hpoint : encodeURIPoint code = .error .malformed := by
    -- the unreserved characters are no surrogates
    have hreserved : isUriUnreserved code = false := by
      simp only [isSurrogate, Bool.and_eq_true, decide_eq_true_eq] at hsurrogate
      refine Bool.eq_false_iff.mpr fun hplain => ?_
      have hsmall := isUriUnreserved_lt hplain
      omega
    rw [encodeURIPoint, hreserved, hsurrogate]
    rfl
  have hpoints : ∀ codes : List Nat, code ∈ codes →
      ∃ e, codes.mapM encodeURIPoint = .error e := by
    intro codes hcodes
    induction codes with
    | nil => exact absurd hcodes List.not_mem_nil
    -- an earlier code may fail first, with its own error
    | cons head codes ih =>
      rw [List.mapM_cons]
      rcases List.mem_cons.mp hcodes with rfl | htail
      · exact ⟨_, by rw [hpoint]; rfl⟩
      · obtain ⟨e, he⟩ := ih htail
        rw [he]
        cases encodeURIPoint head with
        | error e' => exact ⟨e', rfl⟩
        | ok _ => exact ⟨e, rfl⟩
  obtain ⟨e, he⟩ := hpoints _ h
  exact ⟨e, by rw [encodeURIComponent, he]; rfl⟩

/-! ### Decoding -/

def hexValue (u : CodeUnit) : Option Nat :=
  if 48 ≤ u.toNat ∧ u.toNat ≤ 57 then some (u.toNat - 48)
  else if 65 ≤ u.toNat ∧ u.toNat ≤ 70 then some (u.toNat - 55)
  else if 97 ≤ u.toNat ∧ u.toNat ≤ 102 then some (u.toNat - 87)
  else none

/-- The bytes of a percent-encoded ASCII string. -/
def percentDecode : List CodeUnit → Option (List UInt8)
  | [] => some []
  | u :: rest =>
    if u = percent then
      match rest with
      | high :: low :: rest =>
        match hexValue high, hexValue low with
        | some h, some l => (percentDecode rest).map (UInt8.ofNat (16 * h + l) :: ·)
        | _, _ => none
      | _ => none
    else if u.toNat < 0x80 then (percentDecode rest).map (UInt8.ofNat u.toNat :: ·)
    else none

theorem hexValue_hexDigit : ∀ n < 16, hexValue (hexDigit n) = some n := by decide

theorem percentDecode_byte (b : UInt8) (rest : List CodeUnit) :
    percentDecode (percentEncodeByte b ++ rest) = (percentDecode rest).map (b :: ·) := by
  have hlt : b.toNat < 256 := b.toNat_lt
  have hvalue : 16 * (b.toNat / 16) + b.toNat % 16 = b.toNat := by omega
  rw [percentEncodeByte, List.cons_append, List.cons_append, List.singleton_append, percentDecode,
    if_pos rfl]
  simp only [hexValue_hexDigit (b.toNat / 16) (by omega),
    hexValue_hexDigit (b.toNat % 16) (by omega), hvalue, UInt8.ofNat_toNat]

theorem percentDecode_bytes (bytes : List UInt8) (rest : List CodeUnit) :
    percentDecode (bytes.flatMap percentEncodeByte ++ rest) =
      (percentDecode rest).map (bytes ++ ·) := by
  induction bytes with
  | nil => simp
  | cons b bytes ih =>
    rw [List.flatMap_cons, List.append_assoc, percentDecode_byte, ih, Option.map_map]
    rfl

theorem utf8EncodeChar_ascii {c : Char} (h : c.toNat < 0x80) :
    String.utf8EncodeChar c = [UInt8.ofNat c.toNat] := if_pos (Nat.le_of_lt_succ h)

/-- An ASCII character other than the percent sign stands for its byte. -/
theorem percentDecode_plain {c : Char} (hascii : c.toNat < 0x80) (hpercent : c.toNat ≠ 37)
    (rest : List CodeUnit) : percentDecode (encodePoint c.toNat ++ rest) =
      (percentDecode rest).map (String.utf8EncodeChar c ++ ·) := by
  have hunit : (UInt16.ofNat c.toNat).toNat = c.toNat := toNat_ofNat_unit (by omega)
  have hne : UInt16.ofNat c.toNat ≠ percent := by
    intro heq
    apply hpercent
    rw [← hunit, heq]
    rfl
  rw [encodePoint_small (by omega), List.singleton_append, percentDecode.eq_def]
  simp only [if_neg hne, hunit, if_pos hascii, utf8EncodeChar_ascii hascii]
  rfl

/-- The bytes of a text, read as UTF-8. -/
theorem fromUTF8_utf8Encode (text : List Char) :
    String.fromUTF8? (text.flatMap String.utf8EncodeChar).toByteArray =
      some (String.ofList text) := by
  have hvalid : (text.flatMap String.utf8EncodeChar).toByteArray.IsValidUTF8 := ⟨text, rfl⟩
  rw [String.fromUTF8?, dif_pos hvalid]
  refine congrArg some ?_
  apply String.toByteArray_inj.mp
  rw [String.toByteArray_ofList]
  rfl

end JsString
