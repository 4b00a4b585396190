import Umail.Contract.MailboxForm
import Umail.Framework.JsString
import Umail.Mail.ProcessIndex

/-! # The Content-Disposition of an attachment

  `rfc6266ContentDisposition` of `apps/server/src/api/attachments.ts` and
  `sanitizeFilename` of `apps/server/src/mail/policy.ts`, on UTF-16 code
  units: a file name is cut by code units, and encoded by code points.
-/

namespace Umail

open JsString

/-! ### Sanitizing -/

/-- `trim()`: all white space takes one code unit. -/
def trimUnits (raw : List CodeUnit) : List CodeUnit :=
  (raw.dropWhile (unitIs isWhiteSpace)).rdropWhile (unitIs isWhiteSpace)

/-- What `sanitizeFilename` keeps of one code point. -/
def stripPoint (code : Nat) : List CodeUnit :=
  if code = 47 || code = 92 then ofString "_"
  else if code < 32 || code = 127 then []
  else encodePoint code

/-- `sanitizeFilename`, before the name is stored. -/
def sanitizeFilenameUnits : Option (List CodeUnit) → List CodeUnit
  | none => ofString "attachment"
  | some filename =>
    let stripped := (codePoints filename).flatMap stripPoint
    let trimmed := trimUnits stripped
    if trimmed.length = 0 then ofString "attachment"
    else if trimmed.length ≤ 200 then trimmed
    else trimmed.take 200

/-! ### The header -/

inductive AttachmentDisposition where
  | inline
  | attachment

def AttachmentDisposition.text : AttachmentDisposition → String
  | .inline => "inline"
  | .attachment => "attachment"

/-- The code points of a quoted file name: printable ASCII without `"`, `\` and `;`. -/
def isQuotable (code : Nat) : Bool :=
  !(code < 32 || 126 < code || code = 34 || code = 92 || code = 59)

def asciiFilename (filename : List CodeUnit) : List CodeUnit :=
  let result := (codePoints filename).flatMap fun code =>
    if isQuotable code then encodePoint code else ofString "_"
  if result.length = 0 then ofString "attachment" else result

/-- `replace(/['()*]/g, ..)` of one code unit; each has two hexadecimal digits. -/
def replaceReserved (u : CodeUnit) : List CodeUnit :=
  if u ∈ ofString "'()*" then percentEncodeByte (UInt8.ofNat u.toNat) else [u]

def encodeRfc5987 (value : List CodeUnit) : Except UriError (List CodeUnit) :=
  (encodeURIComponent value).map fun encoded => encoded.flatMap replaceReserved

def rfc6266ContentDisposition (disposition : AttachmentDisposition) (filename : List CodeUnit) :
    Except UriError (List CodeUnit) := do
  let ascii := asciiFilename filename
  let encoded ← encodeRfc5987 filename
  return ofString disposition.text ++ ofString "; filename=\"" ++ ascii ++
    ofString "\"; filename*=UTF-8''" ++ encoded

/-! ### The sanitized name -/

/-- The characters of a file name that are sanitized: no control characters,
    and no white space around them. -/
def visibleName (filename : String) : List Char :=
  trim (filename.toList.filter fun c => !isControl c)

/-- A path separator is replaced. -/
def replaceSlash (c : Char) : Char := if c = '/' || c = '\\' then '_' else c

theorem isWhiteSpace_replaceSlash (c : Char) : isWhiteSpace (replaceSlash c) = isWhiteSpace c := by
  unfold replaceSlash
  split
  · next h =>
    rw [Bool.or_eq_true, decide_eq_true_eq, decide_eq_true_eq] at h
    rcases h with rfl | rfl <;> decide
  · rfl

theorem width_replaceSlash (c : Char) : width (replaceSlash c) = width c := by
  unfold replaceSlash
  split
  · next h =>
    rw [Bool.or_eq_true, decide_eq_true_eq, decide_eq_true_eq] at h
    rcases h with rfl | rfl <;> decide
  · rfl

theorem isWhiteSpace_small (c : Char) (h : isWhiteSpace c = true) : c.toNat < 0x10000 := by
  simp only [isWhiteSpace, Bool.or_eq_true, decide_eq_true_eq, Bool.and_eq_true, List.mem_cons,
    char_eq_iff, List.not_mem_nil, or_false] at h
  simp at h
  omega

theorem trimUnits_encode (text : List Char) : trimUnits (encode text) = encode (trim text) := by
  have hzero : isWhiteSpace (Char.ofNat 0) = false := by decide
  unfold trimUnits
  rw [dropWhile_encode hzero isWhiteSpace_small, rdropWhile_encode hzero isWhiteSpace_small]
  rfl

theorem stripPoint_char (c : Char) : stripPoint c.toNat =
    if isControl c then [] else encodePoint (replaceSlash c).toNat := by
  have hslash : (c = '/' || c = '\\') = (c.toNat = 47 || c.toNat = 92 : Bool) := by
    simp only [char_eq_iff]
    rfl
  unfold stripPoint replaceSlash isControl
  rw [hslash]
  by_cases hseparator : (c.toNat = 47 || c.toNat = 92 : Bool) = true
  · have hvisible : (c.toNat ≤ 0x1f || c.toNat = 0x7f : Bool) = false := by
      simp only [Bool.or_eq_true, decide_eq_true_eq] at hseparator
      simp only [Bool.or_eq_false_iff, decide_eq_false_iff_not]
      omega
    rw [if_pos hseparator, if_pos hseparator, hvisible]
    rfl
  · rw [if_neg hseparator, if_neg hseparator]
    by_cases hcontrol : c.toNat < 32 ∨ c.toNat = 127
    · rw [if_pos (by simpa using hcontrol), if_pos]
      simp only [Bool.or_eq_true, decide_eq_true_eq]
      omega
    · rw [if_neg (by simpa using hcontrol), if_neg]
      simp only [Bool.or_eq_true, decide_eq_true_eq]
      omega

/-- The stripped name of a well-formed string. -/
theorem stripped_encode (text : List Char) :
    (codePoints (encode text)).flatMap stripPoint =
      encode ((text.filter fun c => !isControl c).map replaceSlash) := by
  rw [codePoints_encode]
  induction text with
  | nil => rfl
  | cons c text ih =>
    rw [List.map_cons, List.flatMap_cons, ih, stripPoint_char, List.filter_cons]
    cases isControl c <;> rfl

theorem encode_length_eq_zero {text : List Char} : (encode text).length = 0 ↔ text = [] := by
  rw [length_encode]
  cases text with
  | nil => simp
  | cons c text =>
    have hwide : 0 < width c := by
      unfold width
      split <;> decide
    rw [List.map_cons, List.sum_cons]
    exact iff_of_false (by omega) (List.cons_ne_nil _ _)

/-- A sanitized name is the visible one, cut at the limit. -/
theorem sanitizeFilenameUnits_encode (filename : String) :
    sanitizeFilenameUnits (some (ofString filename)) =
      if (visibleName filename).isEmpty then ofString "attachment"
      else (encode ((visibleName filename).map replaceSlash)).take 200 := by
  have htrimmed : trimUnits ((codePoints (ofString filename)).flatMap stripPoint) =
      encode ((visibleName filename).map replaceSlash) := by
    rw [ofString, stripped_encode, trimUnits_encode, trim_map isWhiteSpace_replaceSlash]
    rfl
  unfold sanitizeFilenameUnits
  simp only [htrimmed, encode_length_eq_zero, List.map_eq_nil_iff, List.isEmpty_iff]
  split
  · rfl
  · split
    · next hshort => exact (List.take_of_length_le hshort).symm
    · rfl

/-- Replacing a separator does not move the border. -/
theorem endsInside_replaceSlash {n : Nat} {text : List Char} :
    EndsInside n (text.map replaceSlash) ↔ EndsInside n text := by
  have hwidths : ∀ cs : List Char, (cs.map replaceSlash).map width = cs.map width := by
    intro cs
    rw [List.map_map]
    exact List.map_congr_left fun c _ => width_replaceSlash c
  constructor
  · rintro ⟨before, c, after, heq, hsum, hwide⟩
    obtain ⟨before', rest, rfl, rfl, hrest⟩ := List.map_eq_append_iff.mp heq
    obtain ⟨c', after', rfl, rfl, rfl⟩ := List.map_eq_cons_iff.mp hrest
    rw [hwidths] at hsum
    rw [width_replaceSlash] at hwide
    exact ⟨before', c', after', rfl, hsum, hwide⟩
  · rintro ⟨before, c, after, rfl, hsum, hwide⟩
    refine ⟨before.map replaceSlash, replaceSlash c, after.map replaceSlash, ?_, ?_, ?_⟩
    · rw [List.map_append, List.map_cons]
    · rwa [hwidths]
    · rwa [width_replaceSlash]

/-- What is stored of a cut name. -/
theorem wellFormed_take (n : Nat) (text : List Char) :
    wellFormed ((encode text).take n) = takeUtf16 n text := by
  induction text generalizing n with
  | nil =>
    rw [encode_nil, List.take_nil]
    cases n <;> rfl
  | cons c cs ih =>
    have hwidth : utf16Width c = width c := rfl
    rw [encode_cons, takeUtf16, hwidth]
    split
    · next hfits =>
      have hwhole : (encodePoint c.toNat).take n = encode [c] := by
        rw [encode_singleton, List.take_of_length_le (by rwa [length_encodePoint])]
      rw [List.take_append, hwhole, length_encodePoint, wellFormed_encode_append, ih]
      rfl
    · next hwide =>
      split
      · next hzero =>
        subst hzero
        rfl
      · next hpos =>
        -- one unit is left for a character of two
        have hlarge : 0x10000 ≤ c.toNat ∧ n = 1 := by
          unfold width at hwide
          split at hwide <;> omega
        obtain ⟨high, low, heq, hhigh, -, -⟩ := encodePoint_pair hlarge.1 (toNat_char_lt c)
        rw [heq, hlarge.2]
        show [if isSurrogate high.toNat then '\ufffd' else Char.ofNat high.toNat] = ['\ufffd']
        rw [isSurrogate_high hhigh, if_pos rfl]

/-- A path separator is no control character. -/
theorem filterMap_strip (text : List Char) : (text.filterMap fun c =>
    if c = '/' || c = '\\' then some '_' else if isControl c then none else some c) =
      (text.filter fun c => !isControl c).map replaceSlash := by
  induction text with
  | nil => rfl
  | cons c text ih =>
    rw [List.filterMap_cons, List.filter_cons, ih]
    by_cases hslash : (c = '/' || c = '\\' : Bool) = true
    · have hvisible : isControl c = false := by
        rw [Bool.or_eq_true, decide_eq_true_eq, decide_eq_true_eq] at hslash
        rcases hslash with rfl | rfl <;> decide
      simp [hslash, hvisible, replaceSlash]
    · cases isControl c <;> simp [hslash, replaceSlash]

/-- What the store keeps of a sanitized name: `sanitizeFilename` of the model. -/
theorem wellFormed_sanitizeFilenameUnits (filename : Option String) :
    String.ofList (wellFormed (sanitizeFilenameUnits (filename.map ofString))) =
      sanitizeFilename filename := by
  have hattachment : String.ofList (wellFormed (ofString "attachment")) = "attachment" := by
    rw [ofString, wellFormed_encode, String.ofList_toList]
  cases filename with
  | none => exact hattachment
  | some filename =>
    -- the model strips, replaces and trims the same characters
    have htrimmed : trim (filename.toList.filterMap fun c =>
        if c = '/' || c = '\\' then some '_' else if isControl c then none else some c) =
          (visibleName filename).map replaceSlash := by
      rw [filterMap_strip, trim_map isWhiteSpace_replaceSlash]
      rfl
    rw [Option.map_some, sanitizeFilenameUnits_encode]
    unfold sanitizeFilename
    simp only [htrimmed, List.isEmpty_map]
    split
    · exact hattachment
    · rw [wellFormed_take]
      split
      · next hshort =>
        rw [← wellFormed_take, List.take_of_length_le, wellFormed_encode]
        rw [length_encode]
        exact hshort
      · rfl

/-! ### The encoded name -/

/-- What `encodeRfc5987` makes of a character. -/
def rfc5987Char (c : Char) : List CodeUnit := (uriChar c).flatMap replaceReserved

theorem encodeRfc5987_encode (name : List Char) :
    encodeRfc5987 (encode name) = .ok (name.flatMap rfc5987Char) := by
  rw [encodeRfc5987, encodeURIComponent_encode]
  exact congrArg Except.ok List.flatMap_assoc

/-- Printable ASCII. -/
def IsPrintable (u : CodeUnit) : Prop := 32 ≤ u.toNat ∧ u.toNat ≤ 126

instance (u : CodeUnit) : Decidable (IsPrintable u) := inferInstanceAs (Decidable (_ ∧ _))

/-- A percent-encoded byte is left as it is. -/
theorem replaceReserved_byte (b : UInt8) :
    (percentEncodeByte b).flatMap replaceReserved = percentEncodeByte b := by
  have hdigit : ∀ n < 16, replaceReserved (hexDigit n) = [hexDigit n] := by decide
  have hpercent : replaceReserved percent = [percent] := by decide
  have hlt : b.toNat < 256 := b.toNat_lt
  rw [percentEncodeByte, List.flatMap_cons, List.flatMap_cons, List.flatMap_cons, List.flatMap_nil,
    hpercent, hdigit _ (by omega), hdigit _ (by omega)]
  rfl

theorem replaceReserved_bytes (bytes : List UInt8) :
    (bytes.flatMap percentEncodeByte).flatMap replaceReserved =
      bytes.flatMap percentEncodeByte := by
  induction bytes with
  | nil => rfl
  | cons b bytes ih => rw [List.flatMap_cons, List.flatMap_append, replaceReserved_byte, ih]

/-- A character of a name is written as itself or as its bytes. -/
theorem rfc5987Char_cases (c : Char) :
    (rfc5987Char c = encodePoint c.toNat ∧ 32 < c.toNat ∧ c.toNat < 127 ∧ c.toNat ≠ 37) ∨
      rfc5987Char c = (String.utf8EncodeChar c).flatMap percentEncodeByte := by
  unfold rfc5987Char uriChar
  split
  · next hplain =>
    obtain ⟨hlow, hhigh, hpercent⟩ := isUriUnreserved_lt hplain
    have hunit : (UInt16.ofNat c.toNat).toNat = c.toNat := toNat_ofNat_unit (by omega)
    rw [encodePoint_small (by omega), List.flatMap_singleton, replaceReserved]
    split
    · right
      rw [utf8EncodeChar_ascii (by omega), hunit, List.flatMap_singleton]
    · exact .inl ⟨rfl, hlow, hhigh, hpercent⟩
  · exact .inr (replaceReserved_bytes _)

theorem percentDecode_rfc5987Char (c : Char) (rest : List CodeUnit) :
    percentDecode (rfc5987Char c ++ rest) =
      (percentDecode rest).map (String.utf8EncodeChar c ++ ·) := by
  rcases rfc5987Char_cases c with ⟨heq, -, hhigh, hpercent⟩ | heq
  · rw [heq, percentDecode_plain (by omega) hpercent]
  · rw [heq, percentDecode_bytes]

/-- The bytes of the encoded name are those of the name. -/
theorem percentDecode_name (name : List Char) : percentDecode (name.flatMap rfc5987Char) =
    some (name.flatMap String.utf8EncodeChar) := by
  induction name with
  | nil => rfl
  | cons c name ih =>
    rw [List.flatMap_cons, percentDecode_rfc5987Char, ih]
    rfl

theorem isPrintable_percentEncodeByte (b : UInt8) : ∀ u ∈ percentEncodeByte b,
    IsPrintable u := by
  have hdigit : ∀ n < 16, IsPrintable (hexDigit n) := by decide
  have hlt : b.toNat < 256 := b.toNat_lt
  intro u hu
  simp only [percentEncodeByte, List.mem_cons, List.not_mem_nil, or_false] at hu
  rcases hu with rfl | rfl | rfl
  · decide
  · exact hdigit _ (by omega)
  · exact hdigit _ (by omega)

theorem isPrintable_rfc5987Char (c : Char) : ∀ u ∈ rfc5987Char c, IsPrintable u := by
  intro u hu
  rcases rfc5987Char_cases c with ⟨heq, hlow, hhigh, -⟩ | heq
  · rw [heq, encodePoint_small (by omega), List.mem_singleton] at hu
    have hunit : (UInt16.ofNat c.toNat).toNat = c.toNat := toNat_ofNat_unit (by omega)
    rw [hu, IsPrintable, hunit]
    omega
  · rw [heq] at hu
    obtain ⟨b, -, hb⟩ := List.mem_flatMap.mp hu
    exact isPrintable_percentEncodeByte b u hb

/-! ### The quoted name -/

/-- A printable character other than a quote, a backslash and a semicolon. -/
def IsQuoted (u : CodeUnit) : Prop :=
  IsPrintable u ∧ u.toNat ≠ 34 ∧ u.toNat ≠ 92 ∧ u.toNat ≠ 59

instance (u : CodeUnit) : Decidable (IsQuoted u) := inferInstanceAs (Decidable (_ ∧ _))

theorem isQuoted_of_isQuotable {code : Nat} (h : isQuotable code = true) :
    ∀ u ∈ encodePoint code, IsQuoted u := by
  simp only [isQuotable, Bool.not_eq_true', Bool.or_eq_false_iff, decide_eq_false_iff_not] at h
  intro u hu
  rw [encodePoint_small (by omega), List.mem_singleton] at hu
  rw [hu, IsQuoted, IsPrintable, toNat_ofNat_unit (by omega)]
  omega

/-- Nothing but quotable characters is left in the quoted name, whatever the
    file name is. -/
theorem asciiFilename_quoted (filename : List CodeUnit) :
    ∀ u ∈ asciiFilename filename, IsQuoted u := by
  have hpoint : ∀ code, ∀ u ∈ (if isQuotable code then encodePoint code else ofString "_"),
      IsQuoted u := by
    have hunderscore : ∀ v ∈ ofString "_", IsQuoted v := forall_of_all (by decide)
    intro code u hu
    split at hu
    · next hquotable => exact isQuoted_of_isQuotable hquotable u hu
    · exact hunderscore u hu
  have hattachment : ∀ v ∈ ofString "attachment", IsQuoted v := forall_of_all (by decide)
  intro u hu
  unfold asciiFilename at hu
  dsimp only at hu
  split at hu
  · exact hattachment u hu
  · obtain ⟨code, -, hcode⟩ := List.mem_flatMap.mp hu
    exact hpoint code u hcode

/-! ### The whole header -/

/-- A header that any recipient reads the file name from. -/
structure FaithfulDisposition (disposition : AttachmentDisposition) (filename : List CodeUnit)
    (header : List CodeUnit) : Prop where
  printable : ∀ u ∈ header, IsPrintable u
  /-- The quoted name has no quote, backslash, semicolon or control character, and the encoded
      one is the UTF-8 text of the file name. -/
  names : ∃ quoted encoded bytes name,
    header = ofString disposition.text ++ ofString "; filename=\"" ++ quoted ++
      ofString "\"; filename*=UTF-8''" ++ encoded ∧
    (∀ u ∈ quoted, IsQuoted u) ∧
    percentDecode encoded = some bytes ∧
    String.fromUTF8? bytes.toByteArray = some name ∧ ofString name = filename

/-- The header of a well-formed file name. -/
theorem rfc6266ContentDisposition_encode (disposition : AttachmentDisposition) (name : List Char) :
    ∃ header, rfc6266ContentDisposition disposition (encode name) = .ok header ∧
      FaithfulDisposition disposition (encode name) header := by
  refine ⟨ofString disposition.text ++ ofString "; filename=\"" ++ asciiFilename (encode name) ++
    ofString "\"; filename*=UTF-8''" ++ name.flatMap rfc5987Char, ?_, ?_, ?_⟩
  · rw [rfc6266ContentDisposition, encodeRfc5987_encode]
    rfl
  · -- the fixed parts are printable, and so are both forms of the name
    have htext : ∀ u ∈ ofString disposition.text, IsPrintable u := by
      cases disposition <;> exact forall_of_all (by decide)
    have hopen : ∀ u ∈ ofString "; filename=\"", IsPrintable u := forall_of_all (by decide)
    have hclose : ∀ u ∈ ofString "\"; filename*=UTF-8''", IsPrintable u :=
      forall_of_all (by decide)
    intro u hu
    simp only [List.mem_append, List.mem_flatMap] at hu
    rcases hu with (((hu | hu) | hu) | hu) | ⟨c, -, hu⟩
    · exact htext u hu
    · exact hopen u hu
    · exact (asciiFilename_quoted _ u hu).1
    · exact hclose u hu
    · exact isPrintable_rfc5987Char c u hu
  · refine ⟨_, _, _, _, rfl, asciiFilename_quoted _, percentDecode_name name,
      fromUTF8_utf8Encode name, ?_⟩
    rw [ofString, String.toList_ofList]

/-- A name that is cut inside a pair cannot be encoded. -/
theorem rfc6266ContentDisposition_error (disposition : AttachmentDisposition) (before : List Char)
    {high : CodeUnit} (h : isHighSurrogate high = true) :
    ∃ e, rfc6266ContentDisposition disposition (encode before ++ [high]) = .error e := by
  have hmem : high.toNat ∈ codePoints (encode before ++ [high]) := by
    rw [codePoints_encode_append]
    exact List.mem_append_right _ (List.mem_singleton_self _)
  obtain ⟨e, he⟩ := encodeURIComponent_error hmem (isSurrogate_high h)
  refine ⟨e, ?_⟩
  rw [rfc6266ContentDisposition, encodeRfc5987, he]
  rfl

/-- **Content-Disposition.** A sanitized name gets a faithful header exactly
    when the limit does not fall inside a surrogate pair of the visible name. -/
theorem rfc6266ContentDisposition_faithful (disposition : AttachmentDisposition)
    (filename : Option String) :
    (∃ header, rfc6266ContentDisposition disposition
        (sanitizeFilenameUnits (filename.map ofString)) = .ok header ∧
      FaithfulDisposition disposition (sanitizeFilenameUnits (filename.map ofString)) header) ↔
    ¬ EndsInside 200 (visibleName (filename.getD "")) := by
  -- the fallback name, for no name and for one that nothing is left of
  have hattachment : ∃ header, rfc6266ContentDisposition disposition (ofString "attachment") =
      .ok header ∧ FaithfulDisposition disposition (ofString "attachment") header :=
    rfc6266ContentDisposition_encode disposition "attachment".toList
  cases filename with
  | none =>
    refine iff_of_true hattachment ?_
    rintro ⟨before, c, after, heq, -⟩
    exact absurd heq.symm (by simp [visibleName, trim])
  | some filename =>
    rw [Option.map_some, Option.getD_some, sanitizeFilenameUnits_encode]
    split
    · next hempty =>
      refine iff_of_true hattachment ?_
      rintro ⟨before, c, after, heq, -⟩
      rw [List.isEmpty_iff.mp hempty] at heq
      exact absurd heq.symm (by simp)
    · constructor
      · rintro ⟨header, hok, -⟩ hinside
        -- the cut leaves the first half of a pair, which cannot be encoded
        obtain ⟨before, high, hhigh, htake⟩ :=
          take_encode_inside (endsInside_replaceSlash.mpr hinside)
        obtain ⟨e, he⟩ := rfc6266ContentDisposition_error disposition before hhigh
        rw [htake, he] at hok
        exact absurd hok (by simp)
      · intro hinside
        -- the cut falls between two characters, so the rest is text again
        obtain ⟨kept, -, htake⟩ := take_encode (mt endsInside_replaceSlash.mp hinside)
        rw [htake]
        exact rfc6266ContentDisposition_encode disposition kept

namespace Sample

/-- A name of 199 letters and a character of two code units. -/
def longFilename : String := String.ofList (List.replicate 199 'a' ++ ['😀'])

theorem longFilename_endsInside : EndsInside 200 (visibleName longFilename) := by
  refine ⟨List.replicate 199 'a', '😀', [], ?_, ?_, ?_⟩
  · decide +kernel
  · decide +kernel
  · decide

end Sample

section sample
open Sample

/-- The header of that name is not made: encoding the half character throws. -/
theorem rfc6266ContentDisposition_cut : ∃ e, rfc6266ContentDisposition .attachment
    (sanitizeFilenameUnits (some (ofString longFilename))) = .error e := by
  obtain ⟨before, high, hhigh, htake⟩ :=
    take_encode_inside (endsInside_replaceSlash.mpr longFilename_endsInside)
  have hvisible : (visibleName longFilename).isEmpty = false := by decide +kernel
  rw [sanitizeFilenameUnits_encode, hvisible, if_neg Bool.false_ne_true, htake]
  exact rfc6266ContentDisposition_error .attachment before hhigh

end sample

end Umail
