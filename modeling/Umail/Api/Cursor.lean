import Umail.Account.Identifiers
import Umail.Account.Listing
import Umail.Api.Operations
import Umail.Framework.JsString

/-! # Cursors on the wire

  `encodeCursor` and `decodeCursor` of `apps/server/src/api/operations.ts`,
  and `parseUtcInstant` of `packages/api-contract/src/query-instant.ts`. A
  cursor travels as the base64url coding of a timestamp and an id on two
  lines. Every cursor of a stored row comes back as it was sent.
-/

namespace Umail

/-! ### Timestamps -/

/-- The date library: `DateTime.make` as epoch milliseconds, `toPartsUtc(..).year`
    and `formatIso`. -/
class DateTime where
  make : String → Option Int
  yearUtc : Int → Int
  formatIso : Int → String

/-- `/^\d{4}-\d{2}-\d{2}T\d{2}:\d{2}:\d{2}\.\d{3}Z$/`, with `d` for a digit. -/
def CANONICAL_UTC_INSTANT : List Char := "dddd-dd-ddTdd:dd:dd.dddZ".toList

def isCanonicalUtcInstant (iso : String) : Bool :=
  iso.toList.length = CANONICAL_UTC_INSTANT.length &&
    (iso.toList.zip CANONICAL_UTC_INSTANT).all fun (c, p) =>
      if p = 'd' then c.isDigit else c = p

theorem isCanonicalUtcInstant_length {iso : String} (h : isCanonicalUtcInstant iso = true) :
    iso.toList.length = 24 := of_decide_eq_true (Bool.and_eq_true_iff.mp h).1

/-- A canonical timestamp is one line. -/
theorem isCanonicalUtcInstant_line {iso : String} (h : isCanonicalUtcInstant iso = true) :
    '\n' ∉ iso.toList := by
  intro hmem
  obtain ⟨i, hi, hchar⟩ := List.mem_iff_getElem.mp hmem
  have hlength : i < CANONICAL_UTC_INSTANT.length := by
    rw [← of_decide_eq_true (Bool.and_eq_true_iff.mp h).1]
    exact hi
  have hzip : (iso.toList[i], CANONICAL_UTC_INSTANT[i]) ∈
      iso.toList.zip CANONICAL_UTC_INSTANT := by
    rw [List.mem_iff_getElem]
    exact ⟨i, by simp [hi, hlength], by simp⟩
  have hshape := List.all_eq_true.mp (Bool.and_eq_true_iff.mp h).2 _ hzip
  have htemplate : '\n' ∉ CANONICAL_UTC_INSTANT := by decide
  simp only [hchar] at hshape
  split at hshape
  · exact absurd hshape (by decide)
  · exact htemplate (of_decide_eq_true hshape ▸ List.getElem_mem hlength)

section coding
variable [DateTime]

def parseUtcInstant (raw : String) : Option String :=
  match DateTime.make raw with
  | none => none
  | some millis =>
    if DateTime.yearUtc millis < 1 ∨ 9999 < DateTime.yearUtc millis then none
    else
      let iso := DateTime.formatIso millis
      if isCanonicalUtcInstant iso then some iso else none

/-- The stored text of an instant. -/
def isoText (instant : Instant) : String := DateTime.formatIso instant

/-- The instant of a stored text. -/
def instantOf (iso : String) : Instant := ((DateTime.make iso).getD 0).toNat

/-- The text of the instant is a canonical timestamp, and stands for it. -/
def IsCanonical (instant : Instant) : Prop :=
  DateTime.make (isoText instant) = some (instant : Int) ∧
    parseUtcInstant (isoText instant) = some (isoText instant)

instance (instant : Instant) : Decidable (IsCanonical instant) :=
  inferInstanceAs (Decidable (_ ∧ _))

theorem IsCanonical.shape {instant : Instant} (h : IsCanonical instant) :
    isCanonicalUtcInstant (isoText instant) = true := by
  have hparse := h.2
  unfold parseUtcInstant at hparse
  rw [h.1] at hparse
  split at hparse
  · exact absurd hparse (by simp)
  · next hmake =>
    obtain rfl := Option.some.inj hmake
    split at hparse
    · exact absurd hparse (by simp)
    · simp only at hparse
      split at hparse
      · assumption
      · exact absurd hparse (by simp)

theorem IsCanonical.instantOf {instant : Instant} (h : IsCanonical instant) :
    instantOf (isoText instant) = instant := by
  simp [Umail.instantOf, h.1]

/-! ### Coding -/

/-- `Base64Url.encode` and `Base64Url.decodeString`. -/
class Base64Url where
  encode : String → String
  decodeString : String → Option String

/-- The coding is exact. -/
class LawfulBase64Url [Base64Url] : Prop where
  decode_encode : ∀ text, Base64Url.decodeString (Base64Url.encode text) = some text

variable [Base64Url]

def invalidCursor : InvalidRequest where
  code := "invalid_cursor"
  message :=
    "The cursor is not valid. Pass nextCursor from the previous page unchanged, or omit it."

/-- The text of a cursor, before its coding. -/
def cursorText (cursor : PageCursor) : String := isoText cursor.at ++ "\n" ++ cursor.id

def encodeCursor (cursor : Option PageCursor) : Option String :=
  cursor.map fun cursor => Base64Url.encode (cursorText cursor)

/-- The text before the only newline and the text after it. -/
def splitCursor (text : String) : Option (String × String) :=
  match text.toList.idxOf? '\n' with
  | none => none
  | some separator =>
    let after := text.toList.drop (separator + 1)
    -- `separator <= 0 || separator !== text.lastIndexOf("\n")`
    if separator = 0 ∨ '\n' ∈ after then none
    else some (String.ofList (text.toList.take separator), String.ofList after)

def decodeCursor : Option String → Except InvalidRequest (Option PageCursor)
  | none => .ok none
  | some cursor =>
    match Base64Url.decodeString cursor with
    | none => .error invalidCursor
    | some text =>
      match splitCursor text with
      | none => .error invalidCursor
      | some (iso, id) =>
        if id.isEmpty ∨ parseUtcInstant iso ≠ some iso then .error invalidCursor
        else .ok (some { «at» := instantOf iso, id })

/-- The cursor of a stored row. -/
structure PageCursor.Stored (cursor : PageCursor) : Prop where
  «at» : IsCanonical cursor.at
  id : isPlainId cursor.id = true

omit [Base64Url] in
theorem splitCursor_text {cursor : PageCursor} (h : cursor.Stored) :
    splitCursor (cursorText cursor) = some (isoText cursor.at, cursor.id) := by
  have hlist : (cursorText cursor).toList =
      (isoText cursor.at).toList ++ '\n' :: cursor.id.toList := by
    simp [cursorText, String.toList_append]
  have hline := isCanonicalUtcInstant_line h.at.shape
  have hid : '\n' ∉ cursor.id.toList := isPlainId_ne h.id (by decide)
  -- an instant has no line break, so the first one is the separator
  have hindex : (cursorText cursor).toList.idxOf? '\n' =
      some (isoText cursor.at).toList.length := by
    rw [hlist, List.idxOf?, List.findIdx?_append]
    have hnone : (isoText cursor.at).toList.findIdx? (· == '\n') = none := by
      rw [List.findIdx?_eq_none_iff]
      intro c hc
      simpa using fun heq : c = '\n' => hline (heq ▸ hc)
    rw [hnone]
    simp [List.findIdx?_cons]
  have hpos : (isoText cursor.at).toList.length ≠ 0 := by
    rw [isCanonicalUtcInstant_length h.at.shape]
    decide
  unfold splitCursor
  rw [hindex]
  have hafter : (cursorText cursor).toList.drop ((isoText cursor.at).toList.length + 1) =
      cursor.id.toList := by
    rw [hlist, List.drop_append]
    simp
  have hbefore : (cursorText cursor).toList.take (isoText cursor.at).toList.length =
      (isoText cursor.at).toList := by
    rw [hlist, List.take_left]
  simp only [hafter, hbefore, hpos, hid, or_self, if_false, String.ofList_toList]

/-- **Round trip.** The cursor of a stored row is accepted, and is the one
    that was sent. -/
theorem decodeCursor_encodeCursor [LawfulBase64Url] {cursor : PageCursor} (h : cursor.Stored) :
    decodeCursor (encodeCursor (some cursor)) = .ok (some cursor) := by
  have hid : cursor.id.isEmpty = false := by
    have hne := isPlainId_ne_nil h.id
    simpa using fun heq : cursor.id = "" => hne (by rw [heq]; rfl)
  simp only [encodeCursor, Option.map_some, decodeCursor, LawfulBase64Url.decode_encode,
    splitCursor_text h, hid, h.at.2, h.at.instantOf]
  simp

end coding

/-! ### A sample coding

  Base64url over UTF-8, and the first day of 1970. -/

namespace Sample

def base64Url : List Char :=
  "ABCDEFGHIJKLMNOPQRSTUVWXYZabcdefghijklmnopqrstuvwxyz0123456789-_".toList

/-- Three bytes are four sextets. -/
def encodeSextets : List Nat → List Nat
  | a :: b :: c :: rest =>
    a / 4 :: (a % 4 * 16 + b / 16) :: (b % 16 * 4 + c / 64) :: c % 64 :: encodeSextets rest
  | [a, b] => [a / 4, a % 4 * 16 + b / 16, b % 16 * 4]
  | [a] => [a / 4, a % 4 * 16]
  | [] => []

def decodeSextets : List Nat → Option (List Nat)
  | w :: x :: y :: z :: rest =>
    (decodeSextets rest).map fun bytes =>
      (w * 4 + x / 16) :: (x % 16 * 16 + y / 4) :: (y % 4 * 64 + z) :: bytes
  | [w, x, y] => some [w * 4 + x / 16, x % 16 * 16 + y / 4]
  | [w, x] => some [w * 4 + x / 16]
  | [_] => none
  | [] => some []

theorem decodeSextets_encodeSextets {bytes : List Nat} (h : ∀ b ∈ bytes, b < 256) :
    decodeSextets (encodeSextets bytes) = some bytes := by
  fun_induction encodeSextets bytes with
  -- three bytes, and two shorter ends
  | case1 a b c rest ih =>
    have ha := h a (by simp)
    have hb := h b (by simp)
    have hc := h c (by simp)
    rw [decodeSextets, ih fun d hd => h d (by simp [hd])]
    simp only [Option.map_some, Option.some.injEq, List.cons.injEq, and_true]
    omega
  | case2 a b =>
    have ha := h a (by simp)
    have hb := h b (by simp)
    simp only [decodeSextets, Option.some.injEq, List.cons.injEq, and_true]
    omega
  | case3 a =>
    have ha := h a (by simp)
    simp only [decodeSextets, Option.some.injEq, List.cons.injEq, and_true]
    omega
  | case4 => rfl

theorem encodeSextets_lt {bytes : List Nat} (h : ∀ b ∈ bytes, b < 256) :
    ∀ n ∈ encodeSextets bytes, n < 64 := by
  fun_induction encodeSextets bytes with
  -- three bytes are four sextets
  | case1 a b c rest ih =>
    have ha := h a (by simp)
    have hb := h b (by simp)
    have hc := h c (by simp)
    have ih := ih fun d hd => h d (by simp [hd])
    intro n hn
    simp only [List.mem_cons] at hn
    rcases hn with rfl | rfl | rfl | rfl | hn
    · omega
    · omega
    · omega
    · omega
    · exact ih n hn
  | case2 a b =>
    have ha := h a (by simp)
    have hb := h b (by simp)
    intro n hn
    simp only [List.mem_cons, List.not_mem_nil, or_false] at hn
    omega
  | case3 a =>
    have ha := h a (by simp)
    intro n hn
    simp only [List.mem_cons, List.not_mem_nil, or_false] at hn
    omega
  | case4 => exact fun n hn => absurd hn List.not_mem_nil

def utf8Bytes (text : String) : List Nat :=
  (text.toList.flatMap String.utf8EncodeChar).map UInt8.toNat

scoped instance base64UrlCoding : Base64Url where
  encode text := String.ofList ((encodeSextets (utf8Bytes text)).map (base64Url.getD · 'A'))
  decodeString code := do
    let sextets ← code.toList.mapM base64Url.idxOf?
    let bytes ← decodeSextets sextets
    String.fromUTF8? (bytes.map UInt8.ofNat).toByteArray

theorem idxOf?_alphabet : ∀ n < 64, base64Url.idxOf? (base64Url.getD n 'A') = some n := by decide

theorem mapM_alphabet {sextets : List Nat} (h : ∀ n ∈ sextets, n < 64) :
    (sextets.map (base64Url.getD · 'A')).mapM base64Url.idxOf? = some sextets := by
  induction sextets with
  | nil => rfl
  | cons n sextets ih =>
    rw [List.map_cons, List.mapM_cons, idxOf?_alphabet n (h n List.mem_cons_self),
      ih fun k hk => h k (List.mem_cons_of_mem _ hk)]
    rfl

scoped instance lawfulBase64Url : LawfulBase64Url where
  decode_encode text := by
    have hbytes : ∀ b ∈ utf8Bytes text, b < 256 := by
      intro b hb
      obtain ⟨byte, -, rfl⟩ := List.mem_map.mp hb
      exact byte.toNat_lt
    have hutf8 : (utf8Bytes text).map UInt8.ofNat = text.toList.flatMap String.utf8EncodeChar := by
      rw [utf8Bytes, List.map_map]
      exact List.map_id'' (fun _ => UInt8.ofNat_toNat) _
    simp only [Base64Url.decodeString, Base64Url.encode, String.toList_ofList,
      mapM_alphabet (encodeSextets_lt hbytes), Option.bind_eq_bind, Option.bind_some,
      decodeSextets_encodeSextets hbytes, hutf8]
    rw [JsString.fromUTF8_utf8Encode, String.ofList_toList]

/-- `n` in decimal, with `width` digits. -/
def padded (width n : Nat) : List Char :=
  ((List.range width).map fun i => Nat.digitChar (n / 10 ^ i % 10)).reverse

def readDigits (digits : List Char) : Nat :=
  digits.foldl (fun n c => 10 * n + (c.toNat - '0'.toNat)) 0

scoped instance firstDay : DateTime where
  make raw :=
    if isCanonicalUtcInstant raw && raw.toList.take 11 = "1970-01-01T".toList then
      let part start width := readDigits ((raw.toList.drop start).take width)
      some (((part 11 2 * 60 + part 14 2) * 60 + part 17 2) * 1000 + part 20 3 : Nat)
    else none
  yearUtc _ := 1970
  formatIso millis :=
    let n := millis.toNat
    String.ofList ("1970-01-01T".toList ++ padded 2 (n / 3600000) ++ ':' ::
      padded 2 (n / 60000 % 60) ++ ':' :: padded 2 (n / 1000 % 60) ++ '.' ::
      padded 3 (n % 1000) ++ ['Z'])

example : encodeCursor (some { «at» := 1000, id := "message-1" }) =
    some "MTk3MC0wMS0wMVQwMDowMDowMS4wMDBaCm1lc3NhZ2UtMQ" := by decide +kernel

end Sample

end Umail
