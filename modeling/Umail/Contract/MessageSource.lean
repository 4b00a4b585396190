import Umail.Framework.Lines

/-! # The header block of a message source

  `headerBlock` and `headerBlockEnd` of `packages/api-contract/src/message-source.ts`:
  the bytes of a stored message before its first blank line, at most
  `MAX_HEADER_BLOCK_BYTES` of them, decoded as UTF-8.

  The scanning loop of the source is a recursion on the number of rounds it
  may still take; `headerBlockEnd_loop` says that it never needs more rounds
  than the source has bytes, and where it ends.
-/

namespace Umail

open Lines

def MAX_HEADER_BLOCK_BYTES : Nat := 256 * 1024

def LF : UInt8 := 0x0a
def CR : UInt8 := 0x0d

/-! ### The text decoder

  UTF-8 as the Encoding Standard decodes it without `fatal`: an ill-formed
  sequence becomes U+FFFD and the byte that broke it is read again. A byte
  order mark stays (`ignoreBOM`).
-/

/-- What is left of the code point that is being read: the bytes still
    missing and the bounds on the next one. -/
structure HeaderDecoder where
  codePoint : Nat
  bytesNeeded : Nat
  lower : Nat
  upper : Nat

def HeaderDecoder.start : HeaderDecoder := ⟨0, 0, 0x80, 0xBF⟩

def replacementCharacter : Char := Char.ofNat 0xFFFD

/-- The first byte of a code point. -/
def HeaderDecoder.lead (b : Nat) : List Char × HeaderDecoder :=
  if b ≤ 0x7F then ([Char.ofNat b], .start)
  else if 0xC2 ≤ b ∧ b ≤ 0xDF then ([], ⟨b % 0x20, 1, 0x80, 0xBF⟩)
  else if 0xE0 ≤ b ∧ b ≤ 0xEF then
    ([], ⟨b % 0x10, 2, if b = 0xE0 then 0xA0 else 0x80, if b = 0xED then 0x9F else 0xBF⟩)
  else if 0xF0 ≤ b ∧ b ≤ 0xF4 then
    ([], ⟨b % 0x08, 3, if b = 0xF0 then 0x90 else 0x80, if b = 0xF4 then 0x8F else 0xBF⟩)
  else ([replacementCharacter], .start)

def HeaderDecoder.step (decoder : HeaderDecoder) (b : Nat) : List Char × HeaderDecoder :=
  if decoder.bytesNeeded = 0 then lead b
  else if b < decoder.lower ∨ decoder.upper < b then
    let (chars, next) := lead b
    (replacementCharacter :: chars, next)
  else
    let codePoint := decoder.codePoint * 0x40 + b % 0x40
    if decoder.bytesNeeded = 1 then ([Char.ofNat codePoint], .start)
    else ([], ⟨codePoint, decoder.bytesNeeded - 1, 0x80, 0xBF⟩)

def HeaderDecoder.run (decoder : HeaderDecoder) : List UInt8 → List Char
  | [] => if decoder.bytesNeeded = 0 then [] else [replacementCharacter]
  | b :: rest =>
    let (chars, next) := decoder.step b.toNat
    chars ++ next.run rest

/-- `headerDecoder.decode`. -/
def decodeHeaders (bytes : List UInt8) : String := String.ofList (HeaderDecoder.start.run bytes)

example : decodeHeaders [0xEF, 0xBB, 0xBF, 0x61, 0xC3, 0xA9, 0xC3] =
    String.ofList [Char.ofNat 0xFEFF, 'a', 'é', replacementCharacter] := by decide

/-! ### Scanning for the blank line -/

/-- `source.indexOf(byte, start)`. -/
def indexOfFrom (source : List UInt8) (byte : UInt8) (start : Nat) : Option Nat :=
  ((source.drop start).idxOf? byte).map (start + ·)

/-- `source.subarray(start, end)`. -/
def subarray (source : List UInt8) (start stop : Nat) : List UInt8 :=
  (source.drop start).take (stop - start)

/-- The condition under which the loop takes a line for the blank one. -/
def isBlankContent (content : List UInt8) : Bool := content.all (· == CR)

/-- The loop of `headerBlockEnd` from the line at `lineStart`, for at most
    `rounds` rounds. -/
def headerBlockEndFrom (source : List UInt8) (rounds lineStart : Nat) : Option Nat :=
  match rounds with
  | 0 => none
  | rounds + 1 =>
    if lineStart < source.length then
      let lineFeed := indexOfFrom source LF lineStart
      let lineEnd := lineFeed.getD source.length
      if isBlankContent (subarray source lineStart lineEnd) then some lineStart
      else
        match lineFeed with
        | none => some source.length
        | some lineFeed => headerBlockEndFrom source rounds (lineFeed + 1)
    else some source.length

def headerBlockEnd (source : List UInt8) : Option Nat :=
  headerBlockEndFrom source (source.length + 1) 0

structure MessageHeaders where
  headers : String
  truncated : Bool
  deriving DecidableEq

def headerBlock (source : List UInt8) : Option MessageHeaders := do
  let block := subarray source 0 (← headerBlockEnd source)
  let truncated := decide (MAX_HEADER_BLOCK_BYTES < block.length)
  let bounded := if truncated then subarray block 0 MAX_HEADER_BLOCK_BYTES else block
  return { headers := decodeHeaders bounded, truncated }

example : (headerBlock "A: b\r\n\r\r\nbody".toUTF8.toList).map (·.headers) = some "A: b\r\n" := by
  decide +kernel

/-! ### Where the scan ends -/

/-- The bytes before the first blank line of `source`, whole lines all. -/
def blockBeforeBlank (source : List UInt8) : List UInt8 := firstLines isBlankContent LF source

section scan
variable {source : List UInt8}

/-- What one search for a line feed finds: nothing, and the rest is one
    line, or the content of a line and what follows it. -/
theorem indexOfFrom_cases (source : List UInt8) (start : Nat) :
    (indexOfFrom source LF start = none ∧ LF ∉ source.drop start) ∨
    ∃ content rest, source.drop start = content ++ LF :: rest ∧ LF ∉ content ∧
      indexOfFrom source LF start = some (start + content.length) := by
  cases hfind : (source.drop start).idxOf? LF with
  | none => exact .inl ⟨by simp [indexOfFrom, hfind], List.idxOf?_eq_none_iff.mp hfind⟩
  | some i =>
    obtain ⟨content, rest, hsplit, hcontent, rfl⟩ := idxOf?_eq_some hfind
    exact .inr ⟨content, rest, hsplit, hcontent, by simp [indexOfFrom, hfind]⟩

theorem subarray_content {start : Nat} {content rest : List UInt8}
    (h : source.drop start = content ++ rest) :
    subarray source start (start + content.length) = content := by
  simp [subarray, h]

/-- **The loop ends**, after at most one round for each byte, behind the lines
    before the first blank one. -/
theorem headerBlockEndFrom_eq {rounds start : Nat} (hstart : start ≤ source.length)
    (hrounds : source.length < start + rounds) :
    headerBlockEndFrom source rounds start =
      some (start + (blockBeforeBlank (source.drop start)).length) := by
  induction rounds generalizing start with
  | zero => omega
  | succ rounds ih =>
    rw [headerBlockEndFrom]
    by_cases hlt : start < source.length
    · rw [if_pos hlt]
      obtain ⟨hnone, hnot⟩ | ⟨content, rest, hsplit, hcontent, hsome⟩ :=
        indexOfFrom_cases source start
      · -- the last line has no line feed
        have hne : source.drop start ≠ [] := by simpa using hlt
        have hline : subarray source start source.length = source.drop start :=
          List.take_of_length_le (List.length_drop ▸ le_rfl)
        have hend : start + (source.length - start) = source.length := by omega
        simp only [hnone, Option.getD_none, hline, blockBeforeBlank,
          firstLines_of_not_mem isBlankContent hnot hne]
        by_cases hblank : isBlankContent (source.drop start) <;> simp [hblank, hend]
      · have hline : subarray source start (start + content.length) = content :=
          subarray_content hsplit
        have hrest : source.drop (start + content.length + 1) = rest := by
          rw [Nat.add_assoc, ← List.drop_drop, hsplit, List.drop_append]
          simp
        have hlength : (source.drop start).length = content.length + 1 + rest.length := by
          rw [hsplit, List.length_append, List.length_cons]
          omega
        rw [List.length_drop] at hlength
        simp only [hsome, Option.getD_some, hline, blockBeforeBlank, hsplit,
          firstLines_append isBlankContent hcontent rest]
        by_cases hblank : isBlankContent content
        · simp [hblank]
        · have hnext := @ih (start + content.length + 1) (by omega) (by omega)
          rw [hrest, blockBeforeBlank] at hnext
          rw [if_neg hblank, hnext, if_neg hblank, List.length_append, List.length_cons]
          congr 1
          omega
    · have hend : start = source.length := by omega
      subst hend
      simp [blockBeforeBlank]

theorem headerBlockEndFrom_zero {rounds : Nat} (h : source.length < rounds) :
    headerBlockEndFrom source rounds 0 = some (blockBeforeBlank source).length := by
  have hend := headerBlockEndFrom_eq (Nat.zero_le source.length) (Nat.lt_add_left 0 h)
  rwa [Nat.zero_add, List.drop_zero] at hend

theorem subarray_prefix {block : List UInt8} (h : block <+: source) :
    subarray source 0 block.length = block := by
  simpa [subarray] using (List.prefix_iff_eq_take.mp h).symm

end scan

/-! ### The block -/

/-- All bytes before the line feed, or before the end, are carriage returns. -/
def BlankLine (line : List UInt8) : Prop := ∀ b ∈ content LF line, b = CR

/-- `block` is what `source` has before its first blank line. -/
structure IsHeaderBlock (source block : List UInt8) : Prop where
  /-- It consists of whole lines, none of them blank, and it stops at a blank
      line or at the end. -/
  whole_lines : ∃ kept rest, lines LF source = kept ++ rest ∧ block = kept.flatten ∧
    (∀ line ∈ kept, ¬ BlankLine line) ∧ ∀ line, rest.head? = some line → BlankLine line
  prefix_source : block <+: source
  /-- Any other run of whole lines without a blank one is part of it. -/
  longest : ∀ kept rest, lines LF source = kept ++ rest →
    (∀ line ∈ kept, ¬ BlankLine line) → kept.flatten <+: block
  /-- No byte of a blank line, or behind one, is in it. -/
  before_blank : ∀ before line after, lines LF source = before ++ line :: after →
    BlankLine line → block <+: before.flatten
  no_blank : (∀ line ∈ lines LF source, ¬ BlankLine line) → block = source

theorem isBlankContent_iff {line : List UInt8} :
    isBlankContent (content LF line) = true ↔ BlankLine line := by
  simp [isBlankContent, BlankLine]

theorem isBlankContent_eq_false_iff {line : List UInt8} :
    isBlankContent (content LF line) = false ↔ ¬ BlankLine line := by
  rw [← isBlankContent_iff, Bool.not_eq_true]

theorem isHeaderBlock_blockBeforeBlank (source : List UInt8) :
    IsHeaderBlock source (blockBeforeBlank source) where
  whole_lines := by
    obtain ⟨kept, rest, hlines, hblock, hkept, hrest⟩ :=
      firstLines_split isBlankContent LF source
    exact ⟨kept, rest, hlines, hblock,
      fun line hline => isBlankContent_eq_false_iff.mp (hkept line hline),
      fun line hline => isBlankContent_iff.mp (hrest line hline)⟩
  prefix_source := firstLines_isPrefix isBlankContent source
  longest := by
    intro kept rest hlines hkept
    exact prefix_firstLines isBlankContent hlines fun line hline =>
      isBlankContent_eq_false_iff.mpr (hkept line hline)
  before_blank := by
    intro before line after hlines hblank
    exact firstLines_before_blank isBlankContent hlines (isBlankContent_iff.mpr hblank)
  no_blank := by
    intro hall
    have hwhole : source <+: blockBeforeBlank source := by
      have h := prefix_firstLines isBlankContent (List.append_nil (lines LF source)).symm
        fun line hline => isBlankContent_eq_false_iff.mpr (hall line hline)
      rwa [lines_flatten] at h
    exact (firstLines_isPrefix isBlankContent source).eq_of_length_le hwhole.length_le

theorem headerBlock_eq (source : List UInt8) : headerBlock source =
    some
      { headers := decodeHeaders ((blockBeforeBlank source).take MAX_HEADER_BLOCK_BYTES)
        truncated := decide (MAX_HEADER_BLOCK_BYTES < (blockBeforeBlank source).length) } := by
  have hend : headerBlockEnd source = some (blockBeforeBlank source).length :=
    headerBlockEndFrom_zero (Nat.lt_succ_self _)
  have hblock : subarray source 0 (blockBeforeBlank source).length = blockBeforeBlank source :=
    subarray_prefix (firstLines_isPrefix isBlankContent source)
  rw [headerBlock, hend]
  simp only [Option.bind_eq_bind, Option.bind_some, Option.pure_def, hblock, decide_eq_true_eq]
  by_cases hlong : MAX_HEADER_BLOCK_BYTES < (blockBeforeBlank source).length
  · simp [hlong, subarray]
  · simp [hlong, List.take_of_length_le (Nat.le_of_not_lt hlong)]

/-- **The header block is cut exactly** at the first blank line, and at the
    byte limit when it is longer than that; the scan always ends. -/
theorem headerBlock_exact (source : List UInt8) :
    ∃ block out, IsHeaderBlock source block ∧
      (∀ rounds, source.length < rounds →
        headerBlockEndFrom source rounds 0 = some block.length) ∧
      headerBlock source = some out ∧
      (out.truncated = true ↔ MAX_HEADER_BLOCK_BYTES < block.length) ∧
      (MAX_HEADER_BLOCK_BYTES < block.length →
        out.headers = decodeHeaders (block.take MAX_HEADER_BLOCK_BYTES)) ∧
      (block.length ≤ MAX_HEADER_BLOCK_BYTES → out.headers = decodeHeaders block) := by
  refine ⟨blockBeforeBlank source, _, isHeaderBlock_blockBeforeBlank source,
    fun _ => headerBlockEndFrom_zero, headerBlock_eq source, decide_eq_true_iff, fun _ => rfl, ?_⟩
  intro hshort
  rw [List.take_of_length_le hshort]

end Umail
