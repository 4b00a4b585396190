import Umail.Framework.Json

/-! # Reading JSON texts

  `JSON.parse` of the texts whose values have a `Data`: those without numbers,
  and without escapes of lone surrogates. Nesting is bounded by fuel; the
  length of a text is enough of it. What `JSON.stringify` writes is read back.
-/

namespace Json

/-! ### Characters and strings -/

/-- White space between two tokens. -/
def isSpace (c : Char) : Bool := c = ' ' || c = '\t' || c = '\n' || c = '\r'

def skip (text : List Char) : List Char := text.dropWhile isSpace

/-- The value of a hexadecimal digit in either case. -/
def hexValue (c : Char) : Option Nat :=
  if '0' ≤ c && c ≤ '9' then some (c.toNat - 48)
  else if 'a' ≤ c && c ≤ 'f' then some (c.toNat - 87)
  else if 'A' ≤ c && c ≤ 'F' then some (c.toNat - 55)
  else none

/-- Four hexadecimal digits. -/
def readUnit : List Char → Option (Nat × List Char)
  | a :: b :: c :: d :: rest => do
    let a ← hexValue a
    let b ← hexValue b
    let c ← hexValue c
    let d ← hexValue d
    return (((a * 16 + b) * 16 + c) * 16 + d, rest)
  | _ => none

/-- The rest of an escape by its code unit. A high surrogate needs its partner. -/
def readEscape (text : List Char) : Option (Char × List Char) := do
  let (unit, rest) ← readUnit text
  if 0xdc00 ≤ unit && unit < 0xe000 then none
  else if 0xd800 ≤ unit && unit < 0xdc00 then
    match rest with
    | '\\' :: 'u' :: rest => do
      let (low, rest) ← readUnit rest
      if 0xdc00 ≤ low && low < 0xe000 then
        return (Char.ofNat (0x10000 + (unit - 0xd800) * 0x400 + (low - 0xdc00)), rest)
      else none
    | _ => none
  else return (Char.ofNat unit, rest)

/-- One character inside a quoted string. -/
def readChar : List Char → Option (Char × List Char)
  | '\\' :: 'b' :: rest => some ('\x08', rest)
  | '\\' :: 't' :: rest => some ('\t', rest)
  | '\\' :: 'n' :: rest => some ('\n', rest)
  | '\\' :: 'f' :: rest => some ('\x0c', rest)
  | '\\' :: 'r' :: rest => some ('\r', rest)
  | '\\' :: '"' :: rest => some ('"', rest)
  | '\\' :: '\\' :: rest => some ('\\', rest)
  | '\\' :: '/' :: rest => some ('/', rest)
  | '\\' :: 'u' :: rest => readEscape rest
  | '\\' :: _ => none
  | c :: rest => if c.toNat < 32 then none else some (c, rest)
  | [] => none

/-- The characters of a string up to its closing quote. -/
def readString : Nat → List Char → Option (List Char × List Char)
  | 0, _ => none
  | _ + 1, '"' :: rest => some ([], rest)
  | fuel + 1, text => (readChar text).bind fun (c, rest) =>
    (readString fuel rest).map fun (cs, rest) => (c :: cs, rest)

/-! ### Values -/

mutual

def readValue : Nat → List Char → Option (Data × List Char)
  | 0, _ => none
  | fuel + 1, text =>
    match skip text with
    | 'n' :: 'u' :: 'l' :: 'l' :: rest => some (.null, rest)
    | 't' :: 'r' :: 'u' :: 'e' :: rest => some (.bool true, rest)
    | 'f' :: 'a' :: 'l' :: 's' :: 'e' :: rest => some (.bool false, rest)
    | '"' :: rest => (readString fuel rest).map fun (s, rest) => (.string (String.ofList s), rest)
    | '[' :: rest =>
      match skip rest with
      | ']' :: rest => some (.array [], rest)
      | rest => (readItems fuel rest).map fun (items, rest) => (.array items, rest)
    | '{' :: rest =>
      match skip rest with
      | '}' :: rest => some (.object [], rest)
      | rest => (readMembers fuel rest).map fun (members, rest) => (.object members, rest)
    | _ => none

/-- The items up to the closing bracket, one at least. -/
def readItems : Nat → List Char → Option (List Data × List Char)
  | 0, _ => none
  | fuel + 1, text => (readValue fuel text).bind fun (item, rest) =>
    match skip rest with
    | ']' :: rest => some ([item], rest)
    | ',' :: rest => (readItems fuel rest).map fun (items, rest) => (item :: items, rest)
    | _ => none

/-- The members up to the closing brace, one at least. -/
def readMembers : Nat → List Char → Option (List (String × Data) × List Char)
  | 0, _ => none
  | fuel + 1, text =>
    match skip text with
    | '"' :: rest => (readString fuel rest).bind fun (name, rest) =>
      match skip rest with
      | ':' :: rest => (readValue fuel rest).bind fun (value, rest) =>
        match skip rest with
        | '}' :: rest => some ([(String.ofList name, value)], rest)
        | ',' :: rest => (readMembers fuel rest).map fun (members, rest) =>
          ((String.ofList name, value) :: members, rest)
        | _ => none
      | _ => none
    | _ => none

end

/-- `JSON.parse` -/
def parse (text : List Char) : Option Data :=
  match readValue (2 * text.length) text with
  | some (value, rest) => if skip rest = [] then some value else none
  | none => none

/-- The member of a name; the last one of that name counts. -/
def Data.member (name : String) : Data → Option Data
  | .object members => members.reverse.lookup name
  | _ => none

/-! ### What is written is read back -/

theorem skip_cons {c : Char} (h : isSpace c = false) (rest : List Char) :
    skip (c :: rest) = c :: rest := List.dropWhile_cons_of_neg (by simp [h])

theorem hexValue_digitChar : ∀ n < 16, hexValue (Nat.digitChar n) = some n := by decide

/-- A character other than the backslash stands for itself. -/
theorem readChar_plain {c : Char} (h : c ≠ '\\') (hc : ¬ c.toNat < 32) (rest : List Char) :
    readChar (c :: rest) = some (c, rest) := by
  unfold readChar
  split <;> simp_all

/-- The escape of a control character. -/
theorem readEscape_control {c : Char} (h : c.toNat < 32) (rest : List Char) :
    readEscape ('0' :: '0' :: Nat.digitChar (c.toNat / 16) :: Nat.digitChar (c.toNat % 16) ::
      rest) =
      some (c, rest) := by
  have hhigh : c.toNat / 16 < 16 := by omega
  have hlow : c.toNat % 16 < 16 := Nat.mod_lt _ (by omega)
  have hzero : hexValue '0' = some 0 := by decide
  have hunit : readUnit ('0' :: '0' :: Nat.digitChar (c.toNat / 16) ::
      Nat.digitChar (c.toNat % 16) :: rest) = some (c.toNat, rest) := by
    simp only [readUnit, hzero, hexValue_digitChar _ hhigh, hexValue_digitChar _ hlow]
    have hval : ((0 * 16 + 0) * 16 + c.toNat / 16) * 16 + c.toNat % 16 = c.toNat := by omega
    exact congrArg (fun n => some (n, rest)) hval
  -- no control character is a surrogate
  have hnotLow : ¬ (0xdc00 ≤ c.toNat && c.toNat < 0xe000) = true := by simp; omega
  have hnotHigh : ¬ (0xd800 ≤ c.toNat && c.toNat < 0xdc00) = true := by simp; omega
  unfold readEscape
  rw [hunit]
  show (if (0xdc00 ≤ c.toNat && c.toNat < 0xe000) = true then none
    else if (0xd800 ≤ c.toNat && c.toNat < 0xdc00) = true then _
    else some (Char.ofNat c.toNat, rest)) = _
  rw [if_neg hnotLow, if_neg hnotHigh, Char.ofNat_toNat]

theorem readChar_escape (c : Char) (rest : List Char) :
    readChar (escape c ++ rest) = some (c, rest) := by
  unfold escape
  split
  · next h => simp [readChar, h]
  split
  · next h => simp [readChar, h]
  split
  · next h => simp [readChar, h]
  split
  · next h => simp [readChar, h]
  split
  · next h => simp [readChar, h]
  split
  · next h => simp [readChar, h]
  split
  · next h => simp [readChar, h]
  next hbackslash =>
  split
  · next h => exact readEscape_control h rest
  · next h => exact readChar_plain hbackslash h rest

theorem length_escape_pos (c : Char) : 0 < (escape c).length := by
  unfold escape
  repeat' split
  all_goals simp

/-- A text that does not start with a quote starts with a character. -/
theorem readString_step {text : List Char} (h : ∀ rest, text ≠ '"' :: rest) (fuel : Nat) :
    readString (fuel + 1) text = (readChar text).bind fun (c, rest) =>
      (readString fuel rest).map fun (cs, rest) => (c :: cs, rest) := by
  rw [readString]
  exact h

theorem readString_quoteTail {s : List Char} {fuel : Nat} (h : (quoteTail s).length ≤ fuel)
    (rest : List Char) : readString fuel (quoteTail s ++ rest) = some (s, rest) := by
  induction s generalizing fuel with
  | nil =>
    obtain ⟨fuel, rfl⟩ := Nat.exists_eq_succ_of_ne_zero (Nat.ne_of_gt h)
    rfl
  | cons c s ih =>
    simp only [quoteTail, List.length_append] at h
    have hpos := length_escape_pos c
    obtain ⟨fuel, rfl⟩ := Nat.exists_eq_succ_of_ne_zero (show fuel ≠ 0 by omega)
    have hrest : readString fuel (quoteTail s ++ rest) = some (s, rest) := ih (by omega)
    rw [quoteTail, List.append_assoc, readString_step, readChar_escape]
    · simp [hrest]
    · -- an escaped character does not start with a quote
      exact fun text heq => quote_ne_escape c text _ heq.symm

/-! ### Values are read back -/

theorem isSpace_opening (v : Data) : isSpace v.opening = false := by
  rcases v with _ | (_ | _) | _ | _ | _ <;> rfl

theorem skip_text (v : Data) (rest : List Char) : skip (v.text ++ rest) = v.text ++ rest := by
  obtain ⟨tail, htail⟩ := v.text_eq_cons
  rw [htail]
  exact skip_cons (isSpace_opening v) _

mutual

theorem readValue_text : ∀ (v : Data) (fuel : Nat) (rest : List Char),
    2 * v.text.length ≤ fuel → readValue fuel (v.text ++ rest) = some (v, rest)
  | .null, fuel + 1, rest, h => rfl
  | .bool true, fuel + 1, rest, h => rfl
  | .bool false, fuel + 1, rest, h => rfl
  | .string s, fuel + 1, rest, h => by
    simp only [Data.text, quote, List.length_cons] at h
    have hread : readString fuel (quoteTail s.toList ++ rest) = some (s.toList, rest) :=
      readString_quoteTail (by omega) rest
    rw [readValue, skip_text]
    simp [Data.text, quote, hread]
  | .array [], fuel + 1, rest, h => rfl
  | .array (item :: items), fuel + 1, rest, h => by
    simp only [Data.text, List.length_cons] at h
    have hread := readItems_text item items fuel rest (by omega)
    rw [readValue, skip_text]
    simp only [Data.text, List.cons_append]
    rw [List.append_assoc, skip_text, ← List.append_assoc]
    split
    · next heq =>
      rw [List.append_assoc] at heq
      exact absurd heq (item.text_ne_close _ _)
    · rw [hread]
      rfl
  | .object [], fuel + 1, rest, h => rfl
  | .object ((name, value) :: members), fuel + 1, rest, h => by
    simp only [Data.text, List.length_cons] at h
    have hread := readMembers_text name value members fuel rest (by omega)
    rw [readValue, skip_text]
    simp only [Data.text, List.cons_append, quote] at hread ⊢
    have hskip := skip_cons (c := '"') rfl
    simp only [hskip]
    split
    · next heq => exact absurd (List.cons.inj heq).1 (by decide)
    · rw [hread]
      rfl
  | .null, 0, _, h | .bool true, 0, _, h | .bool false, 0, _, h | .string _, 0, _, h
  | .array [], 0, _, h | .array (_ :: _), 0, _, h | .object [], 0, _, h
  | .object (_ :: _), 0, _, h => by simp [Data.text, quote] at h

theorem readItems_text : ∀ (item : Data) (items : List Data) (fuel : Nat) (rest : List Char),
    2 * (item.text ++ itemsTail items).length ≤ fuel →
      readItems fuel (item.text ++ itemsTail items ++ rest) = some (item :: items, rest)
  | item, items, 0, rest, h => by
    obtain ⟨tail, htail⟩ := item.text_eq_cons
    simp [htail] at h
  | item, [], fuel + 1, rest, h => by
    simp only [List.length_append, itemsTail, List.length_cons, List.length_nil] at h
    have hitem := readValue_text item fuel (']' :: rest) (by omega)
    have hskip := skip_cons (c := ']') rfl rest
    rw [readItems, itemsTail, List.append_assoc, List.singleton_append, hitem, Option.bind_some]
    simp only [hskip]
  | item, next :: items, fuel + 1, rest, h => by
    simp only [List.length_append, itemsTail, List.length_cons] at h
    have hitem :=
      readValue_text item fuel (',' :: (next.text ++ itemsTail items ++ rest)) (by omega)
    have hitems := readItems_text next items fuel rest (by rw [List.length_append]; omega)
    have hskip := skip_cons (c := ',') rfl (next.text ++ itemsTail items ++ rest)
    rw [readItems, itemsTail, List.append_assoc, List.cons_append, hitem, Option.bind_some]
    simp only [hskip, hitems, Option.map_some]

theorem readMembers_text : ∀ (name : String) (value : Data) (members : List (String × Data))
    (fuel : Nat) (rest : List Char),
    2 * (quote name.toList ++ ':' :: (value.text ++ membersTail members)).length ≤ fuel →
      readMembers fuel (quote name.toList ++ ':' :: (value.text ++ membersTail members) ++ rest) =
        some ((name, value) :: members, rest)
  | name, value, members, 0, rest, h => by simp [quote] at h
  | name, value, members, fuel + 1, rest, h => by
    simp only [quote, List.length_append, List.length_cons] at h
    have hname : readString fuel (quoteTail name.toList ++
        ':' :: (value.text ++ (membersTail members ++ rest))) =
          some (name.toList, ':' :: (value.text ++ (membersTail members ++ rest))) :=
      readString_quoteTail (by omega) _
    have hvalue := readValue_text value fuel (membersTail members ++ rest) (by omega)
    have hquote := skip_cons (c := '"') rfl
    have hcolon := skip_cons (c := ':') rfl
    rw [readMembers]
    simp only [quote, List.cons_append, List.append_assoc, hquote, hname, Option.bind_some, hcolon,
      hvalue, String.ofList_toList]
    match members with
    | [] =>
      have hclose := skip_cons (c := '}') rfl rest
      simp only [membersTail, List.cons_append, List.nil_append, hclose]
    | (next, nextValue) :: members =>
      simp only [membersTail, List.length_cons] at h
      have hmembers := readMembers_text next nextValue members fuel rest (by omega)
      have hcomma := skip_cons (c := ',') rfl
      simp only [membersTail, List.cons_append, hcomma, hmembers, Option.map_some]

end

/-- **Round trip.** -/
theorem parse_text (v : Data) : parse v.text = some v := by
  have hread := readValue_text v (2 * v.text.length) [] (Nat.le_refl _)
  rw [List.append_nil] at hread
  unfold parse
  rw [hread]
  rfl

end Json
