import Mathlib.Logic.Function.Basic

/-! # JSON texts

  `JSON.stringify` of an array of strings, and of values nested from `null`,
  strings and arrays, on lists of Unicode scalar values. A quoted string can
  be cancelled from the front of a text, because the escape of a character
  says where it ends and never starts with a quote. So can the text of a
  value, and the text of an array determines the array. `Data` adds Booleans
  and objects.
-/

namespace Json

/-! ### Characters -/

/-- The value of a hexadecimal digit in lower case. -/
def digitValue (c : Char) : Nat := if c.toNat < 58 then c.toNat - 48 else c.toNat - 87

/-- One character inside a quoted string. -/
def escape (c : Char) : List Char :=
  if c = '\x08' then ['\\', 'b']
  else if c = '\t' then ['\\', 't']
  else if c = '\n' then ['\\', 'n']
  else if c = '\x0c' then ['\\', 'f']
  else if c = '\r' then ['\\', 'r']
  else if c = '"' then ['\\', '"']
  else if c = '\\' then ['\\', '\\']
  else if c.toNat < 32 then
    ['\\', 'u', '0', '0', Nat.digitChar (c.toNat / 16), Nat.digitChar (c.toNat % 16)]
  else [c]

/-- Reads one escaped character from the front of a text. -/
def unescape : List Char → Option (Char × List Char)
  | '\\' :: 'b' :: rest => some ('\x08', rest)
  | '\\' :: 't' :: rest => some ('\t', rest)
  | '\\' :: 'n' :: rest => some ('\n', rest)
  | '\\' :: 'f' :: rest => some ('\x0c', rest)
  | '\\' :: 'r' :: rest => some ('\r', rest)
  | '\\' :: '"' :: rest => some ('"', rest)
  | '\\' :: '\\' :: rest => some ('\\', rest)
  | '\\' :: 'u' :: _ :: _ :: high :: low :: rest =>
    some (Char.ofNat (16 * digitValue high + digitValue low), rest)
  | c :: rest => some (c, rest)
  | [] => none

theorem digitValue_digitChar : ∀ n < 16, digitValue (Nat.digitChar n) = n := by decide

/-- A character other than the backslash stands for itself. -/
theorem unescape_plain {c : Char} (h : c ≠ '\\') (rest : List Char) :
    unescape (c :: rest) = some (c, rest) := by
  unfold unescape
  split <;> simp_all

theorem unescape_escape (c : Char) (rest : List Char) :
    unescape (escape c ++ rest) = some (c, rest) := by
  unfold escape
  split
  · next h => simp [unescape, h]
  split
  · next h => simp [unescape, h]
  split
  · next h => simp [unescape, h]
  split
  · next h => simp [unescape, h]
  split
  · next h => simp [unescape, h]
  split
  · next h => simp [unescape, h]
  split
  · next h => simp [unescape, h]
  next hbackslash =>
  split
  · -- the code point is rebuilt from its two digits
    next h =>
    have hhigh : c.toNat / 16 < 16 := by omega
    have hlow : c.toNat % 16 < 16 := Nat.mod_lt _ (by omega)
    have hval : 16 * (c.toNat / 16) + c.toNat % 16 = c.toNat := Nat.div_add_mod _ _
    simp [unescape, digitValue_digitChar _ hhigh, digitValue_digitChar _ hlow, hval]
  · exact unescape_plain hbackslash rest

/-- An escaped character can be cancelled from the front of a text. -/
theorem escape_append_inj {c d : Char} {u v : List Char} (h : escape c ++ u = escape d ++ v) :
    c = d ∧ u = v := by
  have hread : some (c, u) = some (d, v) := by
    rw [← unescape_escape c u, h, unescape_escape]
  exact Prod.mk.inj (Option.some.inj hread)

/-- The escape of a character does not start with a quote. -/
theorem quote_ne_escape (c : Char) (u v : List Char) : '"' :: u ≠ escape c ++ v := by
  intro h
  have hread : some ('"', u) = some (c, v) := by
    rw [← unescape_plain (by decide) u, h, unescape_escape]
  obtain ⟨rfl, -⟩ := Prod.mk.inj (Option.some.inj hread)
  exact absurd h (by simp [escape])

/-! ### Strings and arrays -/

/-- The characters of a string and its closing quote. -/
def quoteTail : List Char → List Char
  | [] => ['"']
  | c :: cs => escape c ++ quoteTail cs

/-- `QuoteJSONString` -/
def quote (s : List Char) : List Char := '"' :: quoteTail s

/-- The elements after the first one and the closing bracket. -/
def arrayTail : List (List Char) → List Char
  | [] => [']']
  | x :: xs => ',' :: (quote x ++ arrayTail xs)

/-- `JSON.stringify` of an array of strings. -/
def stringify : List (List Char) → List Char
  | [] => ['[', ']']
  | x :: xs => '[' :: (quote x ++ arrayTail xs)

theorem quoteTail_append_inj {s t u v : List Char} (h : quoteTail s ++ u = quoteTail t ++ v) :
    s = t ∧ u = v := by
  induction s generalizing t with
  | nil =>
    cases t with
    | nil => exact ⟨rfl, (List.cons.inj h).2⟩
    | cons d t =>
      simp only [quoteTail, List.append_assoc] at h
      exact absurd h (quote_ne_escape d u _)
  | cons c s ih =>
    cases t with
    | nil =>
      simp only [quoteTail, List.append_assoc] at h
      exact absurd h.symm (quote_ne_escape c v _)
    | cons d t =>
      simp only [quoteTail, List.append_assoc] at h
      obtain ⟨rfl, hrest⟩ := escape_append_inj h
      obtain ⟨rfl, huv⟩ := ih hrest
      exact ⟨rfl, huv⟩

/-- A quoted string can be cancelled from the front of a text. -/
theorem quote_append_inj {s t u v : List Char} (h : quote s ++ u = quote t ++ v) :
    s = t ∧ u = v := quoteTail_append_inj (List.cons.inj h).2

theorem arrayTail_injective : Function.Injective arrayTail := by
  intro xs ys h
  induction xs generalizing ys with
  | nil =>
    cases ys with
    | nil => rfl
    | cons y ys => exact absurd (List.cons.inj h).1 (by decide)
  | cons x xs ih =>
    cases ys with
    | nil => exact absurd (List.cons.inj h).1 (by decide)
    | cons y ys =>
      obtain ⟨rfl, hrest⟩ := quote_append_inj (List.cons.inj h).2
      rw [ih hrest]

/-- **Injectivity.** The text of an array of strings determines the array. -/
theorem stringify_injective : Function.Injective stringify := by
  intro xs ys h
  cases xs with
  | nil =>
    cases ys with
    | nil => rfl
    | cons y ys => exact absurd (List.cons.inj (List.cons.inj h).2).1 (by decide)
  | cons x xs =>
    cases ys with
    | nil => exact absurd (List.cons.inj (List.cons.inj h).2).1 (by decide)
    | cons y ys =>
      obtain ⟨rfl, hrest⟩ := quote_append_inj (List.cons.inj h).2
      rw [arrayTail_injective hrest]

/-! ### Nested values -/

inductive Value where
  | null
  | string (s : List Char)
  | array (vs : List Value)

mutual

/-- `JSON.stringify` of a value. -/
def Value.text : Value → List Char
  | .null => ['n', 'u', 'l', 'l']
  | .string s => quote s
  | .array [] => ['[', ']']
  | .array (v :: vs) => '[' :: (v.text ++ valuesTail vs)

/-- The elements after the first one and the closing bracket. -/
def valuesTail : List Value → List Char
  | [] => [']']
  | v :: vs => ',' :: (v.text ++ valuesTail vs)

end

/-- No value starts like the end of an array. -/
theorem Value.text_ne_close (v : Value) (u w : List Char) : v.text ++ u ≠ ']' :: w := by
  intro h
  match v with
  | .null => exact absurd (List.cons.inj h).1 (by decide)
  | .string s => exact absurd (List.cons.inj h).1 (by decide)
  | .array [] => exact absurd (List.cons.inj h).1 (by decide)
  | .array (_ :: _) => exact absurd (List.cons.inj h).1 (by decide)

mutual

/-- The text of a value can be cancelled from the front of a text. -/
theorem Value.text_append_inj : ∀ {v w : Value} {t u : List Char},
    v.text ++ t = w.text ++ u → v = w ∧ t = u
  | .null, .null, t, u, h => ⟨rfl, List.append_cancel_left h⟩
  | .string s, .string s', t, u, h => by
    obtain ⟨rfl, htu⟩ := quote_append_inj h
    exact ⟨rfl, htu⟩
  | .array [], .array [], t, u, h => ⟨rfl, List.append_cancel_left h⟩
  | .array (v :: vs), .array (w :: ws), t, u, h => by
    simp only [Value.text, List.cons_append, List.append_assoc] at h
    obtain ⟨rfl, hrest⟩ := Value.text_append_inj (List.cons.inj h).2
    obtain ⟨rfl, htu⟩ := valuesTail_append_inj hrest
    exact ⟨rfl, htu⟩
  | .array [], .array (w :: ws), t, u, h => by
    simp only [Value.text, List.cons_append, List.append_assoc, List.nil_append] at h
    exact absurd (List.cons.inj h).2.symm (w.text_ne_close _ _)
  | .array (v :: vs), .array [], t, u, h => by
    simp only [Value.text, List.cons_append, List.append_assoc, List.nil_append] at h
    exact absurd (List.cons.inj h).2 (v.text_ne_close _ _)
  -- values of two kinds differ in their first character
  | .null, .string _, t, u, h => absurd (List.cons.inj h).1 (by decide)
  | .null, .array [], t, u, h => absurd (List.cons.inj h).1 (by decide)
  | .null, .array (_ :: _), t, u, h => absurd (List.cons.inj h).1 (by decide)
  | .string _, .null, t, u, h => absurd (List.cons.inj h).1 (by decide)
  | .string _, .array [], t, u, h => absurd (List.cons.inj h).1 (by decide)
  | .string _, .array (_ :: _), t, u, h => absurd (List.cons.inj h).1 (by decide)
  | .array [], .null, t, u, h => absurd (List.cons.inj h).1 (by decide)
  | .array (_ :: _), .null, t, u, h => absurd (List.cons.inj h).1 (by decide)
  | .array [], .string _, t, u, h => absurd (List.cons.inj h).1 (by decide)
  | .array (_ :: _), .string _, t, u, h => absurd (List.cons.inj h).1 (by decide)

theorem valuesTail_append_inj : ∀ {vs ws : List Value} {t u : List Char},
    valuesTail vs ++ t = valuesTail ws ++ u → vs = ws ∧ t = u
  | [], [], t, u, h => ⟨rfl, List.append_cancel_left h⟩
  | v :: vs, w :: ws, t, u, h => by
    simp only [valuesTail, List.cons_append, List.append_assoc] at h
    obtain ⟨rfl, hrest⟩ := Value.text_append_inj (List.cons.inj h).2
    obtain ⟨rfl, htu⟩ := valuesTail_append_inj hrest
    exact ⟨rfl, htu⟩
  | [], _ :: _, t, u, h => absurd (List.cons.inj h).1 (by decide)
  | _ :: _, [], t, u, h => absurd (List.cons.inj h).1 (by decide)

end

/-- **Injectivity.** The text of a value determines the value. -/
theorem Value.text_injective : Function.Injective Value.text := by
  intro v w h
  have happend : v.text ++ [] = w.text ++ [] := by rw [h]
  exact (Value.text_append_inj happend).1

/-! ### Records -/

/-- Values nested from `null`, Booleans, strings, arrays, and objects with
    their members in insertion order. -/
inductive Data where
  | null
  | bool (b : Bool)
  | string (s : String)
  | array (items : List Data)
  | object (members : List (String × Data))

mutual

/-- `JSON.stringify` of a value. -/
def Data.text : Data → List Char
  | .null => ['n', 'u', 'l', 'l']
  | .bool true => ['t', 'r', 'u', 'e']
  | .bool false => ['f', 'a', 'l', 's', 'e']
  | .string s => quote s.toList
  | .array [] => ['[', ']']
  | .array (item :: rest) => '[' :: (item.text ++ itemsTail rest)
  | .object [] => ['{', '}']
  | .object ((name, value) :: rest) =>
    '{' :: (quote name.toList ++ ':' :: (value.text ++ membersTail rest))

/-- The items after the first one and the closing bracket. -/
def itemsTail : List Data → List Char
  | [] => [']']
  | item :: rest => ',' :: (item.text ++ itemsTail rest)

/-- The members after the first one and the closing brace. -/
def membersTail : List (String × Data) → List Char
  | [] => ['}']
  | (name, value) :: rest =>
    ',' :: (quote name.toList ++ ':' :: (value.text ++ membersTail rest))

end

/-- The character that the text of a value starts with. -/
def Data.opening : Data → Char
  | .null => 'n'
  | .bool true => 't'
  | .bool false => 'f'
  | .string _ => '"'
  | .array _ => '['
  | .object _ => '{'

theorem Data.text_eq_cons (v : Data) : ∃ rest, v.text = v.opening :: rest := by
  match v with
  | .null | .bool true | .bool false | .string _ | .array [] | .array (_ :: _) | .object []
  | .object ((_, _) :: _) => exact ⟨_, rfl⟩

theorem Data.opening_eq {v w : Data} {t u : List Char} (h : v.text ++ t = w.text ++ u) :
    v.opening = w.opening := by
  obtain ⟨_, hv⟩ := v.text_eq_cons
  obtain ⟨_, hw⟩ := w.text_eq_cons
  rw [hv, hw] at h
  exact (List.cons.inj h).1

/-- No value starts like the end of an array. -/
theorem Data.text_ne_close (v : Data) (u w : List Char) : v.text ++ u ≠ ']' :: w := by
  intro h
  obtain ⟨_, hv⟩ := v.text_eq_cons
  rw [hv] at h
  have hopening : v.opening = ']' := (List.cons.inj h).1
  rcases v with _ | (_ | _) | _ | _ | _ <;> simp [Data.opening] at hopening

/-- Two values whose texts start alike are of one kind. -/
inductive Data.SameKind : Data → Data → Prop where
  | same (v : Data) : SameKind v v
  | string (s s' : String) : SameKind (.string s) (.string s')
  | array (items items' : List Data) : SameKind (.array items) (.array items')
  | object (members members' : List (String × Data)) :
      SameKind (.object members) (.object members')

theorem Data.sameKind {v w : Data} (h : v.opening = w.opening) : SameKind v w := by
  rcases v with _ | (_ | _) | s | items | members <;>
    rcases w with _ | (_ | _) | s' | items' | members' <;>
    first
      | exact .same _
      | exact .string _ _
      | exact .array _ _
      | exact .object _ _
      | simp [Data.opening] at h

mutual

/-- The text of a value can be cancelled from the front of a text. -/
theorem Data.text_append_inj : ∀ (v w : Data) (t u : List Char),
    v.text ++ t = w.text ++ u → v = w ∧ t = u
  | .null, w, t, u, h => by
    cases Data.sameKind (Data.opening_eq h)
    exact ⟨rfl, List.append_cancel_left h⟩
  | .bool b, w, t, u, h => by
    cases Data.sameKind (Data.opening_eq h)
    exact ⟨rfl, List.append_cancel_left h⟩
  | .string s, w, t, u, h => by
    cases Data.sameKind (Data.opening_eq h) with
    | same => exact ⟨rfl, List.append_cancel_left h⟩
    | string _ s' =>
      obtain ⟨hs, htu⟩ := quote_append_inj h
      rw [String.toList_inj.mp hs]
      exact ⟨rfl, htu⟩
  | .array [], w, t, u, h => by
    cases Data.sameKind (Data.opening_eq h) with
    | same => exact ⟨rfl, List.append_cancel_left h⟩
    | array _ items =>
      cases items with
      | nil => exact ⟨rfl, List.append_cancel_left h⟩
      | cons item rest =>
        simp only [Data.text, List.cons_append, List.append_assoc, List.nil_append] at h
        exact absurd (List.cons.inj h).2.symm (item.text_ne_close _ _)
  | .array (item :: rest), w, t, u, h => by
    cases Data.sameKind (Data.opening_eq h) with
    | same => exact ⟨rfl, List.append_cancel_left h⟩
    | array _ items =>
      cases items with
      | nil =>
        simp only [Data.text, List.cons_append, List.append_assoc, List.nil_append] at h
        exact absurd (List.cons.inj h).2 (item.text_ne_close _ _)
      | cons item' rest' =>
        simp only [Data.text, List.cons_append, List.append_assoc] at h
        obtain ⟨rfl, hrest⟩ := Data.text_append_inj _ _ _ _ (List.cons.inj h).2
        obtain ⟨rfl, htu⟩ := itemsTail_append_inj _ _ _ _ hrest
        exact ⟨rfl, htu⟩
  | .object [], w, t, u, h => by
    cases Data.sameKind (Data.opening_eq h) with
    | same => exact ⟨rfl, List.append_cancel_left h⟩
    | object _ members =>
      cases members with
      | nil => exact ⟨rfl, List.append_cancel_left h⟩
      | cons member rest => exact absurd (List.cons.inj (List.cons.inj h).2).1 (by decide)
  | .object ((name, value) :: rest), w, t, u, h => by
    cases Data.sameKind (Data.opening_eq h) with
    | same => exact ⟨rfl, List.append_cancel_left h⟩
    | object _ members =>
      cases members with
      | nil => exact absurd (List.cons.inj (List.cons.inj h).2).1 (by decide)
      | cons member rest' =>
        obtain ⟨name', value'⟩ := member
        simp only [Data.text, List.cons_append, List.append_assoc] at h
        obtain ⟨hname, hvalue⟩ := quote_append_inj (List.cons.inj h).2
        obtain ⟨rfl, hrest⟩ := Data.text_append_inj _ _ _ _ (List.cons.inj hvalue).2
        obtain ⟨rfl, htu⟩ := membersTail_append_inj _ _ _ _ hrest
        rw [String.toList_inj.mp hname]
        exact ⟨rfl, htu⟩

theorem itemsTail_append_inj : ∀ (items items' : List Data) (t u : List Char),
    itemsTail items ++ t = itemsTail items' ++ u → items = items' ∧ t = u
  | [], [], t, u, h => ⟨rfl, List.append_cancel_left h⟩
  | item :: rest, item' :: rest', t, u, h => by
    simp only [itemsTail, List.cons_append, List.append_assoc] at h
    obtain ⟨rfl, hrest⟩ := Data.text_append_inj _ _ _ _ (List.cons.inj h).2
    obtain ⟨rfl, htu⟩ := itemsTail_append_inj _ _ _ _ hrest
    exact ⟨rfl, htu⟩
  | [], _ :: _, t, u, h => absurd (List.cons.inj h).1 (by decide)
  | _ :: _, [], t, u, h => absurd (List.cons.inj h).1 (by decide)

theorem membersTail_append_inj : ∀ (members members' : List (String × Data)) (t u : List Char),
    membersTail members ++ t = membersTail members' ++ u → members = members' ∧ t = u
  | [], [], t, u, h => ⟨rfl, List.append_cancel_left h⟩
  | (name, value) :: rest, (name', value') :: rest', t, u, h => by
    simp only [membersTail, List.cons_append, List.append_assoc] at h
    obtain ⟨hname, hvalue⟩ := quote_append_inj (List.cons.inj h).2
    obtain ⟨rfl, hrest⟩ := Data.text_append_inj _ _ _ _ (List.cons.inj hvalue).2
    obtain ⟨rfl, htu⟩ := membersTail_append_inj _ _ _ _ hrest
    rw [String.toList_inj.mp hname]
    exact ⟨rfl, htu⟩
  | [], (_, _) :: _, t, u, h => absurd (List.cons.inj h).1 (by decide)
  | (_, _) :: _, [], t, u, h => absurd (List.cons.inj h).1 (by decide)

end

/-- **Injectivity.** The text of a value determines the value. -/
theorem Data.text_injective : Function.Injective Data.text := by
  intro v w h
  have happend : v.text ++ [] = w.text ++ [] := by rw [h]
  exact (Data.text_append_inj v w [] [] happend).1

end Json
