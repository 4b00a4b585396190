import Mathlib.Data.List.Basic
import Mathlib.Data.List.Dedup

/-! # Text

  The JavaScript string operations the contract package uses, on lists of
  Unicode scalar values. Positions of separators are compared only with the
  two ends of the text, so it does not matter that JavaScript counts UTF-16
  code units.

  The Unicode case tables of the runtime are a parameter.
-/

namespace Umail

/-- The Unicode case mapping of the JavaScript runtime. -/
class Unicode where
  toLowerCase : String → String

export Unicode (toLowerCase)

/-! ### Characters -/

/-- White space and line terminators, as `String.prototype.trim` and `\s` see them. -/
def isWhiteSpace (c : Char) : Bool :=
  c ∈ ['\t', '\n', '\x0b', '\x0c', '\r', ' ', '\u00a0', '\u1680', '\u2028', '\u2029',
       '\u202f', '\u205f', '\u3000', '\ufeff'] ||
    (0x2000 ≤ c.toNat && c.toNat ≤ 0x200a)

/-- `[ \t]` -/
def isBlank (c : Char) : Bool := c = ' ' || c = '\t'

/-- `hasControlChar` of one character. -/
def isControl (c : Char) : Bool := c.toNat ≤ 0x1f || c.toNat = 0x7f

/-! ### Operations -/

/-- `raw.trim()` -/
def trim (raw : List Char) : List Char :=
  ((raw.dropWhile isWhiteSpace).reverse.dropWhile isWhiteSpace).reverse

/-- Splits at the last occurrence of `c`, dropping it; `none` without one. -/
def splitAtLast (c : Char) : List Char → Option (List Char × List Char)
  | [] => none
  | x :: xs =>
    match splitAtLast c xs with
    | some (before, after) => some (x :: before, after)
    | none => if x = c then some ([], xs) else none

section dedupe
variable {α κ : Type} [DecidableEq κ]

/-- Keeps the first item of each key; `seen` are the keys met before. -/
def keepFirst (key : α → κ) (seen : List κ) : List α → List α
  | [] => []
  | x :: xs =>
    if key x ∈ seen then keepFirst key seen xs
    else x :: keepFirst key (key x :: seen) xs

theorem mem_keepFirst {key : α → κ} {seen : List κ} {x : α} {xs : List α}
    (h : x ∈ keepFirst key seen xs) : x ∈ xs ∧ key x ∉ seen := by
  induction xs generalizing seen with
  | nil => exact absurd h List.not_mem_nil
  | cons y ys ih =>
    unfold keepFirst at h
    split at h
    · obtain ⟨hmem, hkey⟩ := ih h
      exact ⟨List.mem_cons_of_mem _ hmem, hkey⟩
    · rcases List.mem_cons.mp h with rfl | h
      · exact ⟨List.mem_cons_self, ‹_›⟩
      · obtain ⟨hmem, hkey⟩ := ih h
        exact ⟨List.mem_cons_of_mem _ hmem, fun hs => hkey (List.mem_cons_of_mem _ hs)⟩

/-- The kept items have pairwise different keys. -/
theorem keepFirst_nodup (key : α → κ) (seen : List κ) (xs : List α) :
    ((keepFirst key seen xs).map key).Nodup := by
  induction xs generalizing seen with
  | nil => exact List.nodup_nil
  | cons x xs ih =>
    unfold keepFirst
    split
    · exact ih seen
    · refine List.nodup_cons.mpr ⟨?_, ih _⟩
      intro hmem
      obtain ⟨y, hy, hkey⟩ := List.mem_map.mp hmem
      exact (mem_keepFirst hy).2 (hkey ▸ List.mem_cons_self)

/-- The items are kept in their order. -/
theorem keepFirst_sublist (key : α → κ) (seen : List κ) (xs : List α) :
    (keepFirst key seen xs).Sublist xs := by
  induction xs generalizing seen with
  | nil => exact .refl _
  | cons x xs ih =>
    unfold keepFirst
    split
    · exact (ih seen).cons x
    · exact (ih _).cons_cons x

/-- The keys of the items before the border are the ones met there. -/
theorem keepFirst_append (key : α → κ) (seen : List κ) (xs ys : List α) :
    keepFirst key seen (xs ++ ys) = keepFirst key seen xs ++
      keepFirst key (((keepFirst key seen xs).map key).reverse ++ seen) ys := by
  induction xs generalizing seen with
  | nil => rfl
  | cons x xs ih =>
    rw [List.cons_append]
    by_cases hx : key x ∈ seen
    · simp only [keepFirst, if_pos hx]
      exact ih seen
    · simp only [keepFirst, if_neg hx, ih, List.cons_append, List.map_cons, List.reverse_cons,
        List.append_assoc]
      rfl

theorem keepFirst_eq_nil {key : α → κ} {seen : List κ} {xs : List α} :
    keepFirst key seen xs = [] ↔ ∀ x ∈ xs, key x ∈ seen := by
  induction xs with
  | nil => simp [keepFirst]
  | cons x xs ih =>
    unfold keepFirst
    split
    · next hx =>
      rw [ih]
      simp [hx]
    · next hx => simp [hx]

/-- Every key is represented. -/
theorem exists_keepFirst {key : α → κ} {seen : List κ} {x : α} {xs : List α} (hx : x ∈ xs)
    (hseen : key x ∉ seen) : ∃ y ∈ keepFirst key seen xs, key y = key x := by
  induction xs generalizing seen with
  | nil => exact absurd hx List.not_mem_nil
  | cons z xs ih =>
    unfold keepFirst
    split
    · next hz =>
      rcases List.mem_cons.mp hx with rfl | hx
      · exact absurd hz hseen
      · exact ih hx hseen
    · -- the first element decides: it has the key, or it does not matter
      by_cases hkey : key z = key x
      · exact ⟨z, List.mem_cons_self, hkey⟩
      · rcases List.mem_cons.mp hx with rfl | hx
        · exact absurd rfl hkey
        · have hnew : key x ∉ key z :: seen := by
            rw [List.mem_cons]
            exact not_or.mpr ⟨fun heq => hkey heq.symm, hseen⟩
          obtain ⟨y, hy, heq⟩ := ih hx hnew
          exact ⟨y, List.mem_cons_of_mem _ hy, heq⟩

end dedupe

section distinct
variable {α : Type} [DecidableEq α]

theorem mem_keepFirst_id {x : α} {xs : List α} : x ∈ keepFirst id [] xs ↔ x ∈ xs := by
  constructor
  · exact fun h => (mem_keepFirst h).1
  · intro h
    have hseen : id x ∉ ([] : List α) := List.not_mem_nil
    obtain ⟨y, hy, rfl⟩ := exists_keepFirst h hseen
    exact hy

theorem keepFirst_id_nodup (xs : List α) : (keepFirst id [] xs).Nodup := by
  have h := keepFirst_nodup id [] xs
  rwa [List.map_id] at h

/-- A list without repetitions is kept as it is. -/
theorem keepFirst_of_nodup {seen xs : List α} (hxs : xs.Nodup) (hseen : ∀ x ∈ xs, x ∉ seen) :
    keepFirst id seen xs = xs := by
  induction xs generalizing seen with
  | nil => rfl
  | cons x xs ih =>
    obtain ⟨hx, hxs⟩ := List.nodup_cons.mp hxs
    have hnew : ∀ y ∈ xs, y ∉ x :: seen := by
      intro y hy hmem
      rcases List.mem_cons.mp hmem with rfl | hmem
      · exact hx hy
      · exact hseen y (List.mem_cons_of_mem _ hy) hmem
    have hfirst : id x ∉ seen := hseen x List.mem_cons_self
    rw [keepFirst, if_neg hfirst]
    exact congrArg (x :: ·) (ih hxs hnew)

end distinct

end Umail
