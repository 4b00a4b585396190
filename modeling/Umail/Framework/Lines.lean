import Mathlib.Data.List.Infix
import Mathlib.Data.List.TakeWhile

/-! # Lines of a sequence

  A sequence cut after every separator. The last line may lack its
  separator; no line is empty. `firstLines` are the lines before the first
  one that satisfies a predicate, the block that a scan line by line keeps.
-/

namespace Lines

variable {α : Type} [DecidableEq α] {sep : α}

/-! ### Cutting into lines -/

def lines (sep : α) : List α → List (List α)
  | [] => []
  | a :: rest =>
    if a = sep then [a] :: lines sep rest
    else match lines sep rest with
      | [] => [[a]]
      | line :: more => (a :: line) :: more

/-- The items of a line before its separator. -/
def content (sep : α) (line : List α) : List α := line.takeWhile (· ≠ sep)

theorem lines_flatten (s : List α) : (lines sep s).flatten = s := by
  fun_induction lines sep s with
  | case1 => rfl
  | case2 rest ih => rw [List.flatten_cons, ih, List.singleton_append]
  | case3 a rest ha hnil ih =>
    rw [hnil] at ih
    rw [← ih]
    rfl
  | case4 a rest ha line more hcons ih =>
    rw [hcons] at ih
    rw [← ih]
    rfl

theorem lines_of_not_mem {body : List α} (hbody : sep ∉ body) (hne : body ≠ []) :
    lines sep body = [body] := by
  induction body with
  | nil => exact absurd rfl hne
  | cons a rest ih =>
    obtain ⟨ha, hrest⟩ := not_or.mp (mt List.mem_cons.mpr hbody)
    cases rest with
    | nil => simp [lines, Ne.symm ha]
    | cons b more => rw [lines, if_neg (Ne.symm ha), ih hrest (List.cons_ne_nil b more)]

theorem lines_append {body : List α} (hbody : sep ∉ body) (rest : List α) :
    lines sep (body ++ sep :: rest) = (body ++ [sep]) :: lines sep rest := by
  induction body with
  | nil => simp [lines]
  | cons a more ih =>
    obtain ⟨ha, hmore⟩ := not_or.mp (mt List.mem_cons.mpr hbody)
    rw [List.cons_append, lines, if_neg (Ne.symm ha), ih hmore]
    rfl

theorem content_of_not_mem {body : List α} (hbody : sep ∉ body) : content sep body = body := by
  apply List.takeWhile_eq_self_iff.mpr
  intro a ha
  simpa using ne_of_mem_of_not_mem ha hbody

theorem content_append {body : List α} (hbody : sep ∉ body) :
    content sep (body ++ [sep]) = body := by
  have hall : ∀ a ∈ body, decide (a ≠ sep) = true := by
    intro a ha
    simpa using ne_of_mem_of_not_mem ha hbody
  rw [content, List.takeWhile_append_of_pos hall]
  simp

/-- A search for the separator ends behind the content of the first line. -/
theorem idxOf?_eq_some {s : List α} {i : Nat} (h : s.idxOf? sep = some i) :
    ∃ body rest, s = body ++ sep :: rest ∧ sep ∉ body ∧ body.length = i := by
  obtain ⟨hi, hat, hbefore⟩ := List.idxOf?_eq_some_iff.mp h
  refine ⟨s.take i, s.drop (i + 1), ?_, ?_, List.length_take_of_le hi.le⟩
  · rw [← hat, ← List.drop_eq_getElem_cons hi, List.take_append_drop]
  · intro hmem
    obtain ⟨j, hj, hjsep⟩ := List.getElem_of_mem hmem
    rw [List.length_take_of_le hi.le] at hj
    rw [List.getElem_take] at hjsep
    exact hbefore j hj hjsep

/-! ### The lines before the first blank one -/

section blank
variable (blank : List α → Bool)

/-- The items of the lines before the first line whose content is blank. -/
def firstLines (sep : α) (s : List α) : List α :=
  ((lines sep s).takeWhile fun line => !blank (content sep line)).flatten

@[simp] theorem firstLines_nil : firstLines blank sep [] = [] := rfl

theorem firstLines_of_not_mem {body : List α} (hbody : sep ∉ body) (hne : body ≠ []) :
    firstLines blank sep body = if blank body then [] else body := by
  rw [firstLines, lines_of_not_mem hbody hne]
  by_cases hblank : blank body <;> simp [content_of_not_mem hbody, hblank]

theorem firstLines_append {body : List α} (hbody : sep ∉ body) (rest : List α) :
    firstLines blank sep (body ++ sep :: rest) =
      if blank body then [] else body ++ sep :: firstLines blank sep rest := by
  rw [firstLines, lines_append hbody]
  by_cases hblank : blank body <;> simp [content_append hbody, hblank, firstLines]

/-- What `firstLines` keeps: whole lines, none of them blank, and the next one is. -/
theorem firstLines_split (sep : α) (s : List α) : ∃ kept rest, lines sep s = kept ++ rest ∧
    firstLines blank sep s = kept.flatten ∧
    (∀ line ∈ kept, blank (content sep line) = false) ∧
    (∀ line, rest.head? = some line → blank (content sep line) = true) := by
  refine ⟨_, _, (List.takeWhile_append_dropWhile
    (p := fun line => !blank (content sep line))).symm, rfl, ?_, ?_⟩
  · intro line hline
    simpa using List.mem_takeWhile_imp hline
  · intro line hline
    have hnot := List.head?_dropWhile_not (fun line => !blank (content sep line)) (lines sep s)
    rw [hline] at hnot
    simpa using hnot

theorem firstLines_isPrefix (s : List α) : firstLines blank sep s <+: s := by
  have h : firstLines blank sep s <+: (lines sep s).flatten :=
    List.IsPrefix.flatten (List.takeWhile_prefix _)
  rwa [lines_flatten] at h

/-- No blank line, and nothing behind one, is kept. -/
theorem firstLines_before_blank {s : List α} {before after : List (List α)} {line : List α}
    (hlines : lines sep s = before ++ line :: after) (hblank : blank (content sep line) = true) :
    firstLines blank sep s <+: before.flatten := by
  have hnot : ¬ ((!blank (content sep line)) = true) := by simp [hblank]
  rw [firstLines, hlines, List.takeWhile_append]
  split
  · rw [List.takeWhile_cons_of_neg (p := fun line => !blank (content sep line)) hnot,
      List.append_nil]
  · exact List.IsPrefix.flatten (List.takeWhile_prefix _)

/-- Every run of whole lines that are not blank is kept. -/
theorem prefix_firstLines {s : List α} {kept rest : List (List α)}
    (hlines : lines sep s = kept ++ rest)
    (hkept : ∀ line ∈ kept, blank (content sep line) = false) :
    kept.flatten <+: firstLines blank sep s := by
  have hall : ∀ line ∈ kept, (!blank (content sep line)) = true := by
    intro line hline
    simp [hkept line hline]
  rw [firstLines, hlines, List.takeWhile_append_of_pos hall]
  exact List.IsPrefix.flatten (List.prefix_append kept _)

end blank

end Lines
