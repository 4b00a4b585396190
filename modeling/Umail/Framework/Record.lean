import Mathlib.Data.List.Nodup

/-! # Records

  A record maps names to values and keeps the order in which the names were
  first assigned, as a JavaScript object does. Assigning to a name that is
  there replaces its value in place, and any other is appended; no name occurs
  twice.
-/

structure Record (α : Type) where
  entries : List (String × α)
  nodup : (entries.map Prod.fst).Nodup

namespace Record

variable {α : Type}

@[ext] theorem ext {r r' : Record α} (h : r.entries = r'.entries) : r = r' := by
  cases r; cases r'; congr

def empty : Record α := ⟨[], .nil⟩

/-- `Object.keys(r)` -/
def names (r : Record α) : List String := r.entries.map Prod.fst

def get? (r : Record α) (name : String) : Option α := r.entries.lookup name

def setEntries (entries : List (String × α)) (name : String) (value : α) : List (String × α) :=
  if name ∈ entries.map Prod.fst then
    entries.map fun entry => if entry.1 = name then (name, value) else entry
  else entries ++ [(name, value)]

theorem setEntries_nodup {entries : List (String × α)} {name : String} {value : α}
    (h : (entries.map Prod.fst).Nodup) : ((setEntries entries name value).map Prod.fst).Nodup := by
  unfold setEntries
  split
  · have hnames : ∀ entry : String × α,
        (if entry.1 = name then (name, value) else entry).1 = entry.1 := by
      intro entry
      split
      · next heq => exact heq.symm
      · rfl
    simpa only [List.map_map, Function.comp_def, hnames] using h
  · next hfresh =>
    rw [List.map_append, List.nodup_append]
    refine ⟨h, List.nodup_singleton _, ?_⟩
    rintro a ha b hb rfl
    obtain rfl : a = name := by simpa using hb
    exact hfresh ha

/-- `r[name] = value` -/
def set (r : Record α) (name : String) (value : α) : Record α where
  entries := setEntries r.entries name value
  nodup := setEntries_nodup r.nodup

/-! ### Assignment -/

theorem set_entries_of_fresh {r : Record α} {name : String} (h : name ∉ r.names) (value : α) :
    (r.set name value).entries = r.entries ++ [(name, value)] := if_neg h

theorem get?_of_mem {r : Record α} {name : String} {value : α} (h : (name, value) ∈ r.entries) :
    r.get? name = some value := by
  obtain ⟨before, after, heq⟩ := List.append_of_mem h
  refine List.lookup_eq_some_iff.mpr ⟨before, after, heq, fun entry hmem => ?_⟩
  have hnodup := r.nodup
  rw [heq, List.map_append, List.nodup_append] at hnodup
  have hne := hnodup.2.2 entry.1 (List.mem_map_of_mem hmem) name (by simp)
  simpa using hne.symm

theorem mem_of_get? {r : Record α} {name : String} {value : α} (h : r.get? name = some value) :
    (name, value) ∈ r.entries := by
  obtain ⟨before, after, heq, -⟩ := List.lookup_eq_some_iff.mp h
  simp [heq]

theorem get?_eq_some {r : Record α} {name : String} {value : α} :
    r.get? name = some value ↔ (name, value) ∈ r.entries := ⟨mem_of_get?, get?_of_mem⟩

/-- `Object.assign(r, ..)` -/
def setAll (r : Record α) (more : List (String × α)) : Record α :=
  more.foldl (fun r entry => r.set entry.1 entry.2) r

theorem setAll_append (r : Record α) (more later : List (String × α)) :
    r.setAll (more ++ later) = (r.setAll more).setAll later := List.foldl_append

/-- **New names are appended**, in the order of their assignment. -/
theorem setAll_entries {r : Record α} {more : List (String × α)}
    (h : ((r.entries ++ more).map Prod.fst).Nodup) :
    (r.setAll more).entries = r.entries ++ more := by
  induction more generalizing r with
  | nil => simp [setAll]
  | cons entry more ih =>
    have hfresh : entry.1 ∉ r.names := by
      rw [List.map_append, List.nodup_append] at h
      exact fun hmem => h.2.2 _ hmem entry.1 (by simp) rfl
    have hset := set_entries_of_fresh hfresh entry.2
    have happend : (r.set entry.1 entry.2).entries ++ more = r.entries ++ entry :: more := by
      rw [hset, List.append_assoc, List.singleton_append]
    rw [← happend]
    exact ih (happend ▸ h)

/-! ### Copying -/

/-- Assigns what `f` makes of each entry, where it makes something. -/
def copyInto (f : String → α → Option α) (source target : Record α) : Record α :=
  source.entries.foldl (fun target entry =>
    match f entry.1 entry.2 with
    | some value => target.set entry.1 value
    | none => target) target

def copied (f : String → α → Option α) (entries : List (String × α)) :
    List (String × α) :=
  entries.filterMap fun entry => (f entry.1 entry.2).map fun value => (entry.1, value)

/-- A copy is the assignment of what was made, in the order of the source. -/
theorem copyInto_eq (f : String → α → Option α) (source target : Record α) :
    copyInto f source target = target.setAll (copied f source.entries) := by
  rw [setAll, copied, List.foldl_filterMap]
  unfold copyInto
  congr 1
  funext target entry
  cases f entry.1 entry.2 <;> rfl

theorem mem_copied {f : String → α → Option α} {entries : List (String × α)} {name : String}
    {value : α} : (name, value) ∈ copied f entries ↔
      ∃ old, (name, old) ∈ entries ∧ f name old = some value := by
  simp only [copied, List.mem_filterMap, Option.map_eq_some_iff]
  constructor
  · rintro ⟨⟨_, old⟩, hmem, _, hf, heq⟩
    cases heq
    exact ⟨old, hmem, hf⟩
  · rintro ⟨old, hmem, hf⟩
    exact ⟨(name, old), hmem, value, hf, rfl⟩

theorem copied_nodup (f : String → α → Option α) {entries : List (String × α)}
    (h : (entries.map Prod.fst).Nodup) : ((copied f entries).map Prod.fst).Nodup := by
  refine h.sublist ?_
  induction entries with
  | nil => exact List.Sublist.slnil
  | cons entry rest ih =>
    have hrest := ih (List.nodup_cons.mp h).2
    cases hf : f entry.1 entry.2 with
    | none => simpa [copied, hf] using hrest.cons entry.1
    | some value => simpa [copied, hf] using hrest.cons_cons entry.1

theorem copied_append (f : String → α → Option α) (entries more : List (String × α)) :
    copied f (entries ++ more) = copied f entries ++ copied f more := List.filterMap_append

theorem copied_eq_nil {f : String → α → Option α} {entries : List (String × α)}
    (h : ∀ entry ∈ entries, f entry.1 entry.2 = none) : copied f entries = [] := by
  rw [copied, List.filterMap_eq_nil_iff]
  intro entry hmem
  rw [h entry hmem, Option.map_none]

/-- What was copied is copied again as it is. -/
theorem copied_copied {f : String → α → Option α}
    (h : ∀ name value value', f name value = some value' → f name value' = some value')
    (entries : List (String × α)) : copied f (copied f entries) = copied f entries := by
  refine (List.filterMap_congr fun entry hmem => ?_).trans List.filterMap_some
  obtain ⟨source, -, hentry⟩ := List.mem_filterMap.mp hmem
  obtain ⟨value, hf, rfl⟩ := Option.map_eq_some_iff.mp hentry
  simp [h _ _ _ hf]

end Record
