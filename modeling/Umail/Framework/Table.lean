import Mathlib.Data.List.Basic
import Mathlib.Data.List.Dedup
import Mathlib.Data.List.Pairwise
import Mathlib.Data.List.Sort

/-! # Keyed tables

  A relational table is a list of rows in insertion order together with the
  proof that its `PRIMARY KEY` and `UNIQUE` constraints hold. The
  constraints of a row type are given by the columns they read (`key`) and by
  when two such keys collide (`clash`), so that one row type can have several
  of them.

  `insert?` fails on a collision, `update` is `UPDATE .. SET .. WHERE ..` for
  an assignment that leaves the constrained columns alone, and `Extends`
  says that one table is a later version of another: rows are rewritten in
  place and new ones appended, none is lost. `Upserted` is the rule for
  bringing one row to what it has to be.
-/

namespace Relational

/-- The uniqueness constraints of a row type. -/
class Keyed (ρ : Type) (κ : outParam Type) where
  /-- The constrained columns. -/
  key : ρ → κ
  /-- Two keys violate one of the constraints together. -/
  clash : κ → κ → Prop
  symm : ∀ {a b : κ}, clash a b → clash b a
  decClash : DecidableRel clash

instance {ρ κ : Type} [Keyed ρ κ] : DecidableRel (@Keyed.clash ρ κ _) :=
  @Keyed.decClash ρ κ _

/-- Two rows violate one of the constraints together. -/
abbrev Clash {ρ κ : Type} [Keyed ρ κ] (a b : ρ) : Prop :=
  @Keyed.clash ρ κ _ (Keyed.key a) (Keyed.key b)

/-- The constraint of a row type whose only key is `key`. -/
abbrev Keyed.primary {ρ κ : Type} [DecidableEq κ] (key : ρ → κ) : Keyed ρ κ where
  key := key
  clash := (· = ·)
  symm := Eq.symm
  decClash := inferInstance

/-- A table: its rows in insertion order, no two of which collide. -/
structure Table (ρ : Type) {κ : Type} [Keyed ρ κ] where
  rows : List ρ
  distinct : rows.Pairwise fun a b => ¬ Clash a b

namespace Table

variable {ρ κ : Type} [Keyed ρ κ]

instance : Membership ρ (Table ρ) := ⟨fun t r => r ∈ t.rows⟩

theorem mem_rows {t : Table ρ} {r : ρ} : r ∈ t.rows ↔ r ∈ t := Iff.rfl

@[ext] theorem ext {t t' : Table ρ} (h : t.rows = t'.rows) : t = t' := by
  cases t; cases t'; congr

/-! ### Operations -/

/-- The table without rows. -/
def empty : Table ρ := ⟨[], .nil⟩

/-- `INSERT`: fails when the new row collides with a stored one. -/
def insert? (t : Table ρ) (r : ρ) : Option (Table ρ) :=
  if h : ∀ x ∈ t.rows, ¬ Clash x r then
    some ⟨t.rows ++ [r], by
      refine List.pairwise_append.mpr ⟨t.distinct, List.pairwise_singleton _ _, ?_⟩
      intro x hx y hy
      obtain rfl := List.mem_singleton.mp hy
      exact h x hx⟩
  else none

/-- Inserts rows one after the other. -/
def insertAll? (t : Table ρ) : List ρ → Option (Table ρ)
  | [] => some t
  | r :: rs => (t.insert? r).bind fun t' => insertAll? t' rs

/-- `UPDATE .. SET f WHERE p`, for an assignment that keeps the key columns. -/
def update (t : Table ρ) (p : ρ → Bool) (f : ρ → ρ)
    (hf : ∀ r, Keyed.key (f r) = Keyed.key r) : Table ρ where
  rows := t.rows.map fun r => if p r then f r else r
  distinct := by
    have hkey : ∀ r, Keyed.key (if p r then f r else r) = Keyed.key r := by
      intro r; split
      · exact hf r
      · rfl
    refine List.pairwise_map.mpr (t.distinct.imp ?_)
    intro a b hab
    simpa only [Clash, hkey] using hab

/-- `DELETE WHERE p`. -/
def delete (t : Table ρ) (p : ρ → Bool) : Table ρ where
  rows := t.rows.filter fun r => !p r
  distinct := t.distinct.filter _

/-- `SELECT * WHERE p`, in insertion order. -/
def select (t : Table ρ) (p : ρ → Bool) : List ρ := t.rows.filter p

/-- The first row that satisfies `p`. -/
def find? (t : Table ρ) (p : ρ → Bool) : Option ρ := t.rows.find? p

/-! ### Membership -/

theorem mem_delete {t : Table ρ} {p : ρ → Bool} {r : ρ} :
    r ∈ t.delete p ↔ r ∈ t ∧ p r = false := by
  rw [← mem_rows, delete, List.mem_filter, mem_rows]
  simp

@[simp] theorem mem_empty {r : ρ} : ¬ r ∈ (empty : Table ρ) := List.not_mem_nil

theorem insert?_rows {t t' : Table ρ} {r : ρ} (h : t.insert? r = some t') :
    t'.rows = t.rows ++ [r] := by
  unfold insert? at h
  split at h
  · obtain rfl := Option.some.inj h
    rfl
  · exact absurd h (by simp)

theorem insert?_isSome {t : Table ρ} {r : ρ} (h : ∀ x ∈ t, ¬ Clash x r) :
    ∃ t', t.insert? r = some t' := by
  exact ⟨_, dif_pos h⟩

theorem mem_insert? {t t' : Table ρ} {r x : ρ} (h : t.insert? r = some t') :
    x ∈ t' ↔ x ∈ t ∨ x = r := by
  rw [← mem_rows, insert?_rows h, List.mem_append, List.mem_singleton, mem_rows]

theorem insertAll?_rows {t t' : Table ρ} {rs : List ρ} (h : t.insertAll? rs = some t') :
    t'.rows = t.rows ++ rs := by
  induction rs generalizing t with
  | nil =>
    obtain rfl : t = t' := by simpa [insertAll?] using h
    simp
  | cons r rs ih =>
    obtain ⟨t₁, h₁, hrest⟩ := Option.bind_eq_some_iff.mp h
    rw [ih hrest, insert?_rows h₁, List.append_assoc, List.singleton_append]

/-- Rows that collide with none of the table and not among themselves can be inserted. -/
theorem insertAll?_isSome {t : Table ρ} {l : List ρ} (h : ∀ x ∈ t, ∀ r ∈ l, ¬ Clash x r)
    (hrs : l.Pairwise fun a b => ¬ Clash a b) : ∃ t', t.insertAll? l = some t' := by
  induction l generalizing t with
  | nil => exact ⟨t, rfl⟩
  | cons r l ih =>
    obtain ⟨hr, hrs⟩ := List.pairwise_cons.mp hrs
    obtain ⟨t₁, ht₁⟩ := insert?_isSome fun x hx => h x hx r List.mem_cons_self
    have hfresh : ∀ x ∈ t₁, ∀ r' ∈ l, ¬ Clash x r' := by
      intro x hx r' hr'
      rcases (mem_insert? ht₁).mp hx with hold | rfl
      · exact h x hold r' (List.mem_cons_of_mem _ hr')
      · exact hr r' hr'
    obtain ⟨t', ht'⟩ := ih hfresh hrs
    exact ⟨t', by rw [insertAll?, ht₁]; exact ht'⟩

@[simp] theorem update_rows (t : Table ρ) (p : ρ → Bool) (f : ρ → ρ)
    (hf : ∀ r, Keyed.key (f r) = Keyed.key r) :
    (t.update p f hf).rows = t.rows.map fun r => if p r then f r else r := rfl

@[simp] theorem mem_update {t : Table ρ} {p : ρ → Bool} {f : ρ → ρ}
    {hf : ∀ r, Keyed.key (f r) = Keyed.key r} {x : ρ} :
    x ∈ t.update p f hf ↔ ∃ r ∈ t, (if p r then f r else r) = x := by
  rw [← mem_rows, update_rows, List.mem_map]
  rfl

@[simp] theorem mem_select {t : Table ρ} {p : ρ → Bool} {x : ρ} :
    x ∈ t.select p ↔ x ∈ t ∧ p x = true := List.mem_filter

/-- The rows after an update, given by the rows it leaves. -/
theorem mem_of_map {t t' : Table ρ} {g : ρ → ρ} (hrows : t'.rows = t.rows.map g) {x : ρ} :
    x ∈ t' ↔ ∃ r ∈ t, g r = x := by
  rw [← mem_rows, hrows, List.mem_map]
  rfl

/-- A row that an update does not select is still there. -/
theorem mem_of_not_updated {t t' : Table ρ} {p : ρ → Bool} {f : ρ → ρ} {r : ρ}
    (hrows : t'.rows = t.rows.map fun r => if p r then f r else r) (hr : r ∈ t)
    (hp : p r = false) : r ∈ t' := (mem_of_map hrows).mpr ⟨r, hr, by simp [hp]⟩

/-- The rows after an update: those it does not select, and those it rewrites. -/
theorem mem_updated {t t' : Table ρ} {p : ρ → Bool} {f : ρ → ρ}
    (hrows : t'.rows = t.rows.map fun r => if p r then f r else r) {x : ρ} (hx : x ∈ t') :
    (x ∈ t ∧ p x = false) ∨ ∃ r ∈ t, p r = true ∧ f r = x := by
  obtain ⟨r, hr, heq⟩ := (mem_of_map hrows).mp hx
  by_cases hp : p r = true
  · exact .inr ⟨r, hr, hp, by simpa [hp] using heq⟩
  · obtain rfl : r = x := by simpa [hp] using heq
    exact .inl ⟨hr, by simpa using hp⟩

/-- An update that selects no row changes nothing. -/
theorem update_eq_self {t : Table ρ} {p : ρ → Bool} {f : ρ → ρ}
    {hf : ∀ r, Keyed.key (f r) = Keyed.key r} (h : ∀ r ∈ t, p r = false) :
    t.update p f hf = t := by
  apply ext
  rw [update_rows]
  refine (List.map_congr_left fun r hr => ?_).trans (List.map_id _)
  simp [h r hr]

/-- An update leaves a query alone that sees the rows neither before nor after. -/
theorem select_update {t t' : Table ρ} {p q : ρ → Bool} {f : ρ → ρ}
    (hrows : t'.rows = t.rows.map fun r => if p r then f r else r)
    (h : ∀ r ∈ t, p r = true → q r = false ∧ q (f r) = false) :
      t'.select q = t.select q := by
  unfold select
  rw [hrows, List.filter_map]
  have hkeep : ∀ r ∈ t.rows, (q ∘ fun r => if p r then f r else r) r = q r := by
    intro r hr
    by_cases hp : p r = true
    · obtain ⟨hq, hqf⟩ := h r hr hp
      simp [hp, hq, hqf]
    · simp [hp]
  rw [List.filter_congr hkeep]
  refine (List.map_congr_left fun r hr => ?_).trans (List.map_id _)
  obtain ⟨hrt, hq⟩ := List.mem_filter.mp hr
  by_cases hp : p r = true
  · exact absurd hq (by simp [(h r hrt hp).1])
  · simp [hp]

theorem find?_mem {t : Table ρ} {p : ρ → Bool} {r : ρ} (h : t.find? p = some r) :
    r ∈ t := List.mem_of_find?_eq_some h

/-- A query that some row satisfies finds a row. -/
theorem find?_isSome {t : Table ρ} {p : ρ → Bool} {r : ρ} (hr : r ∈ t) (hp : p r = true) :
    (t.find? p).isSome = true := List.find?_isSome.mpr ⟨r, hr, hp⟩

theorem find?_prop {t : Table ρ} {p : ρ → Bool} {r : ρ} (h : t.find? p = some r) :
    p r = true := List.find?_some h

theorem find?_eq_none {t : Table ρ} {p : ρ → Bool} :
    t.find? p = none ↔ ∀ r ∈ t, p r = false := by
  unfold find?
  rw [List.find?_eq_none]
  simp only [Bool.not_eq_true]
  rfl

/-! ### Uniqueness -/

/-- Two stored rows that collide are one row. -/
theorem eq_of_clash (t : Table ρ) {a b : ρ} (ha : a ∈ t) (hb : b ∈ t)
    (h : Clash a b) : a = b := by
  by_contra hne
  have hsymm : Std.Symm fun a b : ρ => ¬ Clash a b :=
    ⟨fun _ _ hab hba => hab (@Keyed.symm ρ κ _ _ _ hba)⟩
  exact t.distinct.forall ha hb hne h

/-- Rows appended to a table collide with none of the old ones. -/
theorem not_clash_of_append {t t' : Table ρ} {news : List ρ} (h : t'.rows = t.rows ++ news)
    {a b : ρ} (ha : a ∈ t) (hb : b ∈ news) : ¬ Clash a b :=
  (List.pairwise_append.mp (h ▸ t'.distinct)).2.2 a ha b hb

/-- A predicate that at most one row satisfies finds exactly that row. -/
theorem find?_eq_some_of_mem {t : Table ρ} {p : ρ → Bool}
    (hp : ∀ a b : ρ, p a = true → p b = true → Clash a b) {r : ρ}
    (hr : r ∈ t) (hpr : p r = true) : t.find? p = some r := by
  cases hfind : t.find? p with
  | none => exact absurd hpr (by simp [find?_eq_none.mp hfind r hr])
  | some r' =>
    rw [t.eq_of_clash (find?_mem hfind) hr (hp _ _ (find?_prop hfind) hpr)]

/-! ### Sorting by a key -/

section sorting
variable {ρ α : Type} [LinearOrder α] {r : ρ → ρ → Prop} {key : ρ → α}

theorem total_of_key (h : ∀ a b, r a b ↔ key a ≤ key b) : Std.Total r :=
  ⟨fun a b => by
    rw [h, h]
    exact le_total _ _⟩

theorem trans_of_key (h : ∀ a b, r a b ↔ key a ≤ key b) : IsTrans ρ r :=
  ⟨fun a b c => by
    rw [h, h, h]
    exact le_trans⟩

theorem key_eq_of_key (h : ∀ a b, r a b ↔ key a ≤ key b) {a b : ρ} (hab : r a b)
    (hba : r b a) :
    key a = key b := le_antisymm ((h a b).mp hab) ((h b a).mp hba)

/-- In an order that tells its members apart, a list is sorted to the same
    list in whatever order it is given. -/
theorem sorted_eq_of_perm [DecidableRel r] [Std.Total r] [IsTrans ρ r] {l l' : List ρ}
    (h : l.Perm l') (hanti : ∀ x ∈ l, ∀ y ∈ l, r x y → r y x → x = y) :
    l.insertionSort r = l'.insertionSort r := by
  have hperm : (l.insertionSort r).Perm (l'.insertionSort r) :=
    (List.perm_insertionSort r l).trans (h.trans (List.perm_insertionSort r l').symm)
  refine hperm.eq_of_pairwise ?_ (List.pairwise_insertionSort r _) (List.pairwise_insertionSort r _)
  intro a b ha hb
  have hb : b ∈ l := h.mem_iff.mpr ((List.mem_insertionSort r).mp hb)
  exact hanti a ((List.mem_insertionSort r).mp ha) b hb

end sorting

/-! ### Queries that two tables answer alike -/

section alike
variable {t u : Table ρ} {p : ρ → Bool}

/-- Tables with the same rows that satisfy `p` select the same rows, in some order. -/
theorem select_perm (hrefl : ∀ x : ρ, Clash x x) (h : ∀ x, p x = true →
    (x ∈ t ↔ x ∈ u)) :
    (t.select p).Perm (u.select p) := by
  have hnodup : ∀ v : Table ρ, (v.select p).Nodup := by
    intro v
    refine List.Pairwise.filter p (v.distinct.imp ?_)
    intro a b hab heq
    subst heq
    exact hab (hrefl a)
  refine (List.perm_ext_iff_of_nodup (hnodup t) (hnodup u)).mpr fun x => ?_
  rw [mem_select, mem_select]
  constructor
  · exact fun hx => ⟨(h x hx.2).mp hx.1, hx.2⟩
  · exact fun hx => ⟨(h x hx.2).mpr hx.1, hx.2⟩

/-- In an order that tells the selected rows apart they are the same list. -/
theorem select_sorted_eq {r : ρ → ρ → Prop} [DecidableRel r] [Std.Total r] [IsTrans ρ r]
    (hrefl : ∀ x : ρ, Clash x x) (h : ∀ x, p x = true → (x ∈ t ↔ x ∈ u))
    (hanti : ∀ x ∈ t, ∀ y ∈ t, p x = true → p y = true → r x y → r y x → x = y) :
    (t.select p).insertionSort r = (u.select p).insertionSort r := by
  apply sorted_eq_of_perm (select_perm hrefl h)
  intro a ha b hb
  obtain ⟨ha, hpa⟩ := mem_select.mp ha
  obtain ⟨hb, hpb⟩ := mem_select.mp hb
  exact hanti a ha b hb hpa hpb

/-- Rows in the order of a key: no two selected rows may share it. -/
theorem select_sorted_eq_of_key {κ : Type} [LinearOrder κ] (key : ρ → κ)
    (hrefl : ∀ x : ρ, Clash x x) (h : ∀ x, p x = true → (x ∈ t ↔ x ∈ u))
    (hkey : ∀ x ∈ t, ∀ y ∈ t, p x = true → p y = true → key x = key y → x = y) :
    (t.select p).insertionSort (fun a b => key a ≤ key b) =
      (u.select p).insertionSort fun a b => key a ≤ key b := by
  have htotal : Std.Total fun a b : ρ => key a ≤ key b := total_of_key fun _ _ => Iff.rfl
  have htrans : IsTrans ρ fun a b => key a ≤ key b := trans_of_key fun _ _ => Iff.rfl
  apply select_sorted_eq hrefl h
  intro x hx y hy hpx hpy hxy hyx
  exact hkey x hx y hy hpx hpy (le_antisymm hxy hyx)

end alike

/-! ### Later versions of a table -/

/-- `t'` is a later version of `t`: every row of `t` is rewritten in place to
    an `R`-related row, and the rows appended satisfy `N`. -/
def Extends (R : ρ → ρ → Prop) (N : ρ → Prop) (t t' : Table ρ) : Prop :=
  ∃ (g : ρ → ρ) (news : List ρ),
    t'.rows = t.rows.map g ++ news ∧ (∀ r ∈ t, R r (g r)) ∧ ∀ r ∈ news, N r

section later
variable {R : ρ → ρ → Prop} {N N' : ρ → Prop} {t t' t'' : Table ρ}

theorem Extends.refl (hR : ∀ r, R r r) (t : Table ρ) : Extends R N t t :=
  ⟨id, [], by simp, fun r _ => hR r, by simp⟩

/-- A chain of two versions. Rows that the first one appends may be rewritten
    by the second one. -/
theorem Extends.trans {N₂ : ρ → Prop} (hR : ∀ a b c, R a b → R b c → R a c)
    (hN : ∀ r r', N r → R r r' → N₂ r') (hN' : ∀ r, N' r → N₂ r)
    (h : Extends R N t t') (h' : Extends R N' t' t'') : Extends R N₂ t t'' := by
  obtain ⟨g, news, hrows, hg, hnews⟩ := h
  obtain ⟨g', news', hrows', hg', hnews'⟩ := h'
  have hmem : ∀ r, r ∈ t' ↔ r ∈ t.rows.map g ∨ r ∈ news := fun r => by
    rw [← mem_rows, hrows, List.mem_append]
  refine ⟨g' ∘ g, news.map g' ++ news', ?_, ?_, ?_⟩
  · rw [hrows', hrows, List.map_append, List.map_map, List.append_assoc]
  · intro r hr
    have hgr : g r ∈ t' := (hmem _).mpr (.inl (List.mem_map_of_mem hr))
    exact hR _ _ _ (hg r hr) (hg' _ hgr)
  · intro r hr
    rcases List.mem_append.mp hr with hr | hr
    · obtain ⟨r₀, hr₀, rfl⟩ := List.mem_map.mp hr
      exact hN r₀ _ (hnews r₀ hr₀) (hg' r₀ ((hmem r₀).mpr (.inr hr₀)))
    · exact hN' r (hnews' r hr)

/-- An update, given by the rows it leaves. -/
theorem Extends.update {p : ρ → Bool} {f : ρ → ρ}
    (hrows : t'.rows = t.rows.map fun r => if p r then f r else r) (hrefl : ∀ r, R r r)
    (h : ∀ r ∈ t, p r = true → R r (f r)) : Extends R N t t' := by
  refine ⟨fun r => if p r then f r else r, [], by simp [hrows], ?_, by simp⟩
  intro r hr
  show R r (if p r then f r else r)
  split
  · exact h r hr ‹_›
  · exact hrefl r

/-- Two updates in a row, where the second one skips the rows of the first. -/
theorem Extends.update_update {p q : ρ → Bool} {f g : ρ → ρ}
    (hrows : t'.rows = t.rows.map fun r => if p r then f r else r)
    (hrows' : t''.rows = t'.rows.map fun r => if q r then g r else r)
    (hrefl : ∀ r, R r r) (hfirst : ∀ r ∈ t, p r = true → R r (f r) ∧ q (f r) = false)
    (hsecond : ∀ r ∈ t, q r = true → R r (g r)) :
    Extends R N t t'' := by
  refine ⟨fun r => if q (if p r then f r else r) then g (if p r then f r else r)
    else if p r then f r else r, [], by simp [hrows', hrows, Function.comp_def], ?_, by simp⟩
  intro r hr
  by_cases hp : p r = true
  · obtain ⟨hR, hq⟩ := hfirst r hr hp
    simpa [hp, hq] using hR
  · by_cases hq : q r = true
    · simpa [hp, hq] using hsecond r hr hq
    · simpa [hp, hq] using hrefl r

theorem Extends.append {news : List ρ} (hrefl : ∀ r, R r r)
    (h : t'.rows = t.rows ++ news) (hN : ∀ r ∈ news, N r) : Extends R N t t' :=
  ⟨id, news, by rw [h, List.map_id], fun r _ => hrefl r, hN⟩

theorem Extends.mono {R' : ρ → ρ → Prop} (hR : ∀ a b, R a b → R' a b)
    (hN : ∀ r, N r → N' r) (h : Extends R N t t') : Extends R' N' t t' := by
  obtain ⟨g, news, hrows, hg, hnews⟩ := h
  exact ⟨g, news, hrows, fun r hr => hR _ _ (hg r hr), fun r hr => hN r (hnews r hr)⟩

/-- Every row has a later version. -/
theorem Extends.exists_mem (h : Extends R N t t') {r : ρ} (hr : r ∈ t) :
    ∃ r' ∈ t', R r r' := by
  obtain ⟨g, news, hrows, hg, -⟩ := h
  refine ⟨g r, ?_, hg r hr⟩
  rw [← mem_rows, hrows]
  exact List.mem_append_left _ (List.mem_map_of_mem hr)

/-- Every later row is a version of an earlier one, or new. -/
theorem Extends.mem_cases (h : Extends R N t t') {r' : ρ} (hr : r' ∈ t') :
    (∃ r ∈ t, R r r') ∨ N r' := by
  obtain ⟨g, news, hrows, hg, hnews⟩ := h
  rw [← mem_rows, hrows] at hr
  rcases List.mem_append.mp hr with hr | hr
  · obtain ⟨r, hold, rfl⟩ := List.mem_map.mp hr
    exact .inl ⟨r, hold, hg r hold⟩
  · exact .inr (hnews r' hr)

/-- A row is found again under its key. -/
theorem Extends.version (h : Extends R N t t') (hR : ∀ a b, R a b → Keyed.key b = Keyed.key a)
    {r r' : ρ} (hr : r ∈ t) (hr' : r' ∈ t') (hclash : Clash r r') : R r r' := by
  obtain ⟨r₁, hr₁, hrel⟩ := h.exists_mem hr
  have hkey : Clash r₁ r' := by
    rw [Clash, hR r r₁ hrel]
    exact hclash
  rwa [← t'.eq_of_clash hr₁ hr' hkey]

/-- Rows that are kept and followed by rows outside the selection leave a
    query with the same answer. -/
theorem Extends.select_eq (h : Extends Eq N t t') {p : ρ → Bool}
    (hp : ∀ r, N r → p r = false) : t'.select p = t.select p := by
  obtain ⟨g, news, hrows, hg, hnews⟩ := h
  have hold : t.rows.map g = t.rows :=
    (List.map_congr_left fun r hr => (hg r hr).symm).trans (List.map_id _)
  have hnew : news.filter p = [] :=
    List.filter_eq_nil_iff.mpr fun r hr => by simp [hp r (hnews r hr)]
  rw [select, hrows, hold, List.filter_append, hnew, List.append_nil]
  rfl

end later

/-! ### Queries after a statement -/

/-- A query by columns that an update leaves alone finds the row it found. -/
theorem find?_update {p q : ρ → Bool} {f : ρ → ρ} {hf : ∀ r, Keyed.key (f r) = Keyed.key r}
    {t : Table ρ} (h : ∀ r, q (f r) = q r) :
    (t.update p f hf).find? q = (t.find? q).map fun r => if p r then f r else r := by
  unfold find?
  rw [update_rows, List.find?_map]
  congr 2
  funext r
  by_cases hp : p r = true
  · simp [hp, h]
  · simp [hp]

/-- A query that found nothing finds the row that is inserted. -/
theorem find?_insert? {p : ρ → Bool} {t t' : Table ρ} {r : ρ} (hnone : t.find? p = none)
    (h : t.insert? r = some t') (hr : p r = true) : t'.find? p = some r := by
  unfold find? at hnone ⊢
  rw [insert?_rows h, List.find?_append, hnone, List.find?_cons_of_pos hr]
  rfl

/-! ### Upserts -/

/-- `t'` comes from `t` by bringing the row with `value` in a column to what
    it has to be. Where it already was, only what `strip` takes away differs. -/
structure Upserted (column : ρ → String) (value : String) (P : ρ → Prop) (strip : ρ → ρ)
    (t t' : Table ρ) : Prop where
  stored : ∃ r ∈ t', column r = value ∧ P r
  others : ∀ r ∈ t, column r ≠ value → r ∈ t'
  again : (∃ r ∈ t, column r = value ∧ P r) → t'.rows.map strip = t.rows.map strip

variable {column : ρ → String} {value : String} {P : ρ → Prop} {strip : ρ → ρ}
    {t t' : Table ρ}

theorem Upserted.insert {row : ρ} (hnone : ∀ r ∈ t, column r ≠ value)
    (h : t.insert? row = some t') (hcolumn : column row = value) (hP : P row) :
    Upserted column value P strip t t' where
  stored := ⟨row, (mem_insert? h).mpr (.inr rfl), hcolumn, hP⟩
  others _ hr _ := (mem_insert? h).mpr (.inl hr)
  again := fun ⟨r, hr, hvalue, _⟩ => absurd hvalue (hnone r hr)

theorem Upserted.update {f : ρ → ρ} {hf : ∀ r, Keyed.key (f r) = Keyed.key r}
    (hunique : ∀ a b : ρ, column a = column b → Clash a b)
    (hcolumn : ∀ r, column (f r) = column r)
    {r₀ : ρ} (hr₀ : r₀ ∈ t) (hvalue : column r₀ = value) (hP : P (f r₀))
    (hstrip : ∀ r, P r → strip (f r) = strip r) :
    Upserted column value P strip t (t.update (fun r => column r = value) f hf) where
  stored := by
    refine ⟨f r₀, mem_update.mpr ⟨r₀, hr₀, by simp [hvalue]⟩,
      (hcolumn r₀).trans hvalue, hP⟩
  others r hr hne := mem_update.mpr ⟨r, hr, by simp [hne]⟩
  again := by
    rintro ⟨r₁, hr₁, hvalue₁, hP₁⟩
    rw [update_rows, List.map_map]
    refine List.map_congr_left fun r hr => ?_
    by_cases hr' : column r = value
    · -- the row with the value is the one that was there
      obtain rfl := t.eq_of_clash hr hr₁ (hunique r r₁ (hr'.trans hvalue₁.symm))
      simp [hr', hstrip r hP₁]
    · simp [hr']

end Table

/-! ### Conditions on the rows of a query -/

section ordered
variable {ρ : Type} {p : ρ → Bool}

/-- A condition on the rows can be checked before duplicates are removed. -/
theorem filter_dedup [DecidableEq ρ] (l : List ρ) : l.dedup.filter p = (l.filter p).dedup := by
  induction l with
  | nil => rfl
  | cons a l ih =>
    by_cases ha : a ∈ l
    · rw [List.dedup_cons_of_mem ha, ih]
      by_cases hp : p a = true
      · rw [List.filter_cons_of_pos hp, List.dedup_cons_of_mem (List.mem_filter.mpr ⟨ha, hp⟩)]
      · rw [List.filter_cons_of_neg hp]
    · rw [List.dedup_cons_of_notMem ha]
      by_cases hp : p a = true
      · have hfilter : a ∉ l.filter p := fun h => ha (List.mem_filter.mp h).1
        rw [List.filter_cons_of_pos hp, List.filter_cons_of_pos hp,
          List.dedup_cons_of_notMem hfilter, ih]
      · rw [List.filter_cons_of_neg hp, List.filter_cons_of_neg hp, ih]

variable {r : ρ → ρ → Prop} [DecidableRel r] [IsTrans ρ r]

theorem filter_orderedInsert (a : ρ) {l : List ρ} (h : l.Pairwise r) :
    (l.orderedInsert r a).filter p =
      if p a then (l.filter p).orderedInsert r a else l.filter p := by
  induction l with
  | nil =>
    by_cases hp : p a = true
    · simp [hp]
    · simp [hp]
  | cons b l ih =>
    obtain ⟨hb, hl⟩ := List.pairwise_cons.mp h
    by_cases hab : r a b
    · rw [List.orderedInsert_cons, if_pos hab]
      by_cases hp : p a = true
      · rw [List.filter_cons_of_pos hp, if_pos hp]
        -- whatever comes first in the rest, `a` goes before it
        symm
        cases hfilter : (b :: l).filter p with
        | nil => rfl
        | cons c rest =>
          have hc : c ∈ b :: l := (List.mem_filter.mp (hfilter ▸ List.mem_cons_self)).1
          have hac : r a c := by
            rcases List.mem_cons.mp hc with rfl | hc
            · exact hab
            · exact IsTrans.trans a b c hab (hb c hc)
          rw [List.orderedInsert_cons, if_pos hac]
      · rw [List.filter_cons_of_neg hp, if_neg hp]
    · rw [List.orderedInsert_cons, if_neg hab]
      by_cases hpb : p b = true
      · rw [List.filter_cons_of_pos hpb, ih hl, List.filter_cons_of_pos hpb,
          List.orderedInsert_cons, if_neg hab]
        split <;> rfl
      · rw [List.filter_cons_of_neg hpb, ih hl, List.filter_cons_of_neg hpb]

/-- A condition on the rows can be checked before they are ordered. -/
theorem filter_insertionSort [Std.Total r] (l : List ρ) :
    (l.insertionSort r).filter p = (l.filter p).insertionSort r := by
  induction l with
  | nil => rfl
  | cons a l ih =>
    rw [List.insertionSort_cons, filter_orderedInsert a (List.pairwise_insertionSort r l), ih]
    by_cases hp : p a = true
    · rw [if_pos hp, List.filter_cons_of_pos hp, List.insertionSort_cons]
    · rw [if_neg hp, List.filter_cons_of_neg hp]

end ordered
end Relational
