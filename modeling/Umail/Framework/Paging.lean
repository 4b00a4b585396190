import Mathlib.Data.List.Sort
import Mathlib.Order.Basic

/-! # Keyset paging

  A listing is read page by page: a page holds the next rows in the order of
  their keys, and the key of its last row is where the next page starts. Here:
  what one page is, what a client sees that follows the cursors from page to
  page while the rows may change in between, and the two facts about it. No
  row is seen twice, and a row that is there all the time is seen.

  A client sees items and cursors of its own; `Session.simulate` relates them
  to rows and keys.
-/

namespace Paging

/-! ### One page -/

section page
variable {ρ κ : Type} [LinearOrder κ]

/-- The rows after `start`, up to and including the one with the key `next`. -/
structure IsPage (key : ρ → κ) (rows : List ρ) (start : Option κ) (page : List ρ)
    (next : Option κ) : Prop where
  sorted : page.Pairwise fun a b => key a < key b
  mem : ∀ r, r ∈ page ↔ r ∈ rows ∧ (∀ c ∈ start, c < key r) ∧
    ∀ c ∈ next, key r ≤ c
  /-- The next page starts at a row of this one. -/
  progress : ∀ c ∈ next, ∃ r ∈ page, key r = c

variable {key : ρ → κ} {rows : List ρ} {order : ρ → ρ → Prop} [DecidableRel order]

theorem sorted_lt (horder : ∀ a b, order a b ↔ key a ≤ key b)
    (hdistinct : (rows.map key).Nodup) :
    (rows.insertionSort order).Pairwise fun a b => key a < key b := by
  have htotal : Std.Total order := ⟨fun a b => by
    rw [horder, horder]
    exact le_total _ _⟩
  have htrans : IsTrans ρ order := ⟨fun a b c => by
    rw [horder, horder, horder]
    exact le_trans⟩
  have hne : (rows.insertionSort order).Pairwise fun a b => key a ≠ key b := by
    have hkeys : ((rows.insertionSort order).map key).Nodup :=
      ((List.perm_insertionSort order rows).map key).nodup_iff.mpr hdistinct
    exact List.pairwise_map.mp hkeys
  refine ((List.pairwise_insertionSort order rows).and hne).imp ?_
  intro a b h
  exact lt_of_le_of_ne ((horder a b).mp h.1) h.2

/-- The first rows of a sorted list, with a look at whether there are more. -/
theorem isPage_take {sorted : List ρ} {start : Option κ} {limit : Nat} (hlimit : 0 < limit)
    (hsorted : sorted.Pairwise fun a b => key a < key b)
    (hmem : ∀ r, r ∈ sorted ↔ r ∈ rows ∧ ∀ c ∈ start, c < key r) :
    IsPage key rows start (sorted.take limit)
      (if sorted.length ≤ limit then none else (sorted.take limit).getLast?.map key) := by
  have hpage := hsorted.sublist (List.take_sublist limit sorted)
  split
  · next hshort =>
    rw [List.take_of_length_le hshort] at hpage ⊢
    refine ⟨hpage, ?_, fun c hc => absurd hc (by simp)⟩
    intro r
    rw [hmem]
    simp
  · next hlong =>
    -- the page ends with a row, and every row after it has a larger key
    have hlength : (sorted.take limit).length = limit := by
      rw [List.length_take]
      omega
    have hne : sorted.take limit ≠ [] := by
      intro hnil
      rw [hnil, List.length_nil] at hlength
      omega
    have hlast : (sorted.take limit).getLast? = some ((sorted.take limit).getLast hne) :=
      List.getLast?_eq_some_getLast hne
    set last := (sorted.take limit).getLast hne with hlastdef
    have hlastmem : last ∈ sorted.take limit := List.getLast_mem hne
    have hfront : ∀ r ∈ sorted.take limit, key r ≤ key last := by
      intro r hr
      rw [← List.dropLast_append_getLast hne, List.mem_append, List.mem_singleton] at hr
      rcases hr with hr | rfl
      · rw [← List.dropLast_append_getLast hne] at hpage
        exact le_of_lt ((List.pairwise_append.mp hpage).2.2 r hr last (List.mem_singleton_self _))
      · exact le_refl _
    have hback : ∀ r ∈ sorted.drop limit, key last < key r := by
      intro r hr
      rw [← List.take_append_drop limit sorted] at hsorted
      exact (List.pairwise_append.mp hsorted).2.2 last hlastmem r hr
    rw [hlast]
    refine ⟨hpage, ?_, ?_⟩
    · intro r
      simp only [Option.map_some, Option.mem_some_iff, forall_eq']
      constructor
      · intro hr
        obtain ⟨hrows, hstart⟩ := (hmem r).mp (List.mem_of_mem_take hr)
        exact ⟨hrows, hstart, hfront r hr⟩
      · rintro ⟨hrows, hstart, hle⟩
        have hr := (hmem r).mpr ⟨hrows, hstart⟩
        rw [← List.take_append_drop limit sorted, List.mem_append] at hr
        rcases hr with hr | hr
        · exact hr
        · exact absurd hle (not_le_of_gt (hback r hr))
    · intro c hc
      obtain rfl : key last = c := by simpa using hc
      exact ⟨last, hlastmem, rfl⟩

/-- The page of the rows that a query finds after `start`. -/
theorem isPage_sorted {start : Option κ} {limit : Nat} (hlimit : 0 < limit)
    (horder : ∀ a b, order a b ↔ key a ≤ key b) (hdistinct : (rows.map key).Nodup)
    {after : ρ → Bool} (hafter : ∀ r ∈ rows, after r = true ↔ ∀ c ∈ start, c < key r)
    {sorted : List ρ} (hsorted : sorted = (rows.filter after).insertionSort order) :
    IsPage key rows start (sorted.take limit)
      (if sorted.length ≤ limit then none else (sorted.take limit).getLast?.map key) := by
  have hfilter : ((rows.filter after).map key).Nodup :=
    hdistinct.sublist (List.filter_sublist.map key)
  apply isPage_take hlimit
  · rw [hsorted]
    exact sorted_lt horder hfilter
  · intro r
    rw [hsorted, List.mem_insertionSort, List.mem_filter]
    constructor
    · rintro ⟨hrows, hr⟩
      exact ⟨hrows, (hafter r hrows).mp hr⟩
    · rintro ⟨hrows, hr⟩
      exact ⟨hrows, (hafter r hrows).mpr hr⟩

end page

/-! ### Sessions -/

/-- A client fetches a page in `s` from `start` and follows the cursors, each
    page from a later state: the states with the items seen there, and the
    cursor after the last page. -/
inductive Session {σ γ ι : Type} (step : σ → σ → Prop)
    (fetch : σ → Option γ → List ι → Option γ → Prop) :
    σ → Option γ → List (σ × List ι) → Option γ → Prop where
  | page {s : σ} {start next : Option γ} {items : List ι} :
      fetch s start items next → Session step fetch s start [(s, items)] next
  | more {s s' : σ} {start last : Option γ} {next : γ} {items : List ι}
      {visits : List (σ × List ι)} :
      fetch s start items (some next) → step s s' →
        Session step fetch s' (some next) visits last →
          Session step fetch s start ((s, items) :: visits) last

/-- Everything a client has seen. -/
def seen {σ ι : Type} (visits : List (σ × List ι)) : List ι := visits.flatMap (·.2)

theorem mem_seen {σ ι : Type} {visits : List (σ × List ι)} {item : ι} :
    item ∈ seen visits ↔ ∃ v ∈ visits, item ∈ v.2 := List.mem_flatMap

section sessions
variable {σ ρ κ : Type} [LinearOrder κ] {key : ρ → κ} {rows : σ → List ρ}
  {step : σ → σ → Prop}
  {s : σ} {start last : Option κ} {visits : List (σ × List ρ)}

/-- The rows of a session come in the order of their keys. -/
theorem Session.sorted (h : Session step (fun s => IsPage key (rows s)) s start visits last) :
    (seen visits).Pairwise (fun a b => key a < key b) ∧
      ∀ r ∈ seen visits, ∀ c ∈ start, c < key r := by
  induction h with
  | @page s start next items hpage =>
    have hseen : seen [(s, items)] = items := List.append_nil _
    rw [hseen]
    exact ⟨hpage.sorted, fun r hr => ((hpage.mem r).mp hr).2.1⟩
  | @more s s' start last next items visits hpage hstep _ ih =>
    have hseen : seen ((s, items) :: visits) = items ++ seen visits := rfl
    rw [hseen]
    refine ⟨List.pairwise_append.mpr ⟨hpage.sorted, ih.1, ?_⟩, ?_⟩
    · intro a ha b hb
      -- the cursor lies between the two pages
      have hlast := ((hpage.mem a).mp ha).2.2 next rfl
      exact lt_of_le_of_lt hlast (ih.2 b hb next rfl)
    · intro r hr c hc
      rcases List.mem_append.mp hr with hr | hr
      · exact ((hpage.mem r).mp hr).2.1 c hc
      · obtain ⟨first, hfirst, hkey⟩ := hpage.progress next rfl
        have hstart := ((hpage.mem first).mp hfirst).2.1 c hc
        exact lt_trans (hkey ▸ hstart) (ih.2 r hr next rfl)

/-- A key that is there at every visit of a finished session is seen. -/
theorem Session.complete
    (h : Session step (fun s => IsPage key (rows s)) s start visits none) {k : κ}
    (hk : ∀ v ∈ visits, ∃ r ∈ rows v.1, key r = k) (hstart : ∀ c ∈ start, c < k) :
    ∃ r ∈ seen visits, key r = k := by
  generalize hlast : (none : Option κ) = last at h
  induction h with
  | @page s start next items hpage =>
    obtain ⟨r, hr, rfl⟩ := hk _ List.mem_cons_self
    refine ⟨r, mem_seen.mpr ⟨_, List.mem_cons_self, ?_⟩, rfl⟩
    exact (hpage.mem r).mpr ⟨hr, hstart, fun c hc => absurd hc (by simp [← hlast])⟩
  | @more s s' start last next items visits hpage hstep _ ih =>
    obtain ⟨r, hr, rfl⟩ := hk _ List.mem_cons_self
    -- the row is on this page, or its key is beyond the cursor and a later page has it
    by_cases hle : key r ≤ next
    · refine ⟨r, mem_seen.mpr ⟨_, List.mem_cons_self, ?_⟩, rfl⟩
      refine (hpage.mem r).mpr ⟨hr, hstart, fun c hc => ?_⟩
      obtain rfl : next = c := by simpa using hc
      exact hle
    · obtain ⟨r', hr', hkey⟩ := ih (fun v hv => hk v (List.mem_cons_of_mem _ hv))
        (fun c hc => by
          obtain rfl : next = c := by simpa using hc
          exact lt_of_not_ge hle) hlast
      obtain ⟨v, hv, hmem⟩ := mem_seen.mp hr'
      exact ⟨r', mem_seen.mpr ⟨v, List.mem_cons_of_mem _ hv, hmem⟩, hkey⟩

/-- What is seen is in the state of its visit. -/
theorem Session.mem_rows (h : Session step (fun s => IsPage key (rows s)) s start visits last) :
    ∀ v ∈ visits, ∀ r ∈ v.2, r ∈ rows v.1 := by
  induction h with
  | page hpage =>
    intro v hv r hr
    obtain rfl := List.mem_singleton.mp hv
    exact ((hpage.mem r).mp hr).1
  | more hpage _ _ ih =>
    intro v hv r hr
    rcases List.mem_cons.mp hv with rfl | hv
    · exact ((hpage.mem r).mp hr).1
    · exact ih v hv r hr

end sessions

/-! ### Rows that change between the pages -/

section identity
variable {σ ρ κ β : Type} [LinearOrder κ] {key : ρ → κ} {id : ρ → β} {rows : σ → List ρ}
  {step : σ → σ → Prop} {s : σ} {start last : Option κ} {visits : List (σ × List ρ)}

/-- The visits of a session come one after the other. -/
theorem Session.later {γ ι : Type} {fetch : σ → Option γ → List ι → Option γ → Prop}
    {start last : Option γ} {visits : List (σ × List ι)}
    (htrans : ∀ ⦃a b c⦄, step a b → step b c → step a c)
    (h : Session step fetch s start visits last) : ∀ v ∈ visits, v.1 = s ∨ step s v.1 := by
  induction h with
  | page _ =>
    intro v hv
    obtain rfl := List.mem_singleton.mp hv
    exact .inl rfl
  | more _ hstep _ ih =>
    intro v hv
    rcases List.mem_cons.mp hv with rfl | hv
    · exact .inl rfl
    · rcases ih v hv with heq | hlater
      · exact .inr (heq ▸ hstep)
      · exact .inr (htrans hstep hlater)

theorem Session.comparable {γ ι : Type}
    {fetch : σ → Option γ → List ι → Option γ → Prop}
    {start last : Option γ} {visits : List (σ × List ι)}
    (htrans : ∀ ⦃a b c⦄, step a b → step b c → step a c)
    (h : Session step fetch s start visits last) :
    ∀ v ∈ visits, ∀ w ∈ visits, v.1 = w.1 ∨ step v.1 w.1 ∨ step w.1 v.1 := by
  induction h with
  | page _ =>
    intro v hv w hw
    obtain rfl := List.mem_singleton.mp hv
    obtain rfl := List.mem_singleton.mp hw
    exact .inl rfl
  | @more s s' start last next items visits hfetch hstep hrest ih =>
    -- the first visit comes before all others
    have hlater : ∀ v ∈ visits, step s v.1 := by
      intro v hv
      rcases hrest.later htrans v hv with heq | hlater
      · exact heq ▸ hstep
      · exact htrans hstep hlater
    intro v hv w hw
    rcases List.mem_cons.mp hv with rfl | hv <;> rcases List.mem_cons.mp hw with rfl | hw
    · exact .inl rfl
    · exact .inr (.inl (hlater w hw))
    · exact .inr (.inr (hlater v hv))
    · exact ih v hv w hw

/-- A row keeps its key from one state to the next, and the key says which row it is. -/
structure Stable (key : ρ → κ) (id : ρ → β) (rows : σ → List ρ)
    (step : σ → σ → Prop) : Prop where
  trans : ∀ ⦃a b c⦄, step a b → step b c → step a c
  within : ∀ s, ∀ r ∈ rows s, ∀ r' ∈ rows s, id r = id r' → key r = key r'
  between : ∀ s s', step s s' → ∀ r ∈ rows s, ∀ r' ∈ rows s', id r = id r' →
    key r = key r'
  names : ∀ r r', key r = key r' → id r = id r'

omit [LinearOrder κ] in
/-- Rows of two visits with the same identity have the same key. -/
theorem Session.key_eq {γ ι : Type} {fetch : σ → Option γ → List ι → Option γ → Prop}
    {start last : Option γ} {visits : List (σ × List ι)} (hstable : Stable key id rows step)
    (h : Session step fetch s start visits last) {v w : σ × List ι} (hv : v ∈ visits)
    (hw : w ∈ visits) {r r' : ρ} (hr : r ∈ rows v.1) (hr' : r' ∈ rows w.1)
    (hid : id r = id r') :
    key r = key r' := by
  rcases h.comparable hstable.trans v hv w hw with heq | hstep | hstep
  · exact hstable.within v.1 r hr r' (heq ▸ hr') hid
  · exact hstable.between v.1 w.1 hstep r hr r' hr' hid
  · exact (hstable.between w.1 v.1 hstep r' hr' r hr hid.symm).symm

/-- **No repetition.** No row is seen twice. -/
theorem Session.nodup (hstable : Stable key id rows step)
    (h : Session step (fun s => IsPage key (rows s)) s start visits last) :
    ((seen visits).map id).Nodup := by
  apply List.pairwise_map.mpr
  refine h.sorted.1.imp_of_mem ?_
  intro a b ha hb hlt hid
  obtain ⟨v, hv, hav⟩ := mem_seen.mp ha
  obtain ⟨w, hw, hbw⟩ := mem_seen.mp hb
  have hkey := h.key_eq hstable hv hw (h.mem_rows v hv a hav) (h.mem_rows w hw b hbw) hid
  exact absurd hkey (ne_of_lt hlt)

/-- **No omission.** A row that is there at every visit of a finished session
    is seen. -/
theorem Session.exists_seen (hstable : Stable key id rows step)
    (h : Session step (fun s => IsPage key (rows s)) s none visits none) {b : β}
    (hb : ∀ v ∈ visits, ∃ r ∈ rows v.1, id r = b) : ∃ r ∈ seen visits, id r = b := by
  obtain ⟨v₀, hv₀⟩ : ∃ v, v ∈ visits := by
    cases h with
    | page _ => exact ⟨_, List.mem_cons_self⟩
    | more _ _ _ => exact ⟨_, List.mem_cons_self⟩
  obtain ⟨r₀, hr₀, rfl⟩ := hb v₀ hv₀
  have hk : ∀ v ∈ visits, ∃ r ∈ rows v.1, key r = key r₀ := by
    intro v hv
    obtain ⟨r, hr, hid⟩ := hb v hv
    exact ⟨r, hr, h.key_eq hstable hv hv₀ hr hr₀ hid⟩
  obtain ⟨r, hr, hkey⟩ := h.complete hk fun c hc => absurd hc (by simp)
  exact ⟨r, hr, hstable.names r r₀ hkey⟩

end identity

/-! ### What a client sees -/

section client
variable {σ ρ κ ι γ : Type} [LinearOrder κ]

/-- How the pages of a listing are served: the client's cursors stand for keys
    and its items show rows. -/
structure Serves (key : ρ → κ) (rows : σ → List ρ) (good : σ → Prop)
    (step : σ → σ → Prop)
    (fetch : σ → Option γ → List ι → Option γ → Prop) (Reads : γ → κ → Prop)
    (Shows : σ → ι → ρ → Prop) : Prop where
  kept : ∀ s s', good s → step s s' → good s'
  /-- A page is served from every cursor. -/
  served : ∀ s, good s → ∀ cursor start, Option.Rel Reads cursor start →
    ∃ items next, fetch s cursor items next
  /-- It is the page of the rows. -/
  isPage : ∀ s, good s → ∀ cursor start items next, Option.Rel Reads cursor start →
    fetch s cursor items next → ∃ page last, IsPage key (rows s) start page last ∧
      List.Forall₂ (Shows s) items page ∧ Option.Rel Reads next last

variable {key : ρ → κ} {rows : σ → List ρ} {good : σ → Prop} {step : σ → σ → Prop}
  {fetch : σ → Option γ → List ι → Option γ → Prop} {Reads : γ → κ → Prop}
  {Shows : σ → ι → ρ → Prop} {s : σ}

/-- A visit of the client, and the visit of the rows that it shows. -/
def SameVisit (Shows : σ → ι → ρ → Prop) (v : σ × List ι) (v' : σ × List ρ) : Prop :=
  v.1 = v'.1 ∧ List.Forall₂ (Shows v.1) v.2 v'.2

/-- **Simulation.** A session of the client is a session on rows. -/
theorem Session.simulate (hserves : Serves key rows good step fetch Reads Shows) (hs : good s)
    {cursor last : Option γ} {start : Option κ} {visits : List (σ × List ι)}
    (hcursor : Option.Rel Reads cursor start) (h : Session step fetch s cursor visits last) :
    ∃ visits' last', Session step (fun s => IsPage key (rows s)) s start visits' last' ∧
      Option.Rel Reads last last' ∧
      List.Forall₂ (SameVisit Shows) visits visits' := by
  induction h generalizing start with
  | page hfetch =>
    obtain ⟨page, last', hpage, hshows, hnext⟩ := hserves.isPage _ hs _ _ _ _ hcursor hfetch
    exact ⟨_, last', .page hpage, hnext, .cons ⟨rfl, hshows⟩ .nil⟩
  | more hfetch hstep _ ih =>
    obtain ⟨page, last', hpage, hshows, hnext⟩ := hserves.isPage _ hs _ _ _ _ hcursor hfetch
    cases hnext with
    | some hread =>
      obtain ⟨visits', last'', hsession, hlast, hvisits⟩ :=
        ih (hserves.kept _ _ hs hstep) (.some hread)
      exact ⟨_, last'', .more hpage hstep hsession, hlast, .cons ⟨rfl, hshows⟩ hvisits⟩

/-- With the rows at rest, following the cursors comes to an end. -/
theorem exists_session (hserves : Serves key rows good step fetch Reads Shows) (hs : good s)
    (cursor : Option γ) (start : Option κ) (hcursor : Option.Rel Reads cursor start) :
    ∃ visits, Session Eq fetch s cursor visits none := by
  classical
  -- the rows that are still to come
  induction hn : ((rows s).filter fun r => ∀ c ∈ start, c < key r).length using
    Nat.strong_induction_on
    generalizing cursor start with
  | _ n ih =>
    obtain ⟨items, next, hfetch⟩ := hserves.served s hs cursor start hcursor
    obtain ⟨page, last, hpage, -, hnext⟩ := hserves.isPage s hs _ _ _ _ hcursor hfetch
    cases hnext with
    | none => exact ⟨_, .page hfetch⟩
    | @some next last hread =>
      obtain ⟨r, hr, hkey⟩ := hpage.progress last rfl
      obtain ⟨hrows, hstart, -⟩ := (hpage.mem r).mp hr
      have hfewer : ((rows s).filter fun r => ∀ c ∈ some last, c < key r).length < n := by
        have hsub : ((rows s).filter fun r => ∀ c ∈ some last, c < key r) =
            ((rows s).filter fun r => ∀ c ∈ start, c < key r).filter
              fun r => ∀ c ∈ some last, c < key r := by
          rw [List.filter_filter]
          apply List.filter_congr
          intro x _
          simp only [Option.mem_some_iff, forall_eq', ← Bool.decide_and, decide_eq_decide]
          refine ⟨fun hlt => ⟨hlt, fun c hc => ?_⟩, fun h => h.1⟩
          exact lt_trans (hkey ▸ hstart c hc) hlt
        rw [← hn, hsub]
        apply List.length_filter_lt_length_iff_exists.mpr
        refine ⟨r, List.mem_filter.mpr ⟨hrows, decide_eq_true hstart⟩, ?_⟩
        simp [hkey]
      obtain ⟨visits, hsession⟩ := ih _ hfewer (some next) (some last) (.some hread) rfl
      exact ⟨_, .more hfetch rfl hsession⟩

/-- The service does not depend on what happens between the pages. -/
theorem Serves.atRest (h : Serves key rows good step fetch Reads Shows) :
    Serves key rows good Eq fetch Reads Shows where
  kept _ _ hs heq := heq ▸ hs
  served := h.served
  isPage := h.isPage

/-- A session at rest stays in its state. -/
theorem Session.visits_eq {cursor last : Option γ} {visits : List (σ × List ι)}
    (h : Session Eq fetch s cursor visits last) : ∀ v ∈ visits, v.1 = s := by
  intro v hv
  have htrans : ∀ ⦃a b c : σ⦄, a = b → b = c → a = c := fun _ _ _ => Eq.trans
  rcases h.later htrans v hv with heq | heq
  · exact heq
  · exact heq.symm

/-- What is seen in one state shows the rows that are seen. -/
theorem seen_shows {visits : List (σ × List ι)} {visits' : List (σ × List ρ)}
    (h : List.Forall₂ (SameVisit Shows) visits visits') (hs : ∀ v ∈ visits, v.1 = s) :
    List.Forall₂ (Shows s) (seen visits) (seen visits') := by
  induction h with
  | nil => exact .nil
  | @cons v v' visits visits' hv _ ih =>
    have hhead : List.Forall₂ (Shows s) v.2 v'.2 := hs v List.mem_cons_self ▸ hv.2
    exact List.rel_append hhead (ih fun w hw => hs w (List.mem_cons_of_mem _ hw))

theorem exists_related {α β : Type} {R : α → β → Prop} {xs : List α} {ys : List β}
    (h : List.Forall₂ R xs ys) {y : β} (hy : y ∈ ys) : ∃ x ∈ xs, R x y := by
  induction h with
  | nil => exact absurd hy List.not_mem_nil
  | @cons x' y' xs ys hrel _ ih =>
    rcases List.mem_cons.mp hy with rfl | hy
    · exact ⟨x', List.mem_cons_self, hrel⟩
    · obtain ⟨x, hx, hxy⟩ := ih hy
      exact ⟨x, List.mem_cons_of_mem _ hx, hxy⟩

/-- The items seen have the identities of the rows seen. -/
theorem seen_ids {β : Type} {rowId : ρ → β} {id : ι → β}
    (hids : ∀ s item r, Shows s item r → id item = rowId r)
    {visits : List (σ × List ι)} {visits' : List (σ × List ρ)}
    (h : List.Forall₂ (SameVisit Shows) visits visits') :
    (seen visits).map id = (seen visits').map rowId := by
  induction h with
  | nil => rfl
  | @cons v v' visits visits' hv _ ih =>
    show (v.2 ++ seen visits).map id = (v'.2 ++ seen visits').map rowId
    have hhead : v.2.map id = v'.2.map rowId := by
      rw [← List.forall₂_eq_eq_eq, List.forall₂_map_left_iff, List.forall₂_map_right_iff]
      exact hv.2.imp fun item r => hids v.1 item r
    rw [List.map_append, List.map_append, hhead, ih]

/-- At rest a finished session has seen all rows, in order. -/
theorem Session.all_seen {order : ρ → ρ → Prop} [DecidableRel order]
    (hserves : Serves key rows good step fetch Reads Shows) (hs : good s)
    (horder : ∀ a b, order a b ↔ key a ≤ key b) (hdistinct : ((rows s).map key).Nodup)
    {visits : List (σ × List ι)} (hsession : Session Eq fetch s none visits none) :
    List.Forall₂ (Shows s) (seen visits) ((rows s).insertionSort order) := by
  obtain ⟨visits', last, hrows, hlast, hvisits⟩ :=
    hsession.simulate hserves.atRest hs .none
  cases hlast
  have hshows := seen_shows hvisits hsession.visits_eq
  have hsorted := sorted_lt horder hdistinct
  have hinj : ∀ r ∈ rows s, ∀ r' ∈ rows s, key r = key r' → r = r' := by
    intro r hr r' hr'
    exact List.inj_on_of_nodup_map hdistinct hr hr'
  -- the rows seen are the rows there are, in the same order
  have hmem : ∀ r, r ∈ seen visits' ↔ r ∈ (rows s).insertionSort order := by
    intro r
    rw [List.mem_insertionSort]
    constructor
    · intro hr
      obtain ⟨v, hv, hmem⟩ := mem_seen.mp hr
      exact hrows.visits_eq v hv ▸ hrows.mem_rows v hv r hmem
    · intro hr
      obtain ⟨r', hr', hkey⟩ := hrows.complete
        (fun v hv => ⟨r, (hrows.visits_eq v hv).symm ▸ hr, rfl⟩) fun c hc =>
          absurd hc (by simp)
      obtain ⟨v, hv, hmem⟩ := mem_seen.mp hr'
      have hin : r' ∈ rows s := hrows.visits_eq v hv ▸ hrows.mem_rows v hv r' hmem
      exact hinj r' hin r hr hkey ▸ hr'
  have heq : seen visits' = (rows s).insertionSort order := by
    have hnodup : (seen visits').Nodup :=
      hrows.sorted.1.imp fun hlt heq => absurd (congrArg key heq) (ne_of_lt hlt)
    have hnodup' : ((rows s).insertionSort order).Nodup :=
      hsorted.imp fun hlt heq => absurd (congrArg key heq) (ne_of_lt hlt)
    refine ((List.perm_ext_iff_of_nodup hnodup hnodup').mpr hmem).eq_of_pairwise ?_
      hrows.sorted.1 hsorted
    exact fun a b _ _ hab hba => absurd hab (lt_asymm hba)
  rw [← heq]
  exact hshows

/-- What a client learns that follows the cursors of a listing. -/
structure Enumerates {β : Type} (good : σ → Prop) (step : σ → σ → Prop)
    (fetch : σ → Option γ → List ι → Option γ → Prop) (all : σ → List ι → Prop)
    (id : ι → β)
    (matching : σ → β → Prop) (accepted : γ → Prop) : Prop where
  /-- At rest the cursors come to an end. -/
  ends : ∀ s, good s → ∃ visits, Session Eq fetch s none visits none
  /-- At the end everything has been seen once and in order. -/
  atRest : ∀ s visits, good s → Session Eq fetch s none visits none → all s (seen visits)
  /-- Nothing is seen twice, whatever happens between the pages. -/
  once : ∀ s visits last, good s → Session step fetch s none visits last →
    ((seen visits).map id).Nodup
  /-- What matches at every visit has been seen at the end. -/
  complete : ∀ s visits b, good s → Session step fetch s none visits none →
    (∀ v ∈ visits, matching v.1 b) → ∃ item ∈ seen visits, id item = b
  /-- No cursor is refused. -/
  accepted : ∀ s visits cursor, good s → Session step fetch s none visits (some cursor) →
    accepted cursor

/-- **Paging.** A listing that is served by pages of rows with stable keys. -/
theorem enumerates {β : Type} {rowId : ρ → β} {id : ι → β} {order : ρ → ρ → Prop}
    [DecidableRel order] {accepted : γ → Prop}
    (hserves : Serves key rows good step fetch Reads Shows) (hstable : Stable key rowId rows step)
    (horder : ∀ a b, order a b ↔ key a ≤ key b)
    (hdistinct : ∀ s, good s → ((rows s).map key).Nodup)
    (hids : ∀ s item r, Shows s item r → id item = rowId r)
    (haccepted : ∀ cursor start, Reads cursor start → accepted cursor) :
    Enumerates good step fetch
      (fun s items => List.Forall₂ (Shows s) items ((rows s).insertionSort order)) id
      (fun s b => ∃ r ∈ rows s, rowId r = b) accepted where
  ends s hs := exists_session hserves hs none none .none
  atRest s visits hs hsession := hsession.all_seen hserves hs horder (hdistinct s hs)
  once s visits last hs h := by
    obtain ⟨visits', last', hrows, -, hvisits⟩ := h.simulate hserves hs .none
    rw [seen_ids hids hvisits]
    exact hrows.nodup hstable
  complete s visits b hs h hb := by
    obtain ⟨visits', last', hrows, hlast, hvisits⟩ := h.simulate hserves hs .none
    cases hlast
    -- the row is there at every visit of the session below, since it is at every visit above
    have hb' : ∀ v' ∈ visits', ∃ r ∈ rows v'.1, rowId r = b := by
      intro v' hv'
      obtain ⟨v, hv, heq, -⟩ := exists_related hvisits hv'
      exact heq ▸ hb v hv
    obtain ⟨r, hr, hid⟩ := hrows.exists_seen hstable hb'
    have hmem : b ∈ (seen visits).map id := by
      rw [seen_ids hids hvisits]
      exact List.mem_map.mpr ⟨r, hr, hid⟩
    exact List.mem_map.mp hmem
  accepted s visits cursor hs h := by
    obtain ⟨visits', last, -, hlast, -⟩ := h.simulate hserves hs .none
    cases hlast with
    | some hread => exact haccepted cursor _ hread

end client

end Paging
