import SqlAccess.Bytes

/-!
# Maps keyed by names

Parameters, columns, keys and handles are looked up by name. A `NameMap` keeps its entries in
byte order of their names, each name once, so a map is determined by what it finds
(`NameMap.ext_find?`) and listing it needs no sorting.

Each operation is described by its effect on `find?`: `find?_empty`, `find?_insert`,
`find?_erase` and `find?_update`.
-/

namespace SqlAccess

universe u

/-- A finite map from names, in byte order of the names. -/
structure NameMap (α : Type u) where
  /-- The names with their values. -/
  entries : List (Bytes × α)
  /-- Each name occurs once, in its place. -/
  sorted : entries.Pairwise fun a b => a.1 < b.1

namespace NameMap

variable {α : Type u}

/-- The map without entries. -/
def empty : NameMap α := ⟨[], .nil⟩

instance : Inhabited (NameMap α) := ⟨empty⟩

/-- The value of a name, if it has one. -/
def find? (m : NameMap α) (name : Bytes) : Option α := m.entries.lookup name

/-- Whether a name has a value. -/
def contains (m : NameMap α) (name : Bytes) : Bool := (m.find? name).isSome

/-- The names in byte order. -/
def names (m : NameMap α) : List Bytes := m.entries.map (·.1)

/-! ## Insertion -/

/-- Put an entry in its place, over an earlier one of the same name. -/
def insertEntry (name : Bytes) (value : α) : List (Bytes × α) → List (Bytes × α)
  | [] => [(name, value)]
  | e :: rest =>
    if name < e.1 then (name, value) :: e :: rest
    else if name = e.1 then (name, value) :: rest
    else e :: insertEntry name value rest

theorem mem_insertEntry {name : Bytes} {value : α} {e : Bytes × α} {l : List (Bytes × α)}
    (h : e ∈ insertEntry name value l) : e = (name, value) ∨ e ∈ l := by
  induction l with
  | nil => simpa [insertEntry] using h
  | cons a l ih =>
    simp only [insertEntry] at h
    split at h
    · simpa using h
    · split at h <;> grind

theorem insertEntry_sorted (name : Bytes) (value : α) {l : List (Bytes × α)}
    (h : l.Pairwise fun a b => a.1 < b.1) :
    (insertEntry name value l).Pairwise fun a b => a.1 < b.1 := by
  induction l with
  | nil => exact .cons (by simp) .nil
  | cons a l ih =>
    obtain ⟨ha, hl⟩ := List.pairwise_cons.1 h
    simp only [insertEntry]
    split
    · next hlt =>
      refine .cons (fun b hb => ?_) h
      rcases List.mem_cons.1 hb with rfl | hb
      · exact hlt
      · exact List.lt_trans hlt (ha b hb)
    · next hlt =>
      split
      · next heq => exact .cons (fun b hb => heq ▸ ha b hb) hl
      · next hne =>
        have hgt : a.1 < name :=
          (List.le_iff_lt_or_eq.1 (List.not_lt.1 hlt)).resolve_right (Ne.symm hne)
        refine .cons (fun b hb => ?_) (ih hl)
        rcases mem_insertEntry hb with rfl | hb
        · exact hgt
        · exact ha b hb

/-- Give a name a value, in place of an earlier one. -/
def insert (m : NameMap α) (name : Bytes) (value : α) : NameMap α :=
  ⟨insertEntry name value m.entries, insertEntry_sorted name value m.sorted⟩

/-- The map without a name. -/
def erase (m : NameMap α) (name : Bytes) : NameMap α :=
  ⟨m.entries.filter (·.1 != name), m.sorted.filter _⟩

/-- Give a name a value, or take its value away. -/
def update (m : NameMap α) (name : Bytes) : Option α → NameMap α
  | some value => m.insert name value
  | none => m.erase name

/-- The map of a list of entries, in which a later entry replaces an earlier one. -/
def ofList (l : List (Bytes × α)) : NameMap α := l.foldl (fun m e => m.insert e.1 e.2) empty

/-! ## What is found -/

@[simp] theorem find?_empty (name : Bytes) : (empty : NameMap α).find? name = none := rfl

theorem lookup_insertEntry (name : Bytes) (value : α) (l : List (Bytes × α)) (other : Bytes) :
    (insertEntry name value l).lookup other =
      if other = name then some value else l.lookup other := by
  induction l with
  | nil => grind [insertEntry]
  | cons a l ih => grind [insertEntry]

theorem find?_insert (m : NameMap α) (name : Bytes) (value : α) (other : Bytes) :
    (m.insert name value).find? other = if other = name then some value else m.find? other :=
  lookup_insertEntry name value m.entries other

theorem find?_erase (m : NameMap α) (name other : Bytes) :
    (m.erase name).find? other = if other = name then none else m.find? other := by
  simp only [find?, erase]
  induction m.entries with
  | nil => simp
  | cons a l ih =>
    obtain ⟨k, v⟩ := a
    by_cases hk : k = name <;> by_cases ho : other = k <;> grind

theorem find?_update (m : NameMap α) (name : Bytes) (value : Option α) (other : Bytes) :
    (m.update name value).find? other = if other = name then value else m.find? other := by
  cases value with
  | none => exact m.find?_erase name other
  | some value => exact m.find?_insert name value other

theorem lookup_entry (name : Bytes) (a : Bytes × α) (l : List (Bytes × α)) :
    (a :: l).lookup name = if name = a.1 then some a.2 else l.lookup name := by
  obtain ⟨k, v⟩ := a
  grind

theorem lookup_eq_none_of_lt {name : Bytes} {l : List (Bytes × α)} (h : ∀ e ∈ l, name < e.1) :
    l.lookup name = none := by
  induction l with
  | nil => rfl
  | cons a l ih =>
    have ha : name ≠ a.1 := fun heq => List.lt_irrefl a.1 (heq ▸ h a (by simp))
    rw [lookup_entry, if_neg ha]
    exact ih fun e he => h e (List.mem_cons_of_mem _ he)

theorem lookup_eq_none_of_lt_head {name : Bytes} {a : Bytes × α} {l : List (Bytes × α)}
    (h : ∀ e ∈ l, a.1 < e.1) (hlt : name < a.1) : (a :: l).lookup name = none :=
  lookup_eq_none_of_lt fun e he => by
    rcases List.mem_cons.1 he with rfl | he
    · exact hlt
    · exact List.lt_trans hlt (h e he)

theorem eq_of_lookup_eq {l k : List (Bytes × α)} (hl : l.Pairwise fun a b => a.1 < b.1)
    (hk : k.Pairwise fun a b => a.1 < b.1) (h : ∀ name, l.lookup name = k.lookup name) :
    l = k := by
  induction l generalizing k with
  | nil =>
    cases k with
    | nil => rfl
    | cons b k => simpa [lookup_entry] using h b.1
  | cons a l ih =>
    cases k with
    | nil => simpa [lookup_entry] using h a.1
    | cons b k =>
      obtain ⟨ha, hlt⟩ := List.pairwise_cons.1 hl
      obtain ⟨hb, hkt⟩ := List.pairwise_cons.1 hk
      have not_above : ¬b.1 < a.1 := fun hba => by
        have := h b.1
        rw [lookup_eq_none_of_lt_head ha hba] at this
        simp [lookup_entry] at this
      have not_below : ¬a.1 < b.1 := fun hab => by
        have := h a.1
        rw [lookup_eq_none_of_lt_head hb hab] at this
        simp [lookup_entry] at this
      have keys : a.1 = b.1 :=
        List.le_antisymm (List.not_lt.1 not_above) (List.not_lt.1 not_below)
      have heads : a = b := by
        refine Prod.ext keys ?_
        simpa [lookup_entry, keys] using h b.1
      subst heads
      congr 1
      refine ih hlt hkt fun name => ?_
      by_cases hn : name = a.1
      · rw [hn, lookup_eq_none_of_lt ha, lookup_eq_none_of_lt hb]
      · simpa [lookup_entry, hn] using h name

theorem lookup_eq_some_iff {name : Bytes} {value : α} {l : List (Bytes × α)}
    (h : l.Pairwise fun a b => a.1 < b.1) :
    l.lookup name = some value ↔ (name, value) ∈ l := by
  induction l with
  | nil => simp
  | cons a l ih =>
    obtain ⟨ha, hl⟩ := List.pairwise_cons.1 h
    rw [lookup_entry, List.mem_cons]
    by_cases hn : name = a.1
    · subst hn
      have hfresh : (a.1, value) ∉ l := fun hv => List.lt_irrefl a.1 (ha (a.1, value) hv)
      simp [hfresh, Prod.ext_iff, eq_comm]
    · have hne : (name, value) ≠ a := fun ha => hn (congrArg Prod.fst ha)
      simp [hn, hne, ih hl]

/-- The entries of a map are the names that it finds, with their values. -/
theorem mem_entries {m : NameMap α} {name : Bytes} {value : α} :
    (name, value) ∈ m.entries ↔ m.find? name = some value :=
  (lookup_eq_some_iff m.sorted).symm

/-- In a map made from a list of names, a name of the list has its value. -/
theorem find?_ofList_map (names : List Bytes) (f : Bytes → α) (name : Bytes) :
    (ofList (names.map fun n => (n, f n))).find? name =
      if name ∈ names then some (f name) else none := by
  suffices h : ∀ m : NameMap α,
      ((names.map fun n => (n, f n)).foldl (fun m e => m.insert e.1 e.2) m).find? name =
        if name ∈ names then some (f name) else m.find? name by
    simpa [ofList] using h empty
  induction names with
  | nil => intro m; simp
  | cons n names ih =>
    intro m
    rw [List.map_cons, List.foldl_cons, ih, find?_insert]
    by_cases hn : name = n <;> by_cases hmem : name ∈ names <;> simp [hn, hmem]

/-- Two maps that find the same values are the same map. -/
theorem ext_find? {m n : NameMap α} (h : ∀ name, m.find? name = n.find? name) : m = n := by
  obtain ⟨l, hl⟩ := m
  obtain ⟨k, hk⟩ := n
  obtain rfl : l = k := eq_of_lookup_eq hl hk h
  rfl

end NameMap

end SqlAccess
