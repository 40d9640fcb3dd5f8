import SqlAccess.Declarations

/-!
# Merging declarations

Merging is a union that is refused when a name would get two values. So each entry of the result
comes from one of the sets that were merged (`Declarations.foldlM_merge_eq_ok_iff`), and sets can be
merged if each two of them agree (`Declarations.exists_foldlM_merge_iff`); nothing else is asked of
them.
-/

namespace SqlAccess

section Bind

variable {α β : Type} {x : Except Fault α} {g : α → Except Fault β}

theorem bind_eq_ok_iff {b : β} : x >>= g = .ok b ↔ ∃ a, x = .ok a ∧ g a = .ok b := by
  cases x <;> simp [bind, Except.bind]

theorem bind_eq_error_iff {f : Fault} :
    x >>= g = .error f ↔ x = .error f ∨ ∃ a, x = .ok a ∧ g a = .error f := by
  cases x <;> simp [bind, Except.bind]

theorem map_eq_ok_iff {g : α → β} {b : β} : x.map g = .ok b ↔ ∃ a, x = .ok a ∧ g a = b := by
  cases x <;> simp [Except.map]

theorem map_eq_error_iff {g : α → β} {f : Fault} : x.map g = .error f ↔ x = .error f := by
  cases x <;> simp [Except.map]

end Bind

/-! ## Maps that agree -/

namespace NameMap

variable {α : Type} {u m n : NameMap α} {l : List (Bytes × α)} {name : Bytes} {value : α}

theorem contains_iff : m.contains name ↔ ∃ a, m.find? name = some a := by
  rw [contains, Option.isSome_iff_exists]

/-- No name has different values in two maps. -/
def Agree (m n : NameMap α) : Prop :=
  ∀ name a b, m.find? name = some a → n.find? name = some b → a = b

/-- A map has the entries of others, and no more. -/
def Collects (u : NameMap α) (ms : List (NameMap α)) : Prop :=
  ∀ name a, u.find? name = some a ↔ ∃ m ∈ ms, m.find? name = some a

theorem Agree.of_empty (m : NameMap α) : empty.Agree m := by
  intro _ _ _ h
  cases h

/-- Maps that are collected agree. -/
theorem Collects.agree {ms : List (NameMap α)} (h : u.Collects ms) (hm : m ∈ ms) (hn : n ∈ ms) :
    m.Agree n := fun name a b ha hb =>
  Option.some.inj (((h name a).2 ⟨m, hm, ha⟩).symm.trans ((h name b).2 ⟨n, hn, hb⟩))

theorem Collects.contains_iff {ms : List (NameMap α)} (h : u.Collects ms) :
    u.contains name ↔ ∃ m ∈ ms, m.contains name := by
  simp only [NameMap.contains_iff, h name]
  exact ⟨fun ⟨a, m, hm, ha⟩ => ⟨m, hm, a, ha⟩, fun ⟨m, hm, a, ha⟩ => ⟨a, m, hm, ha⟩⟩

theorem Collects.agree_of_forall {ms : List (NameMap α)} (h : u.Collects ms)
    (hms : ∀ m ∈ ms, m.Agree n) : u.Agree n := by
  intro name a b ha hb
  obtain ⟨m, hm, ha⟩ := (h name a).1 ha
  exact hms m hm name a b ha hb

/-- What is collected first may be collected with the others at once. -/
theorem Collects.cons_iff {ms ns : List (NameMap α)} (h : m.Collects ms) :
    u.Collects (m :: ns) ↔ u.Collects (ms ++ ns) := by
  simp [Collects, h _ _, or_and_right, exists_or]

/-- What is collected in parts is collected. -/
theorem Collects.flatMap {β : Type} {l : List β} {f : β → NameMap α} {g : β → List (NameMap α)}
    (h : u.Collects (l.map f)) (hl : ∀ b ∈ l, (f b).Collects (g b)) :
    u.Collects (l.flatMap g) := by
  intro name a
  simp only [h name a, List.mem_map, List.mem_flatMap]
  constructor
  · rintro ⟨-, ⟨b, hb, rfl⟩, ha⟩
    obtain ⟨m, hm, ha⟩ := (hl b hb name a).1 ha
    exact ⟨m, ⟨b, hb, hm⟩, ha⟩
  · rintro ⟨m, ⟨b, hb, hm⟩, ha⟩
    exact ⟨f b, ⟨b, hb, rfl⟩, (hl b hb name a).2 ⟨m, hm, ha⟩⟩

theorem collects_empty_cons {ms : List (NameMap α)} : u.Collects (empty :: ms) ↔ u.Collects ms := by
  simp [Collects]

theorem Collects.of_empty (m : NameMap α) : m.Collects [m, empty] := by
  simp [Collects]

/-- A map that finds what another one finds, and no more, is that map. -/
theorem eq_of_forall_iff (h : ∀ name a, m.find? name = some a ↔ n.find? name = some a) : m = n :=
  ext_find? fun name => Option.ext fun a => h name a

theorem find?_singleton {other : Bytes} {a : α} :
    (empty.insert name value).find? other = some a ↔ other = name ∧ a = value := by
  simp [find?_insert, @eq_comm _ a]

theorem collects_singleton : u.Collects [m] ↔ u = m := by
  constructor
  · intro h
    exact eq_of_forall_iff (by simpa [Collects] using h)
  · rintro rfl
    simp [Collects]

/-- An entry that is put over none of another value is one more entry. -/
theorem find?_insert_or_mem (h : ∀ b, m.find? name = some b → b = value) (other : Bytes) (a : α) :
    (m.insert name value).find? other = some a ∨ (other, a) ∈ l ↔
      m.find? other = some a ∨ (other, a) ∈ (name, value) :: l := by
  rw [find?_insert, List.mem_cons, Prod.mk.injEq]
  split
  · next hother =>
    subst hother
    grind
  · next hother => simp [hother]

end NameMap

/-! ## Adding entries -/

section Adds

variable {α : Type} {m n r : NameMap α} {l : List (Bytes × α)}
  {add : NameMap α → Bytes → α → Except Fault (NameMap α)}

/-- Adding an entry puts it into a map, or is a conflict if the name has another value there. -/
structure Adds (add : NameMap α → Bytes → α → Except Fault (NameMap α)) : Prop where
  ok : ∀ m name a r, add m name a = .ok r ↔
    (∀ b, m.find? name = some b → b = a) ∧ r = m.insert name a
  error : ∀ m name a f, add m name a = .error f → f.kind = .typeConflict

namespace Adds

variable (h : Adds add)
include h

/-- Adding entries one after another gives the map that has them as well. -/
theorem foldlM_eq_ok_iff : l.foldlM (fun m e => add m e.1 e.2) m = .ok r ↔
    ∀ name a, r.find? name = some a ↔ m.find? name = some a ∨ (name, a) ∈ l := by
  induction l generalizing m with
  | nil =>
    constructor
    · intro hr
      obtain rfl := Except.ok.inj hr
      simp
    · intro hr
      rw [NameMap.eq_of_forall_iff (m := r) (n := m) (by simpa using hr)]
      rfl
  | cons e l ih =>
    rw [List.foldlM_cons, bind_eq_ok_iff]
    constructor
    · rintro ⟨m', hadd, hr⟩ name a
      obtain ⟨hfree, rfl⟩ := (h.ok m e.1 e.2 m').1 hadd
      rw [ih.1 hr, NameMap.find?_insert_or_mem hfree]
    · intro hr
      have hfree : ∀ b, m.find? e.1 = some b → b = e.2 := fun b hb =>
        Option.some.inj <|
          ((hr e.1 b).2 (.inl hb)).symm.trans ((hr e.1 e.2).2 (.inr List.mem_cons_self))
      refine ⟨m.insert e.1 e.2, (h.ok m e.1 e.2 _).2 ⟨hfree, rfl⟩, ih.2 fun name a => ?_⟩
      rw [hr, NameMap.find?_insert_or_mem hfree]

theorem foldlM_error {f : Fault} (hf : l.foldlM (fun m e => add m e.1 e.2) m = .error f) :
    f.kind = .typeConflict := by
  induction l generalizing m with
  | nil => cases hf
  | cons e l ih =>
    rw [List.foldlM_cons, bind_eq_error_iff] at hf
    obtain hadd | ⟨m', -, hf⟩ := hf
    · exact h.error m e.1 e.2 f hadd
    · exact ih hf

/-- Entries can be added if the names have one value each. -/
theorem exists_foldlM {v : Bytes → Option α}
    (hm : ∀ name a, m.find? name = some a → v name = some a) (hl : ∀ e ∈ l, v e.1 = some e.2) :
    ∃ r, l.foldlM (fun m e => add m e.1 e.2) m = .ok r := by
  induction l generalizing m with
  | nil => exact ⟨m, rfl⟩
  | cons e l ih =>
    have he : v e.1 = some e.2 := hl e List.mem_cons_self
    have hfree : ∀ b, m.find? e.1 = some b → b = e.2 := fun b hb =>
      Option.some.inj ((hm e.1 b hb).symm.trans he)
    have hadded (name : Bytes) (a : α) (ha : (m.insert e.1 e.2).find? name = some a) :
        v name = some a := by
      obtain hm' | hname := (NameMap.find?_insert_or_mem (l := []) hfree name a).1 (.inl ha)
      · exact hm name a hm'
      · obtain ⟨rfl, rfl⟩ := Prod.mk.inj (List.mem_singleton.1 hname)
        exact he
    obtain ⟨r, hr⟩ := ih hadded fun e' he' => hl e' (List.mem_cons_of_mem _ he')
    refine ⟨r, ?_⟩
    rw [List.foldlM_cons, (h.ok m e.1 e.2 _).2 ⟨hfree, rfl⟩]
    exact hr

/-- Adding the entries of another map collects both. -/
theorem merge_eq_ok_iff : n.entries.foldlM (fun m e => add m e.1 e.2) m = .ok r ↔
    r.Collects [m, n] := by
  rw [h.foldlM_eq_ok_iff]
  simp [NameMap.Collects, NameMap.mem_entries]

/-- The entries of another map can be added if the two agree. -/
theorem exists_merge (hn : m.Agree n) :
    ∃ r, n.entries.foldlM (fun m e => add m e.1 e.2) m = .ok r := by
  refine h.exists_foldlM (v := fun name => (m.find? name).or (n.find? name))
    (fun name a ha => by simp [ha]) fun e he => ?_
  have he : n.find? e.1 = some e.2 := NameMap.mem_entries.1 he
  cases hm : m.find? e.1 with
  | none => simp [he]
  | some b => simp [hn e.1 b e.2 hm he]

end Adds

/-- What puts an entry in where its name is free, and refuses another value for the name, adds
entries. -/
theorem adds_of_refused
    (hfree : ∀ m name a, m.find? name = none → add m name a = .ok (m.insert name a))
    (hsame : ∀ m name a, m.find? name = some a → add m name a = .ok m)
    (hother : ∀ m name a b, m.find? name = some b → b ≠ a →
      ∃ f, add m name a = .error f ∧ f.kind = .typeConflict) : Adds add := by
  constructor
  · intro m name a r
    cases hfirst : m.find? name with
    | none => simp [hfree m name a hfirst, eq_comm]
    | some first =>
      by_cases heq : first = a
      · subst heq
        -- the value is there already
        have hinsert : m.insert name first = m := by
          refine NameMap.ext_find? fun other => ?_
          rw [NameMap.find?_insert]
          split
          · next hname => rw [hname, hfirst]
          · rfl
        simp [hsame m name first hfirst, hinsert, eq_comm]
      · obtain ⟨f, hf, -⟩ := hother m name a first hfirst heq
        simp [hf, heq]
  · intro m name a f hf
    cases hfirst : m.find? name with
    | none => simp [hfree m name a hfirst] at hf
    | some first =>
      by_cases heq : first = a
      · simp [hsame m name a (heq ▸ hfirst)] at hf
      · obtain ⟨g, hg, hkind⟩ := hother m name a first hfirst heq
        obtain rfl := Except.error.inj (hg.symm.trans hf)
        exact hkind

end Adds

namespace Declarations

variable {d more u : Declarations} {ds es : List Declarations} {role : Role}

theorem adds_addType (role : Role) (shown : Bytes → Bytes) :
    Adds fun types name type => addType role (shown name) types name type := by
  refine adds_of_refused (fun m name a h => ?_) (fun m name a h => ?_) fun m name a b h hne => ?_
  · simp [addType, h]
  · simp [addType, h]
  · exact ⟨.typeConflict role (shown name) b a, by simp only [addType, h, if_neg hne], rfl⟩

theorem adds_addSize : Adds addSize := by
  refine adds_of_refused (fun m name a h => ?_) (fun m name a h => ?_) fun m name a b h hne => ?_
  · simp [addSize, h]
  · simp [addSize, h]
  · exact ⟨.sizeConflict name b a, by simp only [addSize, h, if_neg hne], rfl⟩

/-! ## Merging -/

/-- No name is given different values by two sets of declarations. -/
structure Agree (d more : Declarations) : Prop where
  parameters : d.parameters.Agree more.parameters
  lists : d.lists.Agree more.lists
  columns : d.columns.Agree more.columns
  keys : d.keys.Agree more.keys

/-- A set of declarations has those of others, and no more. -/
structure Collects (u : Declarations) (ds : List Declarations) : Prop where
  parameters : u.parameters.Collects (ds.map (·.parameters))
  lists : u.lists.Collects (ds.map (·.lists))
  columns : u.columns.Collects (ds.map (·.columns))
  keys : u.keys.Collects (ds.map (·.keys))

namespace Collects

theorem agree (h : u.Collects ds) (hd : d ∈ ds) (hmore : more ∈ ds) : d.Agree more :=
  ⟨h.parameters.agree (List.mem_map_of_mem hd) (List.mem_map_of_mem hmore),
    h.lists.agree (List.mem_map_of_mem hd) (List.mem_map_of_mem hmore),
    h.columns.agree (List.mem_map_of_mem hd) (List.mem_map_of_mem hmore),
    h.keys.agree (List.mem_map_of_mem hd) (List.mem_map_of_mem hmore)⟩

theorem agree_of_forall (h : u.Collects ds) (hds : ∀ d ∈ ds, d.Agree more) : u.Agree more :=
  ⟨h.parameters.agree_of_forall (by simpa using fun d hd => (hds d hd).parameters),
    h.lists.agree_of_forall (by simpa using fun d hd => (hds d hd).lists),
    h.columns.agree_of_forall (by simpa using fun d hd => (hds d hd).columns),
    h.keys.agree_of_forall (by simpa using fun d hd => (hds d hd).keys)⟩

/-- What is collected first may be collected with the others at once. -/
theorem cons_iff (h : d.Collects ds) : u.Collects (d :: es) ↔ u.Collects (ds ++ es) := by
  constructor
  · intro hu
    constructor
    · simpa using h.parameters.cons_iff.1 hu.parameters
    · simpa using h.lists.cons_iff.1 hu.lists
    · simpa using h.columns.cons_iff.1 hu.columns
    · simpa using h.keys.cons_iff.1 hu.keys
  · intro hu
    constructor
    · exact h.parameters.cons_iff.2 (by simpa using hu.parameters)
    · exact h.lists.cons_iff.2 (by simpa using hu.lists)
    · exact h.columns.cons_iff.2 (by simpa using hu.columns)
    · exact h.keys.cons_iff.2 (by simpa using hu.keys)

/-- What is collected in parts is collected. -/
theorem flatMap {α : Type} {l : List α} {f : α → Declarations} {g : α → List Declarations}
    (h : u.Collects (l.map f)) (hl : ∀ a ∈ l, (f a).Collects (g a)) : u.Collects (l.flatMap g) := by
  constructor
  · rw [List.map_flatMap]
    exact NameMap.Collects.flatMap (List.map_map ▸ h.parameters) fun a ha => (hl a ha).parameters
  · rw [List.map_flatMap]
    exact NameMap.Collects.flatMap (List.map_map ▸ h.lists) fun a ha => (hl a ha).lists
  · rw [List.map_flatMap]
    exact NameMap.Collects.flatMap (List.map_map ▸ h.columns) fun a ha => (hl a ha).columns
  · rw [List.map_flatMap]
    exact NameMap.Collects.flatMap (List.map_map ▸ h.keys) fun a ha => (hl a ha).keys

theorem of_empty (d : Declarations) : d.Collects [d, {}] :=
  ⟨.of_empty _, .of_empty _, .of_empty _, .of_empty _⟩

end Collects

theorem collects_empty_cons : u.Collects ({} :: ds) ↔ u.Collects ds := by
  constructor
  · rintro ⟨hp, hl, hc, hk⟩
    exact ⟨NameMap.collects_empty_cons.1 hp, NameMap.collects_empty_cons.1 hl,
      NameMap.collects_empty_cons.1 hc, NameMap.collects_empty_cons.1 hk⟩
  · rintro ⟨hp, hl, hc, hk⟩
    exact ⟨NameMap.collects_empty_cons.2 hp, NameMap.collects_empty_cons.2 hl,
      NameMap.collects_empty_cons.2 hc, NameMap.collects_empty_cons.2 hk⟩

theorem collects_singleton : u.Collects [d] ↔ u = d := by
  constructor
  · intro h
    obtain ⟨parameters, lists, columns, keys⟩ := u
    obtain rfl := NameMap.collects_singleton.1 h.parameters
    obtain rfl := NameMap.collects_singleton.1 h.lists
    obtain rfl := NameMap.collects_singleton.1 h.columns
    obtain rfl := NameMap.collects_singleton.1 h.keys
    rfl
  · rintro rfl
    exact ⟨NameMap.collects_singleton.2 rfl, NameMap.collects_singleton.2 rfl,
      NameMap.collects_singleton.2 rfl, NameMap.collects_singleton.2 rfl⟩

theorem mergeTypes_eq_ok_iff {types more r : TypeMap} :
    mergeTypes role types more = .ok r ↔ r.Collects [types, more] :=
  (adds_addType role id).merge_eq_ok_iff

theorem mergeSizes_eq_ok_iff {sizes more r : ListSizes} :
    mergeSizes sizes more = .ok r ↔ r.Collects [sizes, more] :=
  adds_addSize.merge_eq_ok_iff

theorem merge_eq_ok_iff : d.merge more = .ok u ↔ u.Collects [d, more] := by
  simp only [merge, bind_eq_ok_iff, mergeTypes_eq_ok_iff, mergeSizes_eq_ok_iff]
  constructor
  · rintro ⟨parameters, hp, lists, hl, columns, hc, keys, hk, hu⟩
    obtain rfl := Except.ok.inj hu
    exact ⟨hp, hl, hc, hk⟩
  · intro hu
    exact ⟨_, hu.parameters, _, hu.lists, _, hu.columns, _, hu.keys, rfl⟩

theorem kind_of_merge {f : Fault} (h : d.merge more = .error f) : f.kind = .typeConflict := by
  have htypes {role : Role} {types more : TypeMap} (h : mergeTypes role types more = .error f) :
      f.kind = .typeConflict := (adds_addType role id).foldlM_error h
  simp only [merge, bind_eq_error_iff] at h
  obtain h | ⟨_, -, h | ⟨_, -, h | ⟨_, -, h | ⟨_, -, h⟩⟩⟩⟩ := h
  · exact htypes h
  · exact adds_addSize.foldlM_error h
  · exact htypes h
  · exact htypes h
  · cases h

theorem exists_merge_iff : (∃ u, d.merge more = .ok u) ↔ d.Agree more := by
  constructor
  · rintro ⟨u, hu⟩
    have hu := merge_eq_ok_iff.1 hu
    exact ⟨hu.parameters.agree (by simp) (by simp), hu.lists.agree (by simp) (by simp),
      hu.columns.agree (by simp) (by simp), hu.keys.agree (by simp) (by simp)⟩
  · intro h
    obtain ⟨parameters, hp⟩ := (adds_addType .parameter id).exists_merge h.parameters
    obtain ⟨lists, hl⟩ := adds_addSize.exists_merge h.lists
    obtain ⟨columns, hc⟩ := (adds_addType .column id).exists_merge h.columns
    obtain ⟨keys, hk⟩ := (adds_addType .key id).exists_merge h.keys
    refine ⟨⟨parameters, lists, columns, keys⟩, merge_eq_ok_iff.2 ?_⟩
    exact ⟨(adds_addType .parameter id).merge_eq_ok_iff.1 hp, adds_addSize.merge_eq_ok_iff.1 hl,
      (adds_addType .column id).merge_eq_ok_iff.1 hc, (adds_addType .key id).merge_eq_ok_iff.1 hk⟩

/-- Merging sets one after another collects them. -/
theorem foldlM_merge_eq_ok_iff : ds.foldlM merge d = .ok u ↔ u.Collects (d :: ds) := by
  induction ds generalizing d with
  | nil =>
    rw [collects_singleton, eq_comm]
    exact ⟨Except.ok.inj, congrArg Except.ok⟩
  | cons e ds ih =>
    simp only [List.foldlM_cons, bind_eq_ok_iff, ih, merge_eq_ok_iff]
    constructor
    · rintro ⟨d', hd', hu⟩
      exact hd'.cons_iff.1 hu
    · intro hu
      have hagree : d.Agree e := hu.agree (by simp) (by simp)
      obtain ⟨d', hd'⟩ := exists_merge_iff.2 hagree
      have hd' := merge_eq_ok_iff.1 hd'
      exact ⟨d', hd', hd'.cons_iff.2 hu⟩

/-- Sets can be merged if each two of them agree. -/
theorem exists_foldlM_merge_iff :
    (∃ u, ds.foldlM merge d = .ok u) ↔ (d :: ds).Pairwise Agree := by
  induction ds generalizing d with
  | nil => exact ⟨fun _ => List.pairwise_singleton _ _, fun _ => ⟨d, rfl⟩⟩
  | cons e ds ih =>
    simp only [List.foldlM_cons, bind_eq_ok_iff]
    constructor
    · rintro ⟨u, d', hd', hu⟩
      have hu := (merge_eq_ok_iff.1 hd').cons_iff.1 (foldlM_merge_eq_ok_iff.1 hu)
      exact List.pairwise_of_forall_mem_list fun a ha b hb => hu.agree ha hb
    · intro h
      obtain ⟨hd, he⟩ := List.pairwise_cons.1 h
      obtain ⟨he, hds⟩ := List.pairwise_cons.1 he
      obtain ⟨d', hd'⟩ := exists_merge_iff.2 (hd e List.mem_cons_self)
      have hcollects := merge_eq_ok_iff.1 hd'
      -- what agrees with both agrees with what they are merged into
      have hagree : ∀ more ∈ ds, d'.Agree more := fun more hmore =>
        hcollects.agree_of_forall (by simpa using ⟨hd more (by simp [hmore]), he more hmore⟩)
      obtain ⟨u, hu⟩ := ih.2 (List.pairwise_cons.2 ⟨hagree, hds⟩)
      exact ⟨u, d', hd', hu⟩

/-- Sets can be collected if each two of them agree. -/
theorem exists_collects_iff : (∃ u : Declarations, u.Collects ds) ↔ ds.Pairwise Agree := by
  have hempty : ∀ d ∈ ds, ({} : Declarations).Agree d := fun d _ =>
    ⟨.of_empty _, .of_empty _, .of_empty _, .of_empty _⟩
  have hmerge : (∃ u, ds.foldlM merge {} = .ok u) ↔ ({} :: ds).Pairwise Agree :=
    exists_foldlM_merge_iff
  rw [List.pairwise_cons, and_iff_right hempty] at hmerge
  simpa only [foldlM_merge_eq_ok_iff, collects_empty_cons] using hmerge

end Declarations

end SqlAccess
