import Mathlib.Data.List.TakeWhile
import SqlAccess.Proofs.Database.Savepoints
import SqlAccess.Proofs.Held
import SqlAccess.Proofs.Parameter
import SqlAccess.Proofs.Tokens.Restored

/-!
# What a parameter is set to

A `Setting` is a parameter with what it is set to: one value, or one for each element of a list.
Each value belongs to a name that owns slots (`Setting.assigned`) and goes to just these, as the
accessor of the declared type makes it (`Setting.Sends`). They are the slots that the tokens of the
parameter were given in the text of the query (`Descriptor.mem_slots_iff`).

So no slot belongs to two parameters of a text, and if each of them is set once, each slot is
written once (`Setting.slots_perm`).
-/

namespace SqlAccess

/-! ## Related lists -/

section Lists

variable {α β γ : Type} {R : α → β → Prop} {as : List α} {bs : List β}

theorem exists_forall₂ (h : ∀ a ∈ as, ∃ b, R a b) : ∃ bs, List.Forall₂ R as bs := by
  induction as with
  | nil => exact ⟨[], .nil⟩
  | cons a as ih =>
    obtain ⟨b, hb⟩ := h a List.mem_cons_self
    obtain ⟨bs, hbs⟩ := ih fun a ha => h a (List.mem_cons_of_mem _ ha)
    exact ⟨b :: bs, .cons hb hbs⟩

theorem exists_of_forall₂ (h : List.Forall₂ R as bs) {a : α} (ha : a ∈ as) : ∃ b ∈ bs, R a b := by
  induction h with
  | nil => cases ha
  | cons hab _ ih =>
    obtain rfl | ha := List.mem_cons.1 ha
    · exact ⟨_, List.mem_cons_self, hab⟩
    · obtain ⟨b, hb, hab⟩ := ih ha
      exact ⟨b, List.mem_cons_of_mem _ hb, hab⟩

theorem exists_append_of_forall₂ {bs cs : List β} {b : β}
    (h : List.Forall₂ R as (bs ++ b :: cs)) :
    ∃ before a after, as = before ++ a :: after ∧ List.Forall₂ R before bs ∧ R a b := by
  induction bs generalizing as with
  | nil =>
    obtain ⟨a, after, hab, -, rfl⟩ := List.forall₂_cons_right_iff.1 h
    exact ⟨[], a, after, rfl, .nil, hab⟩
  | cons c bs ih =>
    obtain ⟨a', as', hac, has, rfl⟩ := List.forall₂_cons_right_iff.1 h
    obtain ⟨before, a, after, rfl, hbefore, hab⟩ := ih has
    exact ⟨a' :: before, a, after, rfl, .cons hac hbefore, hab⟩

theorem forall₂_zip (h : List.Forall₂ R as bs) (cs : List γ) :
    List.Forall₂ (fun a b => R a.1 b.1 ∧ b.2 = a.2) (as.zip cs) (bs.zip cs) := by
  induction h generalizing cs with
  | nil => exact .nil
  | cons hab _ ih =>
    cases cs with
    | nil => exact .nil
    | cons c cs => exact .cons ⟨hab, rfl⟩ (ih cs)

end Lists

/-! ## Settings -/

/-- A parameter that is set, by its name in lower case. -/
inductive Setting
  /-- It is set to a value. -/
  | scalar (key : Bytes) (v : Value)
  /-- Its elements are set to values. -/
  | list (key : Bytes) (vs : List Value)

namespace Setting

/-- The name of the parameter. -/
def key : Setting → Bytes
  | scalar key _ | list key _ => key

/-- The values in their order. -/
def values : Setting → List Value
  | scalar _ v => [v]
  | list _ vs => vs

/-- The names that own slots of the parameter, each with the value for it. -/
def assigned : Setting → List (Bytes × Value)
  | scalar key v => [(key, v)]
  | list key vs => vs.zipIdx.map fun e => (elementName key e.2, e.1)

/-- There are as many values as the parameter was declared to take. -/
def Fits (d : Declarations) : Setting → Prop
  | scalar key _ => d.lists.find? key = none
  | list key vs => ∃ size, d.lists.find? key = some size ∧ vs.length = elementCount size

/-- A setting fits, and its names are declared with types that have an accessor. -/
structure Ready (accessors : Accessors) (d : Declarations) (st : Setting) : Prop where
  fits : st.Fits d
  typed : ∀ name v, (name, v) ∈ st.assigned → ∃ type accessor,
    d.parameters.find? name = some type ∧ accessors type = some accessor

/-- What a parameter takes for a setting. -/
def assignments (p : Parameter) : Setting → Except Fault (List (Destination × Value))
  | scalar _ v => p.assign v
  | list _ vs => p.assignList vs

/-- A value goes to the destination of a name. -/
def Delivers (accessors : Accessors) (d : Descriptor) (a : Bytes × Value)
    (b : Destination × Value) : Prop := b.1.Of accessors d a.1 ∧ b.2 = a.2

variable {st : Setting} {accessors : Accessors} {d : Descriptor} {declarations : Declarations}
  {p : Parameter} {as : List (Bytes × Value)} {l : List (Destination × Value)} {h : Handle}

theorem assigned_eq (hfits : st.Fits declarations) :
    st.assigned = (declarations.targets st.key).zip st.values := by
  cases st with
  | scalar name v =>
    have hnone : declarations.lists.find? name = none := hfits
    simp [assigned, key, values, Declarations.targets, hnone]
  | list name vs =>
    obtain ⟨size, hsize, hlength⟩ := hfits
    simp only [assigned, key, values, Declarations.targets, hsize, ← hlength]
    exact List.ext_getElem (by simp) fun i _ _ => by simp

theorem map_fst_assigned (hfits : st.Fits declarations) :
    st.assigned.map (·.1) = declarations.targets st.key := by
  rw [assigned_eq hfits, List.map_fst_zip]
  cases st with
  | scalar name v =>
    have hnone : declarations.lists.find? name = none := hfits
    simp [key, values, Declarations.targets, hnone]
  | list name vs =>
    obtain ⟨size, hsize, hlength⟩ := hfits
    simp [key, values, Declarations.targets, hsize, hlength]

theorem assignments_eq_ok_iff (hp : p.Of accessors d) (hkey : p.name = st.key) :
    st.assignments p = .ok l ↔
      st.Fits d.declarations ∧ l = p.destinations.zip st.values := by
  have hlist := hkey ▸ hp.isList
  have htargets := (hkey ▸ hp.destinations).length_eq
  cases st with
  | scalar name v =>
    simp only [assignments, Parameter.assign, Fits, values, key] at hlist ⊢
    cases hl : d.declarations.lists.find? name with
    | none => simp [hlist, hl, eq_comm]
    | some size => simp [hlist, hl]
  | list name vs =>
    simp only [assignments, Parameter.assignList, Fits, values, key] at hlist htargets ⊢
    cases hl : d.declarations.lists.find? name with
    | none => simp [hlist, hl]
    | some size =>
      simp only [Declarations.targets, hl, List.length_map, List.length_range] at htargets
      by_cases hlength : vs.length = elementCount size
      · simp [hlist, hl, ← htargets, hlength, eq_comm]
      · simp [hlist, hl, ← htargets, hlength]

/-- What a setting comes to: if it is ready, its values go to the destinations of their names. -/
structure Yields (accessors : Accessors) (d : Descriptor) (st : Setting)
    (r : Except Fault (List (Destination × Value))) : Prop where
  ready_iff : (∃ l, r = .ok l) ↔ st.Ready accessors d.declarations
  delivers : ∀ l, r = .ok l → List.Forall₂ (Delivers accessors d) st.assigned l

theorem delivers_of_assignments (hp : p.Of accessors d) (hkey : p.name = st.key)
    (hl : st.assignments p = .ok l) : List.Forall₂ (Delivers accessors d) st.assigned l := by
  obtain ⟨hfits, rfl⟩ := (assignments_eq_ok_iff hp hkey).1 hl
  rw [assigned_eq hfits]
  exact forall₂_zip (hkey ▸ hp.destinations) _

theorem typed_of_delivers (hl : List.Forall₂ (Delivers accessors d) st.assigned l) (name : Bytes)
    (v : Value) (hv : (name, v) ∈ st.assigned) : ∃ type accessor,
      d.declarations.parameters.find? name = some type ∧ accessors type = some accessor := by
  obtain ⟨b, -, ⟨type, htype, haccessor, -⟩, -⟩ := exists_of_forall₂ hl hv
  exact ⟨type, _, htype, haccessor⟩

/-- A resolved parameter takes what a setting comes to. -/
theorem Yields.of_parameter (hp : p.Of accessors d) (hkey : p.name = st.key) :
    st.Yields accessors d (st.assignments p) := by
  refine ⟨⟨?_, fun hready => ?_⟩, fun l hl => delivers_of_assignments hp hkey hl⟩
  · rintro ⟨l, hl⟩
    exact ⟨((assignments_eq_ok_iff hp hkey).1 hl).1,
      typed_of_delivers (delivers_of_assignments hp hkey hl)⟩
  · exact ⟨_, (assignments_eq_ok_iff hp hkey).2 ⟨hready.fits, rfl⟩⟩

/-- A setting by name comes to what the parameter of that name takes. -/
theorem Yields.of_resolve {spelled : Bytes} (hkey : st.key = Name.toLower spelled) :
    st.Yields accessors d ((Parameter.resolve accessors d spelled).bind st.assignments) := by
  have of {p : Parameter} (hp : Parameter.resolve accessors d spelled = .ok p) :
      st.Yields accessors d (st.assignments p) := by
    obtain ⟨hname, hof⟩ := Parameter.resolve_eq_ok_iff.1 hp
    exact .of_parameter hof (hname.trans hkey.symm)
  cases hr : Parameter.resolve accessors d spelled with
  | ok p => exact of hr
  | error f =>
    refine ⟨⟨?_, fun hready => ?_⟩, fun _ => nofun⟩
    · rintro ⟨_, ⟨⟩⟩
    · -- a name that is ready resolves
      obtain ⟨xs, hxs⟩ : ∃ xs, List.Forall₂ (fun name x => Destination.Of accessors d name x)
          (d.declarations.targets st.key) xs := by
        refine exists_forall₂ fun name hname => ?_
        rw [← map_fst_assigned hready.fits] at hname
        obtain ⟨⟨name, v⟩, hv, rfl⟩ := List.mem_map.1 hname
        obtain ⟨type, accessor, htype, haccessor⟩ := hready.typed name v hv
        exact ⟨⟨accessor, d.slots name⟩, type, htype, haccessor, rfl⟩
      let p : Parameter := ⟨st.key, (d.declarations.lists.find? st.key).isSome, xs⟩
      have hof : p.Of accessors d := ⟨rfl, hxs⟩
      cases hr.symm.trans (Parameter.resolve_eq_ok_iff.2 ⟨hkey, hof⟩)

/-- What a setting comes to, by the name of its parameter or with this resolved before. -/
inductive Comes (accessors : Accessors) (d : Descriptor) (st : Setting) :
    Except Fault (List (Destination × Value)) → Prop
  | byName {spelled : Bytes} (hkey : st.key = Name.toLower spelled) :
    Comes accessors d st ((Parameter.resolve accessors d spelled).bind st.assignments)
  | resolved {p : Parameter} (hp : p.Of accessors d) (hkey : p.name = st.key) :
    Comes accessors d st (st.assignments p)

namespace Comes

variable {r : Except Fault (List (Destination × Value))} {f : Fault}

theorem yields (hr : st.Comes accessors d r) : st.Yields accessors d r := by
  cases hr with
  | byName hkey => exact .of_resolve hkey
  | resolved hp hkey => exact .of_parameter hp hkey

theorem assignments_fault (h : st.assignments p = .error f) :
    f.kind = .misuse ∨ f.kind = .range := by
  cases st with
  | scalar name v =>
    simp only [assignments, Parameter.assign] at h
    split at h
    · cases h
      exact .inl rfl
    · cases h
  | list name vs =>
    simp only [assignments, Parameter.assignList] at h
    split at h
    · cases h
      exact .inl rfl
    · split at h
      · cases h
        exact .inr rfl
      · cases h

/-- A setting is not refused for its values before any of them is written. -/
theorem kind_ne_mismatch (hr : st.Comes accessors d r) (hf : r = .error f) :
    f.kind ≠ .mismatch := by
  have of_assignments {p : Parameter} (h : st.assignments p = .error f) : f.kind ≠ .mismatch := by
    obtain hk | hk := assignments_fault h <;> simp [hk]
  cases hr with
  | byName hkey =>
    obtain hp | ⟨p, -, hp⟩ := bind_eq_error_iff.1 hf
    · obtain hk | hk := Parameter.resolve_fault hp <;> simp [hk]
    · exact of_assignments hp
  | resolved hp hkey => exact of_assignments hf

end Comes

/-! ## What is written -/

/-- What is written to slots for settings: to those that their names own, the values as the
accessors of the declared types make them. -/
structure Sends (accessors : Accessors) (d : Descriptor) (h : Handle) (sts : List Setting)
    (ws : List (Nat × Datum)) : Prop where
  ready : ∀ st ∈ sts, st.Ready accessors d.declarations
  slots : ws.map (·.1) = (sts.flatMap fun st => st.assigned.map (·.1)).flatMap d.slots
  data : ∀ st ∈ sts, ∀ name v type accessor, (name, v) ∈ st.assigned →
    d.declarations.parameters.find? name = some type → accessors type = some accessor →
      ∀ slot ∈ d.slots name, (slot, h.datum accessor v) ∈ ws

theorem Sends.nil : Sends accessors d h [] [] := ⟨nofun, rfl, nofun⟩

theorem Sends.append {sts sts' : List Setting} {ws us : List (Nat × Datum)}
    (hw : Sends accessors d h sts ws) (hu : Sends accessors d h sts' us) :
    Sends accessors d h (sts ++ sts') (ws ++ us) := by
  refine ⟨fun st hst => ?_, ?_, fun st hst name v type accessor hv ht ha slot hslot => ?_⟩
  · exact (List.mem_append.1 hst).elim (hw.ready st) (hu.ready st)
  · rw [List.map_append, hw.slots, hu.slots, List.flatMap_append, List.flatMap_append]
  · exact List.mem_append.2 <| (List.mem_append.1 hst).imp
      (fun hst => hw.data st hst name v type accessor hv ht ha slot hslot)
      fun hst => hu.data st hst name v type accessor hv ht ha slot hslot

theorem map_fst_written (hl : List.Forall₂ (Delivers accessors d) as l) :
    (Statement.written h l).map (·.1) = (as.map (·.1)).flatMap d.slots := by
  unfold Statement.written
  induction hl with
  | nil => rfl
  | cons hab _ ih =>
    obtain ⟨⟨-, -, -, hslots⟩, -⟩ := hab
    simpa [List.map_flatMap, hslots] using ih

/-- The value of a name goes to the slots of the name, as the accessor of its type makes it. -/
theorem mem_of_delivers (hl : List.Forall₂ (Delivers accessors d) as l) {name : Bytes} {v : Value}
    {type accessor : ValueType} (hv : (name, v) ∈ as)
    (htype : d.declarations.parameters.find? name = some type)
    (haccessor : accessors type = some accessor) : (⟨accessor, d.slots name⟩, v) ∈ l := by
  obtain ⟨⟨x, v'⟩, hx, ⟨t, ht, ha, hslots⟩, hv'⟩ := exists_of_forall₂ hl hv
  obtain rfl : type = t := Option.some.inj (htype.symm.trans ht)
  obtain rfl : accessor = x.accessor := Option.some.inj (haccessor.symm.trans ha)
  obtain rfl : v' = v := hv'
  rwa [← hslots]

theorem mem_written (hl : List.Forall₂ (Delivers accessors d) as l) {name : Bytes} {v : Value}
    {type accessor : ValueType} (hv : (name, v) ∈ as)
    (htype : d.declarations.parameters.find? name = some type)
    (haccessor : accessors type = some accessor) {slot : Nat} (hslot : slot ∈ d.slots name) :
    (slot, h.datum accessor v) ∈ Statement.written h l :=
  List.mem_flatMap.2 ⟨_, mem_of_delivers hl hv htype haccessor,
    List.mem_flatMap.2 ⟨slot, hslot, List.mem_singleton_self _⟩⟩

theorem Yields.sends {r : Except Fault (List (Destination × Value))}
    (hy : st.Yields accessors d r) (hr : r = .ok l) :
    Sends accessors d h [st] (Statement.written h l) := by
  have hl := hy.delivers l hr
  refine ⟨fun st' hst => ?_, ?_,
    fun st' hst name v type accessor hv htype haccessor slot hslot => ?_⟩
  · exact List.mem_singleton.1 hst ▸ hy.ready_iff.1 ⟨l, hr⟩
  · rw [map_fst_written hl, List.flatMap_singleton]
  · obtain rfl := List.mem_singleton.1 hst
    exact mem_written hl hv htype haccessor hslot

end Setting

/-! ## Slots by tokens -/

theorem elementName_injective (list : Bytes) : Function.Injective (elementName list) :=
  fun _ _ h => Numeral.ofNat_injective (List.append_cancel_left (List.append_cancel_right h))

namespace Template

variable {sizes : ListSizes} {text p name : Bytes} {slot : Nat}

/-- A slot was given to a name by a token of a text. -/
def Gives (sizes : ListSizes) (text name : Bytes) (slot : Nat) : Prop :=
  ∃ before p after, cut text = before ++ .parameter p :: after ∧
    GivesSlot sizes (widthOf sizes before) p name slot

theorem open_notMem_of_mem_cut (h : .parameter p ∈ cut text) : 0x5B ∉ Name.toLower p := by
  intro hopen
  obtain ⟨c, hc, heq⟩ := List.mem_map.1 hopen
  have hpart := isNamePart_of_mem_cut h c hc
  unfold Name.lowerByte Name.isUpper at heq
  unfold isNamePart isNameStart Name.isLower Name.isUpper Name.isDigit at hpart
  grind

end Template

namespace Descriptor

variable {d : Descriptor} {text name : Bytes} {declarations : Declarations} {slot : Nat}

theorem mem_slots_iff (h : create text declarations = .ok d) :
    slot ∈ d.slots name ↔ Template.Gives declarations.lists text name slot := by
  obtain ⟨e, he, rfl⟩ := create_eq_ok h
  obtain ⟨-, rfl⟩ := Template.expandText_eq_ok_iff.1 he
  exact mem_slotsIn.trans Template.getElem?_owners_iff

/-- Different names share no slot. -/
theorem slots_nodup {names : List Bytes} (h : names.Nodup) : (names.flatMap d.slots).Nodup := by
  refine List.nodup_flatMap.2 ⟨fun name _ => (slotsIn_sorted _ _).nodup, h.imp fun hne => ?_⟩
  intro slot ha hb
  exact hne (Option.some.inj ((mem_slotsIn.1 ha).symm.trans (mem_slotsIn.1 hb)))

end Descriptor

namespace Setting

variable {st : Setting} {sts : List Setting} {d : Descriptor} {text name : Bytes} {v : Value}
  {slot : Nat}

theorem key_of_assigned (hkey : 0x5B ∉ st.key) (h : (name, v) ∈ st.assigned) :
    name.takeWhile (· != 0x5B) = st.key := by
  have hall (c : UInt8) (hc : c ∈ st.key) : (c != 0x5B) = true :=
    bne_iff_ne.2 fun hopen => hkey (hopen ▸ hc)
  cases st with
  | scalar other v' =>
    obtain ⟨rfl, -⟩ := Prod.mk.inj (List.mem_singleton.1 h)
    exact List.takeWhile_eq_self_iff.2 hall
  | list other vs =>
    obtain ⟨⟨v', i⟩, -, heq⟩ := List.mem_map.1 h
    obtain ⟨rfl, -⟩ := Prod.mk.inj heq
    have hopen : Bytes.ofString "[" = [0x5B] := by decide
    rw [elementName, hopen, List.append_assoc, List.append_assoc]
    exact (List.takeWhile_append_of_pos hall).trans (by simp [key])

theorem assigned_nodup (st : Setting) : (st.assigned.map (·.1)).Nodup := by
  cases st with
  | scalar name v => exact List.nodup_singleton name
  | list name vs =>
    have hmap : (list name vs).assigned.map (·.1) =
        (vs.zipIdx.map (·.2)).map (elementName name) := by
      rw [assigned, List.map_map, List.map_map]
      rfl
    rw [hmap, List.zipIdx_map_snd, ← List.range_eq_range']
    exact List.nodup_range.map (elementName_injective name)

/-- A token of a parameter gives its slots to the names that a fitting setting is about. -/
theorem exists_assigned {p : Bytes} {base : Nat} (hfits : st.Fits d.declarations)
    (hkey : st.key = Name.toLower p)
    (hg : Template.GivesSlot d.declarations.lists base p name slot) :
    ∃ v, (name, v) ∈ st.assigned := by
  have htarget : name ∈ d.declarations.targets st.key := by
    rw [hkey, Declarations.targets]
    cases hg with
    | scalar hnone => simp [hnone]
    | element hsize hi => simpa [hsize] using ⟨_, hi, rfl⟩
  rw [← map_fst_assigned hfits] at htarget
  obtain ⟨⟨_, v⟩, hv, rfl⟩ := List.mem_map.1 htarget
  exact ⟨v, hv⟩

/-- If each parameter of a text is set once, each slot is written once. -/
theorem slots_perm (h : Descriptor.create text d.declarations = .ok d)
    (hfits : ∀ st ∈ sts, st.Fits d.declarations) (hnodup : (sts.map key).Nodup)
    (hkeys : ∀ name, name ∈ sts.map key ↔
      ∃ p, .parameter p ∈ Template.cut text ∧ name = Name.toLower p) :
    ((sts.flatMap fun st => st.assigned.map (·.1)).flatMap d.slots).Perm (List.range d.count) := by
  have hnames : (sts.flatMap fun st => st.assigned.map (·.1)).Nodup := by
    refine List.nodup_flatMap.2 ⟨fun st _ => st.assigned_nodup, ?_⟩
    refine (List.pairwise_map.1 hnodup).imp_of_mem fun {a b} ha hb hne name hna hnb => hne ?_
    have hopen {st : Setting} (hst : st ∈ sts) : 0x5B ∉ st.key := by
      obtain ⟨p, hp, hname⟩ := (hkeys _).1 (List.mem_map_of_mem hst)
      exact hname ▸ Template.open_notMem_of_mem_cut hp
    obtain ⟨⟨name, v⟩, hva, rfl⟩ := List.mem_map.1 hna
    obtain ⟨⟨name, v'⟩, hvb, rfl⟩ := List.mem_map.1 hnb
    exact (key_of_assigned (hopen ha) hva).symm.trans (key_of_assigned (hopen hb) hvb)
  refine (List.perm_ext_iff_of_nodup (Descriptor.slots_nodup hnames) List.nodup_range).2 ?_
  intro slot
  rw [List.mem_range, List.mem_flatMap]
  constructor
  · rintro ⟨name, -, hslot⟩
    exact (List.getElem?_eq_some_iff.1 (mem_slotsIn.1 hslot)).1
  · intro hlt
    have hslot : slot ∈ d.slots (d.owners.get ⟨slot, hlt⟩) :=
      mem_slotsIn.2 (List.getElem?_eq_getElem hlt)
    refine ⟨_, ?_, hslot⟩
    obtain ⟨before, p, after, hcut, hgives⟩ := (Descriptor.mem_slots_iff h).1 hslot
    obtain ⟨st, hst, hkey⟩ := List.mem_map.1 ((hkeys _).2 ⟨p, by simp [hcut], rfl⟩)
    obtain ⟨v, hv⟩ := exists_assigned (hfits st hst) hkey hgives
    exact List.mem_flatMap.2 ⟨st, hst, List.mem_map_of_mem hv⟩

end Setting

end SqlAccess
