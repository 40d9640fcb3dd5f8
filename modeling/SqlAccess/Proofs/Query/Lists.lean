import Mathlib.Data.List.Induction
import SqlAccess.Proofs.Parameter
import SqlAccess.Proofs.Query

/-!
# List parameters

A list parameter is declared by its size, and each of its elements as a parameter of its own. Sizes
and types are kept apart, and are merged apart, but whatever can be made declares both or neither
(`Declarations.Complete`).

What is not kept is that a name is a parameter or a list, but not both (`Declarations.Both`): a
builder sees to that for the names that it is given, and composing does not look
(`Query.declared_both_iff`).
-/

namespace SqlAccess

namespace Declarations

variable {d u : Declarations} {ds : List Declarations} {name other : Bytes} {type t : ValueType}
  {size : Int32}

/-- All names are in lower case, and a list has a type for each of its elements, of which there are
some. -/
structure Complete (d : Declarations) : Prop where
  parameters : ∀ name type, d.parameters.find? name = some type → Name.toLower name = name
  lists : ∀ name size, d.lists.find? name = some size → Name.toLower name = name
  columns : ∀ name type, d.columns.find? name = some type → Name.toLower name = name
  keys : ∀ name type, d.keys.find? name = some type → Name.toLower name = name
  elements : ∀ list size, d.lists.find? list = some size → 1 ≤ elementCount size ∧
    ∃ type, ∀ i < elementCount size, d.parameters.find? (elementName list i) = some type

/-- What is collected of complete sets is complete. -/
theorem Collects.complete (h : u.Collects ds) (hds : ∀ d ∈ ds, d.Complete) : u.Complete := by
  have part {α : Type} {f : Declarations → NameMap α} (hu : (f u).Collects (ds.map f))
      (name : Bytes) (a : α) (ha : (f u).find? name = some a) :
      ∃ d ∈ ds, (f d).find? name = some a := by
    obtain ⟨_, hm, ha⟩ := (hu name a).1 ha
    obtain ⟨d, hd, rfl⟩ := List.mem_map.1 hm
    exact ⟨d, hd, ha⟩
  constructor
  · intro name type hname
    obtain ⟨d, hd, hname⟩ := part h.parameters name type hname
    exact (hds d hd).parameters name type hname
  · intro name size hname
    obtain ⟨d, hd, hname⟩ := part h.lists name size hname
    exact (hds d hd).lists name size hname
  · intro name type hname
    obtain ⟨d, hd, hname⟩ := part h.columns name type hname
    exact (hds d hd).columns name type hname
  · intro name type hname
    obtain ⟨d, hd, hname⟩ := part h.keys name type hname
    exact (hds d hd).keys name type hname
  · intro list size hlist
    obtain ⟨d, hd, hlist⟩ := part h.lists list size hlist
    obtain ⟨hsize, type, htype⟩ := (hds d hd).elements list size hlist
    refine ⟨hsize, type, fun i hi => (h.parameters _ _).2 ⟨_, List.mem_map_of_mem hd, htype i hi⟩⟩

/-! ## What a list declares -/

theorem find?_parameters_ofList : (ofList name type size).parameters.find? other = some t ↔
    t = type ∧ ∃ i < elementCount size, other = elementName name i := by
  have hentries : (List.range (elementCount size)).map (fun i => (elementName name i, type)) =
      ((List.range (elementCount size)).map (elementName name)).map fun n => (n, type) := by
    rw [List.map_map]
    rfl
  rw [ofList, hentries, NameMap.find?_ofList_map]
  simp [eq_comm, and_comm]

theorem find?_lists_ofList {n : Int32} :
    (ofList name type size).lists.find? other = some n ↔ other = name ∧ n = size :=
  NameMap.find?_singleton

theorem complete_empty : ({} : Declarations).Complete := by
  constructor <;> (intro _ _ h; cases h)

end Declarations

theorem one_le_elementCount {size : Int32} (h : 0 < size) : 1 ≤ elementCount size := by
  have hint : (0 : Int) < size.toInt := Int32.lt_iff_toInt_lt.1 h
  unfold elementCount
  omega

theorem Builder.size_of_step {b b' : Builder} {name : Bytes} {type : ValueType} {size : Int32}
    (h : b.step (.list (some name) type size) = .ok b') : 0 < size := by
  simp only [step] at h
  split at h
  · cases h
  · next hsize => exact Int32.not_le.1 hsize

/-- A step that was taken declares complete lists, in lower case. -/
theorem BuildStep.complete_declared {b b' : Builder} {x : BuildStep} (h : b.step x = .ok b') :
    x.declared.Complete := by
  have single {α : Type} {name other : Bytes} {value a : α}
      (h : (NameMap.empty.insert (Name.toLower name) value).find? other = some a) :
      Name.toLower other = other := by
    obtain ⟨rfl, -⟩ := NameMap.find?_singleton.1 h
    exact Name.toLower_toLower name
  cases x with
  | forType | forVersion | fallback => exact Declarations.complete_empty
  | parameter name type =>
    cases name with
    | none => exact Declarations.complete_empty
    | some name =>
      exact { Declarations.complete_empty with
        parameters := fun _ _ => single
        elements := fun _ _ hlist => by cases hlist }
  | list name type size =>
    cases name with
    | none => exact Declarations.complete_empty
    | some name =>
      constructor
      · intro other t hother
        obtain ⟨-, i, -, rfl⟩ := Declarations.find?_parameters_ofList.1 hother
        exact toLower_elementName (Name.toLower_toLower name) i
      · exact fun _ _ => single
      · exact Declarations.complete_empty.columns
      · exact Declarations.complete_empty.keys
      · intro list n hlist
        obtain ⟨rfl, rfl⟩ := Declarations.find?_lists_ofList.1 hlist
        refine ⟨one_le_elementCount (Builder.size_of_step h), type, fun i hi => ?_⟩
        exact Declarations.find?_parameters_ofList.2 ⟨rfl, i, hi, rfl⟩
  | column name type =>
    cases name with
    | none => exact Declarations.complete_empty
    | some name => exact { Declarations.complete_empty with columns := fun _ _ => single }
  | key name type =>
    cases name with
    | none => exact Declarations.complete_empty
    | some name => exact { Declarations.complete_empty with keys := fun _ _ => single }

/-- However a query was made, its lists are complete. -/
theorem Query.MadeBy.complete {steps : List BuildStep} {q : Query} (h : MadeBy steps q) :
    q.declarations.Complete := by
  refine h.collects.complete fun d hd => ?_
  obtain ⟨x, hx, rfl⟩ := List.mem_map.1 hd
  obtain ⟨b, b', hstep⟩ := h.exists_step hx
  exact BuildStep.complete_declared hstep

/-! ## Resolving lists -/

/-- The parameter of a list takes a value for each of its elements, in their order. -/
def Parameter.ofList (d : Descriptor) (list : Bytes) (size : Int32) (accessor : ValueType) :
    Parameter where
  name := list
  isList := true
  destinations := (List.range (elementCount size)).map fun i =>
    { accessor, slots := d.slots (elementName list i) }

@[simp] theorem Parameter.listSize_ofList (d : Descriptor) (list : Bytes) (size : Int32)
    (accessor : ValueType) : (ofList d list size accessor).listSize = elementCount size := by
  simp [ofList, listSize]

/-- A list resolves, in any spelling, if there is an accessor for the type of its elements. -/
theorem Parameter.resolve_list {accessors : Accessors} {d : Descriptor} {spelled : Bytes}
    {size : Int32} {type accessor : ValueType}
    (hsize : d.declarations.lists.find? (Name.toLower spelled) = some size)
    (htype : ∀ i < elementCount size,
      d.declarations.parameters.find? (elementName (Name.toLower spelled) i) = some type)
    (haccessor : accessors type = some accessor) :
    Parameter.resolve accessors d spelled =
      .ok (.ofList d (Name.toLower spelled) size accessor) := by
  refine Parameter.resolve_eq_ok_iff.2 ⟨rfl, by simp [ofList, hsize], ?_⟩
  simp only [Declarations.targets, ofList, hsize, List.forall₂_map_left_iff,
    List.forall₂_map_right_iff, List.forall₂_same]
  exact fun i hi => ⟨type, htype i (List.mem_range.1 hi), haccessor, rfl⟩

/-! ## Names that are declared in both ways -/

namespace Declarations

variable {u : Declarations} {ds : List Declarations} {name : Bytes}

/-- A name is declared as a parameter and as a list. -/
def Both (d : Declarations) (name : Bytes) : Prop :=
  d.parameters.contains name ∧ d.lists.contains name

theorem Collects.both_iff (h : u.Collects ds) : u.Both name ↔
    (∃ d ∈ ds, d.parameters.contains name) ∧ ∃ d ∈ ds, d.lists.contains name := by
  rw [Both, h.parameters.contains_iff, h.lists.contains_iff]
  simp

end Declarations

theorem elementName_ne (list : Bytes) (i : Nat) : elementName list i ≠ list := by
  intro h
  have hlength := congrArg List.length h
  simp [elementName, Bytes.ofString] at hlength

namespace BuildStep

variable {x : BuildStep} {name : Bytes} {d : Declarations}

/-- A name belongs to an element of the list that a step declares. -/
def DeclaresElement (x : BuildStep) (name : Bytes) : Prop :=
  ∃ list type size i, x = .list (some list) type size ∧ i < elementCount size ∧
    name = elementName (Name.toLower list) i

/-- A name is declared as a list by a step that declares that list. -/
theorem contains_lists_iff : x.declared.lists.contains name ↔
    ∃ list type size, x = .list (some list) type size ∧ name = Name.toLower list := by
  cases x with
  | list list type size =>
    cases list with
    | none => simp [declared, NameMap.contains_iff]
    | some list =>
      have hlist (n : Int32) :
          (declared (.list (some list) type size)).lists.find? name = some n ↔ _ :=
        Declarations.find?_lists_ofList
      simp [NameMap.contains_iff, hlist]
  | parameter name _ | column name _ | key name _ =>
    cases name <;> simp [declared, NameMap.contains_iff]
  | _ => simp [declared, NameMap.contains_iff]

/-- A name is declared as a parameter by a step that declares that parameter, or a list of which it
is an element. -/
theorem contains_parameters_iff : x.declared.parameters.contains name ↔
    (∃ spelled type, x = .parameter (some spelled) type ∧ name = Name.toLower spelled) ∨
      x.DeclaresElement name := by
  cases x with
  | parameter spelled type =>
    cases spelled with
    | none => simp [declared, DeclaresElement, NameMap.contains_iff]
    | some spelled =>
      simp [declared, DeclaresElement, NameMap.contains_iff, NameMap.find?_singleton]
  | list list type size =>
    cases list with
    | none => simp [declared, DeclaresElement, NameMap.contains_iff]
    | some list =>
      have helement (t : ValueType) :
          (declared (.list (some list) type size)).parameters.find? name = some t ↔ _ :=
        Declarations.find?_parameters_ofList
      simp [NameMap.contains_iff, helement, DeclaresElement]
  | column name _ | key name _ =>
    cases name <;> simp [declared, DeclaresElement, NameMap.contains_iff]
  | _ => simp [declared, DeclaresElement, NameMap.contains_iff]

theorem DeclaresElement.not_contains_lists (h : x.DeclaresElement name) :
    ¬x.declared.lists.contains name := by
  obtain ⟨list, type, size, i, rfl, -, rfl⟩ := h
  intro hlist
  obtain ⟨_, _, _, heq, hname⟩ := contains_lists_iff.1 hlist
  cases heq
  exact elementName_ne _ _ hname

end BuildStep

namespace Builder

variable {b b' : Builder} {x : BuildStep} {steps : List BuildStep} {q : Query} {name : Bytes}

/-- A step that clashes with what is declared is refused. -/
theorem step_of_clashes (h : x.Clashes b.declarations) :
    ∃ f, b.step x = .error f ∧ f.kind = .typeConflict := by
  cases x with
  | parameter name type =>
    cases name with
    | none => exact h.elim
    | some name =>
      have hlist : b.declarations.lists.contains (Name.toLower name) := h
      cases htypes : Declarations.addType .parameter name b.declarations.parameters
          (Name.toLower name) type with
      | error f =>
        have hkind := (Declarations.adds_addType .parameter fun _ => name).error _ _ _ f htypes
        exact ⟨f, by simp [step, named, addParameter, htypes, bind, Except.bind], hkind⟩
      | ok types =>
        refine ⟨.scalarAndList name, ?_, rfl⟩
        simp [step, named, addParameter, htypes, hlist, bind, Except.bind]
  | list name type size =>
    cases name with
    | none => exact h.elim
    | some name =>
      obtain ⟨hsize, hscalar⟩ := h
      refine ⟨.scalarAndList name, ?_, rfl⟩
      simp [step, Int32.not_le.2 hsize, addList, hscalar]
  | _ => exact h.elim

theorem clashes_of_lists (h : b.step x = .ok b') (hx : x.declared.lists.contains name)
    (hb : b.declarations.parameters.contains name) : x.Clashes b.declarations := by
  obtain ⟨list, type, size, rfl, rfl⟩ := BuildStep.contains_lists_iff.1 hx
  exact ⟨size_of_step h, hb⟩

/-- What a step adds to the names that are declared in both ways. -/
theorem both_of_step (h : b.step x = .ok b') : b'.declarations.Both name ↔
    b.declarations.Both name ∨ b.declarations.lists.contains name ∧ x.DeclaresElement name := by
  obtain ⟨hcollects, hfree⟩ := collects_of_step h
  have hlists : x.declared.lists.contains name → ¬b.declarations.parameters.contains name :=
    fun hx hb => hfree (clashes_of_lists h hx hb)
  have hscalar (spelled : Bytes) (type : ValueType) (hx : x = .parameter (some spelled) type)
      (hname : name = Name.toLower spelled) : ¬b.declarations.lists.contains name := by
    subst hx hname
    exact hfree
  rw [hcollects.both_iff]
  simp only [List.mem_cons, List.not_mem_nil, or_false, exists_eq_or_imp, exists_eq_left,
    BuildStep.contains_parameters_iff]
  constructor
  · rintro ⟨hp | ⟨spelled, type, hx, hname⟩ | helement, hl | hl⟩
    · exact .inl ⟨hp, hl⟩
    · exact absurd hp (hlists hl)
    · exact absurd hl (hscalar spelled type hx hname)
    · obtain ⟨_, _, _, rfl, -⟩ := BuildStep.contains_lists_iff.1 hl
      cases hx
    · exact .inr ⟨hl, helement⟩
    · exact absurd hl helement.not_contains_lists
  · rintro (⟨hp, hl⟩ | ⟨hl, helement⟩)
    · exact ⟨.inl hp, .inl hl⟩
    · exact ⟨.inr (.inr helement), .inl hl⟩

theorem pair_sublist_concat {α : Type} {x y z : α} {l : List α} :
    [y, x].Sublist (l ++ [z]) ↔ [y, x].Sublist l ∨ y ∈ l ∧ x = z := by
  have hreverse (l : List α) : [y, x].Sublist l ↔ [x, y].Sublist l.reverse :=
    List.reverse_sublist.symm
  rw [hreverse, hreverse l, List.reverse_append]
  simp [List.cons_sublist_cons', and_comm]

/-- A builder declares a name in both ways if it has declared it as a list, and declares a list with
such an element after that. -/
theorem both_iff (h : steps.foldlM step {} = .ok b) : b.declarations.Both name ↔
    ∃ y x, [y, x].Sublist steps ∧ y.declared.lists.contains name ∧ x.DeclaresElement name := by
  induction steps using List.reverseRecOn generalizing b with
  | nil =>
    obtain rfl := Except.ok.inj h
    simp [Declarations.Both, NameMap.contains_iff]
  | append_singleton steps x ih =>
    rw [List.foldlM_append, bind_eq_ok_iff] at h
    obtain ⟨b₁, hsteps, h⟩ := h
    obtain ⟨b₂, hx, hb⟩ := foldlM_step_cons_eq_ok_iff.1 h
    obtain rfl := Except.ok.inj hb
    have hlists : b₁.declarations.lists.contains name ↔
        ∃ y ∈ steps, y.declared.lists.contains name := by
      have hcollects := Declarations.collects_empty_cons.1 (collects_of_foldlM hsteps)
      simp [hcollects.lists.contains_iff]
    rw [both_of_step hx, ih hsteps, hlists]
    constructor
    · rintro (⟨y, z, hyz, hy, hz⟩ | ⟨⟨y, hmem, hy⟩, hz⟩)
      · exact ⟨y, z, pair_sublist_concat.2 (.inl hyz), hy, hz⟩
      · exact ⟨y, x, pair_sublist_concat.2 (.inr ⟨hmem, rfl⟩), hy, hz⟩
    · rintro ⟨y, z, hyz, hy, hz⟩
      obtain hyz | ⟨hmem, rfl⟩ := pair_sublist_concat.1 hyz
      · exact .inl ⟨y, z, hyz, hy, hz⟩
      · exact .inr ⟨⟨y, hmem, hy⟩, hz⟩

end Builder

namespace Query

/-- However a query was made, it declares a name as a parameter and as a list if one of the steps of
its builders does the one and one does the other. A single builder refuses that; only the elements
of a list it declares without looking for a list of that name. But composing queries asks whether
their declarations agree, and they may do that with a name as a parameter in one query and as a list
in another. -/
theorem declared_both_iff {steps : List BuildStep} {q : Query} (hq : MadeBy steps q)
    (name : Bytes) :
    (q.declarations.Both name ↔ (∃ x ∈ steps, x.declared.parameters.contains name) ∧
      ∃ y ∈ steps, y.declared.lists.contains name) ∧
    (Builder.build steps = .ok q → (q.declarations.Both name ↔
      ∃ y x, [y, x].Sublist steps ∧ y.declared.lists.contains name ∧ x.DeclaresElement name)) ∧
    (∀ before x after b, before.foldlM Builder.step {} = .ok b → x.Clashes b.declarations →
      ∃ f, Builder.build (before ++ x :: after) = .error f ∧ f.kind = .typeConflict) ∧
    (∀ qs : List Query, ((∃ q, concat (qs.map some) = .ok q) ↔
        (qs.map (·.declarations)).Pairwise Declarations.Agree) ∧
      ∀ f, concat (qs.map some) = .error f → f.kind = .typeConflict) ∧
    ∀ (template : Query) (args : List Query),
      ((∃ q, format (some template) (args.map some) = .ok q) ↔
        ((template :: args).map (·.declarations)).Pairwise Declarations.Agree) ∧
      ∀ f, format (some template) (args.map some) = .error f → f.kind = .typeConflict := by
  refine ⟨?_, fun h => ?_, fun before x after b hbefore hx => ?_,
    fun qs => ⟨exists_concat_iff, fun _ => kind_of_concat⟩,
    fun t qs => ⟨exists_format_iff, fun _ => kind_of_format⟩⟩
  · rw [hq.collects.both_iff]
    simp
  · obtain ⟨b, hsteps, hb⟩ := bind_eq_ok_iff.1 h
    obtain ⟨-, -, rfl⟩ := Builder.finish_eq_ok_iff.1 hb
    exact Builder.both_iff hsteps
  · obtain ⟨f, hf, hkind⟩ := Builder.step_of_clashes hx
    refine ⟨f, ?_, hkind⟩
    rw [Builder.build, List.foldlM_append, hbefore]
    simp [hf, bind, Except.bind]

/-- A scalar and a list of one name are refused by a builder, and can be composed. -/
theorem declared_both_by_composing :
    let scalar : BuildStep := .parameter (some "x") .int32
    let list : BuildStep := .list (some "X") .int32 2
    (∃ f, Builder.build [.fallback (some ":x"), scalar, list] = .error f ∧
        f.kind = .typeConflict) ∧
      ∃ q₁ q₂ q, Builder.build [.fallback (some ":x"), scalar] = .ok q₁ ∧
        Builder.build [.fallback (some ":x"), list] = .ok q₂ ∧
        concat [some q₁, some q₂] = .ok q ∧ q.declarations.Both "x" := by
  intro scalar list
  obtain ⟨q₁, q₂, q, h₁, h₂, h⟩ : ∃ q₁ q₂ q,
      Builder.build [.fallback (some ":x"), scalar] = .ok q₁ ∧
      Builder.build [.fallback (some ":x"), list] = .ok q₂ ∧ concat [some q₁, some q₂] = .ok q :=
    ⟨_, _, _, rfl, rfl, rfl⟩
  have hparts : ∀ p ∈ [([.fallback (some ":x"), scalar], q₁), ([.fallback (some ":x"), list], q₂)],
      MadeBy p.1 p.2 := by simpa using ⟨.built h₁, .built h₂⟩
  obtain ⟨hboth, -, hrefused, -⟩ := declared_both_iff (.concat hparts h) "x"
  refine ⟨?_, q₁, q₂, q, h₁, h₂, h, hboth.2 ⟨?_, ?_⟩⟩
  · exact hrefused [.fallback (some ":x"), scalar] list [] _ rfl ⟨by decide, by decide +kernel⟩
  · exact ⟨scalar, by simp, by decide +kernel⟩
  · exact ⟨list, by simp, by decide +kernel⟩

end Query

end SqlAccess
