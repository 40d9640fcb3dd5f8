import SqlAccess.Proofs.Declarations
import SqlAccess.Proofs.Slots
import SqlAccess.Query.Builder

/-!
# Queries that can be made

A query is built by steps, or composed of queries that were made before (`Query.MadeBy`). What a
step declares is a set of declarations of its own (`BuildStep.declared`), and however the steps were
spread over builders, the query declares what they declare and no more (`Query.MadeBy.collects`).
-/

namespace SqlAccess

/-! ## Steps of a builder -/

namespace BuildStep

/-- What a step declares. -/
def declared : BuildStep → Declarations
  | parameter (some name) type => { parameters := NameMap.empty.insert (Name.toLower name) type }
  | list (some name) type size => .ofList (Name.toLower name) type size
  | column (some name) type => { columns := NameMap.empty.insert (Name.toLower name) type }
  | key (some name) type => { keys := NameMap.empty.insert (Name.toLower name) type }
  | _ => {}

/-- A step declares a name as a parameter that is a list, or as a list that is a parameter. -/
def Clashes (d : Declarations) : BuildStep → Prop
  | parameter (some name) _ => d.lists.contains (Name.toLower name)
  | list (some name) _ size => 0 < size ∧ d.parameters.contains (Name.toLower name)
  | _ => False

end BuildStep

namespace NameMap

variable {α : Type} {m : NameMap α} {name : Bytes} {value : α}

/-- A map with one more entry collects that entry and the others. -/
theorem collects_insert (h : ∀ b, m.find? name = some b → b = value) :
    (m.insert name value).Collects [m, empty.insert name value] := by
  intro other a
  have hmem := find?_insert_or_mem (l := []) h other a
  simp only [List.not_mem_nil, or_false] at hmem
  rw [hmem]
  simp [find?_singleton]

end NameMap

namespace Builder

variable {b b' : Builder} {x : BuildStep} {steps : List BuildStep} {q : Query}

theorem declarations_of_addVariant {type sql : Option Bytes} {version : VersionPredicate}
    (h : b.addVariant type version sql = .ok b') : b'.declarations = b.declarations := by
  unfold addVariant at h
  split at h
  · split at h
    · cases h
      rfl
    · cases h
  · cases h

theorem collects_of_addParameter {name : Bytes} {type : ValueType}
    (h : b.addParameter name type = .ok b') :
    b'.declarations.Collects
        [b.declarations, { parameters := NameMap.empty.insert (Name.toLower name) type }] ∧
      ¬b.declarations.lists.contains (Name.toLower name) := by
  obtain ⟨types, htypes, h⟩ := bind_eq_ok_iff.1 h
  obtain ⟨hfree, rfl⟩ := ((Declarations.adds_addType .parameter fun _ => name).ok _ _ _ _).1 htypes
  split at h
  · cases h
  · next hlist =>
    cases h
    exact ⟨⟨NameMap.collects_insert hfree, .of_empty _, .of_empty _, .of_empty _⟩, hlist⟩

theorem collects_of_addList {name : Bytes} {type : ValueType} {size : Int32}
    (h : b.addList name type size = .ok b') :
    b'.declarations.Collects [b.declarations, .ofList (Name.toLower name) type size] ∧
      ¬b.declarations.parameters.contains (Name.toLower name) := by
  unfold addList at h
  dsimp only at h
  split at h
  · cases h
  · next hscalar =>
    obtain ⟨declarations, hmerge, h⟩ := bind_eq_ok_iff.1 h
    cases h
    exact ⟨Declarations.merge_eq_ok_iff.1 hmerge, hscalar⟩

theorem collects_of_addColumn {name : Bytes} {type : ValueType}
    (h : b.addColumn name type = .ok b') : b'.declarations.Collects
      [b.declarations, { columns := NameMap.empty.insert (Name.toLower name) type }] := by
  obtain ⟨types, htypes, h⟩ := bind_eq_ok_iff.1 h
  obtain ⟨hfree, rfl⟩ := ((Declarations.adds_addType .column fun _ => name).ok _ _ _ _).1 htypes
  cases h
  exact ⟨.of_empty _, .of_empty _, NameMap.collects_insert hfree, .of_empty _⟩

theorem collects_of_addKey {name : Bytes} {type : ValueType}
    (h : b.addKey name type = .ok b') : b'.declarations.Collects
      [b.declarations, { keys := NameMap.empty.insert (Name.toLower name) type }] := by
  obtain ⟨types, htypes, h⟩ := bind_eq_ok_iff.1 h
  obtain ⟨hfree, rfl⟩ := ((Declarations.adds_addType .key fun _ => name).ok _ _ _ _).1 htypes
  cases h
  exact ⟨.of_empty _, .of_empty _, .of_empty _, NameMap.collects_insert hfree⟩

/-- A builder that takes a step declares what the step declares as well, and nothing of that was
declared in the other way. -/
theorem collects_of_step (h : b.step x = .ok b') :
    b'.declarations.Collects [b.declarations, x.declared] ∧ ¬x.Clashes b.declarations := by
  have keeps (hd : b'.declarations = b.declarations) :
      b'.declarations.Collects [b.declarations, {}] := hd ▸ .of_empty _
  cases x with
  | forType type sql =>
    have h : b.addVariant type .any sql = .ok b' := h
    exact ⟨keeps (declarations_of_addVariant h), id⟩
  | forVersion type version sql => exact ⟨keeps (declarations_of_addVariant h), id⟩
  | fallback sql =>
    cases sql with
    | none => cases h
    | some sql =>
      cases h
      exact ⟨keeps rfl, id⟩
  | parameter name type =>
    cases name with
    | none => cases h
    | some name => exact collects_of_addParameter h
  | list name type size =>
    cases name with
    | none => cases h
    | some name =>
      simp only [step] at h
      split at h
      · cases h
      · obtain ⟨hcollects, hfree⟩ := collects_of_addList h
        exact ⟨hcollects, fun hclash => hfree hclash.2⟩
  | column name type =>
    cases name with
    | none => cases h
    | some name => exact ⟨collects_of_addColumn h, id⟩
  | key name type =>
    cases name with
    | none => cases h
    | some name => exact ⟨collects_of_addKey h, id⟩

theorem foldlM_step_cons_eq_ok_iff : (x :: steps).foldlM step b = .ok b' ↔
    ∃ b₁, b.step x = .ok b₁ ∧ steps.foldlM step b₁ = .ok b' := by
  rw [List.foldlM_cons, bind_eq_ok_iff]

/-- A builder declares what its steps declare, and no more. -/
theorem collects_of_foldlM (h : steps.foldlM step b = .ok b') :
    b'.declarations.Collects (b.declarations :: steps.map BuildStep.declared) := by
  induction steps generalizing b with
  | nil =>
    obtain rfl := Except.ok.inj h
    exact Declarations.collects_singleton.2 rfl
  | cons x steps ih =>
    obtain ⟨b₁, hx, h⟩ := foldlM_step_cons_eq_ok_iff.1 h
    exact (collects_of_step hx).1.cons_iff.1 (ih h)

/-- Each step of a builder was taken. -/
theorem exists_step_of_mem (h : steps.foldlM step b = .ok b') (hx : x ∈ steps) :
    ∃ b₁ b₂ : Builder, b₁.step x = .ok b₂ := by
  induction steps generalizing b with
  | nil => cases hx
  | cons y steps ih =>
    obtain ⟨b₁, hy, h⟩ := foldlM_step_cons_eq_ok_iff.1 h
    obtain rfl | hx := List.mem_cons.1 hx
    · exact ⟨b, b₁, hy⟩
    · exact ih h hx

theorem forM_map_eq_ok_iff {α β : Type} {f : α → Except Fault β} {l : List α} :
    (forM l fun a => (f a).map fun _ => ()) = .ok () ↔ ∀ a ∈ l, ∃ e, f a = .ok e := by
  induction l with
  | nil => simp [pure, Except.pure]
  | cons a l ih =>
    rw [List.forM_cons, bind_eq_ok_iff, List.forall_mem_cons, ← ih]
    cases f a <;> simp [Except.map]

/-- A query is built once there is a text and all texts have been scanned. -/
theorem finish_eq_ok_iff : b.finish = .ok q ↔ b.texts ≠ [] ∧
    (∀ sql ∈ b.texts, ∃ e, expandText b.declarations.lists sql = .ok e) ∧
      q = { source := .text b.variants b.fallback, declarations := b.declarations } := by
  unfold finish
  rw [List.forM_eq_forM]
  split
  · next hempty => simp [List.isEmpty_iff.1 hempty]
  · next hempty =>
    have hne : b.texts ≠ [] := fun h => hempty (List.isEmpty_iff.2 h)
    rw [bind_eq_ok_iff, ← forM_map_eq_ok_iff]
    constructor
    · rintro ⟨_, hall, hq⟩
      exact ⟨hne, hall, (Except.ok.inj hq).symm⟩
    · rintro ⟨-, hall, rfl⟩
      exact ⟨(), hall, rfl⟩

end Builder

/-- What is made of a text has the declarations that it is made with. -/
theorem Descriptor.declarations_of_create {d : Descriptor} {text : Bytes}
    {declarations : Declarations} (h : create text declarations = .ok d) :
    d.declarations = declarations := by
  obtain ⟨e, -, rfl⟩ := create_eq_ok h
  rfl

/-! ## Composing queries -/

namespace Query

variable {q t : Query} {qs : List Query} {sofar r : List Source × Declarations}

/-- A query is resolved to what is made of its text. -/
theorem resolve_eq_ok_iff {info : DatabaseInfo} {d : Descriptor} : q.resolve info = .ok d ↔
    ∃ text, q.source.textFor info = .ok text ∧ Descriptor.create text q.declarations = .ok d :=
  bind_eq_ok_iff

theorem addPart_eq_ok_iff : addPart sofar (some q) = .ok r ↔
    r.1 = sofar.1 ++ [q.source] ∧ sofar.2.merge q.declarations = .ok r.2 := by
  obtain ⟨sources, declarations⟩ := r
  simp only [addPart, bind_eq_ok_iff]
  constructor
  · rintro ⟨_, hmerge, hr⟩
    cases hr
    exact ⟨rfl, hmerge⟩
  · rintro ⟨rfl, hmerge⟩
    exact ⟨_, hmerge, rfl⟩

theorem foldlM_addPart_eq_ok_iff : (qs.map some).foldlM addPart sofar = .ok r ↔
    r.1 = sofar.1 ++ qs.map (·.source) ∧
      (qs.map (·.declarations)).foldlM Declarations.merge sofar.2 = .ok r.2 := by
  induction qs generalizing sofar with
  | nil =>
    constructor
    · intro h
      obtain rfl := Except.ok.inj h
      exact ⟨by simp, rfl⟩
    · rintro ⟨hsources, hmerges⟩
      obtain ⟨sources, d⟩ := r
      obtain rfl : sofar.2 = d := Except.ok.inj hmerges
      obtain rfl : sources = sofar.1 := by simpa using hsources
      rfl
  | cons q qs ih =>
    simp only [List.map_cons, List.foldlM_cons, bind_eq_ok_iff, ih, addPart_eq_ok_iff]
    constructor
    · rintro ⟨s, ⟨hsource, hmerge⟩, hsources, hmerges⟩
      exact ⟨by simp [hsources, hsource], _, hmerge, hmerges⟩
    · rintro ⟨hsources, d, hmerge, hmerges⟩
      exact ⟨(sofar.1 ++ [q.source], d), ⟨rfl, hmerge⟩, by simp [hsources], hmerges⟩

/-- Queries that were built are gathered if their declarations can be merged. -/
theorem gather_eq_ok_iff : gather (qs.map some) = .ok r ↔
    r.1 = qs.map (·.source) ∧ r.2.Collects (qs.map (·.declarations)) := by
  rw [gather, foldlM_addPart_eq_ok_iff, Declarations.foldlM_merge_eq_ok_iff,
    Declarations.collects_empty_cons, List.nil_append]

/-- Putting queries one after another puts their sources so, and collects their declarations. -/
theorem concat_eq_ok_iff : concat (qs.map some) = .ok q ↔
    q.source = .concat (qs.map (·.source)) ∧
      q.declarations.Collects (qs.map (·.declarations)) := by
  obtain ⟨source, declarations⟩ := q
  simp only [concat, bind_eq_ok_iff, gather_eq_ok_iff]
  constructor
  · rintro ⟨⟨_, _⟩, ⟨rfl, hcollects⟩, hq⟩
    cases hq
    exact ⟨rfl, hcollects⟩
  · rintro ⟨rfl, hcollects⟩
    exact ⟨(_, declarations), ⟨rfl, hcollects⟩, rfl⟩

/-- Putting arguments into a format does the same with it and them. -/
theorem format_eq_ok_iff : format (some t) (qs.map some) = .ok q ↔
    q.source = .format t.source (qs.map (·.source)) ∧
      q.declarations.Collects ((t :: qs).map (·.declarations)) := by
  obtain ⟨source, declarations⟩ := q
  simp only [format, ← List.map_cons, bind_eq_ok_iff, gather_eq_ok_iff]
  constructor
  · rintro ⟨⟨_, _⟩, ⟨rfl, hcollects⟩, hq⟩
    cases hq
    exact ⟨rfl, hcollects⟩
  · rintro ⟨rfl, hcollects⟩
    exact ⟨(_ :: _, declarations), ⟨rfl, hcollects⟩, rfl⟩

/-- Queries can be put one after another if each two of them agree in their declarations. -/
theorem exists_concat_iff : (∃ q, concat (qs.map some) = .ok q) ↔
    (qs.map (·.declarations)).Pairwise Declarations.Agree := by
  rw [← Declarations.exists_collects_iff]
  constructor
  · rintro ⟨q, hq⟩
    exact ⟨_, (concat_eq_ok_iff.1 hq).2⟩
  · rintro ⟨u, hu⟩
    exact ⟨⟨_, u⟩, concat_eq_ok_iff.2 ⟨rfl, hu⟩⟩

theorem exists_format_iff : (∃ q, format (some t) (qs.map some) = .ok q) ↔
    ((t :: qs).map (·.declarations)).Pairwise Declarations.Agree := by
  rw [← Declarations.exists_collects_iff]
  constructor
  · rintro ⟨q, hq⟩
    exact ⟨_, (format_eq_ok_iff.1 hq).2⟩
  · rintro ⟨u, hu⟩
    exact ⟨⟨_, u⟩, format_eq_ok_iff.2 ⟨rfl, hu⟩⟩

/-- Queries that were built are refused only where they are in conflict. -/
theorem kind_of_foldlM_addPart {f : Fault} (h : (qs.map some).foldlM addPart sofar = .error f) :
    f.kind = .typeConflict := by
  induction qs generalizing sofar with
  | nil => cases h
  | cons q qs ih =>
    rw [List.map_cons, List.foldlM_cons, bind_eq_error_iff] at h
    obtain h | ⟨r, -, h⟩ := h
    · obtain hmerge | ⟨_, -, h⟩ := bind_eq_error_iff.1 h
      · exact Declarations.kind_of_merge hmerge
      · cases h
    · exact ih h

theorem kind_of_concat {f : Fault} (h : concat (qs.map some) = .error f) :
    f.kind = .typeConflict := by
  obtain h | ⟨_, -, h⟩ := bind_eq_error_iff.1 h
  · exact kind_of_foldlM_addPart h
  · cases h

theorem kind_of_format {f : Fault} (h : format (some t) (qs.map some) = .error f) :
    f.kind = .typeConflict := by
  obtain h | ⟨⟨sources, d⟩, hgather, h⟩ := bind_eq_error_iff.1 h
  · have h : ((t :: qs).map some).foldlM addPart ([], {}) = .error f := h
    exact kind_of_foldlM_addPart h
  · rw [← List.map_cons, gather_eq_ok_iff] at hgather
    obtain ⟨rfl, -⟩ := hgather
    cases h

/-! ## All queries -/

/-- The queries that can be made, with the steps of their builders one after another. -/
inductive MadeBy : List BuildStep → Query → Prop
  | built {steps : List BuildStep} {q : Query} (h : Builder.build steps = .ok q) : MadeBy steps q
  | concat {parts : List (List BuildStep × Query)} {q : Query}
    (hparts : ∀ p ∈ parts, MadeBy p.1 p.2)
    (h : Query.concat ((parts.map (·.2)).map some) = .ok q) : MadeBy (parts.flatMap (·.1)) q
  | format {template : List BuildStep × Query} {args : List (List BuildStep × Query)} {q : Query}
    (hparts : ∀ p ∈ template :: args, MadeBy p.1 p.2)
    (h : Query.format (some template.2) ((args.map (·.2)).map some) = .ok q) :
    MadeBy ((template :: args).flatMap (·.1)) q

namespace MadeBy

variable {steps : List BuildStep}

/-- A query of one text is built, too. -/
theorem of {sql : Option Bytes} {parameters columns : TypeMap}
    (h : Query.of sql parameters columns = .ok q) : ∃ steps, MadeBy steps q := ⟨_, .built h⟩

/-- A query declares what the steps of its builders declare, and no more. -/
theorem collects (h : MadeBy steps q) :
    q.declarations.Collects (steps.map BuildStep.declared) := by
  have composed {parts : List (List BuildStep × Query)} {u : Declarations}
      (hparts : ∀ p ∈ parts, p.2.declarations.Collects (p.1.map BuildStep.declared))
      (hu : u.Collects ((parts.map (·.2)).map (·.declarations))) :
      u.Collects ((parts.flatMap (·.1)).map BuildStep.declared) := by
    rw [List.map_flatMap]
    exact Declarations.Collects.flatMap (List.map_map ▸ hu) hparts
  induction h with
  | built h =>
    obtain ⟨b, hsteps, hb⟩ := bind_eq_ok_iff.1 h
    obtain ⟨-, -, rfl⟩ := Builder.finish_eq_ok_iff.1 hb
    exact Declarations.collects_empty_cons.1 (Builder.collects_of_foldlM hsteps)
  | concat hparts h ih =>
    exact composed ih (concat_eq_ok_iff.1 h).2
  | format hparts h ih =>
    exact composed ih (format_eq_ok_iff.1 h).2

/-- Each step of the builders was taken. -/
theorem exists_step (h : MadeBy steps q) {x : BuildStep} (hx : x ∈ steps) :
    ∃ b b' : Builder, b.step x = .ok b' := by
  induction h with
  | built h =>
    obtain ⟨b, hsteps, -⟩ := bind_eq_ok_iff.1 h
    exact Builder.exists_step_of_mem hsteps hx
  | concat hparts h ih | format hparts h ih =>
    obtain ⟨p, hp, hx⟩ := List.mem_flatMap.1 hx
    exact ih p hp hx

end MadeBy

end Query

end SqlAccess
