import Mathlib.Data.List.Forall2
import SqlAccess.Proofs.Declarations
import SqlAccess.Statement.Parameter

/-!
# Resolved parameters

A name resolves to a parameter if each name that owns slots of it is declared with a type that has
an accessor (`Parameter.resolve_eq_ok_iff`). A single parameter owns its slots itself, and those of
a list belong to its elements (`Declarations.targets`).
-/

namespace SqlAccess

/-- The names that own the slots of a parameter: its own, or those of its elements. -/
def Declarations.targets (d : Declarations) (key : Bytes) : List Bytes :=
  match d.lists.find? key with
  | none => [key]
  | some size => (List.range (elementCount size)).map (elementName key)

variable {accessors : Accessors} {d : Descriptor} {shown name spelled : Bytes} {x : Destination}
  {p : Parameter}

/-- The destination of a declared name: the slots that it owns, and the accessor of its type. -/
def Destination.Of (accessors : Accessors) (d : Descriptor) (name : Bytes) (x : Destination) :
    Prop :=
  ∃ type, d.declarations.parameters.find? name = some type ∧ accessors type = some x.accessor ∧
    x.slots = d.slots name

theorem Destination.resolve_eq_ok_iff :
    resolve accessors d shown name = .ok x ↔ x.Of accessors d name := by
  obtain ⟨accessor, slots⟩ := x
  unfold resolve Of
  cases d.declarations.parameters.find? name with
  | none => simp [throw, throwThe, MonadExceptOf.throw]
  | some type =>
    cases ha : accessors type with
    | none => simp [ha, throw, throwThe, MonadExceptOf.throw]
    | some found => simp [ha, pure, Except.pure, eq_comm]

theorem mapM_eq_ok_iff {α β : Type} {f : α → Except Fault β} {l : List α} {l' : List β} :
    l.mapM f = .ok l' ↔ List.Forall₂ (fun a b => f a = .ok b) l l' := by
  induction l generalizing l' with
  | nil => simp [pure, Except.pure, eq_comm]
  | cons a l ih =>
    rw [List.mapM_cons, List.forall₂_cons_left_iff, bind_eq_ok_iff]
    simp only [bind_eq_ok_iff, ih]
    constructor
    · rintro ⟨b, hb, bs, hbs, hl⟩
      cases hl
      exact ⟨b, bs, hb, hbs, rfl⟩
    · rintro ⟨b, bs, hb, hbs, rfl⟩
      exact ⟨b, hb, bs, hbs, rfl⟩

/-- A parameter of a statement, by its lower-case name: it is a list if it was declared as one, and
has a destination for each name that owns slots of it. -/
structure Parameter.Of (accessors : Accessors) (d : Descriptor) (p : Parameter) : Prop where
  isList : p.isList = (d.declarations.lists.find? p.name).isSome
  destinations : List.Forall₂ (fun name x => x.Of accessors d name)
    (d.declarations.targets p.name) p.destinations

theorem Parameter.resolve_eq_ok_iff : resolve accessors d spelled = .ok p ↔
    p.name = Name.toLower spelled ∧ p.Of accessors d := by
  obtain ⟨key, isList, destinations⟩ := p
  unfold resolve
  constructor
  · intro h
    dsimp only at h
    cases hl : d.declarations.lists.find? (Name.toLower spelled) with
    | none =>
      rw [hl] at h
      obtain ⟨x, hx, h⟩ := bind_eq_ok_iff.1 h
      cases h
      refine ⟨rfl, by simp [hl], ?_⟩
      simp only [Declarations.targets, hl]
      exact .cons (Destination.resolve_eq_ok_iff.1 hx) .nil
    | some size =>
      rw [hl] at h
      obtain ⟨xs, hxs, h⟩ := bind_eq_ok_iff.1 h
      cases h
      refine ⟨rfl, by simp [hl], ?_⟩
      simp only [Declarations.targets, hl]
      exact (mapM_eq_ok_iff.1 hxs).imp fun _ _ => Destination.resolve_eq_ok_iff.1
  · rintro ⟨rfl, hlist, hdest⟩
    dsimp only at hlist hdest ⊢
    cases hl : d.declarations.lists.find? (Name.toLower spelled) with
    | none =>
      simp only [Declarations.targets, hl, Option.isSome_none] at hlist hdest
      subst hlist
      obtain ⟨x, _, hx, hnil, rfl⟩ := List.forall₂_cons_left_iff.1 hdest
      cases hnil
      simp [Destination.resolve_eq_ok_iff.2 hx, bind, Except.bind, pure, Except.pure]
    | some size =>
      simp only [Declarations.targets, hl, Option.isSome_some] at hlist hdest
      subst hlist
      have hmap := mapM_eq_ok_iff.2 (hdest.imp fun name x h =>
        (Destination.resolve_eq_ok_iff.2 h : Destination.resolve accessors d name name = .ok x))
      simp [hmap, bind, Except.bind, pure, Except.pure]

/-! ## Names that do not resolve -/

theorem exists_of_mapM_eq_error {α β : Type} {f : α → Except Fault β} {l : List α} {e : Fault}
    (h : l.mapM f = .error e) : ∃ a ∈ l, f a = .error e := by
  induction l with
  | nil => cases h
  | cons a l ih =>
    rw [List.mapM_cons] at h
    obtain ha | ⟨b, -, h⟩ := bind_eq_error_iff.1 h
    · exact ⟨a, List.mem_cons_self, ha⟩
    · obtain hl | ⟨bs, -, ⟨⟩⟩ := bind_eq_error_iff.1 h
      obtain ⟨a', ha', he⟩ := ih hl
      exact ⟨a', List.mem_cons_of_mem _ ha', he⟩

theorem Destination.resolve_fault {f : Fault} (h : resolve accessors d shown name = .error f) :
    f.kind = .noType ∨ f.kind = .noAccessor := by
  unfold resolve at h
  cases hp : d.declarations.parameters.find? name with
  | none =>
    rw [hp] at h
    cases h
    exact .inl rfl
  | some type =>
    cases ha : accessors type with
    | none =>
      simp only [hp, ha] at h
      cases h
      exact .inr rfl
    | some accessor =>
      simp only [hp, ha] at h
      cases h

/-- A name fails to resolve for want of a declared type or of its accessor. -/
theorem Parameter.resolve_fault {f : Fault} (h : resolve accessors d spelled = .error f) :
    f.kind = .noType ∨ f.kind = .noAccessor := by
  unfold resolve at h
  dsimp only at h
  cases hl : d.declarations.lists.find? (Name.toLower spelled) with
  | none =>
    rw [hl] at h
    obtain hx | ⟨x, -, ⟨⟩⟩ := bind_eq_error_iff.1 h
    exact Destination.resolve_fault hx
  | some size =>
    rw [hl] at h
    obtain hxs | ⟨xs, -, ⟨⟩⟩ := bind_eq_error_iff.1 h
    obtain ⟨e, -, he⟩ := exists_of_mapM_eq_error hxs
    exact Destination.resolve_fault he

end SqlAccess
