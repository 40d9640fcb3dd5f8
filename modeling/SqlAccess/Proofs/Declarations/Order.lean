import Mathlib.Data.List.Induction
import SqlAccess.Proofs.Declarations

/-!
# Merging in any order

Sets of declarations are merged one after another, and each is compared with what the others before
it have come to. That is as good as comparing each two of them, so neither their order nor the way
they are grouped matters (`Declarations.merge_comm`, `Declarations.merge_assoc`). Where the merging
fails, the fault tells of a name that two of the sets declare differently
(`Declarations.Conflict`).
-/

namespace SqlAccess

namespace NameMap

variable {α : Type} {u : NameMap α} {ms ns : List (NameMap α)}

/-- It does not matter in which order maps are collected. -/
theorem Collects.perm (h : u.Collects ms) (hp : ms.Perm ns) : u.Collects ns := by
  intro name a
  simp only [h name a, hp.mem_iff]

end NameMap

/-! ## What a refused entry tells -/

/-- Adding an entry is refused only where the name has another value, and the fault tells both. -/
def Blames {α : Type} (add : NameMap α → Bytes → α → Except Fault (NameMap α))
    (conflict : Bytes → α → α → Fault) : Prop :=
  ∀ m name b f, add m name b = .error f →
    ∃ a, m.find? name = some a ∧ a ≠ b ∧ f = conflict name a b

namespace Blames

variable {α : Type} {m n : NameMap α} {l : List (Bytes × α)} {f : Fault}
  {add : NameMap α → Bytes → α → Except Fault (NameMap α)} {conflict : Bytes → α → α → Fault}

/-- Where entries with different names are added, the value that is in the way of one was there
before all of them. -/
theorem exists_of_foldlM (ht : Blames add conflict) (ha : Adds add)
    (hl : l.Pairwise fun d e => d.1 < e.1) (hf : l.foldlM (fun m e => add m e.1 e.2) m = .error f) :
    ∃ e ∈ l, ∃ a, m.find? e.1 = some a ∧ a ≠ e.2 ∧ f = conflict e.1 a e.2 := by
  induction l generalizing m with
  | nil => cases hf
  | cons e l ih =>
    obtain ⟨hlt, hl⟩ := List.pairwise_cons.1 hl
    rw [List.foldlM_cons, bind_eq_error_iff] at hf
    rcases hf with hf | ⟨m', hadd, hf⟩
    · exact ⟨e, List.mem_cons_self, ht m e.1 e.2 f hf⟩
    · obtain ⟨-, rfl⟩ := (ha.ok m e.1 e.2 m').1 hadd
      obtain ⟨d, hd, a, hfind, hne, rfl⟩ := ih hl hf
      have hname : d.1 ≠ e.1 := by
        intro heq
        exact List.lt_irrefl e.1 (heq ▸ hlt d hd)
      rw [NameMap.find?_insert, if_neg hname] at hfind
      exact ⟨d, List.mem_cons_of_mem _ hd, a, hfind, hne, rfl⟩

/-- Where a map cannot be added to another, the fault tells a name to which they give different
values. -/
theorem exists_of_merge (ht : Blames add conflict) (ha : Adds add)
    (hf : n.entries.foldlM (fun m e => add m e.1 e.2) m = .error f) :
    ∃ name a b, m.find? name = some a ∧ n.find? name = some b ∧ a ≠ b ∧ f = conflict name a b := by
  obtain ⟨e, he, a, hfind, hne, hfault⟩ := ht.exists_of_foldlM ha n.sorted hf
  exact ⟨e.1, a, e.2, hfind, NameMap.mem_entries.1 he, hne, hfault⟩

end Blames

namespace Declarations

variable {c d more u : Declarations} {ds es : List Declarations} {role : Role} {f : Fault}

theorem blames_addType (role : Role) :
    Blames (fun types name type => addType role name types name type)
      (Fault.typeConflict role) := by
  intro m name b f hf
  simp only [addType] at hf
  split at hf
  · cases hf
  · next a ha =>
    split at hf
    · cases hf
    · next hne => exact ⟨a, ha, hne, (Except.error.inj hf).symm⟩

theorem blames_addSize : Blames addSize Fault.sizeConflict := by
  intro m name b f hf
  simp only [addSize] at hf
  split at hf
  · cases hf
  · next a ha =>
    split at hf
    · cases hf
    · next hne => exact ⟨a, ha, hne, (Except.error.inj hf).symm⟩

/-! ## Sets in conflict -/

/-- A fault tells of a name that two sets declare differently, with what each of them says. -/
inductive Conflict (d more : Declarations) : Fault → Prop
  | parameter {name : Bytes} {a b : ValueType} (hd : d.parameters.find? name = some a)
    (hmore : more.parameters.find? name = some b) (hne : a ≠ b) :
    Conflict d more (.typeConflict .parameter name a b)
  | list {name : Bytes} {a b : Int32} (hd : d.lists.find? name = some a)
    (hmore : more.lists.find? name = some b) (hne : a ≠ b) :
    Conflict d more (.sizeConflict name a b)
  | column {name : Bytes} {a b : ValueType} (hd : d.columns.find? name = some a)
    (hmore : more.columns.find? name = some b) (hne : a ≠ b) :
    Conflict d more (.typeConflict .column name a b)
  | key {name : Bytes} {a b : ValueType} (hd : d.keys.find? name = some a)
    (hmore : more.keys.find? name = some b) (hne : a ≠ b) :
    Conflict d more (.typeConflict .key name a b)

theorem Conflict.kind (h : Conflict d more f) : f.kind = .typeConflict := by
  cases h <;> rfl

theorem Conflict.not_agree (h : Conflict d more f) : ¬d.Agree more := by
  intro hagree
  cases h with
  | parameter hd hmore hne => exact hne (hagree.parameters _ _ _ hd hmore)
  | list hd hmore hne => exact hne (hagree.lists _ _ _ hd hmore)
  | column hd hmore hne => exact hne (hagree.columns _ _ _ hd hmore)
  | key hd hmore hne => exact hne (hagree.keys _ _ _ hd hmore)

/-- What collected sets are in conflict with, one of them is in conflict with. -/
theorem Collects.exists_conflict (h : u.Collects ds) (hc : Conflict u more f) :
    ∃ d ∈ ds, Conflict d more f := by
  cases hc with
  | parameter hd hmore hne =>
    obtain ⟨_, hm, ha⟩ := (h.parameters _ _).1 hd
    obtain ⟨d, hmem, rfl⟩ := List.mem_map.1 hm
    exact ⟨d, hmem, .parameter ha hmore hne⟩
  | list hd hmore hne =>
    obtain ⟨_, hm, ha⟩ := (h.lists _ _).1 hd
    obtain ⟨d, hmem, rfl⟩ := List.mem_map.1 hm
    exact ⟨d, hmem, .list ha hmore hne⟩
  | column hd hmore hne =>
    obtain ⟨_, hm, ha⟩ := (h.columns _ _).1 hd
    obtain ⟨d, hmem, rfl⟩ := List.mem_map.1 hm
    exact ⟨d, hmem, .column ha hmore hne⟩
  | key hd hmore hne =>
    obtain ⟨_, hm, ha⟩ := (h.keys _ _).1 hd
    obtain ⟨d, hmem, rfl⟩ := List.mem_map.1 hm
    exact ⟨d, hmem, .key ha hmore hne⟩

/-- Sets that cannot be merged are in conflict. -/
theorem conflict_of_merge (h : d.merge more = .error f) : Conflict d more f := by
  have types {types more : TypeMap} {role : Role} (h : mergeTypes role types more = .error f) :
      ∃ name a b, types.find? name = some a ∧ more.find? name = some b ∧ a ≠ b ∧
        f = .typeConflict role name a b :=
    (blames_addType role).exists_of_merge (adds_addType role id) h
  simp only [merge, bind_eq_error_iff] at h
  rcases h with h | ⟨_, -, h | ⟨_, -, h | ⟨_, -, h | ⟨_, -, h⟩⟩⟩⟩
  · obtain ⟨name, a, b, hd, hmore, hne, rfl⟩ := types h
    exact .parameter hd hmore hne
  · obtain ⟨name, a, b, hd, hmore, hne, rfl⟩ := blames_addSize.exists_of_merge adds_addSize h
    exact .list hd hmore hne
  · obtain ⟨name, a, b, hd, hmore, hne, rfl⟩ := types h
    exact .column hd hmore hne
  · obtain ⟨name, a, b, hd, hmore, hne, rfl⟩ := types h
    exact .key hd hmore hne
  · cases h

/-- Where sets cannot be merged one after another, two of them are in conflict. -/
theorem conflict_of_foldlM (h : ds.foldlM merge d = .error f) :
    ∃ c more, [c, more].Sublist (d :: ds) ∧ Conflict c more f := by
  induction ds using List.reverseRecOn with
  | nil => cases h
  | append_singleton ds more ih =>
    rw [List.foldlM_append, bind_eq_error_iff] at h
    rcases h with h | ⟨u, hu, h⟩
    · obtain ⟨c, e, hsub, hc⟩ := ih h
      exact ⟨c, e, hsub.trans (List.sublist_append_left (d :: ds) [more]), hc⟩
    · simp only [List.foldlM_cons, List.foldlM_nil, bind_pure] at h
      obtain ⟨c, hmem, hc⟩ := (foldlM_merge_eq_ok_iff.1 hu).exists_conflict (conflict_of_merge h)
      have hsub : ([c] ++ [more]).Sublist ((d :: ds) ++ [more]) :=
        (List.singleton_sublist.2 hmem).append_right [more]
      exact ⟨c, more, hsub, hc⟩

/-! ## Any order -/

theorem Agree.of_empty (d : Declarations) : ({} : Declarations).Agree d :=
  ⟨.of_empty _, .of_empty _, .of_empty _, .of_empty _⟩

/-- It does not matter in which order sets are collected. -/
theorem Collects.perm (h : u.Collects ds) (hp : ds.Perm es) : u.Collects es :=
  ⟨h.parameters.perm (hp.map _), h.lists.perm (hp.map _), h.columns.perm (hp.map _),
    h.keys.perm (hp.map _)⟩

theorem toOption_eq_some_iff {α : Type} {x : Except Fault α} {a : α} :
    x.toOption = some a ↔ x = .ok a := by
  cases x <;> simp [Except.toOption]

/-- What two sets come to does not depend on which of them is merged into the other. -/
theorem merge_comm (d more : Declarations) : (d.merge more).toOption = (more.merge d).toOption := by
  ext u
  simp only [toOption_eq_some_iff, merge_eq_ok_iff]
  exact ⟨fun h => h.perm (.swap _ _ _), fun h => h.perm (.swap _ _ _)⟩

/-- Merging a set into what two others come to collects the three. -/
theorem bind_merge_eq_some_iff : ((c.merge d).toOption.bind fun e => (e.merge more).toOption) =
    some u ↔ u.Collects [c, d, more] := by
  rw [← foldlM_merge_eq_ok_iff, List.foldlM_cons, bind_eq_ok_iff, Option.bind_eq_some_iff]
  simp only [toOption_eq_some_iff, List.foldlM_cons, List.foldlM_nil, bind_pure]

/-- What three sets come to does not depend on which two of them are merged first. -/
theorem merge_assoc (c d more : Declarations) :
    ((c.merge d).toOption.bind fun e => (e.merge more).toOption) =
      (d.merge more).toOption.bind fun e => (c.merge e).toOption := by
  have hrotated : ([c] ++ [d, more]).Perm ([d, more] ++ [c]) := List.perm_append_comm
  ext u
  rw [bind_merge_eq_some_iff]
  simp only [merge_comm c]
  rw [bind_merge_eq_some_iff]
  exact ⟨fun h => h.perm hrotated, fun h => h.perm hrotated.symm⟩

/-- Merging sets one after another is a union that is refused exactly if two of them differ on a
name, and the fault tells that name. The result is the same in every order. -/
theorem merged_in_any_order (ds : List Declarations) :
    ((∃ u, mergeAll ds = .ok u) ↔ ds.Pairwise Agree) ∧
      (∀ f, mergeAll ds = .error f →
        f.kind = .typeConflict ∧ ∃ d more, [d, more].Sublist ds ∧ Conflict d more f) ∧
      (∀ u, mergeAll ds = .ok u ↔ u.Collects ds) ∧
      ∀ es, ds.Perm es → (mergeAll es).toOption = (mergeAll ds).toOption := by
  have hok (ds : List Declarations) (u : Declarations) : mergeAll ds = .ok u ↔ u.Collects ds := by
    rw [mergeAll, foldlM_merge_eq_ok_iff, collects_empty_cons]
  refine ⟨?_, ?_, hok ds, ?_⟩
  · simp only [hok]
    exact exists_collects_iff
  · intro f hf
    obtain ⟨d, more, hsub, hc⟩ := conflict_of_foldlM hf
    refine ⟨hc.kind, d, more, ?_, hc⟩
    rcases List.sublist_cons_iff.1 hsub with hsub | ⟨_, hd, -⟩
    · exact hsub
    · -- nothing is in conflict with the empty set
      obtain ⟨rfl, -⟩ := List.cons.inj hd
      exact absurd (.of_empty more) hc.not_agree
  · intro es hp
    ext u
    simp only [toOption_eq_some_iff, hok]
    exact ⟨fun h => h.perm hp.symm, fun h => h.perm hp⟩

/-- Three sets come to the same in two orders, and a fourth one that has another type for a name is
refused. -/
theorem merged_in_two_orders :
    let scalar : Declarations := { parameters := .ofList [("id", .int32)] }
    let list : Declarations := .ofList "ids" .text 2
    let column : Declarations := { columns := .ofList [("id", .text)] }
    let other : Declarations := { parameters := .ofList [("id", .text)] }
    (∃ u, mergeAll [scalar, list, column] = .ok u ∧
        (mergeAll [column, scalar, list]).toOption = some u) ∧
      ∃ f, mergeAll [scalar, list, column, other] = .error f ∧ f.kind = .typeConflict := by
  intro scalar list column other
  constructor
  · obtain ⟨-, -, -, horder⟩ := merged_in_any_order [scalar, list, column]
    have hp : ([scalar, list] ++ [column]).Perm ([column] ++ [scalar, list]) :=
      List.perm_append_comm
    refine ⟨_, rfl, ?_⟩
    exact horder _ hp
  · obtain ⟨-, hkind, -⟩ := merged_in_any_order [scalar, list, column, other]
    exact ⟨_, rfl, (hkind _ rfl).1⟩

end Declarations

end SqlAccess
