import Mathlib.Algebra.BigOperators.Group.List.Basic
import SqlAccess.Proofs.Declarations.Order
import SqlAccess.Proofs.Query

/-!
# Queries put together in groups

A query can be put together of parts that were put together before. What can be seen of it is what
it declares and its text for each database, or that it could not be made (`Query.View`). Views are a
monoid, and putting queries one after another multiplies their views (`Query.view_concat`), so only
the order of the parts counts and not how they were grouped (`Query.concat_flattened`).
-/

namespace SqlAccess

namespace Source

variable {a b c : Except Fault Bytes}

/-- One text behind another. -/
def andThen (a b : Except Fault Bytes) : Except Fault Bytes := do return (← a) ++ (← b)

theorem nil_andThen (b : Except Fault Bytes) : andThen (.ok []) b = b := by
  cases b <;> rfl

theorem andThen_nil (a : Except Fault Bytes) : andThen a (.ok []) = a := by
  cases a with
  | error f => rfl
  | ok text => exact congrArg Except.ok (List.append_nil text)

theorem andThen_assoc (a b c : Except Fault Bytes) :
    andThen (andThen a b) c = andThen a (andThen b c) := by
  cases a with
  | error f => rfl
  | ok text =>
    cases b with
    | error f => rfl
    | ok more =>
      cases c with
      | error f => rfl
      | ok rest => exact congrArg Except.ok (List.append_assoc text more rest)

theorem join_append (parts more : List (Except Fault Bytes)) :
    join (parts ++ more) = andThen (join parts) (join more) := by
  induction parts with
  | nil => exact (nil_andThen (join more)).symm
  | cons part parts ih =>
    change andThen part (join (parts ++ more)) = andThen (andThen part (join parts)) (join more)
    rw [ih, andThen_assoc]

theorem join_singleton (part : Except Fault Bytes) : join [part] = part := andThen_nil part

theorem textsFor_eq_map (info : DatabaseInfo) (sources : List Source) :
    textsFor info sources = sources.map (textFor info) := by
  induction sources with
  | nil => rfl
  | cons s rest ih => rw [textsFor, ih, List.map_cons]

end Source

namespace Query

open Source

/-! ## Views -/

/-- What can be seen of a query. -/
inductive View
  /-- It could not be made. -/
  | unmade
  /-- What it declares, and its text for each database. -/
  | made (declarations : Declarations) (text : DatabaseInfo → Except Fault Bytes)

/-- The view of a query. -/
def view : Option Query → View
  | none => .unmade
  | some q => .made q.declarations fun info => q.source.textFor info

namespace View

/-- What is declared, if the query could be made. -/
def declarations? : View → Option Declarations
  | unmade => none
  | made d _ => some d

/-- Choose the text for a database and expand it. -/
def resolve (info : DatabaseInfo) : View → Except Fault Descriptor
  | unmade => .error .invalidQuery
  | made d sql => do Descriptor.create (← sql info) d

variable {d e : Declarations} {sql more : DatabaseInfo → Except Fault Bytes}

/-- The view of a query whose declarations were merged, if they could be. -/
def ofMerged (x : Option Declarations) (sql : DatabaseInfo → Except Fault Bytes) : View :=
  x.elim unmade fun d => made d sql

/-- One query behind another. -/
def append : View → View → View
  | made d sql, made e more =>
    ofMerged (d.merge e).toOption fun info => andThen (sql info) (more info)
  | _, _ => unmade

@[simp] theorem append_unmade (v : View) : append v unmade = unmade := by
  cases v <;> rfl

@[simp] theorem unmade_append (v : View) : append unmade v = unmade := by
  cases v <;> rfl

theorem made_append_made : append (made d sql) (made e more) =
    ofMerged (d.merge e).toOption fun info => andThen (sql info) (more info) := rfl

theorem ofMerged_append_made (x : Option Declarations) : append (ofMerged x sql) (made e more) =
    ofMerged (x.bind fun d => (d.merge e).toOption) fun info => andThen (sql info) (more info) := by
  cases x <;> rfl

theorem made_append_ofMerged (x : Option Declarations) : append (made d sql) (ofMerged x more) =
    ofMerged (x.bind fun e => (d.merge e).toOption) fun info => andThen (sql info) (more info) := by
  cases x <;> rfl

theorem empty_append (v : View) : append (made {} fun _ => .ok []) v = v := by
  cases v with
  | unmade => rfl
  | made d sql =>
    have hmerge : (({} : Declarations).merge d).toOption = some d := by
      rw [Declarations.toOption_eq_some_iff, Declarations.merge_eq_ok_iff]
      exact Declarations.collects_empty_cons.2 (Declarations.collects_singleton.2 rfl)
    simp only [made_append_made, hmerge, nil_andThen]
    rfl

theorem append_empty (v : View) : append v (made {} fun _ => .ok []) = v := by
  cases v with
  | unmade => rfl
  | made d sql =>
    have hmerge : (d.merge {}).toOption = some d := by
      rw [Declarations.toOption_eq_some_iff, Declarations.merge_eq_ok_iff]
      exact Declarations.Collects.of_empty d
    simp only [made_append_made, hmerge, andThen_nil]
    rfl

theorem append_assoc (u v w : View) : append (append u v) w = append u (append v w) := by
  cases u with
  | unmade => simp only [unmade_append]
  | made c first =>
    cases v with
    | unmade => simp only [unmade_append, append_unmade]
    | made d sql =>
      cases w with
      | unmade => simp only [append_unmade]
      | made e more =>
        rw [made_append_made, made_append_made, ofMerged_append_made, made_append_ofMerged,
          Declarations.merge_assoc]
        simp only [andThen_assoc]

instance : Monoid View where
  one := made {} fun _ => .ok []
  mul := append
  one_mul := empty_append
  mul_one := append_empty
  mul_assoc := append_assoc

end View

theorem declarations?_view (q : Option Query) :
    (view q).declarations? = q.map (·.declarations) := by
  cases q <;> rfl

theorem resolve_view (q : Option Query) (info : DatabaseInfo) :
    (view q).resolve info = resolve? q info := by
  cases q <;> rfl

/-! ## Gathering parts -/

/-- The view of parts that have been gathered, one behind the other. -/
def gatheredView : Except Fault (List Source × Declarations) → View
  | .ok (sources, declarations) => .made declarations fun info => join (textsFor info sources)
  | .error _ => .unmade

/-- Gathering one more part multiplies by its view. -/
theorem gatheredView_addPart (sofar : List Source × Declarations) (part : Option Query) :
    gatheredView (addPart sofar part) = gatheredView (.ok sofar) * view part := by
  cases part with
  | none => rfl
  | some q =>
    change _ = View.ofMerged (sofar.2.merge q.declarations).toOption fun info =>
      andThen (join (textsFor info sofar.1)) (q.source.textFor info)
    cases hmerge : sofar.2.merge q.declarations with
    | error f =>
      rw [addPart, hmerge]
      rfl
    | ok u =>
      rw [addPart, hmerge]
      change View.made u (fun info => join (textsFor info (sofar.1 ++ [q.source]))) = View.made u _
      congr 1
      funext info
      rw [textsFor_eq_map, textsFor_eq_map, List.map_append, join_append, List.map_singleton,
        join_singleton]

/-- Gathering parts multiplies by their views. -/
theorem gatheredView_foldlM (sofar : List Source × Declarations) (parts : List (Option Query)) :
    gatheredView (parts.foldlM addPart sofar) =
      gatheredView (.ok sofar) * (parts.map view).prod := by
  induction parts generalizing sofar with
  | nil => exact (mul_one _).symm
  | cons part parts ih =>
    rw [List.map_cons, List.prod_cons, ← mul_assoc, ← gatheredView_addPart, List.foldlM_cons]
    cases hadd : addPart sofar part with
    | error f => exact (View.unmade_append _).symm
    | ok r => exact ih r

/-- Putting queries one after another multiplies their views. -/
theorem view_concat (parts : List (Option Query)) :
    view (concat parts).toOption = (parts.map view).prod := by
  have hgather : gatheredView (gather parts) = (parts.map view).prod := by
    rw [gather, gatheredView_foldlM]
    exact one_mul _
  rw [← hgather, concat]
  cases gather parts <;> rfl

/-! ## Groups of groups -/

/-- Queries put together in groups, and groups of groups. -/
inductive Nesting
  /-- A query of any kind; it may be one that could not be made. -/
  | leaf (q : Option Query)
  /-- Groups put one after another. -/
  | group (parts : List Nesting)

namespace Nesting

/-- The query that a nesting makes: each group is put together of what its parts make. -/
def query : Nesting → Option Query
  | leaf q => q
  | group parts => (concat (parts.map query)).toOption

/-- The queries of a nesting from left to right. -/
def leaves : Nesting → List (Option Query)
  | leaf q => [q]
  | group parts => parts.flatMap leaves

/-- What holds of the leaves, and of each group whose parts it holds of, holds of every nesting. -/
@[elab_as_elim, induction_eliminator]
theorem induct {motive : Nesting → Prop} (leaf : ∀ q, motive (.leaf q))
    (group : ∀ parts, (∀ t ∈ parts, motive t) → motive (.group parts)) : ∀ t, motive t
  | .leaf q => leaf q
  | .group parts => group parts fun t _ => induct leaf group t

/-- However queries are grouped, their views are multiplied from left to right. -/
theorem view_query (t : Nesting) : view t.query = (t.leaves.map view).prod := by
  induction t with
  | leaf q => simp [query, leaves]
  | group parts ih =>
    have hparts : (parts.map query).map view =
        parts.map fun t => (t.leaves.map view).prod := by
      rw [List.map_map]
      exact List.map_congr_left ih
    rw [query, view_concat, hparts, leaves, List.map_flatMap, List.flatMap, List.prod_flatten,
      List.map_map]
    rfl

end Nesting

/-- However queries are put together in groups, the outcome is that of putting all of them one after
another: it can be made or not, it declares the same, and it is resolved to the same. -/
theorem concat_flattened (t : Nesting) :
    t.query.isSome = (concat t.leaves).toOption.isSome ∧
      t.query.map (·.declarations) = (concat t.leaves).toOption.map (·.declarations) ∧
      ∀ info, resolve? t.query info = resolve? (concat t.leaves).toOption info := by
  have hview : view t.query = view (concat t.leaves).toOption := by
    rw [view_concat, t.view_query]
  have hdeclarations := congrArg View.declarations? hview
  rw [declarations?_view, declarations?_view] at hdeclarations
  refine ⟨?_, hdeclarations, ?_⟩
  · simpa using congrArg Option.isSome hdeclarations
  · intro info
    rw [← resolve_view, hview, resolve_view]

end Query

end SqlAccess
