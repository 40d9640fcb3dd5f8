import SqlAccess.Options

/-!
# Parameters

A `Parameter` is a declared name resolved for binding: for each value that it takes, the
accessor that sets it and the slots that it goes to. A single parameter takes one value; a list
parameter takes one for each of its elements.
-/

namespace SqlAccess

/-- Where one value goes. -/
structure Destination where
  /-- The type whose accessor sets it. -/
  accessor : ValueType
  /-- The slots it is set in, in increasing order. -/
  slots : List Nat

namespace Destination

/-- Where the values of a declared name go; it is reported under the spelling `shown`. -/
def resolve (accessors : Accessors) (d : Descriptor) (shown name : Bytes) :
    Except Fault Destination := do
  match d.declarations.parameters.find? name with
  | none => throw (.undeclaredParameter shown)
  | some type =>
    match accessors type with
    | none => throw (.noAccessor type .parameter shown)
    | some accessor => return { accessor, slots := d.slots name }

end Destination

/-- A name that can be bound. The default parameter belongs to no statement. -/
structure Parameter where
  /-- The name in lower case. -/
  name : Bytes := []
  /-- Whether it takes a list. -/
  isList : Bool := false
  /-- Where each value goes. -/
  destinations : List Destination := []

namespace Parameter

/-- Resolve a name in any case. -/
def resolve (accessors : Accessors) (d : Descriptor) (name : Bytes) : Except Fault Parameter := do
  let key := Name.toLower name
  match d.declarations.lists.find? key with
  | none =>
    let destination ← Destination.resolve accessors d name key
    return { name := key, destinations := [destination] }
  | some size =>
    let elements := (List.range (elementCount size)).map (elementName key)
    let destinations ← elements.mapM fun e => Destination.resolve accessors d e e
    return { name := key, isList := true, destinations }

/-- The number of values a list parameter takes; a single parameter counts as zero. -/
def listSize (p : Parameter) : Nat := if p.isList then p.destinations.length else 0

/-- Where a single value goes. -/
def assign (p : Parameter) (v : Value) : Except Fault (List (Destination × Value)) :=
  if p.isList then .error (.listNeeded p.name) else .ok (p.destinations.zip [v])

/-- Where the values of a list go. -/
def assignList (p : Parameter) (vs : List Value) : Except Fault (List (Destination × Value)) :=
  if !p.isList then .error (.scalarNeeded p.name)
  else if vs.length ≠ p.destinations.length then
    .error (.wrongLength p.name p.destinations.length vs.length)
  else .ok (p.destinations.zip vs)

end Parameter

end SqlAccess
