import SqlAccess.NameMap
import SqlAccess.Template

/-!
# Expanding a template

An engine takes its parameters by position. Expanding a template writes `?` for each scalar
parameter and `?, ?, …` for each list parameter, and notes which name owns each placeholder:
slot `k` is the `k`-th placeholder, counted from zero, and `Expansion.owners` lists the owners
of the slots in order. Element `i` of the list `ids` is named `ids[i]`.
-/

namespace SqlAccess

/-- The sizes of the list parameters, by name. -/
abbrev ListSizes := NameMap Int32

/-- The name of an element of a list parameter. -/
def elementName (list : Bytes) (i : Nat) : Bytes := list ++ "[" ++ Bytes.ofNat i ++ "]"

/-- The number of elements that a declared size stands for. -/
def elementCount (size : Int32) : Nat := size.toInt.toNat

namespace Piece

/-- The names that own the placeholders of a piece. -/
def owners (sizes : ListSizes) : Piece → List Bytes
  | byte _ => []
  | parameter name =>
    let list := Name.toLower name
    match sizes.find? list with
    | none => [name]
    | some size => (List.range (elementCount size)).map (elementName list)

/-- The SQL of a piece: its placeholders are separated by a comma and a blank. -/
def sql (sizes : ListSizes) : Piece → Bytes
  | byte b => [b]
  | p => Bytes.joinWith ", " ((p.owners sizes).map fun _ => ("?" : Bytes))

end Piece

/-- The positions at which a name occurs in a list of owners, in increasing order. -/
def slotsIn (owners : List Bytes) (name : Bytes) : List Nat :=
  (owners.zipIdx.filter fun e => e.1 == name).map (·.2)

/-- SQL with positional placeholders. -/
structure Expansion where
  /-- The SQL that the engine sees. -/
  sql : Bytes := []
  /-- The owner of each placeholder. -/
  owners : List Bytes := []
  deriving DecidableEq

namespace Expansion

/-- The number of placeholders. -/
def count (e : Expansion) : Nat := e.owners.length

/-- The slots of each name that owns one. -/
def slots (e : Expansion) : NameMap (List Nat) :=
  NameMap.ofList (e.owners.map fun name => (name, slotsIn e.owners name))

end Expansion

/-- Write the placeholders of a template. -/
def Template.expand (sizes : ListSizes) (t : Template) : Expansion where
  sql := t.flatMap (Piece.sql sizes)
  owners := t.flatMap (Piece.owners sizes)

/-- Expand a query text, whose list parameters have the given sizes. -/
def expandText (sizes : ListSizes) (text : Bytes) : Except Fault Expansion :=
  (Template.parse text).map (Template.expand sizes)

/-- Expand a query text for a receiver of the result, which has to be there. -/
def expandFor (receiver : Option Expansion) (sizes : ListSizes) (text : Bytes) :
    Except Fault Expansion :=
  match receiver with
  | some _ => expandText sizes text
  | none => .error .noScanResult

end SqlAccess
