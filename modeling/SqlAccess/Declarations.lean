import SqlAccess.Template.Expansion

/-!
# Declarations

A query declares the types of its parameters, of the columns it reads and of the keys it
generates, and the sizes of its list parameters; each element of a list is declared as a
parameter of its own. Nothing is inferred from the SQL.

`Declarations.merge` folds one set of declarations into another. It is a union that refuses to
give one name two types, or one list two sizes.
-/

namespace SqlAccess

/-- Declared types by name. -/
abbrev TypeMap := NameMap ValueType

/-- The declarations of a query. -/
structure Declarations where
  /-- The types of the parameters, elements of lists included. -/
  parameters : TypeMap := .empty
  /-- The sizes of the list parameters. -/
  lists : ListSizes := .empty
  /-- The types of the columns. -/
  columns : TypeMap := .empty
  /-- The types of the generated keys. -/
  keys : TypeMap := .empty

namespace Declarations

instance : Inhabited Declarations := ⟨{}⟩

/-- Add a name with its type; a conflict is reported under the spelling `shown`. -/
def addType (role : Role) (shown : Bytes) (types : TypeMap) (name : Bytes) (type : ValueType) :
    Except Fault TypeMap :=
  match types.find? name with
  | none => .ok (types.insert name type)
  | some first => if first = type then .ok types else .error (.typeConflict role shown first type)

/-- Add every name of `more`, in byte order. -/
def mergeTypes (role : Role) (types more : TypeMap) : Except Fault TypeMap :=
  more.entries.foldlM (fun m (name, type) => addType role name m name type) types

/-- Add a list with its size. -/
def addSize (sizes : ListSizes) (name : Bytes) (size : Int32) : Except Fault ListSizes :=
  match sizes.find? name with
  | none => .ok (sizes.insert name size)
  | some first => if first = size then .ok sizes else .error (.sizeConflict name first size)

/-- Add every list of `more`, in byte order. -/
def mergeSizes (sizes more : ListSizes) : Except Fault ListSizes :=
  more.entries.foldlM (fun m (name, size) => addSize m name size) sizes

/-- Fold `more` into `d`: parameters first, then lists, columns and keys. -/
def merge (d more : Declarations) : Except Fault Declarations := do
  let parameters ← mergeTypes .parameter d.parameters more.parameters
  let lists ← mergeSizes d.lists more.lists
  let columns ← mergeTypes .column d.columns more.columns
  let keys ← mergeTypes .key d.keys more.keys
  return { parameters, lists, columns, keys }

/-- Merge the sets of a list one after another into the empty set. -/
def mergeAll (ds : List Declarations) : Except Fault Declarations := ds.foldlM merge {}

/-- The states after each merge of a list, up to the first failure. -/
def mergeSteps (d : Declarations) : List Declarations → List (Except Fault Declarations)
  | [] => []
  | more :: rest =>
    match d.merge more with
    | .ok d' => .ok d' :: mergeSteps d' rest
    | .error f => [.error f]

/-- The declarations of a list parameter: its size, and the type of each element. -/
def ofList (name : Bytes) (type : ValueType) (size : Int32) : Declarations where
  parameters := .ofList ((List.range (elementCount size)).map fun i => (elementName name i, type))
  lists := NameMap.empty.insert name size

end Declarations

end SqlAccess
