import SqlAccess.Declarations

/-!
# Descriptors

A `Descriptor` is a query resolved for one database: the SQL with positional placeholders, the
name that owns each placeholder, in lower case, and the declarations.
-/

namespace SqlAccess

/-- A query as it is prepared. The default descriptor belongs to no query. -/
structure Descriptor where
  /-- The SQL with its placeholders. -/
  sql : Bytes := []
  /-- The lower-case owner of each placeholder. -/
  owners : List Bytes := []
  /-- The declarations of the query. -/
  declarations : Declarations := {}

namespace Descriptor

/-- Expand a text by the declared list sizes. -/
def create (text : Bytes) (declarations : Declarations) : Except Fault Descriptor := do
  let e ← expandText declarations.lists text
  return { sql := e.sql, owners := e.owners.map Name.toLower, declarations }

/-- Create a descriptor for a receiver, which has to be there, and which keeps what it holds if
that fails. -/
def createFor (receiver : Option Descriptor) (text : Bytes) (declarations : Declarations) :
    Except Fault Unit × Option Descriptor :=
  match receiver with
  | none => (.error .noDescriptor, none)
  | some kept =>
    match create text declarations with
    | .ok d => (.ok (), some d)
    | .error f => (.error f, some kept)

/-- The number of placeholders. -/
def count (d : Descriptor) : Nat := d.owners.length

/-- The slots of a lower-case name, in increasing order. -/
def slots (d : Descriptor) (name : Bytes) : List Nat := slotsIn d.owners name

/-- The slots of a name that occurs in the SQL. -/
def slots? (d : Descriptor) (name : Bytes) : Option (List Nat) :=
  if d.slots name = [] then none else some (d.slots name)

/-- The slots of each declared parameter and of each further name, in byte order. -/
def slotTable (d : Descriptor) (further : List Bytes) : NameMap (Option (List Nat)) :=
  .ofList ((d.declarations.parameters.names ++ further).map fun name => (name, d.slots? name))

end Descriptor

end SqlAccess
