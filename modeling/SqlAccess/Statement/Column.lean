import SqlAccess.Name.Quoted
import SqlAccess.Options

/-!
# Result columns

The engine reports the columns of a result by name. A column can be read if the query declares
it, under the name itself or under its mapped spelling; it is found then under both. Quotes
around a reported name are taken away first, and case does not count.

The columns are entered in the order of the result (`Column.resolve`), so of two columns with
one spelling the later one is found.
-/

namespace SqlAccess

/-- A column that can be read. -/
structure Column where
  /-- The type whose accessor reads it. -/
  accessor : ValueType
  /-- Its place in each row. -/
  index : Nat
  deriving DecidableEq

namespace Column

/-- The name of a column without its quotes. -/
def bareName (reported : Bytes) : Bytes := Quoted.unquote Quoted.doubleQuote reported

/-- The mapped spelling of a name, in lower case. -/
def mappedSpelling (mapper : Option (Bytes → Bytes)) (name : Bytes) : Bytes :=
  Name.toLower ((mapper.getD id) name)

/-- The type a query declares for a column, of which the name counts before the mapped
spelling. -/
def declaredType? (declared : TypeMap) (name mapped : Bytes) : Option ValueType :=
  declared.find? name <|> declared.find? mapped

/-- Enter a column under both spellings, if it is declared. -/
def enter (options : Options) (declared : TypeMap) (columns : NameMap Column)
    (reported : Bytes × Nat) : Except Fault (NameMap Column) :=
  let bare := bareName reported.1
  let name := Name.toLower bare
  let mapped := mappedSpelling options.mapper bare
  match declaredType? declared name mapped with
  | none => .ok columns
  | some type =>
    match options.accessors type with
    | none => .error (.noAccessor type .column bare)
    | some accessor =>
      let column := { accessor, index := reported.2 }
      .ok ((columns.insert name column).insert mapped column)

/-- The columns of a result that can be read, by the spellings under which they are found. -/
def resolve (options : Options) (declared : TypeMap) (reported : List Bytes) :
    Except Fault (NameMap Column) :=
  reported.zipIdx.foldlM (enter options declared) .empty

end Column

end SqlAccess
