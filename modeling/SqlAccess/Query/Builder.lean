import SqlAccess.Query

/-!
# Building queries

A query is built step by step: texts for engines and versions, a fallback text, and
declarations. The first step that fails decides the outcome. When the steps are done every text
is scanned (`Builder.build`), so that a malformed parameter is reported before the query is
used.

Texts and names are optional, since a caller may fail to give one.
-/

namespace SqlAccess

/-- The steps of building a query. -/
inductive BuildStep
  /-- A text for a type of engine. -/
  | forType (type sql : Option Bytes)
  /-- A text for some versions of a type of engine. -/
  | forVersion (type : Option Bytes) (version : VersionPredicate) (sql : Option Bytes)
  /-- The text where no other applies. -/
  | fallback (sql : Option Bytes)
  | parameter (name : Option Bytes) (type : ValueType)
  /-- A parameter that stands for several values. -/
  | list (name : Option Bytes) (type : ValueType) (size : Int32)
  | column (name : Option Bytes) (type : ValueType)
  | key (name : Option Bytes) (type : ValueType)

/-- A query that is being built. -/
structure Builder where
  variants : List Variant := []
  fallback : Option Bytes := none
  declarations : Declarations := {}

namespace Builder

/-- Add a text for some versions of a type of engine. -/
def addVariant (b : Builder) (type : Option Bytes) (version : VersionPredicate)
    (sql : Option Bytes) : Except Fault Builder :=
  match type, sql with
  | some type, some sql =>
    match version.flaw? with
    | none => .ok { b with variants := b.variants ++ [{ type, version, sql }] }
    | some flaw => .error (.invalidPattern version.patternText flaw.wording)
  | _, _ => .error .noTypeOrText

/-- Declare a parameter, which must not be declared as a list. -/
def addParameter (b : Builder) (name : Bytes) (type : ValueType) : Except Fault Builder := do
  let key := Name.toLower name
  let parameters ←
    Declarations.addType .parameter name b.declarations.parameters key type
  if b.declarations.lists.contains key then .error (.scalarAndList name)
  else return { b with declarations := { b.declarations with parameters } }

/-- Declare a list parameter, which must not be declared as a parameter. -/
def addList (b : Builder) (name : Bytes) (type : ValueType) (size : Int32) :
    Except Fault Builder := do
  let key := Name.toLower name
  if b.declarations.parameters.contains key then .error (.scalarAndList name)
  else
    let declarations ← b.declarations.merge (.ofList key type size)
    return { b with declarations }

/-- Declare a column. -/
def addColumn (b : Builder) (name : Bytes) (type : ValueType) : Except Fault Builder := do
  let columns ←
    Declarations.addType .column name b.declarations.columns (Name.toLower name) type
  return { b with declarations := { b.declarations with columns } }

/-- Declare a generated key. -/
def addKey (b : Builder) (name : Bytes) (type : ValueType) : Except Fault Builder := do
  let keys ← Declarations.addType .key name b.declarations.keys (Name.toLower name) type
  return { b with declarations := { b.declarations with keys } }

/-- A name, or the fault of having none. -/
def named (name : Option Bytes) : Except Fault Bytes :=
  match name with
  | some n => .ok n
  | none => .error .noName

/-- Take a step. -/
def step (b : Builder) : BuildStep → Except Fault Builder
  | .forType type sql => b.addVariant type .any sql
  | .forVersion type version sql => b.addVariant type version sql
  | .fallback none => .error .noText
  | .fallback (some sql) => .ok { b with fallback := some sql }
  | .parameter name type => do b.addParameter (← named name) type
  | .list none _ _ => .error .badListDeclaration
  | .list (some name) type size =>
    if size ≤ 0 then .error .badListDeclaration else b.addList name type size
  | .column name type => do b.addColumn (← named name) type
  | .key name type => do b.addKey (← named name) type

/-- The texts of a query, in the order in which they are scanned. -/
def texts (b : Builder) : List Bytes := b.variants.map (·.sql) ++ b.fallback.toList

/-- The query, if it has a text and every text can be scanned. -/
def finish (b : Builder) : Except Fault Query := do
  if b.texts.isEmpty then .error .emptyQuery
  else
    b.texts.forM fun sql => (expandText b.declarations.lists sql).map fun _ => ()
    return { source := .text b.variants b.fallback, declarations := b.declarations }

/-- Take the steps one after another, and finish. -/
def build (steps : List BuildStep) : Except Fault Query := do
  (← steps.foldlM step {}).finish

end Builder

/-- The query of one text for every database, with parameters and columns. -/
def Query.of (sql : Option Bytes) (parameters columns : TypeMap) : Except Fault Query :=
  Builder.build <|
    BuildStep.fallback sql ::
      (parameters.entries.map fun (name, type) => .parameter (some name.beforeNul) type) ++
      (columns.entries.map fun (name, type) => .column (some name.beforeNul) type)

end SqlAccess
