import SqlAccess.Descriptor
import SqlAccess.Version

/-!
# Queries

A `Query` is defined apart from any database: its text may vary with the engine and its
version, and queries are composed by putting them one after another (`Query.concat`) or by
filling them into a format (`Query.format`). The declarations of the parts are merged when the
query is composed; the texts are chosen and put together when it is resolved for a database
(`Query.resolve`), and scanned as a whole, so that slots are counted through.
-/

namespace SqlAccess

/-- What a connection says of its engine. -/
structure DatabaseInfo where
  type : Bytes := []
  version : Bytes := []
  deriving DecidableEq

/-- A text for one type of engine, in some of its versions. -/
structure Variant where
  type : Bytes
  version : VersionPredicate
  sql : Bytes
  deriving DecidableEq

/-- Where the text of a query comes from. -/
inductive Source
  /-- The first variant that applies, else the fallback. -/
  | text (variants : List Variant) (fallback : Option Bytes)
  /-- The texts of the parts, one after another. -/
  | concat (parts : List Source)
  /-- A format with the texts of its arguments filled in. -/
  | format (template : Source) (args : List Source)

namespace Source

/-- The first variant that applies to a database, else the fallback. -/
def select (info : DatabaseInfo) (variants : List Variant) (fallback : Option Bytes) :
    Except Fault Bytes :=
  match variants.find? fun v => v.type == info.type && v.version.accepts info.version, fallback with
  | some v, _ => .ok v.sql
  | none, some sql => .ok sql
  | none, none => .error (.noVariant info.type info.version)

/-- Fill arguments into a format: `%s` stands for the next argument and `%%` for a percent sign;
a percent sign in front of anything else stands for itself. An argument that failed to yield
text matters only where it is used. -/
def fill : Bytes → List (Except Fault Bytes) → Except Fault Bytes
  | 0x25 :: 0x25 :: rest, args => (fill rest args).map (0x25 :: ·)
  | 0x25 :: 0x73 :: _, [] => .error .missingArgument
  | 0x25 :: 0x73 :: rest, arg :: args => do return (← arg) ++ (← fill rest args)
  | b :: rest, args => (fill rest args).map (b :: ·)
  | [], _ => .ok []

/-- Put texts one after another, up to the first that failed. -/
def join : List (Except Fault Bytes) → Except Fault Bytes
  | [] => .ok []
  | part :: rest => do return (← part) ++ (← join rest)

mutual

/-- The text for a database. -/
def textFor (info : DatabaseInfo) : Source → Except Fault Bytes
  | text variants fallback => select info variants fallback
  | concat parts => join (textsFor info parts)
  | format template args => do fill (← textFor info template) (textsFor info args)

/-- The texts of several sources. -/
def textsFor (info : DatabaseInfo) : List Source → List (Except Fault Bytes)
  | [] => []
  | s :: rest => textFor info s :: textsFor info rest

end

end Source

/-- An engine-independent query. -/
structure Query where
  source : Source
  declarations : Declarations

namespace Query

/-- Choose the text for a database and expand it. -/
def resolve (q : Query) (info : DatabaseInfo) : Except Fault Descriptor := do
  Descriptor.create (← q.source.textFor info) q.declarations

/-- Resolve a query that may not have been built. -/
def resolve? (q : Option Query) (info : DatabaseInfo) : Except Fault Descriptor :=
  match q with
  | some q => q.resolve info
  | none => .error .invalidQuery

/-- Take in another part of a composed query: its source and its declarations. -/
def addPart (sofar : List Source × Declarations) (part : Option Query) :
    Except Fault (List Source × Declarations) :=
  match part with
  | none => .error .invalidFragment
  | some q => do return (sofar.1 ++ [q.source], ← sofar.2.merge q.declarations)

/-- The sources of parts that have all been built, and their merged declarations. -/
def gather (parts : List (Option Query)) : Except Fault (List Source × Declarations) :=
  parts.foldlM addPart ([], {})

/-- The parts one after another. -/
def concat (parts : List (Option Query)) : Except Fault Query := do
  let (sources, declarations) ← gather parts
  return { source := .concat sources, declarations }

/-- A format with its arguments. -/
def format (template : Option Query) (args : List (Option Query)) : Except Fault Query := do
  match ← gather (template :: args) with
  | (source :: sources, declarations) =>
    return { source := .format source sources, declarations }
  | ([], _) => .error .invalidFragment

end Query

end SqlAccess
