import SqlAccess.Bytes

/-!
# Scripts of an engine

The SQL engines stand outside the library. What one of them does is given by scripts: which
columns, rows and number of changes belong to a statement's text (`Script`), and which calls
fail and how often (`Rule`).
-/

namespace SqlAccess

/-- A fetched value. -/
inductive Cell
  | null
  | int (n : Int64)
  | double (d : Float)
  | text (bs : Bytes)
  | blob (bs : Bytes)
  deriving Inhabited

/-- What the engine yields for a text. -/
structure Script where
  /-- The text it belongs to. -/
  sql : Bytes
  /-- The names of the result columns; a column may have none. -/
  columns : List (Option Bytes) := []
  /-- The rows; a missing value is one that cannot be copied. -/
  rows : List (List (Option Cell)) := []
  /-- The number of rows that a run changes. -/
  changes : Int64 := 0
  /-- The number of parameters, if it is not to be counted in the text. -/
  parameters : Option Nat := none
  deriving Inhabited

namespace Script

/-- The columns of a row: as many values as there are columns, the missing ones being null. -/
def pad (s : Script) (row : List (Option Cell)) : List (Option Cell) :=
  (row ++ List.replicate (s.columns.length - row.length) (some Cell.null)).take s.columns.length

/-- The number of parameters: as given, else the number of `?` bytes. -/
def parameterCount (s : Script) : Nat := s.parameters.getD (s.sql.count 0x3F)

/-- The script of a text: the first one that belongs to it, else one without a result. -/
def select (scripts : List Script) (sql : Bytes) : Script :=
  (scripts.find? fun s => s.sql == sql).getD { sql }

end Script

/-- A failure of a call. -/
structure Failure where
  code : Int32
  message : Option Bytes
  /-- Whether a connection that fails to open leaves none behind. -/
  noHandle : Bool
  deriving DecidableEq

namespace Failure

/-- The text of a failure. -/
def text (f : Failure) : Bytes := (f.message.map Bytes.beforeNul).getD "unknown error"

end Failure

/-- A rule that lets calls fail. -/
structure Rule where
  /-- What the line of the call starts with. -/
  call : Bytes
  /-- How many such calls are let pass first. -/
  skip : Int := 0
  /-- How many calls fail then; a negative number stands for all. -/
  times : Int := 1
  failure : Failure

namespace Rule

/-- Whether a rule lets the call of a line fail, and the rule that remains. -/
def apply (r : Rule) (line : Bytes) : Bool × Rule :=
  if !r.call.isPrefixOf line then (false, r)
  else if 0 < r.skip then (false, { r with skip := r.skip - 1 })
  else if r.times = 0 then (false, r)
  else (true, if 0 < r.times then { r with times := r.times - 1 } else r)

/-- Go through the rules for the call of a line, up to the first that lets it fail. -/
def consult (line : Bytes) : List Rule → Option Failure × List Rule
  | [] => (none, [])
  | r :: rest =>
    let (fails, r') := r.apply line
    if fails then (some r.failure, r' :: rest)
    else
      let (failure, rest') := consult line rest
      (failure, r' :: rest')

end Rule

end SqlAccess
