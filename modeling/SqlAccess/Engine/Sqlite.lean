import SqlAccess.Engine

/-!
# The calls of SQLite

Each call answers with a result code, in which zero means success; `Engine.step` answers with a
`StepResult`. A failed call leaves its code and text with the connection.
-/

namespace SqlAccess

/-- The flags for opening a file: reading only, or reading, writing and creating it; a URI is
allowed as its name. -/
def openFlags (readOnly : Bool) : Nat := (if readOnly then 1 else 2 + 4) + 64

/-- What a statement has come to. -/
inductive StepResult
  /-- It stands on a row. -/
  | row (values : List (Option Cell))
  /-- It has run to its end. -/
  | finished
  | failed (code : Int32)

/-- The result code of a statement that has run to its end. -/
def doneCode : Int32 := 101

namespace Engine

/-- Open a file. A failed attempt leaves a connection that is still to be closed, unless the
failure says otherwise. -/
def openFile (path : Bytes) (flags : Nat) : EngineM (Int32 × Option Nat) := do
  let call := Call.openFile path flags
  let c := (← get).connections.next
  match ← consult call with
  | none =>
    record call (.created c)
    addConnection {}
    return (0, some c)
  | some f =>
    if f.noHandle then
      record call (.failed f.code none)
      return (f.code, none)
    else
      record call (.failed f.code (some c))
      addConnection { code := f.code, text := f.text }
      return (f.code, some c)

/-- Ask for extended result codes. -/
def extendedCodes (c : Nat) : EngineM Unit := performSurely (.extendedCodes c)

/-- Set how long to wait for a lock. -/
def busyTimeout (c : Nat) (milliseconds : Int32) : EngineM Unit :=
  performSurely (.busyTimeout c milliseconds)

/-- Close a connection; if that fails it stays open. -/
def closeFile (c : Nat) : EngineM Int32 := do
  match ← perform (.close c) .done with
  | none => dropConnection c; return 0
  | some f => noteOnConnection c f; return f.code

/-- Run a directive. The text of a failure is given only where the engine has one. -/
def exec (c : Nat) (d : Directive) : EngineM (Int32 × Option Bytes) := do
  match ← perform (.exec c d) .done with
  | none => return (0, none)
  | some f => noteOnConnection c f; return (f.code, f.message.map Bytes.beforeNul)

/-- Whether a text holds nothing but blanks, line ends and semicolons. -/
def isBlankSql (sql : Bytes) : Bool :=
  sql.all fun b => b == 0x20 || b == 0x09 || b == 0x0D || b == 0x0A || b == 0x3B

/-- Prepare a statement. A blank text succeeds without one. -/
def prepare (c : Nat) (sql : Bytes) : EngineM (Int32 × Option Nat) := do
  let call := Call.prepare c sql
  let k := (← get).statements.next
  match ← perform call (if isBlankSql sql then .done else .created k) with
  | some f => noteOnConnection c f; return (f.code, none)
  | none =>
    if isBlankSql sql then return (0, none)
    else
      let script ← scriptFor sql
      addStatement { connection := c, script, pending := script.rows }
      return (0, some k)

/-- Set a parameter, counted from zero. -/
def bind (k : Nat) (slot : Nat) (datum : Datum) : EngineM Int32 := do
  match ← perform (.bind k (slot + 1) datum) .done with
  | none => return 0
  | some f => noteOnConnection (← statement k).connection f; return f.code

/-- Go to the next row. Behind the last one the statement is finished, and the connection knows
how many rows it changed. -/
def step (k : Nat) : EngineM StepResult := do
  let s ← statement k
  match ← perform (.step k) (if s.pending.isEmpty then .noRow else .row) with
  | some f =>
    noteOnConnection s.connection f
    return if f.code = doneCode then .finished else .failed f.code
  | none =>
    match s.pending with
    | [] =>
      modifyConnection s.connection fun c => { c with changes := s.script.changes.toInt32 }
      return .finished
    | row :: rest =>
      modifyStatement k fun s => { s with pending := rest }
      return .row (s.script.pad row)

/-- Go back in front of the first row. -/
def reset (k : Nat) : EngineM Unit := do
  performSurely (.reset k)
  modifyStatement k fun s => { s with pending := s.script.rows }

/-- Give up a statement, whatever the result code. -/
def finalize (k : Nat) : EngineM Int32 := do
  let s ← statement k
  let failure ← perform (.finalize k) .done
  dropStatement k
  match failure with
  | none => return 0
  | some f => noteOnConnection s.connection f; return f.code

/-- Copy a value of a row, unless there is no memory for it. -/
def copyValue (value : Option Cell) : EngineM (Option Cell) := do
  if value.isSome then modify fun e => { e with cells := e.cells + 1 }
  return value

end Engine

end SqlAccess
