import SqlAccess.Action
import SqlAccess.Backend.Conversion
import SqlAccess.Engine.Sqlite

/-!
# Operations on SQLite

The calls of SQLite with their result codes made into faults. The low byte of a code decides
its kind (`Sqlite.kindOf?`); a code whose low byte is zero has no kind and counts as success.

A connection or statement may be missing, since an operation that counts as a success may have
left none. No call is made then, and the operation is refused as misuse.
-/

namespace SqlAccess.Sqlite

/-- The kind of a result code, if it counts as a failure. -/
def kindOf? (code : Int32) : Option ErrorKind :=
  match (code.toUInt32 &&& 0xFF).toNat with
  | 0 => none
  | 5 | 6 => some .busy
  | 8 => some .readOnly
  | 10 => some .ioError
  | 12 => some .notFound
  | 13 => some .full
  | 14 => some .notOpen
  | 19 => some .constraint
  | 20 => some .mismatch
  | 21 => some .misuse
  | 25 => some .range
  | _ => some .error

/-- The result code for a call on something that is missing. -/
def misuseCode : Int32 := 21

/-- The text for a failure on a connection; where there is none it is named by its code. -/
def failureText (c : Option Nat) (code : Int32) : EngineM Bytes := do
  match c with
  | some c => return (← Engine.viewConnection c).text
  | none => return "errstr " ++ Bytes.decimal code.toInt

/-- The fault of a result code, if it counts as a failure. -/
def fault? (c : Option Nat) (code : Int32) (action : Bytes) : EngineM (Option Fault) := do
  let text ← failureText c code
  return (kindOf? code).map fun kind => .engine kind action code text

/-- Fail as a result code says. -/
def check (c : Option Nat) (code : Int32) (action : Bytes) : EngineTry Unit := do
  if code ≠ 0 then
    if let some f ← fault? c code action then throw f

/-! ## Connections -/

/-- Open a file. A connection that could not be opened is closed again. -/
def connect (path : Bytes) (readOnly : Bool) (busyTimeout : Int32) :
    EngineTry (Option Nat) := do
  let (code, c) ← Engine.openFile path (openFlags readOnly)
  if code = 0 then
    if let some c := c then
      Engine.extendedCodes c
      if 0 < busyTimeout then Engine.busyTimeout c busyTimeout
    return c
  else
    let fault ← fault? c code "sqlite3_open_v2 failed"
    if let some c := c then
      let _ ← Engine.closeFile c
    match fault with
    | some f => throw f
    | none => return none

/-- Close a connection. -/
def disconnect (c : Option Nat) : EngineTry Unit := do
  if let some c := c then
    check c (← Engine.closeFile c) "sqlite3_close failed"

/-- Run a directive. -/
def control (c : Option Nat) (d : Directive) : EngineTry Unit := do
  match c with
  | none => check none misuseCode d.sqlite
  | some c =>
    let (code, message) ← Engine.exec c d
    if code ≠ 0 then
      let text ← failureText c code
      if let some kind := kindOf? code then
        throw (.engine kind d.sqlite code (message.getD text))

/-! ## Statements -/

/-- Prepare a statement. -/
def prepare (c : Option Nat) (sql : Bytes) : EngineTry (Option Nat) := do
  let (code, k) ← match c with
    | some c => liftM (Engine.prepare c sql)
    | none => pure (misuseCode, none)
  if code = 0 then
    if k.isNone then throw .noStatement
    return k
  else
    check c code "SQL error when preparing query"
    return none

/-- Give up a statement and do not mind how that ends. -/
def finalize (k : Nat) : EngineTry Unit := do
  let _ ← Engine.finalize k

/-- Give up a statement, and fail if the engine says so. -/
def finalizeStrictly (k : Nat) : EngineTry Unit := do
  let s ← Engine.viewStatement k
  let code ← Engine.finalize k
  if code ≠ 0 then
    throw (.finalize s.script.sql code (← failureText s.connection code))

/-- Step on while there are rows, at most `n` times. -/
def runToEnd (k : Nat) : Nat → EngineM StepResult
  | 0 => return .finished
  | n + 1 => do
    match ← Engine.step k with
    | .row _ => runToEnd k n
    | r => return r

/-- Run a statement to its end; the answer is how many rows it changed. -/
def execute (c : Option Nat) (k : Option Nat) : EngineTry Int64 := do
  match k with
  | none => check c misuseCode "Statement execution failed"; return 0
  | some k =>
    match ← runToEnd k ((← Engine.statement k).pending.length + 1) with
    | .failed code =>
      let fault ← fault? c code "Statement execution failed"
      Engine.reset k
      match fault with
      | some f => throw f
      | none => return 0
    | _ =>
      let changes ← match c with
        | some c => do pure (← Engine.viewConnection c).changes
        | none => pure 0
      Engine.reset k
      return changes.toInt64

/-- Go back in front of the first row. -/
def rewind (k : Option Nat) : EngineM Unit := do
  if let some k := k then Engine.reset k

/-- Copy the values of a row one after another, behind those that were copied before. Where one
cannot be copied, all of them are freed again. -/
def copyRow (copied : List Cell) : List (Option Cell) → EngineTry (List Cell)
  | [] => return copied
  | value :: rest => do
    match ← Engine.copyValue value with
    | some cell => copyRow (copied ++ [cell]) rest
    | none =>
      Engine.freeCells copied.length
      throw .outOfMemory

/-- Fetch the next row, if there is one. -/
def fetchRow (c : Option Nat) (k : Option Nat) : EngineTry (Option (List Cell)) := do
  let result ← match k with
    | some k => liftM (Engine.step k)
    | none => pure (.failed misuseCode)
  match result with
  | .finished => return none
  | .failed code => check c code "Row fetch failed"; return none
  | .row values => return some (← copyRow [] values)

/-- The names of the result columns; a column without a name has the empty one. -/
def columnNames (k : Option Nat) : EngineM (List Bytes) := do
  match k with
  | none => return []
  | some k => return (← Engine.viewStatement k).script.columns.map fun n => (n.getD []).beforeNul

/-- Set a slot, counted from zero. -/
def bind (k : Option Nat) (type : ValueType) (slot : Nat) (v : Value) : EngineTry Unit := do
  ExceptT.mk (pure (v.checkFits type))
  match k with
  | none => check none misuseCode "bind failed"
  | some k =>
    let code ← Engine.bind k slot (datum type v)
    if code ≠ 0 then check (← Engine.viewStatement k).connection code "bind failed"

/-- The SQL that reads back generated keys. -/
def keysSql (keys : List Bytes) : Bytes :=
  "SELECT " ++ Bytes.joinWith ", " (keys.map fun k => "last_insert_rowid() AS \"" ++ k ++ "\"")

end SqlAccess.Sqlite
