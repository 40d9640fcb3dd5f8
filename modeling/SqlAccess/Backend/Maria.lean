import SqlAccess.Action
import SqlAccess.Backend.Conversion
import SqlAccess.Engine.Maria

/-!
# Operations on MariaDB

The calls of MariaDB with their failures made into faults. A prepared statement comes with
buffers of its own (`Maria.Client`): what its parameters are set to, and whether a result is
held that was not given up. Parameters are handed over right before each run.
-/

namespace SqlAccess.Maria

/-- The kind of a failure code; the code zero has none. -/
def kindOf? (code : UInt32) : Option ErrorKind :=
  match code.toNat with
  | 0 => none
  | 1062 | 1452 | 1451 | 1048 => some .constraint
  | 1205 | 1213 => some .busy
  | 1146 | 1054 => some .notFound
  | 1792 => some .readOnly
  | 2006 | 2013 => some .ioError
  | 2003 | 2002 => some .notOpen
  | _ => some .error

/-- The fault of a failure. A failure without a code is an error all the same. -/
def faultOf (code : Int32) (text action : Bytes) : Fault :=
  .engine ((kindOf? code.toUInt32).getD .error) action code text

/-- The fault of the latest failure on a connection. -/
def connectionFault (c : Nat) (action : Bytes) : EngineM Fault := do
  let s ← Engine.viewConnection c
  return faultOf s.code s.text action

/-- The fault of the latest failure on a statement. -/
def statementFault (k : Nat) (action : Bytes) : EngineM Fault := do
  let s ← Engine.viewStatement k
  return faultOf s.code s.text action

/-- Fail unless a call on a connection succeeded. -/
def checkConnection (c : Nat) (ok : Bool) (action : Bytes) : EngineTry Unit := do
  if !ok then throw (← connectionFault c action)

/-- Fail unless a call on a statement succeeded. -/
def checkStatement (k : Nat) (ok : Bool) (action : Bytes) : EngineTry Unit := do
  if !ok then throw (← statementFault k action)

/-! ## Connections -/

/-- Run a directive and take its result, if it has one. -/
def exec (c : Nat) (d : Directive) : EngineTry Unit := do
  checkConnection c (← Engine.query c d) d.maria
  let stored ← Engine.store c
  let columns := (← Engine.viewConnection c).columns
  checkConnection c (stored || columns == 0) d.maria

/-- Run a directive on a connection that may be missing. -/
def control (c : Option Nat) (d : Directive) : EngineTry Unit := do
  match c with
  | some c => exec c d
  | none => throw (faultOf 0 "no connection" d.maria)

/-- Do what is to be done on a fresh connection. -/
def setUp (c : Nat) (dsn : Dsn) (readOnly : Bool) (busyTimeout : Int32) : EngineTry Unit := do
  checkConnection c (← Engine.connect c dsn) "mysql_real_connect failed"
  checkConnection c (← Engine.charset c) "mysql_set_character_set failed"
  if readOnly then exec c .readOnly
  if 0 < busyTimeout then exec c (.lockWait ((busyTimeout + 999) / 1000).toInt)

/-- Connect to a server. A connection that cannot be set up is closed again. -/
def connect (dsn : Bytes) (readOnly : Bool) (busyTimeout : Int32) : EngineTry (Option Nat) := do
  match ← Engine.init with
  | none => throw .connectionInit
  | some c =>
    match ← liftM (setUp c (Dsn.parse dsn) readOnly busyTimeout).run with
    | .ok () => return some c
    | .error f =>
      Engine.closeConnection c
      throw f

/-- Close a connection. -/
def disconnect (c : Option Nat) : EngineTry Unit := do
  if let some c := c then Engine.closeConnection c

/-- The version of a server, up to the first byte that is neither a digit nor a dot. -/
def version (c : Option Nat) : EngineM Bytes := do
  match c with
  | none => return []
  | some c =>
    let text := (← Engine.serverVersion c).getD []
    return text.takeWhile fun b => Name.isDigit b || b == 0x2E

/-! ## Statements -/

/-- A prepared statement with its buffers. -/
structure Client where
  /-- The statement. -/
  number : Nat
  /-- The names of the result columns, for a statement with a result. -/
  columns : Option (List (Option Bytes))
  /-- What the parameters are set to. -/
  parameters : List Datum
  /-- Whether a result is held. -/
  hasRows : Bool := false

/-- Operations on a statement that may fail, keeping what they did. -/
abbrev ClientTry := ExceptT Fault (StateT Client EngineM)

/-- Prepare a statement. One whose text is refused is given up. -/
def prepare (c : Option Nat) (sql : Bytes) : EngineTry Client := do
  match c with
  | none => throw (faultOf 0 "no connection" "mysql_stmt_init failed")
  | some c =>
    match ← Engine.newStatement c with
    | none => throw (← connectionFault c "mysql_stmt_init failed")
    | some k =>
      if ← Engine.prepareText k sql then
        let script := (← Engine.viewStatement k).script
        return {
          number := k
          columns := if script.columns.isEmpty then none else some script.columns
          parameters := List.replicate script.parameterCount .null }
      else
        let f ← statementFault k "SQL error when preparing query"
        let _ ← Engine.closeStatement k
        throw f

/-- Give up a statement. -/
def finalize (s : Client) : EngineTry Unit := do
  if !(← Engine.closeStatement s.number) then throw .statementClose

/-- Hand over the parameters, if there are any, and run a statement. -/
def bindAndExecute (s : Client) : EngineTry Unit := do
  if !s.parameters.isEmpty then
    checkStatement s.number (← Engine.bindParam s.number) "mysql_stmt_bind_param failed"
  checkStatement s.number (← Engine.execute s.number s.parameters) "Statement execution failed"

/-- Run a statement and give up its result; the answer is how many rows it changed. -/
def execute (s : Client) : EngineTry Int64 := do
  bindAndExecute s
  if s.columns.isSome then
    checkStatement s.number (← Engine.storeResult s.number) "Statement execution failed"
    Engine.freeResult s.number
  return (← Engine.viewStatement s.number).script.changes

/-- Give up the result that is held, if one is. -/
def endRows (s : Client) : EngineM Client := do
  if s.hasRows then
    Engine.freeResult s.number
    return { s with hasRows := false }
  else return s

/-- Run a statement and hold its result. -/
def beginRows : ClientTry Unit := do
  set (← endRows (← get))
  let s ← get
  bindAndExecute s
  if s.columns.isNone then throw .noRows
  checkStatement s.number (← Engine.storeResult s.number) "mysql_stmt_store_result failed"
  set { s with hasRows := true }
  checkStatement s.number (← Engine.bindResult s.number) "mysql_stmt_bind_result failed"

/-- Fetch the next row, if there is one. Each value is text or null. -/
def fetchRow (s : Client) : EngineTry (Option (List Cell)) := do
  if !s.hasRows then return none
  match ← Engine.fetch s.number with
  | .noRow => return none
  | .truncated => throw .truncated
  | .failed => throw (← statementFault s.number "Row fetch failed")
  | .row values =>
    return some <| values.map fun v =>
      match v with
      | none | some .null => .null
      | some c => .text c.toBytes

/-- The names of the result columns; a column without a name has the empty one. -/
def columnNames (s : Client) : List Bytes :=
  (s.columns.getD []).map fun n => (n.getD []).beforeNul

/-- Set a slot, counted from zero. -/
def bind (type : ValueType) (slot : Nat) (v : Value) : ClientTry Unit := do
  ExceptT.mk (pure (v.checkFits type))
  let s ← get
  if slot < s.parameters.length then
    set { s with parameters := s.parameters.set slot (datum type v) }
  else throw (.slotOutOfRange slot)

/-- The SQL that reads back generated keys. -/
def keysSql (keys : List Bytes) : Bytes :=
  "SELECT " ++ Bytes.joinWith ", " (keys.map fun k => "LAST_INSERT_ID() AS \x60" ++ k ++ "\x60")

end SqlAccess.Maria
