import SqlAccess.Engine

/-!
# The calls of MariaDB

A call answers whether it succeeded. What went wrong is kept with the statement for calls on
statements, and with the connection for all others.
-/

namespace SqlAccess

/-- What fetching a row comes to. -/
inductive FetchResult
  | row (values : List (Option Cell))
  | noRow
  /-- A value did not fit its buffer. -/
  | truncated
  | failed

/-- The code of a row that did not fit. -/
def truncatedCode : Int32 := 101

namespace Engine

/-- Make a call on a connection. -/
def onConnection (c : Nat) (call : Call) : EngineM Bool := do
  match ← perform call .done with
  | none => return true
  | some f => noteOnConnection c f; return false

/-- Make a call on a statement. -/
def onStatement (k : Nat) (call : Call) : EngineM Bool := do
  match ← perform call .done with
  | none => return true
  | some f => noteOnStatement k f; return false

/-- The version text that stands for a server without one. -/
def noVersion : Bytes := "<null>"

/-- The version of the server of a connection, if it reports one. -/
def serverVersion (c : Nat) : EngineM (Option Bytes) := do
  let _ ← viewConnection c
  let version := (← get).version
  return if version = noVersion then none else some version

/-- Make a connection ready. -/
def init : EngineM (Option Nat) := do
  let c := (← get).connections.next
  match ← perform .init (.created c) with
  | some _ => return none
  | none => addConnection {}; return some c

/-- Connect to a server. -/
def connect (c : Nat) (dsn : Dsn) : EngineM Bool := onConnection c (.connect c dsn)

/-- Choose the character set. -/
def charset (c : Nat) : EngineM Bool := onConnection c (.charset c)

/-- Close a connection. -/
def closeConnection (c : Nat) : EngineM Unit := do
  performSurely (.close c)
  dropConnection c

/-- Run a directive; its result can be stored then. -/
def query (c : Nat) (d : Directive) : EngineM Bool := do
  let columns := (← scriptFor d.maria).columns.length
  match ← perform (.query c d) (.answered columns) with
  | none => modifyConnection c fun s => { s with columns }; return true
  | some f => noteOnConnection c f; return false

/-- Store the result of a directive. -/
def store (c : Nat) : EngineM Bool := onConnection c (.store c)

/-- Make a statement ready. -/
def newStatement (c : Nat) : EngineM (Option Nat) := do
  let k := (← get).statements.next
  match ← perform (.newStatement c) (.created k) with
  | some f => noteOnConnection c f; return none
  | none => addStatement { connection := c, script := default, pending := [] }; return some k

/-- Give a statement its text. -/
def prepareText (k : Nat) (sql : Bytes) : EngineM Bool := do
  let ok ← onStatement k (.prepareText k sql)
  if ok then
    let script ← scriptFor sql
    modifyStatement k fun s => { s with script, pending := script.rows }
  return ok

/-- Give up a statement, whatever the answer. -/
def closeStatement (k : Nat) : EngineM Bool := do
  let failure ← perform (.closeStatement k) .done
  dropStatement k
  return failure.isNone

/-- Hand over the parameters. -/
def bindParam (k : Nat) : EngineM Bool := onStatement k (.bindParam k)

/-- Run a statement, from the first row on. -/
def execute (k : Nat) (parameters : List Datum) : EngineM Bool := do
  let ok ← onStatement k (.execute k parameters)
  if ok then modifyStatement k fun s => { s with pending := s.script.rows }
  return ok

/-- Fetch the whole result. -/
def storeResult (k : Nat) : EngineM Bool := onStatement k (.storeResult k)

/-- Name the buffers for the columns. -/
def bindResult (k : Nat) : EngineM Bool := onStatement k (.bindResult k)

/-- Give up the result, whatever the answer. -/
def freeResult (k : Nat) : EngineM Unit := do
  let _ ← onStatement k (.freeResult k)

/-- Go to the next row. -/
def fetch (k : Nat) : EngineM FetchResult := do
  let s ← statement k
  match ← perform (.fetch k) (if s.pending.isEmpty then .noRow else .row) with
  | some f =>
    noteOnStatement k f
    return if f.code = truncatedCode then .truncated else .failed
  | none =>
    match s.pending with
    | [] => return .noRow
    | row :: rest =>
      modifyStatement k fun s => { s with pending := rest }
      return .row (s.script.pad row)

end Engine

end SqlAccess
