import SqlAccess.Backend.Maria
import SqlAccess.Backend.Sqlite
import SqlAccess.Query

/-!
# Backends

A `Backend` is the engine behind a database. The operations on connections take the backend and
the number of the connection; those on prepared statements take a `Handle`, which is the
statement as the backend knows it.

The backend `strict` is SQLite with failures on giving up a statement reported.
-/

namespace SqlAccess

/-- The engines that can stand behind a database. -/
inductive Backend
  | sqlite
  | strict
  | maria
  deriving DecidableEq, Repr

/-- A prepared statement. -/
inductive Handle
  /-- A statement of SQLite; it is missing where preparing it counted as a success but made
  none. -/
  | sqlite (number : Option Nat)
  /-- A statement of MariaDB with its buffers. -/
  | maria (client : Maria.Client)

/-- Operations on a prepared statement that may fail, keeping what they did. -/
abbrev HandleTry := ExceptT Fault (StateT Handle EngineM)

namespace Backend

/-- The name of an engine, by which query variants are chosen. -/
def name : Backend → Bytes
  | sqlite => "sqlite"
  | strict => "strict"
  | maria => "mariadb"

/-! ## Connections -/

/-- Open a connection. -/
def connect (b : Backend) (dsn : Bytes) (readOnly : Bool) (busyTimeout : Int32) :
    EngineTry (Option Nat) :=
  match b with
  | sqlite | strict => Sqlite.connect dsn readOnly busyTimeout
  | maria => Maria.connect dsn readOnly busyTimeout

/-- Close a connection. -/
def disconnect (b : Backend) (c : Option Nat) : EngineTry Unit :=
  match b with
  | sqlite | strict => Sqlite.disconnect c
  | maria => Maria.disconnect c

/-- What a connection says of its engine. -/
def info (b : Backend) (c : Option Nat) : EngineM DatabaseInfo := do
  match b with
  | sqlite | strict => return { type := b.name, version := (← get).version.beforeNul }
  | maria => return { type := b.name, version := ← Maria.version c }

/-- Run a directive. -/
def control (b : Backend) (c : Option Nat) (d : Directive) : EngineTry Unit :=
  match b with
  | sqlite | strict => Sqlite.control c d
  | maria => Maria.control c d

/-- Undo the work done since a savepoint, and give the savepoint up. -/
def rollbackTo (b : Backend) (c : Option Nat) (savepoint : Nat) : EngineTry Unit := do
  b.control c (.rollbackTo savepoint)
  b.control c (.release savepoint)

/-! ## Statements -/

/-- Prepare a statement. -/
def prepare (b : Backend) (c : Option Nat) (sql : Bytes) : EngineTry Handle := do
  match b with
  | sqlite | strict => return .sqlite (← Sqlite.prepare c sql)
  | maria => return .maria (← Maria.prepare c sql)

/-- Give up a statement. -/
def finalize (b : Backend) (h : Handle) : EngineTry Unit :=
  match h with
  | .sqlite none => return ()
  | .sqlite (some k) => if b = strict then Sqlite.finalizeStrictly k else Sqlite.finalize k
  | .maria s => Maria.finalize s

/-- The value of a type that a cell holds. -/
def value (b : Backend) (type : ValueType) (c : Cell) : Value :=
  match b with
  | sqlite | strict => Sqlite.value type c
  | maria => Maria.value type c

/-- Give up copied rows, as far as the engine keeps the copies. -/
def freeRows (b : Backend) (rows : List (List Cell)) : EngineM Unit :=
  match b with
  | sqlite | strict => Engine.freeCells rows.flatten.length
  | maria => return ()

/-- The SQL that reads back generated keys. -/
def keysSql (b : Backend) (keys : List Bytes) : Bytes :=
  match b with
  | sqlite | strict => Sqlite.keysSql keys
  | maria => Maria.keysSql keys

end Backend

namespace Handle

/-- Run a statement to its end; the answer is how many rows it changed. -/
def execute (h : Handle) (c : Option Nat) : EngineTry Int64 :=
  match h with
  | sqlite k => Sqlite.execute c k
  | maria s => Maria.execute s

/-- Operate on the buffers of a MariaDB statement. -/
def onClient (s : Maria.Client) (x : Maria.ClientTry Unit) : HandleTry Unit :=
  ExceptT.mk fun _ => do
    let (r, s) ← x.run.run s
    return (r, maria s)

/-- Start to produce rows. -/
def beginRows : HandleTry Unit := do
  match ← getThe Handle with
  | sqlite k => Sqlite.rewind k
  | maria s => onClient s Maria.beginRows

/-- Fetch the next row, if there is one. -/
def fetchRow (h : Handle) (c : Option Nat) : EngineTry (Option (List Cell)) :=
  match h with
  | sqlite k => Sqlite.fetchRow c k
  | maria s => Maria.fetchRow s

/-- Stop producing rows. -/
def endRows (h : Handle) : EngineM Handle := do
  match h with
  | sqlite k => Sqlite.rewind k; return h
  | maria s => return maria (← Maria.endRows s)

/-- The names of the result columns. -/
def columnNames (h : Handle) : EngineM (List Bytes) :=
  match h with
  | sqlite k => Sqlite.columnNames k
  | maria s => return Maria.columnNames s

/-- Set a slot to a value, as a type is set. -/
def bind (type : ValueType) (slot : Nat) (v : Value) : HandleTry Unit := do
  match ← getThe Handle with
  | sqlite k => Sqlite.bind k type slot v
  | maria s => onClient s (Maria.bind type slot v)

end Handle

end SqlAccess
