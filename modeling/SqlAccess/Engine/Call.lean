import SqlAccess.Dsn

/-!
# Calls to an engine

A `Call` is what the library asks of an engine, together with the connection or statement it is
asked of; connections and statements are known by number. `Call.line` writes a call as a line of
text. An `Event` is a call with its `Outcome`.

Transactions are controlled by a `Directive`, whose SQL depends on the engine.
-/

namespace SqlAccess

/-- What a statement parameter is given. -/
inductive Datum
  | null
  | int32 (n : Int32)
  | int64 (n : Int64)
  | double (d : Float)
  | text (bs : Bytes)
  | blob (bs : Bytes)
  deriving Inhabited

/-- SQL that controls a session. -/
inductive Directive
  /-- Begin a transaction. -/
  | start
  | commit
  | rollback
  /-- Set the savepoint of a number. -/
  | savepoint (n : Nat)
  /-- Give up a savepoint and keep the work done since. -/
  | release (n : Nat)
  /-- Undo the work done since a savepoint. -/
  | rollbackTo (n : Nat)
  /-- Allow reading only. -/
  | readOnly
  /-- Wait at most some seconds for a lock. -/
  | lockWait (seconds : Int)
  deriving DecidableEq, Repr

/-- The name of a savepoint. -/
def savepointName (n : Nat) : Bytes := "dalpp_sp_" ++ Bytes.ofNat n

namespace Directive

/-- The SQL of a directive without its end. -/
def body : Directive → Bytes
  | start => "START TRANSACTION"
  | commit => "COMMIT"
  | rollback => "ROLLBACK"
  | savepoint n => "SAVEPOINT " ++ savepointName n
  | release n => "RELEASE SAVEPOINT " ++ savepointName n
  | rollbackTo n => "ROLLBACK TO SAVEPOINT " ++ savepointName n
  | readOnly => "SET SESSION TRANSACTION READ ONLY"
  | lockWait seconds => "SET SESSION innodb_lock_wait_timeout = " ++ Bytes.decimal seconds

/-- The SQL for SQLite. -/
def sqlite : Directive → Bytes
  | start => "BEGIN TRANSACTION;"
  | commit => "COMMIT TRANSACTION;"
  | d => d.body ++ ";"

/-- The SQL for MariaDB. -/
def maria (d : Directive) : Bytes := d.body

end Directive

/-- What an engine is asked. -/
inductive Call
  /-- SQLite: open a database file. -/
  | openFile (path : Bytes) (flags : Nat)
  /-- SQLite: report extended result codes. -/
  | extendedCodes (connection : Nat)
  /-- SQLite: wait for a lock. -/
  | busyTimeout (connection : Nat) (milliseconds : Int32)
  /-- SQLite: run a directive. -/
  | exec (connection : Nat) (directive : Directive)
  /-- SQLite: prepare a statement. -/
  | prepare (connection : Nat) (sql : Bytes)
  /-- SQLite: set a parameter, counted from one. -/
  | bind (statement : Nat) (parameter : Nat) (datum : Datum)
  /-- SQLite: go to the next row. -/
  | step (statement : Nat)
  /-- SQLite: go back in front of the first row. -/
  | reset (statement : Nat)
  /-- SQLite: give up a statement. -/
  | finalize (statement : Nat)
  /-- MariaDB: make a connection ready. -/
  | init
  /-- MariaDB: connect to a server. -/
  | connect (connection : Nat) (dsn : Dsn)
  /-- MariaDB: choose the character set. -/
  | charset (connection : Nat)
  /-- MariaDB: run a directive. -/
  | query (connection : Nat) (directive : Directive)
  /-- MariaDB: take the result of a directive. -/
  | store (connection : Nat)
  /-- MariaDB: make a statement ready. -/
  | newStatement (connection : Nat)
  /-- MariaDB: give a statement its text. -/
  | prepareText (statement : Nat) (sql : Bytes)
  /-- MariaDB: hand over the parameters. -/
  | bindParam (statement : Nat)
  /-- MariaDB: run a statement; the parameters are known once they were handed over. -/
  | execute (statement : Nat) (parameters : List Datum)
  /-- MariaDB: fetch the whole result. -/
  | storeResult (statement : Nat)
  /-- MariaDB: name the buffers for the columns. -/
  | bindResult (statement : Nat)
  /-- MariaDB: give up the result. -/
  | freeResult (statement : Nat)
  /-- MariaDB: go to the next row. -/
  | fetch (statement : Nat)
  /-- MariaDB: give up a statement. -/
  | closeStatement (statement : Nat)
  /-- Close a connection. -/
  | close (connection : Nat)

namespace Datum

/-- What a parameter is set to, in the notation of a SQLite call. -/
def sqliteText : Datum → Bytes
  | null => "null"
  | int32 n => "int " ++ Bytes.decimal n.toInt
  | int64 n => "int64 " ++ Bytes.decimal n.toInt
  | double d => "double " ++ Bytes.ofDouble d
  | text bs => "text " ++ Bytes.hex bs
  | blob bs => "blob " ++ Bytes.hex bs

/-- What a parameter is set to, in the notation of a MariaDB call. -/
def mariaText : Datum → Bytes
  | null => "null"
  | int32 n => "longlong:" ++ Bytes.decimal n.toInt
  | int64 n => "longlong:" ++ Bytes.decimal n.toInt
  | double d => "double:" ++ Bytes.ofDouble d
  | text bs => "string:" ++ Bytes.hex bs
  | blob bs => "blob:" ++ Bytes.hex bs

end Datum

namespace Call

/-- A statement by its number. -/
def number (n : Nat) : Bytes := "#" ++ Bytes.ofNat n

/-- A field of a data source that may be missing. -/
def optional : Option Bytes → Bytes
  | some bs => "=" ++ bs
  | none => "-"

/-- A call as a line of text. -/
def line : Call → Bytes
  | openFile path flags => "open " ++ path ++ " flags=" ++ Bytes.ofNat flags
  | extendedCodes _ => "extended 1"
  | busyTimeout _ ms => "busy_timeout " ++ Bytes.decimal ms.toInt
  | exec _ d => "exec " ++ d.sqlite
  | prepare _ sql => "prepare " ++ sql
  | bind k parameter datum =>
    "bind " ++ number k ++ " " ++ Bytes.ofNat parameter ++ " " ++ datum.sqliteText
  | step k => "step " ++ number k
  | reset k => "reset " ++ number k
  | finalize k => "finalize " ++ number k
  | init => "init"
  | connect _ d =>
    "connect " ++ d.host ++ " " ++ Bytes.ofNat d.port.toNat ++ " " ++ d.user ++ " password" ++
      optional d.password ++ " database" ++ optional d.database
  | charset _ => "charset utf8mb4"
  | query _ d => "query " ++ d.maria
  | store _ => "store"
  | newStatement _ => "stmt_init"
  | prepareText _ sql => "prepare " ++ sql
  | bindParam k => "bind_param " ++ number k
  | execute k parameters =>
    "execute " ++ number k ++ parameters.flatMap fun d => 0x20 :: d.mariaText
  | storeResult k => "store_result " ++ number k
  | bindResult k => "bind_result " ++ number k
  | freeResult k => "free_result " ++ number k
  | fetch k => "fetch " ++ number k
  | closeStatement k => "stmt_close " ++ number k
  | close _ => "close"

end Call

/-- How a call ends. -/
inductive Outcome
  /-- It did what was asked. -/
  | done
  /-- It did, and has a result of so many columns. -/
  | answered (columns : Nat)
  /-- It did, and the connection or statement of this number is new. -/
  | created (number : Nat)
  /-- A statement stands on a row. -/
  | row
  /-- A statement has no further row. -/
  | noRow
  /-- It failed; the connection of the number exists all the same. -/
  | failed (code : Int32) (left : Option Nat)
  deriving DecidableEq, Repr

/-- A call with its outcome. -/
structure Event where
  call : Call
  outcome : Outcome

end SqlAccess
