import SqlAccess.Database.Transaction
import SqlAccess.Statement

/-!
# Databases

A `Database` is what was opened on one connection: the transactions begun on it and the
statements prepared on it, each known by number. It refers to its open root transaction and to
the statements that are to be closed with it; what has ended or was closed stays in its table.

* `Database.begin`, `Database.nest`, `Database.commit` and `Database.rollback` work on the
  transactions. One that is committed or rolled back takes its statements with it.
* `Database.prepare` adds a statement, and `Database.onStatement` works on one.
* `Database.close` closes everything from the inside out. Whatever fails on the way, the first
  failure is the answer, and the others go to the log.
-/

namespace SqlAccess

/-- A database that has been opened. -/
structure Database where
  link : Link
  isOpen : Bool := true
  /-- The open root transaction. -/
  root : Option Nat := none
  /-- The transactions begun, ended ones included. -/
  transactions : Table Transaction := .empty 0
  /-- How many savepoints have been asked for. -/
  savepoints : Nat := 0
  /-- The statements prepared, closed ones included. -/
  statements : Table Statement := .empty 0
  /-- The statements that are to be closed with the database, in the order in which they were
  prepared. -/
  listed : List Nat := []

namespace Database

/-- Where the log of the database goes. -/
def sink (d : Database) : LogSink := d.link.options.sink

/-- Whether a transaction is open. -/
def isActive (d : Database) (t : Nat) : Bool := (d.transactions.find? t).any (·.isOpen)

/-- The open transaction nested in a transaction. -/
def openChild? (d : Database) (t : Nat) : Option Nat := do
  let x ← d.transactions.find? t
  x.child.filter d.isActive

/-- A statement that is open. -/
def openStatement? (d : Database) (k : Nat) : Option Statement :=
  (d.statements.find? k).filter (·.isOpen)

/-- Write a line to the log. -/
def writeLog (level : LogLevel) (text : Bytes) : StateT Database Act Unit := do
  SqlAccess.writeLog (← getThe Database).sink level text

/-- Change a transaction. -/
def modifyTransaction (t : Nat) (f : Transaction → Transaction) : StateT Database Act Unit :=
  modify fun d => { d with transactions := d.transactions.modify t f }

/-! ## What is allowed -/

/-- Refuse to go on if the database is closed. -/
def checkOpen : Op Database Unit := do
  if !(← getThe Database).isOpen then throw .notOpen

/-- A transaction, which must be open and have no open transaction nested in it. -/
def active (attempt : Attempt) (t : Nat) : Op Database Transaction := do
  let d ← getThe Database
  match d.transactions.find? t with
  | none => throw .noTransaction
  | some x =>
    if let some how := x.ended then throw (.ended attempt how)
    if (d.openChild? t).isSome then throw (.shadowed attempt)
    return x

/-- Refuse to go on unless a transaction can be used. -/
def checkUsable (t : Nat) : Op Database Transaction := do
  let x ← active .use t
  checkOpen
  return x

/-! ## Statements -/

/-- Work on a statement, whether it is open or not. -/
def atStatement {α : Type} (k : Nat) (x : Link → Op Statement α) : Op Database α := do
  let d ← getThe Database
  match d.statements.find? k with
  | none => throw .statementClosed
  | some s =>
    let (r, s) ← liftM ((x d.link).runOn s)
    set { d with statements := d.statements.modify k fun _ => s }
    Op.ofResult r

/-- Work on a statement, which must be open. -/
def onStatement {α : Type} (k : Nat) (x : Link → Op Statement α) : Op Database α := do
  match (← getThe Database).openStatement? k with
  | none => throw .statementClosed
  | some _ => atStatement k x

/-- Refuse to run a statement that is closed, whose transaction cannot be used, or that is to
write without a transaction. -/
def checkRunnable (k : Nat) (writes : Bool) : Op Database Unit := do
  match (← getThe Database).openStatement? k with
  | none => throw .statementClosed
  | some s =>
    checkOpen
    match s.owner with
    | some t => let _ ← checkUsable t
    | none => if writes then throw .unboundStatement

/-- Close a statement, if it is open. It is closed even if that fails. -/
def closeStatement (k : Nat) : StateT Database Act (Except Fault Unit) := do
  let d ← getThe Database
  match d.statements.find? k with
  | none => return .ok ()
  | some s =>
    let (r, s) ← liftM ((Statement.close d.link).run s)
    set { d with statements := d.statements.modify k fun _ => s }
    return r

/-- Close statements one after another. -/
def closeEach (first : Except Fault Unit) :
    List Nat → StateT Database Act (Except Fault Unit)
  | [] => return first
  | k :: rest => do
    let next ← closeStatement k
    let first ← liftM (keepFirst (← getThe Database).sink "Statement close failed" first next)
    closeEach first rest

/-- Close the statements that are listed with a transaction. -/
def closeOwned (t : Nat) : StateT Database Act (Except Fault Unit) := do
  let owned := ((← getThe Database).transactions.find? t).elim [] (·.statements)
  let first ← closeEach (.ok ()) owned
  modifyTransaction t fun x => { x with statements := [] }
  return first

/-- List a statement behind those of a list that are still open. -/
def enlist (d : Database) (k : Nat) (l : List Nat) : List Nat :=
  l.filter (fun j => (d.openStatement? j).isSome) ++ [k]

/-- A database with one statement more, which is listed with the database and with its
transaction. Its number is the next one. -/
def withStatement (d : Database) (s : Statement) : Database :=
  let k := d.statements.next
  { d with
    statements := d.statements.add s
    listed := d.enlist k d.listed
    transactions := match s.owner with
      | none => d.transactions
      | some t =>
        d.transactions.modify t fun x => { x with statements := d.enlist k x.statements } }

/-- Resolve a query and prepare it, for a transaction or for reading alone; the answer is the
number of the statement. -/
def prepare (owner : Option Nat) (query : Option Query) : Op Database Nat := do
  checkOpen
  if let some t := owner then
    let _ ← checkUsable t
  let d ← getThe Database
  let descriptor ← Op.ofResult (Query.resolve? query d.link.info)
  match ← liftM (d.link.backend.prepare d.link.connection descriptor.sql).run with
  | .error f =>
    liftM (writeLog .debug ("Prepare failed for: " ++ descriptor.sql))
    throw f
  | .ok handle =>
    liftM (writeLog .debug ("Prepared: " ++ descriptor.sql))
    modify (·.withStatement { owner, descriptor, handle })
    return d.statements.next

/-! ## Transactions -/

/-- A database with a root transaction, whose number is the next one. -/
def withRoot (d : Database) : Database :=
  { d with
    root := some d.transactions.next
    transactions := d.transactions.add { origin := .root, depth := 0 } }

/-- A database with one more transaction, nested in another one. Its number is the next one. -/
def withNested (d : Database) (parent savepoint depth : Nat) : Database :=
  { d with
    transactions :=
      (d.transactions.add { origin := .nested parent savepoint, depth }).modify parent fun x =>
        { x with child := some d.transactions.next } }

/-- A database in which a transaction has ended. Nothing refers to it as open any more. -/
def withEnded (d : Database) (t : Nat) (origin : Origin) (how : Ended) : Database :=
  let transactions := d.transactions.modify t fun x => { x with ended := some how }
  match origin with
  | .root => { d with root := none, transactions }
  | .nested parent _ =>
    { d with transactions := transactions.modify parent fun x => { x with child := none } }

section WithEnded

variable {d : Database} {t : Nat} {o : Origin} {how : Ended}

@[simp] theorem withEnded_link : (d.withEnded t o how).link = d.link := by cases o <;> rfl

@[simp] theorem withEnded_isOpen : (d.withEnded t o how).isOpen = d.isOpen := by cases o <;> rfl

@[simp] theorem withEnded_savepoints : (d.withEnded t o how).savepoints = d.savepoints := by
  cases o <;> rfl

@[simp] theorem withEnded_statements : (d.withEnded t o how).statements = d.statements := by
  cases o <;> rfl

@[simp] theorem withEnded_listed : (d.withEnded t o how).listed = d.listed := by cases o <;> rfl

@[simp] theorem withEnded_next : (d.withEnded t o how).transactions.next = d.transactions.next := by
  cases o <;> rfl

end WithEnded

/-- Begin a root transaction; the answer is its number. -/
def begin : Op Database Nat := do
  checkOpen
  let d ← getThe Database
  if d.link.options.readOnly then throw .readOnlyDatabase
  if d.root.any d.isActive then throw .alreadyOpen
  d.link.backend.control d.link.connection .start
  modify (·.withRoot)
  liftM (writeLog .debug "Began transaction")
  return d.transactions.next

/-- Begin a transaction nested in another one; the answer is its number. -/
def nest (parent : Nat) : Op Database Nat := do
  let x ← checkUsable parent
  modify fun d => { d with savepoints := d.savepoints + 1 }
  let d ← getThe Database
  let savepoint := d.savepoints
  let depth := x.depth + 1
  d.link.backend.control d.link.connection (.savepoint savepoint)
  modify (·.withNested parent savepoint depth)
  liftM <| writeLog .debug <|
    "Opened nested transaction at depth " ++ Bytes.ofNat depth ++ " (" ++
      savepointName savepoint ++ ")"
  return d.transactions.next

/-- Make the work of a transaction part of the one around it, or durable. -/
def keepWork (l : Link) : Origin → EngineTry Unit
  | .root => l.backend.control l.connection .commit
  | .nested _ savepoint => l.backend.control l.connection (.release savepoint)

/-- Undo the work of a transaction. -/
def undoWork (l : Link) : Origin → EngineTry Unit
  | .root => l.backend.control l.connection .rollback
  | .nested _ savepoint => l.backend.rollbackTo l.connection savepoint

/-- Commit a transaction. If the engine refuses, the transaction stays open, with its
statements closed. -/
def commit (t : Nat) : Op Database Unit := do
  let x ← active .commit t
  checkOpen
  let first ← liftM (closeOwned t)
  match ← liftM (keepWork (← getThe Database).link x.origin).run with
  | .error f =>
    liftM <| writeLog .error <|
      "Commit failed at depth " ++ Bytes.ofNat x.depth ++ ": " ++ f.message
    throw f
  | .ok () =>
    modify (·.withEnded t x.origin .committed)
    liftM (writeLog .debug ("Committed transaction at depth " ++ Bytes.ofNat x.depth))
    Op.ofResult first

/-- Undo the work of a transaction, if the database is open. -/
def undo (first : Except Fault Unit) (origin : Origin) :
    StateT Database Act (Except Fault Unit) := do
  let d ← getThe Database
  if d.isOpen then
    let undone ← liftM (undoWork d.link origin).run
    liftM (keepFirst d.sink "Rollback failed" first undone)
  else return first

/-- Roll back a transaction. It ends even if the engine refuses. -/
def rollback (t : Nat) : Op Database Unit := do
  let x ← active .rollback t
  let first ← liftM (closeOwned t)
  let first ← liftM (undo first x.origin)
  modify (·.withEnded t x.origin .rolledBack)
  liftM (writeLog .debug ("Rolled back transaction at depth " ++ Bytes.ofNat x.depth))
  Op.ofResult first

/-- Roll back a transaction, if it is open, after those nested in it, which are at most `n`
deep. -/
def rollbackChain : Nat → Nat → StateT Database Act (Except Fault Unit)
  | 0, _ => return .ok ()
  | n + 1, t => do
    let first ← match (← getThe Database).openChild? t with
      | some child => rollbackChain n child
      | none => pure (.ok ())
    if (← getThe Database).isActive t then
      let next ← (rollback t).attempt
      liftM (keepFirst (← getThe Database).sink "Rollback failed" first next)
    else return first

/-- Roll back a transaction and everything nested in it, if it is open. -/
def rollbackThrough (t : Nat) : StateT Database Act (Except Fault Unit) := do
  let d ← getThe Database
  if d.isActive t then rollbackChain d.transactions.next t
  else return .ok ()

/-- Run a statement that must be allowed to write. -/
def executeStatement (k : Nat) : Op Database Int64 := do
  checkRunnable k true
  onStatement k Statement.execute

/-- Prepare a query in a transaction, run it once and close it. A failure to close counts only
if running it did not fail. -/
def executeOnce (t : Nat) (query : Option Query) : Op Database Unit := do
  let k ← prepare (some t) query
  let ran ← liftM (executeStatement k).attempt
  let closed ← liftM (closeStatement k)
  match ran with
  | .error f => throw f
  | .ok _ => Op.ofResult closed

/-! ## Opening and closing -/

/-- Open a database. -/
def connect (backend : Backend) (dsn : Bytes) (options : Options) :
    Act (Except Fault Database) := do
  match ← liftM (backend.connect dsn options.readOnly options.busyTimeout).run with
  | .error f =>
    SqlAccess.writeLog options.sink .error ("Open failed: " ++ f.message)
    return .error f
  | .ok connection =>
    let info ← liftM (backend.info connection)
    SqlAccess.writeLog options.sink .info <|
      "Opened " ++ info.type ++ " " ++ info.version ++
        if options.readOnly then " (read-only)" else ""
    return .ok { link := { backend, connection, info, options } }

/-- Roll back the open transactions, if there are any. -/
def abandonChain (first : Except Fault Unit) : StateT Database Act (Except Fault Unit) := do
  let d ← getThe Database
  match d.root.filter d.isActive with
  | none => return first
  | some root =>
    writeLog .warn "Closing database with an open transaction; rolling back"
    let next ← rollbackChain d.transactions.next root
    liftM (keepFirst d.sink "Rollback failed" first next)

/-- Close a database with everything opened from it, if it is open. -/
def close : StateT Database Act (Except Fault Unit) := do
  let d ← getThe Database
  if !d.isOpen then return .ok ()
  let first ← closeEach (.ok ()) d.listed
  modify fun d => { d with listed := [] }
  let first ← abandonChain first
  let next ← liftM (d.link.backend.disconnect d.link.connection).run
  let first ← liftM (keepFirst d.sink "Connection close failed" first next)
  modify fun d => { d with isOpen := false }
  writeLog .info ("Closed " ++ d.link.info.type ++ " database")
  return first

end Database

end SqlAccess
