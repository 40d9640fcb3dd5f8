import SqlAccess.Session.Answer

/-!
# Operations on handles

What can be done with the handles of a session, by their names. An empty handle is refused in
the same way as one that holds something closed.

Where an operation has a result that goes to a handle, the result is put there last
(`Session.deliver`), and the handle is left empty if the operation failed.
-/

namespace SqlAccess

/-- A handle by its name. -/
inductive HandleName
  | database (name : Bytes)
  | transaction (name : Bytes)
  | statement (name : Bytes)
  | parameter (name : Bytes)
  | cursor (name : Bytes)
  deriving DecidableEq

namespace Session

variable {α : Type}

/-! ## Work on what a handle holds -/

/-- Work on the database of a handle. -/
def withDatabase (name : Bytes) (x : Nat → Op Database α) : SessionM (Except Fault α) := do
  match (← getThe Session).databases.find? name with
  | none => return .error .notOpen
  | some n => attemptOn n (x n)

/-- Work on the database of a transaction. -/
def withTransaction (name : Bytes) (x : TransactionRef → Op Database α) :
    SessionM (Except Fault α) := do
  match (← getThe Session).transactions.find? name with
  | none => return .error .noTransaction
  | some r => attemptOn r.database (x r)

/-- Work on the database of a statement. -/
def withStatement (name : Bytes) (x : StatementRef → Op Database α) :
    SessionM (Except Fault α) := do
  match (← getThe Session).statements.find? name with
  | none => return .error .statementClosed
  | some r => attemptOn r.database (x r)

/-- Work on a statement that need not be allowed to run. -/
def onStatement (name : Bytes) (x : Link → Op Statement α) : SessionM (Except Fault α) :=
  withStatement name fun r => Database.onStatement r.number x

/-- Set a resolved parameter. -/
def onParameter (name : Bytes) (x : Parameter → Link → Op Statement Unit) :
    SessionM (Except Fault Unit) := do
  match (← getThe Session).parameters.find? name with
  | none => return .error .statementClosed
  | some r => attemptOn r.database (Database.onStatement r.statement (x r.parameter))

/-- Work on a cursor, which must be open. -/
def onCursor (name : Bytes) (x : Nat → Link → Op Statement α) : SessionM (Except Fault α) := do
  let s ← getThe Session
  match s.cursors.find? name with
  | none => return .error .cursorClosed
  | some r =>
    if (s.cursor? r).isSome then
      attemptOn r.database (Database.atStatement r.statement (x r.number))
    else return .error .cursorClosed

/-- The cursor of a handle, if it is open. -/
def openCursor? (s : Session) (name : Bytes) : Option Cursor :=
  (s.cursors.find? name).bind s.cursor?

/-- Put a result in its place, or leave the place empty. -/
def deliver (put : Option α → SessionM Unit) (r : Except Fault α) : SessionM Reply := do
  put r.toOption
  return .plain r

/-! ## Databases -/

/-- Close the database of a handle and empty the handle. -/
def closeDatabase (name : Bytes) : SessionM (Except Fault Unit) := do
  match (← getThe Session).databases.find? name with
  | none => return .ok ()
  | some n =>
    modify fun s => { s with databases := s.databases.erase name }
    onDatabase n (.ok ()) Database.close

/-- Open a database and let the handle hold it. -/
def establish (name dsn : Bytes) (options : Options) : SessionM (Except Fault Unit) := do
  match ← liftM (Database.connect (← getThe Session).backend dsn options) with
  | .error f => return .error f
  | .ok d =>
    modify fun s =>
      { s with opened := s.opened.add d, databases := s.databases.insert name s.opened.next }
    return .ok ()

/-- Open a database, after closing the one that the handle holds. -/
def connect (name : Bytes) (dsn : Option Bytes) (options : Options) :
    SessionM (Except Fault Unit) := do
  match dsn with
  | none => return .error .noDsn
  | some dsn =>
    match ← closeDatabase name with
    | .error f => return .error f
    | .ok () => establish name dsn options

/-! ## Transactions and statements -/

/-- Begin a root transaction. -/
def begin (name : Bytes) : SessionM (Except Fault TransactionRef) :=
  withDatabase name fun n => do
    return { database := n, number := ← Database.begin }

/-- Begin a nested transaction. -/
def nest (name : Bytes) : SessionM (Except Fault TransactionRef) :=
  withTransaction name fun r => do
    return { database := r.database, number := ← Database.nest r.number }

/-- Roll back a transaction with everything nested in it, if it is open. -/
def rollbackThrough (name : Bytes) : SessionM (Except Fault Unit) := do
  match (← getThe Session).transactions.find? name with
  | none => return .ok ()
  | some r => onDatabase r.database (.ok ()) (Database.rollbackThrough r.number)

/-- Prepare a query for reading. -/
def prepare (name : Bytes) (query : Option Query) : SessionM (Except Fault StatementRef) :=
  withDatabase name fun n => do
    return { database := n, number := ← Database.prepare none query }

/-- Prepare a query in a transaction. -/
def prepareIn (name : Bytes) (query : Option Query) : SessionM (Except Fault StatementRef) :=
  withTransaction name fun r => do
    return { database := r.database, number := ← Database.prepare (some r.number) query }

/-- Resolve a parameter for binding it later. -/
def resolve (name : Bytes) (parameter : Option Bytes) : SessionM (Except Fault ParameterRef) :=
  withStatement name fun r => do
    let parameter ← Database.onStatement r.number (Statement.parameter parameter)
    return { database := r.database, statement := r.number, parameter }

/-- Run a statement for the number of rows changed. -/
def execute (name : Bytes) : SessionM (Except Fault Int64) :=
  withStatement name fun r => Database.executeStatement r.number

/-- Run a statement for a cursor. -/
def runForCursor (name : Bytes) (writes : Bool) (x : Link → Op Statement Nat) :
    SessionM (Except Fault CursorRef) :=
  withStatement name fun r => do
    Database.checkRunnable r.number writes
    let number ← Database.onStatement r.number x
    return { database := r.database, statement := r.number, number }

/-! ## Reading -/

/-- The value of a column as a reader of a type sees it. Where reading fails, that reader sees
null. -/
def read (s : Session) (name : Bytes) (column : Option Bytes) (type : Option ValueType)
    (ifNull : Option Value) : Reply :=
  let r := match s.openCursor? name with
    | none => .error .cursorClosed
    | some c => c.read s.backend column
  Reply.of (fun v => .value (v.readAs type ifNull)) (.value (Value.null.readAs type ifNull)) r

/-! ## Handles -/

/-- What a handle holds. -/
def inspect (s : Session) : HandleName → Answer
  | .database name =>
    match (s.databases.find? name).bind s.opened.find? with
    | none => .database false {}
    | some d => .database d.isOpen d.link.info
  | .transaction name =>
    match (s.transactions.find? name).bind s.transaction? with
    | none => .transaction (some .rolledBack) (-1)
    | some x => .transaction x.ended x.depth
  | .statement name =>
    match (s.statements.find? name).bind fun r => s.statement? r.database r.number with
    | none => .statement false {}
    | some x => .statement x.isOpen x.descriptor
  | .parameter name =>
    match s.parameters.find? name with
    | none => .parameter false {}
    | some r => .parameter true r.parameter
  | .cursor name =>
    match s.openCursor? name with
    | none => .cursor false (-1)
    | some c => .cursor true c.position

/-- Close what a handle holds, and empty the handle. -/
def close (h : HandleName) : SessionM (Except Fault Unit) := do
  match h with
  | .database name => closeDatabase name
  | .statement name =>
    match (← getThe Session).statements.find? name with
    | none => return .ok ()
    | some r =>
      modify fun s => { s with statements := s.statements.erase name }
      onDatabase r.database (.ok ()) (Database.closeStatement r.number)
  | .cursor name =>
    match (← getThe Session).cursors.find? name with
    | none => return .ok ()
    | some r =>
      modify fun s => { s with cursors := s.cursors.erase name }
      closeCursorOf r
  | .transaction _ | .parameter _ => return .ok ()

/-- Give up a handle with what it holds. -/
def drop (h : HandleName) : SessionM Unit := do
  match h with
  | .database name => setDatabase name none
  | .transaction name =>
    if let some r := (← getThe Session).transactions.find? name then abandonTransaction r
    modify fun s => { s with transactions := s.transactions.erase name }
  | .statement name => setStatement name none
  | .parameter name => setParameter name none
  | .cursor name => setCursor name none

/-- Let a handle hold what another one of its kind holds, which is empty then. -/
def move (h : HandleName) (target : Bytes) : SessionM Unit := do
  let s ← getThe Session
  match h with
  | .database name =>
    if name ≠ target then
      setDatabase target (s.databases.find? name)
      modify fun s => { s with databases := s.databases.erase name }
  | .transaction name =>
    if name ≠ target then
      setTransaction target (s.transactions.find? name)
      modify fun s => { s with transactions := s.transactions.erase name }
  | .statement name =>
    if name ≠ target then
      setStatement target (s.statements.find? name)
      modify fun s => { s with statements := s.statements.erase name }
  | .parameter name =>
    if name ≠ target then
      setParameter target (s.parameters.find? name)
      modify fun s => { s with parameters := s.parameters.erase name }
  | .cursor name =>
    if name ≠ target then
      setCursor target (s.cursors.find? name)
      modify fun s => { s with cursors := s.cursors.erase name }

end Session

end SqlAccess
