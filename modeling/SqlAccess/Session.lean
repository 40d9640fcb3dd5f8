import SqlAccess.Database

/-!
# Sessions

A `Session` is the world together with everything that was opened in it. Callers hold named
handles: of databases, transactions, statements, parameters and cursors. A name that holds
nothing counts as an empty handle.

Each handle but that of a parameter owns what it refers to. When it is dropped or gets something
else to hold, it gives up what it held (`Session.releaseDatabase` and its neighbours), and a
failure of that is written to the log.
-/

namespace SqlAccess

/-- A transaction of a database. -/
structure TransactionRef where
  database : Nat
  number : Nat
  deriving DecidableEq

/-- A statement of a database. -/
structure StatementRef where
  database : Nat
  number : Nat

/-- A parameter of a statement. -/
structure ParameterRef where
  database : Nat
  statement : Nat
  parameter : Parameter

/-- A cursor of a statement. -/
structure CursorRef where
  database : Nat
  statement : Nat
  number : Nat

/-- Everything opened so far, and the handles on it. -/
structure Session where
  /-- The engine behind every database. -/
  backend : Backend
  /-- Every database that was opened, closed ones included. -/
  opened : Table Database := .empty 0
  databases : NameMap Nat := .empty
  transactions : NameMap TransactionRef := .empty
  statements : NameMap StatementRef := .empty
  parameters : NameMap ParameterRef := .empty
  cursors : NameMap CursorRef := .empty

/-- Work on a session. -/
abbrev SessionM := StateT Session Act

namespace Session

/-! ## What a handle refers to -/

/-- A transaction, open or ended. -/
def transaction? (s : Session) (r : TransactionRef) : Option Transaction := do
  let d ← s.opened.find? r.database
  d.transactions.find? r.number

/-- A statement, open or closed. -/
def statement? (s : Session) (database number : Nat) : Option Statement := do
  let d ← s.opened.find? database
  d.statements.find? number

/-- A cursor that is open. -/
def cursor? (s : Session) (r : CursorRef) : Option Cursor := do
  let statement ← s.statement? r.database r.statement
  statement.cursors.find? r.number

/-- Work on a database. -/
def onDatabase {α : Type} (n : Nat) (otherwise : α) (x : StateT Database Act α) :
    SessionM α := do
  let s ← getThe Session
  match s.opened.find? n with
  | none => return otherwise
  | some d =>
    let (a, d) ← liftM (x.run d)
    modify fun s => { s with opened := s.opened.modify n fun _ => d }
    return a

/-- Work on a database, whose failure is the answer. -/
def attemptOn {α : Type} (n : Nat) (x : Op Database α) : SessionM (Except Fault α) :=
  onDatabase n (.error .notOpen) x.run

/-! ## Giving up -/

/-- Write a failure to the log of a database. -/
def complain (n : Nat) (level : LogLevel) (note : Bytes) (r : Except Fault Unit) :
    SessionM Unit := do
  if let .error f := r then
    onDatabase n () (Database.writeLog level (note ++ ": " ++ f.message))

/-- Give up a database. -/
def releaseDatabase (n : Nat) : SessionM Unit := do
  complain n .error "Close failed" (← onDatabase n (.ok ()) Database.close)

/-- Give up a transaction, which is rolled back if it is open. -/
def releaseTransaction (r : TransactionRef) : SessionM Unit := do
  let outcome ← onDatabase r.database (.ok ()) (Database.rollbackThrough r.number)
  complain r.database .error "Rollback failed" outcome

/-- Give up a transaction without anything in its place, which is worth a line of its own if it
is open. -/
def abandonTransaction (r : TransactionRef) : SessionM Unit := do
  if let some x := (← getThe Session).transaction? r then
    if x.isOpen then
      onDatabase r.database () <| Database.writeLog .warn <|
        "Transaction at depth " ++ Bytes.ofNat x.depth ++
          " abandoned without commit; rolling back"
  releaseTransaction r

/-- Give up a statement. -/
def releaseStatement (r : StatementRef) : SessionM Unit := do
  let outcome ← onDatabase r.database (.ok ()) (Database.closeStatement r.number)
  complain r.database .warn "Statement close failed" outcome

/-- Close a cursor, if it is open. -/
def closeCursorOf (r : CursorRef) : SessionM (Except Fault Unit) := do
  if ((← getThe Session).cursor? r).isSome then
    attemptOn r.database (Database.atStatement r.statement (Statement.closeCursor r.number))
  else return .ok ()

/-- Give up a cursor. -/
def releaseCursor (r : CursorRef) : SessionM Unit := do
  complain r.database .warn "Cursor close failed" (← closeCursorOf r)

/-! ## Handles -/

/-- Let a handle hold a database, or nothing. -/
def setDatabase (name : Bytes) (r : Option Nat) : SessionM Unit := do
  if let some old := (← getThe Session).databases.find? name then releaseDatabase old
  modify fun s => { s with databases := s.databases.update name r }

/-- Let a handle hold a transaction, or nothing. -/
def setTransaction (name : Bytes) (r : Option TransactionRef) : SessionM Unit := do
  if let some old := (← getThe Session).transactions.find? name then releaseTransaction old
  modify fun s => { s with transactions := s.transactions.update name r }

/-- Let a handle hold a statement, or nothing. -/
def setStatement (name : Bytes) (r : Option StatementRef) : SessionM Unit := do
  if let some old := (← getThe Session).statements.find? name then releaseStatement old
  modify fun s => { s with statements := s.statements.update name r }

/-- Let a handle hold a parameter, or nothing. -/
def setParameter (name : Bytes) (r : Option ParameterRef) : SessionM Unit :=
  modify fun s => { s with parameters := s.parameters.update name r }

/-- Let a handle hold a cursor, or nothing. -/
def setCursor (name : Bytes) (r : Option CursorRef) : SessionM Unit := do
  if let some old := (← getThe Session).cursors.find? name then releaseCursor old
  modify fun s => { s with cursors := s.cursors.update name r }

end Session

end SqlAccess
