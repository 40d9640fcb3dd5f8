import SqlAccess.Statement.Cursor
import SqlAccess.Statement.Parameter

/-!
# Statements

A `Statement` is a query prepared on a connection. It can be bound and run any number of times.
Each run for rows produces a cursor, which stands by itself; the statement knows the one that it
produced last. Running it again, binding it and closing it close that cursor.

The operations take the link of the database and act on the statement alone: whether its
database and its transaction allow them is up to the database. A closed statement stays as it
is, so that what is still asked of it can be refused.
-/

namespace SqlAccess

/-- A statement, open or closed. -/
structure Statement where
  /-- The transaction that it belongs to; without one it can only be queried. -/
  owner : Option Nat
  descriptor : Descriptor
  handle : Handle
  isOpen : Bool := true
  /-- The cursor that it produced last, unless it has closed that one. -/
  current : Option Nat := none
  /-- The cursors over its rows that are open. -/
  cursors : Table Cursor := .empty 0

namespace Statement

/-! ## Closing -/

/-- Do something to the handle. -/
def onHandle (x : HandleTry Unit) : Op Statement Unit := do
  let s ← getThe Statement
  let (r, handle) ← liftM (x.run.run s.handle)
  set { s with handle }
  Op.ofResult r

/-- Close a cursor, if it is open. It is gone even if that fails. -/
def closeCursor (n : Nat) (l : Link) : Op Statement Unit := do
  let s ← getThe Statement
  if let some cursor := s.cursors.find? n then
    let s := { s with cursors := s.cursors.erase n }
    set s
    l.backend.freeRows cursor.rows
    match cursor.own with
    | some h => l.backend.finalize h
    | none => set { s with handle := ← s.handle.endRows }

/-- Close the cursor that was produced last. -/
def closeCurrent (l : Link) : Op Statement Unit := do
  let s ← getThe Statement
  if let some n := s.current then
    set { s with current := none }
    closeCursor n l

/-- Close the current cursor and give up the statement, whatever fails. -/
def close (l : Link) : StateT Statement Act (Except Fault Unit) := do
  if !(← getThe Statement).isOpen then return .ok ()
  modify fun s => { s with isOpen := false }
  let first ← (closeCurrent l).attempt
  let next ← liftM (l.backend.finalize (← getThe Statement).handle).run
  liftM (keepFirst l.options.sink "Statement close failed" first next)

/-! ## Binding -/

/-- Set slots to values, and close the cursor first. -/
def write (l : Link) (assignments : List (Destination × Value)) : Op Statement Unit :=
  assignments.forM fun (destination, v) => do
    closeCurrent l
    destination.slots.forM fun slot => onHandle (Handle.bind destination.accessor slot v)

/-- Resolve the name of a parameter. -/
def parameter (name : Option Bytes) (l : Link) : Op Statement Parameter := do
  match name with
  | none => throw .noName
  | some name =>
    Op.ofResult (Parameter.resolve l.options.accessors (← getThe Statement).descriptor name)

/-- Set a resolved parameter to a value. -/
def assign (p : Parameter) (v : Value) (l : Link) : Op Statement Unit := do
  write l (← Op.ofResult (p.assign v))

/-- Set the elements of a resolved list parameter. -/
def assignList (p : Parameter) (vs : List Value) (l : Link) : Op Statement Unit := do
  write l (← Op.ofResult (p.assignList vs))

/-- Set a parameter to a value. -/
def bind (name : Option Bytes) (v : Value) (l : Link) : Op Statement Unit := do
  assign (← parameter name l) v l

/-- Set the elements of a list parameter. -/
def bindList (name : Option Bytes) (vs : List Value) (l : Link) : Op Statement Unit := do
  assignList (← parameter name l) vs l

/-! ## Running -/

/-- Put a cursor in place; the answer is its number. -/
def putCursor (cursor : Cursor) : Op Statement Nat := do
  let s ← getThe Statement
  set { s with current := some s.cursors.next, cursors := s.cursors.add cursor }
  return s.cursors.next

/-- Run for rows; the answer is the number of the cursor over them. -/
def query (l : Link) : Op Statement Nat := do
  closeCurrent l
  onHandle Handle.beginRows
  let s ← getThe Statement
  let names ← s.handle.columnNames
  match Column.resolve l.options s.descriptor.declarations.columns names with
  | .ok columns => putCursor { columns }
  | .error f =>
    set { s with handle := ← s.handle.endRows }
    throw f

/-- Run for the number of rows changed. -/
def execute (l : Link) : Op Statement Int64 := do
  closeCurrent l
  (← getThe Statement).handle.execute l.connection

/-- A cursor over generated keys, whose first row has been fetched. -/
def fetchKeys (l : Link) (keys : TypeMap) : Op Cursor Unit := do
  let own ← l.backend.prepare l.connection (l.backend.keysSql keys.names)
  modify fun s => { s with own := some own }
  let columns ← Op.ofResult (Column.resolve l.options keys (← own.columnNames))
  modify fun s => { s with columns }
  let (r, own) ← liftM (Handle.beginRows.run.run own)
  modify fun s => { s with own := some own }
  Op.ofResult r
  Cursor.fetchTo own l.connection 0

/-- Run for the generated keys; the answer is the number of the cursor over them. -/
def insert (l : Link) : Op Statement Nat := do
  let keys := (← getThe Statement).descriptor.declarations.keys
  if keys.entries.isEmpty then throw .noKeys
  let _ ← execute l
  let (r, cursor) ← liftM ((fetchKeys l keys).runOn { columns := .empty })
  match r with
  | .ok () => putCursor cursor
  | .error f =>
    if let some own := cursor.own then
      l.backend.freeRows cursor.rows
      if let .error g ← liftM (l.backend.finalize own).run then
        writeLog l.options.sink .warn ("Cursor close failed: " ++ g.message)
    throw f

/-! ## Reading -/

/-- Close a cursor and do not mind a failure. -/
def abandonCursor (n : Nat) (l : Link) : Op Statement Unit := do
  let _ ← liftM (closeCursor n l).attempt

/-- Change a cursor that is open. -/
def updateCursor (n : Nat) (cursor : Cursor) : Op Statement Unit :=
  modify fun s => { s with cursors := s.cursors.modify n fun _ => cursor }

/-- Move a cursor by some rows. The answer is whether it stands on a row; otherwise it is
closed. -/
def seek (n : Nat) (offset : Int64) (l : Link) : Op Statement Bool := do
  let s ← getThe Statement
  match s.cursors.find? n with
  | none => throw .cursorClosed
  | some cursor =>
    match cursor.target? offset with
    | none => abandonCursor n l; return false
    | some target =>
      let h := cursor.own.getD s.handle
      let (r, cursor) ← liftM ((Cursor.fetchTo h l.connection target).runOn cursor)
      updateCursor n cursor
      match r with
      | .error f => abandonCursor n l; throw f
      | .ok () =>
        if target < cursor.rows.length then
          updateCursor n { cursor with position := target }
          return true
        else
          abandonCursor n l
          return false

end Statement

end SqlAccess
