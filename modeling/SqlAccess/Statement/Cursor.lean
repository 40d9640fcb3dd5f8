import SqlAccess.Statement.Column

/-!
# Cursors

A `Cursor` stands on a row of a result, at first in front of all of them. Rows are fetched when
they are needed and kept, so a cursor can also go back (`Cursor.fetchTo`). Columns are read by
name (`Cursor.read`), as the declared type or converted to another (`Value.readAs`).

A cursor over generated keys has a prepared statement of its own; any other cursor uses the
statement that it belongs to.
-/

namespace SqlAccess

/-- A position in a result. -/
structure Cursor where
  /-- The statement it gives up when it is closed. -/
  own : Option Handle := none
  columns : NameMap Column
  /-- The rows fetched so far. -/
  rows : List (List Cell) := []
  /-- The index of the current row; `-1` is in front of the first one. -/
  position : Int := -1
  /-- Whether there are no further rows. -/
  exhausted : Bool := false

namespace Cursor

/-- Fetch so many rows more, or up to the end. -/
def fetchRows (h : Handle) (c : Option Nat) : Nat → Op Cursor Unit
  | 0 => return ()
  | n + 1 => do
    if !(← getThe Cursor).exhausted then
      match ← h.fetchRow c with
      | none => modify fun s => { s with exhausted := true }
      | some row =>
        modify fun s => { s with rows := s.rows ++ [row] }
        fetchRows h c n

/-- Fetch rows until the one of an index is there, or up to the end. -/
def fetchTo (h : Handle) (c : Option Nat) (index : Int) : Op Cursor Unit := do
  fetchRows h c (index + 1 - (← getThe Cursor).rows.length).toNat

/-- Where a move leads, if it stays in front of the largest index there is. -/
def target? (s : Cursor) (offset : Int64) : Option Int :=
  let target := s.position + offset.toInt
  if 0 ≤ target && target ≤ Int64.maxValue.toInt then some target else none

/-- Whether a column can be read. -/
def hasColumn (s : Cursor) (column : Option Bytes) : Bool :=
  match column with
  | none => false
  | some name => s.columns.contains (Name.toLower name)

/-- The value of a column in the current row. -/
def read (s : Cursor) (b : Backend) (column : Option Bytes) : Except Fault Value := do
  match column with
  | none => throw .noColumn
  | some name =>
    if s.position < 0 then throw .beforeFirstRow
    match s.columns.find? (Name.toLower name) with
    | none => throw (.unknownColumn name)
    | some column =>
      match (s.rows.getD s.position.toNat [])[column.index]? with
      | none => throw (.columnOutOfRange name)
      | some cell => return b.value column.accessor cell

end Cursor

namespace Value

/-- A value converted to a type. -/
def convert (type : ValueType) (v : Value) : Value :=
  match type with
  | .null => .null
  | .bool => .bool v.toBool
  | .int32 => .int32 v.toInt32
  | .int64 => .int64 v.toInt64
  | .double => .double v.toDouble
  | .text => .text v.toBytes
  | .blob => .blob v.toBytes

/-- A value as a reader of a type sees it, with something in the place of null; where no type is
asked for it is left as it is. -/
def readAs (type : Option ValueType) (ifNull : Option Value) (v : Value) : Value :=
  match type with
  | none => v
  | some type => if v.isNull then ifNull.getD (v.convert type) else v.convert type

end Value

end SqlAccess
