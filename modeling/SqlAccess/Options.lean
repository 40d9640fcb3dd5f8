import SqlAccess.Backend

/-!
# Options and links

A database is opened with `Options`: how it may be used, how its columns are spelled, which
types can be read and bound (`Accessors`), and where its log goes. A `Link` is what everything
opened from a database shares: its connection, and what is known of it.
-/

namespace SqlAccess

/-- Which type's accessor serves each declared type; a type without one can be neither bound
nor read. Only the accessors that come with a backend are spoken of: one that a caller writes may do
anything with a statement, and fail with any code after it has bound a value, and is left out. -/
abbrev Accessors := ValueType → Option ValueType

namespace Accessors

/-- Each type is served by its own accessor, and null has none. -/
def standard : Accessors
  | .null => none
  | type => some type

/-- Serve a type by the accessor of another, or by none. -/
def register (a : Accessors) (type : ValueType) (source : Option ValueType) : Accessors :=
  fun t => if t = type then source.bind standard else a t

/-- Take the accessor of a type away. -/
def remove (a : Accessors) (type : ValueType) : Accessors := a.register type none

end Accessors

/-- How a database is opened. -/
structure Options where
  /-- Refuse transactions. -/
  readOnly : Bool := false
  /-- How many milliseconds to wait for a lock, if the number is positive. -/
  busyTimeout : Int32 := 0
  /-- The spelling under which a reported column can be read as well. -/
  mapper : Option (Bytes → Bytes) := some Name.toCamel
  accessors : Accessors := .standard
  sink : LogSink := {}

/-- What everything opened from a database shares. -/
structure Link where
  backend : Backend
  /-- The connection; opening one may succeed without any. -/
  connection : Option Nat
  info : DatabaseInfo
  options : Options

end SqlAccess
