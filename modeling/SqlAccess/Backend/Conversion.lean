import SqlAccess.Engine.Call
import SqlAccess.Engine.Script
import SqlAccess.Value

/-!
# Values as the engines hold them

A bound value becomes a `Datum` of the declared type, and a fetched `Cell` becomes a value of
the declared type. SQLite stores typed values and takes 32-bit integers as such; MariaDB takes
every integer in 64 bits, and hands out every value as text.

Reading a cell as another type than its own is up to the engine. The one that is scripted here
converts numbers into each other and writes an integer as text; it reads no number from a text or
blob, as SQLite does from the digits at its start, and it writes no double as text.
-/

namespace SqlAccess

namespace Cell

/-- A cell as an integer: a double is truncated toward zero, and what is no number counts as zero,
also a text of digits. -/
def toInt64 : Cell → Int64
  | int n => n
  | double d => d.toInt64
  | null | text _ | blob _ => 0

/-- A cell as a double; what is no number counts as zero, also a text of digits. -/
def toDouble : Cell → Float
  | int n => n.toFloat
  | double d => d
  | null | text _ | blob _ => 0

/-- The bytes of a cell: an integer is written in decimal, a double has none. -/
def toBytes : Cell → Bytes
  | int n => Bytes.decimal n.toInt
  | text bs | blob bs => bs
  | null | double _ => []

/-- Whether this is the null cell. -/
def isNull : Cell → Bool
  | null => true
  | _ => false

end Cell

namespace Sqlite

/-- What a parameter of a type is set to for a value. -/
def datum (type : ValueType) (v : Value) : Datum :=
  if v.isNull then .null
  else
    match type with
    | .null => .null
    | .bool => .int32 (if v.toBool then 1 else 0)
    | .int32 => .int32 v.toInt32
    | .int64 => .int64 v.toInt64
    | .double => .double v.toDouble
    | .text => .text v.toBytes
    | .blob => .blob v.toBytes

/-- The value of a type that a cell holds. -/
def value (type : ValueType) (c : Cell) : Value :=
  if c.isNull then .null
  else
    match type with
    | .null => .null
    | .bool => .bool (c.toInt64 != 0)
    | .int32 => .int32 c.toInt64.toInt32
    | .int64 => .int64 c.toInt64
    | .double => .double c.toDouble
    | .text => .text c.toBytes
    | .blob => .blob c.toBytes

end Sqlite

namespace Maria

/-- What a parameter of a type is set to for a value. -/
def datum (type : ValueType) (v : Value) : Datum :=
  if v.isNull then .null
  else
    match type with
    | .null => .null
    | .bool | .int32 | .int64 => .int64 v.toInt64
    | .double => .double v.toDouble
    | .text => .text v.toBytes
    | .blob => .blob v.toBytes

/-- The value of a type that a cell holds, read from its text. -/
def value (type : ValueType) (c : Cell) : Value :=
  if c.isNull then .null
  else
    match type with
    | .null => .null
    | .bool => .bool (Numeral.readSigned c.toBytes != 0)
    | .int32 => .int32 (Numeral.readSigned c.toBytes).toInt32
    | .int64 => .int64 (Numeral.readSigned c.toBytes)
    | .double => .double (Numeral.readDouble c.toBytes)
    | .text => .text c.toBytes
    | .blob => .blob c.toBytes

end Maria

end SqlAccess
