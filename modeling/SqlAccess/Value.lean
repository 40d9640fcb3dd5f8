import SqlAccess.Bytes

/-!
# Values

A `Value` is what a caller binds to a parameter or reads from a column; a `ValueType` is what a
query declares for one. Numbers convert into each other on reading: `Value.toInt64`,
`Value.toDouble` and the conversions built on them are total, and a value without a number
counts as zero.

`Value.fits` says which values a declared type accepts.
-/

namespace SqlAccess

/-- The types a parameter, column or key can be declared with. -/
inductive ValueType
  | null
  | bool
  | int32
  | int64
  | double
  | text
  | blob
  deriving DecidableEq, Repr

namespace ValueType

/-- The name of a type in messages. -/
def name : ValueType → Bytes
  | null => "null"
  | bool => "bool"
  | int32 => "int32"
  | int64 => "int64"
  | double => "double"
  | text => "text"
  | blob => "blob"

/-- The type with a given number, in order of declaration. -/
def ofNumber? (n : UInt8) : Option ValueType :=
  [null, bool, int32, int64, double, text, blob][n.toNat]?

/-- The name of the type with a given number, if there is one. -/
def nameOfNumber (n : UInt8) : Bytes := ((ofNumber? n).map name).getD "unknown"

end ValueType

/-- A dynamically typed value. -/
inductive Value
  | null
  | bool (b : Bool)
  | int32 (n : Int32)
  | int64 (n : Int64)
  | double (d : Float)
  | text (bs : Bytes)
  | blob (bs : Bytes)
  deriving BEq, Inhabited

namespace Value

/-- The type of a value. -/
def type : Value → ValueType
  | null => .null
  | bool _ => .bool
  | int32 _ => .int32
  | int64 _ => .int64
  | double _ => .double
  | text _ => .text
  | blob _ => .blob

/-- Whether this is the null value. -/
def isNull : Value → Bool
  | null => true
  | _ => false

/-- Whether the value is a whole number; a truth value counts as one. -/
def isIntegral : Value → Bool
  | bool _ | int32 _ | int64 _ => true
  | _ => false

/-- The value as an integer: a double is truncated toward zero, a text or blob counts as zero. -/
def toInt64 : Value → Int64
  | bool b => if b then 1 else 0
  | int32 n => n.toInt64
  | int64 n => n
  | double d => d.toInt64
  | null | text _ | blob _ => 0

/-- The low half of the value as an integer. -/
def toInt32 (v : Value) : Int32 := v.toInt64.toInt32

/-- Whether the value as an integer differs from zero. -/
def toBool (v : Value) : Bool := v.toInt64 != 0

/-- The value as a double. -/
def toDouble : Value → Float
  | double d => d
  | v => v.toInt64.toFloat

/-- The bytes of a text or blob; other values have none. -/
def toBytes : Value → Bytes
  | text bs | blob bs => bs
  | _ => []

/-- The text of a zero-terminated reader's view, or null where there is no text. -/
def ofText? : Option Bytes → Value
  | some bs => text bs.beforeNul
  | none => null

/-- Whether a value may be bound where a type is declared. The null value fits every type; a
whole number fits each numeric type, whatever its width. -/
def fits (declared : ValueType) : Value → Bool
  | null => true
  | v =>
    match declared with
    | .null => false
    | .bool | .int32 | .int64 => v.isIntegral
    | .double => v.isIntegral || v.type == .double
    | .text => v.type == .text
    | .blob => v.type == .blob || v.type == .text

end Value

end SqlAccess
