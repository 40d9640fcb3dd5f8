import SqlAccess.Bytes

/-!
# Names

Names of parameters, columns and keys are compared without regard to the case of ASCII letters:
they are kept in lower case (`Name.toLower`). A column reported in snake case can be read by its
camel-case spelling (`Name.toCamel`).
-/

namespace SqlAccess.Name

/-- Whether a byte is an ASCII capital. -/
def isUpper (b : UInt8) : Bool := 0x41 ≤ b && b ≤ 0x5A

/-- Whether a byte is an ASCII small letter. -/
def isLower (b : UInt8) : Bool := 0x61 ≤ b && b ≤ 0x7A

/-- Whether a byte is an ASCII digit. -/
def isDigit (b : UInt8) : Bool := 0x30 ≤ b && b ≤ 0x39

/-- The small letter of a capital; other bytes are left alone. -/
def lowerByte (b : UInt8) : UInt8 := if isUpper b then b + 0x20 else b

/-- The capital of a small letter; other bytes are left alone. -/
def upperByte (b : UInt8) : UInt8 := if isLower b then b - 0x20 else b

/-- A name with its ASCII capitals made small. -/
def toLower (name : Bytes) : Bytes := name.map lowerByte

/-- Drop underscores, and capitalise the byte after one that is not leading. The flags say
whether a byte has been written and whether an underscore was just dropped behind one. -/
def camelFrom (written capital : Bool) : Bytes → Bytes
  | [] => []
  | b :: rest =>
    if b = 0x5F then camelFrom written written rest
    else (if capital then upperByte b else b) :: camelFrom true false rest

/-- The camel-case spelling of a snake-case name: `first_name` becomes `firstName`. Leading
and repeated underscores are dropped. -/
def toCamel (name : Bytes) : Bytes := camelFrom false false name

/-! ## Lower case -/

theorem lowerByte_lowerByte (b : UInt8) : lowerByte (lowerByte b) = lowerByte b := by
  unfold lowerByte isUpper
  grind

theorem toLower_toLower (name : Bytes) : toLower (toLower name) = toLower name := by
  simp [toLower, lowerByte_lowerByte, Function.comp_def]

theorem toLower_append (a b : Bytes) : toLower (a ++ b) = toLower a ++ toLower b :=
  List.map_append

end SqlAccess.Name
