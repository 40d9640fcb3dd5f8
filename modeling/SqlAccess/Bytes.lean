/-!
# Byte strings

Every text that passes through the library is a sequence of bytes: SQL, names, messages and
column values. An ASCII string literal stands for its bytes (`Bytes.ofString`), so messages are
written as concatenations of literals and arguments.

* `Bytes.decimal` and `Bytes.hex` write numbers and raw bytes, `Bytes.ofDouble` the bits of a
  double; `Bytes.ofHex` reads hexadecimal digits.
* `Bytes.beforeNul` is the part of a text in front of its first zero byte, which is all that a
  zero-terminated reader sees.
-/

namespace SqlAccess

/-- A text as the sequence of its bytes. -/
abbrev Bytes := List UInt8

namespace Bytes

/-- The bytes of an ASCII string. -/
def ofString (s : String) : Bytes := s.toList.map fun c => c.toNat.toUInt8

instance : Coe String Bytes := ⟨ofString⟩

/-- The decimal digits of a natural number. -/
def ofNat (n : Nat) : Bytes := (Nat.toDigits 10 n).map fun c => c.toNat.toUInt8

/-- An integer in decimal, with a minus sign in front of a negative one. -/
def decimal : Int → Bytes
  | .ofNat n => ofNat n
  | .negSucc n => 0x2D :: ofNat (n + 1)

/-- The lower-case hexadecimal digit of a number below sixteen. -/
def hexDigit (n : UInt8) : UInt8 := if n < 10 then 0x30 + n else 0x57 + n

/-- The number that a hexadecimal digit of either case stands for. -/
def hexValue? (b : UInt8) : Option Nat :=
  if 0x30 ≤ b ∧ b ≤ 0x39 then some (b - 0x30).toNat
  else if 0x61 ≤ b ∧ b ≤ 0x66 then some (b - 0x57).toNat
  else if 0x41 ≤ b ∧ b ≤ 0x46 then some (b - 0x37).toNat
  else none

/-- The number that hexadecimal digits write. -/
def ofHex (digits : Bytes) : Nat := digits.foldl (fun n d => n * 16 + (hexValue? d).getD 0) 0

/-- Two lower-case hexadecimal digits per byte. -/
def hex (bs : Bytes) : Bytes := bs.flatMap fun b => [hexDigit (b / 16), hexDigit (b % 16)]

/-- The eight bytes of a word, the most significant one first. -/
def ofWord (w : UInt64) : Bytes :=
  ([56, 48, 40, 32, 24, 16, 8, 0] : List UInt64).map fun shift => (w >>> shift).toUInt8

/-- The bits of a double in hexadecimal; a NaN is written without its bits. -/
def ofDouble (d : Float) : Bytes := if d.isNaN then "nan" else hex (ofWord d.toBits)

/-- The text in front of the first zero byte. -/
def beforeNul (bs : Bytes) : Bytes := bs.takeWhile (· != 0)

/-- The texts one after another, with a separator between neighbours. -/
def joinWith (sep : Bytes) (parts : List Bytes) : Bytes := (parts.intersperse sep).flatten

end Bytes

end SqlAccess
