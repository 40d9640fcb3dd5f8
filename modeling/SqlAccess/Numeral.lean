import SqlAccess.Name

/-!
# Numerals at the start of a text

MariaDB hands out numbers as text, and a data source name holds a port number. The readers here
take the longest numeral at the start of a text, behind blanks and an optional sign, and ignore
what follows; a text that starts with no numeral reads as zero. An integer that does not fit is
replaced by the nearest one that does. A double may be written in decimal or hexadecimal digits, or
as `inf` or `nan`.

`Numeral.nearestDouble` is the double nearest to a fraction, a tie going to the even one.
-/

namespace SqlAccess.Numeral

/-- Whether a byte is skipped in front of a numeral. -/
def isBlank (b : UInt8) : Bool := b == 0x20 || (0x09 ≤ b && b ≤ 0x0D)

/-- The sign in front of a text, and the rest; the flag says whether it is a minus. -/
def takeSign : Bytes → Bool × Bytes
  | b :: rest =>
    if b = 0x2D then (true, rest)
    else if b = 0x2B then (false, rest)
    else (false, b :: rest)
  | [] => (false, [])

/-- The digits at the start of a text. -/
def takeDigits (text : Bytes) : Bytes := text.takeWhile Name.isDigit

/-- The number that decimal digits write. -/
def value (digits : Bytes) : Nat := digits.foldl (fun n d => n * 10 + (d - 0x30).toNat) 0

/-! ## Integers -/

/-- The sign and the magnitude of the integer at the start of a text. -/
def integer (text : Bytes) : Bool × Nat :=
  let (negative, rest) := takeSign (text.dropWhile isBlank)
  (negative, value (takeDigits rest))

/-- The signed integer at the start of a text. -/
def readSigned (text : Bytes) : Int64 :=
  let (negative, n) := integer text
  if negative then if n < 0x8000000000000000 then -Int64.ofNat n else Int64.minValue
  else if n < 0x8000000000000000 then Int64.ofNat n else Int64.maxValue

/-- The unsigned integer at the start of a text. A minus sign takes the complement, and an
integer too large in either direction reads as the largest one. -/
def readUnsigned (text : Bytes) : UInt64 :=
  let (negative, n) := integer text
  if 0xFFFFFFFFFFFFFFFF < n then 0xFFFFFFFFFFFFFFFF
  else if negative then -UInt64.ofNat n
  else UInt64.ofNat n

/-! ## Doubles -/

/-- The quotient to the nearest natural number, a half going to the even one. -/
def roundDiv (num den : Nat) : Nat :=
  let q := num / den
  let twice := 2 * (num % den)
  if den < twice || (twice == den && q % 2 == 1) then q + 1 else q

/-- The exponent of the largest power of two not above a positive fraction. -/
def binaryExponent (num den : Nat) : Int :=
  let e : Int := num.log2 - den.log2
  if num <<< (-e).toNat < den <<< e.toNat then e - 1 else e

/-- The bits of the double nearest to a positive fraction: the fraction is rounded to a multiple
of the unit `2 ^ unit` in the last place, and the exponent field counts units from the smallest
one. -/
def nearestBits (num den : Nat) : Nat :=
  let unit := max (binaryExponent num den - 52) (-1074)
  let m := roundDiv (num <<< (-unit).toNat) (den <<< unit.toNat)
  min ((unit + 1074).toNat <<< 52 + m) (0x7FF <<< 52)

/-- The double nearest to a fraction. -/
def nearestDouble (num den : Nat) : Float :=
  if num = 0 then 0 else Float.ofBits (UInt64.ofNat (nearestBits num den))

/-- The exponent at the start of a text, if there is one: the letter, a sign and digits. -/
def takeExponent (letter : UInt8) : Bytes → Int
  | b :: rest =>
    if Name.lowerByte b = letter then
      let (negative, rest) := takeSign rest
      let n := value (takeDigits rest)
      if negative then -n else n
    else 0
  | [] => 0

/-- The digits at the start of a text, with an optional point among them: those in front of the
point, those behind it, and the rest of the text. -/
def takePointed (isDigit : UInt8 → Bool) (text : Bytes) : Bytes × Bytes × Bytes :=
  let whole := text.takeWhile isDigit
  match text.dropWhile isDigit with
  | [] => (whole, [], [])
  | b :: rest =>
    if b = 0x2E then (whole, rest.takeWhile isDigit, rest.dropWhile isDigit)
    else (whole, [], b :: rest)

/-- The double nearest to `m * 10 ^ e`. Beyond four hundred places on either side every decimal
of its length is infinite or zero. -/
def ofDecimal (m : Nat) (places : Nat) (e : Int) : Float :=
  if e + places < -400 then 0
  else
    let e := min e 400
    nearestDouble (m * Nat.pow 10 e.toNat) (Nat.pow 10 (-e).toNat)

/-- The double nearest to `m * 2 ^ e`. Beyond twelve hundred binary places on either side every
number of so many hexadecimal places is infinite or zero. -/
def ofBinary (m : Nat) (places : Nat) (e : Int) : Float :=
  if e + 4 * places < -1200 then 0
  else
    let e := min e 1200
    nearestDouble (m <<< e.toNat) (1 <<< (-e).toNat)

/-- The double that decimal digits at the start of a text write, if there are any. -/
def decimalDouble? (text : Bytes) : Option Float :=
  let (whole, fraction, rest) := takePointed Name.isDigit text
  let digits := whole ++ fraction
  if digits.isEmpty then none
  else some (ofDecimal (value digits) digits.length (takeExponent 0x65 rest - fraction.length))

/-- The double that hexadecimal digits at the start of a text write. -/
def hexDouble (text : Bytes) : Float :=
  let (whole, fraction, rest) := takePointed (fun b => (Bytes.hexValue? b).isSome) text
  let digits := whole ++ fraction
  ofBinary (Bytes.ofHex digits) digits.length (takeExponent 0x70 rest - 4 * fraction.length)

/-- Whether a text starts with some small letters and digits, the case of the letters apart. -/
def startsWith (word text : Bytes) : Bool := word.isPrefixOf (Name.toLower (text.take word.length))

/-- The magnitude at the start of a text: an infinity, no number at all, hexadecimal digits, or
decimal ones. -/
def magnitude? (text : Bytes) : Option Float :=
  if startsWith "inf" text then some (Float.ofBits 0x7FF0000000000000)
  else if startsWith "nan" text then some (Float.ofBits 0x7FF8000000000000)
  else if startsWith "0x" text then some (hexDouble (text.drop 2))
  else decimalDouble? text

/-- The double at the start of a text. -/
def readDouble (text : Bytes) : Float :=
  let (negative, rest) := takeSign (text.dropWhile isBlank)
  match magnitude? rest with
  | some d => if negative then -d else d
  | none => 0

end SqlAccess.Numeral
