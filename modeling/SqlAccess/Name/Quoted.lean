import SqlAccess.Bytes

/-!
# Quoted identifiers

An identifier is quoted by a quote byte on either side, and each quote byte inside is written
twice (`Quoted.quote`). Reading a quoted identifier takes the outer quotes away and reads each
doubled quote as one (`Quoted.unquote`); what is not quoted is left alone.
-/

namespace SqlAccess.Quoted

/-- The double quote, around identifiers in standard SQL. -/
def doubleQuote : UInt8 := 0x22

/-- The backquote, around identifiers in MariaDB. -/
def backquote : UInt8 := 0x60

/-- Write each quote byte twice. -/
def doubled (q : UInt8) : Bytes → Bytes
  | [] => []
  | b :: rest => if b = q then q :: q :: doubled q rest else b :: doubled q rest

/-- Read each doubled quote byte as one; a quote byte that stands alone is kept. -/
def undoubled (q : UInt8) : Bytes → Bytes
  | a :: b :: rest =>
    if a = q ∧ b = q then q :: undoubled q rest else a :: undoubled q (b :: rest)
  | bs => bs

/-- A name as a quoted identifier. -/
def quote (q : UInt8) (name : Bytes) : Bytes := q :: (doubled q name ++ [q])

/-- Whether a text starts and ends with a quote byte, and these are not the same byte. -/
def isQuoted (q : UInt8) (text : Bytes) : Bool :=
  2 ≤ text.length && text.head? == some q && text.getLast? == some q

/-- The name that a quoted identifier stands for; any other text is returned as it is. -/
def unquote (q : UInt8) (text : Bytes) : Bytes :=
  if isQuoted q text then undoubled q text.tail.dropLast else text

end SqlAccess.Quoted
