import SqlAccess.Regex

/-!
# Reading regular expressions

`Regex.parse` reads the ECMAScript notation: literals, also by their codes `\xhh` and `\uhhhh`, `.`,
brackets with ranges and named classes `[:name:]`, `\d \w \s` and their complements, `\b`, `^`, `$`,
groups, looking ahead `(?=...)` and `(?!...)`, `|`, and the quantifiers `* + ? {n} {n,} {n,m}`, of
which each may be followed by a `?` that does not change what matches.

Left out are back-references, the control letters behind `\c`, and, inside brackets, collating
elements `[.name.]` and equivalence classes `[=name=]`. They are refused (`Flaw.leftOut`).

Reading goes in passes, each along its input: `Symbol.ofBytes` pairs a backslash with what it
escapes, `Symbol.withCodes` looks up codes, `Token.ofSymbols` gathers brackets and counts, and
`Nesting` builds the expression with a stack of open groups. A malformed text is refused with its
`Regex.Flaw`.
-/

namespace SqlAccess.Regex

/-- What is wrong with a text that is no regular expression. -/
inductive Flaw
  /-- A backslash ends the text. -/
  | trailingEscape
  /-- A group is not closed, or closed without being open. -/
  | parenthesis
  /-- A bracket is not closed, or holds what it cannot hold. -/
  | bracket
  /-- A count is not closed, or its bounds are out of order. -/
  | count
  /-- The ends of a range are out of order, or are no bytes. -/
  | range
  /-- A quantifier has nothing to repeat. -/
  | repetition
  /-- A code has too few digits. -/
  | code
  /-- A part of the notation that is left out. -/
  | leftOut
  deriving DecidableEq, Repr

/-- The wording of a flaw. -/
def Flaw.wording : Flaw → Bytes
  | trailingEscape => "backslash at the end"
  | parenthesis => "unmatched parenthesis"
  | bracket => "malformed bracket expression"
  | count => "malformed repetition count"
  | range => "malformed range"
  | repetition => "nothing to repeat"
  | code => "malformed character code"
  | leftOut => "not supported"

/-! ## Symbols -/

/-- A byte of the notation, with or without a backslash in front, or a byte by its code. -/
inductive Symbol
  | plain (b : UInt8)
  | escaped (b : UInt8)
  | coded (b : UInt8)
  deriving DecidableEq, Repr

/-- Pair each backslash with the byte behind it. -/
def Symbol.ofBytes : Bytes → Except Flaw (List Symbol)
  | [] => .ok []
  | [b] => if b = 0x5C then .error .trailingEscape else .ok [plain b]
  | b :: c :: rest =>
    if b = 0x5C then (ofBytes rest).map (escaped c :: ·)
    else (ofBytes (c :: rest)).map (plain b :: ·)

/-- The byte of a code, which is the low one of a code with more than two digits. -/
def codedByte (digits : Bytes) : Except Flaw UInt8 :=
  if digits.all fun d => (Bytes.hexValue? d).isSome then .ok (UInt8.ofNat (Bytes.ofHex digits))
  else .error .code

/-- Replace codes by their bytes: two digits behind an escaped `x`, four behind an escaped `u`. -/
def Symbol.withCodes : List Symbol → Except Flaw (List Symbol)
  | [] => .ok []
  | .escaped 0x78 :: .plain a :: .plain b :: rest => do
    return coded (← codedByte [a, b]) :: (← withCodes rest)
  | .escaped 0x75 :: .plain a :: .plain b :: .plain c :: .plain d :: rest => do
    return coded (← codedByte [a, b, c, d]) :: (← withCodes rest)
  | .escaped 0x78 :: _ | .escaped 0x75 :: _ => .error .code
  | s :: rest => (withCodes rest).map (s :: ·)

/-- The class that an escaped letter names, a capital naming the complement. -/
def classOf? (b : UInt8) : Option ByteSet :=
  if b = 0x64 then some (.named .digit)
  else if b = 0x44 then some (.except (.named .digit))
  else if b = 0x77 then some (.named .word)
  else if b = 0x57 then some (.except (.named .word))
  else if b = 0x73 then some (.named .space)
  else if b = 0x53 then some (.except (.named .space))
  else none

/-- Whether an escaped byte starts a back-reference or stands in front of a control letter. -/
def isLeftOut (b : UInt8) : Bool := b == 0x63 || (0x31 ≤ b && b ≤ 0x39)

/-- The byte that an escaped byte stands for: a control character, or itself. -/
def escapedByte (b : UInt8) : UInt8 :=
  if b = 0x30 then 0x00
  else if b = 0x66 then 0x0C
  else if b = 0x6E then 0x0A
  else if b = 0x72 then 0x0D
  else if b = 0x74 then 0x09
  else if b = 0x76 then 0x0B
  else b

/-! ## Tokens -/

/-- The parts of the notation. -/
inductive Token
  | openGroup
  | openAhead (negated : Bool)
  | closeGroup
  | bar
  | one (s : ByteSet)
  | at (a : Anchor)
  | repeated (least : Nat) (most : Option Nat)
  /-- A question mark: a quantifier, or the mark behind one. -/
  | question
  deriving DecidableEq, Repr

/-- What was read last inside a bracket. -/
inductive LastItem
  /-- Nothing that could start a range. -/
  | nothing
  /-- A byte, not yet part of the set, that may start a range. -/
  | byte (b : UInt8)
  /-- A class. -/
  | named
  deriving DecidableEq, Repr

/-- A bracket that is being read. -/
structure Bracket where
  /-- Whether the set is the complement of what is listed. -/
  negated : Bool
  /-- What is listed so far. -/
  listed : ByteSet := .none
  /-- The last item. -/
  last : LastItem := .nothing
  deriving DecidableEq, Repr

namespace Bracket

/-- The listed bytes, the last one included. -/
def flush (k : Bracket) : ByteSet :=
  match k.last with
  | .byte b => .union k.listed (.single b)
  | _ => k.listed

/-- List a byte. -/
def addByte (k : Bracket) (b : UInt8) : Bracket := { k with listed := k.flush, last := .byte b }

/-- List a class. -/
def addSet (k : Bracket) (s : ByteSet) : Bracket :=
  { k with listed := .union k.flush s, last := .named }

/-- List the bytes from `low` on to `high`. -/
def addRange (k : Bracket) (low high : UInt8) : Except Flaw Bracket :=
  if low.toInt8 ≤ high.toInt8 then
    .ok { k with listed := .union k.listed (.range low high), last := .nothing }
  else .error .range

/-- The set that a closed bracket stands for. -/
def close (k : Bracket) : ByteSet := if k.negated then .except k.flush else k.flush

/-- List what an escaped byte stands for inside a bracket. -/
def addEscaped (k : Bracket) (b : UInt8) : Except Flaw Bracket :=
  match classOf? b with
  | some s => .ok (k.addSet s)
  | none =>
    if b = 0x42 then .error .bracket
    else if isLeftOut b then .error .leftOut
    else .ok (k.addByte (if b = 0x62 then 0x08 else escapedByte b))

/-- List a class by its name. -/
def addNamed (k : Bracket) (name : Bytes) : Except Flaw Bracket :=
  match ByteClass.ofName? name with
  | some c => .ok (k.addSet (.named c))
  | none => .error .bracket

/-- The byte that a symbol can end a range with. -/
def rangeEnd? : Symbol → Option UInt8
  | .plain b | .coded b => some b
  | .escaped b =>
    if (classOf? b).isSome || b = 0x42 || isLeftOut b then none
    else some (if b = 0x62 then 0x08 else escapedByte b)

/-- Whether symbols inside a bracket start with one that opens a name. -/
def opensName : List Symbol → Bool
  | .plain 0x5B :: .plain b :: _ => b == 0x3A || b == 0x2E || b == 0x3D
  | _ => false

end Bracket

/-- What is being read. -/
inductive Reading
  | outside
  | inBracket (k : Bracket)
  /-- Behind the colon in front of the name of a class, with what was read of it. -/
  | inName (k : Bracket) (name : Bytes)
  /-- Behind the brace, with the digits of the lower bound. -/
  | lower (digits : List UInt8)
  /-- Behind the comma, with the digits of the upper bound. -/
  | upper (least : Nat) (digits : List UInt8)

/-- The number that decimal digits write. -/
def numberOf (digits : List UInt8) : Nat := digits.foldl (fun n d => n * 10 + (d - 0x30).toNat) 0

/-- The token of an escaped byte outside brackets. -/
def Token.ofEscaped (b : UInt8) : Except Flaw Token :=
  match classOf? b with
  | some s => .ok (.one s)
  | none =>
    if b = 0x62 then .ok (.at .wordBoundary)
    else if b = 0x42 then .ok (.at .noWordBoundary)
    else if isLeftOut b then .error .leftOut
    else .ok (.one (.single (escapedByte b)))

/-- The tokens of a list of symbols. -/
def Token.ofSymbols : Reading → List Symbol → Except Flaw (List Token)
  | .outside, [] => .ok []
  | .inBracket _, [] | .inName _ _, [] => .error .bracket
  | .lower _, [] | .upper _ _, [] => .error .count
  | .outside, .escaped b :: rest => do return (← ofEscaped b) :: (← ofSymbols .outside rest)
  | .outside, .coded b :: rest => (ofSymbols .outside rest).map (.one (.single b) :: ·)
  | .outside, .plain 0x28 :: .plain 0x3F :: .plain 0x3A :: rest =>
    (ofSymbols .outside rest).map (.openGroup :: ·)
  | .outside, .plain 0x28 :: .plain 0x3F :: .plain 0x3D :: rest =>
    (ofSymbols .outside rest).map (.openAhead false :: ·)
  | .outside, .plain 0x28 :: .plain 0x3F :: .plain 0x21 :: rest =>
    (ofSymbols .outside rest).map (.openAhead true :: ·)
  | .outside, .plain 0x28 :: .plain 0x3F :: _ => .error .parenthesis
  | .outside, .plain 0x5B :: .plain 0x5E :: rest =>
    ofSymbols (.inBracket { negated := true }) rest
  | .outside, .plain b :: rest =>
    if b = 0x28 then (ofSymbols .outside rest).map (.openGroup :: ·)
    else if b = 0x29 then (ofSymbols .outside rest).map (.closeGroup :: ·)
    else if b = 0x7C then (ofSymbols .outside rest).map (.bar :: ·)
    else if b = 0x2E then (ofSymbols .outside rest).map (.one .notLineEnd :: ·)
    else if b = 0x5E then (ofSymbols .outside rest).map (.at .start :: ·)
    else if b = 0x24 then (ofSymbols .outside rest).map (.at .stop :: ·)
    else if b = 0x2A then (ofSymbols .outside rest).map (.repeated 0 none :: ·)
    else if b = 0x2B then (ofSymbols .outside rest).map (.repeated 1 none :: ·)
    else if b = 0x3F then (ofSymbols .outside rest).map (.question :: ·)
    else if b = 0x5B then ofSymbols (.inBracket { negated := false }) rest
    else if b = 0x7B then ofSymbols (.lower []) rest
    else (ofSymbols .outside rest).map (.one (.single b) :: ·)
  | .inBracket k, .escaped b :: rest => do ofSymbols (.inBracket (← k.addEscaped b)) rest
  | .inBracket k, .coded b :: rest => ofSymbols (.inBracket (k.addByte b)) rest
  | .inBracket k, .plain 0x5B :: .plain 0x3A :: rest => ofSymbols (.inName k []) rest
  | .inBracket _, .plain 0x5B :: .plain 0x2E :: _ => .error .leftOut
  | .inBracket _, .plain 0x5B :: .plain 0x3D :: _ => .error .leftOut
  | .inBracket k, .plain 0x2D :: .plain 0x5D :: rest =>
    (ofSymbols .outside rest).map (.one (k.addByte 0x2D).close :: ·)
  | .inBracket k, .plain 0x2D :: s :: rest =>
    match k.last with
    | .nothing => ofSymbols (.inBracket (k.addByte 0x2D)) (s :: rest)
    | .named => .error .range
    | .byte low =>
      if Bracket.opensName (s :: rest) then .error .range
      else
        match Bracket.rangeEnd? s with
        | some high => do ofSymbols (.inBracket (← k.addRange low high)) rest
        | none => .error .range
  | .inBracket k, .plain b :: rest =>
    if b = 0x5D then (ofSymbols .outside rest).map (.one k.close :: ·)
    else ofSymbols (.inBracket (k.addByte b)) rest
  | .inName k name, .plain 0x3A :: .plain 0x5D :: rest => do
    ofSymbols (.inBracket (← k.addNamed name)) rest
  | .inName k name, .plain b :: rest =>
    if b = 0x3A then .error .bracket else ofSymbols (.inName k (name ++ [b])) rest
  | .inName _ _, .escaped _ :: _ | .inName _ _, .coded _ :: _ => .error .bracket
  | .lower digits, .plain b :: rest =>
    if Name.isDigit b then ofSymbols (.lower (digits ++ [b])) rest
    else if digits.isEmpty then .error .count
    else if b = 0x2C then ofSymbols (.upper (numberOf digits) []) rest
    else if b = 0x7D then
      (ofSymbols .outside rest).map (.repeated (numberOf digits) (some (numberOf digits)) :: ·)
    else .error .count
  | .upper least digits, .plain b :: rest =>
    if Name.isDigit b then ofSymbols (.upper least (digits ++ [b])) rest
    else if b ≠ 0x7D then .error .count
    else if digits.isEmpty then (ofSymbols .outside rest).map (.repeated least none :: ·)
    else if numberOf digits < least then .error .count
    else (ofSymbols .outside rest).map (.repeated least (some (numberOf digits)) :: ·)
  | .lower _, .escaped _ :: _ | .upper _ _, .escaped _ :: _ => .error .count
  | .lower _, .coded _ :: _ | .upper _ _, .coded _ :: _ => .error .count

/-! ## Groups -/

/-- A group that is being read. -/
structure Group where
  /-- The alternatives in front of the last bar. -/
  before : Option Regex := none
  /-- The items of the last alternative, the latest first. -/
  items : List Regex := []

namespace Group

/-- The last alternative. -/
def current (g : Group) : Regex := g.items.reverse.foldr .seq .empty

/-- The expression of the whole group. -/
def close (g : Group) : Regex :=
  match g.before with
  | none => g.current
  | some r => .alt r g.current

/-- Start another alternative. -/
def bar (g : Group) : Group := { before := some g.close }

/-- Add an item to the last alternative. -/
def add (g : Group) (r : Regex) : Group := { g with items := r :: g.items }

end Group

/-- Whether the item read last can be repeated. -/
inductive Grip
  /-- There is nothing to repeat. -/
  | nothing
  /-- An item without a quantifier. -/
  | item
  /-- A quantifier, behind which a question mark does not count. -/
  | quantifier
  deriving DecidableEq, Repr

/-- What an open parenthesis starts. -/
inductive Opening
  | group
  | ahead (negated : Bool)
  deriving DecidableEq, Repr

/-- The state of the last pass: the groups that are open, the innermost first, each with what the
parenthesis starts that is open in it. -/
structure Nesting where
  inner : Group := {}
  outer : List (Opening × Group) := []
  grip : Grip := .nothing

namespace Nesting

/-- Repeat the item read last. -/
def quantify (n : Nesting) (least : Nat) (most : Option Nat) : Except Flaw Nesting :=
  match n.grip, n.inner.items with
  | .nothing, _ | _, [] => .error .repetition
  | _, r :: rest =>
    .ok { n with
      inner := { n.inner with items := .repeated r least most :: rest }, grip := .quantifier }

/-- Open a parenthesis. -/
def enter (n : Nesting) (o : Opening) : Nesting :=
  { inner := {}, outer := (o, n.inner) :: n.outer, grip := .nothing }

/-- Close a parenthesis. A condition on what is ahead is nothing to repeat. -/
def leave (n : Nesting) : Except Flaw Nesting :=
  match n.outer with
  | [] => .error .parenthesis
  | (.group, g) :: outer => .ok { inner := g.add n.inner.close, outer, grip := .item }
  | (.ahead negated, g) :: outer =>
    .ok { inner := g.add (.ahead negated n.inner.close), outer, grip := .nothing }

/-- Read a token. -/
def read (n : Nesting) : Token → Except Flaw Nesting
  | .openGroup => .ok (n.enter .group)
  | .openAhead negated => .ok (n.enter (.ahead negated))
  | .closeGroup => n.leave
  | .bar => .ok { n with inner := n.inner.bar, grip := .nothing }
  | .one s => .ok { n with inner := n.inner.add (.one s), grip := .item }
  | .at a => .ok { n with inner := n.inner.add (.at a), grip := .nothing }
  | .repeated least most => n.quantify least most
  | .question =>
    if n.grip = .quantifier then .ok { n with grip := .item } else n.quantify 0 (some 1)

/-- The expression, if no group is open. -/
def finish (n : Nesting) : Except Flaw Regex :=
  if n.outer.isEmpty then .ok n.inner.close else .error .parenthesis

end Nesting

/-- Read a regular expression in the ECMAScript notation, from which back-references, control
letters, collating elements and equivalence classes are left out: a text with one of these is
refused. -/
def parse (text : Bytes) : Except Flaw Regex := do
  let symbols ← Symbol.withCodes (← Symbol.ofBytes text)
  let tokens ← Token.ofSymbols .outside symbols
  let nesting ← tokens.foldlM Nesting.read {}
  nesting.finish

end SqlAccess.Regex
