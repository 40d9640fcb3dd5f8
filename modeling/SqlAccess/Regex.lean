import SqlAccess.Name

/-!
# Regular expressions on bytes

A `Regex` describes sets of stretches of a text. `Regex.ends` lists where a stretch that starts
at a position can end, and `Regex.occursIn` says whether some stretch of a text is described.
Only whether there is a match is asked, so nothing is captured and the order of preference
among matches plays no part. Looking ahead is a condition on a position like any other.

Letters, digits and blanks are the ASCII ones; a byte above the ASCII range belongs to the
complements of these classes.
-/

namespace SqlAccess

/-- The classes of bytes that have a name. -/
inductive ByteClass
  | alnum
  | alpha
  | blank
  | cntrl
  | digit
  | graph
  | lower
  | print
  | punct
  | space
  | upper
  | word
  | xdigit
  deriving DecidableEq, Repr

namespace ByteClass

/-- Whether a byte is an ASCII letter or digit. -/
def isAlnum (b : UInt8) : Bool := Name.isDigit b || Name.isLower b || Name.isUpper b

/-- Whether a byte is printed with ink. -/
def isGraph (b : UInt8) : Bool := 0x21 ≤ b && b ≤ 0x7E

/-- Whether a byte belongs to a class. -/
def test : ByteClass → UInt8 → Bool
  | alnum, b => isAlnum b
  | alpha, b => Name.isLower b || Name.isUpper b
  | blank, b => b == 0x20 || b == 0x09
  | cntrl, b => b ≤ 0x1F || b == 0x7F
  | digit, b => Name.isDigit b
  | graph, b => isGraph b
  | lower, b => Name.isLower b
  | print, b => isGraph b || b == 0x20
  | punct, b => isGraph b && !isAlnum b
  | space, b => b == 0x20 || (0x09 ≤ b && b ≤ 0x0D)
  | upper, b => Name.isUpper b
  | word, b => isAlnum b || b == 0x5F
  | xdigit, b => (Bytes.hexValue? b).isSome

/-- The class of a name, in letters of either case. -/
def ofName? (name : Bytes) : Option ByteClass :=
  let classes : List (Bytes × ByteClass) :=
    [("d", digit), ("w", word), ("s", space), ("alnum", alnum), ("alpha", alpha),
      ("blank", blank), ("cntrl", cntrl), ("digit", digit), ("graph", graph), ("lower", lower),
      ("print", print), ("punct", punct), ("space", space), ("upper", upper), ("xdigit", xdigit)]
  classes.lookup (Name.toLower name)

end ByteClass

/-- A set of bytes as an expression writes it. -/
inductive ByteSet
  /-- Bytes from `low` to `high`, compared as signed numbers. -/
  | range (low high : UInt8)
  /-- A named class. -/
  | named (c : ByteClass)
  /-- The other bytes. -/
  | except (s : ByteSet)
  /-- The bytes of either set. -/
  | union (s t : ByteSet)
  /-- No byte. -/
  | none
  deriving DecidableEq, Repr

namespace ByteSet

/-- Whether a byte belongs to a set. -/
def test : ByteSet → UInt8 → Bool
  | range low high, b => low.toInt8 ≤ b.toInt8 && b.toInt8 ≤ high.toInt8
  | named c, b => c.test b
  | except s, b => !s.test b
  | union s t, b => s.test b || t.test b
  | none, _ => false

/-- The set of one byte. -/
def single (b : UInt8) : ByteSet := range b b

/-- Every byte but the line ends. -/
def notLineEnd : ByteSet := except (union (single 0x0A) (single 0x0D))

end ByteSet

/-- Conditions on a position in a text. -/
inductive Anchor
  | start
  | stop
  | wordBoundary
  | noWordBoundary
  deriving DecidableEq, Repr

namespace Anchor

/-- Whether the byte at a position exists and belongs to a word. -/
def wordAt (text : Array UInt8) (i : Nat) : Bool := (text[i]?).any ByteClass.word.test

/-- Whether a word begins or ends at a position. -/
def boundaryAt (text : Array UInt8) (i : Nat) : Bool :=
  (0 < i && wordAt text (i - 1)) != wordAt text i

/-- Whether a condition holds at a position. -/
def holds (text : Array UInt8) (i : Nat) : Anchor → Bool
  | start => i == 0
  | stop => i == text.size
  | wordBoundary => boundaryAt text i
  | noWordBoundary => !boundaryAt text i

end Anchor

/-- Regular expressions. -/
inductive Regex
  /-- The empty stretch. -/
  | empty
  /-- One byte of a set. -/
  | one (s : ByteSet)
  /-- The empty stretch, where a condition holds. -/
  | at (a : Anchor)
  /-- The empty stretch, where a stretch that is described starts, or where none does. -/
  | ahead (negated : Bool) (r : Regex)
  /-- One stretch behind the other. -/
  | seq (r s : Regex)
  /-- Either. -/
  | alt (r s : Regex)
  /-- At least `least` stretches in a row, and at most `most` if that is given. -/
  | repeated (r : Regex) (least : Nat) (most : Option Nat)
  deriving DecidableEq, Repr

namespace Regex

/-- The positions reached by exactly `n` steps. -/
def exactly (step : Nat → List Nat) : Nat → List Nat → List Nat
  | 0, ps => ps
  | n + 1, ps => exactly step n (ps.flatMap step).eraseDups

/-- The positions reached by at most `n` steps. -/
def atMost (step : Nat → List Nat) : Nat → List Nat → List Nat
  | 0, ps => ps
  | n + 1, ps =>
    let fresh := (ps.flatMap step).eraseDups.filter fun p => !ps.contains p
    if fresh.isEmpty then ps else atMost step n (ps ++ fresh)

/-- Where a stretch that starts at a position can end. Each step of an unbounded repetition
that counts moves forward, so as many steps as the text has bytes are enough. -/
def ends (text : Array UInt8) : Regex → Nat → List Nat
  | empty, i => [i]
  | one s, i => if (text[i]?).any s.test then [i + 1] else []
  | .at a, i => if a.holds text i then [i] else []
  | ahead negated r, i => if (ends text r i).isEmpty = negated then [i] else []
  | seq r s, i => ((ends text r i).flatMap (ends text s)).eraseDups
  | alt r s, i => (ends text r i ++ ends text s i).eraseDups
  | repeated r least most, i =>
    atMost (ends text r) ((most.map (· - least)).getD text.size)
      (exactly (ends text r) least [i])

/-- Whether the expression describes some stretch of a text. -/
def occursIn (r : Regex) (text : Bytes) : Bool :=
  (List.range (text.length + 1)).any fun i => !(ends text.toArray r i).isEmpty

end Regex

end SqlAccess
