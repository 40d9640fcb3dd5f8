import SqlAccess.Fault
import SqlAccess.Name

/-!
# Query templates

A query text is SQL in which parameters are written `:name`. `Template.parse` cuts a text into
the bytes that belong to the SQL and the names of the parameters, from left to right with one
byte of lookahead; it is lexical and never judges the SQL itself.

Inside a line comment, a quoted string and a quoted identifier no parameter is recognised.
Escapes need no care there: a closing byte is escaped by writing it twice, which reads as two
ranges side by side. Outside these ranges a `?` is refused, and so is a colon that no name
follows.
-/

namespace SqlAccess

/-- A part of a template. -/
inductive Piece
  /-- A byte of the SQL. -/
  | byte (b : UInt8)
  /-- A parameter, by its name as written. -/
  | parameter (name : Bytes)
  deriving DecidableEq, Repr

/-- A query text in parts. -/
abbrev Template := List Piece

namespace Template

/-- Whether a byte can start a parameter name. -/
def isNameStart (b : UInt8) : Bool := Name.isLower b || Name.isUpper b || b == 0x5F

/-- Whether a byte can continue a parameter name. -/
def isNamePart (b : UInt8) : Bool := isNameStart b || Name.isDigit b

/-- Where a left-to-right reading stands. -/
inductive Context
  /-- Outside every range and name. -/
  | code
  /-- Between the two dashes that open a comment. -/
  | dash
  /-- Inside a range, up to its closing byte. -/
  | range (closing : UInt8)
  /-- Inside a parameter name, with the bytes read so far. -/
  | name (sofar : Bytes)
  deriving DecidableEq, Repr

/-- The closing byte of the range that a single byte opens. -/
def closing? (b : UInt8) : Option UInt8 :=
  if b = 0x27 ∨ b = 0x22 ∨ b = 0x60 then some b
  else if b = 0x5B then some 0x5D
  else none

/-- Read the byte `b` at a position outside every range and name, with a view of the byte
behind it: the pieces read, and where the reading stands then. -/
def readCode (position : Nat) (b : UInt8) (next : Option UInt8) :
    Except Fault (List Piece × Context) :=
  if b = 0x2D ∧ next = some 0x2D then .ok ([.byte b], .dash)
  else
    match closing? b with
    | some c => .ok ([.byte b], .range c)
    | none =>
      if b = 0x3F then .error (.literalPlaceholder position)
      else if b = 0x3A then
        match next with
        | none => .error .missingParameterName
        | some c =>
          if isNameStart c then .ok ([], .name [])
          else .error (.badParameterStart c (position + 1))
      else .ok ([.byte b], .code)

/-- Read the byte `b` in any context. -/
def read (context : Context) (position : Nat) (b : UInt8) (next : Option UInt8) :
    Except Fault (List Piece × Context) :=
  match context with
  | .code => readCode position b next
  | .dash => .ok ([.byte b], .range 0x0A)
  | .range c => .ok ([.byte b], if b = c then .code else .range c)
  | .name sofar =>
    if isNamePart b then .ok ([], .name (sofar ++ [b]))
    else (readCode position b next).map fun (pieces, c) => (.parameter sofar :: pieces, c)

/-- What is left to write when a text ends. -/
def Context.finish : Context → List Piece
  | name sofar => [.parameter sofar]
  | _ => []

/-- Read a text that starts at a position, in a context. -/
def parseFrom (context : Context) (position : Nat) : Bytes → Except Fault Template
  | [] => .ok context.finish
  | b :: rest => do
    let (pieces, context) ← read context position b rest.head?
    let template ← parseFrom context (position + 1) rest
    return pieces ++ template

/-- The template of a query text. -/
def parse (text : Bytes) : Except Fault Template := parseFrom .code 0 text

end Template

end SqlAccess
