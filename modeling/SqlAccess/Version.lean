import SqlAccess.Fault
import SqlAccess.Regex.Parser

/-!
# Version predicates

A query variant can be limited to some versions of an engine: to all of them, to those not
below a minimum, or to those in which a pattern occurs. A minimum is compared with the version
component by component, as far as both go, so version `2` is not below `2.0`; a component that
is no number of at most eighteen digits is below everything.
-/

namespace SqlAccess

/-- The stretches of a text between separators; there is one more of them than separators. -/
def fields (sep : UInt8) : Bytes → List Bytes
  | [] => [[]]
  | b :: rest =>
    if b = sep then [] :: fields sep rest
    else
      match fields sep rest with
      | f :: fs => (b :: f) :: fs
      | [] => [[b]]

/-- Conditions on the version of an engine. -/
inductive VersionPredicate
  | any
  | atLeast (minimum : List Int32)
  | matching (pattern : Bytes)
  deriving DecidableEq

namespace VersionPredicate

/-- The predicate of an optional pattern; where there is none, the pattern is empty. -/
def ofPattern? (pattern : Option Bytes) : VersionPredicate := matching (pattern.getD [])

/-- The number of a version component. -/
def componentValue? (component : Bytes) : Option Int64 :=
  if component.isEmpty || 18 < component.length then none
  else if component.all Name.isDigit then
    some (component.foldl (fun n d => n * 10 + (d - 0x30).toInt8.toInt64) 0)
  else none

/-- Whether a component reaches what is required of it. -/
def reaches (component : Bytes) (required : Int32) : Bool :=
  match componentValue? component with
  | some n => required.toInt64 ≤ n
  | none => false

/-- Whether a version satisfies a predicate. A malformed pattern matches nothing. -/
def accepts (version : Bytes) : VersionPredicate → Bool
  | any => true
  | atLeast minimum => ((fields 0x2E version).zip minimum).all fun (c, m) => reaches c m
  | matching pattern =>
    match Regex.parse pattern with
    | .ok r => r.occursIn version
    | .error _ => false

/-- What is wrong with a predicate. -/
def flaw? : VersionPredicate → Option Regex.Flaw
  | matching pattern =>
    match Regex.parse pattern with
    | .ok _ => none
    | .error f => some f
  | _ => none

/-- Whether a predicate can be used. -/
def isValid (p : VersionPredicate) : Bool := p.flaw?.isNone

/-- The pattern of a predicate that has one. -/
def patternText : VersionPredicate → Bytes
  | matching pattern => pattern
  | _ => []

end VersionPredicate

end SqlAccess
