import SqlAccess.Bytes

/-!
# Error records

An `Error` is what a caller is told about a failure: a code, a message, and the engine's own
code and text where the engine is the cause. Both texts are bounded (`Error.textLimit`) and end
at a zero byte. An `ErrorKind` is a kind of failure; the codes of the kinds run from `-1` down,
and the code `0` means success.
-/

namespace SqlAccess

/-- The kinds of failure. -/
inductive ErrorKind
  | error
  | notOpen
  | busy
  | notFound
  | constraint
  | mismatch
  | misuse
  | range
  | nullParam
  | ioError
  | full
  | parse
  | noType
  | noAccessor
  | typeConflict
  | noVariant
  | closed
  | inactive
  | readOnly
  deriving DecidableEq, Repr

namespace ErrorKind

/-- The kinds in the order of their codes. -/
def all : List ErrorKind :=
  [error, notOpen, busy, notFound, constraint, mismatch, misuse, range, nullParam, ioError, full,
    parse, noType, noAccessor, typeConflict, noVariant, closed, inactive, readOnly]

/-- The code of a kind: the first kind has code `-1`, the next `-2` and so on. -/
def code (k : ErrorKind) : Int32 := -(Int32.ofNat (all.idxOf k) + 1)

/-- The name of a kind. -/
def name : ErrorKind → Bytes
  | error => "error"
  | notOpen => "not open"
  | busy => "busy"
  | notFound => "not found"
  | constraint => "constraint"
  | mismatch => "mismatch"
  | misuse => "misuse"
  | range => "range"
  | nullParam => "null param"
  | ioError => "io error"
  | full => "full"
  | parse => "parse"
  | noType => "no type"
  | noAccessor => "no accessor"
  | typeConflict => "type conflict"
  | noVariant => "no variant"
  | closed => "closed"
  | inactive => "inactive"
  | readOnly => "read only"

/-- The kind with a given code. -/
def ofCode? (c : Int32) : Option ErrorKind := all.find? fun k => k.code == c

theorem ofCode?_code (k : ErrorKind) : ofCode? k.code = some k := by cases k <;> decide

end ErrorKind

/-- The name of an error code, which need not be the code of a kind. -/
def codeName (c : Int32) : Bytes :=
  if c = 0 then "ok" else ((ErrorKind.ofCode? c).map ErrorKind.name).getD "unknown"

/-- What is reported of a call. The default record reports success. -/
structure Error where
  /-- Zero for success, else the code of the kind of failure. -/
  code : Int32 := 0
  /-- What went wrong. -/
  message : Bytes := []
  /-- The engine's code, zero if the engine is not the cause. -/
  native : Int32 := 0
  /-- The engine's text. -/
  cause : Bytes := []
  deriving DecidableEq

namespace Error

/-- How many bytes of a message or cause are kept. -/
def textLimit : Nat := 255

/-- A text as a record keeps it: up to the first zero byte, and no longer than the limit. -/
def bounded (text : Bytes) : Bytes := text.beforeNul.take textLimit

/-- Whether the record reports success. -/
def isOk (e : Error) : Bool := e.code == 0

/-- Whether the engine is named as the cause. -/
def hasCause (e : Error) : Bool := e.native != 0 || !e.cause.isEmpty

/-- Replace code and message, and leave the cause as it is; no text means an empty message. -/
def set (e : Error) (code : Int32) (text : Option Bytes) : Error :=
  { e with code, message := bounded (text.getD []) }

/-- Replace the cause, and leave code and message as they are. -/
def setCause (e : Error) (native : Int32) (text : Option Bytes) : Error :=
  { e with native, cause := bounded (text.getD []) }

/-- A record with a code and a message. -/
def make (code : Int32) (text : Option Bytes) : Error := ({} : Error).set code text

/-- A record with a code, a message and a cause. -/
def wrap (code : Int32) (text : Option Bytes) (native : Int32) (cause : Option Bytes) : Error :=
  (make code text).setCause native cause

/-- Hand a record to a receiver, if there is one; the answer is whether it reports success. -/
def report (e : Error) (receiver : Option Error) : Option Error × Bool :=
  (receiver.map fun _ => e, e.isOk)

end Error

end SqlAccess
