import SqlAccess.Numeral

/-!
# Data source names

A MariaDB server is named by `host:port:user:password:database`. Fields are assigned from the
left, every field may be empty or missing, and only the last one may hold colons. `Dsn.parse`
reads a name and fills in what is missing; `Dsn.encode` writes one.
-/

namespace SqlAccess

/-- Where and how to connect to a server. -/
structure Dsn where
  host : Bytes
  port : UInt32
  user : Bytes
  password : Option Bytes
  database : Option Bytes
  deriving DecidableEq

namespace Dsn

/-- Cut a text at a separator, at most `cuts` times from the left. -/
def splitAtMost (sep : UInt8) : Nat → Bytes → List Bytes
  | _, [] => [[]]
  | 0, text => [text]
  | cuts + 1, b :: rest =>
    if b = sep then [] :: splitAtMost sep cuts rest
    else
      match splitAtMost sep (cuts + 1) rest with
      | f :: fs => (b :: f) :: fs
      | [] => [[b]]

/-- A field, or what stands for an empty one. -/
def orElse (field fallback : Bytes) : Bytes := if field.isEmpty then fallback else field

/-- A field, if it is not empty. -/
def nonempty? (field : Bytes) : Option Bytes := if field.isEmpty then none else some field

/-- The port that a field names. -/
def portOf (field : Bytes) : UInt32 :=
  if field.isEmpty then 3306 else (Numeral.readUnsigned field).toUInt32

/-- Read a data source name. -/
def parse (text : Bytes) : Dsn :=
  let fields := splitAtMost 0x3A 4 text
  let field (i : Nat) : Bytes := fields.getD i []
  { host := orElse (field 0) "localhost"
    port := portOf (field 1)
    user := orElse (field 2) "root"
    password := nonempty? (field 3)
    database := nonempty? (field 4) }

/-- The data source name of five fields. -/
def encode (host port user password database : Bytes) : Bytes :=
  Bytes.joinWith [0x3A] [host, port, user, password, database]

end Dsn

end SqlAccess
