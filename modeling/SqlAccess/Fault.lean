import SqlAccess.Error
import SqlAccess.Value

/-!
# Causes of failure

Each operation of the library fails with a `Fault`, which names the cause and carries what its
message mentions. `Fault.kind` classifies a cause, `Fault.message` words it, and
`Fault.toError` is the record a caller sees.
-/

namespace SqlAccess

/-- How a transaction came to its end. -/
inductive Ended
  | committed
  | rolledBack
  deriving DecidableEq, Repr

/-- The name of an ending in messages. -/
def Ended.name : Ended → Bytes
  | .committed => "committed"
  | .rolledBack => "rolled back"

/-- What was asked of a transaction that could not do it. -/
inductive Attempt
  /-- Nesting, preparing or running. -/
  | use
  | commit
  | rollback
  deriving DecidableEq, Repr

/-- What a declared name stands for. -/
inductive Role
  | parameter
  | column
  | key
  deriving DecidableEq, Repr

/-- The name of a role in messages. -/
def Role.name : Role → Bytes
  | .parameter => "parameter"
  | .column => "column"
  | .key => "key"

/-- The causes of failure. -/
inductive Fault
  /-- A placeholder is written out in a query text. -/
  | literalPlaceholder (position : Nat)
  /-- A query text ends where a parameter name should follow. -/
  | missingParameterName
  /-- A byte that cannot start a parameter name stands where one should follow. -/
  | badParameterStart (byte : UInt8) (position : Nat)
  /-- There is no place for the result of a scan. -/
  | noScanResult
  /-- There is no place for a descriptor. -/
  | noDescriptor
  /-- A value does not fit the declared type. -/
  | unassignable (value declared : ValueType)
  /-- One name is declared with two types. -/
  | typeConflict (role : Role) (name : Bytes) (first second : ValueType)
  /-- One list parameter is declared with two sizes. -/
  | sizeConflict (name : Bytes) (first second : Int32)
  /-- One name is declared as a parameter and as a list. -/
  | scalarAndList (name : Bytes)
  /-- A list parameter is declared without a name or without a positive size. -/
  | badListDeclaration
  /-- A query variant has no engine type or no text. -/
  | noTypeOrText
  /-- A query has no text to fall back on where one is given. -/
  | noText
  /-- A declaration or look-up has no name. -/
  | noName
  /-- A version pattern is malformed. -/
  | invalidPattern (pattern reason : Bytes)
  /-- A query is built without any text. -/
  | emptyQuery
  /-- No variant of a query applies to the database. -/
  | noVariant (type version : Bytes)
  /-- A format asks for more arguments than there are. -/
  | missingArgument
  /-- A query is used that was not built. -/
  | invalidQuery
  /-- A query is composed of one that was not built. -/
  | invalidFragment
  /-- A database is opened without a name. -/
  | noDsn
  /-- The database is not open. -/
  | notOpen
  /-- A transaction is begun on a read-only database. -/
  | readOnlyDatabase
  /-- A transaction is begun on a database that has an open one. -/
  | alreadyOpen
  /-- A transaction handle is empty. -/
  | noTransaction
  /-- The transaction has ended. -/
  | ended (attempt : Attempt) (how : Ended)
  /-- The transaction has an open nested transaction. -/
  | shadowed (attempt : Attempt)
  /-- The statement is closed. -/
  | statementClosed
  /-- A statement without a transaction is asked to write. -/
  | unboundStatement
  /-- An insert declares no keys to return. -/
  | noKeys
  /-- A name is not declared as a parameter. -/
  | undeclaredParameter (name : Bytes)
  /-- No accessor is registered for the type of a parameter or column. -/
  | noAccessor (type : ValueType) (role : Role) (name : Bytes)
  /-- A list parameter is bound to a single value. -/
  | listNeeded (name : Bytes)
  /-- A single parameter is bound to a list. -/
  | scalarNeeded (name : Bytes)
  /-- A list parameter is bound to a list of another length. -/
  | wrongLength (name : Bytes) (expected actual : Nat)
  /-- A slot lies beyond the statement's parameters. -/
  | slotOutOfRange (slot : Nat)
  /-- The cursor is closed. -/
  | cursorClosed
  /-- A column is read without a name. -/
  | noColumn
  /-- A column is read in front of the first row. -/
  | beforeFirstRow
  /-- No readable column has the name. -/
  | unknownColumn (name : Bytes)
  /-- A column lies beyond the end of the row. -/
  | columnOutOfRange (name : Bytes)
  /-- The engine refused a call. -/
  | engine (kind : ErrorKind) (action : Bytes) (native : Int32) (text : Bytes)
  /-- The engine refused to give up a statement. -/
  | finalize (sql : Bytes) (native : Int32) (text : Bytes)
  /-- A text holds no statement. -/
  | noStatement
  /-- A row could not be copied. -/
  | outOfMemory
  /-- No connection could be made ready. -/
  | connectionInit
  /-- The engine refused to close a statement. -/
  | statementClose
  /-- A statement without a result is asked for rows. -/
  | noRows
  /-- A fetched value did not fit its buffer. -/
  | truncated
  deriving DecidableEq

namespace Fault

/-- The kind of a failure. -/
def kind : Fault → ErrorKind
  | literalPlaceholder _ | missingParameterName | badParameterStart _ _ | invalidPattern _ _ =>
    .parse
  | noScanResult | noDescriptor | noTypeOrText | noText | noName | noDsn | noColumn => .nullParam
  | unassignable _ _ => .mismatch
  | typeConflict _ _ _ _ | sizeConflict _ _ _ | scalarAndList _ => .typeConflict
  | badListDeclaration | wrongLength _ _ _ | slotOutOfRange _ | columnOutOfRange _ => .range
  | emptyQuery | noVariant _ _ => .noVariant
  | missingArgument | invalidQuery | invalidFragment | alreadyOpen | noTransaction | shadowed _
  | noKeys | listNeeded _ | scalarNeeded _ | beforeFirstRow | noStatement | noRows => .misuse
  | notOpen => .notOpen
  | readOnlyDatabase | unboundStatement => .readOnly
  | ended _ _ => .inactive
  | statementClosed | cursorClosed => .closed
  | undeclaredParameter _ => .noType
  | noAccessor _ _ _ => .noAccessor
  | unknownColumn _ => .notFound
  | engine k _ _ _ => k
  | finalize _ _ _ => .ioError
  | outOfMemory | connectionInit => .full
  | statementClose | truncated => .error

/-- The full wording of a failure. An argument is quoted up to its first zero byte. -/
def wording : Fault → Bytes
  | literalPlaceholder position =>
    "Illegal character '?' at position " ++ Bytes.ofNat position ++
      ". Only named parameters are allowed."
  | missingParameterName => "Empty parameter at query end."
  | badParameterStart byte position =>
    "Character '" ++ [byte] ++ "' is not a valid parameter start (character position " ++
      Bytes.ofNat position ++ ")."
  | noScanResult => "scan result is null"
  | noDescriptor => "descriptor is null"
  | unassignable value declared => "Cannot bind " ++ value.name ++ " value as " ++ declared.name
  | typeConflict role name first second =>
    "Multiple different types are defined for " ++ role.name ++ " with name " ++
      name.beforeNul ++ ": " ++ first.name ++ ", " ++ second.name
  | sizeConflict name first second =>
    "Multiple different sizes are defined for list parameter " ++ name.beforeNul ++ ": " ++
      Bytes.decimal first.toInt ++ ", " ++ Bytes.decimal second.toInt
  | scalarAndList name => name.beforeNul ++ " is declared both as parameter and list"
  | badListDeclaration => "list parameter needs a name and size > 0"
  | noTypeOrText => "type or sql is null"
  | noText => "sql is null"
  | noName => "name is null"
  | invalidPattern pattern reason =>
    "Invalid version pattern '" ++ pattern.beforeNul ++ "': " ++ reason.beforeNul
  | emptyQuery => "Query has no text"
  | noVariant type version =>
    "No applicable query variant found for database " ++ type.beforeNul ++ " " ++
      version.beforeNul
  | missingArgument => "Format query has more %s than arguments"
  | invalidQuery => "Query not initialized"
  | invalidFragment => "Query fragment not initialized"
  | noDsn => "dsn is null"
  | notOpen => "Database not open"
  | readOnlyDatabase => "Database is read-only"
  | alreadyOpen => "A transaction is already open on this database"
  | noTransaction => "Transaction not initialized"
  | ended .use how => "Transaction already " ++ how.name
  | ended .commit how => "Cannot commit, transaction already " ++ how.name
  | ended .rollback how => "Cannot roll back, transaction already " ++ how.name
  | shadowed .use => "Transaction has an open nested transaction"
  | shadowed .commit => "Cannot commit with an open nested transaction"
  | shadowed .rollback => "Cannot roll back with an open nested transaction"
  | statementClosed => "Statement is closed"
  | unboundStatement => "Statement is not bound to a transaction"
  | noKeys => "Query declares no generated keys; use Update()"
  | undeclaredParameter name => "No type is defined for parameter " ++ name.beforeNul
  | noAccessor type role name =>
    "No accessor is defined for type " ++ type.name ++ " (" ++ role.name ++ " " ++
      name.beforeNul ++ ")"
  | listNeeded name => name.beforeNul ++ " is a list parameter, use BindList()"
  | scalarNeeded name => name.beforeNul ++ " is not a list parameter"
  | wrongLength name expected actual =>
    "List parameter " ++ name.beforeNul ++ " expects " ++ Bytes.ofNat expected ++
      " values, got " ++ Bytes.ofNat actual
  | slotOutOfRange slot => "Parameter " ++ Bytes.ofNat slot ++ " out of range"
  | cursorClosed => "Cursor is closed"
  | noColumn => "column is null"
  | beforeFirstRow => "Cursor is before the first row; call Next()"
  | unknownColumn name => "No column " ++ name.beforeNul ++ " is declared in the query"
  | columnOutOfRange name => "Column " ++ name.beforeNul ++ " out of range"
  | engine _ action _ text => action.beforeNul ++ ": " ++ text.beforeNul
  | finalize sql _ _ => "finalize " ++ sql.beforeNul
  | noStatement => "Query contains no statement"
  | outOfMemory => "Out of memory copying row"
  | connectionInit => "mysql_init failed"
  | statementClose => "mysql_stmt_close failed"
  | noRows => "Statement returns no rows"
  | truncated => "Row fetch truncated a column"

/-- The engine's code and text, where the engine is the cause. -/
def cause : Fault → Option (Int32 × Bytes)
  | engine _ _ native text | finalize _ native text => some (native, text)
  | _ => none

/-- The record of a failure. -/
def toError (f : Fault) : Error :=
  match f.cause with
  | none => .make f.kind.code (some f.wording)
  | some (native, text) => .wrap f.kind.code (some f.wording) native (some text)

/-- The message of a failure, as its record keeps it. -/
def message (f : Fault) : Bytes := Error.bounded f.wording

theorem toError_message (f : Fault) : f.toError.message = f.message := by
  unfold toError
  split <;> rfl

end Fault

/-- Refuse a value that does not fit a declared type. -/
def Value.checkFits (declared : ValueType) (v : Value) : Except Fault Unit :=
  if v.fits declared then .ok () else .error (.unassignable v.type declared)

end SqlAccess
