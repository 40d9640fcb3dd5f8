import SqlAccess.Engine.Call
import SqlAccess.Fault

/-!
# Transactions

A root transaction is begun on a database, a nested one in another transaction, at a savepoint.
Transactions refer to each other by number: a nested one to its parent for good, and a parent to
the transaction nested in it until that one ends. What has ended stays as it is, so that what is
still asked of it can be refused.
-/

namespace SqlAccess

/-- Where a transaction was begun. -/
inductive Origin
  /-- On the database. -/
  | root
  /-- In another transaction, at a savepoint. -/
  | nested (parent savepoint : Nat)
  deriving DecidableEq

namespace Origin

/-- The transaction around it. -/
def parent? : Origin → Option Nat
  | root => none
  | nested parent _ => some parent

/-- The savepoint at which it was begun. -/
def savepoint? : Origin → Option Nat
  | root => none
  | nested _ savepoint => some savepoint

end Origin

/-- A transaction, open or ended. -/
structure Transaction where
  origin : Origin
  /-- How deep it is nested; a root has depth zero. -/
  depth : Nat
  /-- The open transaction that is nested in it. -/
  child : Option Nat := none
  /-- How it ended, if it did. -/
  ended : Option Ended := none
  /-- The statements that are to be closed with it. -/
  statements : List Nat := []

namespace Transaction

/-- Whether the transaction is open. -/
def isOpen (x : Transaction) : Bool := x.ended.isNone

end Transaction

/-- What a transaction's status is called, by how it ended. -/
def statusName : Option Ended → Bytes
  | none => "open"
  | some how => how.name

/-- The name of the status with a given number, if there is one. -/
def statusNameOfNumber (n : UInt8) : Bytes :=
  (([none, some .committed, some .rolledBack][n.toNat]?).map statusName).getD "unknown"

end SqlAccess
