import SqlAccess.Engine.Call
import SqlAccess.Engine.Script
import SqlAccess.Table

/-!
# The state of an engine

An `Engine` keeps its open connections and statements, what its scripts and rules still hold in
store, and the history of the calls made to it. Each call goes through `Engine.perform`, which
asks the rules whether it fails and enters it into the history.

A connection, and for MariaDB a statement, remembers the code and text of its latest failure. These
and what a statement yields can be looked at without a call (`Engine.viewConnection`,
`Engine.viewStatement`). What comes of looking at something that is not there is undefined; here it
is noted that this was done.
-/

namespace SqlAccess

/-- An open connection. -/
structure Connection where
  /-- The code of the latest failure. -/
  code : Int32 := 0
  /-- The text of the latest failure. -/
  text : Bytes := "not an error"
  /-- How many rows the latest finished statement changed. -/
  changes : Int32 := 0
  /-- How many columns the result of the latest directive has. -/
  columns : Nat := 0

/-- A statement that has not been given up. -/
structure Prepared where
  /-- The connection it belongs to. -/
  connection : Nat
  /-- What its text yields. -/
  script : Script
  /-- The rows still to come. -/
  pending : List (List (Option Cell))
  /-- The code of the latest failure. -/
  code : Int32 := 0
  /-- The text of the latest failure. -/
  text : Bytes := []

/-- An engine. -/
structure Engine where
  /-- The version that connections report. -/
  version : Bytes := "3.40.1"
  /-- Which calls are to fail. -/
  rules : List Rule := []
  /-- What the texts of statements yield. -/
  scripts : List Script := []
  /-- The open connections. -/
  connections : Table Connection := .empty 1
  /-- The statements that were not given up. -/
  statements : Table Prepared := .empty 1
  /-- How many copied values were not freed. -/
  cells : Nat := 0
  /-- The calls made, the latest first. -/
  history : List Event := []
  /-- Whether a connection or a statement was looked at that is not there. -/
  strayed : Bool := false

/-- Actions on an engine. -/
abbrev EngineM := StateM Engine

namespace Engine

/-- Ask the rules whether a call fails. -/
def consult (call : Call) : EngineM (Option Failure) :=
  modifyGet fun e =>
    let (failure, rules) := Rule.consult call.line e.rules
    (failure, { e with rules })

/-- Enter a call into the history. -/
def record (call : Call) (outcome : Outcome) : EngineM Unit :=
  modify fun e => { e with history := { call, outcome } :: e.history }

/-- Make a call that ends in `success` unless a rule lets it fail. -/
def perform (call : Call) (success : Outcome) : EngineM (Option Failure) := do
  let failure ← consult call
  record call <| match failure with
    | none => success
    | some f => .failed f.code none
  return failure

/-- Make a call that cannot fail; a rule for it is used up all the same. -/
def performSurely (call : Call) : EngineM Unit := do
  let _ ← consult call
  record call .done

/-- Change a connection. -/
def modifyConnection (c : Nat) (f : Connection → Connection) : EngineM Unit :=
  modify fun e => { e with connections := e.connections.modify c f }

/-- Change a statement. -/
def modifyStatement (k : Nat) (f : Prepared → Prepared) : EngineM Unit :=
  modify fun e => { e with statements := e.statements.modify k f }

/-- Remember a failure with a connection. -/
def noteOnConnection (c : Nat) (f : Failure) : EngineM Unit :=
  modifyConnection c fun s => { s with code := f.code, text := f.text }

/-- Remember a failure with a statement. -/
def noteOnStatement (k : Nat) (f : Failure) : EngineM Unit :=
  modifyStatement k fun s => { s with code := f.code, text := f.text }

/-- The state of a connection. -/
def connection (c : Nat) : EngineM Connection := do
  return ((← get).connections.find? c).getD {}

/-- The state of a statement. -/
def statement (k : Nat) : EngineM Prepared := do
  return ((← get).statements.find? k).getD { connection := 0, script := default, pending := [] }

/-- Look at a connection from outside. -/
def viewConnection (c : Nat) : EngineM Connection := do
  modify fun e => { e with strayed := e.strayed || (e.connections.find? c).isNone }
  connection c

/-- Look at a statement from outside. -/
def viewStatement (k : Nat) : EngineM Prepared := do
  modify fun e => { e with strayed := e.strayed || (e.statements.find? k).isNone }
  statement k

/-- Add a connection. -/
def addConnection (s : Connection) : EngineM Unit :=
  modify fun e => { e with connections := e.connections.add s }

/-- Take away a connection. -/
def dropConnection (c : Nat) : EngineM Unit :=
  modify fun e => { e with connections := e.connections.erase c }

/-- Add a statement. -/
def addStatement (s : Prepared) : EngineM Unit :=
  modify fun e => { e with statements := e.statements.add s }

/-- Take away a statement. -/
def dropStatement (k : Nat) : EngineM Unit :=
  modify fun e => { e with statements := e.statements.erase k }

/-- The script of a text. -/
def scriptFor (sql : Bytes) : EngineM Script := do
  return .select (← get).scripts sql

/-- Free copied values. -/
def freeCells (n : Nat) : EngineM Unit := modify fun e => { e with cells := e.cells - n }

end Engine

end SqlAccess
