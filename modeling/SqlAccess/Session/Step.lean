import SqlAccess.Session.Operation

/-!
# Steps of a session

A `Step` is one thing that a caller does with the handles of a session. `Session.step` carries
it out and reports what came of it; `Session.run` carries out one step after another.
-/

namespace SqlAccess

/-- What a caller does. -/
inductive Step
  /-- Open a database, after closing the one that the handle holds. -/
  | connect (database : Bytes) (dsn : Option Bytes) (options : Options)
  /-- Begin a root transaction. -/
  | begin (database target : Bytes)
  /-- Begin a nested transaction. -/
  | nest (transaction target : Bytes)
  | commit (transaction : Bytes)
  | rollback (transaction : Bytes)
  /-- Roll back a transaction with everything nested in it, if it is open. -/
  | rollbackThrough (transaction : Bytes)
  /-- Run a query once in a transaction. -/
  | executeOnce (transaction : Bytes) (query : Option Query)
  /-- Prepare a query for reading. -/
  | prepare (database : Bytes) (query : Option Query) (target : Bytes)
  /-- Prepare a query in a transaction. -/
  | prepareIn (transaction : Bytes) (query : Option Query) (target : Bytes)
  /-- Set a parameter. -/
  | bind (statement : Bytes) (parameter : Option Bytes) (value : Value)
  /-- Set a list parameter. -/
  | bindList (statement : Bytes) (parameter : Option Bytes) (values : List Value)
  /-- Resolve a parameter for binding it later. -/
  | resolve (statement : Bytes) (parameter : Option Bytes) (target : Bytes)
  /-- Set a resolved parameter. -/
  | assign (parameter : Bytes) (value : Value)
  /-- Set a resolved list parameter. -/
  | assignList (parameter : Bytes) (values : List Value)
  /-- Run for rows. -/
  | query (statement target : Bytes)
  /-- Run for generated keys. -/
  | insert (statement target : Bytes)
  /-- Run for the number of rows changed. -/
  | update (statement : Bytes)
  /-- Run for the effect alone. -/
  | execute (statement : Bytes)
  /-- Move a cursor by some rows. -/
  | seek (cursor : Bytes) (offset : Int64)
  /-- Read a column, as it is or as a reader of a type sees it. -/
  | read (cursor : Bytes) (column : Option Bytes) (type : Option ValueType)
    (ifNull : Option Value)
  /-- Ask whether a column can be read. -/
  | hasColumn (cursor : Bytes) (column : Option Bytes)
  /-- Ask what a handle holds. -/
  | inspect (handle : HandleName)
  /-- Close what a handle holds and report how that went. Transactions and parameters are left
  alone. -/
  | close (handle : HandleName)
  /-- Give up a handle with what it holds. -/
  | drop (handle : HandleName)
  /-- Let another handle of the kind hold what this one holds. -/
  | move (source : HandleName) (target : Bytes)

namespace Session

/-! ## Steps -/

/-- Carry out a step. -/
def carryOut : Step → SessionM Reply
  | .connect name dsn options => return .plain (← connect name dsn options)
  | .begin name target => do deliver (setTransaction target) (← begin name)
  | .nest name target => do deliver (setTransaction target) (← nest name)
  | .commit name => return .plain (← withTransaction name fun r => Database.commit r.number)
  | .rollback name => return .plain (← withTransaction name fun r => Database.rollback r.number)
  | .rollbackThrough name => return .plain (← rollbackThrough name)
  | .executeOnce name query =>
    return .plain (← withTransaction name fun r => Database.executeOnce r.number query)
  | .prepare name query target => do deliver (setStatement target) (← prepare name query)
  | .prepareIn name query target => do deliver (setStatement target) (← prepareIn name query)
  | .bind name p v => return .plain (← onStatement name (Statement.bind p v))
  | .bindList name p vs => return .plain (← onStatement name (Statement.bindList p vs))
  | .resolve name p target => do deliver (setParameter target) (← resolve name p)
  | .assign name v => return .plain (← onParameter name fun p => Statement.assign p v)
  | .assignList name vs => return .plain (← onParameter name fun p => Statement.assignList p vs)
  | .query name target => do
    deliver (setCursor target) (← runForCursor name false Statement.query)
  | .insert name target => do
    deliver (setCursor target) (← runForCursor name true Statement.insert)
  | .update name => return .of .changed (.changed (-1)) (← execute name)
  | .execute name => return .plain (← execute name)
  | .seek name offset =>
    return .of .moved (.moved false) (← onCursor name fun n => Statement.seek n offset)
  | .read name column type ifNull => return (← getThe Session).read name column type ifNull
  | .hasColumn name column => do
    let cursor := (← getThe Session).openCursor? name
    return { answer := .hasColumn (cursor.any (·.hasColumn column)) }
  | .inspect h => return { answer := (← getThe Session).inspect h }
  | .close h => return .plain (← close h)
  | .drop h => do drop h; return {}
  | .move h target => do move h target; return {}

/-- What a longer list, the latest entry first, has got since it had some length, in order. -/
def since {β : Type} (length : Nat) (l : List β) : List β := (l.take (l.length - length)).reverse

/-- Carry out a step and report it. -/
def step (x : Step) : SessionM Report := do
  let before ← getThe World
  let reply ← carryOut x
  let after ← getThe World
  return {
    toReply := reply
    calls := since before.engine.history.length after.engine.history
    log := since before.log.length after.log }

/-- Carry out steps one after another. -/
def run (steps : List Step) : SessionM (List Report) := steps.mapM step

end Session

end SqlAccess
