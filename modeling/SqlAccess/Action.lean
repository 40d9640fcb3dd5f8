import SqlAccess.Engine
import SqlAccess.Fault
import SqlAccess.Log

/-!
# Actions

What the library does it does to an engine, writing lines to a log; both make up a `World`. An
action that may fail does so with a `Fault` and keeps what it did before.

* `EngineM` and `EngineTry` are the actions on an engine, `Act` those on a world.
* `Op σ` are the actions on an object of type `σ` in a world that may fail.
* `Op.attempt` makes a failure into an answer, for work that goes on behind one.
-/

namespace SqlAccess

/-- Engine actions that may fail. -/
abbrev EngineTry := ExceptT Fault EngineM

instance (priority := low) {m : Type → Type} [MonadLiftT EngineM m] :
    MonadLift EngineTry (ExceptT Fault m) :=
  ⟨fun x => ExceptT.mk (liftM x.run)⟩

/-- An engine, and the log lines written so far. -/
structure World where
  engine : Engine := {}
  /-- The lines, the latest first. -/
  log : List LogLine := []

/-- Actions on a world. -/
abbrev Act := StateM World

/-- An engine action in a world. -/
def World.onEngine {α : Type} (x : EngineM α) : Act α := fun w =>
  let (a, engine) := x.run w.engine
  (a, { w with engine })

instance : MonadLift EngineM Act := ⟨World.onEngine⟩

/-- Write a line to the log, if a sink takes it. -/
def writeLog (sink : LogSink) (level : LogLevel) (text : Bytes) : Act Unit :=
  modify fun w => { w with log := (sink.write level text).toList ++ w.log }

/-- Actions on an object that may fail. -/
abbrev Op (σ : Type) := ExceptT Fault (StateT σ Act)

namespace Op

variable {σ α : Type}

/-- The outcome of an action as an answer. -/
def attempt (x : Op σ α) : StateT σ Act (Except Fault α) := x.run

/-- The action that has a given outcome. -/
def ofResult (r : Except Fault α) : Op σ α := ExceptT.mk (pure r)

/-- An action on an object outside of which nothing is known of it. -/
def runOn (x : Op σ α) (s : σ) : Act (Except Fault α × σ) := x.run.run s

end Op

/-- Of two outcomes the first failure stands, and a second one is written to the log behind a
note of what was going on. -/
def keepFirst (sink : LogSink) (note : Bytes) (first next : Except Fault Unit) :
    Act (Except Fault Unit) := do
  match first, next with
  | .ok (), next => return next
  | .error f, .ok () => return .error f
  | .error f, .error g =>
    writeLog sink .warn (note ++ ": " ++ g.message)
    return .error f

end SqlAccess
