import SqlAccess.Session

/-!
# Answers of a session

What a caller is told: an `Answer`, which says what was asked for, in a `Reply` with the failure
of a step that failed, in a `Report` with the calls and log lines that the step made.
-/

namespace SqlAccess

/-- The answers to a step. -/
inductive Answer
  | done
  | database (isOpen : Bool) (info : DatabaseInfo)
  /-- How a transaction ended, if it did, and its depth; an empty handle has depth `-1`. -/
  | transaction (ended : Option Ended) (depth : Int)
  | statement (isOpen : Bool) (descriptor : Descriptor)
  | parameter (isResolved : Bool) (parameter : Parameter)
  /-- Whether a cursor is open, and the index of its row. -/
  | cursor (isOpen : Bool) (row : Int)
  /-- How many rows were changed; `-1` if the run failed. -/
  | changed (rows : Int64)
  /-- Whether a cursor stands on a row. -/
  | moved (onRow : Bool)
  | value (v : Value)
  | hasColumn (found : Bool)

/-- A step's answer, and its failure if it failed. -/
structure Reply where
  answer : Answer := .done
  fault : Option Fault := none

/-- What is reported of a step: its reply, and the calls and log lines that it made, in order. -/
structure Report extends Reply where
  calls : List Event
  log : List LogLine

namespace Reply

variable {α : Type}

/-- The reply of a step, whose answer is made from its result, or given for the case that it
failed. -/
def of (answer : α → Answer) (failed : Answer) : Except Fault α → Reply
  | .ok a => { answer := answer a }
  | .error f => { answer := failed, fault := some f }

/-- The reply of a step that has no answer of its own. -/
def plain (r : Except Fault α) : Reply := of (fun _ => .done) .done r

end Reply

end SqlAccess
