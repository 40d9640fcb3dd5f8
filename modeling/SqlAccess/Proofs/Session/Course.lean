import SqlAccess.Proofs.After
import SqlAccess.Session.Step

/-!
# The course of a step

A step looks up handles, works on the databases that they refer to, and changes handles. Work on
what is there is known once it is known of the database (`onDatabase_iff`, `withStatement_iff` and
their neighbours); where it is not known whether it is there, there is one case more
(`onDatabase_cases`, `withStatement_cases`).

A relation between the sessions before and after an action is followed by the action if it holds
wherever the action starts (`Follows`). Where it can be put together and neither changes of handles
nor of the log matter to it (`Course`), it is followed by whatever gives up what handles hold, as
soon as it is followed by closing what is held (`Course.drop`, `Course.move`, `Course.close`).
-/

namespace SqlAccess.Session

variable {α β : Type} {s : Session × World} {n : Nat} {name target : Bytes}

/-! ## Work on a database -/

section OnDatabase

variable {x : StateT Database Act α} {otherwise : α} {Q : α → Session × World → Prop} {d : Database}

/-- What was done to a database takes its place in the session. -/
theorem onDatabase_iff (hd : s.1.opened.find? n = some d) :
    After (onDatabase n otherwise x) s Q ↔ After x (d, s.2) fun a b =>
      Q a ({ s.1 with opened := s.1.opened.modify n fun _ => b.1 }, b.2) := by
  simp only [onDatabase, After.bind_iff, After.get_iff, hd, After.lift_iff, After.run_iff,
    After.modify_iff, After.pure_iff]

theorem onDatabase_cases (hnone : s.1.opened.find? n = none → Q otherwise s)
    (hsome : ∀ d, s.1.opened.find? n = some d → After x (d, s.2) fun a b =>
      Q a ({ s.1 with opened := s.1.opened.modify n fun _ => b.1 }, b.2)) :
    After (onDatabase n otherwise x) s Q := by
  cases hd : s.1.opened.find? n with
  | some d => exact (onDatabase_iff hd).2 (hsome d hd)
  | none =>
    unfold onDatabase
    refine After.bind_iff.2 (After.get_iff.2 ?_)
    simp only [hd]
    exact After.pure_iff.2 (hnone hd)

/-- Work on a database is done to that database alone. -/
theorem attemptOn_iff {x : Op Database α} {Q : Except Fault α → Session × World → Prop}
    (hd : s.1.opened.find? n = some d) : After (attemptOn n x) s Q ↔
      After x.run (d, s.2) fun r b =>
        Q r ({ s.1 with opened := s.1.opened.modify n fun _ => b.1 }, b.2) :=
  onDatabase_iff hd

end OnDatabase

/-! ## Work on what a handle holds -/

section Work

variable {Q : Except Fault α → Session × World → Prop}

theorem withDatabase_iff {x : Nat → Op Database α} (hn : s.1.databases.find? name = some n) :
    After (withDatabase name x) s Q ↔ After (attemptOn n (x n)) s Q := by
  simp only [withDatabase, After.bind_iff, After.get_iff, hn]

theorem withDatabase_cases {x : Nat → Op Database α}
    (hnone : s.1.databases.find? name = none → Q (.error .notOpen) s)
    (hsome : ∀ n, s.1.databases.find? name = some n → After (attemptOn n (x n)) s Q) :
    After (withDatabase name x) s Q := by
  cases h : s.1.databases.find? name with
  | some n => exact (withDatabase_iff h).2 (hsome n h)
  | none =>
    simpa only [withDatabase, After.bind_iff, After.get_iff, h, After.pure_iff] using hnone h

theorem withTransaction_iff {x : TransactionRef → Op Database α} {r : TransactionRef}
    (hr : s.1.transactions.find? name = some r) :
    After (withTransaction name x) s Q ↔ After (attemptOn r.database (x r)) s Q := by
  simp only [withTransaction, After.bind_iff, After.get_iff, hr]

theorem withTransaction_cases {x : TransactionRef → Op Database α}
    (hnone : s.1.transactions.find? name = none → Q (.error .noTransaction) s)
    (hsome : ∀ r, s.1.transactions.find? name = some r →
      After (attemptOn r.database (x r)) s Q) :
    After (withTransaction name x) s Q := by
  cases h : s.1.transactions.find? name with
  | some r => exact (withTransaction_iff h).2 (hsome r h)
  | none =>
    simpa only [withTransaction, After.bind_iff, After.get_iff, h, After.pure_iff] using hnone h

theorem withStatement_iff {x : StatementRef → Op Database α} {r : StatementRef}
    (hr : s.1.statements.find? name = some r) :
    After (withStatement name x) s Q ↔ After (attemptOn r.database (x r)) s Q := by
  simp only [withStatement, After.bind_iff, After.get_iff, hr]

theorem withStatement_cases {x : StatementRef → Op Database α}
    (hnone : s.1.statements.find? name = none → Q (.error .statementClosed) s)
    (hsome : ∀ r, s.1.statements.find? name = some r → After (attemptOn r.database (x r)) s Q) :
    After (withStatement name x) s Q := by
  cases h : s.1.statements.find? name with
  | some r => exact (withStatement_iff h).2 (hsome r h)
  | none =>
    simpa only [withStatement, After.bind_iff, After.get_iff, h, After.pure_iff] using hnone h

theorem onParameter_iff {x : Parameter → Link → Op Statement Unit}
    {Q : Except Fault Unit → Session × World → Prop} {r : ParameterRef}
    (hr : s.1.parameters.find? name = some r) : After (onParameter name x) s Q ↔
      After (attemptOn r.database (Database.onStatement r.statement (x r.parameter))) s Q := by
  simp only [onParameter, After.bind_iff, After.get_iff, hr]

theorem onParameter_cases {x : Parameter → Link → Op Statement Unit}
    {Q : Except Fault Unit → Session × World → Prop}
    (hnone : s.1.parameters.find? name = none → Q (.error .statementClosed) s)
    (hsome : ∀ r, s.1.parameters.find? name = some r →
      After (attemptOn r.database (Database.onStatement r.statement (x r.parameter))) s Q) :
    After (onParameter name x) s Q := by
  cases h : s.1.parameters.find? name with
  | some r => exact (onParameter_iff h).2 (hsome r h)
  | none =>
    simpa only [onParameter, After.bind_iff, After.get_iff, h, After.pure_iff] using hnone h

/-- A cursor that was closed is refused in the same way as an empty handle. -/
theorem onCursor_cases {x : Nat → Link → Op Statement α}
    (hclosed : s.1.openCursor? name = none → Q (.error .cursorClosed) s)
    (hopen : ∀ r, s.1.cursors.find? name = some r → (s.1.cursor? r).isSome →
      After (attemptOn r.database (Database.atStatement r.statement (x r.number))) s Q) :
    After (onCursor name x) s Q := by
  unfold onCursor
  refine After.bind_iff.2 (After.get_iff.2 ?_)
  split
  · next h => exact After.pure_iff.2 (hclosed (by simp [openCursor?, h]))
  · next r h =>
    split
    · next ho => exact hopen r h ho
    · next ho =>
      have hnone : s.1.cursor? r = none := Option.not_isSome_iff_eq_none.1 ho
      exact After.pure_iff.2 (hclosed (by simp [openCursor?, h, hnone]))

end Work

/-! ## Following a relation -/

/-- A relation holds between the sessions before and after an action, wherever that starts. -/
def Follows (R : Session × World → Session × World → Prop) (x : SessionM α) : Prop :=
  ∀ s, After x s fun _ s' => R s s'

/-- A relation that can be put together, and to which changes of handles do not matter, other than
of handles of parameters, nor does what is written to the log. -/
structure Course (R : Session × World → Session × World → Prop) : Prop where
  refl : ∀ s, R s s
  trans : ∀ {s s' s''}, R s s' → R s' s'' → R s s''
  handles : ∀ {f : Session → Session}, (∀ s, (f s).backend = s.backend ∧
    (f s).opened = s.opened ∧ (f s).parameters = s.parameters) → Follows R (modify f)
  log : ∀ {n level text}, Follows R (onDatabase n () (Database.writeLog level text))

/-- Closing a cursor follows a relation. -/
def ClosesCursors (R : Session × World → Session × World → Prop) : Prop :=
  ∀ {n k m}, Follows R (attemptOn n (Database.atStatement k (Statement.closeCursor m)))

/-- Closing a statement follows a relation. -/
def ClosesStatements (R : Session × World → Session × World → Prop) : Prop :=
  ∀ {n k}, Follows R (onDatabase n (.ok ()) (Database.closeStatement k))

/-- Closing whatever a handle can hold follows a relation. -/
structure ClosesAll (R : Session × World → Session × World → Prop) : Prop where
  database : ∀ {n}, Follows R (onDatabase n (.ok ()) Database.close)
  transaction : ∀ {n t}, Follows R (onDatabase n (.ok ()) (Database.rollbackThrough t))
  statement : ClosesStatements R
  cursor : ClosesCursors R

namespace Course

variable {R : Session × World → Session × World → Prop} (hR : Course R)

include hR

protected theorem pure (a : α) : Follows R (pure a) := fun s => After.pure_iff.2 (hR.refl s)

protected theorem get : Follows R (getThe Session) := fun s => After.get_iff.2 (hR.refl s)

protected theorem bind {x : SessionM α} {f : α → SessionM β} (hx : Follows R x)
    (hf : ∀ a, Follows R (f a)) : Follows R (x >>= f) :=
  fun s => After.seq (hx s) fun a s₁ h₁ => (hf a s₁).mono fun _ _ h₂ => hR.trans h₁ h₂

/-- What is done depends on the session that is looked at. -/
theorem look {f : Session → SessionM α} (hf : ∀ s, Follows R (f s)) :
    Follows R (getThe Session >>= f) :=
  hR.bind hR.get hf

/-- What is answered in the end does not matter. -/
theorem reply {x : SessionM α} {f : α → β} (hx : Follows R x) : Follows R (do return f (← x)) :=
  hR.bind hx fun _ => hR.pure _

protected theorem complain {level : LogLevel} {note : Bytes} {r : Except Fault Unit} :
    Follows R (complain n level note r) := by
  unfold complain
  cases r with
  | ok _ => exact hR.pure _
  | error f => exact hR.log

protected theorem deliver {put : Option α → SessionM Unit} (hput : ∀ r, Follows R (put r))
    (r : Except Fault α) : Follows R (deliver put r) :=
  hR.bind (hput _) fun _ => hR.pure _

/-! ### Cursors -/

section Cursors

variable (hclose : ClosesCursors R)

include hclose

protected theorem closeCursorOf {r : CursorRef} : Follows R (closeCursorOf r) := by
  unfold closeCursorOf
  refine hR.look fun s => ?_
  split
  · exact hclose
  · exact hR.pure _

protected theorem setCursor {r : Option CursorRef} : Follows R (setCursor name r) := by
  unfold setCursor releaseCursor
  refine hR.look fun s => ?_
  dsimp only
  split
  · exact hR.bind (hR.bind (hR.closeCursorOf hclose) fun _ => hR.complain)
      fun _ => hR.handles fun _ => ⟨rfl, rfl, rfl⟩
  · exact hR.handles fun _ => ⟨rfl, rfl, rfl⟩

theorem deliverCursor {x : SessionM (Except Fault CursorRef)} (hx : Follows R x) :
    Follows R (do deliver (setCursor target) (← x)) :=
  hR.bind hx (hR.deliver fun _ => hR.setCursor hclose)

end Cursors

/-! ### Statements -/

section Statements

variable (hclose : ClosesStatements R)

include hclose

protected theorem setStatement {r : Option StatementRef} : Follows R (setStatement name r) := by
  unfold setStatement releaseStatement
  refine hR.look fun s => ?_
  dsimp only
  split
  · exact hR.bind (hR.bind hclose fun _ => hR.complain)
      fun _ => hR.handles fun _ => ⟨rfl, rfl, rfl⟩
  · exact hR.handles fun _ => ⟨rfl, rfl, rfl⟩

theorem deliverStatement {x : SessionM (Except Fault StatementRef)} (hx : Follows R x) :
    Follows R (do deliver (setStatement target) (← x)) :=
  hR.bind hx (hR.deliver fun _ => hR.setStatement hclose)

end Statements

/-! ### Everything that handles hold -/

variable (hclose : ClosesAll R)

include hclose

protected theorem releaseTransaction {r : TransactionRef} : Follows R (releaseTransaction r) :=
  hR.bind hclose.transaction fun _ => hR.complain

protected theorem abandonTransaction {r : TransactionRef} : Follows R (abandonTransaction r) := by
  unfold abandonTransaction
  refine hR.look fun s => ?_
  dsimp only
  split
  · split
    · exact hR.bind hR.log fun _ => hR.releaseTransaction hclose
    · exact hR.releaseTransaction hclose
  · exact hR.releaseTransaction hclose

protected theorem setDatabase {r : Option Nat} : Follows R (setDatabase name r) := by
  unfold setDatabase releaseDatabase
  refine hR.look fun s => ?_
  dsimp only
  split
  · exact hR.bind (hR.bind hclose.database fun _ => hR.complain)
      fun _ => hR.handles fun _ => ⟨rfl, rfl, rfl⟩
  · exact hR.handles fun _ => ⟨rfl, rfl, rfl⟩

protected theorem setTransaction {r : Option TransactionRef} :
    Follows R (setTransaction name r) := by
  unfold setTransaction
  refine hR.look fun s => ?_
  dsimp only
  split
  · exact hR.bind (hR.releaseTransaction hclose)
      fun _ => hR.handles fun _ => ⟨rfl, rfl, rfl⟩
  · exact hR.handles fun _ => ⟨rfl, rfl, rfl⟩

theorem deliverTransaction {x : SessionM (Except Fault TransactionRef)} (hx : Follows R x) :
    Follows R (do deliver (setTransaction target) (← x)) :=
  hR.bind hx (hR.deliver fun _ => hR.setTransaction hclose)

protected theorem closeDatabase : Follows R (closeDatabase name) := by
  unfold closeDatabase
  refine hR.look fun s => ?_
  split
  · exact hR.pure _
  · exact hR.bind (hR.handles fun _ => ⟨rfl, rfl, rfl⟩) fun _ => hclose.database

/-- Opening a database again comes after closing the one that the handle holds. -/
protected theorem connect {dsn : Option Bytes} {options : Options}
    (hestablish : ∀ dsn, Follows R (establish name dsn options)) :
    Follows R (connect name dsn options) := by
  unfold connect
  cases dsn with
  | none => exact hR.pure _
  | some dsn =>
    refine hR.bind (hR.closeDatabase hclose) fun r => ?_
    cases r with
    | error f => exact hR.pure _
    | ok _ => exact hestablish dsn

protected theorem rollbackThrough : Follows R (rollbackThrough name) := by
  unfold rollbackThrough
  refine hR.look fun s => ?_
  split
  · exact hR.pure _
  · exact hclose.transaction

protected theorem close {h : HandleName} : Follows R (close h) := by
  cases h with
  | database name => exact hR.closeDatabase hclose
  | statement name =>
    refine hR.look fun s => ?_
    split
    · exact hR.pure _
    · exact hR.bind (hR.handles fun _ => ⟨rfl, rfl, rfl⟩) fun _ => hclose.statement
  | cursor name =>
    refine hR.look fun s => ?_
    split
    · exact hR.pure _
    · exact hR.bind (hR.handles fun _ => ⟨rfl, rfl, rfl⟩)
        fun _ => hR.closeCursorOf hclose.cursor
  | transaction name | parameter name => exact hR.pure _

/-- Handles of parameters are emptied by themselves. -/
protected theorem drop {h : HandleName}
    (hparameter : ∀ name, h = .parameter name → Follows R (setParameter name none)) :
    Follows R (drop h) := by
  cases h with
  | database name => exact hR.setDatabase hclose
  | transaction name =>
    refine hR.look fun s => ?_
    dsimp only
    split
    · exact hR.bind (hR.abandonTransaction hclose)
        fun _ => hR.handles fun _ => ⟨rfl, rfl, rfl⟩
    · exact hR.handles fun _ => ⟨rfl, rfl, rfl⟩
  | statement name => exact hR.setStatement hclose.statement
  | parameter name => exact hparameter name rfl
  | cursor name => exact hR.setCursor hclose.cursor

/-- A parameter is moved by itself. -/
protected theorem move {h : HandleName}
    (hparameter : ∀ name (s : Session), h = .parameter name → Follows R do
      setParameter target (s.parameters.find? name)
      modify fun s => { s with parameters := s.parameters.erase name }) :
    Follows R (move h target) := by
  unfold move
  refine hR.look fun s => ?_
  cases h with
  | database name =>
    dsimp only
    split
    · exact hR.bind (hR.setDatabase hclose)
        fun _ => hR.handles fun _ => ⟨rfl, rfl, rfl⟩
    · exact hR.pure _
  | transaction name =>
    dsimp only
    split
    · exact hR.bind (hR.setTransaction hclose)
        fun _ => hR.handles fun _ => ⟨rfl, rfl, rfl⟩
    · exact hR.pure _
  | statement name =>
    dsimp only
    split
    · exact hR.bind (hR.setStatement hclose.statement)
        fun _ => hR.handles fun _ => ⟨rfl, rfl, rfl⟩
    · exact hR.pure _
  | parameter name =>
    dsimp only
    split
    · exact hparameter name s rfl
    · exact hR.pure _
  | cursor name =>
    dsimp only
    split
    · exact hR.bind (hR.setCursor hclose.cursor)
        fun _ => hR.handles fun _ => ⟨rfl, rfl, rfl⟩
    · exact hR.pure _

end Course

end SqlAccess.Session
