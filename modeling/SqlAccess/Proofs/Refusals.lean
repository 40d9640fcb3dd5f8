import SqlAccess.Proofs.Database.Refusals
import SqlAccess.Proofs.Permission

/-!
# Refused steps

What a caller may not do is refused before anything is done: the step fails with the code that the
reason has, and the state is that before it, but for the handle that the result of the step would
have gone to, which is left empty (`Session.refused_unchanged`). `Session.Refusal` lists the
reasons: a transaction that has ended or has an open one in it, a statement, cursor or database that
is closed, a statement that may not write, and parameters that are not set as they are declared.
-/

namespace SqlAccess

namespace Session

variable {α : Type} {s : Session × World} {x : Step} {n k : Nat} {name target : Bytes}
  {d : Database}
  {z : Statement} {f : Fault} {r : TransactionRef} {q : StatementRef}

/-! ## The shape of a refused step -/

/-- Work of a session fails, and nothing has changed. -/
def Declines (x : SessionM (Except Fault α)) (f : Fault) (s : Session × World) : Prop :=
  After x s fun a s' => a = .error f ∧ s' = s

/-- Leave the handle empty that a step puts its result in. -/
def vacate : Step → SessionM Unit
  | .begin _ target | .nest _ target => setTransaction target none
  | .prepare _ _ target | .prepareIn _ _ target => setStatement target none
  | .resolve _ _ target => setParameter target none
  | .query _ target | .insert _ target => setCursor target none
  | _ => pure ()

/-- The handle that a step puts its result in is empty, if there is one. -/
def Vacant (s : Session) : Step → Prop
  | .begin _ target | .nest _ target => s.transactions.find? target = none
  | .prepare _ _ target | .prepareIn _ _ target => s.statements.find? target = none
  | .resolve _ _ target => s.parameters.find? target = none
  | .query _ target | .insert _ target => s.cursors.find? target = none
  | _ => True

/-- A step fails, and does nothing but to leave the handle for its result empty. -/
def Refused (x : Step) (f : Fault) (s : Session × World) : Prop :=
  After (carryOut x) s fun a s' => a.fault = some f ∧ s' = (outcome (vacate x) s).2

/-- What succeeds was done to a database that is there. -/
theorem attemptOn_ok {y : Op Database α} {Q : α → Session × World → Prop}
    (hy : ∀ d, s.1.opened.find? n = some d → After y.run (d, s.2) fun r b => ∀ a, r = .ok a →
      Q a ({ s.1 with opened := s.1.opened.modify n fun _ => b.1 }, b.2)) :
    After (attemptOn n y) s fun r s' => ∀ a, r = .ok a → Q a s' :=
  onDatabase_cases (fun _ _ => nofun) hy

theorem attemptOn_declines {y : Op Database α} (hd : s.1.opened.find? n = some d)
    (h : Denies y f (d, s.2)) : Declines (attemptOn n y) f s := by
  refine (attemptOn_iff hd).2 (h.mono ?_)
  rintro a _ ⟨rfl, rfl⟩
  refine ⟨rfl, ?_⟩
  dsimp only
  rw [Table.modify_of_find? hd]

theorem withDatabase_declines {y : Nat → Op Database α} (hn : s.1.databases.find? name = some n)
    (hd : s.1.opened.find? n = some d) (h : Denies (y n) f (d, s.2)) :
    Declines (withDatabase name y) f s :=
  (withDatabase_iff hn).2 (attemptOn_declines hd h)

theorem withTransaction_declines {y : TransactionRef → Op Database α}
    (hr : s.1.transactions.find? name = some r) (hd : s.1.opened.find? r.database = some d)
    (h : Denies (y r) f (d, s.2)) : Declines (withTransaction name y) f s :=
  (withTransaction_iff hr).2 (attemptOn_declines hd h)

theorem withStatement_declines {y : StatementRef → Op Database α}
    (hq : s.1.statements.find? name = some q) (hd : s.1.opened.find? q.database = some d)
    (h : Denies (y q) f (d, s.2)) : Declines (withStatement name y) f s :=
  (withStatement_iff hq).2 (attemptOn_declines hd h)

theorem withStatement_empty {y : StatementRef → Op Database α}
    (hq : s.1.statements.find? name = none) :
      Declines (withStatement name y) .statementClosed s :=
  withStatement_cases (fun _ => ⟨rfl, rfl⟩) fun _ h => nomatch hq.symm.trans h

theorem plain_refused {y : SessionM (Except Fault α)} {g : Except Fault α → Reply}
    (hg : (g (.error f)).fault = some f) (h : Declines y f s) :
    After (do return g (← y) : SessionM Reply) s fun a s' => a.fault = some f ∧ s' = s := by
  refine After.seq h ?_
  rintro _ _ ⟨rfl, rfl⟩
  exact After.pure_iff.2 ⟨hg, rfl⟩

theorem deliver_refused {y : SessionM (Except Fault α)} {put : Option α → SessionM Unit}
    (h : Declines y f s) : After (do deliver put (← y) : SessionM Reply) s fun a s' =>
      a.fault = some f ∧ s' = (outcome (put none) s).2 := by
  refine After.seq h fun a s' ha => ?_
  obtain ⟨rfl, rfl⟩ := ha
  have emptied : After (put none) s' fun _ s'' => s'' = (outcome (put none) s').2 := rfl
  exact After.seq emptied fun _ _ hs => After.pure_iff.2 ⟨rfl, hs⟩

theorem update_none {β : Type} {m : NameMap β} (hm : m.find? target = none) :
    m.update target none = m := by
  refine NameMap.ext_find? fun other => ?_
  rw [NameMap.find?_update]
  split
  · next ho => rw [ho, hm]
  · rfl

/-- An empty handle is left as it is. -/
theorem vacate_of_vacant (h : Vacant s.1 x) : (outcome (vacate x) s).2 = s := by
  suffices After (vacate x) s fun _ s' => s' = s from this
  cases x with
  | begin name target | nest name target =>
    have hm : s.1.transactions.find? target = none := h
    refine After.bind_iff.2 (After.get_iff.2 ?_)
    rw [hm]
    exact After.modify_iff.2 (by rw [update_none hm])
  | prepare name query target | prepareIn name query target =>
    have hm : s.1.statements.find? target = none := h
    refine After.bind_iff.2 (After.get_iff.2 ?_)
    rw [hm]
    exact After.modify_iff.2 (by rw [update_none hm])
  | resolve name parameter target =>
    have hm : s.1.parameters.find? target = none := h
    exact After.modify_iff.2 (by rw [update_none hm])
  | query name target | insert name target =>
    have hm : s.1.cursors.find? target = none := h
    refine After.bind_iff.2 (After.get_iff.2 ?_)
    rw [hm]
    exact After.modify_iff.2 (by rw [update_none hm])
  | _ => exact After.pure_iff.2 rfl

/-! ## Steps on transactions -/

/-- The transaction that a step ends, nests another one in, or runs something in. -/
def transactionOf? : Step → Option Bytes
  | .commit name | .rollback name | .nest name _ | .prepareIn name _ _ | .executeOnce name _ =>
    some name
  | _ => none

/-- Whether a step asks first of all whether the database is open. -/
def asksOpen : Step → Bool
  | .prepareIn _ _ _ | .executeOnce _ _ => true
  | _ => false

/-- A transaction that refuses whatever is attempted refuses every step. -/
theorem refused_of_active {g : Attempt → Fault} (hx : transactionOf? x = some name)
    (hr : s.1.transactions.find? name = some r) (hd : s.1.opened.find? r.database = some d)
    (ho : asksOpen x → d.isOpen)
    (h : ∀ attempt, Denies (Database.active attempt r.number) (g attempt) (d, s.2)) :
    ∃ attempt, Refused x (g attempt) s := by
  cases x with
  | commit name' =>
    obtain rfl := Option.some.inj hx
    exact ⟨.commit, plain_refused rfl
      (withTransaction_declines hr hd (Database.commit_denies (h _)))⟩
  | rollback name' =>
    obtain rfl := Option.some.inj hx
    exact ⟨.rollback,
      plain_refused rfl (withTransaction_declines hr hd (Database.rollback_denies (h _)))⟩
  | nest name' target =>
    obtain rfl := Option.some.inj hx
    exact ⟨.use, deliver_refused (withTransaction_declines hr hd (Database.nest_denies (h _)).bind)⟩
  | prepareIn name' query target =>
    obtain rfl := Option.some.inj hx
    exact ⟨.use, deliver_refused
      (withTransaction_declines hr hd (Database.prepare_denies (ho rfl) (h _)).bind)⟩
  | executeOnce name' query =>
    obtain rfl := Option.some.inj hx
    exact ⟨.use,
      plain_refused rfl (withTransaction_declines hr hd
        (Database.executeOnce_denies (ho rfl) (h _)))⟩
  | _ => cases hx

/-! ## Steps on statements -/

/-- The statement that a step runs, and whether it is to write. -/
def runOf? : Step → Option (Bytes × Bool)
  | .query name _ => some (name, false)
  | .insert name _ | .update name | .execute name => some (name, true)
  | _ => none

/-- The statement that a step sets or resolves a parameter of, and how it names that. -/
def namedOf? : Step → Option (Bytes × Option Bytes)
  | .bind name p _ | .bindList name p _ | .resolve name p _ => some (name, p)
  | _ => none

/-- The resolved parameter that a step sets. -/
def assignOf? : Step → Option Bytes
  | .assign name _ | .assignList name _ => some name
  | _ => none

/-- A statement is open. -/
def OpenAt (s : Session) (n k : Nat) (d : Database) (z : Statement) : Prop :=
  s.opened.find? n = some d ∧ d.openStatement? k = some z

theorem OpenAt.eq {s : Session} {d' : Database} {z' : Statement} (h : OpenAt s n k d z)
    (hd : s.opened.find? n = some d') (hk : d'.statements.find? k = some z') : d = d' ∧ z = z' := by
  obtain rfl : d = d' := Option.some.inj (h.1.symm.trans hd)
  exact ⟨rfl, Option.some.inj ((Database.openStatement?_eq_some h.2).1.symm.trans hk)⟩

/-- A statement is closed. -/
def ClosedAt (s : Session) (n k : Nat) : Prop :=
  ∃ d, s.opened.find? n = some d ∧ d.openStatement? k = none

/-- A step sets a parameter of an open statement to one value. -/
inductive SetsOne (s : Session) (p : Parameter) : Step → Prop
  | bind {name spelled : Bytes} {q : StatementRef} {d : Database} {z : Statement} {v : Value} :
      s.statements.find? name = some q → OpenAt s q.database q.number d z →
      Parameter.resolve d.link.options.accessors z.descriptor spelled = .ok p →
      SetsOne s p (.bind name (some spelled) v)
  | assign {name : Bytes} {r : ParameterRef} {d : Database} {z : Statement} {v : Value} :
      s.parameters.find? name = some r → OpenAt s r.database r.statement d z → r.parameter = p →
      SetsOne s p (.assign name v)

/-- A step sets a parameter of an open statement to a list. -/
inductive SetsMany (s : Session) (p : Parameter) (vs : List Value) : Step → Prop
  | bindList {name spelled : Bytes} {q : StatementRef} {d : Database} {z : Statement} :
      s.statements.find? name = some q → OpenAt s q.database q.number d z →
      Parameter.resolve d.link.options.accessors z.descriptor spelled = .ok p →
      SetsMany s p vs (.bindList name (some spelled) vs)
  | assignList {name : Bytes} {r : ParameterRef} {d : Database} {z : Statement} :
      s.parameters.find? name = some r → OpenAt s r.database r.statement d z → r.parameter = p →
      SetsMany s p vs (.assignList name vs)

/-- A statement that may not run refuses every step that runs it. -/
theorem refused_of_checkRunnable {writes : Bool} (hx : runOf? x = some (name, writes))
    (hq : s.1.statements.find? name = some q) (hd : s.1.opened.find? q.database = some d)
    (h : Denies (Database.checkRunnable q.number writes) f (d, s.2)) : Refused x f s := by
  cases x with
  | query name' target | insert name' target =>
    cases hx
    exact deliver_refused (withStatement_declines hq hd h.bind)
  | update name' | execute name' =>
    cases hx
    exact plain_refused rfl (withStatement_declines hq hd h.bind)
  | _ => cases hx

/-- An empty handle refuses every step on its statement. -/
theorem refused_of_empty
    (hx : (∃ p, namedOf? x = some (name, p)) ∨ ∃ writes, runOf? x = some (name, writes))
    (hq : s.1.statements.find? name = none) : Refused x .statementClosed s := by
  cases x with
  | query name' target | insert name' target | resolve name' p target =>
    obtain ⟨_, hx⟩ | ⟨_, hx⟩ := hx <;> cases hx
    exact deliver_refused (withStatement_empty hq)
  | update name' | execute name' | bind name' p v | bindList name' p vs =>
    obtain ⟨_, hx⟩ | ⟨_, hx⟩ := hx <;> cases hx
    exact plain_refused rfl (withStatement_empty hq)
  | _ => obtain ⟨_, hx⟩ | ⟨_, hx⟩ := hx <;> cases hx

/-- A closed statement refuses every step on it. -/
theorem refused_of_closed
    (hx : (∃ p, namedOf? x = some (name, p)) ∨ ∃ writes, runOf? x = some (name, writes))
    (hq : s.1.statements.find? name = some q) (hz : ClosedAt s.1 q.database q.number) :
    Refused x .statementClosed s := by
  obtain ⟨d, hd, hk⟩ := hz
  obtain ⟨p, hx⟩ | ⟨writes, hx⟩ := hx
  · cases x with
    | bind name' p v | bindList name' p vs =>
      cases hx
      exact plain_refused rfl (withStatement_declines hq hd (Database.onStatement_closed hk))
    | resolve name' p target =>
      cases hx
      exact deliver_refused (withStatement_declines hq hd (Database.onStatement_closed hk).bind)
    | _ => cases hx
  · exact refused_of_checkRunnable hx hq hd (Database.checkRunnable_closed hk)

/-! ## Steps on parameters -/

theorem onParameter_declines {y : Parameter → Link → Op Statement Unit} {r : ParameterRef}
    (hr : s.1.parameters.find? name = some r) (hd : s.1.opened.find? r.database = some d)
    (h : Denies (Database.onStatement r.statement (y r.parameter)) f (d, s.2)) :
    Declines (onParameter name y) f s :=
  (onParameter_iff hr).2 (attemptOn_declines hd h)

theorem onParameter_empty {y : Parameter → Link → Op Statement Unit}
    (hr : s.1.parameters.find? name = none) : Declines (onParameter name y) .statementClosed s :=
  onParameter_cases (fun _ => ⟨rfl, rfl⟩) fun _ h => nomatch hr.symm.trans h

/-- A parameter is refused if it is empty or its statement is closed. -/
theorem refused_of_unassignable (hx : assignOf? x = some name)
    (hz : ∀ r, s.1.parameters.find? name = some r → ClosedAt s.1 r.database r.statement) :
    Refused x .statementClosed s := by
  have declined (y : Parameter → Link → Op Statement Unit) :
      Declines (onParameter name y) .statementClosed s := by
    cases hr : s.1.parameters.find? name with
    | none => exact onParameter_empty hr
    | some r =>
      obtain ⟨d, hd, hk⟩ := hz r hr
      exact onParameter_declines hr hd (Database.onStatement_closed hk)
  cases x with
  | assign name' v | assignList name' vs =>
    cases hx
    exact plain_refused rfl (declined _)
  | _ => cases hx

/-- A name that cannot be resolved is refused, whatever it is to be set to. -/
theorem refused_of_unresolved {p : Option Bytes} (hx : namedOf? x = some (name, p))
    (hq : s.1.statements.find? name = some q) (hz : OpenAt s.1 q.database q.number d z)
    (h : Denies (Statement.parameter p d.link) f (z, s.2)) : Refused x f s := by
  obtain ⟨hd, hk⟩ := hz
  cases x with
  | bind name' p' v | bindList name' p' vs =>
    cases hx
    exact plain_refused rfl
      (withStatement_declines hq hd (Database.onStatement_denies hk h.bind))
  | resolve name' p' target =>
    cases hx
    exact deliver_refused (withStatement_declines hq hd (Database.onStatement_denies hk h).bind)
  | _ => cases hx

theorem SetsOne.refused {p : Parameter} (hx : SetsOne s.1 p x)
    (h : ∀ v, p.assign v = .error f) : Refused x f s := by
  cases hx with
  | bind hq hz hp =>
    obtain ⟨hd, hk⟩ := hz
    exact plain_refused rfl (withStatement_declines hq hd (Database.onStatement_denies hk
      ((Statement.parameter_resolved hp).bind (Statement.assign_denies (h _)))))
  | assign hr hz hp =>
    obtain ⟨hd, hk⟩ := hz
    subst hp
    exact plain_refused rfl (onParameter_declines hr hd (Database.onStatement_denies hk
      (Statement.assign_denies (h _))))

theorem SetsMany.refused {p : Parameter} {vs : List Value} (hx : SetsMany s.1 p vs x)
    (h : p.assignList vs = .error f) : Refused x f s := by
  cases hx with
  | bindList hq hz hp =>
    obtain ⟨hd, hk⟩ := hz
    exact plain_refused rfl (withStatement_declines hq hd (Database.onStatement_denies hk
      ((Statement.parameter_resolved hp).bind (Statement.assignList_denies h))))
  | assignList hr hz hp =>
    obtain ⟨hd, hk⟩ := hz
    subst hp
    exact plain_refused rfl (onParameter_declines hr hd (Database.onStatement_denies hk
      (Statement.assignList_denies h)))

/-! ## Steps on databases and cursors -/

/-- The database that a step begins a transaction or prepares a statement on. -/
def databaseOf? : Step → Option Bytes
  | .begin name _ | .prepare name _ _ => some name
  | _ => none

/-- The cursor that a step moves or reads. -/
def cursorOf? : Step → Option Bytes
  | .seek name _ | .read name _ _ _ => some name
  | _ => none

theorem withDatabase_empty {y : Nat → Op Database α} (hn : s.1.databases.find? name = none) :
    Declines (withDatabase name y) .notOpen s := by
  refine After.bind_iff.2 (After.get_iff.2 ?_)
  rw [hn]
  exact After.pure_iff.2 ⟨rfl, rfl⟩

/-- A database handle is refused if it is empty or the database is closed. -/
theorem refused_of_databaseClosed (hx : databaseOf? x = some name)
    (hd : ∀ n, s.1.databases.find? name = some n →
      ∃ d, s.1.opened.find? n = some d ∧ d.isOpen = false) : Refused x .notOpen s := by
  cases x with
  | begin name' target =>
    cases hx
    cases hn : s.1.databases.find? name with
    | none => exact deliver_refused (withDatabase_empty hn)
    | some n =>
      obtain ⟨d, hd, ho⟩ := hd n hn
      exact deliver_refused (withDatabase_declines hn hd (Database.begin_closed ho).bind)
  | prepare name' query target =>
    cases hx
    cases hn : s.1.databases.find? name with
    | none => exact deliver_refused (withDatabase_empty hn)
    | some n =>
      obtain ⟨d, hd, ho⟩ := hd n hn
      exact deliver_refused (withDatabase_declines hn hd (Database.prepare_closed ho).bind)
  | _ => cases hx

/-- A cursor handle is refused if it holds no open cursor. -/
theorem refused_of_cursorClosed (hx : cursorOf? x = some name)
    (hc : s.1.openCursor? name = none) : Refused x .cursorClosed s := by
  cases x with
  | seek name' offset =>
    cases hx
    refine plain_refused rfl (After.bind_iff.2 (After.get_iff.2 ?_))
    cases hr : s.1.cursors.find? name with
    | none => exact After.pure_iff.2 ⟨rfl, rfl⟩
    | some r =>
      have hnone : s.1.cursor? r = none := by simpa [openCursor?, hr] using hc
      dsimp only
      rw [hnone]
      exact After.pure_iff.2 ⟨rfl, rfl⟩
  | read name' column type ifNull =>
    cases hx
    refine After.bind_iff.2 (After.get_iff.2 (After.pure_iff.2 ⟨?_, rfl⟩))
    simp only [Session.read, hc]
    rfl
  | _ => cases hx

/-! ## What is refused -/

/-- A step is to be refused with an error of some kind. -/
inductive Refusal (s : Session) : Step → ErrorKind → Prop
  /-- The transaction has ended. -/
  | ended {x : Step} {name : Bytes} {r : TransactionRef} {d : Database} {t : Transaction}
      {how : SqlAccess.Ended} :
      transactionOf? x = some name → s.transactions.find? name = some r →
      s.opened.find? r.database = some d → d.transactions.find? r.number = some t →
      t.ended = some how → (asksOpen x → d.isOpen) → Refusal s x .inactive
  /-- Another transaction is open in the transaction. -/
  | shadowed {x : Step} {name : Bytes} {r : TransactionRef} {d : Database} {child : Nat} :
      transactionOf? x = some name → s.transactions.find? name = some r →
      s.opened.find? r.database = some d → d.openChild? r.number = some child →
      Refusal s x .misuse
  /-- Another transaction is open in the transaction of the statement. -/
  | ownerShadowed {x : Step} {name : Bytes} {writes : Bool} {q : StatementRef} {d : Database}
      {z : Statement} {t child : Nat} :
      runOf? x = some (name, writes) → s.statements.find? name = some q →
      OpenAt s q.database q.number d z → z.owner = some t → d.openChild? t = some child →
      Refusal s x .misuse
  /-- The handle holds no open statement. -/
  | statementClosed {x : Step} {name : Bytes} :
      ((∃ p, namedOf? x = some (name, p)) ∨ ∃ writes, runOf? x = some (name, writes)) →
      (∀ q, s.statements.find? name = some q → ClosedAt s q.database q.number) →
      Refusal s x .closed
  /-- The handle holds no parameter of an open statement. -/
  | parameterClosed {x : Step} {name : Bytes} :
      assignOf? x = some name →
      (∀ r, s.parameters.find? name = some r → ClosedAt s r.database r.statement) →
      Refusal s x .closed
  /-- The handle holds no open cursor. -/
  | cursorClosed {x : Step} {name : Bytes} :
      cursorOf? x = some name → s.openCursor? name = none → Refusal s x .closed
  /-- The statement is to write and belongs to no transaction. -/
  | unbound {x : Step} {name : Bytes} {q : StatementRef} {d : Database} {z : Statement} :
      runOf? x = some (name, true) → s.statements.find? name = some q →
      OpenAt s q.database q.number d z → z.owner = none → Refusal s x .readOnly
  /-- The handle holds no open database. -/
  | databaseClosed {x : Step} {name : Bytes} :
      databaseOf? x = some name →
      (∀ n, s.databases.find? name = some n →
        ∃ d, s.opened.find? n = some d ∧ d.isOpen = false) →
      Refusal s x .notOpen
  /-- The database is for reading only. -/
  | readOnlyDatabase {name target : Bytes} {n : Nat} {d : Database} :
      s.databases.find? name = some n → s.opened.find? n = some d → d.isOpen →
      d.link.options.readOnly → Refusal s (.begin name target) .readOnly
  /-- A transaction is open on the database. -/
  | alreadyOpen {name target : Bytes} {n root : Nat} {d : Database} :
      s.databases.find? name = some n → s.opened.find? n = some d → d.root = some root →
      d.isActive root → Refusal s (.begin name target) .misuse
  /-- The statement declares no keys. -/
  | noKeys {name target : Bytes} {q : StatementRef} {d : Database} {z : Statement} {t : Nat}
      {y : Transaction} :
      s.statements.find? name = some q → OpenAt s q.database q.number d z → z.owner = some t →
      d.Ready t y → z.descriptor.declarations.keys.entries.isEmpty →
      Refusal s (.insert name target) .misuse
  /-- A parameter is not named. -/
  | unnamed {x : Step} {name : Bytes} {q : StatementRef} {d : Database} {z : Statement} :
      namedOf? x = some (name, none) → s.statements.find? name = some q →
      OpenAt s q.database q.number d z → Refusal s x .nullParam
  /-- A parameter is not declared. -/
  | undeclared {x : Step} {name p shown : Bytes} {q : StatementRef} {d : Database}
      {z : Statement} :
      namedOf? x = some (name, some p) → s.statements.find? name = some q →
      OpenAt s q.database q.number d z →
      Parameter.resolve d.link.options.accessors z.descriptor p =
        .error (.undeclaredParameter shown) →
      Refusal s x .noType
  /-- Nothing can set the type of a parameter. -/
  | unsettable {x : Step} {name p shown : Bytes} {type : ValueType} {role : Role}
      {q : StatementRef} {d : Database} {z : Statement} :
      namedOf? x = some (name, some p) → s.statements.find? name = some q →
      OpenAt s q.database q.number d z →
      Parameter.resolve d.link.options.accessors z.descriptor p =
        .error (.noAccessor type role shown) →
      Refusal s x .noAccessor
  /-- A list parameter is to be set to one value. -/
  | listNeeded {x : Step} {p : Parameter} : SetsOne s p x → p.isList → Refusal s x .misuse
  /-- A parameter that takes one value is to be set to a list. -/
  | scalarNeeded {x : Step} {p : Parameter} {vs : List Value} :
      SetsMany s p vs x → p.isList = false → Refusal s x .misuse
  /-- A list parameter is to be set to a list that is too short or too long. -/
  | wrongLength {x : Step} {p : Parameter} {vs : List Value} :
      SetsMany s p vs x → p.isList → vs.length ≠ p.listSize → Refusal s x .range

/-- A transaction with another one open in it is open itself, on an open database. -/
theorem Sound.enclosing (hs : Sound s) (hd : s.1.opened.find? n = some d) {t child : Nat}
    (hc : d.openChild? t = some child) :
    ∃ y, d.transactions.find? t = some y ∧ y.ended = none ∧ d.isOpen := by
  have hsound := hs.database n d hd
  obtain ⟨y, z, m, hy, -, hz, hzo, horigin⟩ := hsound.linked.of_openChild? hc
  obtain ⟨-, -, y', hy', -, hopen⟩ := hsound.linked.nested child z t m hz horigin
  obtain rfl : y = y' := Option.some.inj (hy.symm.trans hy')
  exact ⟨y, hy, (hopen hzo).1, hsound.owned.transaction child z hz hzo⟩

/-- An open statement is on an open database. -/
theorem Sound.isOpen_of_openAt (hs : Sound s) (hz : OpenAt s.1 n k d z) : d.isOpen := by
  obtain ⟨hk, ho⟩ := Database.openStatement?_eq_some hz.2
  exact ((hs.database n d hz.1).owned.listed k z hk ho).1

theorem Refusal.refused {kind : ErrorKind} (h : Refusal s.1 x kind) (hr : Reachable s) :
    ∃ f, f.kind = kind ∧ Refused x f s := by
  have hs := hr.sound
  cases h with
  | ended hx hname hd ht he ho =>
    obtain ⟨attempt, h⟩ := refused_of_active hx hname hd ho fun _ => Database.active_ended ht he
    exact ⟨_, rfl, h⟩
  | shadowed hx hname hd hc =>
    obtain ⟨y, hy, hyo, ho⟩ := hs.enclosing hd hc
    obtain ⟨attempt, h⟩ := refused_of_active hx hname hd (fun _ => ho) fun _ =>
      Database.active_shadowed hy hyo (Option.isSome_of_eq_some hc)
    exact ⟨_, rfl, h⟩
  | ownerShadowed hx hname hz howner hc =>
    obtain ⟨y, hy, hyo, ho⟩ := hs.enclosing hz.1 hc
    exact ⟨_, rfl, refused_of_checkRunnable hx hname hz.1
      (Database.checkRunnable_denies hz.2 ho howner
      (Database.active_shadowed hy hyo (Option.isSome_of_eq_some hc)))⟩
  | @statementClosed _ name hx hz =>
    refine ⟨.statementClosed, rfl, ?_⟩
    cases hname : s.1.statements.find? name with
    | none => exact refused_of_empty hx hname
    | some q => exact refused_of_closed hx hname (hz q hname)
  | parameterClosed hx hz => exact ⟨_, rfl, refused_of_unassignable hx hz⟩
  | cursorClosed hx hc => exact ⟨_, rfl, refused_of_cursorClosed hx hc⟩
  | unbound hx hname hz howner =>
    exact ⟨_, rfl, refused_of_checkRunnable hx hname hz.1
      (Database.checkRunnable_unbound hz.2 (hs.isOpen_of_openAt hz) howner)⟩
  | databaseClosed hx hd => exact ⟨_, rfl, refused_of_databaseClosed hx hd⟩
  | readOnlyDatabase hn hd ho hread =>
    exact ⟨_, rfl, deliver_refused
      (withDatabase_declines hn hd (Database.begin_readOnly ho hread).bind)⟩
  | @alreadyOpen name target n root d hn hd hroot hactive =>
    obtain ⟨y, hy, hyo⟩ := Database.isActive_iff.1 hactive
    have ho := (hs.database n d hd).owned.transaction root y hy hyo
    -- no transaction was ever begun on a database for reading only
    have hread : d.link.options.readOnly = false := by
      refine Bool.eq_false_iff.2 fun hread => ?_
      have hlt := Table.lt_next hy
      rw [hr.readOnly n d hd hread] at hlt
      omega
    exact ⟨_, rfl, deliver_refused (withDatabase_declines hn hd
      (Database.begin_alreadyOpen ho hread (by rw [hroot]; exact hactive)).bind)⟩
  | noKeys hname hz howner hready hkeys =>
    have ho := hs.isOpen_of_openAt hz
    exact ⟨_, rfl, deliver_refused (withStatement_declines hname hz.1
      ((Database.checkRunnable_grants hz.2 ho howner hready).bind
        (Database.onStatement_denies hz.2 (Statement.insert_denies hkeys)).bind))⟩
  | unnamed hx hname hz =>
    exact ⟨_, rfl, refused_of_unresolved hx hname hz Statement.parameter_unnamed⟩
  | undeclared hx hname hz hp =>
    exact ⟨_, rfl, refused_of_unresolved hx hname hz (Statement.parameter_unresolved hp)⟩
  | unsettable hx hname hz hp =>
    exact ⟨_, rfl, refused_of_unresolved hx hname hz (Statement.parameter_unresolved hp)⟩
  | listNeeded hx hlist => exact ⟨_, rfl, hx.refused fun _ => if_pos hlist⟩
  | @scalarNeeded _ p vs hx hlist =>
    refine ⟨.scalarNeeded p.name, rfl, hx.refused ?_⟩
    rw [Parameter.assignList, hlist]
    rfl
  | @wrongLength _ p vs hx hlist hlength =>
    rw [Parameter.listSize, if_pos hlist] at hlength
    refine ⟨.wrongLength p.name p.destinations.length vs.length, rfl, hx.refused ?_⟩
    rw [Parameter.assignList, hlist, if_neg (by simp), if_pos hlength]

theorem since_length {β : Type} (l : List β) : since l.length l = [] := by simp [since]

/-- A step that is to be refused fails with the kind of error that is due, and what it leaves behind
is the state before it with the handle for its result emptied. Where that was empty before, or there
is none, the state is that before the step: no engine call was made, and no line was logged. -/
theorem refused_unchanged {kind : ErrorKind} (hr : Reachable s) (h : Refusal s.1 x kind) :
    After (step x) s fun a s' => (∃ f, a.fault = some f ∧ f.kind = kind) ∧
      s' = (outcome (vacate x) s).2 ∧
      (Vacant s.1 x → a.calls = [] ∧ a.log = [] ∧ s' = s) := by
  obtain ⟨f, hkind, href⟩ := h.refused hr
  suffices hreport : After (carryOut x) s fun a s' => (∃ f, a.fault = some f ∧ f.kind = kind) ∧
      s' = (outcome (vacate x) s).2 ∧
      (Vacant s.1 x → since s.2.engine.history.length s'.2.engine.history = [] ∧
        since s.2.log.length s'.2.log = [] ∧ s' = s) from hreport
  refine href.mono ?_
  rintro a s' ⟨hfault, hs'⟩
  refine ⟨⟨f, hfault, hkind⟩, hs', fun hv => ?_⟩
  obtain rfl : s' = s := hs'.trans (vacate_of_vacant hv)
  exact ⟨since_length _, since_length _, rfl⟩

/-- A transaction is not committed while another one is open in it. -/
theorem commit_refused_while_nested :
    After (step (.commit "t")) (permissionTrial [.nest "t" "u"]) fun a s' =>
      (∃ f, a.fault = some f ∧ f.kind = .misuse) ∧ a.calls = [] ∧ a.log = [] ∧
        s' = permissionTrial [.nest "t" "u"] := by
  have hr : Reachable (permissionTrial [.nest "t" "u"]) :=
    (run_later _).reachable (.start .sqlite "3.40.0" [] [])
  have hname : (permissionTrial [.nest "t" "u"]).1.transactions.find? "t" = some ⟨0, 0⟩ := by
    decide +kernel
  have hchild : ((permissionTrial [.nest "t" "u"]).1.opened.find? 0).map (·.openChild? 0) =
      some (some 1) := by decide +kernel
  obtain ⟨d, hd, hc⟩ := Option.map_eq_some_iff.1 hchild
  refine (refused_unchanged hr (.shadowed rfl hname hd hc)).mono ?_
  rintro a s' ⟨hf, -, hsame⟩
  exact ⟨hf, hsame trivial⟩

end Session

end SqlAccess
