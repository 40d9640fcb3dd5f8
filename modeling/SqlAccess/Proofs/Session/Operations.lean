import SqlAccess.Proofs.Session.Change
import SqlAccess.Proofs.Session.Course

/-!
# Steps of a session go by changes

Every step leads a sound session by changes to where it ends (`carryOut_goes`). Most of what it
does goes the same way wherever it starts (`Goes`), and does so even where no statement may be
run; where statements are run it is said when (`execute_leads`, `runForCursor_leads`).
-/

namespace SqlAccess.Session

variable {α β : Type} {A : Nat → Database → Prop} {s s' : Session × World} {n : Nat}

/-! ## Putting actions together -/

/-- An action leads every sound session by changes. -/
def Goes (A : Nat → Database → Prop) (x : SessionM α) : Prop :=
  ∀ s, Sound s → After x s fun _ s' => Leads A s s'

theorem goes_pure (a : α) : Goes A (pure a) := fun _ _ => After.pure_iff.2 .refl

/-- Handles may be changed at any time. -/
theorem goes_modify {f : Session → Session} (hf : ∀ s, (f s).opened = s.opened) :
    Goes A (modify f) :=
  fun s _ => After.modify_iff.2 (.single (.handles (hf s.1) rfl))

/-- What is known of a session when it is looked at. -/
theorem goes_look {f : Session → SessionM α} (hf : ∀ s, Sound s → After (f s.1) s fun _ s' =>
    Leads A s s') : Goes A (getThe Session >>= f) :=
  fun s hs => After.bind_iff.2 (After.get_iff.2 (hf s hs))

/-- Work on a database, with what holds of it afterwards. -/
theorem onDatabase_after {x : StateT Database Act α} {otherwise : α}
    {Q : Database → α → Database × World → Prop} (hs : Sound s)
    (hx : ∀ d, s.1.opened.find? n = some d → d.Sound s.2.engine.history →
      After x (d, s.2) fun a s' => Database.Leads (A n) (d, s.2) s' ∧ Q d a s') :
    After (onDatabase n otherwise x) s fun a s' => Leads A s s' ∧
      ∀ d, s.1.opened.find? n = some d → ∃ d', s'.1.opened.find? n = some d' ∧
        Q d a (d', s'.2) := by
  refine onDatabase_cases (fun hnone => ⟨.refl, fun _ hd => nomatch hnone.symm.trans hd⟩)
    fun d hd => (hx d hd (hs.database n d hd)).mono fun _ (d', _) ⟨hl, hq⟩ =>
      ⟨.single (.changed hd hl rfl), fun e he => ?_⟩
  obtain rfl : d = e := Option.some.inj (hd.symm.trans he)
  exact ⟨d', Table.find?_modify_eq_some.2 (.inl ⟨rfl, d, hd, rfl⟩), hq⟩

theorem onDatabase_leads {x : StateT Database Act α} {otherwise : α} (hs : Sound s)
    (hx : ∀ d, s.1.opened.find? n = some d → d.Sound s.2.engine.history →
      After x (d, s.2) fun _ s' => Database.Leads (A n) (d, s.2) s') :
    After (onDatabase n otherwise x) s fun _ s' => Leads A s s' :=
  (onDatabase_after (Q := fun _ _ _ => True) hs fun d hd hsound =>
    (hx d hd hsound).mono fun _ _ h => ⟨h, trivial⟩).mono fun _ _ h => h.1

theorem goes_onDatabase {x : StateT Database Act α} {otherwise : α}
    (hx : ∀ d w, Database.Sound d w.engine.history →
      After x (d, w) fun _ s' => Database.Leads (A n) (d, w) s') :
    Goes A (onDatabase n otherwise x) :=
  fun s hs => onDatabase_leads hs fun d _ => hx d s.2

theorem goes_attemptOn {x : Op Database α}
    (hx : ∀ d w, Database.Sound d w.engine.history →
      After x.run (d, w) fun _ s' => Database.Leads (A n) (d, w) s') :
    Goes A (attemptOn n x) :=
  goes_onDatabase hx

/-! ## Giving up -/

theorem leads_course : Course fun s s' => Sound s → Leads A s s' where
  refl _ _ := .refl
  trans h h' hs := (h hs).trans (h' (Leads.sound (h hs) hs))
  handles hf := goes_modify fun s => (hf s).2.1
  log := goes_onDatabase fun _ _ _ => Database.writeLog_same.mono fun _ _ h => .of_same h

theorem leads_closes : ClosesAll fun s s' => Sound s → Leads A s s' where
  database := goes_onDatabase fun _ _ hs => (Database.close_after hs).mono fun _ _ h => h.1
  transaction := goes_onDatabase fun _ _ hs => Database.rollbackThrough_leads hs
  statement := goes_onDatabase fun _ _ hs =>
    (Database.closeStatement_after hs _).mono fun _ _ h => h.1.leads
  cursor := goes_attemptOn fun _ _ hs => Database.atStatement_leads fun z hz =>
    ((Statement.closeCursor_goes _ (hs.sane _ z hz)).and
      (Statement.closeCursor_after _)).mono fun _ _ h =>
        ⟨h.1, .inr (h.2.2.2.grown.mono fun _ _ hq => hq.2)⟩

theorem setParameter_goes {name : Bytes} {r : Option ParameterRef} :
    Goes A (setParameter name r) :=
  goes_modify fun _ => rfl

/-! ## Work on what a handle holds -/

section Work

variable {name target : Bytes}

theorem withDatabase_goes {x : Nat → Op Database α}
    (hx : ∀ n d w, Database.Sound d w.engine.history →
    After (x n).run (d, w) fun _ s' => Database.Leads (A n) (d, w) s') :
    Goes A (withDatabase name x) :=
  fun s hs => withDatabase_cases (fun _ => .refl) fun n _ => goes_attemptOn (hx n) s hs

theorem withTransaction_goes {x : TransactionRef → Op Database α}
    (hx : ∀ r d w, Database.Sound d w.engine.history →
      After (x r).run (d, w) fun _ s' => Database.Leads (A r.database) (d, w) s') :
    Goes A (withTransaction name x) :=
  fun s hs => withTransaction_cases (fun _ => .refl) fun r _ => goes_attemptOn (hx r) s hs

/-- Work on the database of a statement that the handle holds. -/
theorem withStatement_leads {x : StatementRef → Op Database α} (hs : Sound s)
    (hx : ∀ r d, s.1.statements.find? name = some r → s.1.opened.find? r.database = some d →
      d.Sound s.2.engine.history →
      After (x r).run (d, s.2) fun _ s' => Database.Leads (A r.database) (d, s.2) s') :
    After (withStatement name x) s fun _ s' => Leads A s s' :=
  withStatement_cases (fun _ => .refl) fun r hr => onDatabase_leads hs fun d => hx r d hr

theorem withStatement_goes {x : StatementRef → Op Database α}
    (hx : ∀ r d w, Database.Sound d w.engine.history →
      After (x r).run (d, w) fun _ s' => Database.Leads (A r.database) (d, w) s') :
    Goes A (withStatement name x) :=
  fun s hs => withStatement_leads hs fun r d _ _ => hx r d s.2

/-- Work on a statement may run it. -/
theorem onStatement_goes {x : Link → Op Statement α}
    (hx : ∀ l z w, Statement.Sane l.connection w.engine.history z →
      After (x l).run (z, w) fun _ s' => Statement.Goes l.connection (z, w) s') :
    Goes (fun _ _ => True) (onStatement name x) :=
  withStatement_goes fun _ d w hs => Database.onStatement_leads fun z hz _ =>
    (hx d.link z w (hs.sane _ z hz)).mono fun _ _ h => ⟨h, .inl trivial⟩

theorem onParameter_goes {x : Parameter → Link → Op Statement Unit}
    (hx : ∀ p l z w, Statement.Sane l.connection w.engine.history z →
      After (x p l).run (z, w) fun _ s' => Statement.Goes l.connection (z, w) s') :
    Goes (fun _ _ => True) (onParameter name x) :=
  fun s hs => onParameter_cases (fun _ => .refl) fun r _ =>
    onDatabase_leads hs fun d _ hsound => Database.onStatement_leads fun z hz _ =>
      (hx r.parameter d.link z s.2 (hsound.sane _ z hz)).mono fun _ _ h => ⟨h, .inl trivial⟩

theorem onCursor_goes {x : Nat → Link → Op Statement α}
    (hx : ∀ k l z w, Statement.Sane l.connection w.engine.history z →
      After (x k l).run (z, w) fun _ s' => Statement.Goes l.connection (z, w) s') :
    Goes (fun _ _ => True) (onCursor name x) :=
  fun s hs => onCursor_cases (fun _ => .refl) fun r _ _ =>
    onDatabase_leads hs fun d _ hsound => Database.atStatement_leads fun z hz =>
      (hx r.number d.link z s.2 (hsound.sane _ z hz)).mono fun _ _ h => ⟨h, .inl trivial⟩

/-! ## Databases and transactions -/

theorem establish_goes {dsn : Bytes} {options : Options} :
    Goes A (establish name dsn options) := by
  refine goes_look fun s _ => After.bind_iff.2 <| After.lift_iff.2 <|
    Database.connect_opened.mono fun r w ⟨ho, hd⟩ => ?_
  cases r with
  | error f => exact After.pure_iff.2 (.single (.failed ho rfl))
  | ok d =>
    obtain ⟨l, rfl, hc⟩ := hd d rfl
    exact After.bind_iff.2 <| After.modify_iff.2 <| After.pure_iff.2
      (.single (.opened ho hc rfl))

/-- What follows when the database of a handle was closed. -/
theorem reopen_goes {dsn : Bytes} {options : Options} (r : Except Fault Unit) :
    Goes A (match r with
      | .error f => return .error f
      | .ok () => establish name dsn options : SessionM (Except Fault Unit)) := by
  cases r with
  | error f => exact goes_pure _
  | ok _ => exact establish_goes

theorem begin_goes : Goes A (begin name) :=
  withDatabase_goes fun _ _ _ _ => Database.result_leads Database.begin_leads

theorem nest_goes : Goes A (nest name) :=
  withTransaction_goes fun _ _ _ _ => Database.result_leads Database.nest_leads

theorem prepare_goes {query : Option Query} : Goes A (prepare name query) :=
  withDatabase_goes fun _ _ _ _ => Database.result_leads <|
    Database.prepare_leads.mono fun _ _ h => h.1

theorem prepareIn_goes {query : Option Query} : Goes A (prepareIn name query) :=
  withTransaction_goes fun _ _ _ _ => Database.result_leads <|
    Database.prepare_leads.mono fun _ _ h => h.1

theorem resolve_goes {parameter : Option Bytes} :
    Goes (fun _ _ => True) (resolve name parameter) :=
  withStatement_goes fun _ _ _ hs => Database.result_leads <|
    Database.onStatement_leads fun z hz _ => (Statement.parameter_goes (hs.sane _ z hz)).mono
      fun _ _ h => ⟨h, .inl trivial⟩

/-! ## Running -/

/-- A statement is run for the number of changed rows while it may be run. -/
theorem execute_leads (hs : Sound s) (hA : ∀ r d z, s.1.statements.find? name = some r →
      s.1.opened.find? r.database = some d → d.Runnable r.number true z → A r.database d) :
    After (execute name) s fun _ s' => Leads A s s' :=
  withStatement_leads hs fun r d hr hd hsound =>
    Database.executeStatement_leads hsound fun z hz => hA r d z hr hd hz

/-- A statement is run for a cursor while it may be run. -/
theorem runForCursor_leads {writes : Bool} {x : Link → Op Statement Nat} (hs : Sound s)
    (hx : ∀ l z w, Statement.Sane l.connection w.engine.history z → z.isOpen →
      After (x l).run (z, w) fun _ s' => Statement.Goes l.connection (z, w) s')
    (hA : ∀ r d z, s.1.statements.find? name = some r → s.1.opened.find? r.database = some d →
      d.Runnable r.number writes z → A r.database d) :
    After (runForCursor name writes x) s fun _ s' => Leads A s s' := by
  refine withStatement_leads hs fun r d hr hd hsound => ?_
  refine After.try_seq Database.checkRunnable_after ?_ ?_
  · rintro _ a ⟨rfl, hz⟩
    obtain ⟨z, hz⟩ := hz rfl
    exact Database.result_leads <| Database.onStatement_leads fun y hy ho =>
      (hx d.link y s.2 (hsound.sane _ y hy) ho).mono fun _ _ h => ⟨h, .inl (hA r d z hr hd hz)⟩
  · rintro _ _ ⟨rfl, -⟩
    exact .refl

/-- A query is run once while its transaction may be used. -/
theorem executeOnce_leads {query : Option Query} (hs : Sound s)
    (hA : ∀ r d x, s.1.transactions.find? name = some r → Database.Ready d r.number x →
      A r.database d) :
    After (withTransaction name fun r => Database.executeOnce r.number query) s
      fun _ s' => Leads A s s' :=
  withTransaction_cases (fun _ => .refl) fun r hr => onDatabase_leads hs fun _ _ hsound =>
    Database.executeOnce_leads hsound fun d x hx => hA r d x hr hx

end Work

/-! ## Steps -/

/-- The transaction to which the statement of a handle belongs. -/
def owner? (s : Session) (name : Bytes) : Option TransactionRef := do
  let r ← s.statements.find? name
  let z ← s.statement? r.database r.number
  return { database := r.database, number := ← z.owner }

/-- The transaction in which a step runs a statement. -/
def executes (s : Session) : Step → Option TransactionRef
  | .update name | .execute name | .insert name _ | .query name _ => s.owner? name
  | .executeOnce name _ => s.transactions.find? name
  | _ => none

/-- A database is not the one of a transaction, or the transaction is ready. -/
def Running (r : TransactionRef) (n : Nat) (d : Database) : Prop :=
  n = r.database → ∃ x, d.Ready r.number x

/-- A statement that may be run is run while its transaction is ready. -/
theorem running_of_runnable {name : Bytes} {r : TransactionRef} {k : StatementRef} {d : Database}
    {z : Statement} {writes : Bool} (hr : s.1.owner? name = some r)
    (hk : s.1.statements.find? name = some k) (hd : s.1.opened.find? k.database = some d)
    (hz : d.Runnable k.number writes z) : Running r k.database d := by
  rintro -
  simp only [owner?, statement?, hk, hd, hz.statement, Option.bind_eq_bind, Option.bind_some,
    Option.pure_def, Option.bind_eq_some_iff, Option.some.injEq] at hr
  obtain ⟨t, ht, rfl⟩ := hr
  exact hz.owner t ht

/-- A step that runs a statement in a transaction runs none but while that is ready. -/
theorem carryOut_running {x : Step} {r : TransactionRef} (hs : Sound s)
    (hx : s.1.executes x = some r) :
    After (carryOut x) s fun _ s' => Leads (Running r) s s' := by
  have execute {name : Bytes} {f : Except Fault Int64 → Reply} (hr : s.1.owner? name = some r) :
      After (do return f (← execute name) : SessionM Reply) s fun _ s' =>
        Leads (Running r) s s' :=
    After.seq (execute_leads hs fun _ _ _ hk hd hz => running_of_runnable hr hk hd hz)
      fun _ _ h => After.pure_iff.2 h
  have delivered {target : Bytes} : ∀ a, Goes (Running r) (deliver (setCursor target) a) :=
    leads_course.deliver fun _ => leads_course.setCursor leads_closes.cursor
  cases x with
  | update name | execute name => exact execute hx
  | insert name target =>
    refine After.seq (runForCursor_leads hs (fun _ _ _ hz ho => Statement.insert_goes hz ho)
      fun _ _ _ hk hd hz => running_of_runnable hx hk hd hz) fun a s₁ h₁ => ?_
    exact (delivered a s₁ (Leads.sound h₁ hs)).mono fun _ _ h₂ => h₁.trans h₂
  | query name target =>
    refine After.seq (runForCursor_leads hs (fun _ _ _ hz ho => Statement.query_goes hz ho)
      fun _ _ _ hk hd hz => running_of_runnable hx hk hd hz) fun a s₁ h₁ => ?_
    exact (delivered a s₁ (Leads.sound h₁ hs)).mono fun _ _ h₂ => h₁.trans h₂
  | executeOnce name query =>
    refine After.seq (executeOnce_leads hs fun r' d y hr' hy => ?_) fun _ _ h => After.pure_iff.2 h
    obtain rfl : r' = r := Option.some.inj (hr'.symm.trans hx)
    exact fun _ => ⟨y, hy⟩
  | _ => cases hx

/-- Every step goes by changes. -/
theorem carryOut_goes {x : Step} : Goes (fun _ _ => True) (carryOut x) := by
  have plain {α : Type} {y : SessionM (Except Fault α)} (hy : Goes (fun _ _ => True) y) :
      Goes (fun _ _ => True) (do return .plain (← y) : SessionM Reply) :=
    leads_course.reply hy
  cases x with
  | connect name dsn options =>
    exact plain (leads_course.connect leads_closes fun _ => establish_goes)
  | begin name target => exact leads_course.deliverTransaction leads_closes begin_goes
  | nest name target => exact leads_course.deliverTransaction leads_closes nest_goes
  | commit name =>
    exact plain <| withTransaction_goes fun _ _ _ hs =>
      (Database.commit_after hs).mono fun _ _ h => h.1
  | rollback name =>
    exact plain <| withTransaction_goes fun _ _ _ hs =>
      (Database.rollback_after hs).mono fun _ _ h => h.1
  | rollbackThrough name => exact plain (leads_course.rollbackThrough leads_closes)
  | executeOnce name query =>
    exact plain fun _ hs => executeOnce_leads hs fun _ _ _ _ _ => trivial
  | prepare name query target =>
    exact leads_course.deliverStatement leads_closes.statement prepare_goes
  | prepareIn name query target =>
    exact leads_course.deliverStatement leads_closes.statement prepareIn_goes
  | bind name p v => exact plain <| onStatement_goes fun _ _ _ hz => Statement.bind_goes hz
  | bindList name p vs => exact plain <| onStatement_goes fun _ _ _ hz => Statement.bindList_goes hz
  | resolve name p target =>
    exact leads_course.bind resolve_goes (leads_course.deliver fun _ => setParameter_goes)
  | assign name v => exact plain <| onParameter_goes fun _ _ _ _ hz => Statement.assign_goes hz
  | assignList name vs =>
    exact plain <| onParameter_goes fun _ _ _ _ hz => Statement.assignList_goes hz
  | query name target =>
    refine leads_course.deliverCursor leads_closes.cursor fun _ hs =>
      runForCursor_leads hs ?_ fun _ _ _ _ _ _ => trivial
    exact fun _ _ _ hz ho => Statement.query_goes hz ho
  | insert name target =>
    refine leads_course.deliverCursor leads_closes.cursor fun _ hs =>
      runForCursor_leads hs ?_ fun _ _ _ _ _ _ => trivial
    exact fun _ _ _ hz ho => Statement.insert_goes hz ho
  | update name =>
    exact leads_course.reply fun _ hs => execute_leads hs fun _ _ _ _ _ _ => trivial
  | execute name =>
    exact leads_course.reply fun _ hs => execute_leads hs fun _ _ _ _ _ _ => trivial
  | seek name offset =>
    exact leads_course.reply (onCursor_goes fun _ _ _ _ hz => Statement.seek_goes hz)
  | read name column type ifNull | hasColumn name column | inspect h =>
    exact leads_course.reply leads_course.get
  | close h => exact plain (leads_course.close leads_closes)
  | drop h =>
    exact leads_course.reply (leads_course.drop leads_closes fun _ _ => setParameter_goes)
  | move h target =>
    exact leads_course.reply <| leads_course.move leads_closes fun _ _ _ =>
      leads_course.bind setParameter_goes fun _ => goes_modify fun _ => rfl

/-- What holds of the state after carrying out a step holds after the step. -/
theorem step_iff {x : Step} {Q : Session × World → Prop} :
    After (step x) s (fun _ s' => Q s') ↔ After (carryOut x) s fun _ s' => Q s' := Iff.rfl

/-- What holds of the reply and of the state after carrying out a step holds after the step. -/
theorem step_reply_iff {x : Step} {Q : Reply → Session × World → Prop} :
    After (step x) s (fun r s' => Q r.toReply s') ↔ After (carryOut x) s Q := Iff.rfl

end SqlAccess.Session
