import SqlAccess.Proofs.Database.Tasks
import SqlAccess.Proofs.Session.Reachable

/-!
# What a step does to statements

A step of a session is a sequence of tasks on statements, and of changes that leave all statements
alone (`Session.Tasks A`). Which tasks that may run statements a step can contain is read off the
step and off what its handles hold (`Step.MayRun`), so what a statement can suffer is shown once for
each task (`carryOut_tasks`).
-/

namespace SqlAccess

/-- A step may run a statement of a database by a task. What the statement needs for that was
checked before anything was done; a query that is run once is prepared first. -/
def Step.MayRun (x : Step) (s : Session) (n : Nat) (d : Database) (k : Nat) :
    Statement.Task → Prop
  | .query => ∃ name target z, x = .query name target ∧ s.statements.find? name = some ⟨n, k⟩ ∧
      s.opened.find? n = some d ∧ d.Runnable k false z
  | .insert => ∃ name target z, x = .insert name target ∧ s.statements.find? name = some ⟨n, k⟩ ∧
      s.opened.find? n = some d ∧ d.Runnable k true z
  | .execute =>
    (∃ name z, (x = .update name ∨ x = .execute name) ∧ s.statements.find? name = some ⟨n, k⟩ ∧
      s.opened.find? n = some d ∧ d.Runnable k true z) ∨
    ∃ name query t d₀ y z, x = .executeOnce name query ∧ s.transactions.find? name = some ⟨n, t⟩ ∧
      s.opened.find? n = some d₀ ∧ d₀.isOpen ∧ d₀.Ready t y ∧ d.Runnable k true z ∧
      z.owner = some t
  | .seek m offset => ∃ name, x = .seek name offset ∧ s.cursors.find? name = some ⟨n, k, m⟩
  | .closeCursor _ | .close | .write _ => False

namespace Session

/-- One thing is done to a session. -/
inductive Task (A : Nat → Database → Nat → Statement.Task → Prop) (s s' : Session × World) : Prop
  /-- Handles are changed, or the log. -/
  | handles : s'.1.backend = s.1.backend → s'.1.opened = s.1.opened →
      s'.2.engine = s.2.engine → Task A s s'
  /-- Something is done to a database. -/
  | changed {n : Nat} {d d' : Database} : s'.1.backend = s.1.backend →
      s.1.opened.find? n = some d → Database.Task (A n) (d, s.2) (d', s'.2) →
      s'.1.opened = s.1.opened.modify n (fun _ => d') → Task A s s'
  /-- A database cannot be opened. -/
  | failed : s'.1.backend = s.1.backend → s.2.engine.Passive s'.2.engine →
      s'.1.opened = s.1.opened → Task A s s'
  /-- A database is opened. -/
  | opened {l : Link} : s'.1.backend = s.1.backend → s.2.engine.Passive s'.2.engine →
      l.backend = s.1.backend → s'.1.opened = s.1.opened.add { link := l } → Task A s s'

/-- One thing after another is done to a session. -/
abbrev Tasks (A : Nat → Database → Nat → Statement.Task → Prop) :
    Session × World → Session × World → Prop :=
  Relation.ReflTransGen (Task A)

variable {α β : Type} {A : Nat → Database → Nat → Statement.Task → Prop} {s s' : Session × World}
  {n : Nat}

/-! ## Putting actions together -/

/-- An action is a sequence of tasks. -/
def Does (A : Nat → Database → Nat → Statement.Task → Prop) (x : SessionM α) : Prop :=
  ∀ s, After x s fun _ s' => Tasks A s s'

/-- Handles may be changed at any time. -/
theorem does_modify {f : Session → Session} (hb : ∀ s, (f s).backend = s.backend)
    (hf : ∀ s, (f s).opened = s.opened) : Does A (modify f) :=
  fun s => After.modify_iff.2 (.single (.handles (hb s.1) (hf s.1) rfl))

/-- What is done to a database is done to the session. -/
theorem changed_tasks {d d' : Database} {w' : World} (hd : s.1.opened.find? n = some d)
    (h : Database.Tasks (A n) (d, s.2) (d', w')) :
    Tasks A s ({ s.1 with opened := s.1.opened.modify n fun _ => d' }, w') := by
  have path {a : Database × World} (ha : Database.Tasks (A n) (d, s.2) a) :
      Tasks A s ({ s.1 with opened := s.1.opened.modify n fun _ => a.1 }, a.2) := by
    induction ha with
    | refl =>
      rw [Table.modify_of_find? hd]
    | @tail b c _ hbc ih =>
      refine ih.tail (.changed rfl (n := n) (d := b.1) ?_ hbc ?_)
      · exact Table.find?_modify_eq_some.2 (.inl ⟨rfl, d, hd, rfl⟩)
      · exact (Table.modify_modify _ _ _ _).symm
  exact path h

theorem onDatabase_tasks {x : StateT Database Act α} {otherwise : α}
    (hx : ∀ d, s.1.opened.find? n = some d →
      After x (d, s.2) fun _ s' => Database.Tasks (A n) (d, s.2) s') :
    After (onDatabase n otherwise x) s fun _ s' => Tasks A s s' :=
  onDatabase_cases (fun _ => .refl) fun d hd => (hx d hd).mono fun _ _ h => changed_tasks hd h

theorem does_onDatabase {x : StateT Database Act α} {otherwise : α}
    (hx : ∀ d w, After x (d, w) fun _ s' => Database.Tasks (A n) (d, w) s') :
    Does A (onDatabase n otherwise x) :=
  fun s => onDatabase_tasks fun d _ => hx d s.2

/-! ## Giving up -/

theorem tasks_course : Course (Tasks A) where
  refl _ := .refl
  trans := .trans
  handles hf := does_modify (fun s => (hf s).1) fun s => (hf s).2.1
  log := does_onDatabase fun _ _ => Database.writeLog_same.mono fun _ _ h =>
    (Database.Beside.of_same h).tasks

theorem tasks_closes : ClosesAll (Tasks A) where
  database := does_onDatabase fun _ _ => Database.close_tasks
  transaction := does_onDatabase fun _ _ => Database.rollbackThrough_tasks
  statement := does_onDatabase fun _ _ => Database.closeStatement_tasks _
  cursor {_ _ m} := does_onDatabase fun _ _ => Database.atStatement_tasks fun _ _ =>
    .inr ⟨.closeCursor m, nofun, nofun, rfl⟩

theorem setParameter_does {name : Bytes} {r : Option ParameterRef} :
    Does A (setParameter name r) :=
  does_modify (fun _ => rfl) fun _ => rfl

theorem setStatement_does {name : Bytes} {r : Option StatementRef} :
    Does A (setStatement name r) :=
  tasks_course.setStatement tasks_closes.statement

theorem setCursor_does {name : Bytes} {r : Option CursorRef} : Does A (setCursor name r) :=
  tasks_course.setCursor tasks_closes.cursor

/-! ## Work on what a handle holds -/

section Work

variable {name target : Bytes}

theorem withDatabase_does {x : Nat → Op Database α}
    (hx : ∀ n d w, After (x n).run (d, w) fun _ s' => Database.Tasks (A n) (d, w) s') :
    Does A (withDatabase name x) :=
  fun s => withDatabase_cases (fun _ => .refl) fun n _ => does_onDatabase (hx n) s

/-- Work on the database of a transaction that the handle holds. -/
theorem withTransaction_tasks {x : TransactionRef → Op Database α}
    (hx : ∀ r d, s.1.transactions.find? name = some r → s.1.opened.find? r.database = some d →
      After (x r).run (d, s.2) fun _ s' => Database.Tasks (A r.database) (d, s.2) s') :
    After (withTransaction name x) s fun _ s' => Tasks A s s' :=
  withTransaction_cases (fun _ => .refl) fun r hr => onDatabase_tasks fun d => hx r d hr

theorem withTransaction_does {x : TransactionRef → Op Database α}
    (hx : ∀ r d w, After (x r).run (d, w) fun _ s' => Database.Tasks (A r.database) (d, w) s') :
    Does A (withTransaction name x) :=
  fun _ => withTransaction_tasks fun r d _ _ => hx r d _

/-- Work on the database of a statement that the handle holds. -/
theorem withStatement_tasks {x : StatementRef → Op Database α}
    (hx : ∀ r d, s.1.statements.find? name = some r → s.1.opened.find? r.database = some d →
      After (x r).run (d, s.2) fun _ s' => Database.Tasks (A r.database) (d, s.2) s') :
    After (withStatement name x) s fun _ s' => Tasks A s s' :=
  withStatement_cases (fun _ => .refl) fun r hr => onDatabase_tasks fun d => hx r d hr

/-- Setting parameters is a task, unless it is refused before that. -/
theorem onStatement_does {x : Link → Op Statement α} (hx : ∀ l a, After (x l).run a fun _ a' =>
    a' = a ∨ ∃ assignments, a' = (Statement.Task.write assignments).after l a) :
    Does A (onStatement name x) :=
  fun _ => withStatement_tasks fun _ d _ _ => Database.onStatement_tasks fun z _ _ =>
    (hx d.link (z, _)).mono fun _ _ h => h.imp_right fun ⟨l, ha⟩ => ⟨.write l, nofun, ha⟩

theorem onParameter_does {x : Parameter → Link → Op Statement Unit}
    (hx : ∀ p l a, After (x p l).run a fun _ a' =>
      a' = a ∨ ∃ assignments, a' = (Statement.Task.write assignments).after l a) :
    Does A (onParameter name x) :=
  fun _ => onParameter_cases (fun _ => .refl) fun r _ => onDatabase_tasks fun d _ =>
    Database.onStatement_tasks fun z _ _ => (hx r.parameter d.link (z, _)).mono
      fun _ _ h => h.imp_right fun ⟨l, ha⟩ => ⟨.write l, nofun, ha⟩

/-! ## Databases and transactions -/

theorem establish_does {dsn : Bytes} {options : Options} : Does A (establish name dsn options) := by
  intro s
  have connected : After (Database.connect s.1.backend dsn options) s.2 fun r w =>
      s.2.engine.Passive w.engine ∧ ∀ d, r = .ok d →
        ∃ l : Link, d = { link := l } ∧ l.backend = s.1.backend := by
    have connect : After (s.1.backend.connect dsn options.readOnly options.busyTimeout).run
        s.2.engine fun _ e => s.2.engine.Passive e :=
      .of_preserves fun _ _ hr _ _ => Backend.preserves_connect hr
    refine After.bind_iff.2 <| After.onEngine_iff.2 <| connect.mono fun r e he => ?_
    cases r with
    | error f =>
      exact After.seq After.writeLog_still fun _ w hw => After.pure_iff.2
        ⟨hw ▸ he, fun _ hd => by cases hd⟩
    | ok c =>
      have info : After (s.1.backend.info c) e fun _ e' => e.Passive e' :=
        .of_preserves fun _ _ _ _ _ => Backend.preserves_info
      refine After.bind_iff.2 <| After.onEngine_iff.2 <| info.mono fun info e₁ h₁ => ?_
      refine After.seq After.writeLog_still fun _ w hw => After.pure_iff.2
        ⟨hw ▸ he.trans h₁, ?_⟩
      rintro _ ⟨⟩
      exact ⟨_, rfl, rfl⟩
  refine After.bind_iff.2 <| After.get_iff.2 <| After.bind_iff.2 <| After.lift_iff.2 <|
    connected.mono fun r w ⟨he, hd⟩ => ?_
  cases r with
  | error f => exact After.pure_iff.2 (.single (.failed rfl he rfl))
  | ok d =>
    obtain ⟨l, rfl, hl⟩ := hd d rfl
    exact After.bind_iff.2 <| After.modify_iff.2 <| After.pure_iff.2
      (.single (.opened rfl he hl rfl))

theorem result_tasks {x : Op Database α} {f : α → β} {a : Database × World}
    (hx : After x.run a fun _ a' => Database.Tasks (A n) a a') :
    After (do return f (← x) : Op Database β).run a fun _ a' => Database.Tasks (A n) a a' :=
  After.try_seq hx (fun _ _ h => After.try_pure_iff.2 h) fun _ _ h => h

/-- Resolving the name of a parameter changes nothing. -/
theorem parameter_same {parameter : Option Bytes} {l : Link} {a : Statement × World} :
    After (Statement.parameter parameter l).run a fun _ a' => a' = a := by
  unfold Statement.parameter
  split
  · exact After.throw_iff.2 rfl
  · exact After.try_bind_iff.2 (After.try_get_iff.2 (After.ofResult_iff.2 rfl))

theorem resolve_does {parameter : Option Bytes} : Does A (resolve name parameter) :=
  fun _ => withStatement_tasks fun _ _ _ _ => result_tasks <|
    Database.onStatement_tasks fun _ _ _ => parameter_same.mono fun _ _ h => .inl h

/-! ## Running -/

theorem execute_tasks (hA : ∀ r d z, s.1.statements.find? name = some r →
      s.1.opened.find? r.database = some d → d.Runnable r.number true z →
      A r.database d r.number .execute) :
    After (execute name) s fun _ s' => Tasks A s s' :=
  withStatement_tasks fun r d hr hd => Database.executeStatement_tasks fun z hz => hA r d z hr hd hz

/-- Running a statement for a cursor is a task, if it may be run. -/
theorem runForCursor_tasks {writes : Bool} {x : Link → Op Statement Nat} {t : Statement.Task}
    (hx : ∀ l a, After (x l).run a fun _ a' => a' = t.after l a)
    (hA : ∀ r d z, s.1.statements.find? name = some r → s.1.opened.find? r.database = some d →
      d.Runnable r.number writes z → A r.database d r.number t) :
    After (runForCursor name writes x) s fun _ s' => Tasks A s s' := by
  refine withStatement_tasks fun r d hr hd => ?_
  refine After.try_seq Database.checkRunnable_after ?_ ?_
  · rintro _ a ⟨rfl, hz⟩
    obtain ⟨z, hz⟩ := hz rfl
    exact result_tasks <| Database.onStatement_tasks fun y hy _ =>
      (hx d.link (y, s.2)).mono fun _ _ h => .inr ⟨t, fun _ => hA r d z hr hd hz, h⟩
  · rintro _ _ ⟨rfl, -⟩
    exact .refl

theorem seek_tasks {offset : Int64} (hA : ∀ r d, s.1.cursors.find? name = some r →
      A r.database d r.statement (.seek r.number offset)) :
    After (onCursor name fun n => Statement.seek n offset) s fun _ s' => Tasks A s s' :=
  onCursor_cases (fun _ => .refl) fun r hr _ => onDatabase_tasks fun d _ =>
    Database.atStatement_tasks fun _ _ =>
      .inr ⟨.seek r.number offset, nofun, fun _ => hA r d hr, rfl⟩

end Work

/-! ## Steps -/

section Writing

variable {l : Link} {a : Statement × World}

/-- Setting a resolved parameter is a task, unless the values do not fit. -/
theorem written {x : Except Fault (List (Destination × Value))} :
    After (do Statement.write l (← Op.ofResult x) : Op Statement Unit).run a fun _ a' =>
      a' = a ∨ ∃ assignments, a' = (Statement.Task.write assignments).after l a := by
  refine After.try_bind_iff.2 (After.ofResult_iff.2 ?_)
  cases x with
  | error f => exact .inl rfl
  | ok assignments => exact .inr ⟨assignments, rfl⟩

theorem resolved_written {parameter : Option Bytes}
    {x : Parameter → Except Fault (List (Destination × Value))} :
    After (do
        let p ← Statement.parameter parameter l
        Statement.write l (← Op.ofResult (x p)) : Op Statement Unit).run a fun _ a' =>
      a' = a ∨ ∃ assignments, a' = (Statement.Task.write assignments).after l a := by
  refine After.try_seq parameter_same ?_ fun _ _ h => .inl h
  rintro p _ rfl
  exact written

end Writing

/-- A step runs statements only by the tasks that it may run. -/
theorem carryOut_tasks (x : Step) (s : Session × World) :
    After (carryOut x) s fun _ s' => Tasks (x.MayRun s.1) s s' := by
  have then_ {α β : Type} {y : SessionM α} {f : α → SessionM β}
      (hy : After y s fun _ s' => Tasks (x.MayRun s.1) s s') (hf : ∀ a, Does (x.MayRun s.1) (f a)) :
      After (y >>= f) s fun _ s' => Tasks (x.MayRun s.1) s s' :=
    After.seq hy fun a s₁ h₁ => (hf a s₁).mono fun _ _ h₂ => h₁.trans h₂
  have plain {α : Type} {y : SessionM (Except Fault α)} (hy : Does (x.MayRun s.1) y) :
      After (do return .plain (← y) : SessionM Reply) s fun _ s' => Tasks (x.MayRun s.1) s s' :=
    tasks_course.reply hy s
  cases x with
  | connect name dsn options =>
    exact plain (tasks_course.connect tasks_closes fun _ => establish_does)
  | begin name target =>
    exact tasks_course.deliverTransaction tasks_closes
      (withDatabase_does fun _ _ _ => result_tasks Database.begin_tasks) s
  | nest name target =>
    exact tasks_course.deliverTransaction tasks_closes
      (withTransaction_does fun _ _ _ => result_tasks Database.nest_tasks) s
  | commit name => exact plain <| withTransaction_does fun _ _ _ => Database.commit_tasks
  | rollback name => exact plain <| withTransaction_does fun _ _ _ => Database.rollback_tasks
  | rollbackThrough name => exact plain (tasks_course.rollbackThrough tasks_closes)
  | executeOnce name query =>
    refine then_ (withTransaction_tasks fun r d₀ hr hd => Database.executeOnce_tasks
      fun d k y z hy ho hz ht => ?_) fun _ => tasks_course.pure _
    exact .inr ⟨name, query, r.number, d₀, y, z, rfl, hr, hd, ho, hy, hz, ht⟩
  | prepare name query target =>
    exact tasks_course.deliverStatement tasks_closes.statement
      (withDatabase_does fun _ _ _ => result_tasks Database.prepare_tasks) s
  | prepareIn name query target =>
    exact tasks_course.deliverStatement tasks_closes.statement
      (withTransaction_does fun _ _ _ => result_tasks Database.prepare_tasks) s
  | bind name p v => exact plain <| onStatement_does fun _ _ => resolved_written
  | bindList name p vs => exact plain <| onStatement_does fun _ _ => resolved_written
  | resolve name p target =>
    exact tasks_course.bind resolve_does (tasks_course.deliver fun _ => setParameter_does) s
  | assign name v => exact plain <| onParameter_does fun _ _ _ => written
  | assignList name vs => exact plain <| onParameter_does fun _ _ _ => written
  | query name target =>
    exact then_ (runForCursor_tasks (t := .query) (fun _ _ => rfl) fun r d z hr hd hz =>
      ⟨name, target, z, rfl, hr, hd, hz⟩) (tasks_course.deliver fun _ => setCursor_does)
  | insert name target =>
    exact then_ (runForCursor_tasks (t := .insert) (fun _ _ => rfl) fun r d z hr hd hz =>
      ⟨name, target, z, rfl, hr, hd, hz⟩) (tasks_course.deliver fun _ => setCursor_does)
  | update name =>
    exact then_ (execute_tasks fun r d z hr hd hz => .inl ⟨name, z, .inl rfl, hr, hd, hz⟩)
      fun _ => tasks_course.pure _
  | execute name =>
    exact then_ (execute_tasks fun r d z hr hd hz => .inl ⟨name, z, .inr rfl, hr, hd, hz⟩)
      fun _ => tasks_course.pure _
  | seek name offset =>
    exact then_ (seek_tasks fun r d hr => ⟨name, rfl, hr⟩) fun _ => tasks_course.pure _
  | read name column type ifNull | hasColumn name column | inspect h =>
    exact tasks_course.reply tasks_course.get s
  | close h => exact plain (tasks_course.close tasks_closes)
  | drop h =>
    exact tasks_course.reply (tasks_course.drop tasks_closes fun _ _ => setParameter_does) s
  | move h target =>
    exact tasks_course.reply (tasks_course.move tasks_closes fun _ _ _ =>
      tasks_course.bind setParameter_does fun _ => does_modify (fun _ => rfl) fun _ => rfl) s

/-- What a step does is a sequence of tasks. -/
theorem after_tasks (x : Step) (s : Session × World) : Tasks (x.MayRun s.1) s (after x s) :=
  step_iff.2 (carryOut_tasks x s)

end Session

end SqlAccess
