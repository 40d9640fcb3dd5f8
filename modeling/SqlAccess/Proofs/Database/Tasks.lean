import Mathlib.Logic.Relation
import SqlAccess.Proofs.Database.Operations
import SqlAccess.Proofs.Task

/-!
# What is done to the statements of a database

Every operation on a database is a sequence of tasks on its statements, of changes beside them, and
of statements put in (`Tasks A`). Tasks that may run statements of the engine are done only where
`A` allows it: of the operations, only `Database.executeStatement` and `Database.executeOnce` need
that.
-/

namespace SqlAccess.Database

/-- Something is done beside the statements. A database for reading only gets no transaction. -/
structure Beside (s s' : Database × World) : Prop where
  statements : s'.1.statements = s.1.statements
  link : s'.1.link = s.1.link
  engine : s.2.engine.Passive s'.2.engine
  readOnly : s.1.link.options.readOnly → s.1.transactions.next = 0 → s'.1.transactions.next = 0

/-- One thing is done to a database. -/
inductive Task (A : Database → Nat → Statement.Task → Prop) :
    Database × World → Database × World → Prop
  | beside {s s' : Database × World} : Beside s s' → Task A s s'
  /-- A statement is put in whose handle is fresh. -/
  | added {d : Database} {w w' : World} {z : Statement} : w.engine.Passive w'.engine →
      (∀ k, z.handle.number? = some k →
        k = w.engine.statements.next ∧ k < w'.engine.statements.next) →
      z.handle.Fits w'.engine → z.cursors = .empty 0 → Task A (d, w) (d.withStatement z, w')
  /-- A task is done to a statement. -/
  | worked {d : Database} {w : World} {k : Nat} {z : Statement} {t : Statement.Task} :
      d.statements.find? k = some z → (t.needsOpen → z.isOpen) → (t.runs → A d k t) →
      Task A (d, w) ({ d with
        statements := d.statements.modify k fun _ => (t.after d.link (z, w)).1 },
        (t.after d.link (z, w)).2)

/-- One thing after another is done to a database. -/
abbrev Tasks (A : Database → Nat → Statement.Task → Prop) :
    Database × World → Database × World → Prop :=
  Relation.ReflTransGen (Task A)

variable {A : Database → Nat → Statement.Task → Prop} {s s' s'' : Database × World}

namespace Beside

theorem trans (h : Beside s s') (h' : Beside s' s'') : Beside s s'' :=
  ⟨h'.statements.trans h.statements, h'.link.trans h.link, h.engine.trans h'.engine,
    fun hr hn => h'.readOnly (h.link ▸ hr) (h.readOnly hr hn)⟩

theorem of_next (hs : s'.1.statements = s.1.statements) (hl : s'.1.link = s.1.link)
    (he : s.2.engine.Passive s'.2.engine)
    (hn : s'.1.transactions.next = s.1.transactions.next) : Beside s s' :=
  ⟨hs, hl, he, fun _ h => hn.trans h⟩

theorem of_same (h : Same s s') : Beside s s' :=
  of_next (h.database ▸ rfl) (h.database ▸ rfl) (h.engine ▸ .refl) (h.database ▸ rfl)

theorem of_engine {d : Database} {w : World} {e : Engine} (h : w.engine.Passive e) :
    Beside (d, w) (d, { w with engine := e }) := of_next rfl rfl h rfl

theorem tasks (h : Beside s s') : Tasks A s s' := .single (.beside h)

end Beside

theorem Tasks.beside (h : Tasks A s s') (h' : Beside s' s'') : Tasks A s s'' := h.tail (.beside h')

/-! ## Work on statements -/

/-- Work on a statement that comes down to a task, or changes nothing. -/
theorem atStatement_tasks {α : Type} {d : Database} {w : World} {k : Nat}
    {x : Link → Op Statement α} (hx : ∀ z, d.statements.find? k = some z →
      After (x d.link).run (z, w) fun _ a => a = (z, w) ∨ ∃ t : Statement.Task,
        (t.needsOpen → z.isOpen) ∧ (t.runs → A d k t) ∧ a = t.after d.link (z, w)) :
    After (atStatement k x).run (d, w) fun _ s' => Tasks A (d, w) s' := by
  refine atStatement_cases (fun _ => .refl) fun z hz => (hx z hz).mono ?_
  rintro _ _ (rfl | ⟨t, ho, ht, rfl⟩)
  · rw [Table.modify_of_find? hz]
  · exact .single (.worked hz ho ht)

theorem onStatement_tasks {α : Type} {d : Database} {w : World} {k : Nat}
    {x : Link → Op Statement α} (hx : ∀ z, d.statements.find? k = some z → z.isOpen →
      After (x d.link).run (z, w) fun _ a => a = (z, w) ∨
        ∃ t : Statement.Task, (t.runs → A d k t) ∧ a = t.after d.link (z, w)) :
    After (onStatement k x).run (d, w) fun _ s' => Tasks A (d, w) s' := by
  refine onStatement_cases (fun _ => .refl) fun z hz ho => (hx z hz ho).mono ?_
  rintro _ _ (rfl | ⟨t, ht, rfl⟩)
  · rw [Table.modify_of_find? hz]
  · exact .single (.worked hz (fun _ => ho) ht)

theorem closeStatement_tasks (k : Nat) : After (closeStatement k) s fun _ s' => Tasks A s s' := by
  refine closeStatement_cases (fun _ => .refl) fun z hz => ?_
  have task : After (Statement.close s.1.link) (z, s.2) fun _ a =>
      a = Statement.Task.close.after s.1.link (z, s.2) := rfl
  refine task.mono ?_
  rintro _ _ rfl
  exact .single (.worked hz nofun nofun)

theorem closeEach_tasks {l : List Nat} {first : Except Fault Unit} :
    After (closeEach first l) s fun _ s' => Tasks A s s' :=
  closeEach_keeps_of (I := Tasks A s) (fun h h' => h.beside (.of_same h'))
    (fun h => (closeStatement_tasks _).mono fun _ _ h' => h.trans h') .refl

theorem closeOwned_tasks {t : Nat} : After (closeOwned t) s fun _ s' => Tasks A s s' :=
  closeOwned_keeps_of (I := Tasks A s) (fun h h' => h.beside (.of_same h'))
    (fun h => (closeStatement_tasks _).mono fun _ _ h' => h.trans h') .refl
    fun h => h.beside (.of_next rfl rfl .refl rfl)

theorem prepare_tasks {owner : Option Nat} {query : Option Query} :
    After (prepare owner query).run s fun _ s' => Tasks A s s' := by
  refine prepare_after (fun _ => .refl) fun _ _ descriptor _ => ?_
  have made : After (s.1.link.backend.prepare s.1.link.connection descriptor.sql).run
      s.2.engine fun r e =>
      s.2.engine.Passive e ∧ ∀ h, r = .ok h → ∀ k, h.number? = some k →
        k = s.2.engine.statements.next ∧ k < e.statements.next :=
    ⟨fun I _ _ hp hq he => (Backend.prepare_preserves (fun n _ => hp n) hq he).1,
      (Backend.prepare_preserves (I := s.2.engine.RunsOnly fun _ => False)
        (fun _ _ => Engine.RunsOnly.admitsPrepare) Engine.RunsOnly.admitsNew .refl).2⟩
  refine (made.and (Backend.prepare_fits _)).mono ?_
  rintro r e ⟨⟨he, hk⟩, hf⟩ s₁ h
  refine ⟨fun _ _ => .single (.beside ((Beside.of_engine he).trans (.of_same h))),
    fun handle hr => ?_⟩
  rw [h.database]
  refine .single (.added ?_ ?_ ?_ rfl)
  · rw [h.engine]
    exact he
  · rw [h.engine]
    exact hk handle hr
  · rw [h.engine]
    exact hf handle hr

/-! ## Transactions -/

/-- Running a directive leaves all statements alone. -/
theorem control_passive {b : Backend} {c : Option Nat} {directive : Directive} {e : Engine} :
    After (b.control c directive).run e fun _ e' => e.Passive e' :=
  .of_preserves fun _ _ hr _ _ => Backend.preserves_control hr

theorem keepWork_passive {l : Link} {o : Origin} {e : Engine} :
    After (keepWork l o).run e fun _ e' => e.Passive e' := by
  cases o <;> exact control_passive

theorem undoWork_passive {l : Link} {o : Origin} {e : Engine} :
    After (undoWork l o).run e fun _ e' => e.Passive e' := by
  cases o with
  | root => exact control_passive
  | nested p n => exact .of_preserves fun _ _ hr _ _ => Backend.preserves_rollbackTo hr

theorem withEnded_beside {t : Nat} {o : Origin} {how : Ended} :
    Beside s (s.1.withEnded t o how, s.2) :=
  .of_next withEnded_statements withEnded_link .refl withEnded_next

theorem begin_tasks : After begin.run s fun _ s' => Tasks A s s' := by
  unfold begin
  refine After.try_seq checkOpen_after ?_ ?_
  · rintro _ s ⟨rfl, -⟩
    refine After.try_bind_iff.2 (After.try_get_iff.2 ?_)
    dsimp only
    split
    · exact After.try_bind_iff.2 (After.throw_iff.2 .refl)
    next hreadOnly =>
    split
    · exact After.try_bind_iff.2 (After.throw_iff.2 .refl)
    refine After.try_bind_iff.2 <| After.op_onTry_iff.2 <| control_passive.mono fun r e he => ?_
    cases r with
    | error f => exact (Beside.of_engine he).tasks
    | ok _ =>
      refine After.try_bind_iff.2 <| After.try_modify_iff.2 <| After.try_bind_iff.2 <|
        After.try_lift_iff.2 <| writeLog_same.mono fun _ _ h => After.try_pure_iff.2 ?_
      have began : Beside s (s.1.withRoot, { s.2 with engine := e }) :=
        ⟨rfl, rfl, he, fun hr => absurd hr hreadOnly⟩
      exact (began.trans (.of_same h)).tasks
  · rintro _ _ ⟨rfl, -⟩
    exact .refl

theorem nest_tasks {parent : Nat} : After (nest parent).run s fun _ s' => Tasks A s s' := by
  unfold nest
  refine After.try_seq checkUsable_after ?_ ?_
  · rintro x s ⟨rfl, hx⟩
    -- there is a transaction already
    have hlt := Table.lt_next (hx x rfl).1.1
    refine After.try_bind_iff.2 <| After.try_modify_iff.2 <| After.try_bind_iff.2 <|
      After.try_get_iff.2 <| After.try_bind_iff.2 <| After.op_onTry_iff.2 <|
        control_passive.mono fun r e he => ?_
    cases r with
    | error f =>
      have numbered : Beside s ({ s.1 with savepoints := s.1.savepoints + 1 },
        { s.2 with engine := e }) := .of_next rfl rfl he rfl
      exact numbered.tasks
    | ok _ =>
      refine After.try_bind_iff.2 <| After.try_modify_iff.2 <| After.try_bind_iff.2 <|
        After.try_lift_iff.2 <| writeLog_same.mono fun _ _ h => After.try_pure_iff.2 ?_
      have nested : Beside s ({ s.1 with savepoints := s.1.savepoints + 1 }.withNested parent
          (s.1.savepoints + 1) (x.depth + 1), { s.2 with engine := e }) :=
        ⟨rfl, rfl, he, fun _ hn => absurd hn (Nat.ne_of_gt (Nat.zero_lt_of_lt hlt))⟩
      exact (nested.trans (.of_same h)).tasks
  · rintro _ _ ⟨rfl, -⟩
    exact .refl

theorem commit_tasks {t : Nat} : After (commit t).run s fun _ s' => Tasks A s s' := by
  unfold commit
  refine After.try_seq active_after ?_ ?_
  · rintro x s ⟨rfl, -⟩
    refine After.try_seq checkOpen_after ?_ ?_
    · rintro _ s ⟨rfl, -⟩
      refine After.try_bind_iff.2 <| After.try_lift_iff.2 <|
        (closeOwned_tasks (A := A)).mono fun first s₁ h₁ => ?_
      refine After.try_bind_iff.2 <| After.try_get_iff.2 <| After.try_bind_iff.2 <|
        After.op_onEngine_iff.2 <| keepWork_passive.mono fun r e he => ?_
      have h₂ := h₁.beside (Beside.of_engine he)
      cases r with
      | error f =>
        exact After.try_bind_iff.2 <| After.try_lift_iff.2 <| writeLog_same.mono
          fun _ _ h => After.throw_iff.2 (h₂.beside (.of_same h))
      | ok _ =>
        exact After.try_bind_iff.2 <| After.try_modify_iff.2 <| After.try_bind_iff.2 <|
          After.try_lift_iff.2 <| writeLog_same.mono fun _ _ h => After.ofResult_iff.2 <|
            (h₂.beside withEnded_beside).beside (.of_same h)
    · rintro _ _ ⟨rfl, -⟩
      exact .refl
  · rintro _ _ ⟨rfl, -⟩
    exact .refl

theorem undo_beside {first : Except Fault Unit} {o : Origin} :
    After (undo first o) s fun _ s' => Beside s s' := by
  unfold undo
  refine After.bind_iff.2 (After.get_iff.2 ?_)
  split
  · refine After.bind_iff.2 <| After.object_onEngine_iff.2 <| undoWork_passive.mono fun _ e he => ?_
    have undone : Beside s (s.1, { s.2 with engine := e }) := .of_engine he
    exact keepFirst_same.mono fun _ _ h => undone.trans (.of_same h)
  · exact After.pure_iff.2 (.of_same ⟨rfl, rfl⟩)

theorem rollback_tasks {t : Nat} : After (rollback t).run s fun _ s' => Tasks A s s' := by
  unfold rollback
  refine After.try_seq active_after ?_ ?_
  · rintro x s ⟨rfl, -⟩
    refine After.try_bind_iff.2 <| After.try_lift_iff.2 <|
      (closeOwned_tasks (A := A)).mono fun first s₁ h₁ => ?_
    refine After.try_bind_iff.2 <| After.try_lift_iff.2 <| undo_beside.mono fun _ s₂ h₂ => ?_
    exact After.try_bind_iff.2 <| After.try_modify_iff.2 <| After.try_bind_iff.2 <|
      After.try_lift_iff.2 <| writeLog_same.mono fun _ _ h => After.ofResult_iff.2 <|
        ((h₁.beside h₂).beside withEnded_beside).beside (.of_same h)
  · rintro _ _ ⟨rfl, -⟩
    exact .refl

theorem rollbackThrough_tasks {t : Nat} :
    After (rollbackThrough t) s fun _ s' => Tasks A s s' :=
  rollbackThrough_keeps_of (I := Tasks A s) (fun h h' => h.beside (.of_same h'))
    (fun h => rollback_tasks.mono fun _ _ h' => h.trans h') .refl

/-! ## Running -/

theorem executeStatement_tasks {k : Nat} (hA : ∀ z, s.1.Runnable k true z → A s.1 k .execute) :
    After (executeStatement k).run s fun _ s' => Tasks A s s' := by
  unfold executeStatement
  refine After.try_seq checkRunnable_after ?_ ?_
  · rintro _ s ⟨rfl, hz⟩
    obtain ⟨z, hz⟩ := hz rfl
    exact onStatement_tasks fun y _ _ => .inr ⟨.execute, fun _ => hA z hz, rfl⟩
  · rintro _ _ ⟨rfl, -⟩
    exact .refl

/-- A statement is prepared in a transaction only while that can be used. -/
theorem prepare_usable {t : Nat} {query : Option Query} :
    After (prepare (some t) query).run s fun r _ =>
      ∀ k, r = .ok k → ∃ x, s.1.Ready t x ∧ s.1.isOpen := by
  unfold prepare
  refine After.try_seq checkOpen_after ?_ fun _ _ _ => nofun
  rintro _ _ ⟨rfl, -⟩
  refine After.try_seq checkUsable_after ?_ fun _ _ _ => nofun
  rintro x a ⟨rfl, hx⟩
  exact fun _ _ => ⟨x, hx x rfl⟩

/-- A query that is run once is run in its transaction, which could be used when it was
prepared. -/
theorem executeOnce_tasks {t : Nat} {query : Option Query}
    (hA : ∀ d k y z, s.1.Ready t y → s.1.isOpen → d.Runnable k true z → z.owner = some t →
      A d k .execute) :
    After (executeOnce t query).run s fun _ s' => Tasks A s s' := by
  unfold executeOnce
  refine After.try_seq (((prepare_tasks (A := A)).and (prepare_leads (A := fun _ => True))).and
    prepare_usable) (fun k s₁ ⟨⟨h₁, _, hk⟩, hready⟩ => ?_) fun _ _ h => h.1.1
  obtain ⟨z, hz, hzt⟩ := hk k rfl
  obtain ⟨y, hy, ho⟩ := hready k rfl
  have executed := executeStatement_tasks (A := A) (s := s₁) (k := k) fun z' hz' => by
    obtain rfl : z = z' := Option.some.inj (hz.symm.trans hz'.statement)
    exact hA _ k y z hy ho hz' hzt
  refine After.try_bind_iff.2 <| After.try_lift_iff.2 <| After.attempt_iff.2 <|
    executed.mono fun ran s₂ h₂ => ?_
  refine After.try_bind_iff.2 <| After.try_lift_iff.2 <|
    (closeStatement_tasks (A := A) k).mono fun closed s₃ h₃ => ?_
  have h₃ := (h₁.trans h₂).trans h₃
  cases ran with
  | error f => exact After.throw_iff.2 h₃
  | ok _ => exact After.ofResult_iff.2 h₃

/-! ## Closing -/

theorem abandonChain_tasks {first : Except Fault Unit} :
    After (abandonChain first) s fun _ s' => Tasks A s s' :=
  abandonChain_keeps_of (I := Tasks A s) (fun h h' => h.beside (.of_same h'))
    (fun h => rollback_tasks.mono fun _ _ h' => h.trans h') .refl

theorem disconnect_passive {b : Backend} {c : Option Nat} {e : Engine} :
    After (b.disconnect c).run e fun _ e' => e.Passive e' :=
  .of_preserves fun _ _ hr _ _ => Backend.preserves_disconnect fun _ _ => hr.admits rfl

theorem close_tasks : After close s fun _ s' => Tasks A s s' := by
  unfold close
  refine After.bind_iff.2 (After.get_iff.2 ?_)
  split
  · exact After.pure_iff.2 .refl
  · refine After.seq (closeEach_tasks (A := A)) fun first s₁ h₁ => ?_
    have h₂ : Tasks A s ({ s₁.1 with listed := [] }, s₁.2) :=
      h₁.beside (.of_next rfl rfl .refl rfl)
    refine After.bind_iff.2 <| After.modify_iff.2 <|
      After.seq (abandonChain_tasks (A := A)) fun first s₃ h₃ => ?_
    refine After.bind_iff.2 <| After.object_onEngine_iff.2 <| disconnect_passive.mono
      fun next e he => After.seq keepFirst_same fun first s₄ h₄ => ?_
    refine After.bind_iff.2 <| After.modify_iff.2 <| After.seq writeLog_same fun _ s₅ h₅ =>
      After.pure_iff.2 ?_
    have closed : Beside s₄ ({ s₄.1 with isOpen := false }, s₄.2) := .of_next rfl rfl .refl rfl
    exact Tasks.beside (h₂.trans h₃) <| (Beside.of_engine he).trans <|
      (Beside.of_same h₄).trans <| closed.trans (.of_same h₅)

end SqlAccess.Database
