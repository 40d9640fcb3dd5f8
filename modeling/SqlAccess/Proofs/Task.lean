import SqlAccess.Proofs.Preserved.Statement

/-!
# What is done to a statement

The operations on a database come down to a few things that are done to its statements, each of
which is a `Task`; whatever else they do calls no statement that is there (`Engine.Passive`). So
what holds of all that goes on is shown once for each task.

A task uses no statement of the engine but those of the statement it is done to and fresh ones
(`Task.tends`), and only some of the tasks run them, by some calls (`Task.RunsBy`).
-/

namespace SqlAccess

/-- Connections were called, statements may have been prepared and given up again, and nothing else
was called. -/
def Engine.Passive (e e' : Engine) : Prop :=
  ∀ I : Engine → Prop, Steady I → AdmitsRest I → (∀ c, AdmitsPrepare I c) →
    AdmitsNew I → I e → I e'

namespace Engine.Passive

variable {e e' e'' : Engine}

theorem refl : e.Passive e := fun _ _ _ _ _ h => h

theorem trans (h : e.Passive e') (h' : e'.Passive e'') : e.Passive e'' :=
  fun I hI hr hp hq he => h' I hI hr hp hq (h I hI hr hp hq he)

/-- What preserves every such predicate is passive. -/
theorem of_preserves {m : Type → Type} {σ α : Type} [Monad m] [Stateful m σ] [HasEngine σ]
    {x : m α} {s : σ} (hx : ∀ I, Steady I → AdmitsRest I → (∀ c, AdmitsPrepare I c) →
      AdmitsNew I → Preserves I x) :
    After x s fun _ s' => (engine s).Passive (engine s') :=
  fun I hI hr hp hq he => hx I hI hr hp hq s he

theorem retains (h : e.Passive e') : e.Retains e' :=
  h _ inferInstance Engine.Retains.admitsRest (fun _ => Engine.Retains.admitsPrepare)
    Engine.Retains.admitsNew .refl

theorem spares {k : Nat} (h : e.Passive e') (hk : k < e.statements.next) : e.Spares k e' :=
  h (Engine.Spares k e) inferInstance admitsRest_spares (fun _ => admitsPrepare_spares hk)
    (admitsNew_spares hk) .refl

theorem runsNone (h : e.Passive e') : e.RunsOnly (fun _ => False) e' :=
  h _ inferInstance Engine.RunsOnly.admitsRest (fun _ => Engine.RunsOnly.admitsPrepare)
    Engine.RunsOnly.admitsNew .refl

theorem next (h : e.Passive e') : e.statements.next ≤ e'.statements.next := h.runsNone.next

end Engine.Passive

namespace Statement

/-- What is done to a statement. -/
inductive Task
  | closeCursor (n : Nat)
  | close
  /-- Set parameters. -/
  | write (assignments : List (Destination × Value))
  | query
  | execute
  | insert
  | seek (n : Nat) (offset : Int64)

namespace Task

/-- Whether a task may run statements of the engine. -/
def runs : Task → Bool
  | query | execute | insert | seek _ _ => true
  | closeCursor _ | close | write _ => false

/-- Whether a task is done to open statements only. -/
def needsOpen : Task → Bool
  | write _ | query | execute | insert => true
  | closeCursor _ | close | seek _ _ => false

/-- A task may run a statement that is there by a call. Starting to produce rows runs only
statements of MariaDB, and going to a row only those of SQLite. -/
def RunsBy (s : Statement) (call : Call) : Task → Prop
  | query => ∃ k ps, s.handle.number? = some k ∧ call = .execute k ps
  | execute | insert => ∃ k, s.handle.number? = some k ∧ call.runs? = some k
  | seek n _ => ∃ c k, s.cursors.find? n = some c ∧ (c.own.getD s.handle).number? = some k ∧
      call = .step k
  | closeCursor _ | close | write _ => False

/-- The state that a task leaves behind. -/
def after (l : Link) (a : Statement × World) : Task → Statement × World
  | closeCursor n => (outcome (Statement.closeCursor n l).run a).2
  | close => (outcome (Statement.close l) a).2
  | write assignments => (outcome (Statement.write l assignments).run a).2
  | query => (outcome (Statement.query l).run a).2
  | execute => (outcome (Statement.execute l).run a).2
  | insert => (outcome (Statement.insert l).run a).2
  | seek n offset => (outcome (Statement.seek n offset l).run a).2

variable {I : Engine → Prop} [Steady I] {K G : Nat → Prop} {l : Link} {z : Statement}
  {a : Statement × World} {t : Task}

theorem runs_of_runsBy {call : Call} (h : t.RunsBy a.1 call) : t.runs := by
  cases t <;> first | rfl | exact h.elim

/-- A task uses the statements of the engine that its statement uses, and fresh ones. -/
theorem tends (hq : ∀ k, K k → AdmitsQuiet I k) (hr : ∀ call, t.RunsBy a.1 call → Admits I call)
    (hfresh : ∀ k, Fresh I k → K k) (hrun : t = .insert → ∀ k, Fresh I k → AdmitsRun I k)
    (hnew : AdmitsNew I) (hprepare : ∀ c, AdmitsPrepare I c) (h : Tends I K G a.1 a) :
    Tends I K G a.1 (t.after l a) := by
  have hq' (k : Nat) (hk : K k) : AdmitsRelease I k := (hq k hk).release
  cases t with
  | closeCursor n => exact closeCursor_tends hq' n h
  | close => exact close_tends hq' h
  | write assignments => exact write_tends hq h
  | query => exact query_tends hq (fun k hk ps => hr _ ⟨k, ps, hk, rfl⟩) h
  | execute => exact execute_tends hq (fun k hk call hc => hr _ ⟨k, hk, hc⟩) h
  | insert =>
    exact insert_tends hq hfresh hnew (hrun rfl) (fun c _ => hprepare c)
      (fun k hk call hc => hr _ ⟨k, hk, hc⟩) h
  | seek n offset => exact seek_tends hq (fun c k hc hk => hr _ ⟨c, k, hc, hk, rfl⟩) h

/-- Of the numbers of cursors a task uses those in use, and new ones. -/
theorem keeps (hG : ∀ n c, a.1.cursors.find? n = some c → G n)
    (hG' : ∀ n, a.1.cursors.next ≤ n → G n) :
    a.1.Alike (t.after l a).1 ∧ (t.after l a).1.Within (fun _ => True) G := by
  have all : Steady fun _ => True := ⟨fun _ _ => trivial⟩
  have admits (call : Call) : Admits (fun _ => True) call := fun _ _ _ _ => trivial
  have after := tends (t := t) (l := l) (I := fun _ => True) (K := fun _ => True) (G := G) (a := a)
    (fun _ _ call _ _ _ => admits call) (fun call _ => admits call) (fun _ _ => trivial)
    (fun _ _ _ call _ => admits call) (fun _ call _ _ _ _ => admits call)
    (fun _ call _ => ⟨admits call, fun _ _ _ _ => trivial⟩)
    ⟨trivial, ⟨fun _ _ => trivial, fun _ _ _ _ _ _ _ => trivial, hG, hG'⟩, .refl⟩
  exact ⟨after.alike, after.within⟩

/-- Whatever was done to it, a statement is the one that was prepared. -/
theorem alike : a.1.Alike (t.after l a).1 :=
  (keeps (G := fun _ => True) (fun _ _ _ => trivial) fun _ _ => trivial).1

/-- A task spares the statements that its statement does not use, and its statement does not use
them afterwards. -/
theorem spares {k : Nat} (hk : k < a.2.engine.statements.next) (h : a.1.Within (· ≠ k) G) :
    a.2.engine.Spares k (t.after l a).2.engine ∧ (t.after l a).1.Within (· ≠ k) G := by
  have admits (j : Nat) (hj : j ≠ k) (call : Call) (hs : call.statement? = some j) :
      Admits (Engine.Spares k a.2.engine) call :=
    admits_spares fun h => hj (Option.some.inj (hs.symm.trans h))
  have hr (call : Call) (hc : t.RunsBy a.1 call) : Admits (Engine.Spares k a.2.engine) call := by
    cases t with
    | query =>
      obtain ⟨j, ps, hj, rfl⟩ := hc
      exact admits j (h.handle j hj) _ rfl
    | execute | insert =>
      obtain ⟨j, hj, hc⟩ := hc
      exact admits j (h.handle j hj) call (Call.statement?_of_runs? hc)
    | seek n offset =>
      obtain ⟨c, j, hc, hj, rfl⟩ := hc
      exact admits j (h.reads hc hj) _ rfl
    | closeCursor _ | close | write _ => exact hc.elim
  have after := tends (t := t) (l := l) (I := Engine.Spares k a.2.engine) (K := (· ≠ k)) (G := G)
    (a := a) (fun j hj call hs _ _ => admits j hj call hs) hr
    (fun _ hj => Engine.Spares.ne_of_fresh hk hj)
    (fun _ j hj call hc => admits j (Engine.Spares.ne_of_fresh hk hj) call
      (Call.statement?_of_runs? hc)) (admitsNew_spares hk)
    (fun _ => admitsPrepare_spares hk) ⟨.refl, h, .refl⟩
  exact ⟨after.engine, after.within⟩

/-- A task runs nothing but the statement that it may run, and fresh ones. -/
theorem runsOnly : a.2.engine.RunsOnly (fun call => t.RunsBy a.1 call ∨ t = .insert ∧
    ∃ k, a.2.engine.statements.next ≤ k ∧ call.runs? = some k) (t.after l a).2.engine :=
  (tends (t := t) (l := l) (I := a.2.engine.RunsOnly _) (K := fun _ => True) (G := fun _ => True)
    (a := a) (fun _ _ => Engine.RunsOnly.admitsQuiet)
    (fun _ hc => Engine.RunsOnly.admits fun _ _ => .inl hc) (fun _ _ => trivial)
    (fun ht k hk _ hc => Engine.RunsOnly.admits fun _ _ =>
      .inr ⟨ht, k, Engine.RunsOnly.le_of_fresh hk, hc⟩) Engine.RunsOnly.admitsNew
    (fun _ => Engine.RunsOnly.admitsPrepare) (.all .refl)).engine

/-- A task leaves all statements of the engine their scripts. -/
theorem retains : a.2.engine.Retains (t.after l a).2.engine := by
  have hr (call : Call) (hc : t.RunsBy a.1 call) : call.givesText = false := by
    cases t with
    | query =>
      obtain ⟨k, ps, -, rfl⟩ := hc
      rfl
    | execute | insert =>
      obtain ⟨k, -, hc⟩ := hc
      cases call <;> simp_all [Call.runs?, Call.givesText]
    | seek n offset =>
      obtain ⟨c, k, -, -, rfl⟩ := hc
      rfl
    | closeCursor _ | close | write _ => exact hc.elim
  exact (tends (t := t) (l := l) (I := a.2.engine.Retains) (fun _ _ => Engine.Retains.admitsQuiet)
    (fun call hc => Engine.Retains.admits (hr call hc)) (fun _ _ => trivial)
    (fun _ _ _ => Engine.Retains.admitsRun) Engine.Retains.admitsNew
    (fun _ => Engine.Retains.admitsPrepare) (.all .refl)).engine

/-- To a statement that is closed, with its cursors, nothing is done. -/
theorem after_of_closed {s : Statement} {w : World} (hs : s.isOpen = false)
    (hc : ∀ n, s.cursors.find? n = none) (ht : t.needsOpen = false) :
    t.after l (s, w) = (s, w) := by
  cases t with
  | closeCursor n =>
    have closed : After (Statement.closeCursor n l).run (s, w) fun _ a => a = (s, w) := by
      refine After.try_bind_iff.2 (After.try_get_iff.2 ?_)
      simp only [hc n]
      exact After.try_pure_iff.2 rfl
    exact closed
  | close =>
    have closed : After (Statement.close l) (s, w) fun _ a => a = (s, w) := by
      refine After.bind_iff.2 (After.get_iff.2 ?_)
      rw [hs]
      exact After.pure_iff.2 rfl
    exact closed
  | seek n offset =>
    have refused : After (Statement.seek n offset l).run (s, w) fun _ a => a = (s, w) := by
      refine After.try_bind_iff.2 (After.try_get_iff.2 ?_)
      simp only [hc n]
      exact After.throw_iff.2 rfl
    exact refused
  | write _ | query | execute | insert => cases ht

end Task

end Statement

end SqlAccess
