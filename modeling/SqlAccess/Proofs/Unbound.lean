import SqlAccess.Proofs.Focus
import SqlAccess.Proofs.Session.Runs

/-!
# Statements outside of transactions

A statement that belongs to no transaction is meant for reading. No step runs it but querying it and
going to one of its rows (`Session.run_outside_transaction`). That is enough for MariaDB to run one
that has no result: querying it is refused, but only after it was run.
-/

namespace SqlAccess

/-! ## Statements without a result -/

/-- A statement of MariaDB was run in between. -/
def Ran (j : Nat) (h h' : History) : Prop :=
  ∃ later ps o past, h' = later ++ ⟨.execute j ps, o⟩ :: past ∧ h <:+ past

namespace Ran

variable {j : Nat} {h h' h'' : History}

theorem before (hr : Ran j h' h'') (hs : h <:+ h') : Ran j h h'' := by
  obtain ⟨later, ps, o, past, rfl, hp⟩ := hr
  exact ⟨later, ps, o, past, rfl, hs.trans hp⟩

theorem behind (hr : Ran j h h') (hs : h' <:+ h'') : Ran j h h'' := by
  obtain ⟨later, ps, o, past, rfl, hp⟩ := hr
  obtain ⟨more, rfl⟩ := hs
  exact ⟨more ++ later, ps, o, past, by simp, hp⟩

theorem exists_mem (hr : Ran j h h') : ∃ new e ps, h' = new ++ h ∧ e ∈ new ∧
    e.call = .execute j ps := by
  obtain ⟨later, ps, o, past, rfl, ⟨between, rfl⟩⟩ := hr
  exact ⟨later ++ ⟨.execute j ps, o⟩ :: between, ⟨.execute j ps, o⟩, ps, by simp, by simp, rfl⟩

end Ran

namespace Maria

variable {c : Client} {e : Engine}

/-- What fails in running a statement is a call, and if none does it was run. -/
theorem bindAndExecute_runs : After (bindAndExecute c).run e fun r e' =>
    r ≠ .error .noRows ∧ (r = .ok () → Ran c.number e.history e'.history) := by
  have check {ok : Bool} {action : Bytes} {e₁ : Engine} :
      After (checkStatement c.number ok action).run e₁ fun r e' =>
        r ≠ .error .noRows ∧ (r = .ok () → e' = e₁) := by
    unfold checkStatement
    cases ok with
    | true => exact After.try_pure_iff.2 ⟨nofun, fun _ => rfl⟩
    | false =>
      unfold statementFault
      exact After.try_bind_iff.2 <| After.try_lift_iff.2 <| After.bind_iff.2 <|
        After.of_forall fun s _ => After.pure_iff.2 <| After.throw_iff.2 ⟨nofun, nofun⟩
  have executed {action : Bytes} {e₁ : Engine} (hs : e.history <:+ e₁.history) :
      After (ExceptT.run do
      checkStatement c.number (← Engine.execute c.number c.parameters) action :
        EngineM (Except Fault Unit)) e₁ fun r e' =>
          r ≠ .error .noRows ∧ (r = .ok () → Ran c.number e.history e'.history) := by
    refine After.try_bind_iff.2 <| After.try_lift_iff.2 <|
      Engine.execute_takes.mono fun ok e₂ h₂ => ?_
    obtain ⟨o, hh, -⟩ := h₂.history
    refine check.mono fun r e' ⟨hr, he⟩ => ⟨hr, fun hok => ?_⟩
    have ran : Ran c.number e.history e₂.history := ⟨[], _, o, _, hh, hs⟩
    rwa [he hok]
  unfold bindAndExecute
  split
  · refine After.try_bind_iff.2 <| After.try_lift_iff.2 <| (Engine.onStatement_takes rfl).mono
      fun ok e₁ h₁ => ?_
    obtain ⟨o, hh, -⟩ := h₁.history
    refine After.try_bind_iff.2 <| check.mono fun r e₂ ⟨hr, he⟩ => ?_
    cases r with
    | error f => exact ⟨fun h => hr (by cases h; rfl), nofun⟩
    | ok _ => exact executed (he rfl ▸ hh ▸ List.suffix_cons _ _)
  · exact executed (List.suffix_refl _)

/-- Rows of a statement that has no result are refused, when it was run. -/
theorem beginRows_refused (hc : c.columns = none) :
    After beginRows.run (c, e) fun r a => (∃ f, r = .error f) ∧
      (r = .error .noRows → Ran c.number e.history a.2.history) := by
  unfold beginRows
  have ended : After (endRows c) e fun c' e' => c'.number = c.number ∧ c'.columns = none ∧
      e.history <:+ e'.history := by
    unfold endRows
    split
    · refine After.seq Engine.freeResult_takes fun _ e₁ h₁ => After.pure_iff.2 ⟨rfl, hc, ?_⟩
      obtain ⟨o, hh, -⟩ := h₁.history
      exact hh ▸ List.suffix_cons _ _
    · exact After.pure_iff.2 ⟨rfl, hc, List.suffix_refl _⟩
  refine After.try_bind_iff.2 <| After.try_get_iff.2 <| After.try_bind_iff.2 <|
    After.try_object_onEngine_iff.2 <| ended.mono fun c₁ e₁ ⟨hn, hc₁, hs⟩ => ?_
  refine After.try_bind_iff.2 <| After.try_set_iff.2 <| After.try_bind_iff.2 <|
    After.try_get_iff.2 ?_
  refine After.try_bind_iff.2 <| After.try_object_onTry_iff.2 <|
    bindAndExecute_runs.mono fun r e₂ ⟨hr, hran⟩ => ?_
  cases r with
  | error f => exact ⟨⟨f, rfl⟩, fun h => absurd (by cases h; rfl) hr⟩
  | ok _ =>
    simp only [hc₁, Option.isNone_none, if_true]
    exact After.try_bind_iff.2 <| After.throw_iff.2 ⟨⟨_, rfl⟩, fun _ => hn ▸ (hran rfl).before hs⟩

end Maria

namespace Statement

variable {l : Link} {z : Statement} {w : World}

/-- Querying a statement of MariaDB that has no result is refused, when it was run. -/
theorem query_refused {c : Maria.Client} (hz : z.handle.fixed = .maria c) (hc : c.columns = none) :
    After (query l).run (z, w) fun r a => (∃ f, r = .error f) ∧
      (r = .error .noRows → Ran c.number w.engine.history a.2.engine.history) := by
  have closed := closeCurrent_tends (l := l) (I := w.engine.Extends) (fun _ _ _ _ => admits_extends)
    (.all (s := z) (w := w) (List.suffix_refl _))
  unfold query
  refine After.try_bind_iff.2 <| (closed.and closeCurrent_fault).mono fun r a ⟨ha, hr⟩ => ?_
  cases r with
  | error f =>
    refine ⟨⟨f, rfl⟩, fun h => ?_⟩
    cases h
    exact absurd (hr .noRows rfl) (by decide)
  | ok _ =>
    have hfixed : a.1.handle.fixed = .maria c := ha.alike.handle.trans hz
    cases hh : a.1.handle with
    | sqlite k =>
      rw [hh] at hfixed
      cases hfixed
    | maria s =>
      rw [hh] at hfixed
      obtain rfl : s.fixed = c := Handle.maria.inj hfixed
      have began : After (onHandle Handle.beginRows).run a fun r a' => (∃ f, r = .error f) ∧
          (r = .error .noRows → Ran s.number a.2.engine.history a'.2.engine.history) := by
        change After Handle.beginRows.run (a.1.handle, a.2.engine) fun r o => (∃ f, r = .error f) ∧
          (r = .error .noRows → Ran s.number a.2.engine.history o.2.history)
        rw [hh]
        have refused : After Maria.beginRows.run (s, a.2.engine) fun r o => (∃ f, r = .error f) ∧
          (r = .error .noRows → Ran s.number a.2.engine.history o.2.history) :=
          Maria.beginRows_refused hc
        exact After.try_bind_iff.2 (After.try_get_iff.2 refused)
      refine After.try_bind_iff.2 <| began.mono fun r a' ⟨⟨f, hf⟩, hran⟩ => ?_
      subst hf
      exact ⟨⟨f, rfl⟩, fun h => (hran (by cases h; rfl)).before ha.engine⟩

end Statement

/-! ## Outside of transactions -/

/-- A call of a step runs a statement for its rows: to query it, or to go to a row. -/
def Step.Reads (x : Step) (s : Session) (n k j : Nat) (call : Call) : Prop :=
  (∃ name target ps, x = .query name target ∧ s.statements.find? name = some ⟨n, k⟩ ∧
    call = .execute j ps) ∨
  ∃ name offset m, x = .seek name offset ∧ s.cursors.find? name = some ⟨n, k, m⟩ ∧ call = .step j

/-- What a step may do to a statement that belongs to no transaction runs it for its rows only. -/
theorem Step.MayRun.reads {x : Step} {s : Session} {n k j : Nat} {d : Database}
    {t : Statement.Task} {y : Statement} {call : Call} (hx : x.MayRun s n d k t)
    (hy : d.statements.find? k = some y) (howner : y.owner = none) (hcall : call.runs? = some j)
    (hr : t.RunsBy y call ∨ t = .insert ∧ ∃ i, call.runs? = some i) :
    x.Reads s n k j call := by
  -- what may write belongs to a transaction
  have unowned {y' : Statement} (hy' : d.Runnable k true y') : False := by
    obtain rfl : y = y' := Option.some.inj (hy.symm.trans hy'.statement)
    have := hy'.writes rfl
    rw [howner] at this
    cases this
  cases t with
  | query =>
    obtain ⟨name, target, -, rfl, hname, -⟩ := hx
    obtain ⟨i, ps, -, rfl⟩ := hr.resolve_right (by simp)
    obtain rfl : i = j := Option.some.inj hcall
    exact .inl ⟨name, target, ps, rfl, hname, rfl⟩
  | insert =>
    obtain ⟨-, -, y', -, -, -, hy'⟩ := hx
    exact (unowned hy').elim
  | execute =>
    obtain ⟨-, y', -, -, -, hy'⟩ | ⟨-, -, -, -, -, y', -, -, -, -, -, hy', -⟩ := hx
    · exact (unowned hy').elim
    · exact (unowned hy').elim
  | seek m offset =>
    obtain ⟨name, rfl, hname⟩ := hx
    obtain ⟨-, i, -, -, rfl⟩ := hr.resolve_right (by simp)
    obtain rfl : i = j := Option.some.inj hcall
    exact .inr ⟨name, offset, m, rfl, hname, rfl⟩
  | closeCursor _ | close | write _ => exact hx.elim

namespace Session

variable {s s₁ : Session × World} {n k j : Nat} {z : Statement} {x : Step}

/-- A step runs a statement that belongs to no transaction for its rows only. -/
theorem Owns.after_reads (ho : Owns n k j s) (hz : s.1.statement? n k = some z)
    (howner : z.owner = none) :
    Owns n k j (after x s) ∧ ∃ z', (after x s).1.statement? n k = some z' ∧ z.Alike z' ∧
      Grown (fun _ e => e.call.runs? = some j → x.Reads s.1 n k j e.call) s.2.engine.history
        (after x s).2.engine.history := by
  obtain ⟨d, hd, hk⟩ := statement?_eq_some.1 hz
  have read {d' : Database} {y : Statement} {w : World} {t : Statement.Task} {l : Link}
      (hy : d'.statements.find? k = some y) (ht : t.runs → x.MayRun s.1 n d' k t)
      (ha : z.Alike y) : Grown (fun _ e => e.call.runs? = some j → x.Reads s.1 n k j e.call)
        w.engine.history (t.after l (y, w)).2.engine.history := by
    refine (Statement.Task.runsOnly (t := t) (a := (y, w))).calls.mono fun _ e hc hr => ?_
    refine Step.MayRun.reads (ht ?_) hy (ha.owner.trans howner) hr
      ((hc j hr).imp_right fun ⟨h, i, _, hi⟩ => ⟨h, i, hi⟩)
    obtain hr | ⟨rfl, -⟩ := hc j hr
    · exact Statement.Task.runs_of_runsBy (a := (y, w)) hr
    · rfl
  obtain ⟨ho', -, d', z', hd', hk', -, ha, hg⟩ := (after_tasks x s).focus ho hd hk
    (J := fun a => z.Alike a.1 ∧ Grown (fun _ e => e.call.runs? = some j →
      x.Reads s.1 n k j e.call) s.2.engine.history a.2.engine.history) ⟨.refl, .refl⟩
    (fun y w w' ⟨ha, hg⟩ he => ⟨ha, hg.trans (he.calls.mono fun _ e hs hr =>
      absurd (Call.statement?_of_runs? hr) hs)⟩)
    fun d' y w t _ hy _ ht ⟨ha, hg⟩ => ⟨ha.trans (Statement.Task.alike (a := (y, w))),
      hg.trans (read hy ht ha)⟩
  exact ⟨ho', z', statement?_eq_some.2 ⟨d', hd', hk'⟩, ha, hg⟩

/-- A statement that belongs to no transaction keeps what it uses to itself. -/
theorem Owns.later (ho : Owns n k j s) (hz : s.1.statement? n k = some z) (howner : z.owner = none)
    (hl : Later s s₁) :
    Owns n k j s₁ ∧ ∃ z₁, s₁.1.statement? n k = some z₁ ∧ z.Alike z₁ := by
  induction hl with
  | refl => exact ⟨ho, z, hz, .refl⟩
  | step x _ ih =>
    obtain ⟨ho₁, z₁, hz₁, ha₁⟩ := ih
    obtain ⟨ho₂, z₂, hz₂, ha₂, -⟩ := ho₁.after_reads (x := x) hz₁ (ha₁.owner.trans howner)
    exact ⟨ho₂, z₂, hz₂, ha₁.trans ha₂⟩

end Session

/-! ## Querying a statement without a result -/

/-- A statement that belongs to no transaction is not refused for want of rows. -/
theorem Database.checkRunnable_fault {a : Database × World} {k : Nat} {z : Statement}
    (hz : a.1.statements.find? k = some z) (howner : z.owner = none) :
    After (checkRunnable k false).run a fun r _ => r ≠ .error .noRows := by
  unfold checkRunnable
  refine After.try_bind_iff.2 (After.try_get_iff.2 ?_)
  dsimp only
  cases ho : a.1.openStatement? k with
  | none => exact After.throw_iff.2 nofun
  | some y =>
    obtain rfl : z = y := Option.some.inj (hz.symm.trans (openStatement?_eq_some ho).1)
    refine After.try_bind_iff.2 <| After.try_bind_iff.2 <| After.try_get_iff.2 ?_
    dsimp only
    cases a.1.isOpen with
    | false => exact After.throw_iff.2 nofun
    | true =>
      refine After.try_pure_iff.2 ?_
      simp only [howner]
      exact After.try_pure_iff.2 nofun

namespace Session

variable {s : Session × World} {n k : Nat} {z : Statement} {name target : Bytes}
  {c : Maria.Client}

/-- Querying a statement of MariaDB that has no result is refused, when it was run. -/
theorem query_refused (hname : s.1.statements.find? name = some ⟨n, k⟩)
    (hz : s.1.statement? n k = some z) (howner : z.owner = none)
    (hf : z.handle.fixed = .maria c) (hc : c.columns = none) :
    After (runForCursor name false Statement.query) s fun r s' => (∃ f, r = .error f) ∧
      (r = .error .noRows → Ran c.number s.2.engine.history s'.2.engine.history) := by
  obtain ⟨d, hd, hk⟩ := statement?_eq_some.1 hz
  have queried : After (do
        Database.checkRunnable k false
        let number ← Database.onStatement k Statement.query
        return { database := n, statement := k, number } : Op Database CursorRef).run (d, s.2)
      fun r a => (∃ f, r = .error f) ∧
        (r = .error .noRows → Ran c.number s.2.engine.history a.2.engine.history) := by
    refine After.try_bind_iff.2 <| (Database.checkRunnable_after.and
      (Database.checkRunnable_fault hk howner)).mono fun r a ⟨⟨ha, _⟩, hr⟩ => ?_
    subst ha
    cases r with
    | error f => exact ⟨⟨f, rfl⟩, fun h => absurd (by cases h; rfl) hr⟩
    | ok _ =>
      refine After.try_bind_iff.2 <| Database.onStatement_cases (fun _ => ⟨⟨_, rfl⟩, nofun⟩)
        fun y hy _ => ?_
      obtain rfl : z = y := Option.some.inj (hk.symm.trans hy)
      refine (Statement.query_refused hf hc).mono ?_
      rintro _ _ ⟨⟨f, rfl⟩, hran⟩
      exact ⟨⟨f, rfl⟩, fun h => hran (by cases h; rfl)⟩
  exact (withStatement_iff hname).2 ((attemptOn_iff hd).2 queried)

end Session

/-! ## Reading only -/

namespace Session

variable {s s₁ : Session × World} {n k j : Nat} {z : Statement}

/-- A statement that was prepared outside of transactions is run by no step but to query it or to go
to a row of it. Where it is one of MariaDB that has no result, querying it is refused, but not
before the statement was run: only then the lack of rows is noticed. -/
theorem run_outside_transaction (hr : Reachable s) (hz : s.1.statement? n k = some z)
    (ho : z.isOpen) (howner : z.owner = none) (hj : z.handle.number? = some j) (hl : Later s s₁) :
    (∀ x new e, (after x s₁).2.engine.history = new ++ s₁.2.engine.history → e ∈ new →
      e.call.runs? = some j → x.Reads s₁.1 n k j e.call) ∧
    ∀ c name target, z.handle = .maria c → c.columns = none →
      s₁.1.statements.find? name = some ⟨n, k⟩ →
      After (step (.query name target)) s₁ fun r s' => r.fault ≠ none ∧
        (r.fault = some .noRows → ∃ new e ps, s'.2.engine.history = new ++ s₁.2.engine.history ∧
          e ∈ new ∧ e.call = .execute j ps) := by
  obtain ⟨ho₁, z₁, hz₁, ha⟩ := (hr.owns hz (.inl ⟨ho, hj⟩)).later hz howner hl
  refine ⟨fun x new e hnew he hrun => ?_, fun c name target hc hcolumns hname => ?_⟩
  · obtain ⟨-, -, -, -, hg⟩ := ho₁.after_reads (x := x) hz₁ (ha.owner.trans howner)
    obtain ⟨new', hnew', hreads⟩ := hg.exists_append
    obtain rfl : new = new' := List.append_cancel_right (hnew.symm.trans hnew')
    obtain ⟨-, h⟩ := hreads e he
    exact h hrun
  · have hf : z₁.handle.fixed = .maria c.fixed := by rw [ha.handle, hc]; rfl
    obtain rfl : c.number = j := by simpa [hc, Handle.number?] using hj
    refine (step_reply_iff (Q := fun r s' => r.fault ≠ none ∧ (r.fault = some .noRows →
      ∃ new e ps, s'.2.engine.history = new ++ s₁.2.engine.history ∧ e ∈ new ∧
        e.call = .execute c.number ps))).2 ?_
    refine After.seq (query_refused hname hz₁ (ha.owner.trans howner) hf hcolumns) ?_
    rintro _ s₂ ⟨⟨f, rfl⟩, hran⟩
    have released : Does (fun _ _ _ _ => False) (setCursor target none) := setCursor_does
    refine After.seq (released s₂) fun _ s₃ h₃ =>
      After.pure_iff.2 ⟨Option.some_ne_none f, fun hf => ?_⟩
    obtain rfl : f = .noRows := Option.some.inj hf
    exact ((hran rfl).behind (Tasks.runs h₃).calls.suffix).exists_mem

/-- A statement that deletes and was prepared outside of transactions is run by MariaDB when it is
queried. -/
theorem deleted_outside_transaction :
    let query : Query := { source := .text [] (some "DELETE FROM emp"), declarations := {} }
    let s := (outcome (run [.connect "d" (some "host") {}, .prepare "d" (some query) "k"])
      (start .maria "10.5.0" [] [])).2
    (∃ z, s.1.statement? 0 0 = some z ∧ z.isOpen ∧ z.owner = none ∧ z.handle.number? = some 1) ∧
      ∃ e, (after (.query "k" "c") s).2.engine.history = e :: s.2.engine.history ∧
        e.call.runs? = some 1 ∧ e.outcome = .done ∧
        (Step.query "k" "c").Reads s.1 0 0 1 e.call := by
  intro query s
  have hr : Reachable s := (run_later _).reachable (.start .maria "10.5.0" [] [])
  have hz : (s.1.statement? 0 0).map (fun z => (z.isOpen, z.owner, z.handle.number?)) =
      some (true, none, some 1) := by decide +kernel
  obtain ⟨z, hz, hstate⟩ := Option.map_eq_some_iff.1 hz
  simp only [Prod.mk.injEq] at hstate
  obtain ⟨ho, howner, hj⟩ := hstate
  have hlast : (after (.query "k" "c") s).2.engine.history.head?.map
      (fun e => (e.call.runs?, e.outcome)) = some (some 1, .done) := by decide +kernel
  have hcount : (after (.query "k" "c") s).2.engine.history.length =
      s.2.engine.history.length + 1 := by decide +kernel
  obtain ⟨hreads, -⟩ := run_outside_transaction hr hz ho howner hj .refl
  obtain ⟨new, hnew⟩ := (after_tasks (.query "k" "c") s).runs.calls.suffix
  -- the statement is run and nothing else is called
  have hone : new.length = 1 := by
    rw [← hnew, List.length_append] at hcount
    omega
  obtain ⟨e, rfl⟩ := List.length_eq_one_iff.1 hone
  rw [← hnew, List.cons_append, List.head?_cons, Option.map_some] at hlast
  obtain ⟨hrun, hdone⟩ := by simpa using hlast
  exact ⟨⟨z, hz, ho, howner, hj⟩, e, hnew.symm, hrun, hdone,
    hreads _ [e] e hnew.symm List.mem_cons_self hrun⟩

end Session

end SqlAccess
