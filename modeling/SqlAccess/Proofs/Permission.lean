import SqlAccess.Proofs.Session.Runs
import SqlAccess.Proofs.Transactions

/-!
# What may be run

A statement that may write is run only in a transaction that can be used, on an open database that
is not for reading only, and is queried in a transaction only while that can be used
(`Session.run_while_permitted`). Nothing of that changes while a statement is run
(`Session.Standing`), and no transaction can be begun on a database for reading only
(`Session.Reachable.readOnly`).
-/

namespace SqlAccess

/-! ## Running moves no transaction -/

namespace Database

variable {α : Type} {a : Database × World} {k t : Nat}

/-- What the permission to run statements depends on is the same. -/
structure Standing (d d' : Database) : Prop where
  unmoved : d.Unmoved d'
  isOpen : d'.isOpen = d.isOpen
  link : d'.link = d.link

namespace Standing

variable {d d' d'' : Database}

theorem refl : d.Standing d := ⟨.refl, rfl, rfl⟩

theorem trans (h : d.Standing d') (h' : d'.Standing d'') : d.Standing d'' :=
  ⟨⟨h'.unmoved.root.trans h.unmoved.root, fun u =>
    (h'.unmoved.transactions u).trans (h.unmoved.transactions u)⟩,
    h'.isOpen.trans h.isOpen, h'.link.trans h.link⟩

theorem of_eq (h : d' = d) : d.Standing d' := h ▸ .refl

theorem of_statements {statements : Table Statement} : d.Standing { d with statements } :=
  ⟨⟨rfl, fun _ => rfl⟩, rfl, rfl⟩

theorem withStatement {z : Statement} : d.Standing (d.withStatement z) := by
  refine ⟨⟨rfl, fun u => ?_⟩, rfl, rfl⟩
  unfold Database.withStatement
  cases z.owner with
  | none => rfl
  | some t => exact Table.map_find?_modify _ _ _ fun _ => rfl

end Standing

theorem atStatement_standing {x : Link → Op Statement α} :
    After (atStatement k x).run a fun _ a' => a.1.Standing a'.1 :=
  atStatement_cases (fun _ => .refl) fun _ _ => After.of_forall fun _ _ => .of_statements

theorem onStatement_standing {x : Link → Op Statement α} :
    After (onStatement k x).run a fun _ a' => a.1.Standing a'.1 :=
  onStatement_cases (fun _ => .refl) fun _ _ _ => After.of_forall fun _ _ => .of_statements

theorem closeStatement_standing : After (closeStatement k) a fun _ a' => a.1.Standing a'.1 :=
  closeStatement_cases (fun _ => .refl) fun _ _ => After.of_forall fun _ _ => .of_statements

theorem executeStatement_standing :
    After (executeStatement k).run a fun _ a' => a.1.Standing a'.1 := by
  unfold executeStatement
  refine After.try_seq checkRunnable_after ?_ ?_
  · rintro _ _ ⟨rfl, -⟩
    exact onStatement_standing
  · rintro _ _ ⟨rfl, -⟩
    exact .refl

theorem prepare_standing {query : Option Query} :
    After (prepare (some t) query).run a fun _ a' => a.1.Standing a'.1 := by
  unfold prepare
  refine After.try_seq checkOpen_after ?_ ?_
  · rintro _ _ ⟨rfl, -⟩
    refine After.try_seq checkUsable_after ?_ ?_
    · rintro x a ⟨rfl, -⟩
      refine After.try_bind_iff.2 <| After.try_get_iff.2 <| After.try_bind_iff.2 <|
        After.ofResult_iff.2 ?_
      cases Query.resolve? query a.1.link.info with
      | error f => exact .refl
      | ok descriptor =>
        refine After.try_bind_iff.2 <| After.op_onEngine_iff.2 <| After.of_forall fun r _ => ?_
        cases r with
        | error f =>
          exact After.try_bind_iff.2 <| After.try_lift_iff.2 <| writeLog_same.mono
            fun _ _ h => After.throw_iff.2 (.of_eq h.database)
        | ok handle =>
          refine After.try_bind_iff.2 <| After.try_lift_iff.2 <| writeLog_same.mono
            fun _ a' h => After.try_bind_iff.2 <| After.try_modify_iff.2 <| After.try_pure_iff.2 ?_
          have added : a'.1.Standing (a'.1.withStatement { owner := some t, descriptor, handle }) :=
            .withStatement
          exact (Standing.of_eq h.database).trans added
    · rintro _ _ ⟨rfl, -⟩
      exact .refl
  · rintro _ _ ⟨rfl, -⟩
    exact .refl

theorem executeOnce_standing {query : Option Query} :
    After (executeOnce t query).run a fun _ a' => a.1.Standing a'.1 := by
  unfold executeOnce
  refine After.try_keep prepare_standing fun k a₁ h₁ => ?_
  refine After.try_bind_iff.2 <| After.try_lift_iff.2 <| After.attempt_iff.2 <|
    executeStatement_standing.mono fun ran a₂ h₂ => ?_
  refine After.try_bind_iff.2 <| After.try_lift_iff.2 <| closeStatement_standing.mono
    fun closed a₃ h₃ => ?_
  have h₃ := (h₁.trans h₂).trans h₃
  cases ran with
  | error f => exact After.throw_iff.2 h₃
  | ok _ => exact After.ofResult_iff.2 h₃

end Database

namespace Session

variable {α : Type} {s s' s'' : Session × World} {n : Nat} {name : Bytes}

/-- What the permission to run statements depends on is the same for all databases. -/
def Standing (s s' : Session × World) : Prop :=
  ∀ n d, s.1.opened.find? n = some d → ∃ d', s'.1.opened.find? n = some d' ∧ d.Standing d'

theorem Standing.of_opened (h : s'.1.opened = s.1.opened) : Standing s s' :=
  fun _ d hd => ⟨d, h ▸ hd, .refl⟩

theorem Standing.trans (h : Standing s s') (h' : Standing s' s'') : Standing s s'' := by
  intro n d hd
  obtain ⟨d₁, hd₁, h₁⟩ := h n d hd
  obtain ⟨d₂, hd₂, h₂⟩ := h' n d₁ hd₁
  exact ⟨d₂, hd₂, h₁.trans h₂⟩

theorem onDatabase_standing {x : StateT Database Act α} {otherwise : α}
    (hx : ∀ a, After x a fun _ a' => a.1.Standing a'.1) :
    After (onDatabase n otherwise x) s fun _ s' => Standing s s' := by
  refine onDatabase_cases (fun _ => .of_opened rfl) fun d hd =>
    (hx (d, s.2)).mono fun _ (d', _) h m e he => ?_
  by_cases hm : m = n
  · subst hm
    obtain rfl : d = e := Option.some.inj (hd.symm.trans he)
    exact ⟨d', Table.find?_modify_eq_some.2 (.inl ⟨rfl, d, hd, rfl⟩), h⟩
  · exact ⟨e, Table.find?_modify_eq_some.2 (.inr ⟨hm, he⟩), .refl⟩

theorem withTransaction_standing {x : TransactionRef → Op Database α}
    (hx : ∀ r a, After (x r).run a fun _ a' => a.1.Standing a'.1) :
    After (withTransaction name x) s fun _ s' => Standing s s' :=
  withTransaction_cases (fun _ => .of_opened rfl) fun r _ => onDatabase_standing (hx r)

theorem withStatement_standing {x : StatementRef → Op Database α}
    (hx : ∀ r a, After (x r).run a fun _ a' => a.1.Standing a'.1) :
    After (withStatement name x) s fun _ s' => Standing s s' :=
  withStatement_cases (fun _ => .of_opened rfl) fun r _ => onDatabase_standing (hx r)

theorem runForCursor_standing {writes : Bool} {x : Link → Op Statement Nat} :
    After (runForCursor name writes x) s fun _ s' => Standing s s' := by
  refine withStatement_standing fun r a => ?_
  refine After.try_seq Database.checkRunnable_after ?_ ?_
  · rintro _ _ ⟨rfl, -⟩
    exact After.try_seq Database.onStatement_standing (fun _ _ h => After.try_pure_iff.2 h)
      fun _ _ h => h
  · rintro _ _ ⟨rfl, -⟩
    exact .refl

theorem standing_course : Course Standing where
  refl _ := .of_opened rfl
  trans := .trans
  handles hf s := After.modify_iff.2 (.of_opened (hf s.1).2.1)
  log _ := onDatabase_standing fun _ => Database.writeLog_same.mono fun _ _ h => .of_eq h.database

theorem setCursor_standing {r : Option CursorRef} :
    After (setCursor name r) s fun _ s' => Standing s s' :=
  standing_course.setCursor (fun _ => onDatabase_standing fun _ => Database.atStatement_standing) s

/-! ## Reading only -/

/-- No transaction was begun on a database for reading only. -/
def ReadOnly (s : Session × World) : Prop :=
  ∀ n d, s.1.opened.find? n = some d → d.link.options.readOnly → d.transactions.next = 0

theorem ReadOnly.task {A : Nat → Database → Nat → Statement.Task → Prop} (hs : ReadOnly s)
    (h : Task A s s') : ReadOnly s' := by
  intro n d hd hr
  cases h with
  | handles _ ho _ | failed _ _ ho => exact hs n d (ho ▸ hd) hr
  | opened _ _ _ ho =>
    rw [ho] at hd
    obtain ⟨-, rfl⟩ | hd := Table.find?_add_eq_some.1 hd
    · rfl
    · exact hs n d hd hr
  | @changed m d₁ d₂ _ hm ht ho =>
    rw [ho] at hd
    obtain ⟨rfl, -, -, rfl⟩ | ⟨-, hd⟩ := Table.find?_modify_eq_some.1 hd
    · generalize s'.2 = w' at ht
      cases ht with
      | beside hb => exact hb.readOnly (hb.link ▸ hr) (hs _ _ hm (hb.link ▸ hr))
      | @added _ _ _ z =>
        have hnext : (d₁.withStatement z).transactions.next = d₁.transactions.next := by
          unfold Database.withStatement
          cases z.owner <;> rfl
        exact hnext.trans (hs _ _ hm hr)
      | worked => exact hs _ d₁ hm hr
    · exact hs n d hd hr

theorem Reachable.readOnly (hr : Reachable s) : ReadOnly s := by
  induction hr with
  | start => exact fun _ _ hd => by cases hd
  | @step a x hr ih =>
    have hpath := after_tasks x a
    generalize after x a = b at hpath
    induction hpath with
    | refl => exact ih
    | tail _ h ih => exact ih.task h

/-! ## Permission -/

/-- Whether a step runs a statement that may write. -/
def writes : Step → Bool
  | .update _ | .execute _ | .insert _ _ | .executeOnce _ _ => true
  | _ => false

/-- A step that runs a statement moves no transaction. -/
theorem after_standing {x : Step} (hx : writes x ∨ ∃ name target, x = .query name target) :
    Standing s (after x s) := by
  have run {name : Bytes} {f : Except Fault Int64 → Reply} :
      After (do return f (← execute name) : SessionM Reply) s fun _ s' => Standing s s' :=
    After.seq (withStatement_standing fun _ _ => Database.executeStatement_standing)
      fun _ _ h => After.pure_iff.2 h
  refine (step_iff (Q := fun s' => Standing s s')).2 ?_
  cases x with
  | update name => exact run
  | execute name => exact run
  | insert name target | query name target =>
    exact After.seq runForCursor_standing fun _ _ h => After.seq setCursor_standing
      fun _ _ h' => After.pure_iff.2 (h.trans h')
  | executeOnce name query =>
    exact After.seq (withTransaction_standing fun _ _ => Database.executeOnce_standing)
      fun _ _ h => After.pure_iff.2 h
  | _ => simp [writes] at hx

/-- A transaction can be used, on an open database. -/
structure Permits (s : Session) (t : TransactionRef) (d : Database) : Prop where
  database : s.opened.find? t.database = some d
  isOpen : d.isOpen
  ready : ∃ y, d.Ready t.number y

/-- A statement whose transaction cannot be used is not run for rows: nothing is done but to empty
the handle for the cursor. -/
theorem query_unpermitted {name target : Bytes} {t : TransactionRef}
    (ht : s.1.owner? name = some t) (h : ∀ d, ¬ Permits s.1 t d) :
    After (step (.query name target)) s fun r s' =>
      r.fault ≠ none ∧ s' = after (.drop (.cursor target)) s := by
  obtain ⟨r, hname, z, hz, howner⟩ : ∃ r, s.1.statements.find? name = some r ∧
      ∃ z, s.1.statement? r.database r.number = some z ∧
        z.owner.map (TransactionRef.mk r.database) = some t := by
    simpa [owner?, Option.bind_eq_some_iff, Option.map_eq_some_iff] using ht
  obtain ⟨u, hu, rfl⟩ := Option.map_eq_some_iff.1 howner
  obtain ⟨d, hd, hk⟩ := statement?_eq_some.1 hz
  have refused : After (do
        Database.checkRunnable r.number false
        let number ← Database.onStatement r.number Statement.query
        return { database := r.database, statement := r.number, number } :
          Op Database CursorRef).run
      (d, s.2) fun a a' => (∃ f, a = .error f) ∧ a' = (d, s.2) := by
    refine After.try_seq Database.checkRunnable_after ?_ ?_
    · rintro _ _ ⟨rfl, hrunnable⟩
      obtain ⟨y, hy⟩ := hrunnable rfl
      obtain rfl : z = y := Option.some.inj (hk.symm.trans hy.statement)
      exact absurd ⟨hd, hy.database, hy.owner u hu⟩ (h d)
    · rintro f _ ⟨rfl, -⟩
      exact ⟨⟨f, rfl⟩, rfl⟩
  have run : After (runForCursor name false Statement.query) s fun a s' =>
      (∃ f, a = .error f) ∧ s' = s := by
    refine (withStatement_iff hname).2 <| (attemptOn_iff hd).2 <| refused.mono ?_
    rintro a _ ⟨hf, rfl⟩
    refine ⟨hf, ?_⟩
    dsimp only
    rw [Table.modify_of_find? hd]
  have emptied : After (setCursor target none) s fun _ s' =>
      s' = after (.drop (.cursor target)) s :=
    rfl
  refine (step_reply_iff (Q := fun r s' => r.fault ≠ none ∧
    s' = after (.drop (.cursor target)) s)).2 ?_
  refine After.seq run ?_
  rintro _ _ ⟨⟨f, rfl⟩, rfl⟩
  exact After.seq emptied fun _ _ hs => After.pure_iff.2 ⟨Option.some_ne_none f, hs⟩

/-- What a step may run for writing belongs to the transaction in which it runs, which can be
used. -/
theorem permits_of_mayRun {x : Step} {s : Session} {k : Nat} {d : Database} {y : Statement}
    {t : Statement.Task} (hx : writes x) (hmay : x.MayRun s n d k t)
    (hy : d.statements.find? k = some y) :
    ∃ u d₀, s.executes x = some ⟨n, u⟩ ∧ Permits s ⟨n, u⟩ d₀ ∧ y.owner = some u ∧
      (t = .execute ∨ t = .insert ∧ ∃ name target, x = .insert name target) := by
  have owned {name : Bytes} {y' : Statement} (hname : s.statements.find? name = some ⟨n, k⟩)
      (hd : s.opened.find? n = some d) (hy' : d.Runnable k true y') :
      ∃ u, s.owner? name = some ⟨n, u⟩ ∧ Permits s ⟨n, u⟩ d ∧ y.owner = some u := by
    obtain rfl : y = y' := Option.some.inj (hy.symm.trans hy'.statement)
    obtain ⟨u, hu⟩ := Option.isSome_iff_exists.1 (hy'.writes rfl)
    exact ⟨u, by simp [owner?, statement?, hname, hd, hy, hu],
      ⟨hd, hy'.database, hy'.owner u hu⟩, hu⟩
  cases t with
  | query =>
    obtain ⟨_, _, _, rfl, -⟩ := hmay
    cases hx
  | insert =>
    obtain ⟨name, target, y', rfl, hname, hd, hy'⟩ := hmay
    obtain ⟨u, hu, hp, ho⟩ := owned hname hd hy'
    exact ⟨u, d, hu, hp, ho, .inr ⟨rfl, name, target, rfl⟩⟩
  | execute =>
    obtain ⟨name, y', rfl | rfl, hname, hd, hy'⟩ |
      ⟨name, query, u, d₀, x', y', rfl, hname, hd, hopen, hready, hy', ho⟩ := hmay
    · obtain ⟨u, hu, hp, ho⟩ := owned hname hd hy'
      exact ⟨u, d, hu, hp, ho, .inl rfl⟩
    · obtain ⟨u, hu, hp, ho⟩ := owned hname hd hy'
      exact ⟨u, d, hu, hp, ho, .inl rfl⟩
    · obtain rfl : y = y' := Option.some.inj (hy.symm.trans hy'.statement)
      exact ⟨u, d₀, hname, ⟨hd, hopen, x', hready⟩, ho, .inl rfl⟩
  | seek m offset =>
    obtain ⟨_, rfl, -⟩ := hmay
    cases hx
  | closeCursor _ | close | write _ => exact hmay.elim

/-- A database on which a transaction can be used is not for reading only. -/
theorem Permits.readOnly {t : TransactionRef} {d : Database} (h : Permits s.1 t d)
    (hs : ReadOnly s) : d.link.options.readOnly = false := by
  refine Bool.eq_false_iff.2 fun hread => ?_
  obtain ⟨y, hy, -⟩ := h.ready
  have := Table.lt_next hy
  rw [hs _ d h.database hread] at this
  cases this

/-- Whatever a step runs for writing belongs to a transaction that is open, with none open in it, on
an open database that is not for reading only; an insertion may also run a statement made since, for
the keys. A statement of a transaction is queried only while that is open, with none open in it, on
an open database; else the step does nothing but to empty the handle for the cursor. Through all of
this no transaction is moved, and no database opened or closed. -/
theorem run_while_permitted (hr : Reachable s) (x : Step) :
    (∀ new e j, writes x → (after x s).2.engine.history = new ++ s.2.engine.history → e ∈ new →
      e.call.runs? = some j → ∃ t d d', s.1.executes x = some t ∧ Permits s.1 t d ∧
        d.link.options.readOnly = false ∧ (after x s).1.opened.find? t.database = some d' ∧
        d.Standing d' ∧
        ((∃ k z, d'.statements.find? k = some z ∧ z.owner = some t.number ∧
            z.handle.number? = some j) ∨
          (∃ name target, x = .insert name target) ∧ s.2.engine.statements.next ≤ j)) ∧
    ∀ name target t, x = .query name target → s.1.owner? name = some t →
      (∃ d d', Permits s.1 t d ∧ (after x s).1.opened.find? t.database = some d' ∧ d.Standing d') ∨
      After (step x) s fun r s' => r.fault ≠ none ∧ s' = after (.drop (.cursor target)) s := by
  refine ⟨fun new e j hx hnew he hrun => ?_, ?_⟩
  · obtain ⟨new', hnew', hruns⟩ := (after_tasks x s).runs.calls.exists_append
    obtain rfl : new = new' := List.append_cancel_right (hnew.symm.trans hnew')
    obtain ⟨-, hcalls⟩ := hruns e he
    obtain ⟨n, k, d₁, d', y, z, task, h⟩ := hcalls j hrun
    obtain ⟨u, d, hu, hp, ho, htask⟩ := permits_of_mayRun hx h.may h.before
    obtain ⟨d₂, hd₂, hstanding⟩ := after_standing (.inl hx) n d hp.database
    obtain rfl : d' = d₂ := Option.some.inj (h.database.symm.trans hd₂)
    refine ⟨⟨n, u⟩, d, d', hu, hp, hp.readOnly hr.readOnly, hd₂, hstanding, ?_⟩
    -- it was the statement of the task, or one made for the keys
    have mine : (∃ i, y.handle.number? = some i ∧ e.call.runs? = some i) ∨
        (∃ name target, x = .insert name target) ∧
          ∃ i, s.2.engine.statements.next ≤ i ∧ e.call.runs? = some i := by
      obtain rfl | ⟨rfl, hinsert⟩ := htask
      · exact .inl (h.call.resolve_right (by simp))
      · exact h.call.imp id fun ⟨_, hi⟩ => ⟨hinsert, hi⟩
    obtain ⟨i, hi, hcall⟩ | ⟨hinsert, i, hi, hcall⟩ := mine
    · obtain rfl : i = j := Option.some.inj (hcall.symm.trans hrun)
      exact .inl ⟨k, z, h.after, h.alike.owner.trans ho, h.alike.number.trans hi⟩
    · obtain rfl : i = j := Option.some.inj (hcall.symm.trans hrun)
      exact .inr ⟨hinsert, hi⟩
  · rintro name target t rfl ht
    by_cases hp : ∃ d, Permits s.1 t d
    · obtain ⟨d, hp⟩ := hp
      obtain ⟨d', hd', hstanding⟩ := after_standing (.inr ⟨name, target, rfl⟩) _ d hp.database
      exact .inl ⟨d, d', hp, hd', hstanding⟩
    · exact .inr (query_unpermitted ht (not_exists.1 hp))

/-- A session in which a statement was prepared in a transaction, and what is done then. -/
def permissionTrial (steps : List Step) : Session × World :=
  let query : Query := { source := .text [] (some "A"), declarations := {} }
  (outcome (run ([.connect "d" (some "file") {}, .begin "d" "t", .prepareIn "t" (some query) "k"] ++
    steps)) (start .sqlite "3.40.0" [] [])).2

/-- A statement is run in its transaction, and not while another one is open in that. -/
theorem refused_while_nested :
    (∃ e t d, e ∈ (after (.update "k") (permissionTrial [])).2.engine.history ∧
      e.call.runs? = some 1 ∧ (permissionTrial []).1.executes (.update "k") = some t ∧
      Permits (permissionTrial []).1 t d) ∧
    After (step (.query "k" "c")) (permissionTrial [.nest "t" "u"]) fun r s' =>
      r.fault ≠ none ∧ s' = after (.drop (.cursor "c")) (permissionTrial [.nest "t" "u"]) := by
  have hr (steps : List Step) : Reachable (permissionTrial steps) :=
    (run_later _).reachable (.start .sqlite "3.40.0" [] [])
  constructor
  · have hrun : (after (.update "k") (permissionTrial [])).2.engine.history.any
        (fun e => e.call.runs? == some 1) = true := by decide +kernel
    have hbefore : (permissionTrial []).2.engine.history.all
        (fun e => e.call.runs? != some 1) = true := by decide +kernel
    obtain ⟨e, he, hrun⟩ := List.any_eq_true.1 hrun
    have hrun : e.call.runs? = some 1 := beq_iff_eq.1 hrun
    obtain ⟨new, hnew⟩ := (after_tasks (.update "k") (permissionTrial [])).runs.calls.suffix
    have hmem : e ∈ new := by
      rw [← hnew] at he
      refine (List.mem_append.1 he).resolve_right fun hold => ?_
      exact absurd hrun (bne_iff_ne.1 (List.all_eq_true.1 hbefore e hold))
    obtain ⟨t, d, -, ht, hp, -⟩ := (run_while_permitted (hr []) (.update "k")).1 new e 1 rfl
      hnew.symm hmem hrun
    exact ⟨e, t, d, he, hrun, ht, hp⟩
  · have howner : (permissionTrial [.nest "t" "u"]).1.owner? "k" = some ⟨0, 0⟩ := by decide +kernel
    have hchild : ((permissionTrial [.nest "t" "u"]).1.opened.find? 0).map (·.openChild? 0) =
        some (some 1) := by decide +kernel
    refine ((run_while_permitted (hr _) _).2 "k" "c" ⟨0, 0⟩ rfl howner).resolve_left ?_
    rintro ⟨d, -, ⟨hd, -, y, -, -, hnone⟩, -⟩
    rw [hd, Option.map_some, hnone] at hchild
    cases hchild

end Session

end SqlAccess
