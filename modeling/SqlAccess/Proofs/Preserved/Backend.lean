import SqlAccess.Backend
import SqlAccess.Proofs.Preserved

/-!
# What the backends preserve

The operations on prepared statements preserve a predicate of the engine that admits quiet calls
on the statement they are about, and running it where they do. Those on connections preserve what
admits calls that concern no statement.
-/

namespace SqlAccess

variable {I : Engine → Prop} {c : Option Nat} {k : Nat}

/-- A statement of MariaDB as it is prepared, whatever was done with it since. -/
def Maria.Client.fixed (s : Maria.Client) : Maria.Client :=
  { s with parameters := [], hasRows := false }

namespace Handle

/-- The number of a prepared statement. -/
def number? : Handle → Option Nat
  | sqlite k => k
  | maria s => some s.number

/-- A statement as it is prepared, whatever was done with it since. -/
def fixed : Handle → Handle
  | sqlite k => sqlite k
  | maria s => maria s.fixed

variable {h h' : Handle}

@[simp] theorem number?_fixed : h.fixed.number? = h.number? := by
  cases h <;> rfl

theorem number?_of_fixed (hf : h'.fixed = h.fixed) : h'.number? = h.number? := by
  rw [← number?_fixed, hf, number?_fixed]

end Handle

theorem Maria.Client.number_of_fixed {s s' : Maria.Client} (hf : s'.fixed = s.fixed) :
    s'.number = s.number :=
  congrArg (·.number) hf

theorem preserves_call {α : Type} {x : EngineM α} {call : Call} (h : Admits I call)
    (hx : ∀ e, After x e fun _ e' => e.Takes call e') : Preserves I (liftM x : EngineTry α).run :=
  preserves_try_lift (preserves_taking h hx)

/-! ## SQLite -/

namespace Sqlite

section Looking

variable [Steady I]

theorem preserves_failureText {code : Int32} : Preserves I (failureText c code) := by
  unfold failureText
  cases c with
  | none => exact preserves_pure _
  | some c =>
    exact preserves_bind (preserves_altering fun _ => Engine.viewConnection_alters)
      fun _ => preserves_pure _

theorem preserves_fault? {code : Int32} {action : Bytes} : Preserves I (fault? c code action) := by
  unfold fault?
  exact preserves_bind preserves_failureText fun _ => preserves_pure _

theorem preserves_check {code : Int32} {action : Bytes} :
    Preserves I (check c code action).run := by
  unfold check
  split
  · refine preserves_try_bind (preserves_try_lift preserves_fault?) fun f => ?_
    cases f with
    | none => exact preserves_try_pure _
    | some f => exact preserves_throw f
  · exact preserves_try_pure _

theorem preserves_copyRow {values : List (Option Cell)} {copied : List Cell} :
    Preserves I (copyRow copied values).run := by
  induction values generalizing copied with
  | nil => exact preserves_try_pure _
  | cons value rest ih =>
    refine preserves_try_bind (preserves_try_lift
      (preserves_altering fun _ => Engine.copyValue_alters)) fun cell => ?_
    cases cell with
    | some cell => exact ih
    | none =>
      exact preserves_try_bind (preserves_try_lift
        (preserves_altering fun _ => Engine.freeCells_alters)) fun _ => preserves_throw _

theorem preserves_columnNames {k : Option Nat} : Preserves I (columnNames k) := by
  unfold columnNames
  cases k with
  | none => exact preserves_pure _
  | some n =>
    exact preserves_bind (preserves_altering fun _ => Engine.viewStatement_alters)
      fun _ => preserves_pure _

end Looking

theorem preserves_finalize (hq : AdmitsRelease I k) : Preserves I (finalize k).run := by
  unfold finalize
  exact preserves_try_bind (preserves_call (hq _ rfl) fun _ => Engine.finalize_takes)
    fun _ => preserves_try_pure _

theorem preserves_runToEnd (hr : AdmitsRun I k) (n : Nat) : Preserves I (runToEnd k n) := by
  induction n with
  | zero => exact preserves_pure _
  | succ n ih =>
    unfold runToEnd
    refine preserves_bind (preserves_taking (hr _ rfl) fun _ => Engine.step_takes) fun r => ?_
    cases r with
    | row _ => exact ih
    | finished => exact preserves_pure _
    | failed _ => exact preserves_pure _

theorem preserves_rewind {k : Option Nat} (hq : ∀ n, k = some n → AdmitsRelease I n) :
    Preserves I (rewind k) := by
  unfold rewind
  cases k with
  | none => exact preserves_pure _
  | some n => exact preserves_taking (hq n rfl _ rfl) fun _ => Engine.reset_takes

variable [Steady I]

theorem preserves_disconnect (h : ∀ n, c = some n → Admits I (.close n)) :
    Preserves I (disconnect c).run := by
  unfold disconnect
  cases c with
  | none => exact preserves_try_pure _
  | some n =>
    exact preserves_try_bind (preserves_call (h n rfl) fun _ => Engine.closeFile_takes)
      fun _ => preserves_check

theorem preserves_finalizeStrictly (hq : AdmitsRelease I k) :
    Preserves I (finalizeStrictly k).run := by
  unfold finalizeStrictly
  refine preserves_try_bind
      (preserves_try_lift (preserves_altering fun _ => Engine.viewStatement_alters)) fun s =>
    preserves_try_bind (preserves_call (hq _ rfl) fun _ => Engine.finalize_takes)
      fun code => ?_
  split
  · exact preserves_try_bind (preserves_try_lift preserves_failureText) fun _ => preserves_throw _
  · exact preserves_try_pure _

theorem preserves_execute {k : Option Nat} (hq : ∀ n, k = some n → AdmitsRelease I n)
    (hr : ∀ n, k = some n → AdmitsRun I n) : Preserves I (execute c k).run := by
  unfold execute
  cases k with
  | none => exact preserves_try_bind preserves_check fun _ => preserves_try_pure _
  | some n =>
    have reset : Preserves I (liftM (Engine.reset n) : EngineTry Unit).run :=
      preserves_call (hq n rfl _ rfl) fun _ => Engine.reset_takes
    refine preserves_try_bind
        (preserves_try_lift (preserves_altering fun _ => Engine.statement_alters)) fun s =>
      preserves_try_bind (preserves_try_lift (preserves_runToEnd (hr n rfl) _)) fun r => ?_
    dsimp only
    split
    · refine preserves_try_bind (preserves_try_lift preserves_fault?) fun f =>
        preserves_try_bind reset fun _ => ?_
      cases f with
      | none => exact preserves_try_pure _
      | some f => exact preserves_throw f
    · split
      · exact preserves_try_bind
          (preserves_try_lift (preserves_altering fun _ => Engine.viewConnection_alters)) fun _ =>
            preserves_try_bind (preserves_try_pure _) fun _ =>
              preserves_try_bind reset fun _ => preserves_try_pure _
      · exact preserves_try_bind (preserves_try_pure _) fun _ =>
          preserves_try_bind reset fun _ => preserves_try_pure _

/-- What is made of a step that was to fetch a row. -/
theorem fetched_after {r : StepResult} {e : Engine}
    {Q : Except Fault (Option (List Cell)) → Engine → Prop}
    (hfinished : r = .finished → Q (.ok none) e)
    (hfailed : ∀ code, r = .failed code →
      After (check c code "Row fetch failed").run e fun a e' => Q (a.map fun _ => none) e')
    (hrow : ∀ values, r = .row values →
      After (copyRow [] values).run e fun a e' => Q (a.map some) e') :
    After (ExceptT.run do
      match r with
      | .finished => return none
      | .failed code => check c code "Row fetch failed"; return none
      | .row values => return some (← copyRow [] values) :
        EngineM (Except Fault (Option (List Cell)))) e Q := by
  cases r with
  | finished => exact After.try_pure_iff.2 (hfinished rfl)
  | failed code =>
    exact After.try_seq (hfailed code rfl) (fun _ _ h => After.try_pure_iff.2 h) fun _ _ h => h
  | row values =>
    exact After.try_seq (hrow values rfl) (fun _ _ h => After.try_pure_iff.2 h) fun _ _ h => h

theorem preserves_fetchRow {k : Option Nat} (hr : ∀ n, k = some n → AdmitsStep I n) :
    Preserves I (fetchRow c k).run := by
  have fetched (r : StepResult) (e : Engine) (he : I e) :=
    fetched_after (c := c) (r := r) (Q := fun _ e' => I e') (fun _ => he)
      (fun _ _ => preserves_check e he) fun _ _ => preserves_copyRow e he
  unfold fetchRow
  cases k with
  | none => exact preserves_try_bind (preserves_try_pure _) fetched
  | some n =>
    exact preserves_try_bind (preserves_call (hr n rfl) fun _ => Engine.step_takes) fetched

theorem preserves_bind {k : Option Nat} {type : ValueType} {slot : Nat} {v : Value}
    (hq : ∀ n, k = some n → AdmitsQuiet I n) : Preserves I (bind k type slot v).run := by
  unfold bind
  refine preserves_try_bind (preserves_mk (preserves_pure _)) fun _ => ?_
  cases k with
  | none => exact preserves_check
  | some n =>
    refine preserves_try_bind (preserves_call (hq n rfl _ rfl rfl rfl) fun _ => Engine.bind_takes)
      fun code => ?_
    split
    · exact preserves_try_bind
        (preserves_try_lift (preserves_altering fun _ => Engine.viewStatement_alters))
        fun _ => preserves_check
    · exact preserves_try_pure _

/-- What is made of what the engine prepared. -/
theorem prepared_after {r : Int32 × Option Nat} {e : Engine}
    {Q : Except Fault (Option Nat) → Engine → Prop}
    (hmade : ∀ k, r = (0, some k) → Q (.ok (some k)) e)
    (hblank : r = (0, none) → Q (.error .noStatement) e)
    (hfailed : r.1 ≠ 0 → After (check c r.1 "SQL error when preparing query").run e
      fun a e' => Q (a.map fun _ => none) e') :
    After (ExceptT.run do
      let (code, k) := r
      if code = 0 then
        if k.isNone then throw .noStatement
        return k
      else
        check c code "SQL error when preparing query"
        return none : EngineM (Except Fault (Option Nat))) e Q := by
  obtain ⟨code, k⟩ := r
  dsimp only
  split
  · next hcode =>
    subst hcode
    cases k with
    | none => exact After.try_bind_iff.2 (After.throw_iff.2 (hblank rfl))
    | some k => exact After.try_pure_iff.2 (hmade k rfl)
  · next hcode =>
    exact After.try_seq (hfailed hcode) (fun _ _ h => After.try_pure_iff.2 h) fun _ _ h => h

/-- A statement that is prepared is a fresh one. -/
theorem prepare_preserves {sql : Bytes} (hp : ∀ n, c = some n → AdmitsPrepare I n) {e : Engine}
    (he : I e) : After (prepare c sql).run e fun r e' =>
      I e' ∧ ∀ k, r = .ok (some k) → k = e.statements.next ∧ k < e'.statements.next := by
  have answer (r : Int32 × Option Nat) {e₁ : Engine} (h₁ : I e₁)
      (hk : ∀ k, r.2 = some k → k = e.statements.next ∧ k < e₁.statements.next) :=
    prepared_after (c := c) (r := r) (e := e₁)
      (Q := fun r e' => I e' ∧ ∀ k, r = .ok (some k) → k = e.statements.next ∧
        k < e'.statements.next)
      (by
        rintro k rfl
        refine ⟨h₁, ?_⟩
        rintro _ ⟨⟩
        exact hk k rfl)
      (fun _ => ⟨h₁, fun _ hr => by cases hr⟩)
      fun _ => (preserves_check e₁ h₁).mono fun a _ h => ⟨h, fun _ hr => by cases a <;> cases hr⟩
  unfold prepare
  cases c with
  | none =>
    exact After.try_bind_iff.2 <| After.try_pure_iff.2 <|
      answer (misuseCode, none) he fun _ hk => by cases hk
  | some n =>
    refine After.try_call Engine.prepare_prepares fun r e₁ h₁ => ?_
    have hn := hp n rfl (.prepare n sql) (by simp [Call.prepares])
    cases hk : r.2 with
    | none =>
      rw [hk] at h₁
      exact answer r (hn.1 e e₁ he h₁) fun _ hk' => by cases hk.symm.trans hk'
    | some k =>
      obtain ⟨rfl, h₁⟩ : k = e.statements.next ∧ e.Adds _ e₁ := by
        rw [hk] at h₁
        exact h₁
      refine answer r (hn.2 e e₁ he h₁) ?_
      rw [hk]
      rintro _ ⟨⟩
      exact ⟨rfl, h₁.next ▸ Nat.lt_succ_self _⟩

theorem preserves_control {d : Directive} (h : AdmitsRest I) :
    Preserves I (control c d).run := by
  unfold control
  cases c with
  | none => exact preserves_check
  | some n =>
    refine preserves_try_bind (preserves_call (h.admits rfl) fun _ => Engine.exec_takes)
      fun r => ?_
    obtain ⟨code, message⟩ := r
    dsimp only
    split
    · refine preserves_try_bind (preserves_try_lift preserves_failureText) fun text => ?_
      split
      · exact preserves_throw _
      · exact preserves_try_pure _
    · exact preserves_try_pure _

theorem preserves_connect {path : Bytes} {readOnly : Bool} {busyTimeout : Int32}
    (h : AdmitsRest I) : Preserves I (connect path readOnly busyTimeout).run := by
  unfold connect
  refine preserves_try_bind (preserves_try_lift fun e he =>
    Engine.openFile_passes.mono fun _ e' hp => h e e' he hp) fun r => ?_
  obtain ⟨code, c⟩ := r
  have surely {call : Call} (hs : call.statement? = none) :
      Preserves I (liftM (Engine.performSurely call) : EngineTry Unit).run :=
    preserves_call (h.admits hs) fun _ => Engine.performSurely_takes
  dsimp only
  split
  · cases c with
    | none => exact preserves_try_pure _
    | some c =>
      refine preserves_try_bind (surely rfl) fun _ => ?_
      split
      · exact preserves_try_bind (surely rfl) fun _ => preserves_try_pure _
      · exact preserves_try_pure _
  · refine preserves_try_bind (preserves_try_lift preserves_fault?) fun f => ?_
    cases c with
    | none => exact fun e he => After.try_fault (fun _ => he) fun _ _ => he
    | some c =>
      exact preserves_try_bind (preserves_call (h.admits rfl) fun _ => Engine.closeFile_takes)
        fun _ e he => After.try_fault (fun _ => he) fun _ _ => he

end Sqlite

/-! ## MariaDB -/

namespace Maria

section Looking

variable [Steady I]

theorem preserves_connectionFault {c : Nat} {action : Bytes} :
    Preserves I (connectionFault c action) := by
  unfold connectionFault
  exact SqlAccess.preserves_bind (preserves_altering fun _ => Engine.viewConnection_alters)
    fun _ => preserves_pure _

theorem preserves_statementFault {action : Bytes} : Preserves I (statementFault k action) := by
  unfold statementFault
  exact SqlAccess.preserves_bind (preserves_altering fun _ => Engine.viewStatement_alters)
    fun _ => preserves_pure _

theorem preserves_checkConnection {c : Nat} {ok : Bool} {action : Bytes} :
    Preserves I (checkConnection c ok action).run := by
  unfold checkConnection
  cases ok with
  | true => exact preserves_try_pure _
  | false =>
    exact preserves_try_bind (preserves_try_lift preserves_connectionFault)
      fun _ => preserves_throw _

theorem preserves_checkStatement {ok : Bool} {action : Bytes} :
    Preserves I (checkStatement k ok action).run := by
  unfold checkStatement
  cases ok with
  | true => exact preserves_try_pure _
  | false =>
    exact preserves_try_bind (preserves_try_lift preserves_statementFault)
      fun _ => preserves_throw _

/-- A call on a statement whose failure counts. -/
theorem preserves_checked {x : EngineM Bool} {action : Bytes} (h : Preserves I x) :
    Preserves I (do checkStatement k (← x) action : EngineTry Unit).run :=
  preserves_try_bind (preserves_try_lift h) fun _ => preserves_checkStatement

theorem preserves_viewedScript {α : Type} {f : Prepared → α} :
    Preserves I (do return f (← Engine.viewStatement k) : EngineTry α).run :=
  preserves_try_bind (preserves_try_lift (preserves_altering fun _ => Engine.viewStatement_alters))
    fun _ => preserves_try_pure _

end Looking

theorem preserves_onStatement {call : Call} (hs : call.statement? = some k) (h : Admits I call) :
    Preserves I (Engine.onStatement k call) :=
  preserves_taking h fun _ => Engine.onStatement_takes hs

theorem preserves_disconnect (h : ∀ n, c = some n → Admits I (.close n)) :
    Preserves I (disconnect c).run := by
  unfold disconnect
  cases c with
  | none => exact preserves_try_pure _
  | some n => exact preserves_call (h n rfl) fun _ => Engine.closeConnection_takes

variable {s : Client}

theorem preserves_finalize (hq : AdmitsRelease I s.number) : Preserves I (finalize s).run := by
  unfold finalize
  refine preserves_try_bind (preserves_call (hq _ rfl) fun _ => Engine.closeStatement_takes)
    fun ok => ?_
  cases ok with
  | true => exact preserves_try_pure _
  | false => exact preserves_throw _

theorem preserves_endRows (hq : AdmitsRelease I s.number) : Preserves I (endRows s) := by
  unfold endRows
  split
  · exact SqlAccess.preserves_bind
      (preserves_taking (hq _ rfl) fun _ => Engine.freeResult_takes) fun _ => preserves_pure _
  · exact preserves_pure _

theorem endRows_fixed (e : Engine) : After (endRows s) e fun s' _ => s'.fixed = s.fixed := by
  unfold endRows
  split
  · exact After.seq Engine.freeResult_takes fun _ _ _ => After.pure_iff.2 rfl
  · exact After.pure_iff.2 rfl

variable [Steady I]

theorem preserves_exec {n : Nat} {d : Directive} (hd : Admits I (.query n d))
    (hs : Admits I (.store n)) : Preserves I (exec n d).run := by
  unfold exec
  exact preserves_try_bind (preserves_call hd fun _ => Engine.query_takes) fun _ =>
    preserves_try_bind preserves_checkConnection fun _ =>
      preserves_try_bind (preserves_call hs fun _ => Engine.onConnection_takes) fun _ =>
        preserves_try_bind
          (preserves_try_lift (preserves_altering fun _ => Engine.viewConnection_alters))
          fun _ => preserves_checkConnection

theorem preserves_control {d : Directive} (h : AdmitsRest I) :
    Preserves I (control c d).run := by
  unfold control
  cases c with
  | none => exact preserves_throw _
  | some n => exact preserves_exec (h.admits rfl) (h.admits rfl)

theorem preserves_connect {dsn : Bytes} {readOnly : Bool} {busyTimeout : Int32}
    (h : AdmitsRest I) : Preserves I (connect dsn readOnly busyTimeout).run := by
  have asked {n : Nat} {call : Call} (hs : call.statement? = none) :
      Preserves I (liftM (Engine.onConnection n call) : EngineTry Bool).run :=
    preserves_call (h.admits hs) fun _ => Engine.onConnection_takes
  have setUp {n : Nat} : Preserves I (setUp n (Dsn.parse dsn) readOnly busyTimeout).run := by
    have waits : Preserves I (if 0 < busyTimeout then
        exec n (.lockWait ((busyTimeout + 999) / 1000).toInt) else pure () :
          EngineTry Unit).run := by
      split
      · exact preserves_exec (h.admits rfl) (h.admits rfl)
      · exact preserves_try_pure _
    unfold Maria.setUp
    refine preserves_try_bind (asked rfl) fun _ => preserves_try_bind preserves_checkConnection
      fun _ => preserves_try_bind (asked rfl) fun _ =>
        preserves_try_bind preserves_checkConnection fun _ => ?_
    cases readOnly with
    | false => exact waits
    | true => exact preserves_try_bind (preserves_exec (h.admits rfl) (h.admits rfl)) fun _ => waits
  unfold connect
  refine preserves_try_bind (preserves_try_lift fun e he =>
    Engine.init_passes.mono fun _ e' hp => h e e' he hp) fun n => ?_
  cases n with
  | none => exact preserves_throw _
  | some n =>
    refine preserves_try_bind (preserves_try_lift setUp) fun r => ?_
    cases r with
    | ok _ => exact preserves_try_pure _
    | error f =>
      exact preserves_try_bind (preserves_call (h.admits rfl) fun _ => Engine.closeConnection_takes)
        fun _ => preserves_throw _

theorem preserves_bindAndExecute (hq : AdmitsStart I s.number) (hr : AdmitsExecute I s.number) :
    Preserves I (bindAndExecute s).run := by
  have executed (action : Bytes) : Preserves I (ExceptT.run do
      checkStatement s.number (← Engine.execute s.number s.parameters) action :
        EngineM (Except Fault Unit)) :=
    preserves_checked (preserves_taking (hr s.parameters) fun _ => Engine.execute_takes)
  unfold bindAndExecute
  split
  · exact preserves_try_bind (preserves_try_lift (preserves_onStatement rfl (hq _ rfl rfl rfl rfl)))
      fun _ => preserves_try_bind preserves_checkStatement fun _ => executed _
  · exact executed _

theorem preserves_execute (hq : AdmitsQuiet I s.number) (hr : AdmitsExecute I s.number) :
    Preserves I (execute s).run := by
  unfold execute
  refine preserves_try_bind (preserves_bindAndExecute hq.start hr) fun _ => ?_
  split
  · exact preserves_try_bind (preserves_try_lift (preserves_onStatement rfl (hq _ rfl rfl rfl)))
      fun _ => preserves_try_bind preserves_checkStatement fun _ =>
        preserves_try_bind (preserves_call (hq _ rfl rfl rfl) fun _ => Engine.freeResult_takes)
          fun _ => preserves_viewedScript
  · exact preserves_viewedScript

theorem preserves_fetchRow (hq : AdmitsQuiet I s.number) : Preserves I (fetchRow s).run := by
  unfold fetchRow
  split
  · exact preserves_try_pure _
  · refine preserves_try_bind (preserves_call (hq _ rfl rfl rfl) fun _ => Engine.fetch_takes)
      fun r => ?_
    cases r with
    | noRow => exact preserves_try_pure _
    | truncated => exact preserves_throw _
    | failed =>
      exact preserves_try_bind (preserves_try_lift preserves_statementFault)
        fun _ => preserves_throw _
    | row values => exact preserves_try_pure _

theorem beginRows_preserves (hq : AdmitsStart I s.number) (hr : AdmitsExecute I s.number)
    {e : Engine} (he : I e) : After beginRows.run (s, e) fun _ s' => s'.1.fixed = s.fixed ∧
      I s'.2 := by
  -- a call on the engine keeps what was reached so far
  have step {α : Type} {x : EngineTry α} (hx : Preserves I x.run) {s₁ : Client × Engine}
      (h : s₁.1.fixed = s.fixed ∧ I s₁.2) :
      After (liftM x : ClientTry α).run s₁ fun _ s₂ => s₂.1.fixed = s.fixed ∧ I s₂.2 :=
    After.try_object_onTry_iff.2 <| (hx s₁.2 h.2).mono fun _ _ hc => ⟨h.1, hc⟩
  have look {x : EngineM Bool} (hx : Preserves I x) {s₁ : Client × Engine}
      (h : s₁.1.fixed = s.fixed ∧ I s₁.2) :
      After (liftM x : ClientTry Bool).run s₁ fun _ s₂ => s₂.1.fixed = s.fixed ∧ I s₂.2 :=
    After.try_object_onEngine_iff.2 <| (hx s₁.2 h.2).mono fun _ _ hc => ⟨h.1, hc⟩
  unfold beginRows
  refine After.try_bind_iff.2 <| After.try_get_iff.2 <| After.try_bind_iff.2 <|
    After.try_object_onEngine_iff.2 <|
      ((endRows_fixed e).and (preserves_endRows hq.release e he)).mono
      fun s₁ e₁ h₁ => ?_
  refine After.try_bind_iff.2 <| After.try_set_iff.2 <| After.try_bind_iff.2 <|
    After.try_get_iff.2 ?_
  have hq₁ : AdmitsStart I s₁.number := Client.number_of_fixed h₁.1 ▸ hq
  have hr₁ : AdmitsExecute I s₁.number := Client.number_of_fixed h₁.1 ▸ hr
  refine After.try_keep (step (preserves_bindAndExecute hq₁ hr₁) h₁) fun _ s₂ h₂ => ?_
  have rest {s₃ : Client × Engine} (h₃ : s₃.1.fixed = s.fixed ∧ I s₃.2) :
      After (do
        checkStatement s₁.number (← Engine.storeResult s₁.number)
          "mysql_stmt_store_result failed"
        set { s₁ with hasRows := true }
        checkStatement s₁.number (← Engine.bindResult s₁.number)
          "mysql_stmt_bind_result failed" : ClientTry Unit).run s₃
        fun _ s' => s'.1.fixed = s.fixed ∧ I s'.2 :=
    After.try_keep (look (preserves_onStatement rfl (hq₁ _ rfl rfl rfl rfl)) h₃) fun _ _ h =>
      After.try_keep (step preserves_checkStatement h) fun _ _ h =>
        After.try_keep (After.try_set_iff.2 ⟨h₁.1, h.2⟩) fun _ _ h =>
          After.try_keep (look (preserves_onStatement rfl (hq₁ _ rfl rfl rfl rfl)) h) fun _ _ h =>
            step preserves_checkStatement h
  split
  · exact After.try_keep (After.throw_iff.2 h₂) fun _ _ h => rest h
  · exact rest h₂

omit [Steady I] in
theorem bind_preserves {type : ValueType} {slot : Nat} {v : Value} {e : Engine} (he : I e) :
    After (bind type slot v).run (s, e) fun _ s' => s'.1.fixed = s.fixed ∧ I s'.2 := by
  unfold bind
  refine After.try_keep (After.mk_iff.2 (After.pure_iff.2 ⟨rfl, he⟩)) fun _ s₁ h₁ => ?_
  refine After.try_bind_iff.2 <| After.try_get_iff.2 ?_
  dsimp only
  split
  · exact After.try_set_iff.2 ⟨h₁.1, h₁.2⟩
  · exact After.throw_iff.2 h₁

/-- A statement that is prepared is a fresh one. -/
theorem prepare_preserves {sql : Bytes} (hp : ∀ n, c = some n → AdmitsPrepare I n)
    (hq : AdmitsNew I) {e : Engine} (he : I e) : After (prepare c sql).run e fun r e' =>
      I e' ∧ ∀ s, r = .ok s → s.number = e.statements.next ∧ s.number < e'.statements.next := by
  unfold prepare
  have nothing {f : Fault} {e' : Engine} (h : I e') : I e' ∧ ∀ s : Client,
      (.error f : Except Fault Client) = .ok s →
        s.number = e.statements.next ∧ s.number < e'.statements.next :=
    ⟨h, fun _ hf => by cases hf⟩
  cases c with
  | none => exact After.throw_iff.2 (nothing he)
  | some n =>
    have hn := hp n rfl (.newStatement n) (by simp [Call.prepares])
    refine After.try_call Engine.newStatement_prepares fun k e₁ h₁ => ?_
    have refused {e₂ : Engine} {x : EngineTry Fault} (h₂ : I e₂) (hx : Preserves I x.run) :
        After (do throw (← x) : EngineTry Client).run e₂ fun r e' =>
          I e' ∧ ∀ s, r = .ok s → s.number = e.statements.next ∧ s.number < e'.statements.next :=
      After.try_seq (hx e₂ h₂) (fun _ _ h => After.throw_iff.2 (nothing h)) fun _ _ => nothing
    cases k with
    | none => exact refused (hn.1 e e₁ he h₁) (preserves_try_lift preserves_connectionFault)
    | some k =>
      obtain ⟨rfl, h₁⟩ := h₁
      have hq {call : Call} (hs : call.statement? = some e.statements.next)
          (hr : call.runs? = none) (hf : call.fetches? = none) : Admits I call :=
        hq _ call ⟨e, he, Nat.le_refl _⟩ hs hr hf
      refine After.try_call Engine.prepareText_takes fun ok e₂ h₂ => ?_
      have he₂ : I e₂ := hq rfl rfl rfl e₁ e₂ (hn.2 e e₁ he h₁) h₂
      cases ok with
      | true =>
        refine After.try_call (Engine.viewStatement_alters (k := none)) fun _ e₃ h₃ =>
          After.try_pure_iff.2 ⟨Steady.alters he₂ h₃, ?_⟩
        rintro _ ⟨⟩
        refine ⟨rfl, ?_⟩
        rw [h₃.next, h₂.next, h₁.next]
        exact Nat.lt_succ_self _
      | false =>
        refine After.try_call (preserves_statementFault e₂ he₂) fun f e₃ h₃ => ?_
        exact After.try_call (preserves_taking (hq rfl rfl rfl)
          (fun _ => Engine.closeStatement_takes) e₃ h₃)
            fun _ _ h => After.throw_iff.2 (nothing h)

end Maria

/-! ## Operations on connections -/

namespace Backend

variable {b : Backend}

theorem preserves_freeRows [Steady I] {rows : List (List Cell)} :
    Preserves I (b.freeRows rows) := by
  cases b with
  | sqlite | strict => exact preserves_altering fun _ => Engine.freeCells_alters
  | maria => exact preserves_pure _

variable [Steady I]

theorem preserves_disconnect (h : ∀ n, c = some n → Admits I (.close n)) :
    Preserves I (b.disconnect c).run := by
  cases b with
  | sqlite | strict => exact Sqlite.preserves_disconnect h
  | maria => exact Maria.preserves_disconnect h

theorem preserves_control {d : Directive} (h : AdmitsRest I) :
    Preserves I (b.control c d).run := by
  cases b with
  | sqlite | strict => exact Sqlite.preserves_control h
  | maria => exact Maria.preserves_control h

theorem preserves_rollbackTo {n : Nat} (h : AdmitsRest I) :
    Preserves I (b.rollbackTo c n).run :=
  preserves_try_bind (preserves_control h) fun _ => preserves_control h

theorem preserves_connect {dsn : Bytes} {readOnly : Bool} {busyTimeout : Int32}
    (h : AdmitsRest I) : Preserves I (b.connect dsn readOnly busyTimeout).run := by
  cases b with
  | sqlite | strict => exact Sqlite.preserves_connect h
  | maria => exact Maria.preserves_connect h

theorem preserves_info : Preserves I (b.info c) := by
  unfold info
  cases b with
  | sqlite | strict =>
    exact preserves_bind (fun _ h => After.base_get_iff.2 h) fun _ => preserves_pure _
  | maria =>
    refine preserves_bind ?_ fun _ => preserves_pure _
    unfold Maria.version
    cases c with
    | none => exact preserves_pure _
    | some n =>
      exact preserves_bind (preserves_altering fun _ => Engine.serverVersion_alters)
        fun _ => preserves_pure _

theorem preserves_finalize {h : Handle} (hq : ∀ k, h.number? = some k → AdmitsRelease I k) :
    Preserves I (b.finalize h).run := by
  unfold finalize
  split
  · exact preserves_try_pure _
  · split
    · exact Sqlite.preserves_finalizeStrictly (hq _ rfl)
    · exact Sqlite.preserves_finalize (hq _ rfl)
  · exact Maria.preserves_finalize (hq _ rfl)

/-- A statement that is prepared is a fresh one. -/
theorem prepare_preserves {sql : Bytes} (hp : ∀ n, c = some n → AdmitsPrepare I n)
    (hq : AdmitsNew I) {e : Engine} (he : I e) : After (b.prepare c sql).run e fun r e' =>
      I e' ∧ ∀ h, r = .ok h → ∀ k, h.number? = some k →
        k = e.statements.next ∧ k < e'.statements.next := by
  cases b with
  | sqlite | strict =>
    refine After.try_seq (Sqlite.prepare_preserves hp he) (fun k e' h => After.try_pure_iff.2 ?_)
      fun _ _ h => ⟨h.1, nofun⟩
    refine ⟨h.1, ?_⟩
    rintro _ ⟨⟩ n rfl
    exact h.2 n rfl
  | maria =>
    refine After.try_seq (Maria.prepare_preserves hp hq he) (fun s e' h => After.try_pure_iff.2 ?_)
      fun _ _ h => ⟨h.1, nofun⟩
    refine ⟨h.1, ?_⟩
    rintro _ ⟨⟩ n ⟨⟩
    exact h.2 s rfl

end Backend

/-- The columns that a prepared statement is known to have are those of its text. -/
def Handle.Fits (e : Engine) : Handle → Prop
  | .sqlite _ => True
  | .maria s => ∀ p, e.statements.find? s.number = some p → s.columns.getD [] = p.script.columns

theorem Maria.prepare_fits {sql : Bytes} (e : Engine) : After (prepare c sql).run e fun r e' =>
    ∀ s, r = .ok s → (Handle.maria s).Fits e' := by
  have refused {x : EngineTry Fault} {e : Engine} : After (do throw (← x) : EngineTry Client).run e
      fun r e' => ∀ s, r = .ok s → (Handle.maria s).Fits e' :=
    After.try_seq (P := fun _ _ => True) trivial (fun _ _ _ => After.throw_iff.2 nofun)
      fun _ _ _ => nofun
  unfold prepare
  cases c with
  | none => exact After.throw_iff.2 nofun
  | some n =>
    refine After.try_call (P := fun _ _ => True) trivial fun k e₁ _ => ?_
    cases k with
    | none => exact refused
    | some k =>
      refine After.try_call (P := fun _ _ => True) trivial fun ok e₂ _ => ?_
      cases ok with
      | true =>
        have viewed : After (Engine.viewStatement k) e₂ fun p e₃ =>
            ∀ q, e₃.statements.find? k = some q → q = p := by
          intro q hq
          change q = (e₂.statements.find? k).getD _
          rw [show e₂.statements.find? k = some q from hq]
          rfl
        refine After.try_call viewed fun p e₃ h₃ => After.try_pure_iff.2 ?_
        rintro _ ⟨⟩ q hq
        obtain rfl := h₃ q hq
        dsimp only
        split
        · next h => exact (List.isEmpty_iff.1 h).symm
        · rfl
      | false =>
        exact After.try_seq (P := fun _ _ => True) trivial
          (fun _ _ _ => After.try_seq (P := fun _ _ => True) trivial
            (fun _ _ _ => After.throw_iff.2 nofun) fun _ _ _ => nofun) fun _ _ _ => nofun

theorem Backend.prepare_fits {b : Backend} {sql : Bytes} (e : Engine) :
    After (b.prepare c sql).run e fun r e' => ∀ h, r = .ok h → h.Fits e' := by
  cases b with
  | sqlite | strict =>
    refine After.try_seq (P := fun _ _ => True) trivial (fun k e' _ => After.try_pure_iff.2 ?_)
      fun _ _ _ => nofun
    rintro _ ⟨⟩
    trivial
  | maria =>
    refine After.try_seq (Maria.prepare_fits e) (fun s e' h => After.try_pure_iff.2 ?_)
      fun _ _ _ => nofun
    rintro _ ⟨⟩
    exact h s rfl

/-! ## Operations on prepared statements -/

namespace Handle

variable {h : Handle} {e : Engine}

theorem onClient_preserves {s : Maria.Client} {x : Maria.ClientTry Unit}
    (hx : After x.run (s, e) fun _ s' => s'.1.fixed = s.fixed ∧ I s'.2) :
    After (onClient s x).run (h, e) fun _ s' => s'.1.fixed = maria s.fixed ∧ I s'.2 := by
  change After x.run (s, e) fun _ s' => (maria s'.1).fixed = maria s.fixed ∧ I s'.2
  exact hx.mono fun _ _ ⟨hn, hc⟩ => ⟨congrArg maria hn, hc⟩

theorem endRows_preserves (hq : ∀ k, h.number? = some k → AdmitsRelease I k) (he : I e) :
    After (endRows h) e fun h' e' => h'.fixed = h.fixed ∧ I e' := by
  unfold endRows
  cases h with
  | sqlite k =>
    exact After.seq (Sqlite.preserves_rewind hq e he) fun _ _ hc => After.pure_iff.2 ⟨rfl, hc⟩
  | maria s =>
    exact After.seq ((Maria.endRows_fixed e).and (Maria.preserves_endRows (hq _ rfl) e he))
      fun _ _ ⟨hn, hc⟩ => After.pure_iff.2 ⟨congrArg maria hn, hc⟩

variable [Steady I]

theorem beginRows_preserves (hq : ∀ k, h.number? = some k → AdmitsStart I k)
    (hr : ∀ k, h.number? = some k → AdmitsExecute I k) (he : I e) :
    After beginRows.run (h, e) fun _ s' => s'.1.fixed = h.fixed ∧ I s'.2 := by
  unfold beginRows
  refine After.try_bind_iff.2 <| After.try_get_iff.2 ?_
  cases h with
  | sqlite k =>
    exact After.try_object_onEngine_iff.2 <|
      (Sqlite.preserves_rewind (fun k hk => (hq k hk).release) e he).mono fun _ _ hc => ⟨rfl, hc⟩
  | maria s => exact onClient_preserves (Maria.beginRows_preserves (hq _ rfl) (hr _ rfl) he)

theorem bind_preserves {type : ValueType} {slot : Nat} {v : Value}
    (hq : ∀ k, h.number? = some k → AdmitsQuiet I k) (he : I e) :
    After (bind type slot v).run (h, e) fun _ s' => s'.1.fixed = h.fixed ∧ I s'.2 := by
  unfold bind
  refine After.try_bind_iff.2 <| After.try_get_iff.2 ?_
  cases h with
  | sqlite k =>
    exact After.try_object_onTry_iff.2 <|
      (Sqlite.preserves_bind hq e he).mono fun _ _ hc => ⟨rfl, hc⟩
  | maria s => exact onClient_preserves (Maria.bind_preserves he)

theorem preserves_execute {c : Option Nat} (hq : ∀ k, h.number? = some k → AdmitsQuiet I k)
    (hr : ∀ k, h.number? = some k → AdmitsRun I k) : Preserves I (h.execute c).run := by
  cases h with
  | sqlite k => exact Sqlite.preserves_execute (fun k hk => (hq k hk).release) hr
  | maria s => exact Maria.preserves_execute (hq _ rfl) fun _ => hr _ rfl _ rfl

theorem preserves_fetchRow {c : Option Nat} (hq : ∀ k, h.number? = some k → AdmitsQuiet I k)
    (hr : ∀ k, h.number? = some k → AdmitsStep I k) : Preserves I (h.fetchRow c).run := by
  cases h with
  | sqlite k => exact Sqlite.preserves_fetchRow hr
  | maria s => exact Maria.preserves_fetchRow (hq _ rfl)

theorem preserves_columnNames : Preserves I h.columnNames := by
  cases h with
  | sqlite k => exact Sqlite.preserves_columnNames
  | maria s => exact preserves_pure _

end Handle

end SqlAccess
