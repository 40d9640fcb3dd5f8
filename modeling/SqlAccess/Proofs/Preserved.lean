import SqlAccess.Engine.Maria
import SqlAccess.Engine.Sqlite
import SqlAccess.Proofs.Calls

/-!
# What actions on an engine preserve

`Preserves I x` says that the action `x` keeps what `I` says of the engine. It holds of an action
if it holds of the actions that it is put together from, so it comes down to the calls: `I` has to
admit each of them (`Admits`), whatever its outcome. What a call can change is said once, by
`Engine.Takes`: the call is entered into the history, and only the statement of which it is asked
can be different.

Predicates that are preserved this way say of the time since some engine that all calls were of a
kind (`Calls`), that a statement was spared (`Engine.Spares`), that statements were run by some
calls only (`Engine.RunsOnly`), or that statements kept their scripts (`Engine.Retains`).
-/

namespace SqlAccess

namespace Engine

/-! ## What calls change -/

/-- The statements that are there were there before with the same script. -/
def KeepsScripts (e e' : Engine) : Prop :=
  ∀ j p, e'.statements.find? j = some p →
    ∃ q, e.statements.find? j = some q ∧ p.script = q.script

/-- No call was made, and of the statements at most one is different. -/
structure Alters (k : Option Nat) (e e' : Engine) : Prop where
  history : e'.history = e.history
  others : ∀ j, k ≠ some j → e'.statements.find? j = e.statements.find? j
  scripts : e.KeepsScripts e'
  next : e'.statements.next = e.statements.next
  connections : e'.connections.next = e.connections.next

/-- A call was made. It made nothing, and of the statements only the one of which it was asked can
be different. -/
structure Takes (call : Call) (e e' : Engine) : Prop where
  history : ∃ outcome, e'.history = ⟨call, outcome⟩ :: e.history ∧ ∀ k, outcome ≠ .created k
  others : ∀ j, call.statement? ≠ some j → e'.statements.find? j = e.statements.find? j
  scripts : call.givesText = false → e.KeepsScripts e'
  next : e'.statements.next = e.statements.next
  connections : e'.connections.next = e.connections.next

/-- A call was made that made a statement. -/
structure Adds (call : Call) (e e' : Engine) : Prop where
  history : e'.history = ⟨call, .created e.statements.next⟩ :: e.history
  others : ∀ j < e.statements.next, e'.statements.find? j = e.statements.find? j
  next : e'.statements.next = e.statements.next + 1
  connections : e'.connections.next = e.connections.next

/-- A call was made that concerns no statement. -/
structure Passes (e e' : Engine) : Prop where
  history : ∃ ev : Event, e'.history = ev :: e.history ∧ ev.call.statement? = none
  statements : ∀ j, e'.statements.find? j = e.statements.find? j
  next : e'.statements.next = e.statements.next

variable {e e₁ e₂ : Engine} {call : Call} {k : Option Nat} {n c : Nat} {α β : Type}

theorem KeepsScripts.refl : e.KeepsScripts e := fun _ p hp => ⟨p, hp, rfl⟩

theorem KeepsScripts.trans (h : e.KeepsScripts e₁) (h' : e₁.KeepsScripts e₂) :
    e.KeepsScripts e₂ := by
  intro j p hp
  obtain ⟨q, hq, hpq⟩ := h' j p hp
  obtain ⟨r, hr, hqr⟩ := h j q hq
  exact ⟨r, hr, hpq.trans hqr⟩

theorem KeepsScripts.of_eq (h : e₁.statements = e.statements) : e.KeepsScripts e₁ :=
  fun _ p hp => ⟨p, h ▸ hp, rfl⟩

theorem Takes.passes (h : Takes call e e₁) (hs : call.statement? = none) : Passes e e₁ := by
  obtain ⟨o, hh, -⟩ := h.history
  exact ⟨⟨_, hh, hs⟩, fun j => h.others j (hs ▸ nofun), h.next⟩

theorem Alters.of_eq (hh : e₁.history = e.history) (hs : e₁.statements = e.statements)
    (hc : e₁.connections.next = e.connections.next) : Alters k e e₁ :=
  ⟨hh, fun _ _ => hs ▸ rfl, .of_eq hs, hs ▸ rfl, hc⟩

theorem Alters.refl : Alters k e e := .of_eq rfl rfl rfl

theorem Alters.trans (h : Alters k e e₁) (h' : Alters k e₁ e₂) : Alters k e e₂ :=
  ⟨h'.history.trans h.history, fun j hj => (h'.others j hj).trans (h.others j hj),
    h.scripts.trans h'.scripts, h'.next.trans h.next, h'.connections.trans h.connections⟩

theorem Takes.alters (h : Takes call e e₁) (h' : Alters call.statement? e₁ e₂) :
    Takes call e e₂ := by
  refine ⟨?_, fun j hj => (h'.others j hj).trans (h.others j hj),
    fun ht => (h.scripts ht).trans h'.scripts, h'.next.trans h.next,
    h'.connections.trans h.connections⟩
  rw [h'.history]
  exact h.history

theorem Alters.takes (h : Alters none e e₁) (h' : Takes call e₁ e₂) : Takes call e e₂ := by
  refine ⟨?_, fun j hj => (h'.others j hj).trans (h.others j nofun),
    fun ht => h.scripts.trans (h'.scripts ht), h'.next.trans h.next,
    h'.connections.trans h.connections⟩
  rw [← h.history]
  exact h'.history

/-! ## Primitive actions -/

theorem alters_bind {x : EngineM α} {f : α → EngineM β}
    (hx : After x e fun _ e' => Alters k e e')
    (hf : ∀ a e', After (f a) e' fun _ e'' => Alters k e' e'') :
    After (x >>= f) e fun _ e' => Alters k e e' :=
  After.seq hx fun a e₁ h => (hf a e₁).mono fun _ _ h' => h.trans h'

theorem alters_pure (a : α) : After (pure a : EngineM α) e fun _ e' => Alters k e e' :=
  After.pure_iff.2 .refl

/-- What follows a call may change the statement of which it is asked. -/
theorem takes_bind {x : EngineM α} {f : α → EngineM β}
    (hx : After x e fun _ e' => Takes call e e')
    (hf : ∀ a e', After (f a) e' fun _ e'' => Alters call.statement? e' e'') :
    After (x >>= f) e fun _ e' => Takes call e e' :=
  After.seq hx fun a e₁ h => (hf a e₁).mono fun _ _ h' => h.alters h'

theorem takes_look {x : EngineM α} {f : α → EngineM β}
    (hx : After x e fun _ e' => Alters none e e')
    (hf : ∀ a e', After (f a) e' fun _ e'' => Takes call e' e'') :
    After (x >>= f) e fun _ e' => Takes call e e' :=
  After.seq hx fun a e₁ h => (hf a e₁).mono fun _ _ h' => h.takes h'

/-- What a call leaves in the history. -/
theorem perform_after {success : Outcome} (e : Engine) :
    After (perform call success) e fun r e' =>
      e'.history = ⟨call, r.elim success fun f => .failed f.code none⟩ :: e.history ∧
        e'.connections = e.connections ∧ e'.statements = e.statements := by
  unfold perform consult record
  simp only [After.bind_iff, After.base_modifyGet_iff, After.base_modify_iff, After.pure_iff]
  cases (Rule.consult call.line e.rules).1 <;> simp

theorem perform_takes {success : Outcome} (hs : ∀ k, success ≠ .created k) :
    After (perform call success) e fun _ e' => Takes call e e' := by
  refine (perform_after e).mono fun r e' ⟨hh, hc, hk⟩ => ⟨⟨_, hh, ?_⟩, fun _ _ => hk ▸ rfl,
    fun _ => .of_eq hk, hk ▸ rfl, hc ▸ rfl⟩
  cases r with
  | none => exact hs
  | some f => nofun

theorem performSurely_takes : After (performSurely call) e fun _ e' => Takes call e e' :=
  ⟨⟨.done, rfl, nofun⟩, fun _ _ => rfl, fun _ => .refl, rfl, rfl⟩

theorem statement_alters : After (statement n) e fun _ e' => Alters k e e' := .refl

theorem scriptFor_alters {sql : Bytes} : After (scriptFor sql) e fun _ e' => Alters k e e' := .refl

theorem viewConnection_alters : After (viewConnection c) e fun _ e' => Alters k e e' :=
  .of_eq rfl rfl rfl

theorem viewStatement_alters : After (viewStatement n) e fun _ e' => Alters k e e' :=
  .of_eq rfl rfl rfl

theorem serverVersion_alters : After (serverVersion c) e fun _ e' => Alters k e e' := by
  unfold serverVersion
  exact alters_bind viewConnection_alters fun _ _ =>
    After.bind_iff.2 (After.base_get_iff.2 (alters_pure _))

theorem freeCells_alters {m : Nat} : After (freeCells m) e fun _ e' => Alters k e e' :=
  .of_eq rfl rfl rfl

theorem copyValue_alters {value : Option Cell} :
    After (copyValue value) e fun _ e' => Alters k e e' := by
  cases value <;> exact .of_eq rfl rfl rfl

theorem modifyConnection_alters {f : Connection → Connection} :
    After (modifyConnection c f) e fun _ e' => Alters k e e' :=
  .of_eq rfl rfl rfl

theorem modifyStatement_alters {f : Prepared → Prepared} (hf : ∀ s, (f s).script = s.script) :
    After (modifyStatement n f) e fun _ e' => Alters (some n) e e' := by
  refine ⟨rfl, fun j hj => ?_, fun j p hp => ?_, rfl, rfl⟩
  · change (e.statements.modify n f).find? j = _
    rw [Table.find?_modify, if_neg fun h => hj (congrArg some h.symm)]
  · obtain ⟨-, q, hq, rfl⟩ | ⟨-, hq⟩ := Table.find?_modify_eq_some.1 hp
    · exact ⟨q, hq, hf q⟩
    · exact ⟨p, hq, rfl⟩

theorem dropStatement_alters : After (dropStatement n) e fun _ e' => Alters (some n) e e' := by
  refine ⟨rfl, fun j hj => ?_, fun j p hp => ?_, rfl, rfl⟩
  · change (e.statements.erase n).find? j = _
    rw [Table.find?_erase, if_neg fun h => hj (congrArg some h.symm)]
  · change (e.statements.erase n).find? j = _ at hp
    rw [Table.find?_erase] at hp
    split at hp
    · cases hp
    · exact ⟨p, hp, rfl⟩

theorem dropConnection_alters : After (dropConnection c) e fun _ e' => Alters k e e' :=
  .of_eq rfl rfl rfl

/-! ## Calls of SQLite -/

theorem closeFile_takes : After (closeFile c) e fun _ e' => Takes (.close c) e e' := by
  unfold closeFile
  refine takes_bind (perform_takes nofun) fun r e₁ => ?_
  cases r with
  | none => exact alters_bind dropConnection_alters fun _ _ => alters_pure _
  | some f => exact alters_bind modifyConnection_alters fun _ _ => alters_pure _

theorem exec_takes {d : Directive} : After (exec c d) e fun _ e' => Takes (.exec c d) e e' := by
  unfold exec
  refine takes_bind (perform_takes nofun) fun r e₁ => ?_
  cases r with
  | none => exact alters_pure _
  | some f => exact alters_bind modifyConnection_alters fun _ _ => alters_pure _

theorem bind_takes {slot : Nat} {datum : Datum} :
    After (bind n slot datum) e fun _ e' => Takes (.bind n (slot + 1) datum) e e' := by
  unfold bind
  refine takes_bind (perform_takes nofun) fun r e₁ => ?_
  cases r with
  | none => exact alters_pure _
  | some f =>
    exact alters_bind statement_alters fun _ _ =>
      alters_bind modifyConnection_alters fun _ _ => alters_pure _

theorem step_takes : After (step n) e fun _ e' => Takes (.step n) e e' := by
  unfold step
  refine takes_look statement_alters fun s e₁ =>
    takes_bind (perform_takes fun k => by split <;> nofun) fun r e₂ => ?_
  cases r with
  | some f => exact alters_bind modifyConnection_alters fun _ _ => alters_pure _
  | none =>
    dsimp only
    split
    · exact alters_bind modifyConnection_alters fun _ _ => alters_pure _
    · exact alters_bind (modifyStatement_alters fun _ => rfl) fun _ _ => alters_pure _

theorem reset_takes : After (reset n) e fun _ e' => Takes (.reset n) e e' := by
  unfold reset
  exact takes_bind performSurely_takes fun _ _ => modifyStatement_alters fun _ => rfl

theorem finalize_takes : After (finalize n) e fun _ e' => Takes (.finalize n) e e' := by
  unfold finalize
  refine takes_look statement_alters fun s e₁ => takes_bind (perform_takes nofun) fun r e₂ =>
    alters_bind dropStatement_alters fun _ e₃ => ?_
  cases r with
  | none => exact alters_pure _
  | some f => exact alters_bind modifyConnection_alters fun _ _ => alters_pure _

/-- A statement is made, or nothing but the call is different. -/
def Prepares (call : Call) (e : Engine) (r : Option Nat) (e' : Engine) : Prop :=
  match r with
  | none => Takes call e e'
  | some k => k = e.statements.next ∧ Adds call e e'

/-- A statement is put in behind a call that made it. -/
theorem added {s : Prepared} (hh : e₁.history = ⟨call, .created e.statements.next⟩ :: e.history)
    (hs : ∀ j, e₁.statements.find? j = e.statements.find? j)
    (hn : e₁.statements.next = e.statements.next)
    (hc : e₁.connections.next = e.connections.next) :
    Adds call e { e₁ with statements := e₁.statements.add s } := by
  refine ⟨hh, fun j hj => ?_, congrArg (· + 1) hn, hc⟩
  change (e₁.statements.add s).find? j = _
  rw [Table.find?_add, if_neg (hn ▸ Nat.ne_of_lt hj), hs]

theorem prepare_prepares {sql : Bytes} : After (prepare c sql) e fun r e' =>
    Prepares (.prepare c sql) e r.2 e' := by
  unfold prepare
  refine After.bind_iff.2 <| After.base_get_iff.2 <|
    After.seq (perform_after e) fun r e₁ ⟨hh, hc, hs⟩ => ?_
  have taken {o : Outcome} (h : e₁.history = ⟨.prepare c sql, o⟩ :: e.history)
      (ho : ∀ k, o ≠ .created k) : Takes (.prepare c sql) e e₁ :=
    ⟨⟨o, h, ho⟩, fun _ _ => hs ▸ rfl, fun _ => .of_eq hs, hs ▸ rfl, hc ▸ rfl⟩
  cases r with
  | some f =>
    exact After.seq modifyConnection_alters fun _ _ h =>
      After.pure_iff.2 ((taken hh nofun).alters h)
  | none =>
    by_cases hb : isBlankSql sql
    · simp only [hb, if_true, Option.elim] at hh ⊢
      exact After.pure_iff.2 (taken hh nofun)
    · simp only [hb, Bool.false_eq_true, if_false, Option.elim] at hh ⊢
      refine After.seq (scriptFor_alters (k := none)) fun script e₂ h₂ =>
        After.bind_iff.2 <| After.base_modify_iff.2 <| After.pure_iff.2 ?_
      exact ⟨rfl, added (h₂.history.trans hh) (fun j => (h₂.others j nofun).trans (hs ▸ rfl))
        (h₂.next.trans (hs ▸ rfl)) (h₂.connections.trans (hc ▸ rfl))⟩

theorem openFile_passes {path : Bytes} {flags : Nat} :
    After (openFile path flags) e fun _ e' => Passes e e' := by
  unfold openFile consult record addConnection
  simp only [After.bind_iff, After.base_get_iff, After.base_modifyGet_iff]
  cases (Rule.consult (Call.openFile path flags).line e.rules).1 with
  | none => exact ⟨⟨_, rfl, rfl⟩, fun _ => rfl, rfl⟩
  | some f =>
    dsimp only
    split <;> exact ⟨⟨_, rfl, rfl⟩, fun _ => rfl, rfl⟩

/-! ## Calls of MariaDB -/

theorem init_passes : After init e fun _ e' => Passes e e' := by
  unfold init
  refine After.bind_iff.2 <| After.base_get_iff.2 <|
    After.seq (perform_after e) fun r e₁ ⟨hh, _, hs⟩ => ?_
  have passes : Passes e e₁ := ⟨⟨_, hh, rfl⟩, fun _ => hs ▸ rfl, hs ▸ rfl⟩
  cases r with
  | some f => exact After.pure_iff.2 passes
  | none =>
    exact After.bind_iff.2 <| After.base_modify_iff.2 <| After.pure_iff.2
      ⟨passes.history, passes.statements, passes.next⟩

theorem onConnection_takes : After (onConnection c call) e fun _ e' => Takes call e e' := by
  unfold onConnection
  refine takes_bind (perform_takes nofun) fun r e₁ => ?_
  cases r with
  | none => exact alters_pure _
  | some f => exact alters_bind modifyConnection_alters fun _ _ => alters_pure _

theorem onStatement_takes (hn : call.statement? = some n) :
    After (onStatement n call) e fun _ e' => Takes call e e' := by
  unfold onStatement
  refine takes_bind (perform_takes nofun) fun r e₁ => ?_
  rw [hn]
  cases r with
  | none => exact alters_pure _
  | some f => exact alters_bind (modifyStatement_alters fun _ => rfl) fun _ _ => alters_pure _

theorem closeConnection_takes : After (closeConnection c) e fun _ e' => Takes (.close c) e e' := by
  unfold closeConnection
  exact takes_bind performSurely_takes fun _ _ => dropConnection_alters

theorem query_takes {d : Directive} : After (query c d) e fun _ e' => Takes (.query c d) e e' := by
  unfold query
  refine takes_look scriptFor_alters fun script e₁ =>
    takes_bind (perform_takes nofun) fun r e₂ => ?_
  cases r with
  | none => exact alters_bind modifyConnection_alters fun _ _ => alters_pure _
  | some f => exact alters_bind modifyConnection_alters fun _ _ => alters_pure _

theorem newStatement_prepares : After (newStatement c) e fun r e' =>
    Prepares (.newStatement c) e r e' := by
  unfold newStatement
  refine After.bind_iff.2 <| After.base_get_iff.2 <|
    After.seq (perform_after e) fun r e₁ ⟨hh, hc, hs⟩ => ?_
  cases r with
  | some f =>
    have taken : Takes (.newStatement c) e e₁ :=
      ⟨⟨_, hh, nofun⟩, fun _ _ => hs ▸ rfl, fun _ => .of_eq hs, hs ▸ rfl, hc ▸ rfl⟩
    exact After.seq modifyConnection_alters fun _ _ h => After.pure_iff.2 (taken.alters h)
  | none =>
    refine After.bind_iff.2 <| After.base_modify_iff.2 <| After.pure_iff.2 ?_
    exact ⟨rfl, added hh (fun _ => hs ▸ rfl) (hs ▸ rfl) (hc ▸ rfl)⟩

theorem prepareText_takes {sql : Bytes} :
    After (prepareText n sql) e fun _ e' => Takes (.prepareText n sql) e e' := by
  unfold prepareText
  refine After.seq (onStatement_takes rfl) fun ok e₁ h => ?_
  cases ok with
  | false => exact h
  | true =>
    refine After.bind_iff.2 <| After.bind_iff.2 <| After.base_get_iff.2 <| After.pure_iff.2 <|
      After.bind_iff.2 <| After.base_modify_iff.2 <| After.pure_iff.2
        ⟨h.history, fun j hj => ?_, nofun, h.next, h.connections⟩
    refine Eq.trans ?_ (h.others j hj)
    change (e₁.statements.modify n _).find? j = _
    rw [Table.find?_modify, if_neg fun hn => hj (congrArg some hn.symm)]

theorem closeStatement_takes :
    After (closeStatement n) e fun _ e' => Takes (.closeStatement n) e e' := by
  unfold closeStatement
  exact takes_bind (perform_takes nofun) fun _ _ =>
    alters_bind dropStatement_alters fun _ _ => alters_pure _

theorem execute_takes {parameters : List Datum} :
    After (execute n parameters) e fun _ e' => Takes (.execute n parameters) e e' := by
  unfold execute
  refine takes_bind (onStatement_takes rfl) fun ok e₁ => ?_
  cases ok with
  | false => exact alters_bind (alters_pure _) fun _ _ => alters_pure _
  | true => exact alters_bind (modifyStatement_alters fun _ => rfl) fun _ _ => alters_pure _

theorem freeResult_takes : After (freeResult n) e fun _ e' => Takes (.freeResult n) e e' := by
  unfold freeResult
  exact takes_bind (onStatement_takes rfl) fun _ _ => alters_pure _

theorem fetch_takes : After (fetch n) e fun _ e' => Takes (.fetch n) e e' := by
  unfold fetch
  refine takes_look statement_alters fun s e₁ =>
    takes_bind (perform_takes fun k => by split <;> nofun) fun r e₂ => ?_
  cases r with
  | some f => exact alters_bind (modifyStatement_alters fun _ => rfl) fun _ _ => alters_pure _
  | none =>
    dsimp only
    split
    · exact alters_pure _
    · exact alters_bind (modifyStatement_alters fun _ => rfl) fun _ _ => alters_pure _

end Engine

/-! ## Preserving -/

section Preserves

variable {m : Type → Type} {σ α β : Type} [Monad m] [Stateful m σ] [HasEngine σ]
variable {I : Engine → Prop}

/-- A predicate for which only calls matter. -/
class Steady (I : Engine → Prop) : Prop where
  alters : ∀ {e e' : Engine}, I e → e.Alters none e' → I e'

/-- An action preserves what a predicate says of the engine. -/
def Preserves (I : Engine → Prop) (x : m α) : Prop :=
  ∀ s, I (engine s) → After x s fun _ s' => I (engine s')

theorem preserves_pure (a : α) : Preserves I (pure a : m α) := fun _ h => After.pure_iff.2 h

theorem preserves_bind {x : m α} {f : α → m β} (hx : Preserves I x) (hf : ∀ a, Preserves I (f a)) :
    Preserves I (x >>= f) :=
  fun s h => After.seq (hx s h) fun a s' h' => hf a s' h'

theorem preserves_try_bind {x : ExceptT Fault m α} {f : α → ExceptT Fault m β}
    (hx : Preserves I x.run) (hf : ∀ a, Preserves I (f a).run) : Preserves I (x >>= f).run :=
  fun s h => After.try_keep (hx s h) fun a s' h' => hf a s' h'

theorem preserves_try_pure (a : α) : Preserves I (pure a : ExceptT Fault m α).run :=
  fun _ h => After.try_pure_iff.2 h

theorem preserves_throw (f : Fault) : Preserves I (throw f : ExceptT Fault m α).run :=
  fun _ h => After.throw_iff.2 h

theorem preserves_mk {x : m (Except Fault α)} (hx : Preserves I x) :
    Preserves I (ExceptT.mk x).run := hx

theorem preserves_try_lift [LawfulMonad m] {x : m α} (hx : Preserves I x) :
    Preserves I (liftM x : ExceptT Fault m α).run :=
  fun s h => After.try_lift_iff.2 (hx s h)

end Preserves

section Admits

variable {I : Engine → Prop} {α : Type} {call : Call}

/-- A predicate admits a call, however it ends, if nothing else is done. -/
def Admits (I : Engine → Prop) (call : Call) : Prop := ∀ e e' : Engine, I e → e.Takes call e' → I e'

/-- A statement that has its text may be asked for anything but to run. -/
def AdmitsQuiet (I : Engine → Prop) (k : Nat) : Prop :=
  ∀ call : Call, call.statement? = some k → call.runs? = none → call.givesText = false →
    Admits I call

/-- A statement that has its text may be asked for anything but to run and for rows. -/
def AdmitsStart (I : Engine → Prop) (k : Nat) : Prop :=
  ∀ call : Call, call.statement? = some k → call.runs? = none → call.givesText = false →
    call.fetches? = none → Admits I call

theorem AdmitsQuiet.start {k : Nat} (h : AdmitsQuiet I k) : AdmitsStart I k :=
  fun call hk hr ht _ => h call hk hr ht

/-- A statement may be asked to give something up: its rows, or all of it. -/
def AdmitsRelease (I : Engine → Prop) (k : Nat) : Prop :=
  ∀ call : Call, call.releases? = some k → Admits I call

theorem AdmitsStart.release {k : Nat} (h : AdmitsStart I k) : AdmitsRelease I k :=
  fun call hk => h call (by cases call <;> simp_all [Call.releases?, Call.statement?])
    (by cases call <;> simp_all [Call.releases?, Call.runs?])
    (by cases call <;> simp_all [Call.releases?, Call.givesText])
    (by cases call <;> simp_all [Call.releases?, Call.fetches?])

theorem AdmitsQuiet.release {k : Nat} (h : AdmitsQuiet I k) : AdmitsRelease I k := h.start.release

/-- A statement may be run. -/
def AdmitsRun (I : Engine → Prop) (k : Nat) : Prop :=
  ∀ call : Call, call.runs? = some k → Admits I call

/-- A statement of SQLite may be stepped. -/
abbrev AdmitsStep (I : Engine → Prop) (k : Nat) : Prop := Admits I (.step k)

/-- A statement of MariaDB may be run from its first row on. -/
abbrev AdmitsExecute (I : Engine → Prop) (k : Nat) : Prop := ∀ ps, Admits I (.execute k ps)

/-- Statements may be prepared on a connection. -/
def AdmitsPrepare (I : Engine → Prop) (c : Nat) : Prop :=
  ∀ call : Call, call.prepares c → Admits I call ∧ ∀ e e' : Engine, I e → e.Adds call e' → I e'

/-- Whatever concerns no statement may be called. -/
def AdmitsRest (I : Engine → Prop) : Prop := ∀ e e' : Engine, I e → e.Passes e' → I e'

theorem AdmitsRest.admits (h : AdmitsRest I) (hs : call.statement? = none) : Admits I call :=
  fun e e' he ht => h e e' he (ht.passes hs)

/-- A statement may be the next one to be made. -/
def Fresh (I : Engine → Prop) (k : Nat) : Prop := ∃ e : Engine, I e ∧ e.statements.next ≤ k

/-- A new statement may be asked for anything but to run and for rows. -/
def AdmitsNew (I : Engine → Prop) : Prop :=
  ∀ (k : Nat) (call : Call), Fresh I k → call.statement? = some k → call.runs? = none →
    call.fetches? = none → Admits I call

theorem preserves_taking {x : EngineM α} (h : Admits I call)
    (hx : ∀ e, After x e fun _ e' => e.Takes call e') : Preserves I x :=
  fun e he => (hx e).mono fun _ e' ht => h e e' he ht

theorem preserves_altering [Steady I] {x : EngineM α}
    (hx : ∀ e, After x e fun _ e' => e.Alters none e') : Preserves I x :=
  fun e he => (hx e).mono fun _ _ ha => Steady.alters he ha

end Admits

/-! ## Some predicates -/

section Instances

variable {e e' : Engine} {P : History → Event → Prop} {k : Nat}

instance : Steady (Calls P e) := ⟨fun h ha => h.trans
  ⟨ha.history ▸ .refl, .of_made ha.connections (Nat.le_of_eq ha.next.symm)
    fun _ _ hk => ha.history ▸ hk⟩⟩

instance : Steady (Engine.Alters none e) := ⟨fun h ha => h.trans ha⟩

/-- A statement was asked nothing, and is as it was. -/
structure Engine.Spares (k : Nat) (e e' : Engine) : Prop where
  entry : e'.statements.find? k = e.statements.find? k
  next : e.statements.next ≤ e'.statements.next
  calls : Grown (fun _ ev => ev.call.statement? ≠ some k) e.history e'.history

theorem Engine.Spares.refl : e.Spares k e := ⟨rfl, Nat.le_refl _, .refl⟩

theorem Engine.Spares.trans {e'' : Engine} (h : e.Spares k e') (h' : e'.Spares k e'') :
    e.Spares k e'' :=
  ⟨h'.entry.trans h.entry, Nat.le_trans h.next h'.next, h.calls.trans h'.calls⟩

instance : Steady (Engine.Spares k e) := ⟨fun h ha => h.trans
  ⟨ha.others k nofun, Nat.le_of_eq ha.next.symm, ha.history ▸ .refl⟩⟩

theorem admits_spares {call : Call} (h : call.statement? ≠ some k) :
    Admits (Engine.Spares k e) call := by
  intro e₁ e₂ h₁ ht
  obtain ⟨o, hh, -⟩ := ht.history
  exact h₁.trans ⟨ht.others k h, Nat.le_of_eq ht.next.symm, hh ▸ .one h⟩

theorem admitsRest_spares : AdmitsRest (Engine.Spares k e) := by
  intro e₁ e₂ h₁ hp
  obtain ⟨ev, hh, hs⟩ := hp.history
  exact h₁.trans ⟨hp.statements k, Nat.le_of_eq hp.next.symm, hh ▸ .one (hs ▸ nofun)⟩

theorem admitsPrepare_spares (hk : k < e.statements.next) {c : Nat} :
    AdmitsPrepare (Engine.Spares k e) c := by
  intro call hp
  have hs : call.statement? ≠ some k := fun h => by
    have := Call.connection?_of_statement? h
    rw [Call.connection?_of_prepares hp] at this
    cases this
  refine ⟨admits_spares hs, fun e₁ e₂ h₁ ha => h₁.trans ⟨ha.others k ?_, ?_, ha.history ▸ .one hs⟩⟩
  · exact Nat.lt_of_lt_of_le hk h₁.next
  · exact ha.next ▸ Nat.le_succ _

theorem Engine.Spares.ne_of_fresh {j : Nat} (hk : k < e.statements.next)
    (h : Fresh (Engine.Spares k e) j) : j ≠ k := by
  obtain ⟨e₁, h₁, hj⟩ := h
  have := h₁.next
  omega

theorem admitsNew_spares (hk : k < e.statements.next) : AdmitsNew (Engine.Spares k e) :=
  fun _ _ hj hs _ _ => admits_spares fun h =>
    Engine.Spares.ne_of_fresh hk hj (Option.some.inj (hs.symm.trans h))

/-- Every call that ran a statement is one of some. -/
structure Engine.RunsOnly (P : Call → Prop) (e e' : Engine) : Prop where
  next : e.statements.next ≤ e'.statements.next
  calls : Grown (fun _ ev => ∀ k, ev.call.runs? = some k → P ev.call) e.history e'.history

namespace Engine.RunsOnly

variable {P Q : Call → Prop} {e₁ : Engine} {call : Call}

theorem refl : e.RunsOnly P e := ⟨Nat.le_refl _, .refl⟩

theorem trans (h : e.RunsOnly P e₁) (h' : e₁.RunsOnly P e') : e.RunsOnly P e' :=
  ⟨Nat.le_trans h.next h'.next, h.calls.trans h'.calls⟩

instance : Steady (Engine.RunsOnly P e) := ⟨fun h ha => h.trans
  ⟨Nat.le_of_eq ha.next.symm, ha.history ▸ .refl⟩⟩

theorem admits (h : ∀ k, call.runs? = some k → P call) : Admits (Engine.RunsOnly P e) call := by
  intro e₁ e₂ h₁ ht
  obtain ⟨o, hh, -⟩ := ht.history
  exact h₁.trans ⟨Nat.le_of_eq ht.next.symm, hh ▸ .one h⟩

theorem admitsQuiet : AdmitsQuiet (Engine.RunsOnly P e) k :=
  fun call _ hr _ => admits (by simp [hr])

theorem admitsNew : AdmitsNew (Engine.RunsOnly P e) :=
  fun _ call _ _ hr _ => admits (by simp [hr])

theorem admitsRest : AdmitsRest (Engine.RunsOnly P e) := by
  intro e₁ e₂ h₁ hp
  obtain ⟨ev, hh, hs⟩ := hp.history
  refine h₁.trans ⟨Nat.le_of_eq hp.next.symm, hh ▸ .one fun j hj => ?_⟩
  rw [Call.statement?_of_runs? hj] at hs
  cases hs

theorem admitsPrepare {c : Nat} : AdmitsPrepare (Engine.RunsOnly P e) c := by
  intro call hp
  have hr (j : Nat) (hj : call.runs? = some j) : P call := by
    cases (Call.connection?_of_prepares hp).symm.trans
      (Call.connection?_of_statement? (Call.statement?_of_runs? hj))
  exact ⟨admits hr, fun e₁ e₂ h₁ ha => h₁.trans ⟨ha.next ▸ Nat.le_succ _, ha.history ▸ .one hr⟩⟩

theorem le_of_fresh (h : Fresh (Engine.RunsOnly P e) k) : e.statements.next ≤ k := by
  obtain ⟨e₁, h₁, hk⟩ := h
  exact Nat.le_trans h₁.next hk

end Engine.RunsOnly

/-- Calls were made. -/
def Engine.Extends (e e' : Engine) : Prop := e.history <:+ e'.history

instance : Steady (Engine.Extends e) := ⟨fun h ha => by
  rw [Engine.Extends, ha.history]
  exact h⟩

theorem admits_extends {call : Call} : Admits (Engine.Extends e) call := by
  intro e₁ e₂ h₁ ht
  obtain ⟨o, hh, -⟩ := ht.history
  rw [Engine.Extends, hh]
  exact h₁.trans (List.suffix_cons _ _)

/-- The statements there were have their scripts, as long as they are there. -/
structure Engine.Retains (e e' : Engine) : Prop where
  next : e.statements.next ≤ e'.statements.next
  scripts : ∀ j p, j < e.statements.next → e'.statements.find? j = some p →
    ∃ q, e.statements.find? j = some q ∧ p.script = q.script

namespace Engine.Retains

variable {e₁ : Engine} {call : Call}

theorem refl : e.Retains e := ⟨Nat.le_refl _, fun _ p _ hp => ⟨p, hp, rfl⟩⟩

theorem trans (h : e.Retains e₁) (h' : e₁.Retains e') : e.Retains e' := by
  refine ⟨Nat.le_trans h.next h'.next, fun j p hj hp => ?_⟩
  obtain ⟨q, hq, hpq⟩ := h'.scripts j p (Nat.lt_of_lt_of_le hj h.next) hp
  obtain ⟨r, hr, hqr⟩ := h.scripts j q hj hq
  exact ⟨r, hr, hpq.trans hqr⟩

theorem of_scripts (h : e.KeepsScripts e') (hn : e'.statements.next = e.statements.next) :
    e.Retains e' := ⟨Nat.le_of_eq hn.symm, fun j p _ hp => h j p hp⟩

theorem of_others (hn : e.statements.next ≤ e'.statements.next)
    (h : ∀ j < e.statements.next, e'.statements.find? j = e.statements.find? j) : e.Retains e' :=
  ⟨hn, fun j p hj hp => ⟨p, (h j hj).symm.trans hp, rfl⟩⟩

instance : Steady (Engine.Retains e) := ⟨fun h ha => h.trans (of_scripts ha.scripts ha.next)⟩

theorem admits (h : call.givesText = false) : Admits (Engine.Retains e) call :=
  fun _ _ h₁ ht => h₁.trans (of_scripts (ht.scripts h) ht.next)

theorem admitsQuiet : AdmitsQuiet (Engine.Retains e) k := fun _ _ _ h => admits h

theorem admitsRun : AdmitsRun (Engine.Retains e) k :=
  fun call h => admits (by cases call <;> simp_all [Call.runs?, Call.givesText])

theorem le_of_fresh (h : Fresh (Engine.Retains e) k) : e.statements.next ≤ k := by
  obtain ⟨e₁, h₁, hk⟩ := h
  exact Nat.le_trans h₁.next hk

/-- A new statement may be given its text. -/
theorem admitsNew : AdmitsNew (Engine.Retains e) := by
  intro k call hk hs _ _ e₁ e₂ h₁ ht
  have hle := le_of_fresh hk
  refine ⟨Nat.le_trans h₁.next (Nat.le_of_eq ht.next.symm), fun j p hj hp => ?_⟩
  rw [ht.others j (by rw [hs]; simp; omega)] at hp
  exact h₁.scripts j p hj hp

theorem admitsRest : AdmitsRest (Engine.Retains e) :=
  fun _ _ h₁ hp => h₁.trans (of_others (Nat.le_of_eq hp.next.symm) fun j _ => hp.statements j)

theorem admitsPrepare {c : Nat} : AdmitsPrepare (Engine.Retains e) c := by
  intro call hp
  refine ⟨admits ?_, fun _ _ h₁ ha => h₁.trans (of_others (ha.next ▸ Nat.le_succ _) ha.others)⟩
  revert hp
  cases call <;> simp [Call.prepares, Call.givesText]

end Engine.Retains

end Instances

end SqlAccess
