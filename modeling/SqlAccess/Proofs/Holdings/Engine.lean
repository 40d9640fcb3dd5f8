import SqlAccess.Engine.Maria
import SqlAccess.Engine.Sqlite
import SqlAccess.Proofs.After
import SqlAccess.Proofs.Holdings

/-!
# What the calls of the engines do to what is held

Most engine actions make one call and change nothing else that counts for what is held (`Asks`).
Those that hand something out or take it back are described by the assets before and after. Looking
at something changes nothing as long as it is there, and what is held is there.
-/

namespace SqlAccess.Engine

variable {α β : Type} {call : Call} {c k n : Nat} {st : Stage} {x : Multiset Asset} {e : Engine}
  {R : α → Outcome → Prop}

/-- An action changes nothing that counts for what is held. -/
def Still (x : EngineM α) : Prop := ∀ e, After x e fun _ e' => e'.outline = e.outline

/-- An action makes one call, whose outcome fits the answer, and changes nothing else that counts
for what is held. -/
def Asks (call : Call) (R : α → Outcome → Prop) (x : EngineM α) : Prop :=
  ∀ e, After x e fun a e' => ∃ o, R a o ∧ e'.outline = e.outline.call ⟨call, o⟩

/-- A call fails if its answer says so, and succeeds otherwise. -/
def Answers (ok : Bool) (o : Outcome) : Prop := if ok then o = .done else o.isFailure

/-- A call that fails does so with a code. -/
def Codes (code : Int32) (o : Outcome) : Prop := ∀ c left, o = .failed c left → c = code

theorem Codes.failed {code : Int32} {left : Option Nat} : Codes code (.failed code left) := by
  rintro _ _ ⟨⟩
  rfl

theorem Codes.of_success {code : Int32} {o : Outcome} (h : o.isFailure = false) : Codes code o := by
  rintro _ _ rfl
  cases h

/-! ## Putting actions together -/

theorem still_statement : Still (statement k) := fun _ => rfl

theorem still_scriptFor {sql : Bytes} : Still (scriptFor sql) := fun _ => rfl

theorem still_consult : Still (consult call) := fun _ => rfl

theorem still_modifyConnection {f : Connection → Connection} : Still (modifyConnection c f) :=
  fun e => by simp [modifyConnection, outline]

theorem still_modifyStatement {f : Prepared → Prepared}
    (hf : ∀ s, (f s).connection = s.connection) : Still (modifyStatement k f) := by
  intro e
  have same (z : Nat × Prepared) :
      (z.1, (if z.1 = k then f z.2 else z.2).connection) = (z.1, z.2.connection) := by
    split
    · rw [hf]
    · rfl
  simp [modifyStatement, outline, Table.modify, Function.comp_def, same]

namespace Asks

variable {R' : β → Outcome → Prop}

/-- What follows the call adds nothing. -/
theorem bind {x : EngineM α} {f : α → EngineM β} (hx : Asks call R x)
    (hf : ∀ a o, R a o → ∀ e, After (f a) e fun b e' => R' b o ∧ e'.outline = e.outline) :
    Asks call R' (x >>= f) :=
  fun e => After.seq (hx e) fun a e₁ ⟨o, ho, he⟩ =>
    (hf a o ho e₁).mono fun _ _ ⟨hb, h⟩ => ⟨o, hb, h.trans he⟩

/-- What is looked at before the call does not count. -/
theorem look {x : EngineM α} {f : α → EngineM β} (hx : Still x) (hf : ∀ a, Asks call R' (f a)) :
    Asks call R' (x >>= f) :=
  fun e => After.seq (hx e) fun a e₁ h => (hf a e₁).mono fun _ _ ⟨o, ho, he⟩ =>
    ⟨o, ho, he.trans (by rw [h])⟩

end Asks

theorem perform_asks {success : Outcome} : Asks call
    (fun r o => o = r.elim success fun f => .failed f.code none) (perform call success) := by
  intro e
  unfold perform consult record
  simp only [After.bind_iff, After.base_modifyGet_iff, After.base_modify_iff, After.pure_iff]
  cases (Rule.consult call.line e.rules).1 <;> exact ⟨_, rfl, rfl⟩

theorem performSurely_asks : Asks call (fun _ o => o = .done) (performSurely call) := by
  intro e
  unfold performSurely consult record
  simp only [After.bind_iff, After.base_modifyGet_iff, After.base_modify_iff]
  exact ⟨_, rfl, rfl⟩

theorem onConnection_asks : Asks call Answers (onConnection c call) := by
  unfold onConnection
  refine perform_asks.bind fun r o ho e => ?_
  subst ho
  cases r with
  | none => exact After.pure_iff.2 ⟨rfl, rfl⟩
  | some f => exact After.seq (still_modifyConnection e) fun _ _ h => After.pure_iff.2 ⟨rfl, h⟩

theorem onStatement_asks : Asks call Answers (onStatement k call) := by
  unfold onStatement
  refine perform_asks.bind fun r o ho e => ?_
  subst ho
  cases r with
  | none => exact After.pure_iff.2 ⟨rfl, rfl⟩
  | some f =>
    exact After.seq (still_modifyStatement (by simp) e) fun _ _ h => After.pure_iff.2 ⟨rfl, h⟩

/-! ## What is put in and taken out -/

theorem outline_addStatement (s : Prepared) :
    outline { e with statements := e.statements.add s } =
      e.outline.addStatement s.connection := by
  simp [outline, Outline.addStatement, Table.add]

theorem outline_dropStatement :
    outline { e with statements := e.statements.erase k } = e.outline.dropStatement k := by
  simp [outline, Outline.dropStatement, Table.erase, List.filter_map, Function.comp_def]

theorem outline_addConnection (s : Connection) :
    outline { e with connections := e.connections.add s } = e.outline.addConnection := by
  simp [outline, Outline.addConnection]

theorem outline_dropConnection :
    outline { e with connections := e.connections.erase c } = e.outline.dropConnection c := by
  simp [outline, Outline.dropConnection]

/-! ## Looking at what is there -/

/-- A connection is there, unless it is missing. -/
def Has (e : Engine) (c : Option Nat) : Prop := ∀ n, c = some n → n ∈ e.outline.connections

theorem viewConnection_same (hc : e.Has (some c)) :
    After (viewConnection c) e fun _ e' => e' = e := by
  obtain ⟨⟨n, s⟩, hs, rfl⟩ := List.mem_map.1 (hc c rfl)
  unfold viewConnection
  refine After.bind_iff.2 (After.base_modify_iff.2 ?_)
  change { e with strayed := _ } = e
  rw [Table.find?_eq_some_of_mem hs, Option.isNone_some, Bool.or_false]

theorem viewStatement_same (h : e.Carries (.statement k c st ::ₘ x)) :
    After (viewStatement k) e fun s e' => s.connection = c ∧ e' = e := by
  have hlisted := h.statements.listed_of_mem (Multiset.mem_cons_self _ _)
  obtain ⟨⟨n, s⟩, hs, hk⟩ := List.mem_map.1 hlisted
  cases hk
  have hfind : e.statements.find? n = some s := Table.find?_eq_some_of_mem hs
  unfold viewStatement
  refine After.bind_iff.2 (After.base_modify_iff.2 ?_)
  change ((e.statements.find? n).getD _).connection = _ ∧ { e with strayed := _ } = e
  rw [hfind, Option.isNone_some, Bool.or_false]
  exact ⟨rfl, rfl⟩

/-! ## Calls that hand out nothing -/

theorem exec_asks {d : Directive} : Asks (.exec c d) (fun r o => Codes r.1 o) (exec c d) := by
  unfold exec
  refine perform_asks.bind fun r o ho e => ?_
  subst ho
  cases r with
  | none => exact After.pure_iff.2 ⟨nofun, rfl⟩
  | some f => exact After.seq (still_modifyConnection e) fun _ _ h => After.pure_iff.2 ⟨.failed, h⟩

theorem bind_asks {slot : Nat} {d : Datum} :
    Asks (.bind k (slot + 1) d) Codes (bind k slot d) := by
  unfold bind
  refine perform_asks.bind fun r o ho e => ?_
  subst ho
  cases r with
  | none => exact After.pure_iff.2 ⟨nofun, rfl⟩
  | some f =>
    exact After.seq (still_statement e) fun _ e₁ h₁ =>
      After.seq (still_modifyConnection e₁) fun _ _ h => After.pure_iff.2 ⟨.failed, h.trans h₁⟩

/-- A step gives a row if it says so, and otherwise fails only with the code that it says. -/
theorem step_asks : Asks (.step k)
    (fun r o => match r with
      | .row _ => o = .row
      | .finished => o ≠ .row ∧ Codes doneCode o
      | .failed code => o ≠ .row ∧ Codes code o) (step k) := by
  unfold step
  refine .look still_statement fun s => perform_asks.bind fun r o ho e => ?_
  subst ho
  cases r with
  | some f =>
    refine After.seq (still_modifyConnection e) fun _ _ h => After.pure_iff.2 ⟨?_, h⟩
    by_cases hf : f.code = doneCode
    · rw [if_pos hf]
      exact ⟨nofun, hf ▸ .failed⟩
    · rw [if_neg hf]
      exact ⟨nofun, .failed⟩
  | none =>
    cases s.pending with
    | nil =>
      exact After.seq (still_modifyConnection e) fun _ _ h => After.pure_iff.2 ⟨⟨nofun, nofun⟩, h⟩
    | cons row rest =>
      exact After.seq (still_modifyStatement (by simp) e) fun _ _ h => After.pure_iff.2 ⟨rfl, h⟩

theorem bindParam_asks : Asks (.bindParam k) Answers (bindParam k) := onStatement_asks

theorem storeResult_asks : Asks (.storeResult k) Answers (storeResult k) := onStatement_asks

theorem bindResult_asks : Asks (.bindResult k) Answers (bindResult k) := onStatement_asks

theorem reset_asks : Asks (.reset k) (fun _ _ => True) (reset k) := by
  unfold reset
  exact performSurely_asks.bind fun _ _ _ e =>
    (still_modifyStatement (by simp) e).mono fun _ _ h => ⟨trivial, h⟩

theorem query_asks {d : Directive} : Asks (.query c d) (fun _ _ => True) (query c d) := by
  unfold query
  refine .look still_scriptFor fun _ => perform_asks.bind fun r o _ e => ?_
  cases r with
  | none => exact After.seq (still_modifyConnection e) fun _ _ h => After.pure_iff.2 ⟨trivial, h⟩
  | some f => exact After.seq (still_modifyConnection e) fun _ _ h => After.pure_iff.2 ⟨trivial, h⟩

theorem prepareText_asks {sql : Bytes} :
    Asks (.prepareText k sql) Answers (prepareText k sql) := by
  unfold prepareText
  refine onStatement_asks.bind fun ok o ho e => ?_
  cases ok with
  | false => exact After.pure_iff.2 ⟨ho, rfl⟩
  | true =>
    exact After.seq (still_scriptFor e) fun _ e₁ h₁ =>
      After.seq (still_modifyStatement (by simp) e₁) fun _ _ h => After.pure_iff.2 ⟨ho, h.trans h₁⟩

theorem execute_asks {parameters : List Datum} :
    Asks (.execute k parameters) Answers (execute k parameters) := by
  unfold execute
  refine onStatement_asks.bind fun ok o ho e => ?_
  cases ok with
  | false => exact After.pure_iff.2 ⟨ho, rfl⟩
  | true =>
    exact After.seq (still_modifyStatement (by simp) e) fun _ _ h => After.pure_iff.2 ⟨ho, h⟩

theorem freeResult_asks : Asks (.freeResult k) (fun _ _ => True) (freeResult k) := by
  unfold freeResult
  exact onStatement_asks.bind fun _ _ _ _ => After.pure_iff.2 ⟨trivial, rfl⟩

/-- Fetching a row answers that it failed if it did. -/
theorem fetch_asks : Asks (.fetch k)
    (fun r o => o.isFailure → r = .truncated ∨ r = .failed) (fetch k) := by
  unfold fetch
  refine .look still_statement fun s => perform_asks.bind fun r o ho e => ?_
  subst ho
  cases r with
  | some f =>
    refine After.seq (still_modifyStatement (by simp) e) fun _ _ h =>
      After.pure_iff.2 ⟨fun _ => ?_, h⟩
    by_cases hf : f.code = truncatedCode
    · exact .inl (if_pos hf)
    · exact .inr (if_neg hf)
  | none =>
    cases s.pending with
    | nil => exact After.pure_iff.2 ⟨nofun, rfl⟩
    | cons row rest =>
      exact After.seq (still_modifyStatement (by simp) e) fun _ _ h => After.pure_iff.2 ⟨nofun, h⟩

/-! ## What such calls do to what is held -/

namespace Still

/-- What is held stays when nothing is changed that counts for it. -/
theorem carries {x : EngineM α} {y : Multiset Asset} (hx : Still x) (h : e.Carries y) :
    After x e fun _ e' => e'.Carries y :=
  (hx e).mono fun _ e' he => by rw [Carries, he]; exact h

end Still

namespace Asks

variable {y : EngineM α}

/-- A call on a statement that is held moves it on. -/
theorem statement (hy : Asks call R y) (h : e.Carries (.statement k c st ::ₘ x))
    (hk : call.statement? = some k) (hg : call.givesUp? = none) (ha : st.allows call) :
    After y e fun a e' => ∃ o, R a o ∧ e'.Carries (.statement k c (st.after ⟨call, o⟩) ::ₘ x) := by
  refine (hy e).mono fun a e' ⟨o, ho, he⟩ => ⟨o, ho, ?_⟩
  rw [Carries, he]
  exact Outline.Carries.ask (e := ⟨call, o⟩) h hk hg ha

/-- A call on a connection that is held changes nothing. -/
theorem connection (hy : Asks call R y) (h : e.Carries x) (hc : call.connection? = some c)
    (hm : ∀ o, (⟨call, o⟩ : Event).makes? = none) (hcl : call.closes? = none)
    (hx : .connection c ∈ x) : After y e fun a e' => (∃ o, R a o) ∧ e'.Carries x := by
  refine (hy e).mono fun a e' ⟨o, ho, he⟩ => ⟨⟨o, ho⟩, ?_⟩
  rw [Carries, he]
  refine h.pass (Option.not_isSome_iff_eq_none.1 fun hs => ?_) (hm o)
    (Event.opens?_of_connection? hc) hcl fun c' hc' => ?_
  · obtain ⟨k, hk⟩ := Option.isSome_iff_exists.1 hs
    rw [Call.connection?_of_statement? hk] at hc
    cases hc
  · obtain rfl : c = c' := Option.some.inj (hc.symm.trans hc')
    exact hx

end Asks

/-! ## Statements -/

/-- Preparing a statement hands it out if it succeeds with one. -/
theorem prepare_carries {sql : Bytes} (h : e.Carries x) (hc : .connection c ∈ x) :
    After (prepare c sql) e fun r e' => match r.2 with
      | none => e'.Carries x
      | some k => r.1 = 0 ∧ e'.Carries (.statement k c .ready ::ₘ x) := by
  have pass {o : Outcome} {e₁ : Engine} (ho : ∀ k, o ≠ .created k)
      (he : e₁.outline = e.outline.call ⟨.prepare c sql, o⟩) : e₁.Carries x := by
    rw [Carries, he]
    refine h.pass rfl (Event.makes?_eq_none ho) rfl rfl ?_
    rintro _ ⟨⟩
    exact hc
  unfold prepare
  refine After.bind_iff.2 <| After.base_get_iff.2 <| After.seq (perform_asks e)
    fun r e₁ ⟨o, ho, he⟩ => ?_
  subst ho
  cases r with
  | some f =>
    exact After.seq (still_modifyConnection.carries (pass (by simp) he)) fun _ _ h₂ =>
      After.pure_iff.2 h₂
  | none =>
    by_cases hb : isBlankSql sql
    · simp only [hb, if_true] at he ⊢
      exact After.pure_iff.2 (pass (by simp) he)
    · simp only [hb, Bool.false_eq_true, if_false] at he ⊢
      refine After.seq (still_scriptFor e₁) fun script e₂ he₂ => ?_
      refine After.bind_iff.2 <| After.base_modify_iff.2 <| After.pure_iff.2 ⟨rfl, ?_⟩
      rw [Carries, outline_addStatement, he₂, he]
      exact Outline.Carries.make h rfl hc

/-- Making a statement ready hands it out if it succeeds. -/
theorem newStatement_carries (h : e.Carries x) (hc : .connection c ∈ x) :
    After (newStatement c) e fun r e' => match r with
      | none => e'.Carries x
      | some k => e'.Carries (.statement k c .blank ::ₘ x) := by
  unfold newStatement
  refine After.bind_iff.2 <| After.base_get_iff.2 <| After.seq (perform_asks e)
    fun r e₁ ⟨o, ho, he⟩ => ?_
  subst ho
  cases r with
  | some f =>
    have pass : e₁.Carries x := by
      rw [Carries, he]
      refine h.pass rfl (Event.makes?_eq_none (by simp)) rfl rfl ?_
      rintro _ ⟨⟩
      exact hc
    exact After.seq (still_modifyConnection.carries pass) fun _ _ h₂ => After.pure_iff.2 h₂
  | none =>
    refine After.bind_iff.2 <| After.base_modify_iff.2 <| After.pure_iff.2 ?_
    change Carries _ _
    rw [Carries, outline_addStatement, he]
    exact Outline.Carries.make h rfl hc

/-- A statement that is given up is no more held, even if that fails. -/
theorem giveUp_carries {success : Outcome} (h : e.Carries (.statement k c st ::ₘ x))
    (hk : call.givesUp? = some k) (ha : st.allows call) :
    After (perform call success) e fun _ e' => After (dropStatement k) e' fun _ e'' =>
      e''.Carries x := by
  refine (perform_asks e).mono fun r e₁ ⟨o, _, he⟩ => After.base_modify_iff.2 ?_
  rw [Carries, outline_dropStatement, he]
  exact Outline.Carries.giveUp (e := ⟨call, o⟩) h hk ha

theorem finalize_carries (h : e.Carries (.statement k c st ::ₘ x)) (ha : st.ofSqlite) :
    After (finalize k) e fun _ e' => e'.Carries x := by
  unfold finalize
  refine After.seq (still_statement.carries h) fun s e₁ h₁ => ?_
  refine After.seq (giveUp_carries h₁ rfl ha) fun r e₂ h₂ => After.seq h₂ fun _ e₃ h₃ => ?_
  cases r with
  | none => exact After.pure_iff.2 h₃
  | some f =>
    exact After.seq (still_modifyConnection.carries h₃) fun _ _ h₄ => After.pure_iff.2 h₄

theorem closeStatement_carries (h : e.Carries (.statement k c st ::ₘ x))
    (ha : st.ofSqlite = false) : After (closeStatement k) e fun _ e' => e'.Carries x := by
  unfold closeStatement
  exact After.seq (giveUp_carries h rfl (by simp [Stage.allows, ha])) fun _ _ h₁ =>
    After.seq h₁ fun _ _ h₂ => After.pure_iff.2 h₂

/-! ## Connections -/

/-- A connection that was made is handed out. -/
theorem addConnection_carries {ev : Event} {e' : Engine} (h : e.Carries x)
    (he : e'.outline = e.outline.call ev) (ho : ev.opens? = some e.connections.next)
    (s : Connection) : After (addConnection s) e' fun _ e'' =>
      e''.Carries (.connection e.connections.next ::ₘ x) := by
  refine After.base_modify_iff.2 ?_
  rw [Carries, outline_addConnection, he]
  exact Outline.Carries.opens h ho

/-- Opening a file hands out the connection that it leaves. -/
theorem openFile_carries {path : Bytes} {flags : Nat} (h : e.Carries x) :
    After (openFile path flags) e fun r e' => match r.2 with
      | none => e'.Carries x
      | some c => e'.Carries (.connection c ::ₘ x) := by
  unfold openFile
  refine After.bind_iff.2 <| After.base_get_iff.2 <| After.seq (still_consult e)
    fun r e₁ he => ?_
  have hnext : e₁.connections.next = e.connections.next := congrArg Outline.nextConnection he
  have h₁ : e₁.Carries x := by
    rw [Carries, he]
    exact h
  rw [← hnext]
  cases r with
  | none =>
    refine After.bind_iff.2 <| After.base_modify_iff.2 <|
      After.seq (addConnection_carries h₁ rfl rfl _) fun _ e₂ h₂ => After.pure_iff.2 h₂
  | some f =>
    dsimp only
    split
    · refine After.bind_iff.2 <| After.base_modify_iff.2 <| After.pure_iff.2 ?_
      exact Outline.Carries.pass h₁ rfl rfl rfl rfl nofun
    · refine After.bind_iff.2 <| After.base_modify_iff.2 <|
        After.seq (addConnection_carries h₁ rfl rfl _) fun _ e₂ h₂ => After.pure_iff.2 h₂

theorem init_carries (h : e.Carries x) :
    After init e fun r e' => match r with
      | none => e'.Carries x
      | some c => e'.Carries (.connection c ::ₘ x) := by
  unfold init
  refine After.bind_iff.2 <| After.base_get_iff.2 <| After.seq (perform_asks e)
    fun r e₁ ⟨o, ho, he⟩ => ?_
  subst ho
  cases r with
  | some f =>
    refine After.pure_iff.2 ?_
    rw [Carries, he]
    exact h.pass rfl rfl rfl rfl nofun
  | none =>
    exact After.seq (addConnection_carries h he rfl _) fun _ e₂ h₂ => After.pure_iff.2 h₂

section Closing

variable (h : e.Carries (.connection c ::ₘ x)) (hx : Grounded x)
include h hx

/-- A connection that is closed is no more held, even if that fails; then it is still there. -/
theorem closeFile_carries : After (closeFile c) e fun code e' =>
    e'.Carries x ∧ (code ≠ 0 → e'.Has (some c)) := by
  unfold closeFile
  refine After.seq (perform_asks e) fun r e₁ ⟨o, ho, he⟩ => ?_
  have hclosed := Outline.Carries.close (e := ⟨.close c, o⟩) h rfl hx
  subst ho
  cases r with
  | none =>
    refine After.bind_iff.2 <| After.base_modify_iff.2 <| After.pure_iff.2 ⟨?_, absurd rfl⟩
    rw [Carries, outline_dropConnection, he]
    exact hclosed
  | some f =>
    refine After.seq (still_modifyConnection e₁) fun _ e₂ he₂ => After.pure_iff.2 ⟨?_, ?_⟩
    · rw [Carries, he₂, he]
      exact hclosed
    · rintro - _ ⟨⟩
      rw [he₂, he]
      exact h.connections.listed_of_mem (Multiset.mem_cons_self _ _)

theorem closeConnection_carries : After (closeConnection c) e fun _ e' => e'.Carries x := by
  unfold closeConnection
  refine After.seq (performSurely_asks e) fun _ e₁ ⟨o, ho, he⟩ => After.base_modify_iff.2 ?_
  subst ho
  rw [Carries, outline_dropConnection, he]
  exact Outline.Carries.close (e := ⟨.close c, .done⟩) h rfl hx

end Closing

/-! ## Copied values -/

theorem copyValue_carries {value : Option Cell} (h : e.Carries x) :
    After (copyValue value) e fun r e' => match r with
      | some _ => e'.Carries (.cell ::ₘ x)
      | none => e'.Carries x := by
  cases value with
  | some cell =>
    exact After.bind_iff.2 <| After.base_modify_iff.2 <| After.pure_iff.2 <| Outline.Carries.copy h
  | none => exact After.pure_iff.2 h

theorem freeCells_carries {n : Nat} (h : e.Carries (Multiset.replicate n .cell + x)) :
    After (freeCells n) e fun _ e' => e'.Carries x :=
  After.base_modify_iff.2 (Outline.Carries.free h)

end SqlAccess.Engine
