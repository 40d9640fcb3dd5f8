import SqlAccess.Proofs.Holdings.Backend
import SqlAccess.Proofs.Heeding

/-!
# The backends heed failures

Every operation of a backend fails if a call that it made did. For SQLite an answer has to report
the code of the call, unless that passes for success (`Sqlite.Reports`). For MariaDB each call is
checked right after it was made; taking the result of a directive counts as failed only where there
is one, which is known of a connection that is there.
-/

namespace SqlAccess

open Engine

variable {α β : Type} {W : Call → Prop} {past : History} {c : Option Nat} {e : Engine} {call : Call}
  {o : Outcome} {code : Int32} {action : Bytes} {k : Nat}

/-! ## SQLite -/

namespace Sqlite

/-- An answer reports a result code, unless that passes for success. -/
def Reports (code : Int32) (r : Except Fault α) : Prop :=
  ¬ Passes code → ∃ f, r = .error f ∧ f.toError.native = code

theorem reports_zero {r : Except Fault α} : Reports 0 r := fun h => absurd rfl h

/-- A code that is reported by a success passes for one. -/
theorem Reports.of_ok {a : α} {r : Except Fault β} (h : Reports code (.ok a)) : Reports code r :=
  fun hp => by
    obtain ⟨f, hf, -⟩ := h hp
    cases hf

theorem Reports.of_error {f : Fault} (h : Reports code (.error f : Except Fault α)) :
    Reports code (.error f : Except Fault β) := fun hp => by
  obtain ⟨g, hg, hn⟩ := h hp
  cases hg
  exact ⟨f, rfl, hn⟩

theorem Reports.map {g : α → β} {r : Except Fault α} (h : Reports code r) :
    Reports code (r.map g) := by
  cases r with
  | ok a => exact h.of_ok
  | error f => exact h.of_error

/-- A call is heeded in an answer that reports its code. -/
theorem Reports.heeded {r : Except Fault α} (hr : Reports code r) (ho : Codes code o)
    (hc : ∀ code, call.Counts past code → ¬ Passes code) : Heeded W r past ⟨call, o⟩ := by
  intro _ code' left hf hcount
  obtain rfl := ho code' left hf
  obtain ⟨f, rfl, hn⟩ := hr (hc _ hcount)
  exact ⟨f, rfl, f.toError_isOk, fun _ => hn⟩

/-- An answer is as a result code has it: a fault of its kind that tells it, or a success if the
code passes for one. -/
def Matches (code : Int32) : Except Fault α → Prop
  | .ok _ => Passes code
  | .error f => kindOf? code = some f.kind ∧ f.toError.native = code

theorem Matches.reports {r : Except Fault α} (h : Matches code r) : Reports code r := fun hp => by
  cases r with
  | ok a => exact absurd h hp
  | error f => exact ⟨f, rfl, h.2⟩

theorem fault?_matches (e : Engine) : After (fault? c code action) e fun f e' =>
    e'.history = e.history ∧ Matches code (f.elim (.ok ()) .error) := by
  unfold fault?
  refine After.seq (failureText_still e) fun text e₁ h₁ => After.pure_iff.2 ⟨h₁.history, ?_⟩
  cases hk : kindOf? code with
  | none => exact kindOf?_eq_none_iff.1 hk
  | some kind => exact ⟨hk, rfl⟩

/-- The fault of a code reports it, and there is none only if the code passes for success. -/
theorem fault?_after (e : Engine) : After (fault? c code action) e fun f e' =>
    e'.history = e.history ∧ Reports code (f.elim (.ok ()) .error) :=
  (fault?_matches e).mono fun _ _ h => ⟨h.1, h.2.reports⟩

theorem check_matches (e : Engine) : After (check c code action).run e fun r e' =>
    e'.history = e.history ∧ Matches code r := by
  unfold check
  split
  · refine After.try_call (fault?_matches e) fun f e₁ hf => ?_
    cases f with
    | none => exact After.try_pure_iff.2 hf
    | some f => exact After.throw_iff.2 hf
  · next hcode =>
    obtain rfl : code = 0 := Decidable.not_not.1 hcode
    exact After.try_pure_iff.2 ⟨rfl, rfl⟩

theorem check_reports (e : Engine) : After (check c code action).run e fun r e' =>
    e'.history = e.history ∧ Reports code r :=
  (check_matches e).mono fun _ _ h => ⟨h.1, h.2.reports⟩

theorem check_heeds : Heeds W (check c code action).run e :=
  (check_reports e).mono fun _ _ h => h.1 ▸ .refl

theorem reset_calm : Calm W (Engine.reset k) e :=
  calm_of_takes (fun _ => reset_takes) fun _ _ h => h

theorem rewind_calm {n : Option Nat} : Calm W (rewind n) e := by
  unfold rewind
  cases n with
  | none => exact calm_of_same (After.pure_iff.2 rfl)
  | some k => exact reset_calm

theorem disconnect_heeds : Heeds W (disconnect c).run e := by
  unfold disconnect
  cases c with
  | none => exact heeds_try_pure _
  | some n =>
    exact closeFile_enters.heeds fun code o e₁ ho => (check_reports e₁).mono fun r e₂ h =>
      ⟨h.2.heeded ho fun _ hc => hc, h.1 ▸ .refl⟩

theorem control_heeds {d : Directive} : Heeds W (control c d).run e := by
  unfold control
  cases c with
  | none => exact check_heeds
  | some n =>
    refine exec_asks.enters.heeds fun r o e₁ ho => ?_
    obtain ⟨code, message⟩ := r
    dsimp only at ho ⊢
    split
    · refine After.try_call (failureText_still e₁) fun text e₂ h₂ => ?_
      rw [← h₂.history]
      cases hk : kindOf? code with
      | none =>
        have reports : Reports code (.ok () : Except Fault Unit) :=
          fun hp => absurd (kindOf?_eq_none_iff.1 hk) hp
        exact After.try_pure_iff.2 ⟨reports.heeded ho fun _ hc => hc, .refl⟩
      | some kind =>
        have reports : Reports code
            (.error (.engine kind d.sqlite code (message.getD text)) : Except Fault Unit) :=
          fun _ => ⟨_, rfl, rfl⟩
        exact After.throw_iff.2 ⟨reports.heeded ho fun _ hc => hc, .refl⟩
    · next hcode =>
      obtain rfl : code = 0 := Decidable.not_not.1 hcode
      exact After.try_pure_iff.2 ⟨reports_zero.heeded ho fun _ hc => hc, .refl⟩

theorem prepare_heeds {sql : Bytes} : Heeds W (prepare c sql).run e := by
  have answer (r : Int32 × Option Nat) (e₁ : Engine) :=
    prepared_after (c := c) (r := r) (e := e₁)
      (Q := fun r' e₂ => e₂.history = e₁.history ∧ Reports r.1 r')
      (fun _ hr => ⟨rfl, hr ▸ reports_zero⟩) (fun hr => ⟨rfl, hr ▸ reports_zero⟩)
      fun _ => (check_reports e₁).mono fun _ _ h => ⟨h.1, h.2.map⟩
  unfold prepare
  cases c with
  | none =>
    exact After.try_bind_iff.2 <| After.try_pure_iff.2 <|
      (answer (misuseCode, none) e).mono fun _ _ h => h.1 ▸ .refl
  | some n =>
    exact prepare_enters.heeds fun r o e₁ ho => (answer r e₁).mono fun r' e₂ h =>
      ⟨h.2.heeded ho fun _ hc => hc, h.1 ▸ .refl⟩

theorem bind_heeds {n : Option Nat} {type : ValueType} {slot : Nat} {v : Value} :
    Heeds W (bind n type slot v).run e := by
  unfold bind
  refine Heeds.bind (heeds_pure _) fun _ e₁ => ?_
  cases n with
  | none => exact check_heeds
  | some k =>
    refine bind_asks.enters.heeds fun code o e₂ ho => ?_
    split
    · exact After.try_call (viewStatement_after e₂) fun s e₃ h₃ =>
        (check_reports e₃).mono fun r e₄ h =>
        ⟨h.2.heeded ho fun _ hc => hc, h.1 ▸ h₃.history ▸ .refl⟩
    · next hcode =>
      obtain rfl : code = 0 := Decidable.not_not.1 hcode
      exact After.try_pure_iff.2 ⟨reports_zero.heeded ho fun _ hc => hc, .refl⟩

/-! ### Stepping -/

/-- A step that fails halts the run with its code, unless that says that the rows have ended. -/
def Halts (k : Nat) (r : StepResult) (ev : Event) : Prop :=
  ev.call = .step k ∧
    ∀ code left, ev.outcome = .failed code left → code = doneCode ∨ r = .failed code

/-- The steps are heeded in an answer that reports the code with which stepping ended. -/
theorem Halts.heeded {r : StepResult} {r' : Except Fault α} {ev : Event} (h : Halts k r ev)
    (hr : ∀ code, r = .failed code → Reports code r') : Heeded W r' past ev := by
  obtain ⟨call, o⟩ := ev
  obtain ⟨rfl, h⟩ := h
  intro _ code left ho hc
  obtain ⟨-, hdone, hpasses⟩ := hc
  obtain rfl | rfl := h code left ho
  · exact absurd rfl hdone
  · obtain ⟨f, rfl, hn⟩ := hr code rfl hpasses
    exact ⟨f, rfl, f.toError_isOk, fun _ => hn⟩

/-- One step halts the run or goes on. -/
theorem step_halts (e : Engine) : After (Engine.step k) e fun r e' =>
    Grown (fun _ ev => Halts k r ev) e.history e'.history := by
  refine (step_asks.enters e).mono ?_
  rintro r e₁ ⟨o, ho, hh⟩
  rw [hh]
  refine .one ⟨rfl, fun code left hf => ?_⟩
  cases r with
  | row values => cases hf.symm.trans ho
  | finished => exact .inl (ho.2 code left hf)
  | failed code' => exact .inr (congrArg StepResult.failed (ho.2 code left hf).symm)

theorem runToEnd_halts (n : Nat) (e : Engine) : After (runToEnd k n) e fun r e' =>
    Grown (fun _ ev => Halts k r ev) e.history e'.history := by
  induction n generalizing e with
  | zero => exact After.pure_iff.2 .refl
  | succ n ih =>
    unfold runToEnd
    refine After.seq (step_halts e) fun r e₁ h₁ => ?_
    cases r with
    | row values =>
      -- a step that gave a row did not fail with a code that counts
      refine (ih e₁).mono fun r e₂ h =>
        (h₁.mono fun _ ev hev => ⟨hev.1, fun code left hf => ?_⟩).trans h
      exact .inl ((hev.2 code left hf).resolve_right fun hr => by cases hr)
    | finished => exact After.pure_iff.2 h₁
    | failed code => exact After.pure_iff.2 h₁

theorem execute_heeds {n : Option Nat} : Heeds W (execute c n).run e := by
  unfold execute
  cases n with
  | none => exact check_heeds.bind fun _ _ => heeds_try_pure _
  | some k =>
    have settled {r : StepResult} {e₁ e₂ e₃ : Engine} {r' : Except Fault Int64}
        (h₁ : Grown (fun _ ev => Halts k r ev) e₁.history e₂.history)
        (h₂ : Grown (Unfailed W) e₂.history e₃.history)
        (hr : ∀ code, r = .failed code → Reports code r') :
          Grown (Heeded W r') e₁.history e₃.history :=
      (h₁.mono fun _ _ h => h.heeded hr).trans (h₂.mono fun _ _ => Unfailed.heeded)
    refine After.try_call (P := fun _ e₁ => e₁.history = e.history) rfl fun s e₁ he => ?_
    refine After.try_call (runToEnd_halts _ _) fun r e₂ h₂ => ?_
    rw [he] at h₂
    dsimp only
    split
    · next code =>
      refine After.try_call (fault?_after e₂) fun f e₃ h₃ =>
        After.try_call (reset_calm (W := W)) fun _ e₄ h₄ => ?_
      rw [show engine e₃ = e₃ from rfl, h₃.1] at h₄
      cases f with
      | none =>
        refine After.try_pure_iff.2 (settled h₂ h₄ ?_)
        rintro _ ⟨⟩
        exact h₃.2.of_ok
      | some f =>
        refine After.throw_iff.2 (settled h₂ h₄ ?_)
        rintro _ ⟨⟩
        exact h₃.2.of_error
    · next hne =>
      have finished {e₃ : Engine} {n : Int64} (h₃ : e₃.history = e₂.history) :
          After (do Engine.reset k; return n : EngineTry Int64).run e₃ fun r' e' =>
            Grown (Heeded W r') e.history e'.history := by
        refine After.try_call (reset_calm (W := W)) fun _ e₄ h₄ => After.try_pure_iff.2 ?_
        rw [show engine e₃ = e₃ from rfl, h₃] at h₄
        exact settled h₂ h₄ fun code hr => (hne code hr).elim
      cases c with
      | none => exact finished rfl
      | some n =>
        exact After.try_call (viewConnection_after e₂) fun _ e₃ h₃ => finished h₃.2.history

theorem fetchRow_heeds {n : Option Nat} : Heeds W (fetchRow c n).run e := by
  have answer (r : StepResult) (e₁ : Engine) :=
    fetched_after (c := c) (r := r) (e := e₁)
      (Q := fun r' e₂ => (∀ code, r = .failed code → Reports code r') ∧
        Grown (Unfailed W) e₁.history e₂.history)
      (fun hr => ⟨fun _ hf => (by cases hr.symm.trans hf), .refl⟩)
      (fun code hr => (check_reports e₁).mono fun _ _ h => by
        refine ⟨fun code' hf => ?_, h.1 ▸ .refl⟩
        cases hr.symm.trans hf
        exact h.2.map)
      fun _ hr => (preserves_copyRow (I := e₁.Unharmed W) e₁ .refl).mono fun _ _ h =>
        ⟨fun _ hf => (by cases hr.symm.trans hf), h⟩
  unfold fetchRow
  cases n with
  | none =>
    exact After.try_bind_iff.2 <| After.try_pure_iff.2 <|
      (answer (.failed misuseCode) e).mono fun _ _ h => h.2.mono fun _ _ => Unfailed.heeded
  | some k =>
    refine After.try_call (step_halts e) fun r e₁ h₁ => (answer r e₁).mono fun r' e₂ h => ?_
    exact (h₁.mono fun _ _ ho => ho.heeded h.1).trans (h.2.mono fun _ _ => Unfailed.heeded)

/-! ### Connections -/

theorem connect_heeds {path : Bytes} {readOnly : Bool} {busyTimeout : Int32} :
    Heeds Call.GivesNothingUp (connect path readOnly busyTimeout).run e := by
  unfold connect
  refine openFile_enters.heeds fun r o e₁ ho => ?_
  obtain ⟨code, c⟩ := r
  dsimp only at ho ⊢
  split
  · next hcode =>
    subst hcode
    refine After.mono (P := fun r e₂ =>
      Grown (Heeded Call.GivesNothingUp r) e₁.history e₂.history) ?_
      fun r e₂ h => ⟨reports_zero.heeded ho fun _ hc => hc, h⟩
    cases c with
    | none => exact heeds_try_pure none
    | some c =>
      have extended (e : Engine) :
          Calm Call.GivesNothingUp (Engine.performSurely (.extendedCodes c)) e :=
        calm_of_takes (fun _ => performSurely_takes) fun _ _ h => h
      have timed (e : Engine) :
          Calm Call.GivesNothingUp (Engine.performSurely (.busyTimeout c busyTimeout)) e :=
        calm_of_takes (fun _ => performSurely_takes) fun _ _ h => h
      refine (extended e₁).lift.bind fun _ e₂ => ?_
      split
      · exact (timed e₂).lift.bind fun _ _ => heeds_try_pure _
      · exact heeds_try_pure _
  · refine After.try_call (fault?_after e₁) fun f e₂ h₂ => ?_
    have refused {e₃ : Engine} (h₃ : Grown (Unfailed Call.GivesNothingUp) e₁.history e₃.history) :=
      After.try_fault (m := EngineM) (f := f) (a := (none : Option Nat)) (s := e₃)
        (Q := fun r e₄ =>
          Heeded Call.GivesNothingUp r e.history ⟨.openFile path (openFlags readOnly), o⟩ ∧
            Grown (Heeded Call.GivesNothingUp r) e₁.history e₄.history)
        (fun hf => by
          subst hf
          exact ⟨h₂.2.of_ok.heeded ho fun _ hc => hc, h₃.mono fun _ _ => Unfailed.heeded⟩)
        fun g hf => by
          subst hf
          exact ⟨h₂.2.of_error.heeded ho fun _ hc => hc, h₃.mono fun _ _ => Unfailed.heeded⟩
    cases c with
    | none => exact refused (h₂.1 ▸ .refl)
    | some c =>
      refine After.try_call (closeFile_enters e₂) fun _ e₃ h₃ => refused ?_
      obtain ⟨o', -, hh⟩ := h₃
      rw [hh, h₂.1]
      exact .one fun hw => by cases hw.1

end Sqlite

/-! ## MariaDB -/

namespace Maria

/-- An answer heeds a call of MariaDB if it is a fault whenever the call failed. -/
theorem heeded_of_failed {r : Except Fault α} (hs : call.ofSqlite = false)
    (h : o.isFailure → ∃ f, r = .error f) : Heeded W r past ⟨call, o⟩ := by
  rintro _ code left rfl _
  obtain ⟨f, rfl⟩ := h rfl
  refine ⟨f, rfl, f.toError_isOk, fun hn => ?_⟩
  cases hs.symm.trans hn

theorem eq_false_of_answers {ok : Bool} (h : Answers ok o) (ho : o.isFailure) : ok = false := by
  cases ok with
  | false => rfl
  | true =>
    obtain rfl : o = .done := h
    cases ho

theorem checkStatement_after {ok : Bool} (e : Engine) :
    After (checkStatement k ok action).run e fun r e' => r.isOk = ok ∧ e.Viewed e' := by
  unfold checkStatement
  cases ok with
  | true => exact After.try_pure_iff.2 ⟨rfl, rfl, rfl, rfl⟩
  | false => exact After.try_bind_iff.2 (After.try_lift_iff.2 ⟨rfl, rfl, rfl, rfl⟩)

theorem exists_error {r : Except Fault α} (h : r.isOk = false) : ∃ f, r = .error f := by
  cases r with
  | error f => exact ⟨f, rfl⟩
  | ok a => cases h

section Checked

variable {m : Type → Type} {σ : Type} [Monad m] [Stateful m σ] [HasEngine σ] {s : σ}

/-- A call that is checked right away is heeded. -/
theorem heeds_checked {x : ExceptT Fault m Bool} {y : Bool → ExceptT Fault m PUnit}
    (hs : call.ofSqlite = false)
    (hx : After x.run s fun r s' => ∃ ok o, r = .ok ok ∧ Answers ok o ∧
      (engine s').history = ⟨call, o⟩ :: (engine s).history)
    (hy : ∀ ok s', After (y ok).run s' fun r s'' =>
      r.isOk = ok ∧ (engine s'').history = (engine s').history) :
    Heeds W (x >>= y).run s := by
  refine After.try_bind_iff.2 (hx.mono ?_)
  rintro _ s₁ ⟨ok, o, rfl, ho, hh⟩
  refine (hy ok s₁).mono ?_
  rintro r s₂ ⟨hr, h₂⟩
  rw [h₂, hh]
  exact .one (heeded_of_failed hs fun hf => exists_error (hr.trans (eq_false_of_answers ho hf)))

end Checked

/-- A call on a statement that is checked right away is heeded. -/
theorem heeds_onStatement {x : EngineM Bool} (hs : call.ofSqlite = false)
    (hx : Enters call Answers x) :
    Heeds W (do checkStatement k (← x) action : EngineTry Unit).run e := by
  refine heeds_checked hs (After.try_lift_iff.2 ((hx e).mono ?_)) fun _ e' =>
    (checkStatement_after e').mono fun _ _ h => ⟨h.1, h.2.history⟩
  rintro ok _ ⟨o, ho, hh⟩
  exact ⟨ok, o, rfl, ho, hh⟩

theorem bindAndExecute_heeds {s : Client} : Heeds W (bindAndExecute s).run e := by
  unfold bindAndExecute
  have executed (e : Engine) : Heeds W (do
      checkStatement s.number (← Engine.execute s.number s.parameters)
        "Statement execution failed" :
        EngineTry Unit).run e := heeds_onStatement rfl execute_asks.enters
  split
  · exact (heeds_onStatement rfl bindParam_asks.enters).bind₂ fun _ e₁ => executed e₁
  · exact executed e

theorem freeResult_calm : Calm W (Engine.freeResult k) e :=
  calm_of_takes (fun _ => freeResult_takes) fun _ _ h => h

theorem execute_heeds {s : Client} : Heeds W (execute s).run e := by
  unfold execute
  have changes (e : Engine) : Heeds W (do
      return (← Engine.viewStatement s.number).script.changes : EngineTry Int64).run e :=
    (Calm.lift (calm_of_preserves fun _ => preserves_altering fun _ => viewStatement_alters)).bind
      fun _ _ => heeds_try_pure _
  refine bindAndExecute_heeds.bind fun _ e₁ => ?_
  split
  · refine (heeds_onStatement rfl storeResult_asks.enters).bind₂ fun _ _ => ?_
    exact freeResult_calm.lift.bind fun _ e₂ => changes e₂
  · exact changes e₁

theorem endRows_calm {s : Client} : Calm W (endRows s) e := by
  unfold endRows
  split
  · exact calm_bind freeResult_calm fun _ _ => calm_of_same (After.pure_iff.2 rfl)
  · exact calm_of_same (After.pure_iff.2 rfl)

theorem heeds_onClient {x : EngineTry α} {a : Client × Engine} (h : Heeds W x.run a.2) :
    Heeds W (liftM x : ClientTry α).run a := After.try_object_onTry_iff.2 h

/-- A call on a statement with its buffers that is checked right away is heeded. -/
theorem heeds_onClientStatement {x : EngineM Bool} {a : Client × Engine}
    (hs : call.ofSqlite = false)
    (hx : Enters call Answers x) :
    Heeds W (do checkStatement k (← x) action : ClientTry Unit).run a := by
  refine heeds_checked hs (After.try_object_onEngine_iff.2 ((hx a.2).mono ?_)) fun _ a' =>
    After.try_object_onTry_iff.2 <| (checkStatement_after a'.2).mono fun _ _ h => ⟨h.1, h.2.history⟩
  rintro ok _ ⟨o, ho, hh⟩
  exact ⟨ok, o, rfl, ho, hh⟩

theorem heeds_set {s : Client} {f : PUnit → ClientTry α} {a : Client × Engine}
    (hf : ∀ a, Heeds W (f ⟨⟩).run a) : Heeds W (set s >>= f).run a :=
  After.try_bind_iff.2 (After.try_set_iff.2 (hf (s, a.2)))

theorem beginRows_heeds {a : Client × Engine} : Heeds W beginRows.run a := by
  unfold beginRows
  refine After.try_bind_iff.2 <| After.try_get_iff.2 ?_
  have ended : Calm W (liftM (endRows a.1) : StateT Client EngineM Client) a :=
    After.lift_iff.2 endRows_calm
  refine ended.lift.bind fun s a₁ => heeds_set fun a₂ => ?_
  refine After.try_bind_iff.2 <| After.try_get_iff.2 ?_
  refine (heeds_onClient bindAndExecute_heeds).bind fun _ a₃ => ?_
  have rest (a : Client × Engine) : Heeds W (do
      checkStatement a₂.1.number (← Engine.storeResult a₂.1.number) "mysql_stmt_store_result failed"
      set { a₂.1 with hasRows := true }
      checkStatement a₂.1.number (← Engine.bindResult a₂.1.number) "mysql_stmt_bind_result failed" :
        ClientTry Unit).run a :=
    (heeds_onClientStatement rfl storeResult_asks.enters).bind₂ fun _ _ =>
      heeds_set fun _ => heeds_onClientStatement rfl bindResult_asks.enters
  split
  · exact (heeds_throw _).bind fun _ a₄ => rest a₄
  · exact rest a₃

theorem statementFault_after (e : Engine) :
    After (statementFault k action) e fun _ e' => e'.history = e.history :=
  After.seq (viewStatement_after e) fun _ _ h => After.pure_iff.2 h.history

theorem connectionFault_after {n : Nat} (e : Engine) :
    After (connectionFault n action) e fun _ e' => e'.history = e.history :=
  After.seq (viewConnection_after e) fun _ _ h => After.pure_iff.2 h.2.history

theorem fetchRow_heeds {s : Client} : Heeds W (fetchRow s).run e := by
  unfold fetchRow
  split
  · exact heeds_try_pure _
  · refine fetch_asks.enters.heeds fun r o e₁ ho => ?_
    have failed {r' : Except Fault (Option (List Cell))}
        (h : r = .truncated ∨ r = .failed → ∃ f, r' = .error f) :
        Heeded W r' e.history ⟨.fetch s.number, o⟩ := heeded_of_failed rfl fun hf => h (ho hf)
    cases r with
    | noRow => exact After.try_pure_iff.2 ⟨failed (by simp), .refl⟩
    | truncated => exact After.throw_iff.2 ⟨failed fun _ => ⟨_, rfl⟩, .refl⟩
    | failed =>
      exact After.try_call (statementFault_after e₁) fun _ e₂ h₂ =>
        After.throw_iff.2 ⟨failed fun _ => ⟨_, rfl⟩, h₂ ▸ .refl⟩
    | row values => exact After.try_pure_iff.2 ⟨failed (by simp), .refl⟩

theorem finalize_heeds {s : Client} : Heeds W (finalize s).run e := by
  unfold finalize
  refine closeStatement_enters.heeds fun ok o e₁ ho => ?_
  cases ok with
  | true => exact After.try_pure_iff.2 ⟨heeded_of_failed rfl fun hf => (by cases ho hf), .refl⟩
  | false => exact After.throw_iff.2 ⟨heeded_of_failed rfl fun _ => ⟨_, rfl⟩, .refl⟩

theorem prepare_heeds {sql : Bytes} : Heeds Call.GivesNothingUp (prepare c sql).run e := by
  unfold prepare
  cases c with
  | none => exact heeds_throw _
  | some n =>
    refine newStatement_enters.heeds fun r o e₁ ho => ?_
    cases r with
    | none =>
      exact After.try_call (connectionFault_after e₁) fun _ e₂ h₂ =>
        After.throw_iff.2 ⟨heeded_of_failed rfl fun _ => ⟨_, rfl⟩, h₂ ▸ .refl⟩
    | some k =>
      refine (prepareText_asks.enters.heeds fun ok o' e₂ ho' => ?_).mono fun r e₂ h =>
        ⟨heeded_of_failed rfl fun hf => (by cases ho hf), h⟩
      cases ok with
      | true =>
        exact After.try_call (viewStatement_after e₂) fun _ e₃ h₃ => After.try_pure_iff.2
          ⟨heeded_of_failed rfl fun hf => (by cases eq_false_of_answers ho' hf), h₃.history ▸ .refl⟩
      | false =>
        refine After.try_call (statementFault_after e₂) fun _ e₃ h₃ =>
          After.try_call (closeStatement_enters e₃) fun _ e₄ h₄ => After.throw_iff.2
            ⟨heeded_of_failed rfl fun _ => ⟨_, rfl⟩, ?_⟩
        obtain ⟨o'', -, hh⟩ := h₄
        rw [hh, h₃]
        exact .one fun hw => by cases hw.2

/-! ### Directives -/

/-- An action on an engine heeds its calls, and closes no connection. -/
def Stays (W : Call → Prop) (x : EngineTry α) (e : Engine) : Prop :=
  After x.run e fun r e' => Grown (Heeded W r) e.history e'.history ∧
    e'.outline.connections = e.outline.connections

theorem Stays.bind {x : EngineTry α} {f : α → EngineTry β} (hx : Stays W x e)
    (hf : ∀ a e', e'.outline.connections = e.outline.connections → Stays W (f a) e') :
    Stays W (x >>= f) e :=
  After.try_seq hx (fun a e₁ h => (hf a e₁ h.2).mono fun _ _ h' =>
      ⟨(h.1.mono fun _ _ => Heeded.of_ok).trans h'.1, h'.2.trans h.2⟩)
    fun _ _ h => ⟨h.1.mono fun _ _ => Heeded.of_error, h.2⟩

theorem Stays.bind₂ {γ : Type} {x : EngineTry γ} {y : γ → EngineTry α} {f : α → EngineTry β}
    (h : Stays W (x >>= y) e)
    (hf : ∀ a e', e'.outline.connections = e.outline.connections → Stays W (f a) e') :
    Stays W (x >>= fun c => y c >>= f) e := by
  rw [← bind_assoc]
  exact h.bind hf

theorem stays_pure (a : α) : Stays W (pure a) e := After.try_pure_iff.2 ⟨.refl, rfl⟩

theorem outline_connections_of_viewed {e e' : Engine} (h : e.Viewed e') :
    e'.outline.connections = e.outline.connections :=
  congrArg Table.numbers h.connections

/-- A call on a connection that is checked right away is heeded. -/
theorem stays_onConnection {n : Nat} (hs : call.ofSqlite = false) :
    Stays W (do checkConnection n (← Engine.onConnection n call) action) e := by
  refine After.try_call (onConnection_asks e) ?_
  rintro ok e₁ ⟨o, ho, he⟩
  refine (checkConnection_after e₁).mono ?_
  rintro r e₂ ⟨hr, h₂⟩
  refine ⟨?_, ?_⟩
  · rw [h₂.history, show e₁.history = ⟨call, o⟩ :: e.history from congrArg Outline.history he]
    exact .one (heeded_of_failed hs fun hf => exists_error (hr.trans (eq_false_of_answers ho hf)))
  · rw [outline_connections_of_viewed h₂, he]
    rfl

/-- Taking the result of a directive fails if there is one, since the connection is there to say
so. -/
theorem store_heeds {n columns : Nat} {d : Directive} {past : History} (hc : e.Has (some n))
    (hh : e.history = ⟨.query n d, .answered columns⟩ :: past) (hcol : e.HasColumns n columns) :
    After (do
        let stored ← Engine.store n
        let columns := (← Engine.viewConnection n).columns
        checkConnection n (stored || columns == 0) action : EngineTry Unit).run e fun r e' =>
        Grown (Heeded W r) past e'.history ∧
          e'.outline.connections = e.outline.connections := by
  refine After.try_call ((onConnection_after e).and (onConnection_asks e)) ?_
  rintro stored e₁ ⟨⟨-, hs, hkeep⟩, o₁, -, he₁⟩
  refine After.try_call (viewConnection_after e₁) ?_
  rintro s e₂ ⟨hview, h₂⟩
  refine (checkConnection_after e₂).mono ?_
  rintro r e₃ ⟨hr, h₃⟩
  have hconn : e₁.outline.connections = e.outline.connections := by
    rw [he₁]
    rfl
  refine ⟨?_, (outline_connections_of_viewed h₃).trans
    ((outline_connections_of_viewed h₂).trans hconn)⟩
  rw [h₃.history, h₂.history]
  rw [hh] at hs
  have asked : Heeded W r past ⟨.query n d, .answered columns⟩ := fun _ _ _ hf => by cases hf
  obtain ⟨-, hh⟩ | ⟨hstored, code, hh⟩ := hs
  · rw [hh]
    exact .call (.one asked) fun _ _ _ hf => by cases hf
  · rw [hh]
    refine .call (.one asked) ?_
    rintro - _ _ ⟨⟩ ⟨_, _, more, _, hpast⟩
    obtain rfl : columns = more + 1 := by
      simp only [List.cons.injEq, Event.mk.injEq, Outcome.answered.injEq] at hpast
      exact hpast.1.2
    -- the connection is there, so it knows of the columns
    have hmem : n ∈ e₁.outline.connections := hconn ▸ hc n rfl
    obtain ⟨⟨n', s'⟩, hs', rfl⟩ := List.mem_map.1 hmem
    have hfind := Table.find?_eq_some_of_mem hs'
    have hcolumns : s.columns = more + 1 := by
      rw [hview, hfind]
      exact hkeep _ hcol s' hfind
    obtain ⟨f, rfl⟩ := exists_error (r := r) (by rw [hr, hstored, hcolumns]; rfl)
    exact ⟨f, rfl, f.toError_isOk, fun hs => by cases hs⟩

theorem exec_stays {n : Nat} {d : Directive} (hc : e.Has (some n)) : Stays W (exec n d) e := by
  unfold exec
  refine After.try_call ((query_after e).and (query_asks e)) ?_
  rintro ok e₁ ⟨⟨-, hq⟩, o₁, -, he₁⟩
  have hconn {e₂ : Engine} (h₂ : e₁.Viewed e₂) :
      e₂.outline.connections = e.outline.connections := by
    rw [outline_connections_of_viewed h₂, he₁]
    rfl
  refine After.try_seq (checkConnection_after e₁) ?_ ?_
  · rintro _ e₂ ⟨hok, h₂⟩
    obtain ⟨-, columns, hq, hcol⟩ | ⟨hfalse, -⟩ := hq
    · exact (store_heeds (fun m hm => hconn h₂ ▸ hc m hm) (h₂.history.trans hq)
        fun x hx => hcol x (h₂.connections ▸ hx)).mono fun _ _ h => ⟨h.1, h.2.trans (hconn h₂)⟩
    · rw [hfalse] at hok
      cases hok
  · rintro f e₂ ⟨hok, h₂⟩
    refine ⟨?_, hconn h₂⟩
    obtain ⟨hq, -⟩ | ⟨-, code, hq⟩ := hq
    · rw [hq] at hok
      cases hok
    · rw [h₂.history, hq]
      exact .one (heeded_of_failed rfl fun _ => ⟨f, rfl⟩)

theorem control_heeds {d : Directive} (hc : e.Has c) : Heeds W (control c d).run e := by
  unfold control
  cases c with
  | none => exact heeds_throw _
  | some n => exact (exec_stays hc).mono fun _ _ h => h.1

theorem setUp_stays {n : Nat} {dsn : Dsn} {readOnly : Bool} {busyTimeout : Int32}
    (hc : e.Has (some n)) : Stays W (setUp n dsn readOnly busyTimeout) e := by
  have has {e₁ e₂ : Engine} (h : e₁.Has (some n))
      (he : e₂.outline.connections = e₁.outline.connections) : e₂.Has (some n) :=
    fun m hm => he ▸ h m hm
  have waiting {e₁ : Engine} (h₁ : e₁.Has (some n)) : Stays W (do
      if 0 < busyTimeout then exec n (.lockWait ((busyTimeout + 999) / 1000).toInt) :
        EngineTry Unit) e₁ := by
    split
    · exact exec_stays h₁
    · exact stays_pure _
  unfold setUp
  refine (stays_onConnection rfl).bind₂ fun _ e₁ h₁ => ?_
  refine (stays_onConnection rfl).bind₂ fun _ e₂ h₂ => ?_
  have hc₂ := has (has hc h₁) h₂
  cases readOnly with
  | true => exact (exec_stays hc₂).bind fun _ e₃ h₃ => waiting (has hc₂ h₃)
  | false => exact waiting hc₂

theorem init_has (e : Engine) :
    After init e fun r e' => ∀ c, r = some c → e'.Has (some c) := by
  unfold init
  refine After.bind_iff.2 <| After.base_get_iff.2 <| After.seq (perform_after e) fun r e₁ h => ?_
  cases r with
  | some f => exact After.pure_iff.2 fun _ hc => by cases hc
  | none =>
    refine After.bind_iff.2 <| After.base_modify_iff.2 <| After.pure_iff.2 ?_
    rintro _ ⟨⟩ _ ⟨⟩
    rw [← h.2.1]
    simp [outline]

theorem connect_heeds {dsn : Bytes} {readOnly : Bool} {busyTimeout : Int32} :
    Heeds Call.GivesNothingUp (connect dsn readOnly busyTimeout).run e := by
  unfold connect
  refine After.try_call ((init_enters e).and (init_has e)) ?_
  rintro r e₁ ⟨⟨o, ho, hh⟩, hhas⟩
  cases r with
  | none =>
    refine After.throw_iff.2 ?_
    rw [show (engine e₁).history = _ from hh]
    exact .one (heeded_of_failed rfl fun _ => ⟨_, rfl⟩)
  | some n =>
    have made {r : Except Fault (Option Nat)} : Heeded Call.GivesNothingUp r e.history ⟨.init, o⟩ :=
      heeded_of_failed rfl fun hf => by cases ho hf
    have set : Heeds Call.GivesNothingUp (setUp n (Dsn.parse dsn) readOnly busyTimeout).run e₁ :=
      (setUp_stays (hhas n rfl)).mono fun _ _ h => h.1
    have closing (e : Engine) : Admits (e.Unharmed Call.GivesNothingUp) (.close n) :=
      Unharmed.admits fun hw => by cases hw.1
    have closed {e : Engine} : Calm Call.GivesNothingUp (Engine.closeConnection n) e :=
      calm_of_preserves fun e => preserves_taking (closing e) fun _ => closeConnection_takes
    refine After.mono (P := fun r e₂ =>
      Grown (Heeded Call.GivesNothingUp r) e₁.history e₂.history) ?_
      fun r e₂ h => ?_
    · exact set.examines.bind (fun _ _ => heeds_try_pure _) fun f _ =>
        closed.lift.yields fun _ _ => yields_throw f
    · rw [hh] at h
      exact .trans (.one made) h

end Maria

/-! ## Backends -/

namespace Backend

variable {b : Backend}

theorem connect_heeds {dsn : Bytes} {readOnly : Bool} {busyTimeout : Int32} :
    Heeds Call.GivesNothingUp (b.connect dsn readOnly busyTimeout).run e := by
  cases b with
  | sqlite | strict => exact Sqlite.connect_heeds
  | maria => exact Maria.connect_heeds

theorem disconnect_heeds : Heeds W (b.disconnect c).run e := by
  cases b with
  | sqlite | strict => exact Sqlite.disconnect_heeds
  | maria =>
    cases c with
    | none => exact heeds_try_pure _
    | some n =>
      -- closing a connection of MariaDB does not fail
      have closed : After (closeConnection n) e fun _ e' =>
          e'.history = ⟨.close n, .done⟩ :: e.history := rfl
      exact After.try_lift_iff.2 <| closed.mono fun _ _ h => h ▸ .one fun _ _ _ hf => by cases hf

theorem control_heeds {d : Directive} (hc : b = .maria → e.Has c) :
    Heeds W (b.control c d).run e := by
  cases b with
  | sqlite | strict => exact Sqlite.control_heeds
  | maria => exact Maria.control_heeds (hc rfl)

/-- The connection is still there when the work since a savepoint has been undone. -/
theorem rollbackTo_heeds {n : Nat} (hc : b = .maria → e.Has c) :
    Heeds W (b.rollbackTo c n).run e := by
  cases b with
  | sqlite | strict => exact Sqlite.control_heeds.bind fun _ _ => Sqlite.control_heeds
  | maria =>
    cases c with
    | none => exact (heeds_throw _).bind fun _ _ => heeds_throw _
    | some c =>
      exact ((Maria.exec_stays (hc rfl)).bind fun _ e₁ h₁ =>
        Maria.exec_stays fun m hm => h₁ ▸ hc rfl m hm).mono fun _ _ h => h.1

theorem prepare_heeds {sql : Bytes} : Heeds Call.GivesNothingUp (b.prepare c sql).run e := by
  cases b with
  | sqlite | strict => exact Sqlite.prepare_heeds.bind fun _ _ => heeds_try_pure _
  | maria => exact Maria.prepare_heeds.bind fun _ _ => heeds_try_pure _

end Backend

namespace Handle

variable {h : Handle} {a : Handle × Engine}

theorem execute_heeds : Heeds W (h.execute c).run e := by
  cases h with
  | sqlite k => exact Sqlite.execute_heeds
  | maria s => exact Maria.execute_heeds

theorem fetchRow_heeds : Heeds W (h.fetchRow c).run e := by
  cases h with
  | sqlite k => exact Sqlite.fetchRow_heeds
  | maria s => exact Maria.fetchRow_heeds

theorem beginRows_heeds : Heeds W beginRows.run a := by
  obtain ⟨h, e⟩ := a
  unfold beginRows
  refine After.try_bind_iff.2 <| After.try_get_iff.2 ?_
  cases h with
  | sqlite k =>
    exact After.try_object_onEngine_iff.2 <| Sqlite.rewind_calm.mono fun _ _ h =>
      h.mono fun _ _ => Unfailed.heeded
  | maria s => exact onClient_iff.2 Maria.beginRows_heeds

theorem bind_heeds {type : ValueType} {slot : Nat} {v : Value} :
    Heeds W (bind type slot v).run a := by
  obtain ⟨h, e⟩ := a
  unfold bind
  refine After.try_bind_iff.2 <| After.try_get_iff.2 ?_
  cases h with
  | sqlite k => exact After.try_object_onTry_iff.2 Sqlite.bind_heeds
  | maria s =>
    refine onClient_iff.2 <| (Maria.bind_preserves (I := (· = e)) rfl).mono fun _ s' h => ?_
    rw [show s'.2 = e from h.2]
    exact .refl

end Handle

end SqlAccess
