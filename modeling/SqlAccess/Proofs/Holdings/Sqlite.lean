import SqlAccess.Proofs.Holdings.Handle

/-!
# What the operations on SQLite do to what is held

A statement is set up while it rests, stepped as long as its rows have not ended, and rests again
once it was reset. A connection is held from the call that opens it to the one that closes it,
even if either fails.
-/

namespace SqlAccess.Sqlite

open Engine

variable {b : Backend} {c : Option Nat} {k n : Nat} {st : Stage} {x : Multiset Asset} {e : Engine}

/-! ## Actions that change nothing -/

section Looking

variable {code : Int32} {action : Bytes} (hc : e.Has c)
include hc

theorem failureText_same : After (failureText c code) e fun _ e' => e' = e := by
  unfold failureText
  cases c with
  | none => exact After.pure_iff.2 rfl
  | some c => exact After.seq (viewConnection_same hc) fun _ _ h => After.pure_iff.2 h

theorem fault?_same : After (fault? c code action) e fun _ e' => e' = e :=
  After.seq (failureText_same hc) fun _ _ h => After.pure_iff.2 h

theorem check_same : After (check c code action).run e fun _ e' => e' = e := by
  unfold check
  split
  · refine After.try_call (fault?_same hc) fun f _ h => ?_
    cases f with
    | none => exact After.try_pure_iff.2 h
    | some f => exact After.throw_iff.2 h
  · exact After.try_pure_iff.2 rfl

end Looking

/-! ## Statements -/

theorem reset_carries (hst : st.ofSqlite) (h : e.Carries (.statement k n st ::ₘ x)) :
    After (Engine.reset k) e fun _ e' => e'.Carries (.statement k n .ready ::ₘ x) :=
  (reset_asks.statement h rfl rfl hst).mono fun _ _ ⟨_, _, h'⟩ => h'

/-- Stepping on ends at some stage, from which the statement can be reset. -/
theorem runToEnd_carries (hst : st = .ready ∨ st = .onRow)
    (h : e.Carries (.statement k n st ::ₘ x)) (fuel : Nat) :
    After (runToEnd k fuel) e fun _ e' =>
      ∃ st', st'.ofSqlite ∧ e'.Carries (.statement k n st' ::ₘ x) := by
  induction fuel generalizing e st with
  | zero => exact After.pure_iff.2 ⟨st, by rcases hst with rfl | rfl <;> rfl, h⟩
  | succ fuel ih =>
    have ha : st.allows (.step k) := by rcases hst with rfl | rfl <;> rfl
    refine After.seq (step_asks.statement h rfl rfl ha) fun r e₁ ⟨o, ho, h₁⟩ => ?_
    cases r with
    | row _ =>
      subst ho
      exact ih (.inr rfl) h₁
    | finished | failed _ =>
      refine After.pure_iff.2 ⟨_, ?_, h₁⟩
      cases o <;> rfl

variable {k : Option Nat}

/-- A statement that is gone back in front of its rows rests. -/
theorem rewind_backed {p : Phase} (h : Backed (Handle.Stands b c p) x (.sqlite k, e)) :
    After (rewind k) e fun _ e' => Backed (Handle.Stands b c .resting) x (.sqlite k, e') := by
  obtain ⟨own, hs, he⟩ := h
  unfold rewind
  cases hs with
  | missing hb => exact After.pure_iff.2 ⟨0, .missing hb, he⟩
  | sqlite hb hc hst _ =>
    exact (reset_carries hst he).mono fun _ _ he' => ⟨_, .sqlite hb hc rfl rfl, he'⟩

theorem execute_backed (hx : Connected c x)
    (h : Backed (Handle.Stands b c .resting) x (.sqlite k, e)) :
    After (execute c k).run e fun _ e' =>
      Backed (Handle.Stands b c .resting) x (.sqlite k, e') := by
  obtain ⟨own, hs, he⟩ := h
  unfold execute
  cases hs with
  | missing hb =>
    refine After.try_keep (After.of_same (check_same ((hx.add 0).has he)) fun _ => ?_)
      fun _ _ h => After.try_pure_iff.2 h
    exact ⟨0, .missing hb, he⟩
  | @sqlite k n st hb hc hst hp =>
    subst hc
    have rests {e₁ : Engine} (h₁ : e₁.Carries (.statement k n .ready ::ₘ x)) :
        Backed (Handle.Stands b (some n) .resting) x (.sqlite (some k), e₁) :=
      ⟨_, .sqlite hb rfl rfl rfl, h₁⟩
    refine After.try_call (still_statement.carries he) fun s e₁ h₁ => ?_
    refine After.try_call (runToEnd_carries (.inl (Stage.eq_ready hst hp)) h₁ _)
      fun r e₂ ⟨st₂, hst₂, h₂⟩ => ?_
    have hhas : e₂.Has (some n) := hx.cons.has h₂
    cases r with
    | failed code =>
      refine After.try_call (fault?_same hhas) ?_
      rintro f _ rfl
      refine After.try_call (reset_carries hst₂ h₂) fun _ e₃ h₃ => ?_
      cases f with
      | none => exact After.try_pure_iff.2 (rests h₃)
      | some f => exact After.throw_iff.2 (rests h₃)
    | row _ | finished =>
      refine After.try_call (viewConnection_same hhas) ?_
      rintro _ _ rfl
      exact After.try_bind_iff.2 <| After.try_pure_iff.2 <|
        After.try_call (reset_carries hst₂ h₂) fun _ _ h₃ => After.try_pure_iff.2 (rests h₃)

/-- The copies of a row are all there, or none of them. -/
theorem copyRow_carries {copied : List Cell} {values : List (Option Cell)}
    (h : e.Carries (Multiset.replicate copied.length .cell + x)) :
    After (copyRow copied values).run e fun r e' => match r with
      | .ok row => e'.Carries (Multiset.replicate row.length .cell + x)
      | .error _ => e'.Carries x := by
  induction values generalizing copied e with
  | nil => exact After.try_pure_iff.2 h
  | cons value rest ih =>
    refine After.try_call (copyValue_carries h) fun r e₁ h₁ => ?_
    cases r with
    | some cell =>
      refine ih (h₁.of_eq ?_)
      rw [List.length_append, List.length_singleton, Multiset.replicate_succ, Multiset.cons_add]
    | none =>
      exact After.try_call (freeCells_carries h₁) fun _ _ h₂ => After.throw_iff.2 h₂

/-- A statement is stepped as long as its rows have not ended. -/
theorem fetchRow_backed (hx : Connected c x)
    (h : Backed (Handle.Stands b c (.reading false)) x (.sqlite k, e)) :
    After (fetchRow c k).run e fun r e' => match r with
      | .ok (some row) => Backed (Handle.Stands b c (.reading false))
          (Multiset.replicate (b.copies [row]) .cell + x) (.sqlite k, e')
      | _ => Backed (Handle.Stands b c (.reading true)) x (.sqlite k, e') := by
  -- a code other than zero leaves no row, whether or not it counts as a failure
  have refused {code : Int32} {e₁ : Engine} (hhas : e₁.Has c)
      (h₁ : Backed (Handle.Stands b c (.reading true)) x (.sqlite k, e₁)) :
      After (do check c code "Row fetch failed"; return none :
        EngineTry (Option (List Cell))).run e₁ fun r e' => match r with
          | .ok (some row) => Backed (Handle.Stands b c (.reading false))
              (Multiset.replicate (b.copies [row]) .cell + x) (.sqlite k, e')
          | _ => Backed (Handle.Stands b c (.reading true)) x (.sqlite k, e') :=
    After.try_seq
      (P := fun _ e' => Backed (Handle.Stands b c (.reading true)) x (.sqlite k, e'))
      (After.of_same (check_same hhas) fun _ => h₁) (fun _ _ h₂ => After.try_pure_iff.2 h₂)
      fun _ _ h₂ => h₂
  obtain ⟨own, hs, he⟩ := h
  unfold fetchRow
  cases hs with
  | missing hb =>
    exact After.try_bind_iff.2 <| After.try_pure_iff.2 <|
      refused ((hx.add 0).has he) ⟨0, .missing hb, he⟩
  | @sqlite k n st hb hc hst hp =>
    have ha : st.allows (.step k) := by
      cases st <;> simp_all [Phase.allows, Stage.allows, Stage.ofSqlite]
    have stands {p : Phase} {st₁ : Stage} {e₁ : Engine} (hst₁ : st₁.ofSqlite) (hp₁ : p.allows st₁)
        (h₁ : e₁.Carries (.statement k n st₁ ::ₘ x)) :
        Backed (Handle.Stands b c p) x (.sqlite (some k), e₁) := ⟨_, .sqlite hb hc hst₁ hp₁, h₁⟩
    refine After.try_call (step_asks.statement he rfl rfl ha) ?_
    rintro r e₁ ⟨o, ho, h₁⟩
    cases r with
    | finished =>
      rw [Stage.after_step ho.1] at h₁
      exact After.try_pure_iff.2 (stands rfl rfl h₁)
    | failed code =>
      rw [Stage.after_step ho.1] at h₁
      exact refused (hx.cons.has h₁) (stands rfl rfl h₁)
    | row values =>
      subst ho
      refine After.try_seq (copyRow_carries (h₁.of_eq (zero_add _).symm))
        (fun row e₂ h₂ => After.try_pure_iff.2 ?_) fun _ _ h₂ => stands rfl rfl h₂
      have hs : Handle.Stands b c (.reading false) (.sqlite (some k)) {.statement k n .onRow} :=
        .sqlite hb hc rfl rfl
      refine ⟨_, hs, ?_⟩
      rw [b.copies_singleton hb, add_left_comm]
      exact h₂

/-- A slot is set while the statement rests. -/
theorem bind_backed {type : ValueType} {slot : Nat} {v : Value} (hx : Connected c x)
    (h : Backed (Handle.Stands b c .resting) x (.sqlite k, e)) :
    After (bind k type slot v).run e fun _ e' =>
      Backed (Handle.Stands b c .resting) x (.sqlite k, e') := by
  obtain ⟨own, hs, he⟩ := h
  unfold bind
  refine After.try_bind_iff.2 <| After.mk_iff.2 <| After.pure_iff.2 ?_
  cases v.checkFits type with
  | error f => exact ⟨own, hs, he⟩
  | ok _ =>
    cases hs with
    | missing hb => exact After.of_same (check_same nofun) fun _ => ⟨0, .missing hb, he⟩
    | @sqlite k n st hb hc hst hp =>
      obtain rfl := Stage.eq_ready hst hp
      refine After.try_call (bind_asks.statement he rfl rfl rfl) fun code e₁ ⟨_, _, h₁⟩ => ?_
      have rests : Backed (Handle.Stands b c .resting) x (.sqlite (some k), e₁) :=
        ⟨_, .sqlite hb hc rfl rfl, h₁⟩
      split
      · refine After.try_call (viewStatement_same h₁) ?_
        rintro s _ ⟨hs, rfl⟩
        rw [hs, ← hc]
        exact After.of_same (check_same (hx.cons.has h₁)) fun _ => rests
      · exact After.try_pure_iff.2 rests

/-- Whatever came of a statement, it is no more held once it is given up. -/
theorem finalize_carries {k : Nat} (hst : st.ofSqlite) (h : e.Carries (.statement k n st ::ₘ x)) :
    After (finalize k).run e fun _ e' => e'.Carries x :=
  After.try_call (Engine.finalize_carries h hst) fun _ _ h' => After.try_pure_iff.2 h'

theorem finalizeStrictly_carries {k : Nat} (hst : st.ofSqlite) (hx : Connected (some n) x)
    (h : e.Carries (.statement k n st ::ₘ x)) :
    After (finalizeStrictly k).run e fun _ e' => e'.Carries x := by
  unfold finalizeStrictly
  refine After.try_call (viewStatement_same h) ?_
  rintro s _ ⟨hs, rfl⟩
  refine After.try_call (Engine.finalize_carries h hst) fun code e₁ h₁ => ?_
  split
  · rw [hs]
    exact After.try_call (failureText_same (hx.has h₁)) fun _ _ he => After.throw_iff.2 (he ▸ h₁)
  · exact After.try_pure_iff.2 h₁

/-- A statement that was prepared rests. -/
theorem prepare_backed {sql : Bytes} (hb : b ≠ .maria) (hc : Connected c x) (h : e.Carries x) :
    After (prepare c sql).run e fun r e' => match r with
      | .ok k => Backed (Handle.Stands b c .resting) x (.sqlite k, e')
      | .error _ => e'.Carries x := by
  -- a code other than zero leaves no statement, whether or not it counts as a failure
  have refused {code : Int32} {e₁ : Engine} (h₁ : e₁.Carries x) :
      After (do check c code "SQL error when preparing query"; return none :
        EngineTry (Option Nat)).run e₁ fun r e' => match r with
          | .ok k => Backed (Handle.Stands b c .resting) x (.sqlite k, e')
          | .error _ => e'.Carries x := by
    refine After.try_seq (P := fun _ e' => e'.Carries x)
      (After.of_same (check_same (hc.has h₁)) fun _ => h₁)
      (fun _ e₂ h₂ => After.try_pure_iff.2 ?_) fun _ _ h₂ => h₂
    exact ⟨0, .missing hb, by rwa [zero_add]⟩
  unfold prepare
  cases c with
  | none =>
    exact After.try_bind_iff.2 <| After.try_pure_iff.2 <| refused h
  | some c =>
    refine After.try_call (Engine.prepare_carries h (hc c rfl)) fun (code, k) e₁ h₁ => ?_
    cases k with
    | none =>
      dsimp only
      split
      · exact After.try_bind_iff.2 (After.throw_iff.2 h₁)
      · exact refused h₁
    | some k =>
      obtain ⟨rfl, h₁⟩ := h₁
      exact After.try_pure_iff.2 ⟨_, .sqlite hb rfl rfl rfl, h₁⟩

/-! ## Connections -/

theorem control_carries {d : Directive} (hc : Connected c x) (h : e.Carries x) :
    After (control c d).run e fun _ e' => e'.Carries x := by
  unfold control
  cases c with
  | none => exact After.of_same (check_same nofun) fun _ => h
  | some c =>
    refine After.try_call (exec_asks.connection h rfl (fun o => by cases o <;> rfl) rfl (hc c rfl))
      fun (code, message) e₁ ⟨_, h₁⟩ => ?_
    dsimp only
    split
    · refine After.try_call (failureText_same (hc.has h₁)) ?_
      rintro text _ rfl
      cases kindOf? code with
      | none => exact After.try_pure_iff.2 h₁
      | some kind => exact After.throw_iff.2 h₁
    · exact After.try_pure_iff.2 h₁

/-- A connection is there if opening it succeeded with one. -/
theorem connect_carries {path : Bytes} {readOnly : Bool} {busyTimeout : Int32} (h : e.Carries x)
    (hx : Grounded x) : After (connect path readOnly busyTimeout).run e fun r e' => match r with
      | .ok c => e'.Carries (Asset.ofConnection c + x)
      | .error _ => e'.Carries x := by
  have nothing {e₁ : Engine} (h₁ : e₁.Carries x) : e₁.Carries (Asset.ofConnection none + x) := by
    rwa [Asset.ofConnection_none, zero_add]
  have configured {call : Call} {e₁ : Engine} {n : Nat} (h₁ : e₁.Carries (.connection n ::ₘ x))
      (hc : call.connection? = some n) (hm : ∀ o, (⟨call, o⟩ : Event).makes? = none)
      (hcl : call.closes? = none) :
      After (performSurely call) e₁ fun _ e' => e'.Carries (.connection n ::ₘ x) :=
    (performSurely_asks.connection h₁ hc hm hcl (Multiset.mem_cons_self _ _)).mono fun _ _ h => h.2
  unfold connect
  refine After.try_call (openFile_carries h) ?_
  rintro ⟨code, c⟩ e₁ h₁
  dsimp only at h₁ ⊢
  split
  · cases c with
    | none => exact After.try_pure_iff.2 (nothing h₁)
    | some n =>
      refine After.try_call (configured h₁ rfl (fun o => by cases o <;> rfl) rfl) fun _ e₂ h₂ => ?_
      split
      · exact After.try_call (configured h₂ rfl (fun o => by cases o <;> rfl) rfl) fun _ _ h₃ =>
          After.try_pure_iff.2 h₃
      · exact After.try_pure_iff.2 h₂
  · -- a fault of no kind leaves no connection either
    cases c with
    | none =>
      refine After.try_call (fault?_same fun _ hc => by cases hc) ?_
      rintro f _ rfl
      exact After.try_fault (fun _ => nothing h₁) fun _ _ => h₁
    | some n =>
      refine After.try_call (fault?_same (connected_ofConnection.has h₁)) ?_
      rintro f _ rfl
      exact After.try_call (closeFile_carries h₁ hx) fun _ _ h₂ =>
        After.try_fault (fun _ => nothing h₂.1) fun _ _ => h₂.1

theorem disconnect_carries (h : e.Carries (Asset.ofConnection c + x)) (hx : Grounded x) :
    After (disconnect c).run e fun _ e' => e'.Carries x := by
  unfold disconnect
  cases c with
  | none =>
    rw [Asset.ofConnection_none, zero_add] at h
    exact After.try_pure_iff.2 h
  | some n =>
    refine After.try_call (closeFile_carries h hx) fun code e₁ ⟨h₁, hhas⟩ => ?_
    unfold check
    split
    · next hcode =>
      refine After.try_call (fault?_same (hhas hcode)) ?_
      rintro f _ rfl
      cases f with
      | none => exact After.try_pure_iff.2 h₁
      | some f => exact After.throw_iff.2 h₁
    · exact After.try_pure_iff.2 h₁

end SqlAccess.Sqlite
