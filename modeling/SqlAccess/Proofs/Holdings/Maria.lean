import SqlAccess.Proofs.Holdings.Handle

/-!
# What the operations on MariaDB do to what is held

A statement that is run for rows has its result stored until they end. Where naming the buffers
fails the result stays stored, and the statement rests all the same: running it again for the number
of rows changed stores another result over it, and frees that one alone. Running it for rows frees
what is stored first.
-/

namespace SqlAccess.Maria

open Engine

variable {b : Backend} {c : Option Nat} {k n : Nat} {st : Stage} {x : Multiset Asset} {e : Engine}

/-! ## Actions that change nothing -/

theorem statementFault_same {action : Bytes} (h : e.Carries (.statement k n st ::ₘ x)) :
    After (statementFault k action) e fun _ e' => e' = e :=
  After.seq (viewStatement_same h) fun _ _ h => After.pure_iff.2 h.2

theorem connectionFault_same {c : Nat} {action : Bytes} (hc : e.Has (some c)) :
    After (connectionFault c action) e fun _ e' => e' = e :=
  After.seq (viewConnection_same hc) fun _ _ h => After.pure_iff.2 h

theorem checkConnection_same {c : Nat} {ok : Bool} {action : Bytes} (hc : e.Has (some c)) :
    After (checkConnection c ok action).run e fun _ e' => e' = e := by
  unfold checkConnection
  cases ok with
  | true => exact After.try_pure_iff.2 rfl
  | false => exact After.try_call (connectionFault_same hc) fun _ _ h => After.throw_iff.2 h

/-! ## Statements -/

/-- A check fails if the call failed, and changes nothing. -/
theorem checkStatement_carries {ok : Bool} {action : Bytes}
    (h : e.Carries (.statement k n st ::ₘ x)) :
    After (checkStatement k ok action).run e fun r e' =>
      e'.Carries (.statement k n st ::ₘ x) ∧ match r with
        | .ok _ => ok = true
        | .error _ => ok = false := by
  unfold checkStatement
  cases ok with
  | true => exact After.try_pure_iff.2 ⟨h, rfl⟩
  | false =>
    exact After.try_call (statementFault_same h) fun _ _ he => After.throw_iff.2 ⟨he ▸ h, rfl⟩

/-- Handing over the parameters and running leave the statement where it is. -/
theorem bindAndExecute_carries {s : Client} (hst : st.isIdle)
    (h : e.Carries (.statement s.number n st ::ₘ x)) :
    After (bindAndExecute s).run e fun _ e' => e'.Carries (.statement s.number n st ::ₘ x) := by
  have executed {e₁ : Engine} {action : Bytes} (h₁ : e₁.Carries (.statement s.number n st ::ₘ x)) :
      After (do checkStatement s.number (← Engine.execute s.number s.parameters) action :
        EngineTry Unit).run e₁ fun _ e' => e'.Carries (.statement s.number n st ::ₘ x) := by
    refine After.try_call (execute_asks.statement h₁ rfl rfl hst) fun ok e₂ ⟨o, _, h₂⟩ => ?_
    rw [show st.after ⟨.execute s.number s.parameters, o⟩ = st by cases o <;> rfl] at h₂
    exact (checkStatement_carries h₂).mono fun _ _ h₃ => h₃.1
  unfold bindAndExecute
  split
  · refine After.try_call (bindParam_asks.statement h rfl rfl hst) fun ok e₁ ⟨o, _, h₁⟩ => ?_
    rw [show st.after ⟨.bindParam s.number, o⟩ = st by cases o <;> rfl] at h₁
    exact After.try_seq (checkStatement_carries h₁) (fun _ _ h₂ => executed h₂.1) fun _ _ h₂ => h₂.1
  · exact executed h

/-- What storing a result does to a statement that can be run. -/
theorem storeResult_carries (hst : st.isIdle) (h : e.Carries (.statement k n st ::ₘ x)) :
    After (storeResult k) e fun ok e' =>
      e'.Carries (.statement k n (if ok then st.store else st) ::ₘ x) := by
  refine (storeResult_asks.statement h rfl rfl hst).mono fun ok e₁ ⟨o, ho, h₁⟩ => ?_
  cases ok with
  | true =>
    obtain rfl : o = .done := ho
    exact h₁
  | false => cases o <;> first | exact h₁ | cases ho

theorem freeResult_carries (hst : st.isHeld || st == .drained)
    (h : e.Carries (.statement k n st ::ₘ x)) :
    After (freeResult k) e fun _ e' => e'.Carries (.statement k n st.free ::ₘ x) :=
  (freeResult_asks.statement h rfl rfl hst).mono fun _ _ ⟨o, _, h'⟩ => by cases o <;> exact h'

/-- A statement that is run to its end has its result freed, unless storing it failed. -/
theorem execute_backed {s : Client} (h : Backed (Handle.Stands b c .resting) x (.maria s, e)) :
    After (execute s).run e fun _ e' => Backed (Handle.Stands b c .resting) x (.maria s, e') := by
  obtain ⟨own, hs, he⟩ := h
  unfold execute
  cases hs with
  | @maria _ n st hb hc hst hp hr =>
    have hidle := Stage.isIdle_of_allows hst hp
    have rests {e₁ : Engine} (h₁ : e₁.Carries (.statement s.number n st ::ₘ x)) :
        Backed (Handle.Stands b c .resting) x (.maria s, e₁) := ⟨_, .maria hb hc hst hp hr, h₁⟩
    have freed {e₁ : Engine} (h₁ : e₁.Carries (.statement s.number n st.store.free ::ₘ x)) :
        Backed (Handle.Stands b c .resting) x (.maria s, e₁) := by
      obtain ⟨hp₁, hst₁, hr₁⟩ := Stage.store_free hidle
      exact ⟨_, .maria hb hc hst₁ hp₁ (hr.trans hr₁.symm), h₁⟩
    have changes {e₁ : Engine} {st₁ : Stage}
        (h₁ : e₁.Carries (.statement s.number n st₁ ::ₘ x))
        (hs : Backed (Handle.Stands b c .resting) x (.maria s, e₁)) :
        After (do return (← Engine.viewStatement s.number).script.changes : EngineTry Int64).run e₁
          fun _ e' => Backed (Handle.Stands b c .resting) x (.maria s, e') :=
      After.try_call (viewStatement_same h₁) fun _ _ h => After.try_pure_iff.2 (h.2 ▸ hs)
    refine After.try_seq (bindAndExecute_carries hidle he) (fun _ e₁ h₁ => ?_) fun _ _ => rests
    split
    · refine After.try_call (storeResult_carries hidle h₁) fun ok e₂ h₂ => ?_
      refine After.try_seq (checkStatement_carries h₂) ?_ ?_
      · rintro _ e₃ ⟨h₃, rfl⟩
        exact After.try_call (freeResult_carries (by simp [Stage.store_isHeld hidle]) h₃)
          fun _ _ h₄ => changes h₄ (freed h₄)
      · rintro _ e₃ ⟨h₃, rfl⟩
        exact rests h₃
    · exact changes h₁ (rests h₁)

/-- No result is held once rows are no more produced. -/
theorem endRows_backed {s : Client} {p : Phase} (h : Backed (Handle.Stands b c p) x (.maria s, e)) :
    After (endRows s) e fun s' e' =>
      Backed (Handle.Stands b c .resting) x (.maria s', e') ∧ s'.hasRows = false := by
  obtain ⟨own, hs, he⟩ := h
  unfold endRows
  cases hs with
  | @maria _ n st hb hc hst hp hr =>
    cases hrows : s.hasRows with
    | true =>
      obtain ⟨hheld, hfree⟩ := Stage.free_of_allows hst hp (hr.symm.trans hrows)
      exact After.seq (freeResult_carries hheld he) fun _ e₁ h₁ => After.pure_iff.2
        ⟨⟨_, .maria hb hc rfl rfl rfl, hfree ▸ h₁⟩, rfl⟩
    | false =>
      obtain rfl : st = .bare := by simpa [hrows] using hr
      exact After.pure_iff.2 ⟨⟨_, .maria hb hc rfl rfl hr, he⟩, hrows⟩

/-- Work on the buffers of a statement that leaves them to the statement. -/
theorem set_backed {s s' : Client} {p : Phase} (hn : s'.number = s.number)
    (hr : s'.hasRows = s.hasRows) (h : Backed (Handle.Stands b c p) x (.maria s, e)) :
    Backed (Handle.Stands b c p) x (.maria s', e) := by
  obtain ⟨own, hs, he⟩ := h
  cases hs with
  | maria hb hc hst hp hrows =>
    refine ⟨_, .maria hb hc hst hp (hr.trans hrows), ?_⟩
    rw [hn]
    exact he

/-- A statement that is run for rows has its result stored. If that does not succeed it rests,
though a result may be stored: then naming the buffers failed. -/
theorem beginRows_backed {s : Client} (h : Backed (Handle.Stands b c .resting) x (.maria s, e)) :
    After beginRows.run (s, e) fun r s' => match r with
      | .ok _ => Backed (Handle.Stands b c (.reading false)) x (.maria s'.1, s'.2)
      | .error _ => Backed (Handle.Stands b c .resting) x (.maria s'.1, s'.2) := by
  unfold beginRows
  refine After.try_bind_iff.2 <| After.try_get_iff.2 <| After.try_bind_iff.2 <|
    After.try_object_onEngine_iff.2 <| (endRows_backed h).mono fun s₁ e₁ ⟨h₁, hrows⟩ => ?_
  refine After.try_bind_iff.2 <| After.try_set_iff.2 <| After.try_bind_iff.2 <|
    After.try_get_iff.2 ?_
  obtain ⟨own, hs, he⟩ := h₁
  cases hs with
  | @maria _ n st hb hc hst hp hr =>
    obtain rfl : st = .bare := by simpa [hrows] using hr
    have rests {e₂ : Engine} (h₂ : e₂.Carries (.statement s₁.number n .bare ::ₘ x)) :
        Backed (Handle.Stands b c .resting) x (.maria s₁, e₂) := ⟨_, .maria hb hc rfl rfl hr, h₂⟩
    refine After.try_bind_iff.2 <| After.try_object_onTry_iff.2 <|
      (bindAndExecute_carries (s := s₁) rfl he).mono fun r e₂ h₂ => ?_
    cases r with
    | error f => exact rests h₂
    | ok _ =>
      dsimp only
      split
      · exact After.try_bind_iff.2 (After.throw_iff.2 (rests h₂))
      · refine After.try_bind_iff.2 <| After.try_object_onEngine_iff.2 <|
          (storeResult_carries rfl h₂).mono fun ok e₃ h₃ => ?_
        refine After.try_bind_iff.2 <| After.try_object_onTry_iff.2 <|
          (checkStatement_carries h₃).mono fun r e₄ ⟨h₄, hok⟩ => ?_
        cases r with
        | error f =>
          subst hok
          exact rests h₄
        | ok _ =>
          subst hok
          refine After.try_bind_iff.2 <| After.try_set_iff.2 <| After.try_bind_iff.2 <|
            After.try_object_onEngine_iff.2 <|
              (bindResult_asks.statement h₄ rfl rfl rfl).mono fun ok e₅ ⟨o, ho, h₅⟩ => ?_
          refine After.try_object_onTry_iff.2 <|
            (checkStatement_carries h₅).mono fun r e₆ ⟨h₆, hok⟩ => ?_
          cases r with
          | error f =>
            subst hok
            cases o with
            | failed _ _ => exact ⟨_, .maria hb hc rfl rfl rfl, h₆⟩
            | _ => cases ho
          | ok _ =>
            subst hok
            obtain rfl : o = .done := ho
            exact ⟨_, .maria hb hc rfl rfl rfl, h₆⟩

/-- Rows are fetched while the result is stored. -/
theorem fetchRow_backed {s : Client}
    (h : Backed (Handle.Stands b c (.reading false)) x (.maria s, e)) :
    After (fetchRow s).run e fun _ e' =>
      Backed (Handle.Stands b c (.reading false)) x (.maria s, e') := by
  obtain ⟨own, hs, he⟩ := h
  unfold fetchRow
  cases hs with
  | @maria _ n st hb hc hst hp hr =>
    have hstored : st = .stored := by cases st <;> simp_all [Phase.allows, Stage.ofSqlite]
    subst hstored
    have reads {e₁ : Engine} (h₁ : e₁.Carries (.statement s.number n .stored ::ₘ x)) :
        Backed (Handle.Stands b c (.reading false)) x (.maria s, e₁) :=
      ⟨_, .maria hb hc rfl rfl hr, h₁⟩
    split
    · exact After.try_pure_iff.2 (reads he)
    · refine After.try_call (fetch_asks.statement he rfl rfl rfl) ?_
      rintro r e₁ ⟨o, -, h₁⟩
      have h₁ : e₁.Carries (.statement s.number n .stored ::ₘ x) := by cases o <;> exact h₁
      cases r with
      | noRow => exact After.try_pure_iff.2 (reads h₁)
      | truncated => exact After.throw_iff.2 (reads h₁)
      | failed =>
        exact After.try_call (statementFault_same h₁) fun _ _ he =>
          After.throw_iff.2 (reads (he ▸ h₁))
      | row values => exact After.try_pure_iff.2 (reads h₁)

/-- A statement that was prepared rests; one whose text was refused is given up. -/
theorem prepare_backed {sql : Bytes} (hb : b = .maria) (hc : Connected c x) (h : e.Carries x) :
    After (prepare c sql).run e fun r e' => match r with
      | .ok s => Backed (Handle.Stands b c .resting) x (.maria s, e')
      | .error _ => e'.Carries x := by
  unfold prepare
  cases c with
  | none => exact After.throw_iff.2 h
  | some c =>
    refine After.try_call (newStatement_carries h (hc c rfl)) fun k e₁ h₁ => ?_
    cases k with
    | none =>
      exact After.try_call (connectionFault_same (hc.has h₁)) fun _ _ he =>
        After.throw_iff.2 (he ▸ h₁)
    | some k =>
      refine After.try_call (prepareText_asks.statement h₁ rfl rfl rfl) fun ok e₂ ⟨o, ho, h₂⟩ => ?_
      cases ok with
      | true =>
        obtain rfl : o = .done := ho
        exact After.try_call (viewStatement_same h₂) fun _ _ ⟨_, he⟩ =>
          After.try_pure_iff.2 ⟨_, .maria hb rfl rfl rfl rfl, he ▸ h₂⟩
      | false =>
        have h₂ : e₂.Carries (.statement k c .blank ::ₘ x) := by
          cases o <;> first | exact h₂ | cases ho
        exact After.try_call (statementFault_same h₂) fun f _ he =>
          After.try_call (closeStatement_carries (he ▸ h₂) rfl) fun _ _ h₃ => After.throw_iff.2 h₃

theorem finalize_carries {s : Client} (hst : st.ofSqlite = false)
    (h : e.Carries (.statement s.number n st ::ₘ x)) :
    After (finalize s).run e fun _ e' => e'.Carries x := by
  refine After.try_call (closeStatement_carries h hst) fun ok e₁ h₁ => ?_
  cases ok with
  | true => exact After.try_pure_iff.2 h₁
  | false => exact After.throw_iff.2 h₁

/-- A slot is set in the buffers alone. -/
theorem bind_backed {s : Client} {type : ValueType} {slot : Nat} {v : Value} {p : Phase}
    (h : Backed (Handle.Stands b c p) x (.maria s, e)) :
    After (bind type slot v).run (s, e) fun _ s' =>
      Backed (Handle.Stands b c p) x (.maria s'.1, s'.2) := by
  unfold bind
  refine After.try_bind_iff.2 <| After.mk_iff.2 <| After.pure_iff.2 ?_
  cases v.checkFits type with
  | error f => exact h
  | ok _ =>
    refine After.try_bind_iff.2 <| After.try_get_iff.2 ?_
    dsimp only
    split
    · exact After.try_set_iff.2 (set_backed (s := s) rfl rfl h)
    · exact After.throw_iff.2 h

/-! ## Connections -/

theorem checkConnection_carries {c : Nat} {ok : Bool} {action : Bytes}
    (hc : Connected (some c) x) (h : e.Carries x) :
    After (checkConnection c ok action).run e fun _ e' => e'.Carries x :=
  After.of_same (checkConnection_same (hc.has h)) fun _ => h

/-- A directive is run on a connection that is held. -/
theorem exec_carries {c : Nat} {d : Directive} (hc : Connected (some c) x) (h : e.Carries x) :
    After (exec c d).run e fun _ e' => e'.Carries x := by
  have hx := hc c rfl
  unfold exec
  refine After.try_call (query_asks.connection h rfl (fun o => by cases o <;> rfl) rfl hx)
    fun _ e₁ ⟨_, h₁⟩ => ?_
  refine After.try_keep (checkConnection_carries hc h₁) fun _ e₂ h₂ => ?_
  refine After.try_call (onConnection_asks.connection h₂ rfl (fun o => by cases o <;> rfl) rfl hx)
    fun _ e₃ ⟨_, h₃⟩ => ?_
  exact After.try_call (viewConnection_same (hc.has h₃)) fun _ _ he =>
    checkConnection_carries hc (he ▸ h₃)

theorem control_carries {d : Directive} (hc : Connected c x) (h : e.Carries x) :
    After (control c d).run e fun _ e' => e'.Carries x := by
  unfold control
  cases c with
  | none => exact After.throw_iff.2 h
  | some c => exact exec_carries hc h

theorem setUp_carries {c : Nat} {dsn : Dsn} {readOnly : Bool} {busyTimeout : Int32}
    (hc : Connected (some c) x) (h : e.Carries x) :
    After (setUp c dsn readOnly busyTimeout).run e fun _ e' => e'.Carries x := by
  have waiting {e₁ : Engine} (h₁ : e₁.Carries x) : After (do
      if 0 < busyTimeout then exec c (.lockWait ((busyTimeout + 999) / 1000).toInt) :
        EngineTry Unit).run e₁ fun _ e' => e'.Carries x := by
    split
    · exact exec_carries hc h₁
    · exact After.try_pure_iff.2 h₁
  have hx := hc c rfl
  unfold setUp
  refine After.try_call (onConnection_asks.connection h rfl (fun o => by cases o <;> rfl) rfl hx)
    fun _ e₁ ⟨_, h₁⟩ => After.try_keep (checkConnection_carries hc h₁) fun _ e₂ h₂ => ?_
  refine After.try_call (onConnection_asks.connection h₂ rfl (fun o => by cases o <;> rfl) rfl hx)
    fun _ e₃ ⟨_, h₃⟩ => After.try_keep (checkConnection_carries hc h₃) fun _ e₄ h₄ => ?_
  cases readOnly with
  | true => exact After.try_keep (exec_carries hc h₄) fun _ _ h₅ => waiting h₅
  | false => exact waiting h₄

/-- A connection is there if it could be set up. -/
theorem connect_carries {dsn : Bytes} {readOnly : Bool} {busyTimeout : Int32} (h : e.Carries x)
    (hx : Grounded x) : After (connect dsn readOnly busyTimeout).run e fun r e' => match r with
      | .ok c => e'.Carries (Asset.ofConnection c + x)
      | .error _ => e'.Carries x := by
  unfold connect
  refine After.try_call (init_carries h) fun c e₁ h₁ => ?_
  cases c with
  | none => exact After.throw_iff.2 h₁
  | some c =>
    refine After.try_call (setUp_carries connected_ofConnection h₁) fun r e₂ h₂ => ?_
    cases r with
    | ok _ => exact After.try_pure_iff.2 h₂
    | error f =>
      exact After.try_call (closeConnection_carries h₂ hx) fun _ _ h₃ => After.throw_iff.2 h₃

theorem disconnect_carries (h : e.Carries (Asset.ofConnection c + x)) (hx : Grounded x) :
    After (disconnect c).run e fun _ e' => e'.Carries x := by
  unfold disconnect
  cases c with
  | none =>
    rw [Asset.ofConnection_none, zero_add] at h
    exact After.try_pure_iff.2 h
  | some n => exact After.try_lift_iff.2 (closeConnection_carries h hx)

end SqlAccess.Maria
