import SqlAccess.Proofs.Preserved.Backend

/-!
# The calls of the backends

What the operations on prepared statements call. They need no more of `P` than that it allows
quiet calls (`AllowsQuiet`), to prepare statements on the connection (`AllowsPrepare`) and to run
the statement that they are about (`AllowsRun`). That the calls since some time were all of a kind
is preserved (`Makes.of_preserves`), so nothing about the backends is shown here again.
-/

namespace SqlAccess

section Makes

variable {m : Type → Type} {σ α : Type} [Monad m] [Stateful m σ] [HasEngine σ]
variable {P : History → Event → Prop} {e : Engine} {call : Call} {c : Option Nat} {k : Nat}

theorem Makes.of_preserves {x : m α} (hx : ∀ e, Preserves (Calls P e) x) : Makes P x :=
  fun s => hx (engine s) s .refl

/-- Statements may be asked for anything but to run. -/
def AllowsQuiet (P : History → Event → Prop) : Prop :=
  ∀ call : Call, call.statement?.isSome → call.runs? = none → Allows P call

/-- A statement may be run. -/
def AllowsRun (P : History → Event → Prop) (k : Nat) : Prop :=
  ∀ call : Call, call.runs? = some k → Allows P call

/-- Statements may be prepared on a connection. -/
def AllowsPrepare (P : History → Event → Prop) (c : Nat) : Prop :=
  ∀ call : Call, call.prepares c → Allows P call

theorem Allows.admits (h : Allows P call) : Admits (Calls P e) call := by
  intro e₁ e₂ h₁ ht
  obtain ⟨o, hh, ho⟩ := ht.history
  exact h₁.trans ⟨hh ▸ .one (h _ _), .of_call ht.connections (Nat.le_of_eq ht.next.symm) hh ho⟩

theorem AllowsQuiet.admits (h : AllowsQuiet P) : AdmitsQuiet (Calls P e) k :=
  fun call hs hr _ => (h call (hs ▸ rfl) hr).admits

theorem AllowsQuiet.admitsNew (h : AllowsQuiet P) : AdmitsNew (Calls P e) :=
  fun _ call _ hs hr _ => (h call (hs ▸ rfl) hr).admits

theorem AllowsRun.admits (h : AllowsRun P k) : AdmitsRun (Calls P e) k :=
  fun call hr => (h call hr).admits

theorem AllowsPrepare.admits {c : Nat} (h : AllowsPrepare P c) : AdmitsPrepare (Calls P e) c :=
  fun call hp => ⟨(h call hp).admits, fun _ _ h₁ ha => h₁.trans ⟨ha.history ▸ .one (h call hp _ _),
    .of_created ha.connections ha.next ha.history (Call.connection?_of_prepares hp)⟩⟩

theorem allowsQuiet_quiet : AllowsQuiet Quiet := fun _ hs hr _ _ => ⟨hs, hr⟩

theorem allowsQuiet_work {past : History} : AllowsQuiet (Since past (Work c)) :=
  fun _ hs hr _ _ _ => Quiet.work ⟨hs, hr⟩

theorem allowsQuiet_making : AllowsQuiet (Making c) := fun _ hs hr _ _ => ⟨.inr hs, hr⟩

theorem allowsPrepare_making {n : Nat} (hn : c = some n) : AllowsPrepare (Making c) n := by
  refine fun call hp _ _ => ⟨.inl ⟨n, hn, hp⟩, ?_⟩
  cases call <;> simp_all [Call.prepares, Call.runs?]

end Makes

variable {P : History → Event → Prop} {c : Option Nat} {k : Nat}

/-! ## Calls on connections -/

namespace Engine

theorem viewConnection_after {c : Nat} (e : Engine) : After (viewConnection c) e fun s e' =>
    s = (e.connections.find? c).getD {} ∧ e.Viewed e' := ⟨rfl, rfl, rfl, rfl⟩

theorem viewStatement_after (e : Engine) : After (viewStatement k) e fun _ e' => e.Viewed e' :=
  ⟨rfl, rfl, rfl⟩

theorem makes_performSurely {call : Call} (h : Allows P call) : Makes P (performSurely call) :=
  .of_preserves fun _ => preserves_taking h.admits fun _ => performSurely_takes

theorem makes_onConnection {n : Nat} {call : Call} (h : Allows P call) :
    Makes P (onConnection n call) :=
  .of_preserves fun _ => preserves_taking h.admits fun _ => onConnection_takes

theorem makes_closeFile {n : Nat} (h : Allows P (.close n)) : Makes P (closeFile n) :=
  .of_preserves fun _ => preserves_taking h.admits fun _ => closeFile_takes

theorem makes_closeConnection {n : Nat} (h : Allows P (.close n)) :
    Makes P (closeConnection n) :=
  .of_preserves fun _ => preserves_taking h.admits fun _ => closeConnection_takes

end Engine

theorem Maria.makes_checkConnection {n : Nat} {ok : Bool} {action : Bytes} :
    Makes P (checkConnection n ok action).run := .of_preserves fun _ => preserves_checkConnection

theorem Maria.makes_exec {n : Nat} {d : Directive} (hd : Allows P (.query n d))
    (hs : Allows P (.store n)) : Makes P (exec n d).run :=
  .of_preserves fun _ => preserves_exec hd.admits hs.admits

theorem makes_try_onEngine {α : Type} {x : EngineM α} (hx : Makes P x) :
    Makes P (liftM x : EngineTry α).run := makes_try_lift hx

theorem Backend.makes_disconnect {b : Backend} (h : ∀ n, c = some n → Allows P (.close n)) :
    Makes P (b.disconnect c).run :=
  .of_preserves fun _ => preserves_disconnect fun n hn => (h n hn).admits

/-! ## Calls on statements -/

theorem Backend.makes_freeRows {b : Backend} {rows : List (List Cell)} :
    Makes P (b.freeRows rows) := .of_preserves fun _ => preserves_freeRows

theorem Backend.makes_finalize {b : Backend} {h : Handle} (hq : AllowsQuiet P) :
    Makes P (b.finalize h).run := .of_preserves fun _ => preserves_finalize fun _ _ =>
      hq.admits.release

namespace Handle

/-- A handle still belongs to its statement, and only calls that satisfy `P` were made. -/
def Serves (P : History → Event → Prop) (s s' : Handle × Engine) : Prop :=
  s'.1.number? = s.1.number? ∧ Calls P s.2 s'.2

variable {h : Handle} {e : Engine}

theorem beginRows_serves (hq : AllowsQuiet P) (hr : ∀ k, h.number? = some k → AllowsRun P k) :
    After beginRows.run (h, e) fun _ s' => Serves P (h, e) s' :=
  (beginRows_preserves (fun _ _ => hq.admits.start)
    (fun k hk _ => (hr k hk).admits _ rfl) .refl).mono
    fun _ _ h => h.imp_left number?_of_fixed

theorem bind_serves {type : ValueType} {slot : Nat} {v : Value} (hq : AllowsQuiet P) :
    After (bind type slot v).run (h, e) fun _ s' => Serves P (h, e) s' :=
  (bind_preserves (fun _ _ => hq.admits) .refl).mono fun _ _ h => h.imp_left number?_of_fixed

theorem endRows_serves (hq : AllowsQuiet P) :
    After (endRows h) e fun h' e' => Serves P (h, e) (h', e') :=
  (endRows_preserves (fun _ _ => hq.admits.release) .refl).mono
    fun _ _ h => h.imp_left number?_of_fixed

theorem makes_execute {c : Option Nat} (hq : AllowsQuiet P)
    (hr : ∀ k, h.number? = some k → AllowsRun P k) : Makes P (h.execute c).run :=
  .of_preserves fun _ => preserves_execute (fun _ _ => hq.admits) fun k hk => (hr k hk).admits

theorem makes_fetchRow {c : Option Nat} (hq : AllowsQuiet P)
    (hr : ∀ k, h.number? = some k → AllowsRun P k) : Makes P (h.fetchRow c).run :=
  .of_preserves fun _ => preserves_fetchRow (fun _ _ => hq.admits) fun k hk =>
    (hr k hk).admits _ rfl

theorem makes_columnNames : Makes P h.columnNames := .of_preserves fun _ => preserves_columnNames

end Handle

/-! ## Where statements are made -/

/-- A prepared statement was made on a connection. -/
def Handle.MadeOn (c : Option Nat) (past : History) (h : Handle) : Prop :=
  ∀ k, h.number? = some k → ∃ n, c = some n ∧ made n past k

theorem Handle.MadeOn.of_suffix {past past' : History} {h : Handle} (hm : h.MadeOn c past)
    (hs : past <:+ past') : h.MadeOn c past' := fun k hk => by
  obtain ⟨n, hn, hmk⟩ := hm k hk
  exact ⟨n, hn, made_of_suffix hs hmk⟩

theorem Handle.MadeOn.allowsRun {past : History} {h : Handle} (hm : h.MadeOn c past) {k : Nat}
    (hk : h.number? = some k) : AllowsRun (Since past (Work c)) k := by
  obtain ⟨n, rfl, hmk⟩ := hm k hk
  refine fun call hr _ _ hs => ⟨.inr ?_, fun k' hk' => ?_⟩
  · cases call <;> simp_all [Call.runs?, Call.statement?]
  · obtain rfl : k = k' := by rw [hr] at hk'; exact Option.some.inj hk'
    exact ⟨n, rfl, made_of_suffix hs hmk⟩

theorem Handle.MadeOn.of_number {past : History} {h h' : Handle} (hm : h.MadeOn c past)
    (hn : h'.number? = h.number?) : h'.MadeOn c past := fun k hk => hm k (hn ▸ hk)

theorem Engine.Adds.made {n : Nat} {call : Call} {e e' : Engine} (h : e.Adds call e')
    (hp : call.prepares n) : SqlAccess.made n e'.history e.statements.next := by
  rw [h.history, SqlAccess.made, List.any_cons, hp]
  simp

theorem Sqlite.prepare_made {sql : Bytes} (e : Engine) :
    After (prepare c sql).run e fun r e' =>
      ∀ k, r = .ok (some k) → ∃ n, c = some n ∧ made n e'.history k := by
  have refused {code : Int32} {e₁ : Engine} :
      After (do check c code "SQL error when preparing query"; return none :
        EngineTry (Option Nat)).run e₁ fun r e' =>
          ∀ k, r = .ok (some k) → ∃ n, c = some n ∧ made n e'.history k := by
    refine After.try_seq (P := fun _ _ => True) trivial (fun _ _ _ => ?_) fun _ _ _ => ?_
    · refine After.try_pure_iff.2 ?_
      rintro k ⟨⟩
    · rintro k ⟨⟩
  unfold prepare
  cases c with
  | none => exact After.try_bind_iff.2 (After.try_pure_iff.2 refused)
  | some n =>
    refine After.try_bind_iff.2 <| After.try_lift_iff.2 <|
      (Engine.prepare_prepares (e := e)).mono fun (code, k) e₁ h => ?_
    dsimp only
    split
    · cases k with
      | none =>
        refine After.try_bind_iff.2 (After.throw_iff.2 ?_)
        rintro k ⟨⟩
      | some k =>
        refine After.try_pure_iff.2 ?_
        rintro k ⟨⟩
        obtain ⟨rfl, h⟩ := h
        exact ⟨n, rfl, h.made (by simp [Call.prepares])⟩
    · exact refused

theorem Maria.prepare_made {sql : Bytes} (e : Engine) :
    After (prepare c sql).run e fun r e' =>
      ∀ s, r = .ok s → ∃ n, c = some n ∧ made n e'.history s.number := by
  unfold prepare
  cases c with
  | none =>
    refine After.throw_iff.2 ?_
    rintro s ⟨⟩
  | some n =>
    refine After.try_bind_iff.2 <| After.try_lift_iff.2 <|
      (Engine.newStatement_prepares (e := e)).mono fun k e₁ h => ?_
    cases k with
    | none =>
      refine After.try_seq (P := fun _ _ => True) trivial (fun _ _ _ => After.throw_iff.2 ?_)
        fun _ _ _ => ?_ <;> rintro s ⟨⟩
    | some k =>
      obtain ⟨rfl, h⟩ := h
      refine After.try_bind_iff.2 <| After.try_lift_iff.2 <|
        (Engine.prepareText_takes (e := e₁)).mono fun ok e₂ h₂ => ?_
      obtain ⟨_, hh, -⟩ := h₂.history
      have hk : made n e₂.history e.statements.next :=
        made_of_suffix (hh ▸ List.suffix_cons _ _) (h.made (by simp [Call.prepares]))
      cases ok with
      | true =>
        refine After.try_call (Engine.viewStatement_after e₂) fun _ e₃ h₃ => After.try_pure_iff.2 ?_
        rintro s ⟨⟩
        exact ⟨n, rfl, h₃.history ▸ hk⟩
      | false =>
        refine After.try_seq (P := fun _ _ => True) trivial (fun _ _ _ =>
          After.try_seq (P := fun _ _ => True) trivial (fun _ _ _ => After.throw_iff.2 ?_)
            fun _ _ _ => ?_) fun _ _ _ => ?_ <;> rintro s ⟨⟩

/-- What is prepared on a connection was made on it. -/
theorem Backend.prepare_after {b : Backend} {sql : Bytes} (e : Engine) :
    After (b.prepare c sql).run e fun r e' =>
      Calls (Making c) e e' ∧ ∀ h, r = .ok h → h.MadeOn c e'.history := by
  have calls : After (b.prepare c sql).run e fun _ e' => Calls (Making c) e e' :=
    (prepare_preserves (fun _ hn => (allowsPrepare_making hn).admits)
      allowsQuiet_making.admitsNew .refl).mono fun _ _ h => h.1
  refine calls.and ?_
  cases b with
  | sqlite | strict =>
    refine After.try_seq (Sqlite.prepare_made e) (fun k e' h => After.try_pure_iff.2 ?_)
      fun _ _ _ => ?_
    · rintro _ ⟨⟩ n rfl
      exact h n rfl
    · rintro h ⟨⟩
  | maria =>
    refine After.try_seq (Maria.prepare_made e) (fun s e' h => After.try_pure_iff.2 ?_)
      fun _ _ _ => ?_
    · rintro _ ⟨⟩ n ⟨⟩
      exact h s rfl
    · rintro h ⟨⟩

end SqlAccess
