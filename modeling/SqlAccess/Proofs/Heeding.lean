import SqlAccess.Proofs.Control
import SqlAccess.Proofs.Holdings.Handle

/-!
# Failures are heeded

A call that fails is to make the operation that made it fail. `Call.Counts` says which failures
that is about: those of SQLite whose code does not pass for success (`Sqlite.Passes`), and those of
MariaDB. An operation that makes no call but such as end well is `Calm`, and one that `Heeds` fails
if one of its calls did, with a fault that names the call (`Fault.Names`). An action that is put
together from actions that heed their calls does so too, as long as it hands on the failure of each.

What is called to give something up is left out of account where that is done on the way out of a
failure or behind the rows of a cursor; the calls that are taken into account are those of a set.
-/

namespace SqlAccess

/-! ## What counts as a failure -/

/-- A result code of SQLite passes for success: its low byte is zero. -/
def Sqlite.Passes (code : Int32) : Prop := code.toUInt32 &&& 0xFF = 0

theorem Sqlite.kindOf?_eq_none_iff {code : Int32} : kindOf? code = none ↔ Passes code := by
  unfold kindOf? Passes
  rw [← UInt32.toNat_inj]
  split <;> simp_all

namespace Call

/-- Whether a call is one of SQLite. Closing a connection is, since that of MariaDB cannot fail. -/
def ofSqlite : Call → Bool
  | openFile _ _ | exec _ _ | prepare _ _ | bind _ _ _ | step _ | close _ => true
  | _ => false

/-- A call that fails with a code has failed indeed. Some calls may fail as they like, and taking
the result of a directive may if there is none to take. -/
def Counts (past : History) (code : Int32) : Call → Prop
  | extendedCodes _ | busyTimeout _ _ | reset _ | finalize _ | freeResult _ => False
  | openFile _ _ | exec _ _ | prepare _ _ | bind _ _ _ | close _ => ¬ Sqlite.Passes code
  | step _ => code ≠ 100 ∧ code ≠ doneCode ∧ ¬ Sqlite.Passes code
  | store _ => ∃ c d columns earlier,
      past = ⟨.query c d, .answered (columns + 1)⟩ :: earlier
  | _ => True

/-- A call that gives nothing up, neither a connection nor a statement or its rows. -/
def GivesNothingUp (call : Call) : Prop := call.closes? = none ∧ call.releases? = none

theorem not_givesNothingUp {call : Call} {k : Nat} (h : call.releases? = some k) :
    ¬ call.GivesNothingUp := fun hc => by
  cases hc.2.symm.trans h

end Call

/-- A fault names a call that failed: it is no success, and tells the code of SQLite. -/
structure Fault.Names (f : Fault) (call : Call) (code : Int32) : Prop where
  failed : f.toError.isOk = false
  native : call.ofSqlite → f.toError.native = code

theorem Fault.toError_isOk (f : Fault) : f.toError.isOk = false := by
  have hkind : (f.kind.code == 0) = false := by cases f.kind <;> decide
  unfold toError
  split <;> exact hkind

section Heeded

variable {m : Type → Type} {σ α β : Type} [Monad m] [Stateful m σ] [HasEngine σ]
variable {W : Call → Prop} {past : History} {ev : Event} {s : σ} {I : Engine → Prop}

/-- A call is heeded in an answer: if it counts as failed, the answer is a fault that names it. -/
def Heeded (W : Call → Prop) (r : Except Fault α) (past : History) (ev : Event) : Prop :=
  W ev.call → ∀ code left, ev.outcome = .failed code left → ev.call.Counts past code →
    ∃ f, r = .error f ∧ f.Names ev.call code

/-- A call does not count as failed. -/
def Unfailed (W : Call → Prop) (past : History) (ev : Event) : Prop :=
  W ev.call → ∀ code left, ev.outcome = .failed code left → ¬ ev.call.Counts past code

/-- There is nothing to heed in a call that did not fail. -/
theorem Unfailed.heeded {r : Except Fault α} (h : Unfailed W past ev) : Heeded W r past ev :=
  fun hw code left ho hc => (h hw code left ho hc).elim

theorem Heeded.of_ok {a : α} {r : Except Fault β} (h : Heeded W (.ok a) past ev) :
    Heeded W r past ev :=
  Unfailed.heeded fun hw code left ho hc => by
    obtain ⟨f, hf, -⟩ := h hw code left ho hc
    cases hf

theorem Heeded.of_error {f : Fault} (h : Heeded W (.error f : Except Fault α) past ev) :
    Heeded W (.error f : Except Fault β) past ev := by
  intro hw code left ho hc
  obtain ⟨g, hg, hn⟩ := h hw code left ho hc
  cases hg
  exact ⟨f, rfl, hn⟩

/-- No call that an action makes counts as failed. -/
def Calm (W : Call → Prop) (x : m α) (s : σ) : Prop :=
  After x s fun _ s' => Grown (Unfailed W) (engine s).history (engine s').history

/-- An action heeds the calls that it makes in what it answers. -/
def Heeds (W : Call → Prop) (x : m (Except Fault α)) (s : σ) : Prop :=
  After x s fun r s' => Grown (Heeded W r) (engine s).history (engine s').history

theorem Calm.heeds {x : m (Except Fault α)} (h : Calm W x s) : Heeds W x s :=
  h.mono fun _ _ hg => hg.mono fun _ _ => Unfailed.heeded

theorem calm_of_same {x : m α} (h : After x s fun _ s' => engine s' = engine s) : Calm W x s :=
  h.mono fun _ _ he => by rw [he]; exact .refl

theorem calm_bind {x : m α} {f : α → m β} (hx : Calm W x s) (hf : ∀ a s', Calm W (f a) s') :
    Calm W (x >>= f) s :=
  After.seq hx fun a s' h => (hf a s').mono fun _ _ h' => h.trans h'

theorem heeds_pure (r : Except Fault α) : Heeds W (pure r : m (Except Fault α)) s :=
  After.pure_iff.2 .refl

theorem heeds_try_pure (a : α) : Heeds W (pure a : ExceptT Fault m α).run s :=
  After.try_pure_iff.2 .refl

theorem heeds_throw (f : Fault) : Heeds W (throw f : ExceptT Fault m α).run s :=
  After.throw_iff.2 .refl

/-- An action hands on the failure of what it does first. -/
theorem Heeds.bind {x : ExceptT Fault m α} {f : α → ExceptT Fault m β} (hx : Heeds W x.run s)
    (hf : ∀ a s', Heeds W (f a).run s') : Heeds W (x >>= f).run s :=
  After.try_seq hx (fun a s' h => (hf a s').mono fun _ _ h' =>
    (h.mono fun _ _ => Heeded.of_ok).trans h')
    fun _ _ h => h.mono fun _ _ => Heeded.of_error

/-- An action hands on the failure of what it does first, which takes two actions. -/
theorem Heeds.bind₂ [LawfulMonad m] {γ : Type} {x : ExceptT Fault m γ} {y : γ → ExceptT Fault m α}
    {f : α → ExceptT Fault m β} (h : Heeds W (x >>= y).run s)
    (hf : ∀ a s', Heeds W (f a).run s') : Heeds W (x >>= fun c => y c >>= f).run s := by
  rw [← bind_assoc]
  exact h.bind hf

theorem heeds_forM {l : List β} {f : β → ExceptT Fault m PUnit}
    (hf : ∀ b s, Heeds W (f b).run s) : Heeds W (l.forM f).run s := by
  induction l generalizing s with
  | nil => exact heeds_try_pure _
  | cons b l ih => exact (hf b s).bind fun _ _ => ih

/-- An action succeeds, and makes no call that counts as failed. -/
def Proceeds (W : Call → Prop) (x : ExceptT Fault m α) (s : σ) : Prop :=
  After x.run s fun r s' =>
    (∃ a, r = .ok a) ∧ Grown (Unfailed W) (engine s).history (engine s').history

theorem Calm.lift [LawfulMonad m] {x : m α} (hx : Calm W x s) :
    Proceeds W (liftM x : ExceptT Fault m α) s :=
  After.try_lift_iff.2 <| hx.mono fun a _ h => ⟨⟨a, rfl⟩, h⟩

theorem Proceeds.heeds {x : ExceptT Fault m α} (hx : Proceeds W x s) : Heeds W x.run s :=
  hx.mono fun _ _ h => h.2.mono fun _ _ => Unfailed.heeded

theorem Proceeds.bind {x : ExceptT Fault m α} {f : α → ExceptT Fault m β} (hx : Proceeds W x s)
    (hf : ∀ a s', Heeds W (f a).run s') : Heeds W (x >>= f).run s := by
  refine After.try_bind_iff.2 (hx.mono ?_)
  rintro _ s₁ ⟨⟨a, rfl⟩, h⟩
  exact (hf a s₁).mono fun _ _ h' => (h.mono fun _ _ => Unfailed.heeded).trans h'

/-- An action answers a given fault, and makes no call that counts as failed. -/
def Yields (W : Call → Prop) (f : Fault) (x : m (Except Fault α)) (s : σ) : Prop :=
  After x s fun r s' => r = .error f ∧ Grown (Unfailed W) (engine s).history (engine s').history

theorem yields_throw (f : Fault) : Yields W f (throw f : ExceptT Fault m α).run s :=
  After.throw_iff.2 ⟨rfl, .refl⟩

theorem Proceeds.yields {f : Fault} {x : ExceptT Fault m α} {g : α → ExceptT Fault m β}
    (hx : Proceeds W x s) (hg : ∀ a s', Yields W f (g a).run s') : Yields W f (x >>= g).run s := by
  refine After.try_bind_iff.2 (hx.mono ?_)
  rintro _ s₁ ⟨⟨a, rfl⟩, h⟩
  exact (hg a s₁).mono fun _ _ h' => ⟨h'.1, h.trans h'.2⟩

/-- An action answers how another one ended, and the calls are heeded in that. -/
def Examines (W : Call → Prop) (x : ExceptT Fault m (Except Fault α)) (s : σ) : Prop :=
  After x.run s fun r s' =>
    ∃ a, r = .ok a ∧ Grown (Heeded W a) (engine s).history (engine s').history

theorem Heeds.examines [LawfulMonad m] {x : m (Except Fault α)} (hx : Heeds W x s) :
    Examines W (liftM x : ExceptT Fault m (Except Fault α)) s :=
  After.try_lift_iff.2 <| hx.mono fun a _ h => ⟨a, rfl, h⟩

/-- An action looks at how another one ended, and fails with the fault of that one if there is
one. -/
theorem Examines.bind {x : ExceptT Fault m (Except Fault α)}
    {f : Except Fault α → ExceptT Fault m β}
    (hx : Examines W x s) (hok : ∀ a s', Heeds W (f (.ok a)).run s')
    (herror : ∀ g s', Yields W g (f (.error g)).run s') : Heeds W (x >>= f).run s := by
  refine After.try_bind_iff.2 (hx.mono ?_)
  rintro _ s₁ ⟨r, rfl, h⟩
  cases r with
  | ok a => exact (hok a s₁).mono fun _ _ h' => (h.mono fun _ _ => Heeded.of_ok).trans h'
  | error g =>
    refine (herror g s₁).mono ?_
    rintro _ s₂ ⟨rfl, h'⟩
    exact (h.mono fun _ _ => Heeded.of_error).trans (h'.mono fun _ _ => Unfailed.heeded)

end Heeded

/-! ## Preserving -/

/-- No call since some engine counts as failed. -/
def Engine.Unharmed (W : Call → Prop) (e e' : Engine) : Prop :=
  Grown (Unfailed W) e.history e'.history

namespace Engine.Unharmed

variable {W : Call → Prop} {e : Engine} {call : Call} {k : Nat}

instance : Steady (e.Unharmed W) := ⟨fun h ha => h.trans (ha.history ▸ .refl)⟩

theorem admits (h : W call → ∀ past code, ¬ call.Counts past code) :
    Admits (e.Unharmed W) call := by
  intro e₁ e₂ h₁ ht
  obtain ⟨o, hh, -⟩ := ht.history
  exact h₁.trans (hh ▸ .one fun hw code left _ => h hw _ code)

/-- Giving up a statement or its rows is left out of account. -/
theorem admitsRelease : AdmitsRelease (e.Unharmed Call.GivesNothingUp) k :=
  fun _ hk => admits fun hw => absurd hw (Call.not_givesNothingUp hk)

end Engine.Unharmed

theorem calm_of_preserves {m : Type → Type} {σ α : Type} [Monad m] [Stateful m σ] [HasEngine σ]
    {W : Call → Prop} {x : m α} {s : σ} (hx : ∀ e, Preserves (Engine.Unharmed W e) x) :
    Calm W x s :=
  hx (engine s) s .refl

/-- A call that does not count however it ends is calm. -/
theorem calm_of_takes {α : Type} {W : Call → Prop} {call : Call} {x : EngineM α} {e : Engine}
    (hx : ∀ e, After x e fun _ e' => e.Takes call e')
    (h : ∀ past code, ¬ call.Counts past code) : Calm W x e :=
  calm_of_preserves fun _ => preserves_taking (Engine.Unharmed.admits fun _ => h) hx

/-! ## Calls -/

namespace Engine

variable {α β : Type} {call : Call} {R : α → Outcome → Prop} {W : Call → Prop} {c k : Nat}
  {e : Engine}

/-- An action makes one call, whose outcome fits the answer. -/
def Enters (call : Call) (R : α → Outcome → Prop) (x : EngineM α) : Prop :=
  ∀ e, After x e fun a e' => ∃ o, R a o ∧ e'.history = ⟨call, o⟩ :: e.history

theorem Asks.enters {x : EngineM α} (h : Asks call R x) : Enters call R x := fun e => by
  refine (h e).mono ?_
  rintro _ _ ⟨o, ho, he⟩
  exact ⟨o, ho, congrArg Outline.history he⟩

/-- What follows a call heeds it and the calls that it makes itself. -/
theorem Enters.heeds {x : EngineM α} {f : α → EngineTry β} (hx : Enters call R x)
    (hf : ∀ a o e₁, R a o → After (f a).run e₁ fun r e₂ =>
      Heeded W r e.history ⟨call, o⟩ ∧ Grown (Heeded W r) e₁.history e₂.history) :
    Heeds W (liftM x >>= f).run e := by
  refine After.try_call (hx e) ?_
  rintro a e₁ ⟨o, ho, he⟩
  refine (hf a o e₁ ho).mono ?_
  rintro r e₂ ⟨ht, hg⟩
  rw [he] at hg
  exact .trans (.one ht) hg

theorem openFile_enters {path : Bytes} {flags : Nat} :
    Enters (.openFile path flags) (fun r o => Codes r.1 o) (openFile path flags) := by
  intro e
  unfold openFile consult record addConnection
  simp only [After.bind_iff, After.base_get_iff, After.base_modifyGet_iff]
  cases (Rule.consult (Call.openFile path flags).line e.rules).1 with
  | none => exact ⟨.created _, .of_success rfl, rfl⟩
  | some f =>
    dsimp only
    split <;> exact ⟨_, .failed, rfl⟩

theorem closeFile_enters : Enters (.close c) Codes (closeFile c) := by
  intro e
  unfold closeFile
  refine After.seq (perform_after e) ?_
  rintro r e₁ ⟨hh, -, -⟩
  cases r with
  | none =>
    exact After.bind_iff.2 <| After.base_modify_iff.2 <| After.pure_iff.2 ⟨_, .of_success rfl, hh⟩
  | some f => exact After.bind_iff.2 <| After.base_modify_iff.2 <| After.pure_iff.2 ⟨_, .failed, hh⟩

theorem prepare_enters {sql : Bytes} :
    Enters (.prepare c sql) (fun r o => Codes r.1 o) (prepare c sql) := by
  intro e
  unfold prepare
  refine After.bind_iff.2 <| After.base_get_iff.2 <| After.seq (perform_after e) ?_
  rintro r e₁ ⟨hh, -, -⟩
  cases r with
  | some f => exact After.bind_iff.2 <| After.base_modify_iff.2 <| After.pure_iff.2 ⟨_, .failed, hh⟩
  | none =>
    by_cases hb : isBlankSql sql
    · simp only [hb, if_true] at hh ⊢
      exact After.pure_iff.2 ⟨_, .of_success rfl, hh⟩
    · simp only [hb, Bool.false_eq_true, if_false] at hh ⊢
      exact After.bind_iff.2 <| After.bind_iff.2 <| After.base_get_iff.2 <| After.pure_iff.2 <|
        After.bind_iff.2 <| After.base_modify_iff.2 <| After.pure_iff.2 ⟨_, .of_success rfl, hh⟩

theorem init_enters : Enters .init (fun r o => o.isFailure → r = none) init := by
  intro e
  unfold init
  refine After.bind_iff.2 <| After.base_get_iff.2 <| After.seq (perform_after e) ?_
  rintro r e₁ ⟨hh, -, -⟩
  cases r with
  | some f => exact After.pure_iff.2 ⟨_, fun _ => rfl, hh⟩
  | none =>
    exact After.bind_iff.2 <| After.base_modify_iff.2 <| After.pure_iff.2
      ⟨.created _, fun hf => (by cases hf), hh⟩

theorem newStatement_enters :
    Enters (.newStatement c) (fun r o => o.isFailure → r = none) (newStatement c) := by
  intro e
  unfold newStatement
  refine After.bind_iff.2 <| After.base_get_iff.2 <| After.seq (perform_after e) ?_
  rintro r e₁ ⟨hh, -, -⟩
  cases r with
  | some f =>
    exact After.bind_iff.2 <| After.base_modify_iff.2 <| After.pure_iff.2 ⟨_, fun _ => rfl, hh⟩
  | none =>
    exact After.bind_iff.2 <| After.base_modify_iff.2 <| After.pure_iff.2
      ⟨.created _, fun hf => (by cases hf), hh⟩

theorem closeStatement_enters :
    Enters (.closeStatement k) (fun ok o => o.isFailure → ok = false) (closeStatement k) := by
  intro e
  unfold closeStatement
  refine After.seq (perform_after e) ?_
  rintro r e₁ ⟨hh, -, -⟩
  refine After.bind_iff.2 <| After.base_modify_iff.2 <| After.pure_iff.2 ⟨_, fun hf => ?_, hh⟩
  cases r with
  | none => cases hf
  | some f => rfl

end Engine

end SqlAccess
