import SqlAccess.Proofs.After
import SqlAccess.Proofs.History
import SqlAccess.Statement

/-!
# The calls that an action makes

`Makes P x` says that the action `x` makes no call but such as satisfy `P`, opens no connection
and keeps statements numbered apart. It holds of an action if it holds of the actions that it is
put together from, so every operation on a statement is covered by what its calls on the engine
are: all are asked of that statement.
-/

namespace SqlAccess

/-- No number was given to two statements. -/
structure Engine.Numbered (e : Engine) : Prop where
  /-- Numbers still to be given out are unused. -/
  below : ∀ c k, made c e.history k → k < e.statements.next
  unique : ∀ c c' k, made c e.history k → made c' e.history k → c = c'

/-- No connection was opened, and statements are numbered apart if they were. -/
structure Engine.Keeps (e e' : Engine) : Prop where
  next : e'.connections.next = e.connections.next
  numbered : e.Numbered → e'.Numbered

namespace Engine.Keeps

variable {e e' e'' : Engine}

theorem refl : e.Keeps e := ⟨rfl, id⟩

theorem trans (h₁ : e.Keeps e') (h₂ : e'.Keeps e'') : e.Keeps e'' :=
  ⟨h₂.next.trans h₁.next, h₂.numbered ∘ h₁.numbered⟩

/-- Statements stay numbered apart if what is new in the history made none. -/
theorem of_made (hn : e'.connections.next = e.connections.next)
    (hs : e.statements.next ≤ e'.statements.next)
    (hm : ∀ c k, made c e'.history k → made c e.history k) : e.Keeps e' :=
  ⟨hn, fun h => ⟨fun c k hk => Nat.lt_of_lt_of_le (h.below c k (hm c k hk)) hs,
    fun c c' k hk hk' => h.unique c c' k (hm c k hk) (hm c' k hk')⟩⟩

/-- A call that made no statement was entered into the history. -/
theorem of_call {ev : Event} (hn : e'.connections.next = e.connections.next)
    (hs : e.statements.next ≤ e'.statements.next) (hh : e'.history = ev :: e.history)
    (hm : ∀ k, ev.outcome ≠ .created k) : e.Keeps e' := by
  refine .of_made hn hs fun c k hk => ?_
  rw [hh] at hk
  simpa [made, hm] using hk

/-- A statement was made and given the next number. -/
theorem of_created {c : Nat} {call : Call} (hn : e'.connections.next = e.connections.next)
    (hs : e'.statements.next = e.statements.next + 1)
    (hh : e'.history = ⟨call, .created e.statements.next⟩ :: e.history)
    (hc : call.connection? = some c) : e.Keeps e' := by
  refine ⟨hn, fun h => ?_⟩
  have split {c' k : Nat} (hk : made c' e'.history k) :
      (c' = c ∧ k = e.statements.next) ∨ made c' e.history k := by
    rw [hh, made, List.any_cons, Bool.or_eq_true, Bool.and_eq_true, beq_iff_eq] at hk
    obtain ⟨hp, he⟩ | hk := hk
    · have hc' := Call.connection?_of_prepares hp
      rw [hc] at hc'
      exact .inl ⟨(Option.some.inj hc').symm, (Outcome.created.inj he).symm⟩
    · exact .inr hk
  refine ⟨fun c' k hk => ?_, fun c₁ c₂ k h₁ h₂ => ?_⟩
  · rw [hs]
    obtain ⟨-, rfl⟩ | hk := split hk
    · exact Nat.lt_succ_self _
    · exact Nat.lt_succ_of_lt (h.below c' k hk)
  · obtain ⟨rfl, hk⟩ | h₁ := split h₁ <;> obtain ⟨rfl, hk'⟩ | h₂ := split h₂
    · rfl
    · exact absurd (h.below _ _ h₂) (by omega)
    · exact absurd (h.below _ _ h₁) (by omega)
    · exact h.unique c₁ c₂ k h₁ h₂

end Engine.Keeps

/-- An engine was looked at, and not called. -/
structure Engine.Viewed (e e' : Engine) : Prop where
  history : e'.history = e.history
  connections : e'.connections = e.connections
  statements : e'.statements = e.statements

theorem Engine.Viewed.keeps {e e' : Engine} (h : e.Viewed e') : e.Keeps e' :=
  .of_made (congrArg Table.next h.connections)
    (Nat.le_of_eq (congrArg Table.next h.statements.symm)) fun _ _ hk => h.history ▸ hk

/-- An engine went on by calls that satisfy `P`, none of which opened a connection. -/
structure Calls (P : History → Event → Prop) (e e' : Engine) : Prop where
  grown : Grown P e.history e'.history
  keeps : e.Keeps e'

/-- States that hold an engine. -/
class HasEngine (σ : Type) where
  /-- The engine. -/
  engine : σ → Engine

export HasEngine (engine)

instance : HasEngine Engine := ⟨id⟩

instance : HasEngine World := ⟨World.engine⟩

instance {σ τ : Type} [HasEngine σ] : HasEngine (τ × σ) := ⟨fun s => engine s.2⟩

section Makes

variable {m : Type → Type} {σ α β : Type} [Monad m] [Stateful m σ] [HasEngine σ]
variable {P Q : History → Event → Prop} {e e' e'' : Engine}

namespace Calls

theorem refl : Calls P e e := ⟨.refl, .refl⟩

theorem trans (h₁ : Calls P e e') (h₂ : Calls P e' e'') : Calls P e e'' :=
  ⟨h₁.grown.trans h₂.grown, h₁.keeps.trans h₂.keeps⟩

theorem mono (hPQ : ∀ past ev, P past ev → Q past ev) (h : Calls P e e') : Calls Q e e' :=
  ⟨h.grown.mono hPQ, h.keeps⟩

theorem work {c : Option Nat} (h : Calls Quiet e e') : Calls (Work c) e e' :=
  h.mono fun _ _ hq => hq.work

theorem of_since (h : Calls (Since e.history P) e e') : Calls P e e' := ⟨h.grown.of_since, h.keeps⟩

end Calls

/-- An action makes only calls that satisfy `P`. -/
def Makes (P : History → Event → Prop) (x : m α) : Prop :=
  ∀ s, After x s fun _ s' => Calls P (engine s) (engine s')

/-- A call satisfies `P` whatever was called before, and however it ends. -/
def Allows (P : History → Event → Prop) (call : Call) : Prop :=
  ∀ past outcome, P past ⟨call, outcome⟩

/-! ### Failure -/

theorem makes_try_bind {x : ExceptT Fault m α} {f : α → ExceptT Fault m β} (hx : Makes P x.run)
    (hf : ∀ a, Makes P (f a).run) : Makes P (x >>= f).run := by
  refine fun s => After.try_bind_iff.2 <| (hx s).mono fun r s' h => ?_
  cases r with
  | error f => exact h
  | ok a => exact (hf a s').mono fun _ _ h' => h.trans h'

theorem makes_try_pure (a : α) : Makes P (pure a : ExceptT Fault m α).run :=
  fun _ => After.try_pure_iff.2 .refl

theorem makes_try_lift [LawfulMonad m] {x : m α} (hx : Makes P x) :
    Makes P (liftM x : ExceptT Fault m α).run :=
  fun s => After.try_lift_iff.2 (hx s)

end Makes

end SqlAccess
