import SqlAccess.Proofs.Heeding.Backend
import SqlAccess.Proofs.Holdings.Statement

/-!
# How setting a slot ends

Setting a slot first asks whether the value fits the type. Then SQLite is called with what the value
is converted to (`Sqlite.Bound`), and MariaDB keeps that with the statement, if it has the slot
(`Maria.Bound`).
-/

namespace SqlAccess

/-- An action goes on if a value fits a type, and otherwise refuses the value. -/
theorem After.checkFits_iff {m : Type → Type} {σ α : Type} [Monad m] [Stateful m σ]
    {type : ValueType} {v : Value} {x : Unit → ExceptT Fault m α} {s : σ}
    {Q : Except Fault α → σ → Prop} :
    After (ExceptT.mk (pure (v.checkFits type)) >>= x).run s Q ↔
      if v.fits type then After (x ()).run s Q else Q (.error (.unassignable v.type type)) s := by
  rw [try_bind_iff, mk_iff, pure_iff, Value.checkFits]
  cases v.fits type <;> rfl

/-- A call to set a slot of SQLite succeeds, or fails with its code. -/
theorem Engine.bind_after {k slot : Nat} {d : Datum} (e : Engine) :
    After (Engine.bind k slot d) e fun code e' =>
      code = 0 ∧ e'.history = ⟨.bind k (slot + 1) d, .done⟩ :: e.history ∨
        e'.history = ⟨.bind k (slot + 1) d, .failed code none⟩ :: e.history := by
  unfold bind
  refine After.seq (perform_after e) fun r e₁ ⟨hh, _⟩ => ?_
  cases r with
  | none => exact After.pure_iff.2 (.inl ⟨rfl, hh⟩)
  | some f =>
    refine After.seq (statement_alters (k := none)) fun s e₂ h₂ =>
      After.seq (modifyConnection_alters (k := none)) fun _ e₃ h₃ => After.pure_iff.2 (.inr ?_)
    rw [h₃.history, h₂.history, hh]
    rfl

variable {type : ValueType} {v : Value} {slot : Nat}

namespace Sqlite

/-- How setting a slot of SQLite ends. Nothing is done if the value does not fit, or if there is no
statement; otherwise SQLite is called, and the answer is as the call ended. -/
inductive Bound (type : ValueType) (v : Value) (slot : Nat) (e : Engine) :
    Option Nat → Except Fault Unit → Engine → Prop
  | unfit {k : Option Nat} (hfits : v.fits type = false) :
    Bound type v slot e k (.error (.unassignable v.type type)) e
  | unprepared {f : Fault} {e' : Engine} (hfits : v.fits type = true) (hkind : f.kind = .misuse)
    (hh : e'.history = e.history) : Bound type v slot e none (.error f) e'
  | done {k : Nat} {e' : Engine} (hfits : v.fits type = true)
    (hh : e'.history = ⟨.bind k (slot + 1) (datum type v), .done⟩ :: e.history) :
    Bound type v slot e (some k) (.ok ()) e'
  | failed {k : Nat} {code : Int32} {r : Except Fault Unit} {e' : Engine}
    (hfits : v.fits type = true)
    (hh : e'.history = ⟨.bind k (slot + 1) (datum type v), .failed code none⟩ :: e.history)
    (hr : Matches code r) : Bound type v slot e (some k) r e'

theorem bind_bound (k : Option Nat) (e : Engine) :
    After (bind k type slot v).run e (Bound type v slot e k) := by
  unfold bind
  rw [After.checkFits_iff]
  split
  · next hfits =>
    cases k with
    | none =>
      refine (check_matches e).mono fun r e' ⟨hh, hr⟩ => ?_
      cases r with
      | ok _ => exact absurd (kindOf?_eq_none_iff.2 hr) (by decide)
      | error f => exact .unprepared hfits (Option.some.inj hr.1).symm hh
    | some k =>
      refine After.try_call (Engine.bind_after e) fun code e₁ h₁ => ?_
      split
      · next hcode =>
        have hh := h₁.resolve_left fun h => hcode h.1
        refine After.try_call (Engine.viewStatement_alters (k := none)) fun s e₂ h₂ =>
          (check_matches e₂).mono fun r e₃ ⟨h₃, hr⟩ => ?_
        exact .failed hfits ((h₃.trans h₂.history).trans hh) hr
      · next hcode =>
        obtain rfl : code = 0 := Decidable.not_not.1 hcode
        obtain ⟨-, hh⟩ | hh := h₁
        · exact After.try_pure_iff.2 (.done hfits hh)
        · exact After.try_pure_iff.2 (.failed hfits hh rfl)
  · next hfits => exact .unfit (Bool.eq_false_iff.2 hfits)

end Sqlite

namespace Maria

/-- How setting a slot of MariaDB ends. Nothing is done if the value does not fit, or if the
statement does not have the slot; otherwise the converted value is kept with the statement. -/
inductive Bound (type : ValueType) (v : Value) (slot : Nat) (s : Client) (e : Engine) :
    Except Fault Unit → Client × Engine → Prop
  | unfit (hfits : v.fits type = false) :
    Bound type v slot s e (.error (.unassignable v.type type)) (s, e)
  | outside (hfits : v.fits type = true) (hslot : s.parameters.length ≤ slot) :
    Bound type v slot s e (.error (.slotOutOfRange slot)) (s, e)
  | kept (hfits : v.fits type = true) (hslot : slot < s.parameters.length) :
    Bound type v slot s e (.ok ())
      ({ s with parameters := s.parameters.set slot (datum type v) }, e)

theorem bind_bound (s : Client) (e : Engine) :
    After (bind type slot v).run (s, e) (Bound type v slot s e) := by
  unfold bind
  rw [After.checkFits_iff]
  split
  · next hfits =>
    refine After.try_bind_iff.2 <| After.try_get_iff.2 ?_
    dsimp only
    split
    · next hslot => exact After.try_set_iff.2 (.kept hfits hslot)
    · next hslot => exact After.throw_iff.2 (.outside hfits (Nat.le_of_not_lt hslot))
  · next hfits => exact .unfit (Bool.eq_false_iff.2 hfits)

end Maria

namespace Handle

/-- How setting a slot ends, for the backend that has the statement. -/
inductive Bound (type : ValueType) (v : Value) (slot : Nat) :
    Handle × Engine → Except Fault Unit → Handle × Engine → Prop
  | sqlite {k : Option Nat} {e e' : Engine} {r : Except Fault Unit}
    (h : Sqlite.Bound type v slot e k r e') : Bound type v slot (sqlite k, e) r (sqlite k, e')
  | maria {s s' : Maria.Client} {e e' : Engine} {r : Except Fault Unit}
    (h : Maria.Bound type v slot s e r (s', e')) : Bound type v slot (maria s, e) r (maria s', e')

theorem bind_bound (b : Handle × Engine) :
    After (bind type slot v).run b (Bound type v slot b) := by
  obtain ⟨h, e⟩ := b
  refine After.try_bind_iff.2 <| After.try_get_iff.2 ?_
  cases h with
  | sqlite k => exact After.try_object_onTry_iff.2 ((Sqlite.bind_bound k e).mono fun _ _ => .sqlite)
  | maria s =>
    have hbound : After (Maria.bind type slot v).run (s, e) fun r a =>
        Bound type v slot (maria s, e) r (maria a.1, a.2) :=
      (Maria.bind_bound s e).mono fun _ _ => .maria
    exact hbound

end Handle

end SqlAccess
