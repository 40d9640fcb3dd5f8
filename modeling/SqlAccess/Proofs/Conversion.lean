import SqlAccess.Proofs.Handing

/-!
# What parameters are set to

A value that fits a declared type is accepted by every backend, and each has a conversion of its own
for it. SQLite is called with the result at once (`Sqlite.Bound`); MariaDB keeps the result with the
statement (`Maria.Bound`) and gets it when that is run (`Maria.bindAndExecute_hands`).

The conversions are the same but for integers: MariaDB takes each of them as it is, but SQLite takes
no more than the low half of one that goes to an `int32`, and only zero or one for a `bool`. So
both take the same exactly if the value is in the range of its type (`Value.widened_eq_iff`).
-/

namespace SqlAccess

/-! ## Conversions side by side -/

/-- An integer in 64 bits is that of its low half if this half holds it. -/
theorem toInt64_toInt32_eq_iff {n : Int64} : n.toInt32.toInt64 = n ↔
    Int32.minValue.toInt64 ≤ n ∧ n ≤ Int32.maxValue.toInt64 := by
  have hlow := n.toInt32.le_toInt
  have hhigh := n.toInt32.toInt_lt
  rw [← Int64.toInt_inj, Int64.le_iff_toInt_le, Int64.le_iff_toInt_le, Int32.toInt_toInt64,
    Int32.toInt_toInt64, Int32.toInt_toInt64, Int32.toInt_minValue, Int32.toInt_maxValue]
  constructor
  · intro h
    omega
  · rintro ⟨hmin, hmax⟩
    rw [Int64.toInt_toInt32]
    exact Int.bmod_eq_of_le (by omega) (by omega)

/-- A datum with its integer in 64 bits, if it is one. -/
def Datum.widened : Datum → Datum
  | .int32 n => .int64 n.toInt64
  | d => d

namespace Value

variable {type : ValueType} {v : Value}

/-- An integer that a value stands for is one that a type has room for. -/
def InRange (v : Value) : ValueType → Prop
  | .bool => v.toInt64 = 0 ∨ v.toInt64 = 1
  | .int32 => Int32.minValue.toInt64 ≤ v.toInt64 ∧ v.toInt64 ≤ Int32.maxValue.toInt64
  | _ => True

theorem toInt64_toBool_eq_iff :
    (if v.toBool then 1 else 0 : Int32).toInt64 = v.toInt64 ↔ v.toInt64 = 0 ∨ v.toInt64 = 1 := by
  have hone : (1 : Int32).toInt64 = 1 := rfl
  by_cases h : v.toInt64 = 0
  · simp [toBool, h]
  · simp only [toBool, bne_iff_ne, ne_eq, h, not_false_eq_true, if_true, hone, false_or]
    exact eq_comm

theorem inRange_null : null.InRange type := by
  cases type with
  | bool => exact .inl rfl
  | int32 => exact ⟨by decide, by decide⟩
  | _ => trivial

/-- The conversions come to the same exactly if a value is in the range of the type. -/
theorem widened_eq_iff : (Sqlite.datum type v).widened = (Maria.datum type v).widened ↔
    v.InRange type := by
  cases v with
  | null => exact iff_of_true rfl inRange_null
  | _ =>
    cases type with
    | bool =>
      simp [Sqlite.datum, Maria.datum, isNull, Datum.widened, InRange, toInt64_toBool_eq_iff]
    | int32 =>
      simp [Sqlite.datum, Maria.datum, isNull, Datum.widened, InRange, toInt32,
        toInt64_toInt32_eq_iff]
    | _ => simp [Sqlite.datum, Maria.datum, isNull, InRange, toDouble]

/-- MariaDB takes the integer that a value stands for, and SQLite does if the type has room for
it. -/
theorem widened_eq_int64 (hinteger : type = .int32 ∨ type = .int64) (hnull : v ≠ null) :
    (Maria.datum type v).widened = .int64 v.toInt64 ∧
      ((Sqlite.datum type v).widened = .int64 v.toInt64 ↔ v.InRange type) := by
  have hmaria : (Maria.datum type v).widened = .int64 v.toInt64 := by
    cases v with
    | null => exact absurd rfl hnull
    | _ => obtain rfl | rfl := hinteger <;> rfl
  exact ⟨hmaria, hmaria ▸ widened_eq_iff⟩

end Value

/-! ## Handing data over -/

/-- A statement of MariaDB that was run was handed what its parameters are set to. -/
theorem Maria.bindAndExecute_hands {s : Client} (e : Engine) :
    After (bindAndExecute s).run e fun r e' => r = .ok () →
      ∃ o past, e'.history = ⟨.execute s.number s.parameters, o⟩ :: past ∧
        e.history <:+ past := by
  have executed {e₁ : Engine} (hs : e.history <:+ e₁.history) : After (ExceptT.run do
      checkStatement s.number (← Engine.execute s.number s.parameters)
        "Statement execution failed" : EngineM (Except Fault Unit)) e₁ fun _ e' =>
          ∃ o past, e'.history = ⟨.execute s.number s.parameters, o⟩ :: past ∧
            e.history <:+ past := by
    refine After.try_call (Engine.execute_asks.enters e₁) ?_
    rintro ok e₂ ⟨o, -, h₂⟩
    exact (checkStatement_after e₂).mono fun _ _ h₃ => ⟨o, _, h₃.2.history.trans h₂, hs⟩
  unfold bindAndExecute
  split
  · refine After.try_call (Engine.bindParam_asks.enters e) ?_
    rintro ok e₁ ⟨o, -, h₁⟩
    refine After.try_bind_iff.2 <| (checkStatement_after e₁).mono fun r e₂ h₂ => ?_
    cases r with
    | error f => exact nofun
    | ok _ =>
      have hs : e.history <:+ e₂.history := (h₂.2.history.trans h₁) ▸ List.suffix_cons _ _
      exact (executed hs).mono fun _ _ h _ => h
  · exact (executed (List.suffix_refl _)).mono fun _ _ h _ => h

/-! ## The same data -/

namespace Value

variable {type : ValueType} {v : Value}

/-- A value that fits a declared type is handed over by both backends, as their conversions make it:
SQLite is called with it at once, and MariaDB gets it with the other parameters when the statement
is run. What they get is the same exactly if the value is in the range of the type. For a type of
integers MariaDB gets the integer that the value stands for, and SQLite does exactly if the type has
room for it. -/
theorem handed_alike_iff (hfits : v.fits type = true) :
    (∀ k slot e, After (Handle.bind type slot v).run (.sqlite (some k), e) fun r b => ∃ o,
      b.2.history = ⟨.bind k (slot + 1) (Sqlite.datum type v), o⟩ :: e.history ∧
        (o = .done ∧ r = .ok () ∨ ∃ code, o = .failed code none ∧ Sqlite.Matches code r)) ∧
    (∀ s slot e, slot < s.parameters.length →
      After (Handle.bind type slot v).run (.maria s, e) fun r b => r = .ok () ∧
        ∃ s' : Maria.Client, b = (.maria s', e) ∧ s'.number = s.number ∧
          s'.parameters = s.parameters.set slot (Maria.datum type v) ∧
          After (Maria.bindAndExecute s').run e fun r e' => r = .ok () →
            ∃ o past, e'.history = ⟨.execute s'.number s'.parameters, o⟩ :: past ∧
              e.history <:+ past) ∧
    ((Sqlite.datum type v).widened = (Maria.datum type v).widened ↔ v.InRange type) ∧
    (type = .int32 ∨ type = .int64 → v ≠ .null →
      (Maria.datum type v).widened = .int64 v.toInt64 ∧
        ((Sqlite.datum type v).widened = .int64 v.toInt64 ↔ v.InRange type)) := by
  have hnot (h : v.fits type = false) : False := Bool.false_ne_true (h.symm.trans hfits)
  refine ⟨fun k slot e => ?_, fun s slot e hslot => ?_, widened_eq_iff,
    fun hinteger hnull => widened_eq_int64 hinteger hnull⟩
  · refine (Handle.bind_bound (.sqlite (some k), e)).mono fun r b h => ?_
    cases h with
    | sqlite h =>
      cases h with
      | unfit hunfit => exact (hnot hunfit).elim
      | done _ hh => exact ⟨_, hh, .inl ⟨rfl, rfl⟩⟩
      | failed _ hh hr => exact ⟨_, hh, .inr ⟨_, rfl, hr⟩⟩
  · refine (Handle.bind_bound (.maria s, e)).mono fun r b h => ?_
    cases h with
    | maria h =>
      cases h with
      | unfit hunfit => exact (hnot hunfit).elim
      | outside _ hout => exact absurd hslot (Nat.not_lt.2 hout)
      | kept => exact ⟨rfl, _, rfl, rfl, rfl, Maria.bindAndExecute_hands e⟩

/-- An integer of 33 bits fits `int32`, but SQLite is called with its low half. The number of that
half is handed over alike, and two for a truth value is not. -/
theorem low_half_handed :
    ((int64 4294967303).fits .int32 = true ∧ (int64 7).fits .int32 = true ∧
      (int64 2).fits .bool = true) ∧
    Sqlite.datum .int32 (int64 4294967303) = .int32 7 ∧
    (Maria.datum .int32 (int64 4294967303)).widened = .int64 4294967303 ∧
    (Sqlite.datum .int32 (int64 4294967303)).widened ≠
      (Maria.datum .int32 (int64 4294967303)).widened ∧
    (Sqlite.datum .int32 (int64 7)).widened = (Maria.datum .int32 (int64 7)).widened ∧
    (Sqlite.datum .bool (int64 2)).widened ≠ (Maria.datum .bool (int64 2)).widened := by
  have hwide : (int64 4294967303).fits .int32 = true := rfl
  have hnarrow : (int64 7).fits .int32 = true := rfl
  have htwo : (int64 2).fits .bool = true := rfl
  obtain ⟨-, -, halike, hinteger⟩ := handed_alike_iff hwide
  obtain ⟨-, -, hseven, -⟩ := handed_alike_iff hnarrow
  obtain ⟨-, -, hbool, -⟩ := handed_alike_iff htwo
  refine ⟨⟨hwide, hnarrow, htwo⟩, rfl, (hinteger (.inl rfl) nofun).1, fun h => ?_,
    hseven.2 ⟨by decide, by decide⟩, fun h => ?_⟩
  · exact absurd (halike.1 h).2 (by decide)
  · exact absurd (hbool.1 h) (by unfold InRange; decide)

end Value

end SqlAccess
