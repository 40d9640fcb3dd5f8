import SqlAccess.Proofs.Numeral
import SqlAccess.Version

/-!
# Versions that reach a minimum

A version reaches a minimum if each component that has a counterpart in the minimum is a number of
at most eighteen digits and not below it (`VersionPredicate.reached_componentwise`). So a version
that reaches a minimum reaches each that asks for less or stops earlier.

The number of a component is kept in 64 bits. These hold eighteen digits, and each step on the way
has the result that it has among the integers (`VersionPredicate.push_exact`).
-/

namespace SqlAccess

theorem fields_eq_splitOn (sep : UInt8) (text : Bytes) : fields sep text = text.splitOn sep := by
  induction text with
  | nil => rfl
  | cons b rest ih =>
    rw [fields, List.splitOn_cons_eq_if_modifyHead, ih]
    by_cases hb : b = sep
    · simp [hb]
    · obtain ⟨f, fs, hsplit⟩ := List.exists_cons_of_ne_nil (List.splitOn_ne_nil sep rest)
      simp [hb, hsplit]

namespace VersionPredicate

open Numeral (digit value)

variable {component digits : Bytes} {d : UInt8} {n : Nat} {version : Bytes}
  {minimum : List Int32}

/-! ## Eighteen digits in 64 bits -/

/-- Read a digit behind those that came to a number. -/
def push (k : Int64) (d : UInt8) : Int64 := k * 10 + (d - 0x30).toInt8.toInt64

theorem toInt_digit (h : Name.isDigit d) : (d - 0x30).toInt8.toInt64.toInt = digit d := by
  have hsub := Numeral.toNat_sub_zero h
  have hlt := Numeral.digit_lt h
  rw [Int8.toInt_toInt64, ← Int8.toInt_toBitVec, UInt8.toBitVec_toInt8,
    BitVec.toInt_eq_toNat_of_lt (by show 2 * (d - 0x30).toNat < 256; omega)]
  exact congrArg Nat.cast hsub

theorem toInt_mul_ten {k : Int64} (hk : k.toInt = n) (hn : n < 10 ^ 17) :
    (k * 10).toInt = n * 10 := by
  have hten : (10 : Int64).toInt = 10 := rfl
  rw [Int64.toInt_mul, hk, hten]
  exact Int.bmod_eq_of_le (by omega) (by omega)

/-- Behind less than eighteen digits, neither the product nor the sum leaves the 64 bits. -/
theorem toInt_push {k : Int64} (hk : k.toInt = n) (hn : n < 10 ^ 17) (hd : Name.isDigit d) :
    (push k d).toInt = n * 10 + digit d := by
  have hlt := Numeral.digit_lt hd
  rw [push, Int64.toInt_add, toInt_mul_ten hk hn, toInt_digit hd]
  exact Int.bmod_eq_of_le (by omega) (by omega)

theorem value_lt_of_length_lt (hdigits : ∀ d ∈ digits, Name.isDigit d) (h : digits.length < 18) :
    value digits < 10 ^ 17 :=
  Nat.lt_of_lt_of_le (Numeral.value_lt hdigits) (Nat.pow_le_pow_right (by omega) (by omega))

/-- Up to eighteen digits come to their value. -/
theorem toInt_foldl_push (hdigits : ∀ d ∈ digits, Name.isDigit d) (h : digits.length ≤ 18) :
    (digits.foldl push 0).toInt = value digits := by
  induction digits using List.reverseRecOn with
  | nil => rfl
  | append_singleton digits d ih =>
    have hbefore : ∀ b ∈ digits, Name.isDigit b := fun b hb => hdigits b (by simp [hb])
    have hd : Name.isDigit d := hdigits d (by simp)
    have hlength : digits.length < 18 := by simpa using h
    have hvalue := value_lt_of_length_lt hbefore hlength
    rw [List.foldl_append, List.foldl_cons, List.foldl_nil,
      toInt_push (ih hbefore hlength.le) hvalue hd, Numeral.value_append_singleton digits hd]
    push_cast
    rfl

/-! ## Components -/

/-- A component is a number of at most eighteen digits. -/
structure IsNumber (component : Bytes) : Prop where
  pos : 1 ≤ component.length
  le : component.length ≤ 18
  digits : ∀ d ∈ component, Name.isDigit d

theorem isNumber_of_componentValue? {k : Int64} (h : componentValue? component = some k) :
    IsNumber component := by
  unfold componentValue? at h
  split at h
  · cases h
  · next hlength =>
    split at h
    · next hall =>
      simp only [Bool.or_eq_true, List.isEmpty_iff, decide_eq_true_eq, not_or, not_lt] at hlength
      exact ⟨List.length_pos_iff.2 hlength.1, hlength.2, List.all_eq_true.1 hall⟩
    · cases h

theorem IsNumber.componentValue? (h : IsNumber component) :
    componentValue? component = some (component.foldl push 0) := by
  have hlength : ¬(component.isEmpty || 18 < component.length) := by
    simp [List.length_pos_iff.1 h.pos, h.le]
  rw [VersionPredicate.componentValue?, if_neg hlength, if_pos (List.all_eq_true.2 h.digits)]
  rfl

theorem reaches_iff {required : Int32} : reaches component required ↔
    IsNumber component ∧ required.toInt ≤ value component := by
  constructor
  · intro h
    unfold reaches at h
    cases hvalue : componentValue? component with
    | none => simp [hvalue] at h
    | some k =>
      have hnumber := isNumber_of_componentValue? hvalue
      have hk : component.foldl push 0 = k :=
        Option.some.inj (hnumber.componentValue?.symm.trans hvalue)
      have hle : required.toInt64 ≤ k := by simpa [hvalue] using h
      rw [Int64.le_iff_toInt_le, Int32.toInt_toInt64, ← hk,
        toInt_foldl_push hnumber.digits hnumber.le] at hle
      exact ⟨hnumber, hle⟩
  · rintro ⟨hnumber, hle⟩
    rw [← toInt_foldl_push hnumber.digits hnumber.le, ← Int32.toInt_toInt64,
      ← Int64.le_iff_toInt_le] at hle
    simpa [reaches, hnumber.componentValue?] using hle

/-- A version reaches a minimum if its components do, as far as both go. -/
theorem accepts_atLeast_iff : accepts version (atLeast minimum) ↔
    ∀ (i : Nat) c m, (version.splitOn 0x2E)[i]? = some c → minimum[i]? = some m →
      IsNumber c ∧ m.toInt ≤ value c := by
  have hzip : accepts version (atLeast minimum) ↔
      ∀ z ∈ (version.splitOn 0x2E).zip minimum, reaches z.1 z.2 := by
    rw [accepts, fields_eq_splitOn]
    exact List.all_eq_true
  rw [hzip]
  constructor
  · intro h i c m hc hm
    have hmem : (c, m) ∈ (version.splitOn 0x2E).zip minimum :=
      List.mem_of_getElem? (List.getElem?_zip_eq_some.2 ⟨hc, hm⟩)
    exact reaches_iff.1 (h _ hmem)
  · intro h z hz
    obtain ⟨i, hi⟩ := List.mem_iff_getElem?.1 hz
    obtain ⟨hc, hm⟩ := List.getElem?_zip_eq_some.1 hi
    exact reaches_iff.2 (h i z.1 z.2 hc hm)

/-! ## Minima -/

/-- Behind digits of a component that has at most eighteen bytes, one more digit is read as among
the integers. -/
theorem push_exact {before after : Bytes} (hle : (before ++ d :: after).length ≤ 18)
    (hdigits : ∀ b ∈ before ++ [d], Name.isDigit b) :
    (before.foldl push 0 * 10).toInt = (before.foldl push 0).toInt * 10 ∧
      (push (before.foldl push 0) d).toInt = (before.foldl push 0).toInt * 10 + digit d := by
  have hbefore : ∀ b ∈ before, Name.isDigit b := fun b hb => hdigits b (by simp [hb])
  have hlength : before.length < 18 := by
    simp only [List.length_append, List.length_cons] at hle
    omega
  have hk := toInt_foldl_push hbefore hlength.le
  have hlt := value_lt_of_length_lt hbefore hlength
  rw [toInt_mul_ten hk hlt, toInt_push hk hlt (hdigits d (by simp)), hk]
  exact ⟨rfl, rfl⟩

/-- A lower minimum, or a shorter one, is reached as well. -/
theorem accepts_of_lower {lower : List Int32} (hlength : lower.length ≤ minimum.length)
    (hlower : ∀ (i : Nat) l m, lower[i]? = some l → minimum[i]? = some m → l ≤ m)
    (h : accepts version (atLeast minimum)) : accepts version (atLeast lower) := by
  rw [accepts_atLeast_iff] at h ⊢
  intro i c l hc hl
  have hi : i < minimum.length := Nat.lt_of_lt_of_le (List.getElem?_eq_some_iff.1 hl).1 hlength
  have hm : minimum[i]? = some minimum[i] := List.getElem?_eq_getElem hi
  obtain ⟨hnumber, hle⟩ := h i c minimum[i] hc hm
  have hlm := Int32.le_iff_toInt_le.1 (hlower i l minimum[i] hl hm)
  exact ⟨hnumber, by omega⟩

/-- A version is cut at every dot. It reaches a minimum exactly if each component for which the
minimum has one is a number of at most eighteen digits and not below that. On the way to the number
neither the product nor the sum leaves the 64 bits. So the version also reaches each minimum that
stops earlier or asks for less. -/
theorem reached_componentwise (version : Bytes) (minimum : List Int32) :
    (accepts version (atLeast minimum) ↔
      ∀ (i : Nat) c m, (version.splitOn 0x2E)[i]? = some c → minimum[i]? = some m →
        IsNumber c ∧ m.toInt ≤ (Nat.ofDigits 10 (c.reverse.map digit) : Nat)) ∧
    (∀ c ∈ version.splitOn 0x2E,
      (IsNumber c → componentValue? c = some (c.foldl push 0)) ∧
      ∀ before d after, c = before ++ d :: after → c.length ≤ 18 →
        (∀ b ∈ before ++ [d], Name.isDigit b) →
        (before.foldl push 0 * 10).toInt = (before.foldl push 0).toInt * 10 ∧
          (push (before.foldl push 0) d).toInt = (before.foldl push 0).toInt * 10 + digit d) ∧
    ∀ lower : List Int32, lower.length ≤ minimum.length →
      (∀ (i : Nat) l m, lower[i]? = some l → minimum[i]? = some m → l ≤ m) →
        accepts version (atLeast minimum) → accepts version (atLeast lower) := by
  refine ⟨?_, ?_, ?_⟩
  · rw [accepts_atLeast_iff]
    constructor
    · intro h i c m hc hm
      obtain ⟨hnumber, hle⟩ := h i c m hc hm
      exact ⟨hnumber, Numeral.value_eq_ofDigits hnumber.digits ▸ hle⟩
    · intro h i c m hc hm
      obtain ⟨hnumber, hle⟩ := h i c m hc hm
      exact ⟨hnumber, (Numeral.value_eq_ofDigits hnumber.digits).symm ▸ hle⟩
  · intro c _
    refine ⟨IsNumber.componentValue?, ?_⟩
    rintro before d after rfl hle hdigits
    exact push_exact hle hdigits
  · intro lower hlength hlower h
    exact accepts_of_lower hlength hlower h

/-- The version `3.40.1` reaches `3.8`, and so `3.7` and `3`. The last of eighteen nines is read as
among the integers. A version that ends in a dot does not reach `2.0`, for the empty component. -/
theorem three_forty_reaches :
    (accepts "3.40.1" (atLeast [3, 8]) ∧ accepts "3.40.1" (atLeast [3, 7]) ∧
      accepts "3.40.1" (atLeast [3])) ∧
    (push (List.foldl push 0 (List.replicate 17 0x39)) 0x39).toInt =
      (List.foldl push 0 (List.replicate 17 0x39)).toInt * 10 + 9 ∧
    ¬accepts "2." (atLeast [2, 0]) := by
  obtain ⟨-, -, hlower⟩ := reached_componentwise "3.40.1" [3, 8]
  obtain ⟨-, hexact, -⟩ := reached_componentwise (List.replicate 18 0x39) []
  obtain ⟨hiff, -, -⟩ := reached_componentwise "2." [2, 0]
  have h : accepts "3.40.1" (atLeast [3, 8]) := by decide
  have hseven : ∀ (i : Nat) l m, [3, 7][i]? = some l → [3, 8][i]? = some m → l ≤ (m : Int32) := by
    intro i l m hl hm
    rcases i with _ | _ | i
    · cases hl; cases hm; decide
    · cases hl; cases hm; decide
    · simp at hl
  have hshort : ∀ (i : Nat) l m, [3][i]? = some l → [3, 8][i]? = some m → l ≤ (m : Int32) := by
    intro i l m hl hm
    rcases i with _ | i
    · cases hl; cases hm; decide
    · simp at hl
  have hnines : ∀ b ∈ List.replicate 17 (0x39 : UInt8) ++ [0x39], Name.isDigit b := by
    intro b hb
    obtain rfl : b = 0x39 := by simpa using hb
    rfl
  refine ⟨⟨h, hlower [3, 7] (by decide) hseven h, hlower [3] (by decide) hshort h⟩, ?_, ?_⟩
  · exact ((hexact (List.replicate 18 0x39) (by decide)).2 (List.replicate 17 0x39) 0x39 [] rfl
      (by decide) hnines).2
  · intro hreached
    have hempty : IsNumber [] := (hiff.1 hreached 1 [] 0 (by decide) rfl).1
    exact absurd hempty.pos (by decide)

end VersionPredicate

end SqlAccess
