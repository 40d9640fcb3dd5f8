import Mathlib.Data.List.TakeWhile
import Mathlib.Data.Nat.Digits.Lemmas
import SqlAccess.Numeral

/-!
# What numerals stand for

The number that digits write is their value in base ten (`Numeral.value_eq_ofDigits`), so it is
below the power of ten with as many zeros as there are digits.

An integer is read at the start of a text: behind blanks and at most one sign, as far as the digits
go (`Numeral.Leads`). What follows does not count, and where no digit is in this place the text
reads as zero (`Numeral.integer_of_leads`, `Numeral.integer_of_not_leads`). So a number is read from
its decimal (`Numeral.leads_ofNat`).
-/

namespace SqlAccess

namespace Numeral

variable {text digits rest : Bytes} {d : UInt8} {negative : Bool} {n : Nat}

/-! ## The value of digits -/

/-- The number of a digit. -/
def digit (d : UInt8) : Nat := d.toNat - 0x30

theorem isDigit_iff : Name.isDigit d = true ↔ 0x30 ≤ d.toNat ∧ d.toNat ≤ 0x39 := by
  simp [Name.isDigit, UInt8.le_iff_toNat_le]

theorem digit_lt (h : Name.isDigit d) : digit d < 10 := by
  have := isDigit_iff.1 h
  unfold digit
  omega

theorem toNat_sub_zero (h : Name.isDigit d) : (d - 0x30).toNat = digit d :=
  UInt8.toNat_sub_of_le d 0x30 (UInt8.le_iff_toNat_le.2 (isDigit_iff.1 h).1)

theorem value_append_singleton (digits : Bytes) (h : Name.isDigit d) :
    value (digits ++ [d]) = value digits * 10 + digit d := by
  simp [value, toNat_sub_zero h]

/-- Digits are read from the most significant one. -/
theorem value_eq_ofDigits (h : ∀ d ∈ digits, Name.isDigit d) :
    value digits = Nat.ofDigits 10 (digits.reverse.map digit) := by
  induction digits using List.reverseRecOn with
  | nil => rfl
  | append_singleton digits d ih =>
    have hd : Name.isDigit d := h d (by simp)
    rw [value_append_singleton digits hd, ih fun b hb => h b (by simp [hb])]
    simp only [List.reverse_append, List.reverse_singleton, List.singleton_append, List.map_cons,
      Nat.ofDigits_cons]
    omega

theorem value_lt (h : ∀ d ∈ digits, Name.isDigit d) : value digits < 10 ^ digits.length := by
  rw [value_eq_ofDigits h]
  have hlt : ∀ n ∈ digits.reverse.map digit, n < 10 := by
    intro n hn
    obtain ⟨d, hd, rfl⟩ := List.mem_map.1 hn
    exact digit_lt (h d (List.mem_reverse.1 hd))
  simpa using Nat.ofDigits_lt_base_pow_length (by omega) hlt

/-! ## Decimals -/

theorem toNat_toUInt8_of_isDigit {ch : Char} (h : ch.isDigit) :
    ch.toNat.toUInt8.toNat = ch.toNat := by
  have hle : ch.toNat ≤ 57 := (Char.isDigit_iff_toNat.1 h).2
  exact Nat.mod_eq_of_lt (by omega)

theorem isDigit_of_mem_toDigits {ch : Char} (h : ch ∈ Nat.toDigits 10 n) : ch.isDigit :=
  Nat.isDigit_of_mem_toDigits (by decide) (by decide) h

theorem isDigit_toUInt8 {ch : Char} (h : ch.isDigit) : Name.isDigit ch.toNat.toUInt8 := by
  rw [isDigit_iff, toNat_toUInt8_of_isDigit h]
  exact Char.isDigit_iff_toNat.1 h

theorem isDigit_of_mem_ofNat (h : d ∈ Bytes.ofNat n) : Name.isDigit d := by
  obtain ⟨ch, hch, rfl⟩ := List.mem_map.1 h
  exact isDigit_toUInt8 (isDigit_of_mem_toDigits hch)

theorem value_ofNat (n : Nat) : value (Bytes.ofNat n) = n := by
  have hstep : ∀ k : Nat, ∀ ch ∈ Nat.toDigits 10 n,
      k * 10 + (ch.toNat.toUInt8 - 0x30).toNat = 10 * k + (ch.toNat - '0'.toNat) := by
    intro k ch hch
    have hdigit := isDigit_of_mem_toDigits hch
    rw [toNat_sub_zero (isDigit_toUInt8 hdigit), digit, toNat_toUInt8_of_isDigit hdigit,
      Nat.mul_comm]
    rfl
  calc value (Bytes.ofNat n)
      = (Nat.toDigits 10 n).foldl (fun k ch => k * 10 + (ch.toNat.toUInt8 - 0x30).toNat) 0 := by
        rw [value, Bytes.ofNat, List.foldl_map]
    _ = Nat.ofDigitChars 10 (Nat.toDigits 10 n) 0 := List.foldl_ext _ _ 0 hstep
    _ = n := Nat.ofDigitChars_ten_toDigits

/-- Numbers differ in their decimals. -/
theorem ofNat_injective : Function.Injective Bytes.ofNat :=
  Function.LeftInverse.injective value_ofNat

/-! ## The integer at the start of a text -/

/-- A text starts with an integer: blanks, at most one sign, and digits as far as they go. -/
structure Leads (text : Bytes) (negative : Bool) (digits : Bytes) : Prop where
  nonempty : digits ≠ []
  all_digits : ∀ d ∈ digits, Name.isDigit d
  written : ∃ blanks sign rest : Bytes, text = blanks ++ (sign ++ (digits ++ rest)) ∧
    (∀ b ∈ blanks, isBlank b) ∧ (if negative then sign = [0x2D] else sign = [] ∨ sign = [0x2B]) ∧
    ∀ d, rest.head? = some d → Name.isDigit d = false

theorem Leads.ne_nil (h : Leads text negative digits) : text ≠ [] := by
  rintro rfl
  obtain ⟨hne, -, blanks, sign, rest, hnil, -⟩ := h
  simp_all

theorem not_blank_of_isDigit (h : Name.isDigit d) : isBlank d = false := by
  unfold isBlank
  unfold Name.isDigit at h
  grind

theorem takeDigits_append (hdigits : ∀ d ∈ digits, Name.isDigit d)
    (hrest : ∀ d, rest.head? = some d → Name.isDigit d = false) :
    takeDigits (digits ++ rest) = digits := by
  rw [takeDigits, List.takeWhile_append_of_pos hdigits]
  cases rest with
  | nil => simp
  | cons d rest => simp [hrest d rfl]

theorem isDigit_of_head?_dropWhile (h : (text.dropWhile Name.isDigit).head? = some d) :
    Name.isDigit d = false := by
  have hnot := List.head?_dropWhile_not Name.isDigit text
  rwa [h] at hnot

theorem takeSign_of_isDigit (h : Name.isDigit d) : takeSign (d :: rest) = (false, d :: rest) := by
  have hminus : d ≠ 0x2D := by rintro rfl; cases h
  have hplus : d ≠ 0x2B := by rintro rfl; cases h
  simp [takeSign, hminus, hplus]

/-- At most one sign is taken away. -/
theorem exists_sign (text : Bytes) : ∃ sign, text = sign ++ (takeSign text).2 ∧
    if (takeSign text).1 then sign = [0x2D] else sign = [] ∨ sign = [0x2B] := by
  cases text with
  | nil => exact ⟨[], rfl, by simp [takeSign]⟩
  | cons b rest =>
    by_cases hminus : b = 0x2D
    · exact ⟨[b], by simp [takeSign, hminus]⟩
    by_cases hplus : b = 0x2B
    · exact ⟨[b], by simp [takeSign, hplus]⟩
    · exact ⟨[], by simp [takeSign, hminus, hplus]⟩

/-- The reader takes blanks, a sign and digits, so it finds an integer where there is one. -/
theorem leads_iff : Leads text negative digits ↔ digits ≠ [] ∧
    (takeSign (text.dropWhile isBlank)).1 = negative ∧
      takeDigits (takeSign (text.dropWhile isBlank)).2 = digits := by
  constructor
  · rintro ⟨hne, hdigits, blanks, sign, rest, rfl, hblanks, hsign, hrest⟩
    obtain ⟨d, digits, rfl⟩ := List.exists_cons_of_ne_nil hne
    have hd : Name.isDigit d := hdigits d (by simp)
    have htake := takeDigits_append hdigits hrest
    have hblank := not_blank_of_isDigit hd
    rw [List.dropWhile_append_of_pos hblanks]
    cases negative with
    | true =>
      obtain rfl : sign = [0x2D] := hsign
      exact ⟨hne, rfl, htake⟩
    | false =>
      obtain rfl | rfl : sign = [] ∨ sign = [0x2B] := hsign
      · rw [List.nil_append, List.cons_append, List.dropWhile_cons_of_neg (by simp [hblank]),
          takeSign_of_isDigit hd]
        exact ⟨hne, rfl, htake⟩
      · exact ⟨hne, rfl, htake⟩
  · rintro ⟨hne, rfl, rfl⟩
    obtain ⟨sign, hsign, hsigned⟩ := exists_sign (text.dropWhile isBlank)
    refine ⟨hne, fun d hd => List.mem_takeWhile_imp hd, text.takeWhile isBlank, sign,
      (takeSign (text.dropWhile isBlank)).2.dropWhile Name.isDigit, ?_,
      fun b hb => List.mem_takeWhile_imp hb, hsigned, fun d hd => isDigit_of_head?_dropWhile hd⟩
    calc text
        = text.takeWhile isBlank ++ text.dropWhile isBlank := List.takeWhile_append_dropWhile.symm
      _ = text.takeWhile isBlank ++ (sign ++ (takeSign (text.dropWhile isBlank)).2) := by
          rw [← hsign]
      _ = _ := by rw [takeDigits, List.takeWhile_append_dropWhile]

theorem integer_of_leads (h : Leads text negative digits) :
    integer text = (negative, value digits) := by
  obtain ⟨-, rfl, rfl⟩ := leads_iff.1 h
  rfl

theorem integer_of_not_leads (h : ∀ negative digits, ¬Leads text negative digits) :
    (integer text).2 = 0 := by
  have hnil : takeDigits (takeSign (text.dropWhile isBlank)).2 = [] := by
    by_contra hne
    exact h _ _ (leads_iff.2 ⟨hne, rfl, rfl⟩)
  show value (takeDigits (takeSign (text.dropWhile isBlank)).2) = 0
  rw [hnil]
  rfl

/-- A number is read from its decimal. -/
theorem leads_ofNat (n : Nat) : Leads (Bytes.ofNat n) false (Bytes.ofNat n) where
  nonempty := by simp [Bytes.ofNat]
  all_digits _ := isDigit_of_mem_ofNat
  written := ⟨[], [], [], by simp, nofun, .inl rfl, nofun⟩

/-! ## Unsigned integers -/

/-- The unsigned number of 64 bits that stands for an integer. A minus sign takes the complement,
and an integer too large in either direction stands for the largest number. -/
def unsigned (negative : Bool) (n : Nat) : Nat :=
  if 2 ^ 64 ≤ n then 2 ^ 64 - 1 else if negative then (2 ^ 64 - n) % 2 ^ 64 else n

theorem unsigned_zero (negative : Bool) : unsigned negative 0 = 0 := by
  cases negative <;> rfl

theorem toNat_readUnsigned (text : Bytes) :
    (readUnsigned text).toNat = unsigned (integer text).1 (integer text).2 := by
  unfold readUnsigned unsigned
  generalize integer text = r
  obtain ⟨negative, n⟩ := r
  dsimp only
  by_cases hn : 2 ^ 64 ≤ n
  · have hmax : 0xFFFFFFFFFFFFFFFF < n := by omega
    rw [if_pos hn, if_pos hmax]
    rfl
  · have hmax : ¬0xFFFFFFFFFFFFFFFF < n := by omega
    have hof : (UInt64.ofNat n).toNat = n := UInt64.toNat_ofNat_of_lt' (Nat.not_le.1 hn)
    rw [if_neg hn, if_neg hmax]
    cases negative with
    | true =>
      rw [if_pos rfl, if_pos rfl, UInt64.toNat_neg, hof]
      rfl
    | false => exact hof

end Numeral

end SqlAccess
