import SqlAccess.Name.Quoted

/-!
# Reading quoted identifiers

A quoted identifier is read as the name that it was written for, whatever the name contains, and
what is not quoted is read as it is (`Quoted.names_read_back`). A quote byte inside that is not
doubled is kept: of any number of quote bytes side by side the upper half is read
(`Quoted.undoubled_replicate`), apart from what is around them (`Quoted.undoubled_append`).
-/

namespace SqlAccess.Quoted

variable {q b : UInt8} {name text front rest : Bytes}

/-! ## Doubled quote bytes -/

theorem doubled_eq_flatMap (q : UInt8) (name : Bytes) :
    doubled q name = name.flatMap fun b => if b = q then [q, q] else [b] := by
  induction name with
  | nil => rfl
  | cons b name ih => by_cases hb : b = q <;> simp [doubled, hb, ih]

theorem doubled_of_notMem (h : q ∉ name) : doubled q name = name := by
  induction name with
  | nil => rfl
  | cons b name ih =>
    obtain ⟨hb, hname⟩ := not_or.1 (mt List.mem_cons.2 h)
    rw [doubled, if_neg (Ne.symm hb), ih hname]

theorem length_doubled (q : UInt8) (name : Bytes) :
    (doubled q name).length = name.length + name.count q := by
  induction name with
  | nil => rfl
  | cons b name ih =>
    by_cases hb : b = q
    · simp [doubled, hb, ih]
      omega
    · simp [doubled, hb, ih]
      omega

theorem undoubled_cons_of_ne (hb : b ≠ q) (text : Bytes) :
    undoubled q (b :: text) = b :: undoubled q text := by
  cases text with
  | nil => rfl
  | cons c rest => simp [undoubled, hb]

theorem undoubled_doubled (q : UInt8) (name : Bytes) : undoubled q (doubled q name) = name := by
  induction name with
  | nil => rfl
  | cons b name ih =>
    by_cases hb : b = q
    · simp [doubled, undoubled, hb, ih]
    · rw [doubled, if_neg hb, undoubled_cons_of_ne hb, ih]

/-- Two texts are read apart if quote bytes do not meet between them. -/
theorem undoubled_append (h : front.getLast? ≠ some q ∨ rest.head? ≠ some q) :
    undoubled q (front ++ rest) = undoubled q front ++ undoubled q rest := by
  fun_induction undoubled q front with
  | case1 a b tail hquotes ih =>
    have htail : tail.getLast? ≠ some q ∨ rest.head? ≠ some q := by
      cases tail with
      | nil => exact .inl nofun
      | cons c tail => exact h
    simp [undoubled, hquotes, ih htail]
  | case2 a b tail hquotes ih =>
    have htail : (b :: tail).getLast? ≠ some q ∨ rest.head? ≠ some q := h
    simp only [List.cons_append] at ih ⊢
    rw [undoubled, if_neg hquotes, ih htail]
  | case3 front hshort =>
    rcases front with _ | ⟨a, _ | ⟨b, tail⟩⟩
    · rfl
    · cases rest with
      | nil => rfl
      | cons c rest =>
        have hquotes : ¬(a = q ∧ c = q) := by
          rintro ⟨rfl, rfl⟩
          simp at h
        simp [undoubled, hquotes]
    · exact absurd rfl (hshort a b tail)

/-- Of quote bytes side by side the upper half is read. -/
theorem undoubled_replicate (q : UInt8) :
    ∀ n, undoubled q (List.replicate n q) = List.replicate ((n + 1) / 2) q
  | 0 => rfl
  | 1 => rfl
  | n + 2 => by
    have hhalf : (n + 2 + 1) / 2 = (n + 1) / 2 + 1 := by omega
    simp [hhalf, List.replicate_succ, undoubled, undoubled_replicate q n]

/-! ## Quotes -/

theorem isQuoted_iff : isQuoted q text ↔
    text.head? = some q ∧ text.getLast? = some q ∧ 2 ≤ text.length := by
  simp only [isQuoted, Bool.and_eq_true, decide_eq_true_eq, beq_iff_eq]
  exact ⟨fun ⟨⟨hlength, hfirst⟩, hlast⟩ => ⟨hfirst, hlast, hlength⟩,
    fun ⟨hfirst, hlast, hlength⟩ => ⟨⟨hlength, hfirst⟩, hlast⟩⟩

/-- A text between quote bytes. -/
def enclosed (q : UInt8) (text : Bytes) : Bytes := q :: (text ++ [q])

/-- The outer quotes are taken away. -/
theorem unquote_enclosed (q : UInt8) (text : Bytes) :
    unquote q (enclosed q text) = undoubled q text := by
  have hquoted : isQuoted q (enclosed q text) := by
    rw [isQuoted_iff, enclosed, ← List.cons_append, List.getLast?_concat]
    simp
  rw [unquote, if_pos hquoted, enclosed, List.tail_cons, List.dropLast_concat]

theorem quote_eq_enclosed (q : UInt8) (name : Bytes) :
    quote q name = enclosed q (name.flatMap fun b => if b = q then [q, q] else [b]) := by
  rw [← doubled_eq_flatMap]
  rfl

theorem unquote_quote (q : UInt8) (name : Bytes) : unquote q (quote q name) = name :=
  (unquote_enclosed q (doubled q name)).trans (undoubled_doubled q name)

/-- A name is quoted by doubling its quote bytes and putting one on either side, and is read back
from that. A text that does not start and end with a quote byte, or is a single one, is read as it
is. Quote bytes that are not doubled are halved, rounding up, and do not change what is read on
either side of them. -/
theorem names_read_back (q : UInt8) :
    (∀ name : Bytes,
      quote q name = enclosed q (name.flatMap fun b => if b = q then [q, q] else [b]) ∧
        unquote q (quote q name) = name) ∧
    (∀ text : Bytes, ¬(text.head? = some q ∧ text.getLast? = some q ∧ 2 ≤ text.length) →
      unquote q text = text) ∧
    ∀ (front rest : Bytes) (n : Nat), front.getLast? ≠ some q → rest.head? ≠ some q →
      unquote q (enclosed q (front ++ (List.replicate n q ++ rest))) =
        unquote q (enclosed q front) ++
          (List.replicate ((n + 1) / 2) q ++ unquote q (enclosed q rest)) := by
  refine ⟨?_, ?_, ?_⟩
  · intro name
    exact ⟨quote_eq_enclosed q name, unquote_quote q name⟩
  · intro text h
    rw [unquote, if_neg (mt isQuoted_iff.1 h)]
  · intro front rest n hfront hrest
    simp only [unquote_enclosed]
    rw [undoubled_append (.inl hfront), undoubled_append (.inr hrest), undoubled_replicate]

/-- A name with a quoted word at its end is read back, a lone quote is read as it is, and of three
quotes side by side two are read. -/
theorem quoted_word_read_back :
    unquote doubleQuote "\"say \"\"hi\"\"\"" = "say \"hi\"" ∧
    unquote doubleQuote "\"" = "\"" ∧ unquote doubleQuote "\"a\"\"\"b\"" = "a\"\"b" := by
  obtain ⟨hnames, htexts, hruns⟩ := names_read_back doubleQuote
  exact ⟨(hnames "say \"hi\"").2, htexts "\"" (by decide), hruns "a" "b" 3 (by decide) (by decide)⟩

end SqlAccess.Quoted
