import SqlAccess.Proofs.Slots

/-!
# Texts side by side

A token ends where it ends in every text that begins with it, unless what follows lets it go on: a
range without its closing byte takes in all of it, a name takes in the bytes that can continue it,
and a dash takes in another dash (`Token.EndsBefore`). So the tokens of two texts side by side are
the tokens of the first and those of the second if the last token of the first ends there
(`cut_append`), and the second text is scanned as it is on its own, with its slots counted on from
those of the first (`expandText_append`).
-/

namespace SqlAccess

namespace Template

variable {b c : UInt8} {rest next body text : Bytes} {t : Token}

/-! ## Ranges without an end -/

/-- A range whose closing byte is missing. -/
def Token.IsUnclosed : Token → Prop
  | range bytes => ∃ r ∈ ranges, r.1 <+: bytes ∧ r.2 ∉ bytes.drop r.1.length
  | _ => False

theorem isUnclosed_comment :
    (Token.range (0x2D :: 0x2D :: body)).IsUnclosed ↔ 0x0A ∉ body := by
  simp [Token.IsUnclosed, ranges]

theorem isUnclosed_of_closing (h : closing? b = some c) :
    (Token.range (b :: body)).IsUnclosed ↔ c ∉ body := by
  unfold closing? at h
  split at h
  · next hb =>
    obtain rfl := Option.some.inj h
    rcases hb with rfl | rfl | rfl <;> simp [Token.IsUnclosed, ranges]
  · split at h
    · next hb =>
      obtain rfl := Option.some.inj h
      simp [Token.IsUnclosed, ranges, hb]
    · cases h

/-- A range ends at its first closing byte, whatever follows. -/
theorem through_append (h : c ∉ through c text → next = []) :
    through c (through c text ++ next) = through c text ∧
      behind c (through c text ++ next) = next := by
  induction text with
  | nil =>
    obtain rfl := h List.not_mem_nil
    exact ⟨rfl, rfl⟩
  | cons b text ih =>
    rw [through_cons]
    by_cases hb : b = c
    · simp [hb, through_cons, behind_cons]
    · have hrest : c ∉ through c text → next = [] := by
        intro hmem
        apply h
        rw [through_cons, if_neg hb, List.mem_cons, not_or]
        exact ⟨Ne.symm hb, hmem⟩
      obtain ⟨hin, hout⟩ := ih hrest
      rw [if_neg hb, List.cons_append, through_cons, behind_cons, if_neg hb, if_neg hb, hin]
      exact ⟨rfl, hout⟩

theorem behind_of_notMem_through (h : c ∉ through c text) : behind c text = [] := by
  induction text with
  | nil => rfl
  | cons b text ih =>
    rw [through_cons, List.mem_cons, not_or] at h
    rw [if_neg (Ne.symm h.1)] at h
    rw [behind_cons, if_neg (Ne.symm h.1), ih h.2]

/-! ## Where a token ends -/

/-- The first token of a text, and what it leaves of it. -/
inductive FirstToken : UInt8 → Bytes → Token → Bytes → Prop
  | comment (rest : Bytes) :
    FirstToken 0x2D (0x2D :: rest) (.range (0x2D :: 0x2D :: through 0x0A rest)) (behind 0x0A rest)
  | quoted {b c : UInt8} {rest : Bytes} (h : closing? b = some c) :
    FirstToken b rest (.range (b :: through c rest)) (behind c rest)
  | parameter {rest : Bytes} (h : rest.head?.any isNameStart) :
    FirstToken 0x3A rest (.parameter (rest.takeWhile isNamePart)) (rest.dropWhile isNamePart)
  | other {b : UInt8} {rest : Bytes} (hcomment : ¬(b = 0x2D ∧ rest.head? = some 0x2D))
    (hquoted : closing? b = none) (hname : b = 0x3A → ¬rest.head?.any isNameStart) :
    FirstToken b rest (.other b) rest

theorem firstToken_first (b : UInt8) (rest : Bytes) :
    FirstToken b rest (first b rest).1 (first b rest).2 := by
  by_cases hd : b = 0x2D ∧ rest.head? = some 0x2D
  · obtain ⟨rfl, hrest⟩ := hd
    obtain ⟨rest, rfl⟩ := List.head?_eq_some_iff.1 hrest
    rw [first_of_comment]
    exact .comment rest
  cases hc : closing? b with
  | some c =>
    rw [first_of_closing hd hc]
    exact .quoted hc
  | none =>
    by_cases hname : b = 0x3A ∧ rest.head?.any isNameStart
    · obtain ⟨rfl, hname⟩ := hname
      rw [first_of_name hname]
      exact .parameter hname
    · have hname : b = 0x3A → ¬rest.head?.any isNameStart := fun hb h => hname ⟨hb, h⟩
      rw [first_of_other hd hc hname]
      exact .other hd hc hname

/-- Whether a token ends in front of a byte or the end of the text, and cannot go on. -/
def Token.EndsBefore (next : Option UInt8) : Token → Prop
  | range bytes => (range bytes).IsUnclosed → next = none
  | parameter _ => ¬next.any isNamePart
  | other b => (b = 0x2D → next ≠ some 0x2D) ∧ (b = 0x3A → ¬next.any isNameStart)

theorem ne_dash_of_closing (h : closing? b = some c) : b ≠ 0x2D := by
  rintro rfl
  simp [closing?] at h

theorem not_any_head?_dropWhile (text : Bytes) :
    ¬(text.dropWhile isNamePart).head?.any isNamePart := by
  cases h : (text.dropWhile isNamePart).head? with
  | none => simp
  | some c => simpa [h] using List.head?_dropWhile_not isNamePart text

namespace FirstToken

variable {left : Bytes}

/-- What a token leaves of its text is what it ends before. -/
theorem endsBefore (h : FirstToken b rest t left) : t.EndsBefore left.head? := by
  cases h with
  | comment rest =>
    intro hopen
    rw [behind_of_notMem_through (isUnclosed_comment.1 hopen)]
    rfl
  | quoted hc =>
    intro hopen
    rw [behind_of_notMem_through ((isUnclosed_of_closing hc).1 hopen)]
    rfl
  | parameter h => exact not_any_head?_dropWhile rest
  | other hd hc hname => exact ⟨fun hb hnext => hd ⟨hb, hnext⟩, hname⟩

/-- The first token of a text is the first token of every other text in which it ends at the same
place. -/
theorem cut_source_append (h : FirstToken b rest t left) (hend : t.EndsBefore next.head?) :
    cut (t.source ++ next) = t :: cut next := by
  cases h with
  | comment rest =>
    have hclosed : 0x0A ∉ through 0x0A rest → next = [] := fun hmem =>
      List.head?_eq_none_iff.1 (hend (isUnclosed_comment.2 hmem))
    obtain ⟨hthrough, hbehind⟩ := through_append hclosed
    simp only [Token.source, List.cons_append]
    rw [cut, first_of_comment, hthrough, hbehind]
  | @quoted _ c _ hc =>
    have hclosed : c ∉ through c rest → next = [] := fun hmem =>
      List.head?_eq_none_iff.1 (hend ((isUnclosed_of_closing hc).2 hmem))
    obtain ⟨hthrough, hbehind⟩ := through_append hclosed
    simp only [Token.source, List.cons_append]
    rw [cut, first_of_closing (fun hd => ne_dash_of_closing hc hd.1) hc, hthrough, hbehind]
  | parameter h =>
    have hnone : next.takeWhile isNamePart = [] ∧ next.dropWhile isNamePart = next := by
      cases next with
      | nil => simp
      | cons c next =>
        have hc : isNamePart c = false := by simpa [Token.EndsBefore] using hend
        simp [hc]
    have hall : ∀ c ∈ rest.takeWhile isNamePart, isNamePart c :=
      List.all_eq_true.1 List.all_takeWhile
    have hstart : (rest.takeWhile isNamePart ++ next).head?.any isNameStart := by
      obtain ⟨c, hhead, hc⟩ := (Option.any_eq_true _ _).1 h
      cases rest with
      | nil => simp at hhead
      | cons d rest =>
        obtain rfl : d = c := by simpa using hhead
        have hpart : isNamePart d := by simp [isNamePart, hc]
        simp [hpart, hc]
    simp only [Token.source, List.cons_append]
    rw [cut, first_of_name hstart, List.takeWhile_append_of_pos hall,
      List.dropWhile_append_of_pos hall, hnone.1, hnone.2, List.append_nil]
  | other hd hc hname =>
    simp only [Token.source, List.cons_append, List.nil_append]
    rw [cut, first_of_other (fun hd => hend.1 hd.1 hd.2) hc hend.2]

end FirstToken

/-- The last token of a list, or of the list with a token in front. -/
theorem getLast?_cons_of_mem {ts : List Token} {u : Token} (h : u ∈ ts.getLast?) :
    u ∈ (t :: ts).getLast? := by
  rw [List.getLast?_cons, h]
  rfl

/-- The tokens of two texts side by side, where the last token of the first ends at the second. -/
theorem cut_append {a b : Bytes} (h : ∀ t ∈ (cut a).getLast?, t.EndsBefore b.head?) :
    cut (a ++ b) = cut a ++ cut b := by
  induction a using cut.induct with
  | case1 => simp [cut]
  | case2 c rest ih =>
    have hfirst := firstToken_first c rest
    have htext : c :: rest ++ b = (first c rest).1.source ++ ((first c rest).2 ++ b) := by
      rw [← List.append_assoc, source_append_first]
    rw [cut] at h ⊢
    have hend : (first c rest).1.EndsBefore ((first c rest).2 ++ b).head? := by
      cases hleft : (first c rest).2 with
      | nil => exact h _ (by simp [hleft, cut])
      | cons d left => simpa [hleft] using hfirst.endsBefore
    rw [htext, hfirst.cut_source_append hend, ih fun t ht => h t (getLast?_cons_of_mem ht)]
    rfl

/-! ## Scanning texts side by side -/

/-- No token goes across the boundary between two texts: the first one does not end inside a range,
or with a parameter whose name goes on in the second one, and there is no dash on both sides. -/
structure Separate (a b : Bytes) : Prop where
  range : ∀ t ∈ (cut a).getLast?, ¬t.IsUnclosed
  name : ∀ p, (cut a).getLast? = some (.parameter p) → ¬b.head?.any isNamePart
  dash : ¬(a.getLast? = some 0x2D ∧ b.head? = some 0x2D)

theorem getLast?_of_cut {a : Bytes} (h : (cut a).getLast? = some (.other c)) :
    a.getLast? = some c := by
  obtain ⟨before, hcut⟩ := List.getLast?_eq_some_iff.1 h
  rw [← source_cut a, hcut]
  simp [Token.source]

theorem Separate.endsBefore {a b : Bytes} (h : Separate a b) (ha : ∀ t ∈ cut a, ¬t.IsRefused) :
    ∀ t ∈ (cut a).getLast?, t.EndsBefore b.head? := by
  intro t ht
  cases t with
  | range bytes => exact fun hopen => absurd hopen (h.range _ ht)
  | parameter p => exact h.name p ht
  | other c =>
    constructor
    · rintro rfl hb
      exact h.dash ⟨getLast?_of_cut ht, hb⟩
    · rintro rfl
      exact absurd (.inr rfl) (ha _ (List.mem_of_getLast? ht))

/-- A text behind one that is scanned, where no token goes across the boundary, is scanned as it is
on its own: the SQL of both stands side by side, and the slots of the second text are counted on
from the placeholders of the first. -/
theorem expandText_append {a b : Bytes} {sizes : ListSizes} {ea : Expansion}
    (ha : expandText sizes a = .ok ea) (h : Separate a b) :
    ((∃ e, expandText sizes (a ++ b) = .ok e) ↔ ∃ eb, expandText sizes b = .ok eb) ∧
      ∀ e eb, expandText sizes (a ++ b) = .ok e → expandText sizes b = .ok eb →
        e.sql = ea.sql ++ eb.sql ∧ e.count = ea.count + eb.count ∧
        ∀ name, (e.slots.find? name).getD [] = (ea.slots.find? name).getD [] ++
          ((eb.slots.find? name).getD []).map (· + ea.count) := by
  obtain ⟨haccepted, rfl⟩ := expandText_eq_ok_iff.1 ha
  have hcut : cut (a ++ b) = cut a ++ cut b := cut_append (h.endsBefore haccepted)
  constructor
  · rw [exists_expandText_iff, exists_expandText_iff, hcut]
    constructor
    · intro hab t ht
      exact hab t (List.mem_append_right _ ht)
    · intro hb t ht
      rcases List.mem_append.1 ht with ht | ht
      · exact haccepted t ht
      · exact hb t ht
  · intro e eb he heb
    obtain ⟨-, rfl⟩ := expandText_eq_ok_iff.1 he
    obtain ⟨-, rfl⟩ := expandText_eq_ok_iff.1 heb
    have howners : (cut (a ++ b)).flatMap (Token.owners sizes) =
        (cut a).flatMap (Token.owners sizes) ++ (cut b).flatMap (Token.owners sizes) := by
      rw [hcut, List.flatMap_append]
    refine ⟨?_, ?_, Expansion.getD_slots_of_append howners⟩
    · rw [hcut]
      exact List.flatMap_append
    · exact (congrArg List.length howners).trans List.length_append

/-- A quoted name is none, and the slots of the second text are counted on from the first. -/
theorem expandText_append_quoted :
    Separate "':x':a" ",:A,:a--" ∧
      ∃ e, expandText .empty ("':x':a" ++ ",:A,:a--") = .ok e ∧ e.sql = "':x'?,?,?--" ∧
        (e.slots.find? "a").getD [] = [0, 2] := by
  have hcut : cut "':x':a" = [.range "':x'", .parameter "a"] := by decide +kernel
  have hseparate : Separate "':x':a" ",:A,:a--" := by
    constructor
    · intro t ht
      rw [hcut] at ht
      obtain rfl : .parameter "a" = t := Option.some.inj ht
      exact id
    · intro p _
      decide
    · decide
  have ha : expandText .empty "':x':a" = .ok _ := rfl
  have hb : expandText .empty ",:A,:a--" = .ok _ := rfl
  obtain ⟨hok, hjoined⟩ := expandText_append ha hseparate
  obtain ⟨e, he⟩ := hok.2 ⟨_, hb⟩
  obtain ⟨hsql, -, hslots⟩ := hjoined e _ he hb
  refine ⟨hseparate, e, he, ?_, ?_⟩
  · rw [hsql]
    decide
  · rw [hslots]
    decide

end Template

end SqlAccess
