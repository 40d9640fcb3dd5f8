import SqlAccess.Name.Quoted
import SqlAccess.Proofs.Query.Nesting

/-!
# Formats filled in

A format is read from left to right (`Source.marks`): `%%` and `%s` are pairs, and any other byte
stands for itself, a percent sign included that is followed by another byte or by none. The text of
the format is what stands between the holes, with the texts of the arguments between
(`Source.weave`). What an argument says is not read again, and arguments without a hole do not count
(`Query.format_filled`).
-/

namespace SqlAccess

namespace Source

/-! ## Reading a format -/

/-- What a format consists of. -/
inductive Mark
  /-- A byte that stands for itself. -/
  | byte (b : UInt8)
  /-- The pair `%%`, for a percent sign. -/
  | percent
  /-- The pair `%s`, for an argument. -/
  | hole
  deriving DecidableEq

namespace Mark

/-- How a mark is written. -/
def source : Mark → Bytes
  | byte b => [b]
  | percent => [0x25, 0x25]
  | hole => [0x25, 0x73]

/-- What a mark stands for; a hole is not filled yet. -/
def literal : Mark → Bytes
  | byte b => [b]
  | percent => [0x25]
  | hole => []

end Mark

/-- The marks of a format, from left to right. -/
def marks : Bytes → List Mark
  | 0x25 :: 0x25 :: rest => .percent :: marks rest
  | 0x25 :: 0x73 :: rest => .hole :: marks rest
  | b :: rest => .byte b :: marks rest
  | [] => []

/-- A byte in front of others is not the first one of a pair. -/
def Alone (b : UInt8) (rest : Bytes) : Prop :=
  b = 0x25 → rest.head? ≠ some 0x25 ∧ rest.head? ≠ some 0x73

/-- No byte that stands for itself is the first one of a pair. -/
def Proper : List Mark → Prop
  | [] => True
  | .byte b :: ms => Alone b (ms.flatMap Mark.source) ∧ Proper ms
  | _ :: ms => Proper ms

variable {b : UInt8} {rest : Bytes} {ms : List Mark} {args : List (Except Fault Bytes)}

theorem marks_cons (h : Alone b rest) : marks (b :: rest) = .byte b :: marks rest := by
  rw [marks]
  · rintro tail rfl rfl
    exact (h rfl).1 rfl
  · rintro tail rfl rfl
    exact (h rfl).2 rfl

theorem fill_cons (h : Alone b rest) : fill (b :: rest) args = (fill rest args).map (b :: ·) := by
  rw [fill]
  · rintro tail rfl rfl
    exact (h rfl).1 rfl
  · rintro tail - rfl rfl
    exact (h rfl).2 rfl
  · rintro tail arg args - rfl rfl
    exact (h rfl).2 rfl

/-- The marks of a format, written one after another, are the format. -/
theorem source_marks (f : Bytes) : (marks f).flatMap Mark.source = f := by
  fun_induction marks f with
  | case1 rest ih => exact congrArg (0x25 :: 0x25 :: ·) ih
  | case2 rest ih => exact congrArg (0x25 :: 0x73 :: ·) ih
  | case3 b rest _ _ ih => exact congrArg (b :: ·) ih
  | case4 => rfl

theorem proper_marks (f : Bytes) : Proper (marks f) := by
  fun_induction marks f with
  | case1 rest ih => exact ih
  | case2 rest ih => exact ih
  | case3 b rest hpercent hhole ih =>
    refine ⟨?_, ih⟩
    rw [source_marks]
    intro hb
    constructor
    · intro hhead
      obtain ⟨tail, htail⟩ := List.head?_eq_some_iff.1 hhead
      exact hpercent tail hb htail
    · intro hhead
      obtain ⟨tail, htail⟩ := List.head?_eq_some_iff.1 hhead
      exact hhole tail hb htail
  | case4 => trivial

/-- Marks are read as they are written. -/
theorem marks_source (h : Proper ms) : marks (ms.flatMap Mark.source) = ms := by
  induction ms with
  | nil => rfl
  | cons m ms ih =>
    cases m with
    | byte b => exact (marks_cons h.1).trans (congrArg (.byte b :: ·) (ih h.2))
    | percent => exact congrArg (.percent :: ·) (ih h)
    | hole => exact congrArg (.hole :: ·) (ih h)

/-- There is one way to read a format. -/
theorem marks_eq_iff {f : Bytes} : marks f = ms ↔ ms.flatMap Mark.source = f ∧ Proper ms := by
  constructor
  · rintro rfl
    exact ⟨source_marks f, proper_marks f⟩
  · rintro ⟨rfl, h⟩
    exact marks_source h

/-! ## Filling the holes -/

/-- The literal texts of a format: in front of the first hole, between two holes and behind the
last one. -/
def literals (ms : List Mark) : List Bytes :=
  (ms.splitOnP (· = .hole)).map (·.flatMap Mark.literal)

/-- Literal texts with other texts between them. -/
def weave (literals texts : List Bytes) : Bytes :=
  (List.zipWith (· ++ ·) literals (texts ++ [[]])).flatten

theorem literals_hole (ms : List Mark) : literals (.hole :: ms) = [] :: literals ms := by
  rw [literals, List.splitOnP_cons_eq_if_modifyHead]
  rfl

theorem literals_cons {m : Mark} (h : m ≠ .hole) (ms : List Mark) :
    literals (m :: ms) = (literals ms).modifyHead (m.literal ++ ·) := by
  rw [literals, List.splitOnP_cons_eq_if_modifyHead, if_neg (by simpa using h), literals]
  cases ms.splitOnP (· = .hole) <;> simp

theorem literals_ne_nil (ms : List Mark) : literals ms ≠ [] := by
  simp [literals, List.splitOnP_ne_nil]

theorem weave_hole (ms : List Mark) (text : Bytes) (texts : List Bytes) :
    weave (literals (.hole :: ms)) (text :: texts) = text ++ weave (literals ms) texts := by
  simp [weave, literals_hole]

theorem weave_cons {m : Mark} (h : m ≠ .hole) (ms : List Mark) (texts : List Bytes) :
    weave (literals (m :: ms)) texts = m.literal ++ weave (literals ms) texts := by
  obtain ⟨first, more, hliterals⟩ := List.exists_cons_of_ne_nil (literals_ne_nil ms)
  rw [literals_cons h, hliterals]
  cases texts <;> simp [weave]

theorem length_literals (ms : List Mark) : (literals ms).length = ms.count .hole + 1 := by
  induction ms with
  | nil => rfl
  | cons m ms ih =>
    by_cases h : m = .hole
    · subst h
      rw [literals_hole, List.length_cons, ih, List.count_cons_self]
    · rw [literals_cons h, List.length_modifyHead, ih, List.count_cons_of_ne h]

@[simp] theorem count_hole_byte (b : UInt8) (ms : List Mark) :
    (Mark.byte b :: ms).count .hole = ms.count .hole :=
  List.count_cons_of_ne (by simp)

@[simp] theorem count_hole_percent (ms : List Mark) :
    (Mark.percent :: ms).count .hole = ms.count .hole :=
  List.count_cons_of_ne (by simp)

/-- Where there are more holes than arguments, one of them cannot be filled. -/
theorem fill_of_lt {texts : List Bytes} (hms : Proper ms) (h : texts.length < ms.count .hole) :
    fill (ms.flatMap Mark.source) (texts.map .ok) = .error .missingArgument := by
  induction ms generalizing texts with
  | nil => simp at h
  | cons m ms ih =>
    cases m with
    | byte b =>
      rw [count_hole_byte] at h
      exact (fill_cons hms.1).trans (map_eq_error_iff.2 (ih hms.2 h))
    | percent =>
      rw [count_hole_percent] at h
      exact map_eq_error_iff.2 (ih hms h)
    | hole =>
      cases texts with
      | nil => rfl
      | cons text texts =>
        have hlt : texts.length < ms.count .hole := by simpa using h
        exact bind_eq_error_iff.2 (.inr ⟨text, rfl, bind_eq_error_iff.2 (.inl (ih hms hlt))⟩)

/-- Where there is an argument for each hole, the arguments are put into the holes in their order,
and the others are not looked at. -/
theorem fill_of_le (args : List (Except Fault Bytes)) {texts : List Bytes} (hms : Proper ms)
    (h : ms.count .hole ≤ texts.length) :
    fill (ms.flatMap Mark.source) (texts.map .ok ++ args) =
      .ok (weave (literals ms) (texts.take (ms.count .hole))) := by
  induction ms generalizing texts with
  | nil => rfl
  | cons m ms ih =>
    cases m with
    | byte b =>
      rw [count_hole_byte] at h ⊢
      rw [weave_cons (by simp)]
      exact (fill_cons hms.1).trans (map_eq_ok_iff.2 ⟨_, ih hms.2 h, rfl⟩)
    | percent =>
      rw [count_hole_percent] at h ⊢
      rw [weave_cons (by simp)]
      exact map_eq_ok_iff.2 ⟨_, ih hms h, rfl⟩
    | hole =>
      rw [List.count_cons_self] at h ⊢
      cases texts with
      | nil => simp at h
      | cons text texts =>
        have hle : ms.count .hole ≤ texts.length := by simpa using h
        rw [List.take_succ_cons, weave_hole]
        exact bind_eq_ok_iff.2 ⟨text, rfl, bind_eq_ok_iff.2 ⟨_, ih hms hle, rfl⟩⟩

/-! ## Doubled percent signs -/

/-- A byte of a text, written as it has to be in a format. -/
def Mark.ofByte (b : UInt8) : Mark := if b = 0x25 then .percent else .byte b

theorem ofByte_ne_hole (b : UInt8) : Mark.ofByte b ≠ .hole := by
  unfold Mark.ofByte
  split <;> simp

theorem source_ofByte (t : Bytes) :
    (t.map Mark.ofByte).flatMap Mark.source = Quoted.doubled 0x25 t := by
  induction t with
  | nil => rfl
  | cons b t ih =>
    by_cases hb : b = 0x25 <;> simp [Mark.ofByte, hb, Mark.source, Quoted.doubled, ← ih]

theorem proper_ofByte (t : Bytes) : Proper (t.map Mark.ofByte) := by
  induction t with
  | nil => trivial
  | cons b t ih =>
    by_cases hb : b = 0x25
    · simpa [Mark.ofByte, hb, Proper] using ih
    · simpa [Mark.ofByte, hb, Proper, Alone] using ih

theorem literal_ofByte (b : UInt8) : (Mark.ofByte b).literal = [b] := by
  unfold Mark.ofByte
  split
  · next hb => rw [hb, Mark.literal]
  · rfl

theorem weave_ofByte (t : Bytes) : weave (literals (t.map Mark.ofByte)) [] = t := by
  induction t with
  | nil => rfl
  | cons b t ih =>
    rw [List.map_cons, weave_cons (ofByte_ne_hole b), ih, literal_ofByte, List.singleton_append]

/-- A text of which each percent sign is written twice is a format without holes. -/
theorem fill_doubled (t : Bytes) (args : List (Except Fault Bytes)) :
    fill (Quoted.doubled 0x25 t) args = .ok t := by
  have hcount : (t.map Mark.ofByte).count .hole = 0 := by
    rw [List.count_eq_zero, List.mem_map]
    rintro ⟨b, -, hb⟩
    exact ofByte_ne_hole b hb
  have hle : (t.map Mark.ofByte).count .hole ≤ ([] : List Bytes).length := hcount.le
  have hfill := fill_of_le args (proper_ofByte t) hle
  rw [source_ofByte, hcount, List.take_zero, weave_ofByte] at hfill
  exact hfill

end Source

/-! ## Format queries -/

namespace Query

open Source

/-- The text of a format query: where there are more holes than arguments there is none, else each
hole is filled with the text of the argument that has its number. What stands between the holes is
read in the one way there is, and what stands in an argument is not read. -/
theorem format_filled {template q : Query} {args : List Query} {info : DatabaseInfo} {f : Bytes}
    (hq : format (some template) (args.map some) = .ok q)
    (hf : template.source.textFor info = .ok f) :
    (∀ ms, marks f = ms ↔ ms.flatMap Mark.source = f ∧ Proper ms) ∧
      (literals (marks f)).length = (marks f).count .hole + 1 ∧
      (∀ texts : List Bytes, args.map (·.source.textFor info) = texts.map .ok →
        (args.length < (marks f).count .hole →
          ∃ fault, q.resolve info = .error fault ∧ fault.kind = .misuse) ∧
        ((marks f).count .hole ≤ args.length →
          ∃ text, text = weave (literals (marks f)) (texts.take ((marks f).count .hole)) ∧
            q.source.textFor info = .ok text ∧
            q.resolve info = Descriptor.create text q.declarations)) ∧
      ∀ t, f = Quoted.doubled 0x25 t → q.source.textFor info = .ok t := by
  have htext : q.source.textFor info = fill f (args.map (·.source.textFor info)) := by
    rw [(format_eq_ok_iff.1 hq).1, textFor, hf, textsFor_eq_map, List.map_map]
    rfl
  refine ⟨fun ms => marks_eq_iff, length_literals _, ?_, ?_⟩
  · intro texts hargs
    have hlength : args.length = texts.length := by
      simpa using congrArg List.length hargs
    rw [hargs] at htext
    rw [hlength]
    constructor
    · intro hlt
      have hfill := fill_of_lt (proper_marks f) hlt
      rw [source_marks, ← htext] at hfill
      exact ⟨.missingArgument, bind_eq_error_iff.2 (.inl hfill), rfl⟩
    · intro hle
      have hfill := fill_of_le [] (proper_marks f) hle
      rw [source_marks, List.append_nil, ← htext] at hfill
      refine ⟨_, rfl, hfill, ?_⟩
      rw [resolve, hfill]
      rfl
  · rintro t rfl
    rw [htext, fill_doubled]

/-- An argument that looks like a format is put in as it is, and one too many is left out. -/
theorem format_kept_literal :
    let of (sql : Bytes) : Query := { source := .text [] (some sql), declarations := {} }
    ∃ q, format (some (of "%s LIKE '%%%s' -- 5%"))
        [some (of "a"), some (of "%%%s"), some (of "c")] =
        .ok q ∧ q.source.textFor {} = .ok "a LIKE '%%%%s' -- 5%" := by
  intro of
  let args : List Query := [of "a", of "%%%s", of "c"]
  have hf : (of "%s LIKE '%%%s' -- 5%").source.textFor {} = .ok "%s LIKE '%%%s' -- 5%" := rfl
  have hargs : args.map (·.source.textFor {}) =
      [("a" : Bytes), "%%%s", "c"].map Except.ok := rfl
  obtain ⟨q, hq⟩ : ∃ q, format (some (of "%s LIKE '%%%s' -- 5%")) (args.map some) = .ok q :=
    ⟨_, rfl⟩
  obtain ⟨-, -, hfilled, -⟩ := format_filled hq hf
  obtain ⟨text, htext, hsource, -⟩ := (hfilled _ hargs).2 (by decide)
  refine ⟨q, hq, ?_⟩
  rw [hsource, htext]
  rfl

end Query

end SqlAccess
