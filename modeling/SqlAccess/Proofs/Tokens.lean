import SqlAccess.Template.Expansion

/-!
# The grammar of query texts

A query text is cut into tokens from left to right (`Template.cut`). At each position the first of
these that applies is taken: a range that one of the openings of `Template.ranges` starts and that
runs through its closing byte, or to the end of the text; a parameter, which is a colon with a name
behind it; any other byte. The reader of templates goes through a text byte by byte and keeps a
context. It accepts the texts in which no token is a question mark or a colon on its own, and
reports the first such token of the others (`Template.expandFor_grammar`).
-/

namespace SqlAccess

namespace Template

/-- A token of a query text. -/
inductive Token
  /-- A range in which no parameter is recognised, with its opening and its closing byte. -/
  | range (bytes : Bytes)
  /-- A parameter, by its name as written. -/
  | parameter (name : Bytes)
  /-- A byte that belongs to neither. -/
  | other (b : UInt8)
  deriving DecidableEq

/-- What opens a range and the byte that closes it, in order of priority. -/
def ranges : List (Bytes × UInt8) :=
  [([0x2D, 0x2D], 0x0A), ([0x27], 0x27), ([0x22], 0x22), ([0x5B], 0x5D), ([0x60], 0x60)]

/-! ## Cutting a text -/

/-- A text through the first occurrence of a byte, or to its end. -/
def through (c : UInt8) (text : Bytes) : Bytes :=
  text.takeWhile (· != c) ++ (text.dropWhile (· != c)).take 1

/-- A text behind the first occurrence of a byte. -/
def behind (c : UInt8) (text : Bytes) : Bytes := (text.dropWhile (· != c)).drop 1

/-- The range that a text starts with, and what follows it. -/
def range? (text : Bytes) : Option (Token × Bytes) :=
  ranges.findSome? fun r =>
    if r.1.isPrefixOf text then
      some (.range (r.1 ++ through r.2 (text.drop r.1.length)),
        behind r.2 (text.drop r.1.length))
    else none

/-- The parameter that a text starts with, and what follows it. -/
def parameter? (text : Bytes) : Option (Token × Bytes) :=
  if text.head? = some 0x3A ∧ text.tail.head?.any isNameStart then
    some (.parameter (text.tail.takeWhile isNamePart), text.tail.dropWhile isNamePart)
  else none

/-- The first token of a text that is not empty, and what follows it. -/
def first (b : UInt8) (rest : Bytes) : Token × Bytes :=
  ((range? (b :: rest)).or (parameter? (b :: rest))).getD (.other b, rest)

/-- The text of a token. -/
def Token.source : Token → Bytes
  | range bytes => bytes
  | parameter name => 0x3A :: name
  | other b => [b]

theorem through_append_behind (c : UInt8) (text : Bytes) :
    through c text ++ behind c text = text := by
  rw [through, behind, List.append_assoc, List.take_append_drop, List.takeWhile_append_dropWhile]

theorem through_cons (c b : UInt8) (text : Bytes) :
    through c (b :: text) = b :: if b = c then [] else through c text := by
  by_cases hb : b = c <;> simp [through, hb]

theorem behind_cons (c b : UInt8) (text : Bytes) :
    behind c (b :: text) = if b = c then text else behind c text := by
  by_cases hb : b = c <;> simp [behind, hb]

/-- The openings of ranges as the reader recognises them, with one byte of lookahead. -/
theorem range?_cons (b : UInt8) (rest : Bytes) :
    range? (b :: rest) =
      if b = 0x2D ∧ rest.head? = some 0x2D then
        some (.range (0x2D :: 0x2D :: through 0x0A rest.tail), behind 0x0A rest.tail)
      else (closing? b).map fun c => (.range (b :: through c rest), behind c rest) := by
  have hdash : List.isPrefixOf [0x2D, 0x2D] (b :: rest) = true ↔
      b = 0x2D ∧ rest.head? = some 0x2D := by
    rw [List.isPrefixOf_iff_prefix, List.cons_prefix_cons, @eq_comm _ _ b]
    cases rest with
    | nil => simp
    | cons c rest => rw [List.cons_prefix_cons, @eq_comm _ _ c]; simp
  have hone (c : UInt8) : List.isPrefixOf [c] (b :: rest) = true ↔ b = c := by
    rw [List.isPrefixOf_iff_prefix, List.cons_prefix_cons, @eq_comm _ _ b]
    simp
  simp only [range?, ranges, List.findSome?_cons, List.findSome?_nil, hdash, hone]
  by_cases hd : b = 0x2D ∧ rest.head? = some 0x2D
  · simp [hd, List.drop_one]
  rw [if_neg hd, if_neg hd]
  by_cases h1 : b = 0x27
  · simp [h1, closing?]
  by_cases h2 : b = 0x22
  · simp [h2, closing?]
  by_cases h3 : b = 0x5B
  · simp [h3, closing?]
  by_cases h4 : b = 0x60
  · simp [h4, closing?]
  simp [h1, h2, h3, h4, closing?]

theorem parameter?_cons (b : UInt8) (rest : Bytes) :
    parameter? (b :: rest) =
      if b = 0x3A ∧ rest.head?.any isNameStart then
        some (.parameter (rest.takeWhile isNamePart), rest.dropWhile isNamePart)
      else none := by
  simp [parameter?]

/-- A token and what follows it are the text. -/
theorem source_append_of_range? {b : UInt8} {rest : Bytes} {t : Token × Bytes}
    (h : range? (b :: rest) = some t) : t.1.source ++ t.2 = b :: rest := by
  rw [range?_cons] at h
  split at h
  · next hd =>
    obtain ⟨rfl, hrest⟩ := hd
    obtain ⟨rest, rfl⟩ := List.head?_eq_some_iff.1 hrest
    obtain rfl := Option.some.inj h
    simp [Token.source, through_append_behind]
  · obtain ⟨c, -, rfl⟩ := Option.map_eq_some_iff.1 h
    simp [Token.source, through_append_behind]

theorem source_append_of_parameter? {b : UInt8} {rest : Bytes} {t : Token × Bytes}
    (h : parameter? (b :: rest) = some t) : t.1.source ++ t.2 = b :: rest := by
  rw [parameter?_cons] at h
  split at h
  · next hd =>
    obtain rfl := Option.some.inj h
    simp [Token.source, hd.1, List.takeWhile_append_dropWhile]
  · cases h

theorem source_append_first (b : UInt8) (rest : Bytes) :
    (first b rest).1.source ++ (first b rest).2 = b :: rest := by
  unfold first
  cases hr : range? (b :: rest) with
  | some t => simpa using source_append_of_range? hr
  | none =>
    cases hp : parameter? (b :: rest) with
    | some t => simpa using source_append_of_parameter? hp
    | none => simp [Token.source]

/-- No token is empty. -/
theorem source_first_ne_nil (b : UInt8) (rest : Bytes) : (first b rest).1.source ≠ [] := by
  unfold first
  rw [range?_cons, parameter?_cons]
  split
  · exact List.cons_ne_nil _ _
  · cases closing? b with
    | some c => exact List.cons_ne_nil _ _
    | none => split <;> exact List.cons_ne_nil _ _

theorem length_first_le (b : UInt8) (rest : Bytes) : (first b rest).2.length ≤ rest.length := by
  have h := congrArg List.length (source_append_first b rest)
  have hpos := List.length_pos_iff.2 (source_first_ne_nil b rest)
  rw [List.length_append, List.length_cons] at h
  omega

/-- The tokens of a text. -/
def cut : Bytes → List Token
  | [] => []
  | b :: rest => (first b rest).1 :: cut (first b rest).2
  termination_by text => text.length
  decreasing_by
    have h := length_first_le b rest
    simp only [List.length_cons]
    omega

/-- The tokens of a text are the whole of it. -/
theorem source_cut (text : Bytes) : (cut text).flatMap Token.source = text := by
  induction text using cut.induct with
  | case1 => simp [cut]
  | case2 b rest ih => rw [cut, List.flatMap_cons, ih, source_append_first]

example : cut "'it''s':n" = [.range "'it'", .range "'s'", .parameter "n"] := by cbv

/-! ## Reading tokens -/

/-- What a token adds to a template. -/
def Token.pieces : Token → List Piece
  | range bytes => bytes.map .byte
  | parameter name => [.parameter name]
  | other b => [.byte b]

/-- The tokens that a template cannot have. -/
def Token.IsRefused (t : Token) : Prop := t = .other 0x3F ∨ t = .other 0x3A

instance (t : Token) : Decidable t.IsRefused := inferInstanceAs (Decidable (_ ∨ _))

/-- Why a token cannot stand at a position, in front of a byte or the end of the text. -/
def Token.refusal (t : Token) (position : Nat) (next : Option UInt8) : Fault :=
  if t = .other 0x3F then .literalPlaceholder position
  else
    match next with
    | none => .missingParameterName
    | some c => .badParameterStart c (position + 1)

/-- The template of a list of tokens that starts at a position. -/
def ofTokens (position : Nat) : List Token → Except Fault Template
  | [] => .ok []
  | t :: rest =>
    if t.IsRefused then .error (t.refusal position (rest.flatMap Token.source).head?)
    else (ofTokens (position + t.source.length) rest).map (t.pieces ++ ·)

variable {context context' : Context} {position : Nat} {b : UInt8} {rest : Bytes}
  {pieces : List Piece} {f : Fault}

theorem parseFrom_of_read (h : read context position b rest.head? = .ok (pieces, context')) :
    parseFrom context position (b :: rest) =
      (parseFrom context' (position + 1) rest).map (pieces ++ ·) := by
  rw [parseFrom, h]
  cases hp : parseFrom context' (position + 1) rest with
  | error f => simp [hp, Except.map, bind, Except.bind]
  | ok t => simp [hp, Except.map, bind, Except.bind, pure, Except.pure]

theorem parseFrom_of_read_error (h : read context position b rest.head? = .error f) :
    parseFrom context position (b :: rest) = .error f := by
  rw [parseFrom, h]
  rfl

theorem map_map {α β γ : Type} (x : Except Fault α) (g : α → β) (h : β → γ) :
    (x.map g).map h = x.map (h ∘ g) := by
  cases x <;> rfl

/-- The rest of a range is read through its closing byte. -/
theorem parseFrom_range (c : UInt8) (position : Nat) (text : Bytes) :
    parseFrom (.range c) position text =
      (parseFrom .code (position + (through c text).length) (behind c text)).map
        ((through c text).map .byte ++ ·) := by
  induction text generalizing position with
  | nil => rfl
  | cons b rest ih =>
    have hread : read (.range c) position b rest.head? =
        .ok ([.byte b], if b = c then .code else .range c) := rfl
    rw [parseFrom_of_read hread]
    by_cases hb : b = c
    · simp [hb, through, behind, Except.map]
    · rw [if_neg hb, ih, map_map, through_cons, behind_cons, if_neg hb, if_neg hb,
        List.length_cons, Nat.add_right_comm, Nat.add_assoc]
      rfl

/-- The rest of a name is read to the last byte that can continue it. -/
theorem parseFrom_name (sofar : Bytes) (position : Nat) (text : Bytes) :
    parseFrom (.name sofar) position text =
      (parseFrom .code (position + (text.takeWhile isNamePart).length)
        (text.dropWhile isNamePart)).map
        (.parameter (sofar ++ text.takeWhile isNamePart) :: ·) := by
  induction text generalizing sofar position with
  | nil => simp [parseFrom, Context.finish, Except.map]
  | cons b rest ih =>
    by_cases hb : isNamePart b
    · have hread : read (.name sofar) position b rest.head? = .ok ([], .name (sofar ++ [b])) :=
        if_pos hb
      rw [parseFrom_of_read hread, ih, map_map]
      simp [hb, Nat.add_assoc, Nat.add_comm 1, Function.comp_def]
    · have hread : read (.name sofar) position b rest.head? =
          (read .code position b rest.head?).map fun p => (.parameter sofar :: p.1, p.2) :=
        if_neg hb
      rw [List.takeWhile_cons_of_neg hb, List.dropWhile_cons_of_neg hb, List.length_nil,
        Nat.add_zero, List.append_nil]
      cases hc : read .code position b rest.head? with
      | error f =>
        rw [parseFrom_of_read_error hc,
          parseFrom_of_read_error (hread.trans (by rw [hc]; rfl))]
        rfl
      | ok p =>
        obtain ⟨pieces, context⟩ := p
        rw [parseFrom_of_read (hread.trans (by rw [hc]; rfl)), parseFrom_of_read hc, map_map]
        rfl

theorem first_of_comment (rest : Bytes) :
    first 0x2D (0x2D :: rest) = (.range (0x2D :: 0x2D :: through 0x0A rest), behind 0x0A rest) := by
  simp [first, range?_cons]

theorem first_of_closing {c : UInt8} (hd : ¬(b = 0x2D ∧ rest.head? = some 0x2D))
    (hc : closing? b = some c) : first b rest = (.range (b :: through c rest), behind c rest) := by
  simp [first, range?_cons, hd, hc]

theorem first_of_name (h : rest.head?.any isNameStart) :
    first 0x3A rest = (.parameter (rest.takeWhile isNamePart), rest.dropWhile isNamePart) := by
  simp [first, range?_cons, parameter?_cons, closing?, h]

theorem first_of_other (hd : ¬(b = 0x2D ∧ rest.head? = some 0x2D)) (hc : closing? b = none)
    (h : b = 0x3A → ¬rest.head?.any isNameStart) : first b rest = (.other b, rest) := by
  simp only [first, range?_cons, if_neg hd, hc, parameter?_cons]
  rw [if_neg fun hp => h hp.1 hp.2]
  rfl

/-- A byte that starts neither a range nor a parameter is refused or stands for itself. -/
theorem readCode_of_other (hd : ¬(b = 0x2D ∧ rest.head? = some 0x2D)) (hc : closing? b = none)
    (h : ¬(b = 0x3A ∧ rest.head?.any isNameStart)) :
    readCode position b rest.head? =
      if (Token.other b).IsRefused then .error ((Token.other b).refusal position rest.head?)
      else .ok ([.byte b], .code) := by
  unfold readCode
  rw [if_neg hd, hc]
  by_cases hq : b = 0x3F
  · simp [hq, Token.IsRefused, Token.refusal]
  by_cases hcolon : b = 0x3A
  · cases hn : rest.head? with
    | none => simp [hcolon, Token.IsRefused, Token.refusal]
    | some c =>
      have hstart : isNameStart c = false := by simpa [hcolon, hn] using h
      simp [hcolon, hstart, Token.IsRefused, Token.refusal]
  · simp [hq, hcolon, Token.IsRefused]

/-- Outside every range and name, the reader goes on with the next token. -/
theorem parseFrom_code_cons (position : Nat) (b : UInt8) (rest : Bytes) :
    parseFrom .code position (b :: rest) =
      if (first b rest).1.IsRefused then
        .error ((first b rest).1.refusal position (first b rest).2.head?)
      else
        (parseFrom .code (position + (first b rest).1.source.length) (first b rest).2).map
          ((first b rest).1.pieces ++ ·) := by
  by_cases hd : b = 0x2D ∧ rest.head? = some 0x2D
  · -- Both dashes belong to the opening, so the closing byte is looked for behind the second.
    obtain ⟨rfl, hrest⟩ := hd
    obtain ⟨rest, rfl⟩ := List.head?_eq_some_iff.1 hrest
    have hfirst : read .code position 0x2D (some 0x2D) = .ok ([.byte 0x2D], .dash) := rfl
    have hsecond :
        read .dash (position + 1) 0x2D rest.head? = .ok ([.byte 0x2D], .range 0x0A) := rfl
    rw [first_of_comment, if_neg (by simp [Token.IsRefused]), parseFrom_of_read hfirst,
      parseFrom_of_read hsecond, parseFrom_range, map_map, map_map]
    have hlength : position + 1 + 1 + (through 0x0A rest).length =
        position + (Token.range (0x2D :: 0x2D :: through 0x0A rest)).source.length := by
      simp only [Token.source, List.length_cons]
      omega
    rw [hlength]
    simp [Token.pieces, Function.comp_def]
  cases hc : closing? b with
  | some c =>
    have hread : read .code position b rest.head? = .ok ([.byte b], .range c) := by
      simp [read, readCode, hd, hc]
    rw [first_of_closing hd hc, if_neg (by simp [Token.IsRefused]), parseFrom_of_read hread,
      parseFrom_range, map_map]
    simp [Token.source, Token.pieces, Nat.add_assoc, Nat.add_comm 1, Function.comp_def]
  | none =>
    by_cases hname : b = 0x3A ∧ rest.head?.any isNameStart
    · obtain ⟨rfl, hname⟩ := hname
      have hread : read .code position 0x3A rest.head? = .ok ([], .name []) := by
        obtain ⟨c, hhead, hstart⟩ := (Option.any_eq_true _ _).1 hname
        simp [read, readCode, hc, hhead, hstart]
      rw [first_of_name hname, if_neg (by simp [Token.IsRefused]), parseFrom_of_read hread,
        parseFrom_name, map_map]
      simp [Token.source, Token.pieces, Nat.add_assoc, Nat.add_comm 1, Function.comp_def]
    · have hother : first b rest = (.other b, rest) :=
        first_of_other hd hc fun hb h => hname ⟨hb, h⟩
      have hread : read .code position b rest.head? = _ := readCode_of_other hd hc hname
      rw [hother]
      split at hread
      · next hr => rw [parseFrom_of_read_error hread, if_pos hr]
      · next hr => rw [parseFrom_of_read hread, if_neg hr]; rfl

/-- The reader sees the tokens of a text. -/
theorem parseFrom_code (position : Nat) (text : Bytes) :
    parseFrom .code position text = ofTokens position (cut text) := by
  induction text using cut.induct generalizing position with
  | case1 => rw [cut, ofTokens]; rfl
  | case2 b rest ih => rw [cut, ofTokens, parseFrom_code_cons, ih, source_cut]

variable {ts before after : List Token} {t : Token}

theorem ofTokens_of_accepted (h : ∀ t ∈ ts, ¬t.IsRefused) (position : Nat) :
    ofTokens position ts = .ok (ts.flatMap Token.pieces) := by
  induction ts generalizing position with
  | nil => rfl
  | cons t ts ih =>
    rw [ofTokens, if_neg (h t List.mem_cons_self), ih fun u hu => h u (List.mem_cons_of_mem _ hu)]
    rfl

theorem ofTokens_of_refused (h : ∀ u ∈ before, ¬u.IsRefused) (ht : t.IsRefused)
    (position : Nat) :
    ofTokens position (before ++ t :: after) =
      .error (t.refusal (position + (before.flatMap Token.source).length)
        (after.flatMap Token.source).head?) := by
  induction before generalizing position with
  | nil => rw [List.nil_append, ofTokens, if_pos ht]; rfl
  | cons u before ih =>
    rw [List.cons_append, ofTokens, if_neg (h u List.mem_cons_self),
      ih fun v hv => h v (List.mem_cons_of_mem _ hv)]
    simp [Except.map, Nat.add_assoc]

theorem Token.IsRefused.length_source (ht : t.IsRefused) : t.source.length = 1 := by
  rcases ht with rfl | rfl <;> rfl

theorem Token.IsRefused.kind_refusal (ht : t.IsRefused) (position : Nat) (next : Option UInt8) :
    (t.refusal position next).kind = .parse := by
  rcases ht with rfl | rfl
  · rfl
  · cases next <;> rfl

/-- Behind a refused token stands the next byte of the text. -/
theorem head?_after_refused {text : Bytes} (hcut : cut text = before ++ t :: after)
    (ht : t.IsRefused) :
    (after.flatMap Token.source).head? = text[(before.flatMap Token.source).length + 1]? := by
  have htext := source_cut text
  rw [hcut, List.flatMap_append, List.flatMap_cons, ← List.append_assoc] at htext
  rw [← htext, List.getElem?_append_right (by simp [ht.length_source])]
  simp [ht.length_source, List.head?_eq_getElem?]

/-! ## The placeholders of tokens -/

/-- The names that own the placeholders of a token. -/
def Token.owners (sizes : ListSizes) : Token → List Bytes
  | parameter name =>
    match sizes.find? (Name.toLower name) with
    | none => [name]
    | some size => (List.range (elementCount size)).map (elementName (Name.toLower name))
  | _ => []

/-- The SQL of a token: that of a parameter is a placeholder for each of the names, with a comma and
a blank between two of them. -/
def Token.sql (sizes : ListSizes) : Token → Bytes
  | range bytes => bytes
  | other b => [b]
  | parameter name =>
    Bytes.joinWith ", " (List.replicate ((parameter name).owners sizes).length "?")

theorem flatMap_owners_pieces (sizes : ListSizes) (t : Token) :
    t.pieces.flatMap (Piece.owners sizes) = t.owners sizes := by
  cases t with
  | range bytes => simp [Token.pieces, Token.owners, List.flatMap_map, Piece.owners]
  | parameter name => exact List.flatMap_singleton _ _
  | other b => rfl

theorem flatMap_sql_pieces (sizes : ListSizes) (t : Token) :
    t.pieces.flatMap (Piece.sql sizes) = t.sql sizes := by
  cases t with
  | range bytes => simp [Token.pieces, Token.sql, List.flatMap_map, Piece.sql]
  | parameter name =>
    have howners := flatMap_owners_pieces sizes (.parameter name)
    simp only [Token.pieces, List.flatMap_singleton] at howners
    simp [Token.pieces, Token.sql, Piece.sql, howners, List.map_const']
  | other b => rfl

theorem expand_flatMap_pieces (sizes : ListSizes) (ts : List Token) :
    expand sizes (ts.flatMap Token.pieces) =
      { sql := ts.flatMap (Token.sql sizes), owners := ts.flatMap (Token.owners sizes) } := by
  simp only [expand, List.flatMap_assoc, flatMap_sql_pieces, flatMap_owners_pieces]

/-! ## Accepting and refusing texts -/

variable {text : Bytes} {sizes : ListSizes} {out : Expansion}

theorem expandFor_eq_ofTokens :
    expandFor (some out) sizes text = (ofTokens 0 (cut text)).map (expand sizes) := by
  rw [expandFor, expandText, parse, parseFrom_code]

theorem expandFor_of_accepted (h : ∀ t ∈ cut text, ¬t.IsRefused) :
    expandFor (some out) sizes text =
      .ok { sql := (cut text).flatMap (Token.sql sizes)
            owners := (cut text).flatMap (Token.owners sizes) } := by
  rw [expandFor_eq_ofTokens, ofTokens_of_accepted h, ← expand_flatMap_pieces]
  rfl

theorem expandFor_of_refused (hcut : cut text = before ++ t :: after)
    (h : ∀ u ∈ before, ¬u.IsRefused) (ht : t.IsRefused) :
    expandFor (some out) sizes text =
      .error (t.refusal (before.flatMap Token.source).length
        text[(before.flatMap Token.source).length + 1]?) := by
  rw [expandFor_eq_ofTokens, hcut, ofTokens_of_refused h ht, Nat.zero_add,
    head?_after_refused hcut ht]
  rfl

/-- A list with a refused token has a first one. -/
theorem exists_first_refused (h : ∃ t ∈ ts, t.IsRefused) :
    ∃ before t after, ts = before ++ t :: after ∧ (∀ u ∈ before, ¬u.IsRefused) ∧
      t.IsRefused := by
  obtain ⟨u, hu, hr⟩ := h
  cases hfind : ts.find? (fun t => decide t.IsRefused) with
  | none =>
    have hnone := List.find?_eq_none.1 hfind u hu
    exact absurd (decide_eq_true hr) hnone
  | some t =>
    obtain ⟨ht, before, after, rfl, hbefore⟩ := List.find?_eq_some_iff_append.1 hfind
    exact ⟨before, t, after, rfl, fun u hu => by simpa using hbefore u hu, of_decide_eq_true ht⟩

theorem expandText_eq_ok_iff {e : Expansion} : expandText sizes text = .ok e ↔
    (∀ t ∈ cut text, ¬t.IsRefused) ∧
      e = { sql := (cut text).flatMap (Token.sql sizes)
            owners := (cut text).flatMap (Token.owners sizes) } := by
  have haccepted (h : ∀ t ∈ cut text, ¬t.IsRefused) : expandFor (some {}) sizes text = _ :=
    expandFor_of_accepted h
  constructor
  · intro he
    by_cases h : ∃ t ∈ cut text, t.IsRefused
    · obtain ⟨before, t, after, hcut, hbefore, ht⟩ := exists_first_refused h
      have hrefused : expandFor (some {}) sizes text = _ :=
        expandFor_of_refused hcut hbefore ht
      cases hrefused.symm.trans he
    · have hall : ∀ t ∈ cut text, ¬t.IsRefused := fun t ht hr => h ⟨t, ht, hr⟩
      exact ⟨hall, (Except.ok.inj ((haccepted hall).symm.trans he)).symm⟩
  · rintro ⟨h, rfl⟩
    exact haccepted h

theorem exists_expandText_iff :
    (∃ e, expandText sizes text = .ok e) ↔ ∀ t ∈ cut text, ¬t.IsRefused := by
  simp [expandText_eq_ok_iff]

/-- The scanner accepts the texts in which no question mark and no colon is a token of its own, for
all sizes of the lists alike. It reports the first such token of another text, and it copies an
accepted one except for the parameters, which become placeholders. -/
theorem expandFor_grammar (text : Bytes) (sizes : ListSizes) (out : Expansion) :
    (cut text).flatMap Token.source = text ∧
      ((∃ f, expandFor (some out) sizes text = .error f) ↔ ∃ t ∈ cut text, t.IsRefused) ∧
      (∀ f, expandFor (some out) sizes text = .error f ↔
        ∃ before t after, cut text = before ++ t :: after ∧
          (∀ u ∈ before, ¬u.IsRefused) ∧ t.IsRefused ∧
          f = t.refusal (before.flatMap Token.source).length
            text[(before.flatMap Token.source).length + 1]? ∧
          f.kind = .parse) ∧
      ∀ e, expandFor (some out) sizes text = .ok e ↔
        (∀ t ∈ cut text, ¬t.IsRefused) ∧
          e = { sql := (cut text).flatMap (Token.sql sizes)
                owners := (cut text).flatMap (Token.owners sizes) } := by
  refine ⟨source_cut text, ?_⟩
  by_cases h : ∃ t ∈ cut text, t.IsRefused
  · obtain ⟨before, t, after, hcut, hbefore, ht⟩ := exists_first_refused h
    have hresult : expandFor (some out) sizes text = _ := expandFor_of_refused hcut hbefore ht
    refine ⟨⟨fun _ => h, fun _ => ⟨_, hresult⟩⟩, fun f => ⟨?_, ?_⟩, fun e => ⟨?_, ?_⟩⟩
    · intro hf
      obtain rfl := Except.error.inj (hresult.symm.trans hf)
      exact ⟨before, t, after, hcut, hbefore, ht, rfl, ht.kind_refusal _ _⟩
    · rintro ⟨before, t, after, hcut, hbefore, ht, rfl, -⟩
      exact expandFor_of_refused hcut hbefore ht
    · intro he
      rw [hresult] at he
      cases he
    · rintro ⟨haccepted, -⟩
      obtain ⟨u, hu, hr⟩ := h
      exact absurd hr (haccepted u hu)
  · have haccepted : ∀ t ∈ cut text, ¬t.IsRefused := fun t ht hr => h ⟨t, ht, hr⟩
    have hresult : expandFor (some out) sizes text = _ := expandFor_of_accepted haccepted
    refine ⟨⟨?_, fun hr => absurd hr h⟩, fun f => ⟨?_, ?_⟩, fun e => ⟨?_, ?_⟩⟩
    · rintro ⟨f, hf⟩
      rw [hresult] at hf
      cases hf
    · intro hf
      rw [hresult] at hf
      cases hf
    · rintro ⟨before, t, after, hcut, -, ht, -⟩
      exact absurd ht (haccepted t (by simp [hcut]))
    · intro he
      exact ⟨haccepted, (Except.ok.inj (hresult.symm.trans he)).symm⟩
    · rintro ⟨-, rfl⟩
      exact hresult

end Template

end SqlAccess
