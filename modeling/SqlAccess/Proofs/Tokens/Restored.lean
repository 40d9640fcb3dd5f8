import Mathlib.Data.List.Count
import SqlAccess.Proofs.Tokens.Boundary

/-!
# Reading placeholders back

Where every list has an element, the ranges of a text stay ranges when its parameters are written as
placeholders, and no placeholder makes or ends one: the tokens of the SQL are those of the text, with
question marks, commas and blanks in place of the parameters (`cut_sql`). So the question marks that
an engine counts are the placeholders, and the text can be read back from the SQL and the names that
own the slots, up to the case of the names of lists (`placeholders_restored`).
-/

namespace SqlAccess

theorem elementCount_pos {size : Int32} (h : 1 ≤ size) : 0 < elementCount size := by
  have hle : (1 : Int) ≤ size.toInt := Int32.le_iff_toInt_le.1 h
  rw [elementCount]
  omega

theorem open_mem_elementName (list : Bytes) (i : Nat) : 0x5B ∈ elementName list i := by
  have hopen : (0x5B : UInt8) ∈ Bytes.ofString "[" := by decide
  simp [elementName, hopen]

namespace Template

variable {sizes : ListSizes} {text next list p : Bytes} {t : Token} {owners : List Bytes}
  {ts : List Token}

/-! ## Placeholders as tokens -/

/-- The tokens of what is written for a token. -/
def Token.written (sizes : ListSizes) : Token → List Token
  | parameter p => ((parameter p).sql sizes).map .other
  | t => [t]

/-- Bytes that are tokens of their own in front of whatever follows. -/
theorem cut_append_of_plain {plain : Bytes}
    (h : ∀ c ∈ plain, c ≠ 0x2D ∧ c ≠ 0x3A ∧ closing? c = none) (next : Bytes) :
    cut (plain ++ next) = plain.map .other ++ cut next := by
  induction plain with
  | nil => rfl
  | cons c plain ih =>
    obtain ⟨hdash, hcolon, hquoted⟩ := h c List.mem_cons_self
    rw [List.cons_append, cut,
      first_of_other (fun hd => hdash hd.1) hquoted fun hc => absurd hc hcolon,
      ih fun d hd => h d (List.mem_cons_of_mem c hd)]
    rfl

/-- The placeholders of a list are one and as many with a separator in front as there are more. -/
theorem joinWith_replicate_succ (n : Nat) :
    Bytes.joinWith ", " (List.replicate (n + 1) "?") =
      0x3F :: (List.replicate n (Bytes.ofString ", ?")).flatten := by
  induction n with
  | zero => decide
  | succ n ih =>
    calc Bytes.joinWith ", " (List.replicate (n + 2) "?")
        = Bytes.ofString "?" ++ (Bytes.ofString ", " ++
            Bytes.joinWith ", " (List.replicate (n + 1) "?")) := rfl
      _ = 0x3F :: (List.replicate (n + 1) (Bytes.ofString ", ?")).flatten := by
        rw [ih]
        rfl

theorem plain_of_mem_sql {c : UInt8} (h : c ∈ (Token.parameter p).sql sizes) :
    c ≠ 0x2D ∧ c ≠ 0x3A ∧ closing? c = none := by
  have hplain : (Bytes.ofString ", ?").all fun d => d ≠ 0x2D ∧ d ≠ 0x3A ∧ closing? d = none := by
    decide
  refine of_decide_eq_true (List.all_eq_true.1 hplain c ?_)
  rw [Token.sql] at h
  cases hn : ((Token.parameter p).owners sizes).length with
  | zero => simp [hn, Bytes.joinWith] at h
  | succ n =>
    rw [hn, joinWith_replicate_succ, List.mem_cons, List.mem_flatten] at h
    rcases h with rfl | ⟨part, hpart, hc⟩
    · decide
    · rwa [List.eq_of_mem_replicate hpart] at hc

/-- The tokens of placeholders, in front of whatever follows. -/
theorem cut_placeholders (next : Bytes) :
    cut ((Token.parameter p).sql sizes ++ next) = (Token.parameter p).written sizes ++ cut next :=
  cut_append_of_plain (fun _ => plain_of_mem_sql) next

/-! ## The tokens of the SQL -/

/-- A token that ends before the rest of its text ends before the SQL of that, too. -/
theorem FirstToken.cut_sql_append {b : UInt8} {rest left out : Bytes} (h : FirstToken b rest t left)
    (ht : ¬t.IsRefused) (hout : out.head? = left.head? ∨ left ≠ [] ∧ out.head? = some 0x3F) :
    cut (t.sql sizes ++ out) = t.written sizes ++ cut out := by
  have hleft := h.endsBefore
  cases t with
  | range bytes =>
    refine h.cut_source_append fun hopen => ?_
    obtain hsame | ⟨hne, -⟩ := hout
    · rw [hsame, hleft hopen]
    · exact absurd (List.head?_eq_none_iff.1 (hleft hopen)) hne
  | parameter p => exact cut_placeholders out
  | other c =>
    have hcolon : c ≠ 0x3A := by
      rintro rfl
      exact ht (.inr rfl)
    refine h.cut_source_append ⟨fun hdash => ?_, fun hc => absurd hc hcolon⟩
    obtain hsame | ⟨-, hmark⟩ := hout
    · rw [hsame]
      exact hleft.1 hdash
    · rw [hmark]
      decide

section Elements

variable (hsizes : ∀ list size, sizes.find? list = some size → 1 ≤ size)
include hsizes

theorem width_pos (p : Bytes) : 0 < (Token.parameter p).width sizes := by
  simp only [Token.width]
  cases hs : sizes.find? (Name.toLower p) with
  | none => exact Nat.one_pos
  | some size => exact elementCount_pos (hsizes _ _ hs)

theorem head?_sql_parameter (p : Bytes) :
    ((Token.parameter p).sql sizes).head? = some 0x3F := by
  obtain ⟨n, hn⟩ := Nat.exists_eq_succ_of_ne_zero (width_pos hsizes p).ne'
  rw [Token.sql, Token.length_owners, hn, joinWith_replicate_succ]
  rfl

/-- The SQL begins like the text, or with a placeholder. -/
theorem head?_flatMap_sql (text : Bytes) :
    ((cut text).flatMap (Token.sql sizes)).head? = text.head? ∨
      text ≠ [] ∧ ((cut text).flatMap (Token.sql sizes)).head? = some 0x3F := by
  cases text with
  | nil => exact .inl (by rw [cut]; rfl)
  | cons b rest =>
    have hfirst := firstToken_first b rest
    rw [cut, List.flatMap_cons]
    generalize (first b rest).1 = t, (first b rest).2 = left at hfirst
    cases hfirst with
    | comment rest => exact .inl rfl
    | quoted hc => exact .inl rfl
    | parameter h =>
      refine .inr ⟨List.cons_ne_nil _ _, ?_⟩
      rw [List.head?_append, head?_sql_parameter hsizes]
      rfl
    | other hd hc hname => exact .inl rfl

/-- The SQL of an accepted text has the tokens of the text, with placeholders for parameters. -/
theorem cut_sql (h : ∀ t ∈ cut text, ¬t.IsRefused) :
    cut ((cut text).flatMap (Token.sql sizes)) = (cut text).flatMap (Token.written sizes) := by
  induction text using cut.induct with
  | case1 => simp [cut]
  | case2 b rest ih =>
    rw [cut, List.forall_mem_cons] at h
    rw [cut, List.flatMap_cons, List.flatMap_cons, ← ih h.2]
    exact (firstToken_first b rest).cut_sql_append h.1 (head?_flatMap_sql hsizes _)

end Elements

theorem count_placeholders (n : Nat) :
    (Bytes.joinWith ", " (List.replicate n "?")).count 0x3F = n := by
  cases n with
  | zero => rfl
  | succ n =>
    have hmore : (Bytes.ofString ", ?").count 0x3F = 1 := by decide
    rw [joinWith_replicate_succ, List.count_cons_self, List.count_flatten, List.map_replicate,
      List.sum_replicate_nat, hmore, Nat.mul_one]

/-- The question marks that are written for a token are its placeholders. -/
theorem count_written (ht : ¬t.IsRefused) :
    (t.written sizes).count (.other 0x3F) = t.width sizes := by
  cases t with
  | range bytes => rfl
  | parameter p =>
    have hinj : Function.Injective Token.other := fun _ _ h => Token.other.inj h
    rw [Token.written, List.count_map_of_injective _ _ hinj, Token.sql, count_placeholders,
      Token.length_owners]
  | other b =>
    have hmark : b ≠ 0x3F := by
      rintro rfl
      exact ht (.inl rfl)
    simp [Token.written, Token.width, hmark]

theorem count_flatMap_written (h : ∀ t ∈ ts, ¬t.IsRefused) :
    (ts.flatMap (Token.written sizes)).count (.other 0x3F) = widthOf sizes ts := by
  induction ts with
  | nil => rfl
  | cons t ts ih =>
    rw [List.forall_mem_cons] at h
    rw [List.flatMap_cons, List.count_append, count_written h.1, ih h.2, widthOf]

theorem parameter_notMem_written (sizes : ListSizes) (t : Token) (p : Bytes) :
    .parameter p ∉ t.written sizes := by
  cases t <;> simp [Token.written]

/-! ## Reading the text back -/

/-- The list whose first element has a name, and its size. -/
def listOf? (sizes : ListSizes) (owner : Bytes) : Option (Bytes × Int32) :=
  sizes.entries.find? fun entry => elementName entry.1 0 = owner

/-- The text of tokens in which each placeholder, from the left, belongs to the next of the owners:
that of a scalar stands for the owner, and that of the first element of a list stands for the list,
together with the separators and placeholders of the other elements. -/
def restore (sizes : ListSizes) : List Bytes → List Token → Bytes
  | _, [] => []
  | [], t :: ts => t.source ++ restore sizes [] ts
  | owner :: owners, t :: ts =>
    if t = .other 0x3F then
      match listOf? sizes owner with
      | none => 0x3A :: owner ++ restore sizes owners ts
      | some (list, size) =>
        let more := elementCount size - 1
        0x3A :: list ++ restore sizes (owners.drop more) (ts.drop (3 * more))
    else t.source ++ restore sizes (owner :: owners) ts
  termination_by _ ts => ts.length

/-- A token as it can be read back: the case of the name of a list is lost. -/
def Token.folded (sizes : ListSizes) : Token → Bytes
  | parameter p => 0x3A :: if sizes.contains (Name.toLower p) then Name.toLower p else p
  | t => t.source

theorem listOf?_elementName {size : Int32} (h : sizes.find? list = some size) :
    listOf? sizes (elementName list 0) = some (list, size) := by
  rw [listOf?]
  cases hfind : sizes.entries.find? fun entry => elementName entry.1 0 = elementName list 0 with
  | none =>
    have hentry := List.find?_eq_none.1 hfind _ (NameMap.mem_entries.2 h)
    simp at hentry
  | some entry =>
    obtain ⟨other, size'⟩ := entry
    have hname : elementName other 0 = elementName list 0 := by
      simpa using List.find?_some hfind
    obtain rfl : other = list :=
      List.append_cancel_right (List.append_cancel_right (List.append_cancel_right hname))
    have hentry : sizes.find? other = some size' :=
      NameMap.mem_entries.1 (List.mem_of_find?_eq_some hfind)
    rw [Option.some.inj (hentry.symm.trans h)]

theorem listOf?_eq_none (h : ∀ c ∈ p, isNamePart c) : listOf? sizes p = none := by
  refine List.find?_eq_none.2 fun entry _ hentry => ?_
  have hopen : 0x5B ∈ p := of_decide_eq_true hentry ▸ open_mem_elementName entry.1 0
  have hpart := h _ hopen
  revert hpart
  decide

theorem restore_cons_of_ne (ht : t ≠ .other 0x3F) (owners : List Bytes) (ts : List Token) :
    restore sizes owners (t :: ts) = t.source ++ restore sizes owners ts := by
  cases owners with
  | nil => rw [restore]
  | cons owner owners => rw [restore, if_neg ht]

theorem isNamePart_of_mem_cut (h : .parameter p ∈ cut text) : ∀ c ∈ p, isNamePart c := by
  induction text using cut.induct with
  | case1 => simp [cut] at h
  | case2 b rest ih =>
    rw [cut, List.mem_cons] at h
    rcases h with h | h
    · have hfirst := firstToken_first b rest
      rw [← h] at hfirst
      generalize (first b rest).2 = left at hfirst
      cases hfirst with
      | parameter _ => exact List.all_eq_true.1 List.all_takeWhile
    · exact ih h

theorem restore_scalar (hs : sizes.find? (Name.toLower p) = none) (hp : ∀ c ∈ p, isNamePart c)
    (owners : List Bytes) (ts : List Token) :
    restore sizes ((Token.parameter p).owners sizes ++ owners)
        ((Token.parameter p).written sizes ++ ts) =
      (Token.parameter p).folded sizes ++ restore sizes owners ts := by
  have howners : (Token.parameter p).owners sizes = [p] := by simp [Token.owners, hs]
  have hwritten : (Token.parameter p).written sizes = [.other 0x3F] := by
    simp [Token.written, Token.sql, howners, Bytes.joinWith]
    rfl
  have hfolded : (Token.parameter p).folded sizes = 0x3A :: p := by
    simp [Token.folded, NameMap.contains, hs]
  rw [howners, hwritten, hfolded, List.singleton_append, List.singleton_append, restore,
    if_pos rfl, listOf?_eq_none hp]

theorem restore_list {size : Int32} (hs : sizes.find? (Name.toLower p) = some size)
    (hsize : 1 ≤ size) (owners : List Bytes) (ts : List Token) :
    restore sizes ((Token.parameter p).owners sizes ++ owners)
        ((Token.parameter p).written sizes ++ ts) =
      (Token.parameter p).folded sizes ++ restore sizes owners ts := by
  obtain ⟨n, hn⟩ := Nat.exists_eq_succ_of_ne_zero (elementCount_pos hsize).ne'
  have howners : (Token.parameter p).owners sizes = elementName (Name.toLower p) 0 ::
      (List.range n).map fun i => elementName (Name.toLower p) (i + 1) := by
    simp [Token.owners, hs, hn, List.range_succ_eq_map, Function.comp_def]
  have hwritten : (Token.parameter p).written sizes =
      .other 0x3F :: (List.replicate n (Bytes.ofString ", ?")).flatten.map .other := by
    rw [Token.written, Token.sql, howners, List.length_cons, List.length_map, List.length_range,
      joinWith_replicate_succ, List.map_cons]
  have hfolded : (Token.parameter p).folded sizes = 0x3A :: Name.toLower p := by
    simp [Token.folded, NameMap.contains, hs]
  have hmore : elementCount size - 1 = n := by omega
  have hdropOwners : ((List.range n).map (fun i => elementName (Name.toLower p) (i + 1)) ++
      owners).drop n = owners := List.drop_left' (by simp)
  have hdropTokens : ((List.replicate n (Bytes.ofString ", ?")).flatten.map Token.other ++
      ts).drop (3 * n) = ts := by
    refine List.drop_left' ?_
    rw [List.length_map, List.length_flatten, List.map_replicate, List.sum_replicate_nat,
      Nat.mul_comm]
    rfl
  rw [howners, hwritten, hfolded, List.cons_append, List.cons_append, restore, if_pos rfl,
    listOf?_elementName hs]
  simp only [hmore, hdropOwners, hdropTokens]

/-- What is written for a token is read back as the token. -/
theorem restore_written (hsizes : ∀ list size, sizes.find? list = some size → 1 ≤ size)
    (ht : ¬t.IsRefused) (hname : ∀ p, t = .parameter p → ∀ c ∈ p, isNamePart c)
    (owners : List Bytes) (ts : List Token) :
    restore sizes (t.owners sizes ++ owners) (t.written sizes ++ ts) =
      t.folded sizes ++ restore sizes owners ts := by
  cases t with
  | range bytes => exact restore_cons_of_ne (t := .range bytes) nofun owners ts
  | parameter p =>
    cases hs : sizes.find? (Name.toLower p) with
    | none => exact restore_scalar hs (hname p rfl) owners ts
    | some size => exact restore_list hs (hsizes _ _ hs) owners ts
  | other b =>
    exact restore_cons_of_ne (fun h => ht (.inl h)) owners ts

theorem restore_flatMap (hsizes : ∀ list size, sizes.find? list = some size → 1 ≤ size)
    (h : ∀ t ∈ ts, ¬t.IsRefused) (hname : ∀ p, .parameter p ∈ ts → ∀ c ∈ p, isNamePart c) :
    restore sizes (ts.flatMap (Token.owners sizes)) (ts.flatMap (Token.written sizes)) =
      ts.flatMap (Token.folded sizes) := by
  induction ts with
  | nil => simp [restore]
  | cons t ts ih =>
    rw [List.forall_mem_cons] at h
    have hhead : ∀ p, t = .parameter p → ∀ c ∈ p, isNamePart c := by
      rintro p rfl
      exact hname p List.mem_cons_self
    rw [List.flatMap_cons, List.flatMap_cons, List.flatMap_cons, restore_written hsizes h.1 hhead,
      ih h.2 fun p hp => hname p (List.mem_cons_of_mem t hp)]

theorem toLower_folded (sizes : ListSizes) (ts : List Token) :
    Name.toLower (ts.flatMap (Token.folded sizes)) = Name.toLower (ts.flatMap Token.source) := by
  rw [Name.toLower, Name.toLower, List.map_flatMap, List.map_flatMap]
  refine congrArg ts.flatMap (funext fun t => ?_)
  cases t with
  | range bytes => rfl
  | parameter p =>
    rw [Token.folded]
    split
    · exact congrArg (_ :: ·) (Name.toLower_toLower p)
    · rfl
  | other b => rfl

/-- The SQL of a text has as many question marks outside ranges as there are placeholders, and no
parameter. The question marks that are written for a parameter, counted from the left, have the
numbers of its slots. Reading the placeholders back by the owners of the slots gives the text, but
for the case of the names of lists. -/
theorem placeholders_restored {e : Expansion}
    (hsizes : ∀ list size, sizes.find? list = some size → 1 ≤ size)
    (he : expandText sizes text = .ok e) :
    (cut e.sql).count (.other 0x3F) = e.count ∧ (∀ p, .parameter p ∉ cut e.sql) ∧
      (∀ before p after, cut text = before ++ .parameter p :: after →
        ∃ front back, cut e.sql = front ++ (Token.parameter p).written sizes ++ back ∧
          front.count (.other 0x3F) = widthOf sizes before ∧
          ((Token.parameter p).written sizes).count (.other 0x3F) =
            ((Token.parameter p).owners sizes).length ∧
          ∀ i < ((Token.parameter p).owners sizes).length,
            e.owners[widthOf sizes before + i]? = ((Token.parameter p).owners sizes)[i]?) ∧
      (∀ k name, (∃ slots, e.slots.find? name = some slots ∧ k ∈ slots) ↔
        e.owners[k]? = some name) ∧
      restore sizes e.owners (cut e.sql) = (cut text).flatMap (Token.folded sizes) ∧
      Name.toLower (restore sizes e.owners (cut e.sql)) = Name.toLower text := by
  obtain ⟨haccepted, rfl⟩ := expandText_eq_ok_iff.1 he
  have hcut : cut ((cut text).flatMap (Token.sql sizes)) = _ := cut_sql hsizes haccepted
  have hrestore : restore sizes ((cut text).flatMap (Token.owners sizes))
      ((cut text).flatMap (Token.written sizes)) = (cut text).flatMap (Token.folded sizes) :=
    restore_flatMap hsizes haccepted fun p hp => isNamePart_of_mem_cut hp
  rw [hcut]
  refine ⟨?_, ?_, ?_, fun k name => Expansion.exists_slots_iff, hrestore, ?_⟩
  · rw [count_flatMap_written haccepted, ← length_flatMap_owners]
    rfl
  · intro p hp
    obtain ⟨t, -, ht⟩ := List.mem_flatMap.1 hp
    exact parameter_notMem_written sizes t p ht
  · intro before p after hsplit
    rw [hsplit] at haccepted ⊢
    have hbefore : ∀ t ∈ before, ¬t.IsRefused := fun t ht =>
      haccepted t (List.mem_append_left _ ht)
    refine ⟨before.flatMap (Token.written sizes), after.flatMap (Token.written sizes), ?_,
      count_flatMap_written hbefore, ?_, ?_⟩
    · simp
    · rw [count_written (haccepted _ (by simp)), Token.length_owners]
    · intro i hi
      simp only [List.flatMap_append, List.flatMap_cons]
      rw [← length_flatMap_owners, List.getElem?_append_right (Nat.le_add_right _ _),
        Nat.add_sub_cancel_left, List.getElem?_append_left hi]
  · rw [hrestore, toLower_folded, source_cut]

/-- A quoted mark, a scalar and a list of two: three placeholders, and the list in lower case. -/
theorem restored_list :
    let sizes : ListSizes := NameMap.empty.insert "ids" 2
    ∃ e, expandText sizes "'?':A(:IDS)" = .ok e ∧ e.sql = "'?'?(?, ?)" ∧
      (cut e.sql).count (.other 0x3F) = 3 ∧
      restore sizes e.owners (cut e.sql) = "'?':A(:ids)" := by
  intro sizes
  have hsizes : ∀ list size, sizes.find? list = some size → 1 ≤ size := by
    intro list size h
    rw [NameMap.find?_insert] at h
    split at h
    · obtain rfl := Option.some.inj h
      decide
    · cases h
  have he : expandText sizes "'?':A(:IDS)" = .ok _ := rfl
  obtain ⟨hcount, -, -, -, hrestore, -⟩ := placeholders_restored hsizes he
  have hcut : cut "'?':A(:IDS)" =
      [.range "'?'", .parameter "A", .other 0x28, .parameter "IDS", .other 0x29] := by
    decide +kernel
  refine ⟨_, he, by decide, hcount.trans (by decide), ?_⟩
  rw [hrestore, hcut]
  decide

end Template

end SqlAccess
