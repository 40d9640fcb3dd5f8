import Mathlib.Data.List.Chain
import SqlAccess.Proofs.Tokens.Boundary

/-!
# Closing bytes written twice

In SQL the byte that closes a quoted text is a part of it where it is written twice. The scanner
knows nothing of that: it closes the range at the first of the two bytes. Where a range is closed by
the byte that opens it, the second one opens a range again, so that what is read as one token by a
scanner that knows of escapes is read as ranges side by side (`exists_ranges_of_quote`), and the
results are the same. A bracketed range is closed by a byte that opens none, and the scanner leaves
it too early (`escaped_by_doubling`).
-/

namespace SqlAccess

namespace Template

variable {b c : UInt8} {rest text : Bytes} {escaped : List UInt8} {ts : List Token}

/-! ## Scanning with escapes -/

/-- A text through the first occurrence of a byte that is not written twice, or to its end. -/
def throughUndoubled (c : UInt8) : Bytes → Bytes
  | [] => []
  | [b] => [b]
  | b :: d :: rest =>
    if b = c then
      if d = c then b :: d :: throughUndoubled c rest else [b]
    else b :: throughUndoubled c (d :: rest)

/-- A text behind the first occurrence of a byte that is not written twice. -/
def behindUndoubled (c : UInt8) (text : Bytes) : Bytes := text.drop (throughUndoubled c text).length

/-- The first token of a text, and what follows it, where a range that one of the escaped bytes
closes takes in that byte when it is written twice. -/
def firstEscaping (escaped : List UInt8) (b : UInt8) (rest : Bytes) : Token × Bytes :=
  match closing? b with
  | some c =>
    if c ∈ escaped then (.range (b :: throughUndoubled c rest), behindUndoubled c rest)
    else first b rest
  | none => first b rest

theorem length_firstEscaping_le (escaped : List UInt8) (b : UInt8) (rest : Bytes) :
    (firstEscaping escaped b rest).2.length ≤ rest.length := by
  unfold firstEscaping
  split
  · split
    · rw [behindUndoubled, List.length_drop]
      omega
    · exact length_first_le b rest
  · exact length_first_le b rest

/-- The tokens of a text in which some closing bytes are escaped by writing them twice. -/
def cutEscaping (escaped : List UInt8) : Bytes → List Token
  | [] => []
  | b :: rest =>
    (firstEscaping escaped b rest).1 :: cutEscaping escaped (firstEscaping escaped b rest).2
  termination_by text => text.length
  decreasing_by
    have h := length_firstEscaping_le escaped b rest
    simp only [List.length_cons]
    omega

/-- Expand a query text in which some closing bytes are escaped by writing them twice. -/
def expandEscaping (escaped : List UInt8) (sizes : ListSizes) (text : Bytes) :
    Except Fault Expansion :=
  (ofTokens 0 (cutEscaping escaped text)).map (expand sizes)

/-- The bytes that close what they open. -/
def quotes : List UInt8 := [0x27, 0x22, 0x60]

/-- No bracketed range stands in front of another closing bracket. -/
def BracketsUndoubled (text : Bytes) : Prop :=
  (cut text).IsChain fun t u => t.source.head? = some 0x5B → u ≠ .other 0x5D

/-! ## Where a range ends -/

theorem drop_length_through (c : UInt8) (text : Bytes) :
    text.drop (through c text).length = behind c text :=
  calc text.drop (through c text).length
      = (through c text ++ behind c text).drop (through c text).length := by
        rw [through_append_behind]
    _ = behind c text := List.drop_left

/-- Where the closing byte is not written twice, a range ends as it does without escapes. -/
theorem throughUndoubled_of_single (h : (behind c text).head? ≠ some c) :
    throughUndoubled c text = through c text := by
  fun_induction throughUndoubled c text with
  | case1 => rfl
  | case2 b => by_cases hb : b = c <;> simp [through, hb]
  | case3 rest ih => simp [behind_cons] at h
  | case4 d rest hd => rw [through_cons, if_pos rfl]
  | case5 b d rest hb ih =>
    rw [behind_cons, if_neg hb] at h
    rw [ih h, through_cons c b, if_neg hb]

/-- Where the closing byte is written twice, a range goes on behind the second one. -/
theorem throughUndoubled_of_double (h : behind c text = c :: rest) :
    throughUndoubled c text = through c text ++ c :: throughUndoubled c rest := by
  fun_induction throughUndoubled c text with
  | case1 => cases h
  | case2 b => by_cases hb : b = c <;> simp [behind, hb] at h
  | case3 tail ih =>
    rw [behind_cons, if_pos rfl] at h
    rw [through_cons, if_pos rfl, (List.cons.inj h).2]
    rfl
  | case4 d tail hd =>
    rw [behind_cons, if_pos rfl] at h
    exact absurd (List.cons.inj h).1 hd
  | case5 b d tail hb ih =>
    rw [behind_cons, if_neg hb] at h
    rw [ih h, through_cons c b, if_neg hb]
    rfl

theorem behindUndoubled_of_single (h : (behind c text).head? ≠ some c) :
    behindUndoubled c text = behind c text := by
  rw [behindUndoubled, throughUndoubled_of_single h, drop_length_through]

theorem behindUndoubled_of_double (h : behind c text = c :: rest) :
    behindUndoubled c text = behindUndoubled c rest := by
  rw [behindUndoubled, throughUndoubled_of_double h, List.length_append, ← List.drop_drop,
    drop_length_through, h]
  rfl

/-- What is one range with escapes is ranges side by side without them, where the closing byte
opens a range of its own. -/
theorem exists_ranges_of_quote (hc : closing? c = some c) (text : Bytes) :
    ∃ rs : List Bytes, cut (c :: text) = rs.map .range ++ cut (behindUndoubled c text) ∧
      rs.flatten = c :: throughUndoubled c text := by
  have hfirst : cut (c :: text) = .range (c :: through c text) :: cut (behind c text) := by
    rw [cut, first_of_closing (fun hd => ne_dash_of_closing hc hd.1) hc]
  by_cases hdouble : (behind c text).head? = some c
  · -- The second byte opens the next range, and what follows it is shorter.
    obtain ⟨rest, hrest⟩ := List.head?_eq_some_iff.1 hdouble
    have hlength : rest.length < text.length := by
      have htext := congrArg List.length (through_append_behind c text)
      rw [hrest, List.length_append, List.length_cons] at htext
      omega
    obtain ⟨rs, hcut, hflat⟩ := exists_ranges_of_quote hc rest
    refine ⟨(c :: through c text) :: rs, ?_, ?_⟩
    · rw [hfirst, hrest, hcut, behindUndoubled_of_double hrest]
      rfl
    · rw [List.flatten_cons, hflat, throughUndoubled_of_double hrest]
      rfl
  · refine ⟨[c :: through c text], ?_, ?_⟩
    · rw [hfirst, behindUndoubled_of_single hdouble]
      rfl
    · rw [throughUndoubled_of_single hdouble]
      simp
  termination_by text.length

/-! ## The two scanners side by side -/

theorem throughUndoubled_append_behindUndoubled (c : UInt8) (text : Bytes) :
    throughUndoubled c text ++ behindUndoubled c text = text := by
  have hprefix : throughUndoubled c text <+: text := by
    fun_induction throughUndoubled c text with
    | case1 => exact List.prefix_rfl
    | case2 b => exact List.prefix_rfl
    | case3 rest ih => exact (List.prefix_cons_inj _).2 ((List.prefix_cons_inj _).2 ih)
    | case4 d rest hd => exact List.prefix_append [c] (d :: rest)
    | case5 b d rest hb ih => exact (List.prefix_cons_inj b).2 ih
  exact List.prefix_iff_eq_append.1 hprefix

theorem source_cutEscaping (escaped : List UInt8) (text : Bytes) :
    (cutEscaping escaped text).flatMap Token.source = text := by
  induction text using cutEscaping.induct escaped with
  | case1 => simp [cutEscaping]
  | case2 b rest ih =>
    rw [cutEscaping, List.flatMap_cons, ih]
    unfold firstEscaping
    split
    · split
      · exact congrArg (b :: ·) (throughUndoubled_append_behindUndoubled _ rest)
      · exact source_append_first b rest
    · exact source_append_first b rest

/-- Ranges side by side read like one. -/
theorem ofTokens_ranges (rs : List Bytes) (position : Nat) :
    ofTokens position (rs.map .range ++ ts) = ofTokens position (.range rs.flatten :: ts) := by
  have hrange (bytes : Bytes) (position : Nat) (ts : List Token) :
      ofTokens position (.range bytes :: ts) =
        (ofTokens (position + bytes.length) ts).map (bytes.map .byte ++ ·) :=
    if_neg (by simp [Token.IsRefused])
  induction rs generalizing position with
  | nil =>
    rw [hrange]
    cases h : ofTokens position ts <;> simp [h, Except.map]
  | cons r rs ih =>
    rw [List.map_cons, List.cons_append, hrange, ih, hrange, hrange, map_map]
    simp [Nat.add_assoc, Function.comp_def]

theorem eq_or_bracket_of_closing (h : closing? b = some c) : b = c ∨ b = 0x5B ∧ c = 0x5D := by
  unfold closing? at h
  grind

/-- A bracketed range that is not followed by another closing bracket. -/
theorem head?_behind_of_bracketsUndoubled (h : BracketsUndoubled (0x5B :: rest)) :
    (behind 0x5D rest).head? ≠ some 0x5D := by
  have hcut : cut (0x5B :: rest) = .range (0x5B :: through 0x5D rest) :: cut (behind 0x5D rest) := by
    rw [cut, first_of_closing (c := 0x5D) (by simp) rfl]
  intro hhead
  obtain ⟨after, hafter⟩ := List.head?_eq_some_iff.1 hhead
  have hother : first 0x5D after = (.other 0x5D, after) :=
    first_of_other (by simp) rfl (by simp)
  rw [BracketsUndoubled, hcut, hafter, cut, hother] at h
  exact (List.isChain_cons_cons.1 h).1 rfl rfl

/-- The first token of the scanner with escapes stands for a run of tokens of the other one. -/
theorem exists_run (h : 0x5D ∈ escaped → BracketsUndoubled (b :: rest)) :
    ∃ run : List Token, cut (b :: rest) = run ++ cut (firstEscaping escaped b rest).2 ∧
      ∀ position ts, ofTokens position (run ++ ts) =
        ofTokens position ((firstEscaping escaped b rest).1 :: ts) := by
  have hplain : cut (b :: rest) = [(first b rest).1] ++ cut (first b rest).2 := by
    rw [cut]
    rfl
  cases hc : closing? b with
  | none =>
    have hfirst : firstEscaping escaped b rest = first b rest := by rw [firstEscaping, hc]
    rw [hfirst]
    exact ⟨_, hplain, fun _ _ => rfl⟩
  | some c =>
    by_cases he : c ∈ escaped
    · have hfirst : firstEscaping escaped b rest =
          (.range (b :: throughUndoubled c rest), behindUndoubled c rest) := by
        simp [firstEscaping, hc, he]
      rw [hfirst]
      obtain rfl | ⟨rfl, rfl⟩ := eq_or_bracket_of_closing hc
      · obtain ⟨rs, hcut, hflat⟩ := exists_ranges_of_quote hc rest
        refine ⟨rs.map .range, hcut, fun position ts => ?_⟩
        rw [ofTokens_ranges, hflat]
      · have hsingle := head?_behind_of_bracketsUndoubled (h he)
        rw [throughUndoubled_of_single hsingle, behindUndoubled_of_single hsingle]
        rw [first_of_closing (by simp) hc] at hplain
        exact ⟨_, hplain, fun _ _ => rfl⟩
    · have hfirst : firstEscaping escaped b rest = first b rest := by
        simp [firstEscaping, hc, he]
      rw [hfirst]
      exact ⟨_, hplain, fun _ _ => rfl⟩

theorem ofTokens_cutEscaping (h : 0x5D ∈ escaped → BracketsUndoubled text) (position : Nat) :
    ofTokens position (cutEscaping escaped text) = ofTokens position (cut text) := by
  induction text using cutEscaping.induct escaped generalizing position with
  | case1 => rw [cutEscaping, cut]
  | case2 b rest ih =>
    obtain ⟨run, hcut, hrun⟩ := exists_run h
    have hleft : 0x5D ∈ escaped → BracketsUndoubled (firstEscaping escaped b rest).2 := by
      intro he
      have hchain := h he
      rw [BracketsUndoubled, hcut] at hchain
      exact (List.isChain_append.1 hchain).2.1
    rw [cutEscaping, hcut, hrun, ofTokens, ofTokens, ih hleft, source_cutEscaping, source_cut]

theorem expandText_eq_escaping {sizes : ListSizes}
    (h : 0x5D ∈ escaped → BracketsUndoubled text) :
    expandText sizes text = expandEscaping escaped sizes text := by
  rw [expandText, parse, parseFrom_code, expandEscaping, ofTokens_cutEscaping h]

theorem eq_flatMap_pieces_of_ofTokens {template : Template} {position : Nat}
    (h : ofTokens position ts = .ok template) : template = ts.flatMap Token.pieces := by
  induction ts generalizing position template with
  | nil => exact (Except.ok.inj h).symm
  | cons t ts ih =>
    rw [ofTokens] at h
    split at h
    · cases h
    · cases hrest : ofTokens (position + t.source.length) ts with
      | error f => simp [hrest, Except.map] at h
      | ok rest =>
        rw [hrest] at h
        rw [← Except.ok.inj h, ih hrest, List.flatMap_cons]

/-- The quotes are escaped by writing them twice: the scanner gives the same result as one that
knows of these escapes, so none of its parameters comes from inside such a range. It gives the same
result as one that knows of escaped closing brackets, too, where no bracketed range stands in front
of one. -/
theorem escaped_by_doubling (text : Bytes) (sizes : ListSizes) :
    expandText sizes text = expandEscaping quotes sizes text ∧
      (∀ e, expandText sizes text = .ok e →
        e.owners = (cutEscaping quotes text).flatMap (Token.owners sizes)) ∧
      (BracketsUndoubled text →
        expandText sizes text = expandEscaping (0x5D :: quotes) sizes text) := by
  have hquotes : expandText sizes text = expandEscaping quotes sizes text :=
    expandText_eq_escaping fun h => absurd h (by decide)
  refine ⟨hquotes, ?_, fun h => expandText_eq_escaping fun _ => h⟩
  intro e he
  rw [hquotes, expandEscaping] at he
  cases htokens : ofTokens 0 (cutEscaping quotes text) with
  | error f => simp [htokens, Except.map] at he
  | ok template =>
    rw [htokens, eq_flatMap_pieces_of_ofTokens htokens] at he
    rw [← Except.ok.inj he, expand_flatMap_pieces]

/-- A bracketed range, and a quoted one in which a quote stands in front of what looks like a
parameter. -/
theorem escaped_between_brackets :
    BracketsUndoubled "[a]'i'':x':n" ∧
      expandEscaping (0x5D :: quotes) .empty "[a]'i'':x':n" =
        .ok { sql := "[a]'i'':x'?", owners := ["n"] } := by
  have hcut : cut "[a]'i'':x':n" =
      [.range "[a]", .range "'i'", .range "':x'", .parameter "n"] := by
    decide +kernel
  have hundoubled : BracketsUndoubled "[a]'i'':x':n" := by
    rw [BracketsUndoubled, hcut]
    decide
  exact ⟨hundoubled, ((escaped_by_doubling "[a]'i'':x':n" .empty).2.2 hundoubled).symm⟩

/-- A closing bracket that is written twice ends its range all the same. -/
example : expandText .empty "[a]]:x]" = .ok { sql := "[a]]?]", owners := ["x"] } ∧
    expandEscaping (0x5D :: quotes) .empty "[a]]:x]" = .ok { sql := "[a]]:x]", owners := [] } := by
  constructor
  · rfl
  · cbv

end Template

end SqlAccess
