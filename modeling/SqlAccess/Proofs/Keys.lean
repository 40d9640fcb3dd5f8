import Mathlib.Algebra.Order.BigOperators.Group.List
import Mathlib.Algebra.Order.Ring.Nat
import SqlAccess.Backend
import SqlAccess.Proofs.Quoted

/-!
# The SQL for generated keys

The keys of an inserted row are read back by one `SELECT` with an item for each key, which has the
name of the key for a quoted alias. Where such a text is read, an alias ends at the first quote byte
that is not doubled (`Quoted.scan`), so a quote byte in a name has to be written twice, and the
texts that can be read are just those for names in which it is (`Backend.readKeys_eq_some_iff`).

But the names are written as they are. So the aliases are the names exactly where no name contains
the quote byte (`Backend.keys_read_back`), and a name that does can stand for two.
-/

namespace SqlAccess

namespace Quoted

variable {q b : UInt8} {name rest text : Bytes}

/-- What a text holds from behind an opening quote byte up to the next one that is not doubled, and
what follows this one. Each doubled quote byte is read as one. -/
def scan (q : UInt8) : Bytes → Option (Bytes × Bytes)
  | [] => none
  | [b] => if b = q then some ([], []) else none
  | b :: c :: rest =>
    if b = q then
      if c = q then (scan q rest).map fun r => (q :: r.1, r.2) else some ([], c :: rest)
    else (scan q (c :: rest)).map fun r => (b :: r.1, r.2)

theorem scan_cons_of_ne (hb : b ≠ q) :
    scan q (b :: text) = (scan q text).map fun r => (b :: r.1, r.2) := by
  cases text with
  | nil => simp [scan, hb]
  | cons c rest => rw [scan, if_neg hb]

theorem scan_quote_of_ne (hrest : rest.head? ≠ some q) : scan q (q :: rest) = some ([], rest) := by
  cases rest with
  | nil => simp [scan]
  | cons c rest =>
    have hc : c ≠ q := fun hc => hrest (by simp [hc])
    rw [scan, if_pos rfl, if_neg hc]

theorem scan_doubled (hrest : rest.head? ≠ some q) :
    scan q (doubled q name ++ q :: rest) = some (name, rest) := by
  induction name with
  | nil => exact scan_quote_of_ne hrest
  | cons b name ih =>
    by_cases hb : b = q
    · simp [doubled, hb, scan, ih]
    · rw [doubled, if_neg hb, List.cons_append, scan_cons_of_ne hb, ih]
      rfl

/-- The identifier in front of a closing quote byte is read as it was written. -/
theorem scan_eq_some_iff : scan q text = some (name, rest) ↔
    text = doubled q name ++ q :: rest ∧ rest.head? ≠ some q := by
  refine ⟨fun h => ?_, fun ⟨htext, hrest⟩ => htext ▸ scan_doubled hrest⟩
  fun_induction scan q text generalizing name with
  | case1 => cases h
  | case2 =>
    cases h
    exact ⟨rfl, nofun⟩
  | case3 b hb => cases h
  | case4 text ih =>
    obtain ⟨⟨tail, _⟩, htail, heq⟩ := Option.map_eq_some_iff.1 h
    cases heq
    obtain ⟨rfl, hrest⟩ := ih htail
    exact ⟨by simp [doubled], hrest⟩
  | case5 c text hc =>
    cases h
    exact ⟨rfl, fun h => hc (Option.some.inj h)⟩
  | case6 b c text hb ih =>
    obtain ⟨⟨tail, _⟩, htail, heq⟩ := Option.map_eq_some_iff.1 h
    cases heq
    obtain ⟨htext, hrest⟩ := ih htail
    exact ⟨by rw [htext, doubled, if_neg hb, List.cons_append], hrest⟩

end Quoted

/-! ## Parts with a separator -/

namespace Bytes

variable {sep part : Bytes} {parts : List Bytes}

theorem joinWith_cons (h : parts ≠ []) :
    joinWith sep (part :: parts) = part ++ (sep ++ joinWith sep parts) := by
  cases parts with
  | nil => exact absurd rfl h
  | cons next parts => rfl

theorem length_joinWith (h : parts ≠ []) : (joinWith sep parts).length + sep.length =
    (parts.map fun part => part.length + sep.length).sum := by
  induction parts with
  | nil => exact absurd rfl h
  | cons part parts ih =>
    by_cases hparts : parts = []
    · simp [hparts, joinWith]
    · rw [joinWith_cons hparts, List.map_cons, List.sum_cons, ← ih hparts]
      simp only [List.length_append]
      omega

end Bytes

namespace Backend

variable {b : Backend} {text rest name : Bytes} {names keys : List Bytes}

/-! ## Reading the aliases -/

/-- The byte around an identifier. -/
def quoteByte : Backend → UInt8
  | sqlite | strict => Quoted.doubleQuote
  | maria => Quoted.backquote

/-- The call that yields the key of the row that was inserted last. -/
def keyCall : Backend → Bytes
  | sqlite | strict => "last_insert_rowid()"
  | maria => "LAST_INSERT_ID()"

/-- An item up to the name of its alias. -/
def opening (b : Backend) : Bytes := b.keyCall ++ " AS " ++ [b.quoteByte]

/-- The alias of the first item of a text, and what follows the item. -/
def readItem (b : Backend) (text : Bytes) : Option (Bytes × Bytes) :=
  (b.opening.isPrefixOf? text).bind (Quoted.scan b.quoteByte)

theorem readItem_eq_some_iff : b.readItem text = some (name, rest) ↔
    text = b.opening ++ (Quoted.doubled b.quoteByte name ++ b.quoteByte :: rest) ∧
      rest.head? ≠ some b.quoteByte := by
  simp only [readItem, Option.bind_eq_some_iff, List.isPrefixOf?_eq_some_iff_append_eq,
    Quoted.scan_eq_some_iff]
  constructor
  · rintro ⟨_, rfl, rfl, hrest⟩
    exact ⟨rfl, hrest⟩
  · rintro ⟨rfl, hrest⟩
    exact ⟨_, rfl, rfl, hrest⟩

theorem length_lt_of_readItem (h : b.readItem text = some (name, rest)) :
    rest.length < text.length := by
  rw [(readItem_eq_some_iff.1 h).1]
  simp only [List.length_append, List.length_cons]
  omega

/-- The aliases of items that are separated by commas. -/
def readItems (b : Backend) (text : Bytes) : Option (List Bytes) :=
  match _ : b.readItem text with
  | none => none
  | some (name, rest) =>
    if rest = [] then some [name]
    else
      match _ : List.isPrefixOf? ", " rest with
      | none => none
      | some next => (b.readItems next).map (name :: ·)
  termination_by text.length
  decreasing_by
    have hlt := length_lt_of_readItem ‹b.readItem text = some _›
    have hle := congrArg List.length (List.isPrefixOf?_eq_some_iff_append_eq.1 ‹_ = some next›)
    rw [List.length_append] at hle
    omega

/-- The aliases of a `SELECT` for generated keys. -/
def readKeys (b : Backend) (text : Bytes) : Option (List Bytes) :=
  (List.isPrefixOf? "SELECT " text).bind b.readItems

/-- A name as the alias of an item. -/
def aliased (b : Backend) (name : Bytes) : Bytes := b.opening ++ (name ++ [b.quoteByte])

theorem keysSql_eq (b : Backend) (keys : List Bytes) :
    b.keysSql keys = "SELECT " ++ Bytes.joinWith ", " (keys.map b.aliased) := by
  have hsqlite : Bytes.ofString "last_insert_rowid() AS \"" = opening .sqlite := by decide
  have hmaria : Bytes.ofString "LAST_INSERT_ID() AS \x60" = opening .maria := by decide
  cases b with
  | sqlite | strict =>
    simp only [keysSql, Sqlite.keysSql, hsqlite, List.append_assoc]
    rfl
  | maria =>
    simp only [keysSql, Maria.keysSql, hmaria, List.append_assoc]
    rfl

theorem head?_separator_ne (b : Backend) (next : Bytes) :
    (Bytes.ofString ", " ++ next).head? ≠ some b.quoteByte := by
  have hcomma : b.quoteByte ≠ 0x2C := by cases b <;> decide
  exact fun h => hcomma (Option.some.inj h).symm

/-- The items for some names in which quote bytes are doubled. -/
def written (b : Backend) (names : List Bytes) : Bytes :=
  Bytes.joinWith ", " ((names.map (Quoted.doubled b.quoteByte)).map b.aliased)

theorem written_singleton : b.written [name] = b.aliased (Quoted.doubled b.quoteByte name) := by
  simp [written, Bytes.joinWith]

theorem written_cons (hne : names ≠ []) : b.written (name :: names) =
    b.aliased (Quoted.doubled b.quoteByte name) ++ (", " ++ b.written names) :=
  Bytes.joinWith_cons (by simpa using hne)

theorem readItem_aliased (hrest : rest.head? ≠ some b.quoteByte) :
    b.readItem (b.aliased (Quoted.doubled b.quoteByte name) ++ rest) = some (name, rest) :=
  readItem_eq_some_iff.2 ⟨by simp [aliased], hrest⟩

theorem eq_aliased_of_readItem (h : b.readItem text = some (name, rest)) :
    text = b.aliased (Quoted.doubled b.quoteByte name) ++ rest := by
  rw [(readItem_eq_some_iff.1 h).1]
  simp [aliased]

theorem readItems_of_last (h : b.readItem text = some (name, [])) :
    b.readItems text = some [name] := by
  rw [readItems]
  split
  · next hnone => cases hnone.symm.trans h
  · next hsome =>
    cases hsome.symm.trans h
    rfl

theorem readItems_of_next {next : Bytes} (h : b.readItem text = some (name, ", " ++ next)) :
    b.readItems text = (b.readItems next).map (name :: ·) := by
  have hmore : List.isPrefixOf? ", " (Bytes.ofString ", " ++ next) = some next :=
    List.isPrefixOf?_eq_some_iff_append_eq.2 rfl
  rw [readItems]
  split
  · next hnone => cases hnone.symm.trans h
  · next hsome =>
    cases hsome.symm.trans h
    have hne : Bytes.ofString ", " ++ next ≠ [] := List.cons_ne_nil 0x2C (0x20 :: next)
    rw [if_neg hne]
    split
    · next hnone => cases hnone.symm.trans hmore
    · next hsome => rw [Option.some.inj (hsome.symm.trans hmore)]

theorem readItems_written (hne : names ≠ []) : b.readItems (b.written names) = some names := by
  induction names with
  | nil => exact absurd rfl hne
  | cons name names ih =>
    by_cases hnames : names = []
    · subst hnames
      refine readItems_of_last ?_
      rw [written_singleton, ← List.append_nil (b.aliased _)]
      exact readItem_aliased nofun
    · have hitem : b.readItem (b.written (name :: names)) =
          some (name, ", " ++ b.written names) := by
        rw [written_cons hnames]
        exact readItem_aliased (head?_separator_ne b _)
      rw [readItems_of_next hitem, ih hnames]
      rfl

/-- The items that can be read are those for names in which quote bytes are doubled. -/
theorem readItems_eq_some_iff : b.readItems text = some names ↔
    names ≠ [] ∧ text = b.written names := by
  refine ⟨fun h => ?_, fun ⟨hne, htext⟩ => htext ▸ readItems_written hne⟩
  fun_induction readItems b text generalizing names with
  | case1 text hitem => cases h
  | case2 text name hitem =>
    cases h
    refine ⟨nofun, ?_⟩
    rw [written_singleton, eq_aliased_of_readItem hitem, List.append_nil]
  | case3 text name rest hitem hrest hnext => cases h
  | case4 text name rest hitem hrest next hnext ih =>
    obtain ⟨names, hnames, rfl⟩ := Option.map_eq_some_iff.1 h
    obtain ⟨hne, rfl⟩ := ih hnames
    refine ⟨nofun, ?_⟩
    rw [written_cons hne, eq_aliased_of_readItem hitem,
      List.isPrefixOf?_eq_some_iff_append_eq.1 hnext]

/-- The texts that can be read are those for names in which quote bytes are doubled. -/
theorem readKeys_eq_some_iff : b.readKeys text = some names ↔
    names ≠ [] ∧ text = b.keysSql (names.map (Quoted.doubled b.quoteByte)) := by
  simp only [readKeys, Option.bind_eq_some_iff, List.isPrefixOf?_eq_some_iff_append_eq,
    readItems_eq_some_iff, keysSql_eq]
  constructor
  · rintro ⟨_, rfl, hne, rfl⟩
    exact ⟨hne, rfl⟩
  · rintro ⟨hne, rfl⟩
    exact ⟨_, rfl, hne, rfl⟩

/-! ## Names as they are -/

/-- Some names do without the byte that quotes them. -/
def QuoteFree (b : Backend) (keys : List Bytes) : Prop := ∀ key ∈ keys, b.quoteByte ∉ key

theorem map_doubled_of_quoteFree (h : b.QuoteFree keys) :
    keys.map (Quoted.doubled b.quoteByte) = keys :=
  (List.map_congr_left fun key hkey => Quoted.doubled_of_notMem (h key hkey)).trans
    (List.map_id' keys)

/-- The length of the text, with the separator that the last item lacks. -/
theorem length_keysSql (b : Backend) (h : names ≠ []) : (b.keysSql names).length + 2 =
    7 + (names.map fun name => (b.aliased name).length + 2).sum := by
  have hjoined : (Bytes.joinWith ", " (names.map b.aliased)).length + 2 =
      ((names.map b.aliased).map fun part => part.length + 2).sum :=
    Bytes.length_joinWith (by simpa using h)
  rw [List.map_map] at hjoined
  rw [keysSql_eq, List.length_append, Nat.add_assoc, hjoined]
  rfl

/-- Doubling a quote byte makes the text longer. -/
theorem length_lt_of_not_quoteFree (h : ¬b.QuoteFree keys) : (b.keysSql keys).length <
    (b.keysSql (keys.map (Quoted.doubled b.quoteByte))).length := by
  obtain ⟨key, hkey, hquote⟩ : ∃ key ∈ keys, b.quoteByte ∈ key := by
    simpa [QuoteFree] using h
  have hne : keys ≠ [] := List.ne_nil_of_mem hkey
  have hsum : (keys.map fun key => (b.aliased key).length + 2).sum <
      (keys.map fun key => (b.aliased (Quoted.doubled b.quoteByte key)).length + 2).sum := by
    refine List.sum_lt_sum _ _ (fun name _ => ?_) ⟨key, hkey, ?_⟩
    · simp [aliased, Quoted.length_doubled]
    · simpa [aliased, Quoted.length_doubled] using List.count_pos_iff.2 hquote
  have hmap : keys.map (Quoted.doubled b.quoteByte) ≠ [] := mt List.map_eq_nil_iff.1 hne
  have hplain := length_keysSql b hne
  have hdoubled := length_keysSql b hmap
  rw [List.map_map, Function.comp_def] at hdoubled
  omega

/-- The aliases are the names exactly where no name contains the quote byte, and so the text then
determines the names. They are the names, whatever these contain, where quote bytes are doubled
beforehand. But the text for a name with a quote byte in it can be that for two others. -/
theorem keys_read_back (b : Backend) :
    (∀ keys, b.readKeys (b.keysSql keys) = some keys ↔ keys ≠ [] ∧ b.QuoteFree keys) ∧
    (∀ keys keys', keys ≠ [] → b.QuoteFree keys → b.keysSql keys = b.keysSql keys' →
      (keys' = keys ↔ keys' ≠ [] ∧ b.QuoteFree keys')) ∧
    (∀ keys, keys ≠ [] →
      b.readKeys (b.keysSql (keys.map (Quoted.doubled b.quoteByte))) = some keys) ∧
    ∀ key key', b.keysSql [key ++ (b.quoteByte :: ", " ++ b.opening) ++ key'] =
      b.keysSql [key, key'] := by
  have hiff (keys : List Bytes) :
      b.readKeys (b.keysSql keys) = some keys ↔ keys ≠ [] ∧ b.QuoteFree keys := by
    rw [readKeys_eq_some_iff]
    refine and_congr_right fun _ => ⟨fun heq => ?_, fun h => ?_⟩
    · by_contra h
      have hlt := length_lt_of_not_quoteFree h
      rw [← heq] at hlt
      exact Nat.lt_irrefl _ hlt
    · rw [map_doubled_of_quoteFree h]
  refine ⟨hiff, fun keys keys' hne h heq => ?_, fun keys hne => ?_, fun key key' => ?_⟩
  · have hread := (hiff keys).2 ⟨hne, h⟩
    rw [heq] at hread
    rw [← hiff keys', hread, Option.some_inj, eq_comm]
  · exact readKeys_eq_some_iff.2 ⟨hne, rfl⟩
  · simp [keysSql_eq, aliased, Bytes.joinWith]

/-- The name `id", last_insert_rowid() AS "no` is read as two keys, unlike the same name with its
quotes doubled. -/
theorem key_read_as_two :
    let key : Bytes := "id\", last_insert_rowid() AS \"no"
    let keys : List Bytes := ["id", "no"]
    (keys ≠ [] ∧ sqlite.QuoteFree keys ∧ sqlite.keysSql keys = sqlite.keysSql [key]) ∧
    sqlite.readKeys (sqlite.keysSql keys) = some keys ∧
    sqlite.readKeys (sqlite.keysSql [key]) = some keys ∧
    ¬sqlite.QuoteFree [key] ∧
    sqlite.readKeys (sqlite.keysSql [Quoted.doubled Quoted.doubleQuote key]) = some [key] := by
  intro key keys
  obtain ⟨hreads, hsame, hdoubled, hforged⟩ := keys_read_back sqlite
  have hfree : sqlite.QuoteFree keys := by
    unfold QuoteFree
    decide
  have htext : sqlite.keysSql keys = sqlite.keysSql [key] := (hforged "id" "no").symm
  have hread : sqlite.readKeys (sqlite.keysSql keys) = some keys := (hreads keys).2 ⟨nofun, hfree⟩
  refine ⟨⟨nofun, hfree, htext⟩, hread, htext ▸ hread, fun hkey => ?_, hdoubled [key] nofun⟩
  have hequal : [key] = keys := (hsame keys [key] nofun hfree htext).2 ⟨nofun, hkey⟩
  exact absurd (congrArg List.length hequal) (by decide)

end Backend

end SqlAccess
