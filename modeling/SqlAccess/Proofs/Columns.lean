import Mathlib.Data.List.Induction
import SqlAccess.Proofs.Declarations
import SqlAccess.Statement.Cursor

/-!
# The column under a name

A column that can be read is entered under its raw name and under its mapped one, over what another
column has entered there. So what is found under a name is the last column of the result that can be
read and has the name for one of its spellings (`Column.find?_eq_some_iff`). It does not count which
of the two it is: a raw name is found unless a later column is mapped to it
(`Column.found_under_declared_name`).
-/

namespace SqlAccess

namespace Column

/-! ## The last of a kind -/

section Last

variable {α : Type} {p q : α → Prop} {l : List α} {a b : α} {i j : Nat}

/-- The last element with a property, at its index. -/
structure LastAt (p : α → Prop) (l : List α) (i : Nat) (a : α) : Prop where
  at_index : l[i]? = some a
  holds : p a
  later : ∀ j b, i < j → l[j]? = some b → ¬p b

theorem LastAt.le (h : LastAt p l i a) (hj : l[j]? = some b) (hb : p b) : j ≤ i := by
  by_contra hlt
  exact h.later j b (by omega) hj hb

theorem LastAt.congr (h : LastAt p l i a) (hpq : ∀ b ∈ l, p b ↔ q b) : LastAt q l i a := by
  refine ⟨h.at_index, (hpq a (List.mem_of_getElem? h.at_index)).1 h.holds, ?_⟩
  intro j b hj hat hb
  exact h.later j b hj hat ((hpq b (List.mem_of_getElem? hat)).2 hb)

theorem not_lastAt_nil : ¬LastAt p [] i a := by
  intro h
  cases h.at_index

theorem getElem?_append_singleton_eq_some_iff :
    (l ++ [b])[i]? = some a ↔ l[i]? = some a ∨ i = l.length ∧ a = b := by
  rw [List.getElem?_append, List.getElem?_singleton]
  grind

/-- An element with the property is the last one behind all others. -/
theorem lastAt_append_singleton (hb : p b) :
    LastAt p (l ++ [b]) i a ↔ i = l.length ∧ a = b := by
  constructor
  · intro h
    have hle : l.length ≤ i := h.le List.getElem?_concat_length hb
    rcases getElem?_append_singleton_eq_some_iff.1 h.at_index with hi | hlast
    · have hlt := (List.getElem?_eq_some_iff.1 hi).1
      omega
    · exact hlast
  · rintro ⟨rfl, rfl⟩
    refine ⟨List.getElem?_concat_length, hb, ?_⟩
    intro j c hj hc
    have hlt := (List.getElem?_eq_some_iff.1 hc).1
    rw [List.length_append, List.length_singleton] at hlt
    omega

/-- An element without the property does not count. -/
theorem lastAt_append_singleton_of_not (hb : ¬p b) :
    LastAt p (l ++ [b]) i a ↔ LastAt p l i a := by
  constructor
  · intro h
    refine ⟨?_, h.holds, fun j c hj hc => h.later j c hj ?_⟩
    · rcases getElem?_append_singleton_eq_some_iff.1 h.at_index with hi | ⟨-, rfl⟩
      · exact hi
      · exact absurd h.holds hb
    · exact getElem?_append_singleton_eq_some_iff.2 (.inl hc)
  · intro h
    refine ⟨getElem?_append_singleton_eq_some_iff.2 (.inl h.at_index), h.holds, ?_⟩
    intro j c hj hc
    rcases getElem?_append_singleton_eq_some_iff.1 hc with hc | ⟨-, rfl⟩
    · exact h.later j c hj hc
    · exact hb

/-- Where an element has the property, there is a last one that has it. -/
theorem exists_lastAt (ha : a ∈ l) (hp : p a) : ∃ i b, LastAt p l i b := by
  induction l using List.reverseRecOn with
  | nil => cases ha
  | append_singleton l b ih =>
    by_cases hb : p b
    · exact ⟨l.length, b, (lastAt_append_singleton hb).2 ⟨rfl, rfl⟩⟩
    · have hmem : a ∈ l := by
        rcases List.mem_append.1 ha with ha | ha
        · exact ha
        · rw [List.mem_singleton] at ha
          exact absurd (ha ▸ hp) hb
      obtain ⟨i, c, h⟩ := ih hmem
      exact ⟨i, c, (lastAt_append_singleton_of_not hb).2 h⟩

end Last

/-! ## Spellings -/

/-- The name of a reported column itself, in lower case. -/
def rawName (reported : Bytes) : Bytes := Name.toLower (bareName reported)

/-- The mapped spelling of a reported column. -/
def mappedName (options : Options) (reported : Bytes) : Bytes :=
  mappedSpelling options.mapper (bareName reported)

/-- A reported column has a name for one of its two spellings. -/
def Spelled (options : Options) (name reported : Bytes) : Prop :=
  rawName reported = name ∨ mappedName options reported = name

/-- The type by which a reported column is read, if it is declared and can be read. -/
def reader? (options : Options) (declared : TypeMap) (reported : Bytes) : Option ValueType :=
  (declaredType? declared (rawName reported) (mappedName options reported)).bind options.accessors

/-- A reported column can be read under a name. -/
def Readable (options : Options) (declared : TypeMap) (name reported : Bytes) : Prop :=
  (reader? options declared reported).isSome ∧ Spelled options name reported

variable {options : Options} {declared : TypeMap} {columns columns' : NameMap Column}
  {reported : List Bytes} {r name : Bytes} {i : Nat} {column : Column}

/-! ## Entering the columns -/

/-- A column that can be read is entered under both of its spellings, and one that is not declared
leaves the others as they are. -/
theorem enter_eq_ok_iff : enter options declared columns (r, i) = .ok columns' ↔
    (declaredType? declared (rawName r) (mappedName options r) = none ∧ columns' = columns) ∨
      ∃ accessor, reader? options declared r = some accessor ∧
        columns' = (columns.insert (rawName r) ⟨accessor, i⟩).insert (mappedName options r)
          ⟨accessor, i⟩ := by
  simp only [enter, reader?, rawName, mappedName]
  cases declaredType? declared (Name.toLower (bareName r))
      (mappedSpelling options.mapper (bareName r)) with
  | none => simp [eq_comm]
  | some type =>
    cases haccessor : options.accessors type with
    | none => simp [haccessor]
    | some accessor => simp [haccessor, eq_comm]

/-- A column that can be read under a name is what is found under it next. -/
theorem find?_of_enter (h : enter options declared columns (r, i) = .ok columns')
    (hr : Readable options declared name r) : columns'.find? name = some column ↔
      column.index = i ∧ reader? options declared r = some column.accessor := by
  obtain ⟨hsome, hspelled⟩ := hr
  rcases enter_eq_ok_iff.1 h with ⟨hnone, -⟩ | ⟨accessor, hreader, rfl⟩
  · simp [reader?, hnone] at hsome
  · have hfind : ((columns.insert (rawName r) ⟨accessor, i⟩).insert (mappedName options r)
        ⟨accessor, i⟩).find? name = some ⟨accessor, i⟩ := by
      simp only [NameMap.find?_insert]
      rcases hspelled with rfl | rfl <;> simp
    cases column
    simp [hfind, hreader, and_comm, eq_comm]

/-- Any other column leaves what is found under the name. -/
theorem find?_of_enter_of_not (h : enter options declared columns (r, i) = .ok columns')
    (hr : ¬Readable options declared name r) : columns'.find? name = columns.find? name := by
  rcases enter_eq_ok_iff.1 h with ⟨-, rfl⟩ | ⟨accessor, hreader, rfl⟩
  · rfl
  · have hraw : name ≠ rawName r := fun heq => hr ⟨by simp [hreader], .inl heq.symm⟩
    have hmapped : name ≠ mappedName options r := fun heq => hr ⟨by simp [hreader], .inr heq.symm⟩
    rw [NameMap.find?_insert, if_neg hmapped, NameMap.find?_insert, if_neg hraw]

theorem resolve_append_singleton : resolve options declared (reported ++ [r]) = .ok columns' ↔
    ∃ columns, resolve options declared reported = .ok columns ∧
      enter options declared columns (r, reported.length) = .ok columns' := by
  rw [resolve, List.zipIdx_append, List.foldlM_append, bind_eq_ok_iff]
  simp [resolve]

/-- What is found under a name is the last column that can be read under it. -/
theorem find?_eq_some_iff (h : resolve options declared reported = .ok columns) :
    columns.find? name = some column ↔
      ∃ r, LastAt (Readable options declared name) reported column.index r ∧
        reader? options declared r = some column.accessor := by
  induction reported using List.reverseRecOn generalizing columns with
  | nil =>
    obtain rfl : NameMap.empty = columns := Except.ok.inj h
    simp [not_lastAt_nil]
  | append_singleton reported s ih =>
    obtain ⟨before, hbefore, henter⟩ := resolve_append_singleton.1 h
    by_cases hs : Readable options declared name s
    · simp [find?_of_enter henter hs, lastAt_append_singleton hs]
    · rw [find?_of_enter_of_not henter hs, ih hbefore]
      simp only [lastAt_append_singleton_of_not hs]

/-! ## Looking a column up -/

variable {c : Cursor} {b : Backend} {spelled : Bytes} {row : List Cell} {cell : Cell}

theorem hasColumn_of_find? (h : c.columns.find? (Name.toLower spelled) = some column) :
    c.hasColumn (some spelled) = true := by
  simp [Cursor.hasColumn, NameMap.contains, h]

theorem read_of_find? (h : c.columns.find? (Name.toLower spelled) = some column)
    (hpos : 0 ≤ c.position) (hrow : c.rows[c.position.toNat]? = some row)
    (hcell : row[column.index]? = some cell) :
    c.read b (some spelled) = .ok (b.value column.accessor cell) := by
  have hget : c.rows.getD c.position.toNat [] = row := by
    rw [List.getD_eq_getElem?_getD, hrow, Option.getD_some]
  have hfront : ¬c.position < 0 := by omega
  simp only [Cursor.read, h, hget, hcell, if_neg hfront]
  rfl

/-! ## Declared names -/

/-- Where the columns have been entered, each that is declared can be read. -/
theorem isSome_reader? (h : resolve options declared reported = .ok columns) (hmem : r ∈ reported)
    (htype : (declaredType? declared (rawName r) (mappedName options r)).isSome) :
    (reader? options declared r).isSome := by
  induction reported using List.reverseRecOn generalizing columns with
  | nil => cases hmem
  | append_singleton reported s ih =>
    obtain ⟨before, hbefore, henter⟩ := resolve_append_singleton.1 h
    rcases List.mem_append.1 hmem with hmem | hmem
    · exact ih hbefore hmem
    · obtain rfl := List.mem_singleton.1 hmem
      rcases enter_eq_ok_iff.1 henter with ⟨hnone, -⟩ | ⟨accessor, hreader, -⟩
      · simp [hnone] at htype
      · simp [hreader]

/-- A column can be read under a declared name as soon as it has it for a spelling. -/
theorem readable_iff_of_declared (h : resolve options declared reported = .ok columns)
    (hdeclared : declared.contains name) (hmem : r ∈ reported) :
    Readable options declared name r ↔ Spelled options name r := by
  constructor
  · exact And.right
  · intro hspelled
    refine ⟨isSome_reader? h hmem ?_, hspelled⟩
    obtain ⟨type, htype⟩ := NameMap.contains_iff.1 hdeclared
    rcases hspelled with rfl | rfl
    · simp [declaredType?, htype]
    · cases hraw : declared.find? (rawName r) <;> simp [declaredType?, htype, hraw]

/-- Under a declared name that a column has, the last column is found that has it for a spelling,
and this is a column of that name exactly if one of that name has none behind it that is mapped
to it. -/
theorem found_under_declared_name (hcolumns : resolve options declared reported = .ok c.columns)
    (hdeclared : declared.contains name) (hmem : r ∈ reported) (hraw : rawName r = name) :
    ∃ column s, c.columns.find? name = some column ∧
      LastAt (Spelled options name) reported column.index s ∧
      reader? options declared s = some column.accessor ∧
      (∀ spelled, Name.toLower spelled = name → c.hasColumn (some spelled) = true ∧
        ∀ b row cell, 0 ≤ c.position → c.rows[c.position.toNat]? = some row →
          row[column.index]? = some cell →
            c.read b (some spelled) = .ok (b.value column.accessor cell)) ∧
      (rawName s = name ↔ ∃ (i : Nat) (s' : Bytes), reported[i]? = some s' ∧ rawName s' = name ∧
        ∀ (j : Nat) (s'' : Bytes), i < j → reported[j]? = some s'' →
          mappedName options s'' ≠ name) := by
  have hreadable (s) (hs : s ∈ reported) := readable_iff_of_declared hcolumns hdeclared hs
  obtain ⟨k, s, hlast⟩ := exists_lastAt hmem ((hreadable r hmem).2 (.inl hraw))
  obtain ⟨accessor, hreader⟩ := Option.isSome_iff_exists.1 hlast.holds.1
  have hfind : c.columns.find? name = some ⟨accessor, k⟩ :=
    (find?_eq_some_iff hcolumns).2 ⟨s, hlast, hreader⟩
  have hspelled : LastAt (Spelled options name) reported k s := hlast.congr hreadable
  refine ⟨⟨accessor, k⟩, s, hfind, hspelled, hreader, ?_, ?_, ?_⟩
  · rintro spelled rfl
    refine ⟨hasColumn_of_find? hfind, ?_⟩
    intro b row cell hpos hrow hcell
    exact read_of_find? hfind hpos hrow hcell
  · intro hs
    refine ⟨k, s, hspelled.at_index, hs, ?_⟩
    intro j s'' hj hat hmapped
    exact hspelled.later j s'' hj hat (.inr hmapped)
  · rintro ⟨i, s', hat, hs', hnone⟩
    -- the column found is the one of that name, or it is behind it and not mapped to the name
    rcases Nat.eq_or_lt_of_le (hspelled.le hat (.inl hs')) with rfl | hlt
    · rw [hspelled.at_index] at hat
      rwa [Option.some.inj hat]
    · rcases hspelled.holds with hs | hmapped
      · exact hs
      · exact absurd hmapped (hnone k s hlt hspelled.at_index)

/-- A column that is mapped to a declared name is found in the place of an earlier one of that
name. -/
theorem found_by_mapped_name :
    let declared : TypeMap := .ofList [("empno", .int32)]
    let reported : List Bytes := ["empno", "emp_no"]
    ∃ c : Cursor, resolve {} declared reported = .ok c.columns ∧
      rawName "empno" = "empno" ∧ (∃ column s, c.columns.find? "empno" = some column ∧
        reported[column.index]? = some s ∧ rawName s ≠ "empno") ∧
      c.rows = [[.int 1, .int 2]] ∧ c.position = 0 ∧
      c.read .sqlite (some "EmpNo") = .ok (.int32 2) := by
  intro declared reported
  let columns := ((NameMap.empty.insert "empno" (⟨.int32, 0⟩ : Column)).insert "empno"
    ⟨.int32, 1⟩).insert "emp_no" ⟨.int32, 1⟩
  let c : Cursor := { columns := columns, rows := [[.int 1, .int 2]], position := 0 }
  have hc : resolve {} declared reported = .ok c.columns := rfl
  have hdeclared : declared.contains "empno" := by decide
  have hmem : ("empno" : Bytes) ∈ reported := List.mem_cons_self
  obtain ⟨column, s, hfind, hlast, hreader, hlook, -⟩ :=
    found_under_declared_name hc hdeclared hmem (by decide)
  obtain ⟨-, hread⟩ := hlook "EmpNo" (by decide)
  -- the second column has the name as well, so it is the last one
  have hmapped : Spelled {} "empno" "emp_no" := .inr (by decide)
  have hsecond : reported[1]? = some ("emp_no" : Bytes) := rfl
  have hle : 1 ≤ column.index := hlast.le hsecond hmapped
  have hlt : column.index < 2 := (List.getElem?_eq_some_iff.1 hlast.at_index).1
  have hindex : column.index = 1 := by omega
  have hat := hlast.at_index
  rw [hindex] at hat
  obtain rfl : "emp_no" = s := Option.some.inj hat
  have haccessor : some ValueType.int32 = some column.accessor := hreader
  refine ⟨c, hc, by decide, ⟨column, "emp_no", hfind, hlast.at_index, by decide⟩, rfl, rfl, ?_⟩
  rw [hread .sqlite [.int 1, .int 2] (.int 2) (by decide) rfl (by rw [hindex]; rfl),
    ← Option.some.inj haccessor]
  rfl

end Column

end SqlAccess
