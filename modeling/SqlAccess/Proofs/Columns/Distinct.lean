import SqlAccess.Proofs.Columns

/-!
# Columns without collisions

Camel case takes the underscores out of a name and otherwise changes nothing but the case of letters
(`Name.toLower_toCamel`). So two columns can only share a spelling if their names are the same but
for case and underscores. Where no two are, each spelling belongs to one column
(`Column.index_eq_of_spelled`), and no column is entered over another one: the columns that are
declared are found under their spellings, and nothing else is found (`Column.found_exactly`).
-/

namespace SqlAccess

namespace Name

/-- A name without its underscores. -/
def joined (name : Bytes) : Bytes := name.filter (· != 0x5F)

theorem lowerByte_upperByte (b : UInt8) : lowerByte (upperByte b) = lowerByte b := by
  unfold lowerByte upperByte isUpper isLower
  grind

theorem lowerByte_eq_underscore_iff {b : UInt8} : lowerByte b = 0x5F ↔ b = 0x5F := by
  unfold lowerByte isUpper
  grind

theorem joined_toLower_cons (b : UInt8) (name : Bytes) : joined (toLower (b :: name)) =
    if b = 0x5F then joined (toLower name) else lowerByte b :: joined (toLower name) := by
  by_cases hb : b = 0x5F <;> simp [joined, toLower, lowerByte_eq_underscore_iff, hb]

/-- Camel case loses the underscores of a name and the case of its letters, and no more. -/
theorem toLower_camelFrom (written capital : Bool) (name : Bytes) :
    toLower (camelFrom written capital name) = joined (toLower name) := by
  fun_induction camelFrom written capital name with
  | case1 => rfl
  | case2 written capital rest ih => rw [joined_toLower_cons, if_pos rfl, ih]
  | case3 written capital b rest hb ih =>
    have hbyte : lowerByte (if capital then upperByte b else b) = lowerByte b := by
      cases capital
      · rfl
      · exact lowerByte_upperByte b
    rw [joined_toLower_cons, if_neg hb, ← ih, ← hbyte]
    rfl

theorem toLower_toCamel (name : Bytes) : toLower (toCamel name) = joined (toLower name) :=
  toLower_camelFrom false false name

theorem joined_joined (name : Bytes) : joined (joined name) = joined name := by
  simp [joined]

end Name

namespace Column

variable {options : Options} {declared : TypeMap} {columns : NameMap Column}
  {reported : List Bytes} {r s name : Bytes} {i j : Nat} {column : Column} {type : ValueType}

/-! ## Spellings in camel case -/

theorem mappedName_eq (hmapper : options.mapper = some Name.toCamel) :
    mappedName options r = Name.joined (rawName r) := by
  rw [mappedName, mappedSpelling, hmapper]
  exact Name.toLower_toCamel (bareName r)

theorem joined_of_spelled (hmapper : options.mapper = some Name.toCamel)
    (h : Spelled options name r) : Name.joined name = Name.joined (rawName r) := by
  rcases h with rfl | rfl
  · rfl
  · rw [mappedName_eq hmapper, Name.joined_joined]

/-- Where the names of the columns differ in more than case and underscores, a spelling belongs to
one column. -/
theorem index_eq_of_spelled (hmapper : options.mapper = some Name.toCamel)
    (hdistinct : (reported.map fun r => Name.joined (rawName r)).Nodup)
    (hi : reported[i]? = some r) (hr : Spelled options name r)
    (hj : reported[j]? = some s) (hs : Spelled options name s) : i = j := by
  have hjoined : Name.joined (rawName r) = Name.joined (rawName s) :=
    (joined_of_spelled hmapper hr).symm.trans (joined_of_spelled hmapper hs)
  have hlt : i < (reported.map fun r => Name.joined (rawName r)).length := by
    simpa using (List.getElem?_eq_some_iff.1 hi).1
  refine (List.getElem?_inj hlt hdistinct).1 ?_
  rw [List.getElem?_map, List.getElem?_map, hi, hj, Option.map_some, Option.map_some, hjoined]

/-! ## Declared columns -/

/-- A reported column is declared under its own name, or under its mapped spelling. -/
def Declared (options : Options) (declared : TypeMap) (reported : Bytes) : Prop :=
  declared.contains (rawName reported) ∨ declared.contains (mappedName options reported)

/-- A reported column is declared with a type under its own name, or has none there and is declared
with it under its mapped spelling. -/
def DeclaredAs (options : Options) (declared : TypeMap) (reported : Bytes) (type : ValueType) :
    Prop :=
  declared.find? (rawName reported) = some type ∨
    declared.find? (rawName reported) = none ∧
      declared.find? (mappedName options reported) = some type

theorem declaredType?_eq_some_iff :
    declaredType? declared (rawName r) (mappedName options r) = some type ↔
      DeclaredAs options declared r type := by
  unfold declaredType? DeclaredAs
  cases declared.find? (rawName r) <;> simp

theorem declared_iff :
    Declared options declared r ↔ ∃ type, DeclaredAs options declared r type := by
  simp only [Declared, NameMap.contains_iff, DeclaredAs]
  cases declared.find? (rawName r) <;> simp

/-- A column is read by the accessor of the type that it is declared with. -/
theorem reader?_eq_some_iff {accessor : ValueType} : reader? options declared r = some accessor ↔
    ∃ type, DeclaredAs options declared r type ∧ options.accessors type = some accessor := by
  simp only [reader?, Option.bind_eq_some_iff, declaredType?_eq_some_iff]

theorem exists_reader_of_declaredAs
    (haccessors : ∀ name type, declared.find? name = some type → (options.accessors type).isSome)
    (h : DeclaredAs options declared r type) :
    ∃ accessor, options.accessors type = some accessor ∧
      reader? options declared r = some accessor := by
  have hsome : (options.accessors type).isSome := by
    rcases h with hraw | ⟨-, hmapped⟩
    · exact haccessors _ _ hraw
    · exact haccessors _ _ hmapped
  obtain ⟨accessor, haccessor⟩ := Option.isSome_iff_exists.1 hsome
  exact ⟨accessor, haccessor, reader?_eq_some_iff.2 ⟨type, h, haccessor⟩⟩

/-- The columns can be entered if each type that is declared has an accessor. -/
theorem exists_resolve
    (haccessors : ∀ name type, declared.find? name = some type → (options.accessors type).isSome)
    (reported : List Bytes) : ∃ columns, resolve options declared reported = .ok columns := by
  induction reported using List.reverseRecOn with
  | nil => exact ⟨.empty, rfl⟩
  | append_singleton reported r ih =>
    obtain ⟨columns, hcolumns⟩ := ih
    cases htype : declaredType? declared (rawName r) (mappedName options r) with
    | none =>
      exact ⟨columns, resolve_append_singleton.2
        ⟨columns, hcolumns, enter_eq_ok_iff.2 (.inl ⟨htype, rfl⟩)⟩⟩
    | some type =>
      obtain ⟨accessor, -, hreader⟩ :=
        exists_reader_of_declaredAs haccessors (declaredType?_eq_some_iff.1 htype)
      exact ⟨_, resolve_append_singleton.2
        ⟨columns, hcolumns, enter_eq_ok_iff.2 (.inr ⟨accessor, hreader, rfl⟩)⟩⟩

/-! ## What is found -/

/-- Without collisions, what is found under a name is the column that has it for a spelling, if this
one can be read. -/
theorem find?_iff_of_distinct (hmapper : options.mapper = some Name.toCamel)
    (hdistinct : (reported.map fun r => Name.joined (rawName r)).Nodup)
    (hcolumns : resolve options declared reported = .ok columns) :
    columns.find? name = some column ↔ ∃ r, reported[column.index]? = some r ∧
      Spelled options name r ∧ reader? options declared r = some column.accessor := by
  rw [find?_eq_some_iff hcolumns]
  constructor
  · rintro ⟨r, hlast, hreader⟩
    exact ⟨r, hlast.at_index, hlast.holds.2, hreader⟩
  · rintro ⟨r, hat, hspelled, hreader⟩
    refine ⟨r, ⟨hat, ⟨by simp [hreader], hspelled⟩, ?_⟩, hreader⟩
    intro j s hj hs hreadable
    have hindex := index_eq_of_spelled hmapper hdistinct hat hspelled hs hreadable.2
    omega

theorem hasColumn_eq_false_iff {c : Cursor} {spelled : Bytes} :
    c.hasColumn (some spelled) = false ↔ c.columns.find? (Name.toLower spelled) = none := by
  simp [Cursor.hasColumn, NameMap.contains]

theorem read_of_not_hasColumn {c : Cursor} {spelled : Bytes} (b : Backend)
    (h : c.hasColumn (some spelled) = false) (hpos : 0 ≤ c.position) :
    c.read b (some spelled) = .error (.unknownColumn spelled) := by
  have hfront : ¬c.position < 0 := by omega
  simp only [Cursor.read, hasColumn_eq_false_iff.1 h, if_neg hfront]
  rfl

/-- Where the names of the columns differ in more than case and underscores, the columns can be
entered, and a name in any case is found exactly if it is a spelling of a column that is declared.
Both spellings lead to this column, which is read by the accessor of its declared type; a column
that is not declared is found under no name. -/
theorem found_exactly (hmapper : options.mapper = some Name.toCamel)
    (haccessors : ∀ name type, declared.find? name = some type → (options.accessors type).isSome)
    (hdistinct : (reported.map fun r => Name.joined (rawName r)).Nodup) :
    (∃ columns, resolve options declared reported = .ok columns) ∧
    ∀ c : Cursor, resolve options declared reported = .ok c.columns →
      (∀ spelled, c.hasColumn (some spelled) = true ↔ ∃ r ∈ reported,
        Spelled options (Name.toLower spelled) r ∧ Declared options declared r) ∧
      (∀ (i : Nat) (r : Bytes) type, reported[i]? = some r → DeclaredAs options declared r type →
        ∃ accessor, options.accessors type = some accessor ∧
          ∀ spelled, Spelled options (Name.toLower spelled) r →
            c.columns.find? (Name.toLower spelled) = some ⟨accessor, i⟩ ∧
            ∀ b row cell, 0 ≤ c.position → c.rows[c.position.toNat]? = some row →
              row[i]? = some cell → c.read b (some spelled) = .ok (b.value accessor cell)) ∧
      (∀ spelled b, c.hasColumn (some spelled) = false → 0 ≤ c.position →
        c.read b (some spelled) = .error (.unknownColumn spelled)) ∧
      ∀ (i : Nat) (r : Bytes), reported[i]? = some r → ¬Declared options declared r →
        ∀ name column, c.columns.find? name = some column → column.index ≠ i := by
  refine ⟨exists_resolve haccessors reported, fun c hcolumns => ?_⟩
  have hfind {name : Bytes} {column : Column} : c.columns.find? name = some column ↔
      ∃ r, reported[column.index]? = some r ∧ Spelled options name r ∧
        reader? options declared r = some column.accessor :=
    find?_iff_of_distinct hmapper hdistinct hcolumns
  refine ⟨fun spelled => ⟨fun h => ?_, ?_⟩, fun i r type hi htype => ?_,
    fun spelled b h hpos => read_of_not_hasColumn b h hpos,
    fun i r hi hnot name column hfound hindex => ?_⟩
  · obtain ⟨column, hfound⟩ := NameMap.contains_iff.1 h
    obtain ⟨r, hat, hspelled, hreader⟩ := hfind.1 hfound
    obtain ⟨type, htype, -⟩ := reader?_eq_some_iff.1 hreader
    exact ⟨r, List.mem_of_getElem? hat, hspelled, declared_iff.2 ⟨type, htype⟩⟩
  · rintro ⟨r, hmem, hspelled, hdeclared⟩
    obtain ⟨i, hi⟩ := List.mem_iff_getElem?.1 hmem
    obtain ⟨type, htype⟩ := declared_iff.1 hdeclared
    obtain ⟨accessor, -, hreader⟩ := exists_reader_of_declaredAs haccessors htype
    have hcolumn : c.columns.find? (Name.toLower spelled) = some ⟨accessor, i⟩ :=
      hfind.2 ⟨r, hi, hspelled, hreader⟩
    exact hasColumn_of_find? hcolumn
  · obtain ⟨accessor, haccessor, hreader⟩ := exists_reader_of_declaredAs haccessors htype
    refine ⟨accessor, haccessor, fun spelled hspelled => ?_⟩
    have hfound : c.columns.find? (Name.toLower spelled) = some ⟨accessor, i⟩ :=
      hfind.2 ⟨r, hi, hspelled, hreader⟩
    exact ⟨hfound, fun b row cell hpos hrow hcell => read_of_find? hfound hpos hrow hcell⟩
  · obtain ⟨s, hat, -, hreader⟩ := hfind.1 hfound
    obtain rfl : s = r := Option.some.inj ((hindex ▸ hat).symm.trans hi)
    obtain ⟨type, htype, -⟩ := reader?_eq_some_iff.1 hreader
    exact hnot (declared_iff.2 ⟨type, htype⟩)

/-- A column in snake case that is declared in camel case can be read under both of its spellings in
any case, and a column beside it that is not declared cannot be read. -/
theorem found_by_either_spelling :
    let declared : TypeMap := .ofList [("firstname", .text)]
    let reported : List Bytes := ["AGE", "\"First_Name\""]
    (({} : Options).mapper = some Name.toCamel ∧
      (∀ name type, declared.find? name = some type → (Accessors.standard type).isSome) ∧
      (reported.map fun r => Name.joined (rawName r)).Nodup) ∧
    ∃ c : Cursor, resolve {} declared reported = .ok c.columns ∧
      c.rows = [[.int 40, .text "Ann"]] ∧ c.position = 0 ∧
      c.read .sqlite (some "FIRST_NAME") = .ok (.text "Ann") ∧
      c.read .sqlite (some "firstName") = .ok (.text "Ann") ∧
      c.hasColumn (some "age") = false := by
  intro declared reported
  have hmapper : ({} : Options).mapper = some Name.toCamel := rfl
  have haccessors (name : Bytes) (type : ValueType) (h : declared.find? name = some type) :
      (Accessors.standard type).isSome := by
    obtain ⟨-, rfl⟩ := NameMap.find?_singleton.1 h
    rfl
  have hdistinct : (reported.map fun r => Name.joined (rawName r)).Nodup := by decide
  refine ⟨⟨hmapper, haccessors, hdistinct⟩, ?_⟩
  obtain ⟨⟨columns, hcolumns⟩, hfound⟩ := found_exactly hmapper haccessors hdistinct
  let c : Cursor := { columns := columns, rows := [[.int 40, .text "Ann"]], position := 0 }
  obtain ⟨hhas, hread, -, -⟩ := hfound c hcolumns
  have hsecond : reported[1]? = some ("\"First_Name\"" : Bytes) := rfl
  obtain ⟨accessor, haccessor, hread⟩ := hread 1 _ .text hsecond (.inr ⟨rfl, rfl⟩)
  obtain rfl : ValueType.text = accessor := Option.some.inj haccessor
  obtain ⟨-, hsnake⟩ := hread "FIRST_NAME" (.inl rfl)
  obtain ⟨-, hcamel⟩ := hread "firstName" (.inr rfl)
  refine ⟨c, hcolumns, rfl, rfl, hsnake .sqlite _ _ (Int.le_refl 0) rfl rfl,
    hcamel .sqlite _ _ (Int.le_refl 0) rfl rfl, Bool.eq_false_iff.2 fun hage => ?_⟩
  obtain ⟨r, hr, hspelled, hdeclared⟩ := (hhas "age").1 hage
  -- the name is that of the first column, which is not declared, and of no other
  have hnone : ¬∃ r ∈ reported, Spelled {} "age" r ∧ Declared {} declared r := by
    unfold Spelled Declared
    decide
  exact hnone ⟨r, hr, hspelled, hdeclared⟩

end Column

end SqlAccess
