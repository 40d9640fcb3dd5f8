import Mathlib.Data.List.Sort
import SqlAccess.Descriptor
import SqlAccess.Proofs.Numeral
import SqlAccess.Proofs.Tokens

/-!
# Slots

The placeholders of a text are numbered from the left, and the name that owns a placeholder has its
number among its slots. A scan notes the slots under the names as they are written
(`Expansion.slots`); a descriptor has them under the lower-case names, which is the same as putting
together what was noted under the spellings of a name (`Expansion.slotsIn_eq_gathered`).

So the slots of a descriptor are divided among the names, and a name has those that the tokens of
its parameter were given (`Descriptor.slots_partitioned`).
-/

namespace SqlAccess

variable {owners : List Bytes} {name : Bytes} {k : Nat}

/-! ## The slots of a name -/

theorem mem_slotsIn : k ∈ slotsIn owners name ↔ owners[k]? = some name := by
  simp [slotsIn, List.mem_zipIdx_iff_getElem?]

theorem slotsIn_sorted (owners : List Bytes) (name : Bytes) :
    (slotsIn owners name).Pairwise (· < ·) := by
  have hpositions : (owners.zipIdx.map (·.2)).Pairwise (· < ·) := by
    rw [List.zipIdx_map_snd]
    exact List.pairwise_lt_range'
  exact List.pairwise_map.2 ((List.pairwise_map.1 hpositions).filter _)

theorem slotsIn_eq_nil_iff : slotsIn owners name = [] ↔ name ∉ owners := by
  rw [List.eq_nil_iff_forall_not_mem, List.mem_iff_getElem?, not_exists]
  exact forall_congr' fun k => not_congr mem_slotsIn

theorem slotsIn_append (owners more : List Bytes) (name : Bytes) :
    slotsIn (owners ++ more) name =
      slotsIn owners name ++ (slotsIn more name).map (· + owners.length) := by
  have hshift : (slotsIn more name).map (· + owners.length) =
      ((more.zipIdx owners.length).filter fun e => e.1 == name).map (·.2) := by
    rw [List.zipIdx_eq_map_add, List.filter_map, slotsIn, List.map_map, List.map_map]
    simp [Function.comp_def, Nat.add_comm]
  rw [hshift, slotsIn, List.zipIdx_append, List.filter_append, List.map_append, Nat.zero_add]
  rfl

/-! ## The slots that a scan notes -/

namespace Expansion

theorem find?_slots (e : Expansion) (name : Bytes) :
    e.slots.find? name = if name ∈ e.owners then some (slotsIn e.owners name) else none :=
  NameMap.find?_ofList_map e.owners (slotsIn e.owners) name

theorem find?_slots_eq_some_iff {e : Expansion} {slots : List Nat} :
    e.slots.find? name = some slots ↔ name ∈ e.owners ∧ slots = slotsIn e.owners name := by
  rw [find?_slots]
  split <;> simp_all [eq_comm]

theorem getD_slots (e : Expansion) (name : Bytes) :
    (e.slots.find? name).getD [] = slotsIn e.owners name := by
  rw [find?_slots]
  split
  · rfl
  · next h => exact (slotsIn_eq_nil_iff.2 h).symm

/-- A slot is noted under the name that owns its placeholder, and nowhere else. -/
theorem exists_slots_iff {e : Expansion} :
    (∃ slots, e.slots.find? name = some slots ∧ k ∈ slots) ↔ e.owners[k]? = some name := by
  constructor
  · rintro ⟨slots, hslots, hk⟩
    obtain ⟨-, rfl⟩ := find?_slots_eq_some_iff.1 hslots
    exact mem_slotsIn.1 hk
  · intro h
    exact ⟨slotsIn e.owners name, find?_slots_eq_some_iff.2 ⟨List.mem_of_getElem? h, rfl⟩,
      mem_slotsIn.2 h⟩

/-- Where the owners of two scans stand side by side, the slots of the second are counted on. -/
theorem getD_slots_of_append {e a b : Expansion} (h : e.owners = a.owners ++ b.owners)
    (name : Bytes) : (e.slots.find? name).getD [] = (a.slots.find? name).getD [] ++
      ((b.slots.find? name).getD []).map (· + a.count) := by
  rw [getD_slots, getD_slots, getD_slots, h, slotsIn_append]
  rfl

/-- The slots that are noted under the spellings of a lower-case name, in increasing order. -/
def gathered (e : Expansion) (name : Bytes) : List Nat :=
  ((e.slots.entries.filter fun entry => Name.toLower entry.1 = name).flatMap (·.2)).mergeSort

theorem mem_gathered {e : Expansion} :
    k ∈ e.gathered name ↔ (e.owners.map Name.toLower)[k]? = some name := by
  rw [gathered, List.mem_mergeSort, List.mem_flatMap, List.getElem?_map, Option.map_eq_some_iff]
  constructor
  · rintro ⟨⟨spelled, slots⟩, hentry, hk⟩
    obtain ⟨hentry, hlower⟩ := List.mem_filter.1 hentry
    exact ⟨spelled, exists_slots_iff.1 ⟨slots, NameMap.mem_entries.1 hentry, hk⟩,
      of_decide_eq_true hlower⟩
  · rintro ⟨spelled, hspelled, hlower⟩
    obtain ⟨slots, hslots, hk⟩ := exists_slots_iff.2 hspelled
    exact ⟨(spelled, slots),
      List.mem_filter.2 ⟨NameMap.mem_entries.2 hslots, decide_eq_true hlower⟩, hk⟩

theorem gathered_nodup (e : Expansion) (name : Bytes) : (e.gathered name).Nodup := by
  rw [gathered, (List.mergeSort_perm _ _).nodup_iff, List.nodup_flatMap]
  constructor
  · intro entry hentry
    obtain ⟨-, hslots⟩ := find?_slots_eq_some_iff.1
      (NameMap.mem_entries.1 (List.mem_of_mem_filter hentry))
    rw [hslots]
    exact (slotsIn_sorted _ _).nodup
  · refine (e.slots.sorted.filter _).imp_of_mem fun {a b} ha hb hlt k hka hkb => ?_
    -- A slot of two entries would have two owners.
    have howner (entry : Bytes × List Nat) (hentry : entry ∈ e.slots.entries)
        (hk : k ∈ entry.2) : e.owners[k]? = some entry.1 :=
      exists_slots_iff.1 ⟨entry.2, NameMap.mem_entries.1 hentry, hk⟩
    have hsame : some a.1 = some b.1 :=
      (howner a (List.mem_of_mem_filter ha) hka).symm.trans
        (howner b (List.mem_of_mem_filter hb) hkb)
    exact List.lt_irrefl b.1 (Option.some.inj hsame ▸ hlt)

/-- Looking for a lower-case name among the lower-case owners gathers its spellings. -/
theorem slotsIn_eq_gathered (e : Expansion) (name : Bytes) :
    slotsIn (e.owners.map Name.toLower) name = e.gathered name := by
  have hsorted : (slotsIn (e.owners.map Name.toLower) name).Pairwise (· ≤ ·) :=
    (slotsIn_sorted _ _).imp Nat.le_of_lt
  refine List.Perm.eq_of_pairwise' hsorted (List.pairwise_mergeSort' _ _) ?_
  refine (List.perm_ext_iff_of_nodup (slotsIn_sorted _ _).nodup (e.gathered_nodup name)).2 ?_
  intro k
  rw [mem_slotsIn, mem_gathered]

end Expansion

/-! ## The slots of a parameter -/

theorem Bytes.toLower_ofNat (n : Nat) : Name.toLower (Bytes.ofNat n) = Bytes.ofNat n := by
  refine (List.map_congr_left fun d hd => ?_).trans (List.map_id _)
  have hdigit := Numeral.isDigit_iff.1 (Numeral.isDigit_of_mem_ofNat hd)
  have hupper : Name.isUpper d = false := by
    simp only [Name.isUpper, Bool.and_eq_false_iff, decide_eq_false_iff_not, UInt8.le_iff_toNat_le]
    left
    change ¬65 ≤ d.toNat
    omega
  simp [Name.lowerByte, hupper]

theorem toLower_elementName {list : Bytes} (h : Name.toLower list = list) (i : Nat) :
    Name.toLower (elementName list i) = elementName list i := by
  rw [elementName, Name.toLower_append, Name.toLower_append, Name.toLower_append, h,
    Bytes.toLower_ofNat]
  rfl

theorem getElem?_flatMap_eq_some_iff {α β : Type} {f : α → List β} {l : List α} {x : β} :
    (l.flatMap f)[k]? = some x ↔ ∃ before a after, l = before ++ a :: after ∧
      (before.flatMap f).length ≤ k ∧ (f a)[k - (before.flatMap f).length]? = some x := by
  induction l generalizing k with
  | nil => simp
  | cons b l ih =>
    rw [List.flatMap_cons, List.getElem?_append]
    split
    · next hk =>
      constructor
      · intro h
        exact ⟨[], b, l, rfl, by simp, by simpa using h⟩
      · rintro ⟨before, a, after, hl, hle, h⟩
        cases before with
        | nil =>
          obtain ⟨rfl, -⟩ := List.cons.inj hl
          simpa using h
        | cons c before =>
          obtain ⟨rfl, -⟩ := List.cons.inj hl
          rw [List.flatMap_cons, List.length_append] at hle
          omega
    · next hk =>
      rw [ih]
      constructor
      · rintro ⟨before, a, after, rfl, hle, h⟩
        refine ⟨b :: before, a, after, rfl, ?_, ?_⟩
        · rw [List.flatMap_cons, List.length_append]
          omega
        · rwa [List.flatMap_cons, List.length_append, ← Nat.sub_sub]
      · rintro ⟨before, a, after, hl, hle, h⟩
        cases before with
        | nil =>
          obtain ⟨rfl, -⟩ := List.cons.inj hl
          simp [Nat.le_of_not_lt hk] at h
        | cons c before =>
          obtain ⟨rfl, rfl⟩ := List.cons.inj hl
          rw [List.flatMap_cons, List.length_append] at hle h
          exact ⟨before, a, after, rfl, by omega, by rwa [← Nat.sub_sub] at h⟩

namespace Template

variable {sizes : ListSizes} {base : Nat} {p : Bytes} {ts : List Token}

/-- The number of placeholders that are written for a token. -/
def Token.width (sizes : ListSizes) : Token → Nat
  | parameter p =>
    match sizes.find? (Name.toLower p) with
    | none => 1
    | some size => elementCount size
  | _ => 0

/-- The number of placeholders that are written for a list of tokens. -/
def widthOf (sizes : ListSizes) : List Token → Nat
  | [] => 0
  | t :: ts => t.width sizes + widthOf sizes ts

/-- The slots of a parameter that stands behind `base` placeholders, with the lower-case names that
they belong to: a scalar has one slot, a list one for each of its elements. -/
inductive GivesSlot (sizes : ListSizes) (base : Nat) (p : Bytes) : Bytes → Nat → Prop
  | scalar (h : sizes.find? (Name.toLower p) = none) :
    GivesSlot sizes base p (Name.toLower p) base
  | element {size : Int32} {i : Nat} (h : sizes.find? (Name.toLower p) = some size)
    (hi : i < elementCount size) :
    GivesSlot sizes base p (elementName (Name.toLower p) i) (base + i)

theorem Token.length_owners (sizes : ListSizes) (t : Token) :
    (t.owners sizes).length = t.width sizes := by
  cases t with
  | range bytes => rfl
  | parameter p =>
    simp only [Token.owners, Token.width]
    cases sizes.find? (Name.toLower p) <;> simp
  | other b => rfl

theorem length_flatMap_owners (sizes : ListSizes) (ts : List Token) :
    (ts.flatMap (Token.owners sizes)).length = widthOf sizes ts := by
  induction ts with
  | nil => rfl
  | cons t ts ih => rw [List.flatMap_cons, List.length_append, Token.length_owners, ih, widthOf]

theorem givesSlot_iff : GivesSlot sizes base p name k ↔
    base ≤ k ∧ (((Token.parameter p).owners sizes).map Name.toLower)[k - base]? = some name := by
  constructor
  · rintro (h | ⟨h, hi⟩)
    · simp [Token.owners, h]
    · simp [Token.owners, h, hi, toLower_elementName (Name.toLower_toLower p)]
  · rintro ⟨hle, hk⟩
    cases hs : sizes.find? (Name.toLower p) with
    | none =>
      simp only [Token.owners, hs, List.map_cons, List.map_nil, List.getElem?_singleton] at hk
      split at hk
      · next hzero =>
        obtain rfl := Option.some.inj hk
        obtain rfl : k = base := by omega
        exact .scalar hs
      · cases hk
    | some size =>
      simp only [Token.owners, hs, List.map_map, List.getElem?_map, Option.map_eq_some_iff,
        Function.comp_apply, toLower_elementName (Name.toLower_toLower p)] at hk
      obtain ⟨i, hi, rfl⟩ := hk
      obtain ⟨hlt, hi⟩ := List.getElem?_eq_some_iff.1 hi
      obtain rfl : k - base = i := by simpa using hi
      have hgives : GivesSlot sizes base p _ (base + (k - base)) :=
        .element hs (by simpa using hlt)
      rwa [Nat.add_sub_cancel' hle] at hgives

/-- Each slot comes from a parameter among the tokens. -/
theorem getElem?_owners_iff : ((ts.flatMap (Token.owners sizes)).map Name.toLower)[k]? = some name ↔
    ∃ before p after, ts = before ++ .parameter p :: after ∧
      GivesSlot sizes (widthOf sizes before) p name k := by
  have hlength (ts : List Token) :
      (ts.flatMap fun t => (t.owners sizes).map Name.toLower).length = widthOf sizes ts := by
    rw [← List.map_flatMap, List.length_map, length_flatMap_owners]
  rw [List.map_flatMap, getElem?_flatMap_eq_some_iff]
  simp only [hlength]
  constructor
  · rintro ⟨before, t, after, hts, hle, hk⟩
    cases t with
    | range bytes => simp [Token.owners] at hk
    | parameter p => exact ⟨before, p, after, hts, givesSlot_iff.2 ⟨hle, hk⟩⟩
    | other b => simp [Token.owners] at hk
  · rintro ⟨before, p, after, hts, hgives⟩
    exact ⟨before, .parameter p, after, hts, givesSlot_iff.1 hgives⟩

end Template

/-! ## The slots of a descriptor -/

namespace Descriptor

variable {d : Descriptor} {text : Bytes} {declarations : Declarations}

theorem exists_slots?_iff :
    (∃ slots, d.slots? name = some slots ∧ k ∈ slots) ↔ d.owners[k]? = some name := by
  rw [← mem_slotsIn, slots?, slots]
  split
  · next hnil => simp [hnil]
  · simp

theorem create_eq_ok (h : create text declarations = .ok d) :
    ∃ e, expandText declarations.lists text = .ok e ∧
      d = { sql := e.sql, owners := e.owners.map Name.toLower, declarations } := by
  unfold create at h
  cases he : expandText declarations.lists text with
  | error f => simp [he, bind, Except.bind] at h
  | ok e =>
    simp only [he, bind, Except.bind, pure, Except.pure, Except.ok.injEq] at h
    exact ⟨e, rfl, h.symm⟩

variable {receiver result : Option Descriptor}

theorem createFor_eq_ok (h : createFor receiver text declarations = (.ok (), result)) :
    ∃ d, create text declarations = .ok d ∧ result = some d := by
  unfold createFor at h
  cases receiver with
  | none => simp at h
  | some kept =>
    cases hd : create text declarations with
    | error f => simp [hd] at h
    | ok d => exact ⟨d, rfl, by simpa [hd] using h.symm⟩

/-- A receiver keeps what it has when nothing can be made of the text. -/
theorem createFor_eq_error {f : Fault}
    (h : createFor receiver text declarations = (.error f, result)) : result = receiver := by
  unfold createFor at h
  cases receiver with
  | none => exact (Prod.mk.inj h).2.symm
  | some kept =>
    cases hd : create text declarations with
    | error g =>
      rw [hd] at h
      exact (Prod.mk.inj h).2.symm
    | ok d => simp [hd] at h

/-- A slot is listed under the name that owns its placeholder, and nowhere else. -/
theorem existsUnique_owner (hk : k < d.count) :
    ∃! name, ∃ slots, d.slots? name = some slots ∧ k ∈ slots := by
  have howner : d.owners[k]? = some (d.owners.get ⟨k, hk⟩) := List.getElem?_eq_getElem hk
  refine ⟨_, exists_slots?_iff.2 howner, fun name hname => ?_⟩
  exact Option.some.inj ((exists_slots?_iff.1 hname).symm.trans howner)

theorem slots?_eq_some_iff {slots : List Nat} :
    d.slots? name = some slots ↔ slots = slotsIn d.owners name ∧ slots ≠ [] := by
  rw [slots?, Descriptor.slots]
  split <;> grind

theorem lt_count_of_slots? {slots : List Nat} (h : d.slots? name = some slots) (hk : k ∈ slots) :
    k < d.count :=
  (List.getElem?_eq_some_iff.1 (exists_slots?_iff.1 ⟨slots, h, hk⟩)).1

/-- What is made of a text has a list of slots for each name that occurs in it. These lists divide
the slots among the names. Each of them is in increasing order and holds the slots that were
written for the parameters of the name. If nothing can be made of the text, the receiver keeps
what it has. -/
theorem slots_partitioned (receiver : Option Descriptor) (text : Bytes)
    (declarations : Declarations) :
    (∀ result, createFor receiver text declarations = (.ok (), result) →
      ∃ d e, result = some d ∧ expandText declarations.lists text = .ok e ∧
        d.sql = e.sql ∧ d.count = e.count ∧
        d.count = Template.widthOf declarations.lists (Template.cut text) ∧
        (∀ k < d.count, ∃! name, ∃ slots, d.slots? name = some slots ∧ k ∈ slots) ∧
        (∀ name slots, d.slots? name = some slots →
          slots.Pairwise (· < ·) ∧ (∀ k ∈ slots, k < d.count) ∧ slots = e.gathered name) ∧
        ∀ name k, (∃ slots, d.slots? name = some slots ∧ k ∈ slots) ↔
          ∃ before p after, Template.cut text = before ++ .parameter p :: after ∧
            Template.GivesSlot declarations.lists
              (Template.widthOf declarations.lists before) p name k) ∧
    ∀ f result, createFor receiver text declarations = (.error f, result) →
      result = receiver := by
  constructor
  · intro result h
    obtain ⟨d, hd, rfl⟩ := createFor_eq_ok h
    obtain ⟨e, he, rfl⟩ := create_eq_ok hd
    obtain ⟨-, rfl⟩ := Template.expandText_eq_ok_iff.1 he
    refine ⟨_, _, rfl, he, rfl, List.length_map _, ?_, fun k => existsUnique_owner, ?_, ?_⟩
    · rw [count, List.length_map, Template.length_flatMap_owners]
    · intro name slots hslots
      obtain ⟨hslots', -⟩ := slots?_eq_some_iff.1 hslots
      refine ⟨?_, fun k => lt_count_of_slots? hslots, ?_⟩
      · rw [hslots']
        exact slotsIn_sorted _ _
      · rw [hslots']
        exact Expansion.slotsIn_eq_gathered _ name
    · intro name k
      rw [exists_slots?_iff]
      exact Template.getElem?_owners_iff
  · intro f result h
    exact createFor_eq_error h

/-- Spellings of a scalar around a list of two: the scalar has the slots on both sides. -/
theorem slots_of_spellings :
    let declarations : Declarations := { lists := NameMap.empty.insert "ids" 2 }
    ∃ d, createFor (some {}) ":A IN (:IDS) OR :a" declarations = (.ok (), some d) ∧
      d.slots? "a" = some [0, 3] ∧
      ∃! name, ∃ slots, d.slots? name = some slots ∧ 3 ∈ slots := by
  intro declarations
  have hcreate : createFor (some {}) ":A IN (:IDS) OR :a" declarations = (.ok (), some _) := rfl
  obtain ⟨d, -, hd, -, -, -, -, hpartition, -⟩ :=
    (slots_partitioned (some {}) ":A IN (:IDS) OR :a" declarations).1 _ hcreate
  obtain rfl := Option.some.inj hd
  exact ⟨_, hcreate, by decide, hpartition 3 (by decide)⟩

end Descriptor

end SqlAccess
