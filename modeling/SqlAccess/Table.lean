/-!
# Numbered tables

A `Table` numbers what is put into it. A number is given out once: what is taken out leaves its
number unused. The entries stand in the order in which they were put in.

Each operation is described by its effect on `find?`: `find?_add`, `find?_modify` and
`find?_erase`.
-/

namespace SqlAccess

universe u

/-- Numbered entries. -/
structure Table (α : Type u) where
  /-- The entries with their numbers. -/
  entries : List (Nat × α)
  /-- The number that the next entry gets. -/
  next : Nat
  /-- Numbers grow from entry to entry. -/
  sorted : entries.Pairwise fun a b => a.1 < b.1
  /-- Every number was given out. -/
  below : ∀ e ∈ entries, e.1 < next

namespace Table

variable {α : Type u}

/-- The table without entries, which numbers from `first` on. -/
def empty (first : Nat) : Table α := ⟨[], first, .nil, by simp⟩

instance : Inhabited (Table α) := ⟨empty 0⟩

/-- The entry of a number. -/
def find? (t : Table α) (n : Nat) : Option α := t.entries.lookup n

/-- The numbers in use. -/
def numbers (t : Table α) : List Nat := t.entries.map (·.1)

/-- The number of entries. -/
def size (t : Table α) : Nat := t.entries.length

/-- Put in an entry, under the next number. -/
def add (t : Table α) (a : α) : Table α where
  entries := t.entries ++ [(t.next, a)]
  next := t.next + 1
  sorted := by
    refine List.pairwise_append.2 ⟨t.sorted, List.pairwise_singleton _ _, fun e he f hf => ?_⟩
    rw [List.mem_singleton.1 hf]
    exact t.below e he
  below e he := by
    rcases List.mem_append.1 he with he | he
    · exact Nat.lt_succ_of_lt (t.below e he)
    · simp [List.mem_singleton.1 he]

/-- Change the entry of a number, if there is one. -/
def modify (t : Table α) (n : Nat) (f : α → α) : Table α where
  entries := t.entries.map fun e => (e.1, if e.1 = n then f e.2 else e.2)
  next := t.next
  sorted := t.sorted.map _ fun _ _ h => h
  below e he := by
    obtain ⟨e', he', rfl⟩ := List.mem_map.1 he
    exact t.below e' he'

/-- Take out the entry of a number, if there is one. -/
def erase (t : Table α) (n : Nat) : Table α where
  entries := t.entries.filter (·.1 != n)
  next := t.next
  sorted := t.sorted.filter _
  below e he := t.below e (List.mem_filter.1 he).1

/-! ## What is found -/

theorem find?_empty (first n : Nat) : (empty first : Table α).find? n = none := rfl

theorem find?_eq_none (t : Table α) {n : Nat} (h : t.next ≤ n) : t.find? n = none := by
  rw [find?, List.lookup_eq_none_iff]
  intro e he
  exact bne_iff_ne.2 (Nat.ne_of_gt (Nat.lt_of_lt_of_le (t.below e he) h))

theorem find?_next (t : Table α) : t.find? t.next = none := t.find?_eq_none (Nat.le_refl _)

theorem lt_next {t : Table α} {n : Nat} {a : α} (h : t.find? n = some a) : n < t.next := by
  by_cases hn : n < t.next
  · exact hn
  · rw [t.find?_eq_none (Nat.not_lt.1 hn)] at h
    cases h

theorem find?_add (t : Table α) (a : α) (n : Nat) :
    (t.add a).find? n = if n = t.next then some a else t.find? n := by
  have fresh := t.find?_next
  simp only [find?, add, List.lookup_append] at fresh ⊢
  split
  · next h => subst h; simp [fresh]
  · next h => simp [List.lookup_cons, beq_false_of_ne h]

theorem find?_modify (t : Table α) (n : Nat) (f : α → α) (m : Nat) :
    (t.modify n f).find? m = if m = n then (t.find? m).map f else t.find? m := by
  simp only [find?, modify]
  induction t.entries with
  | nil => simp
  | cons e l ih =>
    obtain ⟨k, a⟩ := e
    by_cases hm : m = k <;> by_cases hk : k = n <;> grind

theorem find?_add_eq_some {t : Table α} {a b : α} {n : Nat} :
    (t.add a).find? n = some b ↔ (n = t.next ∧ a = b) ∨ t.find? n = some b := by
  rw [find?_add]
  split
  · next h => subst h; simp [t.find?_next]
  · next h => simp [h]

theorem find?_modify_eq_some {t : Table α} {f : α → α} {n m : Nat} {b : α} :
    (t.modify n f).find? m = some b ↔
      (m = n ∧ ∃ a, t.find? m = some a ∧ f a = b) ∨ (m ≠ n ∧ t.find? m = some b) := by
  rw [find?_modify]
  split
  · next h => simp [h]
  · next h => simp [h]

/-- Changes do not show in what is the same before and after them. -/
theorem map_find?_modify {β : Type u} (t : Table α) (n m : Nat) {f : α → α} {k : α → β}
    (hf : ∀ a, k (f a) = k a) : ((t.modify n f).find? m).map k = (t.find? m).map k := by
  rw [find?_modify]
  split
  · simp [Function.comp_def, hf]
  · rfl

theorem find?_erase (t : Table α) (n m : Nat) :
    (t.erase n).find? m = if m = n then none else t.find? m := by
  simp only [find?, erase]
  induction t.entries with
  | nil => simp
  | cons e l ih =>
    obtain ⟨k, a⟩ := e
    by_cases hm : m = k <;> by_cases hk : k = n <;> grind

theorem find?_of_nil {t : Table α} (h : t.entries = []) (n : Nat) : t.find? n = none := by
  simp [find?, h]

theorem find?_of_singleton {t : Table α} {m : Nat} {a : α} (h : t.entries = [(m, a)]) (n : Nat) :
    t.find? n = if n = m then some a else none := by
  by_cases hn : n = m
  · simp [find?, h, hn]
  · simp [find?, h, List.lookup_cons, beq_false_of_ne hn, hn]

theorem modify_of_singleton {t : Table α} {n : Nat} {a : α} (h : t.entries = [(n, a)])
    (f : α → α) : (t.modify n f).entries = [(n, f a)] := by
  simp [modify, h]

/-! ## In order -/

theorem find?_eq_some_of_mem {t : Table α} {n : Nat} {a : α} (h : (n, a) ∈ t.entries) :
    t.find? n = some a := by
  obtain ⟨pre, post, hl⟩ := List.append_of_mem h
  refine List.lookup_eq_some_iff.2 ⟨pre, post, hl, fun e he => bne_iff_ne.2 fun hn => ?_⟩
  have hlt := (List.pairwise_append.1 (hl ▸ t.sorted)).2.2 e he (n, a) List.mem_cons_self
  exact absurd hn (Nat.ne_of_gt hlt)

/-- The entries before and behind one that is found stay when it is changed. -/
theorem entries_of_find? {t : Table α} {n : Nat} {a : α} (h : t.find? n = some a) :
    ∃ pre post, t.entries = pre ++ (n, a) :: post ∧ (∀ e ∈ pre, e.1 < n) ∧ (∀ e ∈ post, n < e.1) ∧
      ∀ f, (t.modify n f).entries = pre ++ (n, f a) :: post := by
  obtain ⟨pre, post, hl, -⟩ := List.lookup_eq_some_iff.1 h
  have hsorted := List.pairwise_append.1 (hl ▸ t.sorted)
  have hpre (e : Nat × α) (he : e ∈ pre) : e.1 < n := hsorted.2.2 e he (n, a) List.mem_cons_self
  have hpost (e : Nat × α) (he : e ∈ post) : n < e.1 := List.rel_of_pairwise_cons hsorted.2.1 he
  have same (f : α → α) (l : List (Nat × α)) (hne : ∀ e ∈ l, e.1 ≠ n) :
      l.map (fun e => (e.1, if e.1 = n then f e.2 else e.2)) = l := by
    refine (List.map_congr_left fun e he => ?_).trans (List.map_id l)
    rw [if_neg (hne e he)]
    rfl
  refine ⟨pre, post, hl, hpre, hpost, fun f => ?_⟩
  simp [modify, hl, same f pre fun e he => Nat.ne_of_lt (hpre e he),
    same f post fun e he => Nat.ne_of_gt (hpost e he)]

/-- An entry is changed to what it was. -/
theorem modify_of_find? {t : Table α} {n : Nat} {a : α} (h : t.find? n = some a) :
    t.modify n (fun _ => a) = t := by
  obtain ⟨pre, post, hl, -, -, hmodify⟩ := entries_of_find? h
  have hentries : (t.modify n fun _ => a).entries = t.entries := (hmodify _).trans hl.symm
  obtain ⟨entries, next, hsorted, hbelow⟩ := t
  simpa [modify] using hentries

/-- Of two changes of one entry to given ones the second one counts. -/
theorem modify_modify (t : Table α) (n : Nat) (a b : α) :
    (t.modify n fun _ => a).modify n (fun _ => b) = t.modify n fun _ => b := by
  simp only [modify, List.map_map, Table.mk.injEq, and_true]
  refine List.map_congr_left fun e _ => ?_
  dsimp only [Function.comp_apply]
  split <;> rfl

@[simp] theorem next_add (t : Table α) (a : α) : (t.add a).next = t.next + 1 := rfl

@[simp] theorem next_modify (t : Table α) (n : Nat) (f : α → α) :
    (t.modify n f).next = t.next := rfl

@[simp] theorem next_erase (t : Table α) (n : Nat) : (t.erase n).next = t.next := rfl

@[simp] theorem numbers_add (t : Table α) (a : α) : (t.add a).numbers = t.numbers ++ [t.next] := by
  simp [numbers, add]

@[simp] theorem numbers_modify (t : Table α) (n : Nat) (f : α → α) :
    (t.modify n f).numbers = t.numbers := by
  simp [numbers, modify]

@[simp] theorem numbers_erase (t : Table α) (n : Nat) :
    (t.erase n).numbers = t.numbers.filter (· != n) := by
  simp [numbers, erase, List.filter_map, Function.comp_def]

theorem numbers_sorted (t : Table α) : t.numbers.Pairwise (· < ·) :=
  List.Pairwise.map _ (fun _ _ h => h) t.sorted

/-- No number is in use twice. -/
theorem numbers_nodup (t : Table α) : t.numbers.Nodup := t.numbers_sorted.imp Nat.ne_of_lt

theorem mem_numbers {t : Table α} {n : Nat} {a : α} (h : t.find? n = some a) : n ∈ t.numbers := by
  obtain ⟨pre, post, hl, -⟩ := List.lookup_eq_some_iff.1 h
  exact List.mem_map.2 ⟨(n, a), by rw [hl]; simp, rfl⟩

/-- What is read off the entries, in order, where it is defined. -/
def collect {β : Type u} (t : Table α) (k : α → Option β) : List β :=
  t.entries.filterMap fun e => k e.2

variable {β : Type u} {k : α → Option β}

theorem collect_add (t : Table α) (a : α) : (t.add a).collect k = t.collect k ++ (k a).toList := by
  cases h : k a <;> simp [collect, add, h]

theorem collect_modify (t : Table α) (n : Nat) {f : α → α} (hf : ∀ a, k (f a) = k a) :
    (t.modify n f).collect k = t.collect k := by
  simp only [collect, modify, List.filterMap_map]
  congr 1
  funext e
  dsimp only [Function.comp_apply]
  split
  · exact hf e.2
  · rfl

theorem mem_collect {t : Table α} {b : β} :
    b ∈ t.collect k ↔ ∃ n a, t.find? n = some a ∧ k a = some b := by
  rw [collect, List.mem_filterMap]
  constructor
  · rintro ⟨⟨n, a⟩, he, hk⟩
    exact ⟨n, a, find?_eq_some_of_mem he, hk⟩
  · rintro ⟨n, a, hn, hk⟩
    obtain ⟨pre, post, hl, -⟩ := List.lookup_eq_some_iff.1 hn
    exact ⟨(n, a), hl ▸ by simp, hk⟩

/-- The last entry of which something is read off, and one of which nothing is after a change. -/
theorem collect_modify_last {t : Table α} {n : Nat} {a : α} {b : β} {f : α → α}
    (hn : t.find? n = some a) (ha : k a = some b) (hf : k (f a) = none)
    (hlast : ∀ m c, t.find? m = some c → (k c).isSome → m ≤ n) :
    t.collect k = (t.modify n f).collect k ++ [b] := by
  obtain ⟨pre, post, hl, -, hlt, hmodify⟩ := entries_of_find? hn
  have hpost : post.filterMap (fun e => k e.2) = [] := by
    refine List.filterMap_eq_nil_iff.2 fun e he => ?_
    have hfind : t.find? e.1 = some e.2 := find?_eq_some_of_mem (hl ▸ by simp [he])
    cases hk : k e.2 with
    | none => rfl
    | some c => exact absurd (hlt e he) (Nat.not_lt.2 (hlast e.1 e.2 hfind (by simp [hk])))
  simp [collect, hl, hmodify, ha, hf, hpost]

end Table

end SqlAccess
