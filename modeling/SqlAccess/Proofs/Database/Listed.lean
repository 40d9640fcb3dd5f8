import Mathlib.Data.List.Sort
import SqlAccess.Proofs.Database.Life

/-!
# What is listed

The statements that are listed with a database, and with each of its transactions, stand there in
the order in which they were prepared (`Database.Listed`).
-/

namespace SqlAccess.Database

/-- Statements are listed in the order in which they were prepared, and with the transaction that
they belong to. -/
structure Listed (d : Database) : Prop where
  sorted : d.listed.Pairwise (· < ·)
  below : ∀ k ∈ d.listed, k < d.statements.next
  owned : ∀ t x, d.transactions.find? t = some x → x.statements.Pairwise (· < ·) ∧
    ∀ k ∈ x.statements, ∃ z, d.statements.find? k = some z ∧ z.owner = some t

variable {A : Database → Prop} {d d' : Database} {h h' : History}

/-- A statement that was just prepared is listed last. -/
theorem enlist_sorted {l : List Nat} {n : Nat} (hs : l.Pairwise (· < ·)) (hl : ∀ k ∈ l, k < n) :
    (d.enlist n l).Pairwise (· < ·) := by
  refine List.pairwise_append.2 ⟨hs.filter _, List.pairwise_singleton _ _, fun k hk j hj => ?_⟩
  rw [List.mem_singleton.1 hj]
  exact hl k (List.mem_of_mem_filter hk)

theorem mem_of_mem_enlist {l : List Nat} {n k : Nat} (hk : k ∈ d.enlist n l) : k ∈ l ∨ k = n := by
  obtain hk | hk := List.mem_append.1 hk
  · exact .inl (List.mem_of_mem_filter hk)
  · exact .inr (List.mem_singleton.1 hk)

namespace Listed

theorem opened {l : Link} : Listed { link := l } := ⟨.nil, nofun, nofun⟩

/-- The lists of transactions are kept, or emptied. -/
theorem of_transactions (hd : d.Listed) (hs : d'.statements = d.statements)
    (hl : d'.listed = d.listed) (ht : ∀ t x, d'.transactions.find? t = some x → x.statements = [] ∨
      (d.transactions.find? t).map (·.statements) = some x.statements) : d'.Listed := by
  refine ⟨hl ▸ hd.sorted, hs ▸ hl ▸ hd.below, fun t x hx => ?_⟩
  obtain hnone | hsame := ht t x hx
  · simp [hnone]
  · obtain ⟨y, hy, hsame⟩ := Option.map_eq_some_iff.1 hsame
    rw [← hsame, hs]
    exact hd.owned t y hy

theorem withStatement (hd : d.Listed) {s : Statement} : (d.withStatement s).Listed := by
  refine ⟨enlist_sorted hd.sorted hd.below, fun k hk => ?_, fun t x hx => ?_⟩
  · obtain hk | rfl := mem_of_mem_enlist hk
    · exact Nat.lt_succ_of_lt (hd.below k hk)
    · exact Nat.lt_succ_self _
  · rw [find_withStatement] at hx
    obtain ⟨y, hy, rfl⟩ := Option.map_eq_some_iff.1 hx
    obtain ⟨hsorted, howned⟩ := hd.owned t y hy
    have old (k : Nat) (hk : k ∈ y.statements) :
        ∃ z, (d.withStatement s).statements.find? k = some z ∧ z.owner = some t := by
      obtain ⟨z, hz, ho⟩ := howned k hk
      exact ⟨z, Table.find?_add_eq_some.2 (.inr hz), ho⟩
    dsimp only
    split
    · next ho =>
      refine ⟨enlist_sorted hsorted fun k hk => ?_, fun k hk => ?_⟩
      · obtain ⟨z, hz, -⟩ := howned k hk
        exact Table.lt_next hz
      · obtain hk | rfl := mem_of_mem_enlist hk
        · exact old k hk
        · exact ⟨s, Table.find?_add_eq_some.2 (.inl ⟨rfl, rfl⟩), ho⟩
    · exact ⟨hsorted, old⟩

theorem withEnded (hd : d.Listed) {t : Nat} {o : Origin} {how : Ended} :
    (d.withEnded t o how).Listed := by
  refine hd.of_transactions withEnded_statements withEnded_listed fun u x hx => .inr ?_
  refine Eq.trans (Eq.symm ?_) (congrArg (Option.map (·.statements)) hx)
  cases o with
  | root => exact Table.map_find?_modify _ _ _ fun _ => rfl
  | nested p n =>
    refine Eq.trans (Table.map_find?_modify _ p u fun _ => rfl) ?_
    exact Table.map_find?_modify _ t u fun _ => rfl

theorem change (hd : d.Listed) (hc : Change A (d, h) (d', h')) : d'.Listed := by
  cases hc with
  | called | refused => exact hd
  | @worked _ _ _ k s s' hk hst _ _ _ =>
    refine ⟨hd.sorted, hd.below, fun t x hx => ?_⟩
    obtain ⟨hsorted, howned⟩ := hd.owned t x hx
    refine ⟨hsorted, fun j hj => ?_⟩
    obtain ⟨z, hz, ho⟩ := howned j hj
    by_cases hjk : j = k
    · subst hjk
      obtain rfl : s = z := Option.some.inj (hk.symm.trans hz)
      exact ⟨s', Table.find?_modify_eq_some.2 (.inl ⟨rfl, s, hk, rfl⟩), hst.owner.trans ho⟩
    · exact ⟨z, Table.find?_modify_eq_some.2 (.inr ⟨hjk, hz⟩), ho⟩
  | added => exact hd.withStatement
  | unlisted => exact ⟨.nil, nofun, hd.owned⟩
  | disowned =>
    refine hd.of_transactions rfl rfl fun u x hx => ?_
    obtain ⟨-, y, -, rfl⟩ | ⟨-, hx⟩ := Table.find?_modify_eq_some.1 hx
    · exact .inl rfl
    · exact .inr (by rw [hx]; rfl)
  | began =>
    refine hd.of_transactions rfl rfl fun u x hx => ?_
    obtain ⟨-, rfl⟩ | hx := Table.find?_add_eq_some.1 hx
    · exact .inl rfl
    · exact .inr (by rw [hx]; rfl)
  | numbered => exact ⟨hd.sorted, hd.below, hd.owned⟩
  | nested ho hx _ =>
    refine hd.of_transactions rfl rfl fun u y hy => ?_
    obtain ⟨-, rfl⟩ | ⟨rfl, rfl⟩ | ⟨-, hy⟩ := (Linked.find_withNested hx.1).1 hy
    · exact .inl rfl
    · exact .inr (by rw [hx.1]; rfl)
    · exact .inr (by rw [hy]; rfl)
  | committed | rolledBack => exact hd.withEnded
  | closed => exact ⟨hd.sorted, hd.below, hd.owned⟩

theorem path (hd : d.Listed) (hp : Path A (d, h) (d', h')) : d'.Listed := by
  suffices ∀ a b : Database × History, Path A a b → a.1.Listed → b.1.Listed from
    this _ _ hp hd
  intro a b hp ha
  induction hp with
  | refl => exact ha
  | tail _ hc ih => exact ih.change hc

theorem life {a b : Database × History} (hd : a.1.Listed) (hl : Life A a b) : b.1.Listed := by
  induction hl with
  | refl => exact hd
  | tail _ hh ih =>
    cases hh with
    | change hc => exact ih.change hc
    | elsewhere => exact ih

end Listed

end SqlAccess.Database
