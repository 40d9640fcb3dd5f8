import SqlAccess.Proofs.Database.Life

/-!
# Transactions within transactions

`Encloses d u t` says that the transaction `u` is `t` or one of those around it. While one is open
with no open one in it, the open ones are exactly those around it (`Linked.encloses`), so they form
a chain, in the order in which they were begun. The chain gets longer at its inner end when a
transaction is begun, and shorter there when one ends (`ranks_withNested`, `ranks_withEnded`).

Nothing that was begun is forgotten, and what has ended stays as it ended (`Kin`).
-/

namespace SqlAccess.Database

variable {A : Database → Prop} {d d' : Database} {h h' : History} {t u : Nat}

/-- A transaction is another one, or is around it. -/
def Encloses (d : Database) : Nat → Nat → Prop :=
  Relation.ReflTransGen fun u v => ∃ x, d.transactions.find? v = some x ∧ x.origin.parent? = some u

/-! ## What is around an open transaction -/

namespace Linked

/-- The parent of a transaction came before it, and is open while it is. -/
theorem parent (hl : d.Linked) {x : Transaction} (hx : d.transactions.find? t = some x)
    (hp : x.origin.parent? = some u) : u < t ∧ ∃ y, d.transactions.find? u = some y ∧
      x.depth = y.depth + 1 ∧ (x.ended = none → y.ended = none ∧ y.child = some t) := by
  obtain ⟨n, ho⟩ := parent?_eq_some hp
  obtain ⟨hlt, -, y, hy, h⟩ := hl.nested t x u n hx ho
  exact ⟨hlt, y, hy, h⟩

theorem encloses_le (hl : d.Linked) (he : d.Encloses u t) : u ≤ t := by
  induction he with
  | refl => exact Nat.le_refl _
  | tail _ hstep ih =>
    obtain ⟨x, hx, hp⟩ := hstep
    exact Nat.le_of_lt (Nat.lt_of_le_of_lt ih (hl.parent hx hp).1)

theorem encloses_find (hl : d.Linked) (he : d.Encloses u t) {x : Transaction}
    (hx : d.transactions.find? t = some x) : ∃ y, d.transactions.find? u = some y ∧
      (x.ended = none → y.ended = none) := by
  induction he generalizing x with
  | refl => exact ⟨x, hx, id⟩
  | tail _ hstep ih =>
    obtain ⟨z, hz, hp⟩ := hstep
    obtain rfl : x = z := Option.some.inj (hx.symm.trans hz)
    obtain ⟨-, y, hy, -, hopen⟩ := hl.parent hx hp
    obtain ⟨w, hw, hwo⟩ := ih hy
    exact ⟨w, hw, fun ho => hwo (hopen ho).1⟩

/-- Every transaction is within a root. -/
theorem exists_root (hl : d.Linked) {x : Transaction} (hx : d.transactions.find? t = some x) :
    ∃ r y, d.Encloses r t ∧ d.transactions.find? r = some y ∧ y.origin = .root := by
  induction t using Nat.strongRecOn generalizing x with
  | ind t ih =>
    cases ho : x.origin with
    | root => exact ⟨t, x, .refl, hx, ho⟩
    | nested p n =>
      have hp : x.origin.parent? = some p := by rw [ho]; rfl
      obtain ⟨hlt, y, hy, -⟩ := hl.parent hx hp
      obtain ⟨r, z, hr, hz⟩ := ih p hlt hy
      exact ⟨r, z, hr.tail ⟨x, hx, hp⟩, hz⟩

/-- What is open is around what is ready. -/
theorem encloses (hl : d.Linked) {x y : Transaction} (hx : d.Ready t x)
    (hy : d.transactions.find? u = some y) (ho : y.ended = none) : d.Encloses u t := by
  obtain ⟨ht, hopen, hchild⟩ := hl.ready_iff.1 hx
  induction u using Nat.strongRecOn generalizing y with
  | ind u ih =>
    cases hor : y.origin with
    | root =>
      obtain ⟨r, z, hr, hz, hzr⟩ := hl.exists_root ht
      obtain ⟨z', hz', hzo⟩ := hl.encloses_find hr ht
      obtain rfl : z = z' := Option.some.inj (hz.symm.trans hz')
      have hroot := (hl.root u y hy hor).2 ho
      have hroot' := (hl.root r z hz hzr).2 (hzo hopen)
      exact Option.some.inj (hroot.symm.trans hroot') ▸ hr
    | nested p n =>
      have hp : y.origin.parent? = some p := by rw [hor]; rfl
      obtain ⟨hlt, z, hz, -, hparent⟩ := hl.parent hy hp
      obtain ⟨hzo, hzc⟩ := hparent ho
      -- the parent has only one open child, and it is the next one on the way
      obtain rfl | ⟨v, ⟨w, hw, hwp⟩, hv⟩ := (ih p hlt hz hzo).cases_head
      · obtain rfl : z = x := Option.some.inj (hz.symm.trans ht)
        rw [hchild] at hzc
        cases hzc
      · obtain ⟨w', hw', hwo⟩ := hl.encloses_find hv ht
        obtain rfl : w = w' := Option.some.inj (hw.symm.trans hw')
        obtain ⟨-, z', hz', -, hparent'⟩ := hl.parent hw hwp
        obtain rfl : z = z' := Option.some.inj (hz.symm.trans hz')
        exact Option.some.inj (hzc.symm.trans (hparent' (hwo hopen)).2) ▸ hv

end Linked

/-! ## What stays -/

/-- What was begun is there still, and what has ended stays as it ended. -/
structure Kin (d d' : Database) : Prop where
  next : d.transactions.next ≤ d'.transactions.next
  keep : ∀ t x, d.transactions.find? t = some x → ∃ x', d'.transactions.find? t = some x' ∧
    x'.origin = x.origin ∧ x'.depth = x.depth ∧ (x.ended ≠ none → x'.ended = x.ended)

namespace Kin

variable {d'' : Database}

theorem refl : Kin d d := ⟨Nat.le_refl _, fun _ x hx => ⟨x, hx, rfl, rfl, fun _ => rfl⟩⟩

theorem trans (h₁ : Kin d d') (h₂ : Kin d' d'') : Kin d d'' := by
  refine ⟨Nat.le_trans h₁.next h₂.next, fun t x hx => ?_⟩
  obtain ⟨y, hy, ho, hd, he⟩ := h₁.keep t x hx
  obtain ⟨z, hz, ho', hd', he'⟩ := h₂.keep t y hy
  refine ⟨z, hz, ho'.trans ho, hd'.trans hd, fun hx => ?_⟩
  have hy := he hx
  exact (he' (hy ▸ hx)).trans hy

/-- What is around a transaction is settled when it is begun. -/
theorem encloses_iff (hk : Kin d d') (hl : d.Linked) {x : Transaction}
    (hx : d.transactions.find? t = some x) : d'.Encloses u t ↔ d.Encloses u t := by
  constructor
  · intro he
    induction he generalizing x with
    | refl => exact .refl
    | tail _ hstep ih =>
      obtain ⟨z, hz, hp⟩ := hstep
      obtain ⟨x', hx', ho, -⟩ := hk.keep _ x hx
      obtain rfl : z = x' := Option.some.inj (hz.symm.trans hx')
      rw [ho] at hp
      obtain ⟨-, y, hy, -⟩ := hl.parent hx hp
      exact (ih hy).tail ⟨x, hx, hp⟩
  · intro he
    induction he generalizing x with
    | refl => exact .refl
    | tail _ hstep ih =>
      obtain ⟨z, hz, hp⟩ := hstep
      obtain ⟨x', hx', ho, -⟩ := hk.keep _ z hz
      obtain ⟨-, y, hy, -⟩ := hl.parent hz hp
      exact (ih hy).tail ⟨x', hx', ho ▸ hp⟩

end Kin

theorem Change.kin (hl : d.Linked) (hc : Change A (d, h) (d', h')) : Kin d d' := by
  cases hc with
  | called | refused => exact .refl
  | worked | unlisted | numbered | closed => exact ⟨Nat.le_refl _, Kin.refl.keep⟩
  | @added _ _ owner descriptor handle =>
    refine ⟨?_, fun t x hx => ?_⟩
    · cases owner <;> exact Nat.le_refl _
    · rw [find_withStatement, hx]
      exact ⟨_, rfl, rfl, rfl, fun _ => rfl⟩
  | @disowned _ _ v =>
    refine ⟨Nat.le_refl _, fun t x hx => ?_⟩
    by_cases ht : t = v
    · exact ⟨_, Table.find?_modify_eq_some.2 (.inl ⟨ht, x, hx, rfl⟩), rfl, rfl, fun _ => rfl⟩
    · exact ⟨x, Table.find?_modify_eq_some.2 (.inr ⟨ht, hx⟩), rfl, rfl, fun _ => rfl⟩
  | began =>
    exact ⟨Nat.le_succ _, fun t x hx =>
      ⟨x, Table.find?_add_eq_some.2 (.inr hx), rfl, rfl, fun _ => rfl⟩⟩
  | nested _ hx =>
    refine ⟨Nat.le_succ _, fun t y hy => ?_⟩
    obtain ⟨y', hy', ho, hd, he, -⟩ := Linked.keep_withNested
      (d := { d with savepoints := d.savepoints + 1 }) hx.1 hy
    exact ⟨y', hy', ho, hd, fun _ => he⟩
  | committed _ hx | rolledBack _ hx =>
    refine ⟨Nat.le_of_eq withEnded_next.symm, fun t y hy => ?_⟩
    refine ⟨_, hl.find_withEnded hx.1 hy, rfl, rfl, fun he => ?_⟩
    -- what has ended is another one
    refine if_neg fun ht => ?_
    subst ht
    obtain rfl := Option.some.inj (hx.1.symm.trans hy)
    exact he hx.2.1

theorem Happens.kin (hl : d.Linked) (hh : Happens A (d, h) (d', h')) : Kin d d' := by
  cases hh with
  | change hc => exact hc.kin hl
  | elsewhere => exact .refl

theorem Life.kin {a b : Database × History} (hl : Life A a b) (hs : a.1.Sound a.2) :
    Kin a.1 b.1 := by
  induction hl with
  | refl => exact .refl
  | tail hl hh ih => exact ih.trans (hh.kin (sound hl hs).linked)

/-! ## The chain -/

/-- The open transactions, in the order in which they were begun. -/
def chain (d : Database) : List Transaction :=
  d.transactions.collect fun x => if x.isOpen then some x else none

/-- Where the open transactions were begun and how deep they are nested, in order. -/
def ranks (d : Database) : List (Origin × Nat) :=
  d.transactions.collect fun x => if x.isOpen then some (x.origin, x.depth) else none

theorem ranks_eq_map : d.ranks = d.chain.map fun x => (x.origin, x.depth) := by
  simp only [ranks, chain, Table.collect, List.map_filterMap]
  congr 1
  funext e
  split <;> rfl

theorem mem_ranks {r : Origin × Nat} : r ∈ d.ranks ↔ ∃ t x, d.transactions.find? t = some x ∧
    x.ended = none ∧ r = (x.origin, x.depth) := by
  rw [ranks, Table.mem_collect]
  refine exists_congr fun t => exists_congr fun x => and_congr_right fun _ => ?_
  simp only [Transaction.isOpen, Option.isNone_iff_eq_none]
  split <;> simp_all [eq_comm]

theorem ranks_eq_nil (hn : ∀ t x, d.transactions.find? t = some x → x.ended ≠ none) :
    d.ranks = [] := by
  refine List.eq_nil_iff_forall_not_mem.2 fun r hr => ?_
  obtain ⟨t, x, hx, ho, -⟩ := mem_ranks.1 hr
  exact hn t x hx ho

theorem ranks_withRoot : d.withRoot.ranks = d.ranks ++ [(.root, 0)] := by
  rw [ranks, withRoot, Table.collect_add]
  rfl

theorem ranks_withNested {p n depth : Nat} :
    (d.withNested p n depth).ranks = d.ranks ++ [(.nested p n, depth)] := by
  have hsame := Table.collect_modify
      (k := fun x => if x.isOpen then some (x.origin, x.depth) else none)
    (d.transactions.add { origin := .nested p n, depth }) p
    (f := fun x => { x with child := some d.transactions.next }) fun _ => rfl
  exact hsame.trans (Table.collect_add _ _)

theorem ranks_withStatement {s : Statement} : (d.withStatement s).ranks = d.ranks := by
  simp only [ranks, withStatement]
  split
  · rfl
  · next t _ =>
    exact Table.collect_modify _ _
      (f := fun x : Transaction => { x with statements := _ }) fun _ => rfl

theorem ranks_disowned : ({ d with transactions := d.transactions.modify t fun x =>
    { x with statements := [] } } : Database).ranks = d.ranks :=
  Table.collect_modify _ _ (f := fun x : Transaction => { x with statements := [] }) fun _ => rfl

/-- What is ready is the last of the open transactions. -/
theorem ranks_withEnded (hl : d.Linked) {x : Transaction} (how : Ended) (hx : d.Ready t x) :
    d.ranks = (d.withEnded t x.origin how).ranks ++ [(x.origin, x.depth)] := by
  have last : d.ranks = (d.transactions.modify t fun x => { x with ended := some how }).collect
      (fun x => if x.isOpen then some (x.origin, x.depth) else none) ++ [(x.origin, x.depth)] := by
    refine Table.collect_modify_last hx.1 ?_ rfl fun u y hy hyo => ?_
    · simp [Transaction.isOpen, hx.2.1]
    · refine hl.encloses_le (hl.encloses hx hy ?_)
      simpa [Transaction.isOpen] using hyo
  rw [last]
  congr 1
  cases x.origin with
  | root => rfl
  | nested p n =>
    exact (Table.collect_modify _ _
      (f := fun x : Transaction => { x with child := none }) fun _ => rfl).symm

end SqlAccess.Database
