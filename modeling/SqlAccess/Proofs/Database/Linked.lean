import SqlAccess.Proofs.Database.Change

/-!
# How transactions are linked

`Database.Linked` is the invariant of the references between transactions: the root reference and
the references to nested transactions lead to open transactions and to all of them, and parents
come before what is nested in them. It does not depend on the statements (`Linked.congr`), and is
kept where transactions begin and end.
-/

namespace SqlAccess.Database

/-- The references between transactions are as they should be. -/
structure Linked (d : Database) : Prop where
  /-- A root has depth zero, and an open one is the one that the database refers to. -/
  root : ∀ t x, d.transactions.find? t = some x → x.origin = .root →
    x.depth = 0 ∧ (x.ended = none → d.root = some t)
  /-- The database refers to an open root. -/
  root_open : ∀ t, d.root = some t →
    ∃ x, d.transactions.find? t = some x ∧ x.ended = none ∧ x.origin = .root
  /-- A nested transaction came after its parent and is one deeper; an open one has an open
  parent, which refers to it. -/
  nested : ∀ t x p n, d.transactions.find? t = some x → x.origin = .nested p n →
    p < t ∧ n ≤ d.savepoints ∧ ∃ y, d.transactions.find? p = some y ∧ x.depth = y.depth + 1 ∧
      (x.ended = none → y.ended = none ∧ y.child = some t)
  /-- What a transaction refers to is nested in it and open. -/
  child : ∀ t x c, d.transactions.find? t = some x → x.child = some c →
    ∃ y n, d.transactions.find? c = some y ∧ y.ended = none ∧ y.origin = .nested t n
  /-- Each savepoint belongs to one transaction. -/
  distinct : ∀ t x t' x' p p' n, d.transactions.find? t = some x →
    d.transactions.find? t' = some x' → x.origin = .nested p n → x'.origin = .nested p' n → t = t'

theorem isActive_iff {d : Database} {t : Nat} :
    d.isActive t ↔ ∃ x, d.transactions.find? t = some x ∧ x.ended = none := by
  cases h : d.transactions.find? t <;> simp [isActive, h, Transaction.isOpen]

theorem Linked.child_active {d : Database} (hl : d.Linked) {t c : Nat} {x : Transaction}
    (hx : d.transactions.find? t = some x) (hc : x.child = some c) : d.isActive c := by
  obtain ⟨y, n, hy, hopen, -⟩ := hl.child t x c hx hc
  exact isActive_iff.2 ⟨y, hy, hopen⟩

/-- A transaction is ready if it is open and refers to none that is nested in it. -/
theorem Linked.ready_iff {d : Database} (hl : d.Linked) {t : Nat} {x : Transaction} :
    d.Ready t x ↔ d.transactions.find? t = some x ∧ x.ended = none ∧ x.child = none := by
  refine and_congr_right fun hx => and_congr_right fun _ => ?_
  cases hc : x.child with
  | none => simp [openChild?, hx, hc]
  | some c => simp [openChild?, hx, hc, hl.child_active hx hc]

theorem parent?_eq_some {o : Origin} {p : Nat} (hp : o.parent? = some p) :
    ∃ n, o = .nested p n := by
  cases o with
  | root => cases hp
  | nested q n => exact ⟨n, by rw [Option.some.inj hp]⟩

namespace Linked

variable {d d' : Database}

/-- The database without what its transactions say of statements. -/
theorem congr (hl : d.Linked)
    (ht : ∀ t, (d'.transactions.find? t).map (fun x => { x with statements := [] }) =
      (d.transactions.find? t).map fun x => { x with statements := [] })
    (hr : d'.root = d.root) (hs : d.savepoints ≤ d'.savepoints) : d'.Linked := by
  have bare {t : Nat} {x : Transaction} (hx : d'.transactions.find? t = some x) :
      ∃ y, d.transactions.find? t = some y ∧ y.origin = x.origin ∧ y.depth = x.depth ∧
        y.child = x.child ∧ y.ended = x.ended := by
    have := ht t
    rw [hx] at this
    obtain ⟨y, hy, h⟩ := Option.map_eq_some_iff.1 this.symm
    simp only [Transaction.mk.injEq] at h
    exact ⟨y, hy, h.1, h.2.1, h.2.2.1, h.2.2.2.1⟩
  have back {t : Nat} {y : Transaction} (hy : d.transactions.find? t = some y) :
      ∃ x, d'.transactions.find? t = some x ∧ y.origin = x.origin ∧ y.depth = x.depth ∧
        y.child = x.child ∧ y.ended = x.ended := by
    have := ht t
    rw [hy] at this
    obtain ⟨x, hx, h⟩ := Option.map_eq_some_iff.1 this
    simp only [Transaction.mk.injEq] at h
    exact ⟨x, hx, h.1.symm, h.2.1.symm, h.2.2.1.symm, h.2.2.2.1.symm⟩
  refine ⟨fun t x hx ho => ?_, fun t htr => ?_, fun t x p n hx ho => ?_, fun t x c hx hc => ?_,
    fun t x t' x' p p' n hx hx' ho ho' => ?_⟩
  · obtain ⟨y, hy, h₁, h₂, h₃, h₄⟩ := bare hx
    grind [hl.root t y hy]
  · obtain ⟨y, hy, h⟩ := hl.root_open t (hr ▸ htr)
    obtain ⟨x, hx, h₁, h₂, h₃, h₄⟩ := back hy
    grind
  · obtain ⟨y, hy, h₁, h₂, h₃, h₄⟩ := bare hx
    obtain ⟨hp, hn, z, hz, h⟩ := hl.nested t y p n hy (h₁.trans ho)
    obtain ⟨z', hz', g₁, g₂, g₃, g₄⟩ := back hz
    exact ⟨hp, Nat.le_trans hn hs, z', hz', by grind⟩
  · obtain ⟨y, hy, h₁, h₂, h₃, h₄⟩ := bare hx
    obtain ⟨z, n, hz, h⟩ := hl.child t y c hy (h₃.trans hc)
    obtain ⟨z', hz', g₁, g₂, g₃, g₄⟩ := back hz
    exact ⟨z', n, hz', by grind⟩
  · obtain ⟨y, hy, h, -⟩ := bare hx
    obtain ⟨y', hy', h', -⟩ := bare hx'
    exact hl.distinct t y t' y' p p' n hy hy' (h.trans ho) (h'.trans ho')

/-- What a transaction lists does not matter. -/
theorem disowned (hl : d.Linked) {t : Nat} (ht : d'.transactions = d.transactions.modify t fun x =>
    { x with statements := [] }) (hr : d'.root = d.root) (hs : d.savepoints ≤ d'.savepoints) :
    d'.Linked := by
  refine hl.congr (fun u => ?_) hr hs
  rw [ht, Table.find?_modify]
  split <;> simp [Function.comp_def]

theorem withRoot (hl : d.Linked) (hr : d.root.any d.isActive = false) : d.withRoot.Linked := by
  have hnone : d.root = none := by
    cases h : d.root with
    | none => rfl
    | some t =>
      obtain ⟨x, hx, ho, -⟩ := hl.root_open t h
      rw [h, Option.any_some, isActive_iff.2 ⟨x, hx, ho⟩] at hr
      cases hr
  have find {t : Nat} {x : Transaction} : d.withRoot.transactions.find? t = some x ↔
      (t = d.transactions.next ∧ { origin := .root, depth := 0 } = x) ∨
        d.transactions.find? t = some x := Table.find?_add_eq_some
  refine ⟨fun t x hx ho => ?_, fun t htr => ?_, fun t x p n hx ho => ?_, fun t x c hx hc => ?_,
    fun t x t' x' p p' n hx hx' ho ho' => ?_⟩
  · obtain ⟨rfl, rfl⟩ | hx := find.1 hx
    · exact ⟨rfl, fun _ => rfl⟩
    · grind [hl.root t x hx ho]
  · obtain rfl : d.transactions.next = t := Option.some.inj htr
    exact ⟨_, find.2 (.inl ⟨rfl, rfl⟩), rfl, rfl⟩
  · obtain ⟨rfl, rfl⟩ | hx := find.1 hx
    · cases ho
    · obtain ⟨hp, hn, y, hy, h⟩ := hl.nested t x p n hx ho
      exact ⟨hp, hn, y, find.2 (.inr hy), h⟩
  · obtain ⟨rfl, rfl⟩ | hx := find.1 hx
    · cases hc
    · obtain ⟨y, n, hy, h⟩ := hl.child t x c hx hc
      exact ⟨y, n, find.2 (.inr hy), h⟩
  · obtain ⟨rfl, rfl⟩ | hx := find.1 hx
    · cases ho
    obtain ⟨rfl, rfl⟩ | hx' := find.1 hx'
    · cases ho'
    exact hl.distinct t x t' x' p p' n hx hx' ho ho'

/-- The transactions with one more nested in another one. -/
theorem find_withNested {p n depth t : Nat} {x z : Transaction}
    (hp : d.transactions.find? p = some x) :
    (d.withNested p n depth).transactions.find? t = some z ↔
      (t = d.transactions.next ∧ z = { origin := .nested p n, depth }) ∨
      (t = p ∧ z = { x with child := some d.transactions.next }) ∨
      (t ≠ p ∧ d.transactions.find? t = some z) := by
  have hlt := Table.lt_next hp
  rw [Database.withNested, Table.find?_modify_eq_some]
  simp only [Table.find?_add_eq_some]
  grind

/-- What was there is there still, and only the parent has a new child. -/
theorem keep_withNested {p n depth t : Nat} {x y : Transaction}
    (hp : d.transactions.find? p = some x) (hy : d.transactions.find? t = some y) :
    ∃ y', (d.withNested p n depth).transactions.find? t = some y' ∧ y'.origin = y.origin ∧
      y'.depth = y.depth ∧ y'.ended = y.ended ∧ y'.statements = y.statements ∧
        (t ≠ p → y'.child = y.child) := by
  by_cases ht : t = p
  · exact ⟨_, (find_withNested hp).2 (.inr (.inl ⟨ht, rfl⟩)), by grind⟩
  · exact ⟨y, (find_withNested hp).2 (.inr (.inr ⟨ht, hy⟩)), rfl, rfl, rfl, rfl, fun _ => rfl⟩

theorem withNested (hl : d.Linked) {p : Nat} {x : Transaction} (hx : d.Ready p x) :
    ({ d with savepoints := d.savepoints + 1 }.withNested p (d.savepoints + 1)
      (x.depth + 1)).Linked := by
  obtain ⟨hp, hopen, hchild⟩ := hl.ready_iff.1 hx
  have hlt := Table.lt_next hp
  have find {t : Nat} {z : Transaction} :=
    @find_withNested { d with savepoints := d.savepoints + 1 }
    p (d.savepoints + 1) (x.depth + 1) t x z hp
  have keep {t : Nat} {y : Transaction} (hy : d.transactions.find? t = some y) := @keep_withNested
    { d with savepoints := d.savepoints + 1 } p (d.savepoints + 1) (x.depth + 1) t x y hp hy
  refine ⟨fun t z hz ho => ?_, fun t htr => ?_, fun t z q n hz ho => ?_, fun t z c hz hc => ?_,
    fun t z t' z' q q' n hz hz' ho ho' => ?_⟩
  · obtain ⟨rfl, rfl⟩ | ⟨rfl, rfl⟩ | ⟨-, hz⟩ := find.1 hz
    · cases ho
    · exact hl.root t x hp ho
    · exact hl.root t z hz ho
  · obtain ⟨y, hy, h⟩ := hl.root_open t htr
    obtain ⟨y', hy', h'⟩ := keep hy
    exact ⟨y', hy', by grind⟩
  · obtain ⟨rfl, rfl⟩ | ⟨rfl, rfl⟩ | ⟨hne, hz⟩ := find.1 hz
    · cases ho
      exact ⟨hlt, Nat.le_refl _, _, find.2 (.inr (.inl ⟨rfl, rfl⟩)), rfl, fun _ => ⟨hopen, rfl⟩⟩
    · obtain ⟨hq, hn, y, hy, h⟩ := hl.nested t x q n hp ho
      obtain ⟨y', hy', h'⟩ := keep hy
      exact ⟨hq, Nat.le_succ_of_le hn, y', hy', by grind⟩
    · obtain ⟨hq, hn, y, hy, h⟩ := hl.nested t z q n hz ho
      obtain ⟨y', hy', h'⟩ := keep hy
      -- an open one nested in the parent would be its child
      exact ⟨hq, Nat.le_succ_of_le hn, y', hy', by grind⟩
  · obtain ⟨rfl, rfl⟩ | ⟨rfl, rfl⟩ | ⟨hne, hz⟩ := find.1 hz
    · cases hc
    · cases hc
      exact ⟨_, _, find.2 (.inl ⟨rfl, rfl⟩), rfl, rfl⟩
    · obtain ⟨y, n, hy, h⟩ := hl.child t z c hz hc
      obtain ⟨y', hy', h'⟩ := keep hy
      exact ⟨y', n, hy', by grind⟩
  · have old {t : Nat} {y : Transaction} (hy : d.transactions.find? t = some y)
        (ho : y.origin = .nested q n ∨ y.origin = .nested q' n) : n ≤ d.savepoints := by
      obtain ho | ho := ho
      · exact (hl.nested t y q n hy ho).2.1
      · exact (hl.nested t y q' n hy ho).2.1
    have := hl.distinct
    grind

/-- What becomes of a transaction where another one, or it itself, ends. -/
theorem find_withEnded {t u : Nat} {x y : Transaction} {how : Ended} (hl : d.Linked)
    (ht : d.transactions.find? t = some x) (hy : d.transactions.find? u = some y) :
    (d.withEnded t x.origin how).transactions.find? u = some { y with
      ended := if u = t then some how else y.ended
      child := if x.origin.parent? = some u then none else y.child } := by
  cases ho : x.origin with
  | root =>
    by_cases hu : u = t
    · subst hu
      simp [Database.withEnded, Table.find?_modify, Origin.parent?, hy]
    · simp [Database.withEnded, Table.find?_modify, Origin.parent?, hy, hu]
  | nested p n =>
    have hp : p ≠ t := Nat.ne_of_lt (hl.nested t x p n ht ho).1
    by_cases hu : u = t
    · subst hu
      simp [Database.withEnded, Table.find?_modify, Origin.parent?, hy, hp, hp.symm]
    · by_cases hup : u = p
      · subst hup
        simp [Database.withEnded, Table.find?_modify, Origin.parent?, hy, hu]
      · simp [Database.withEnded, Table.find?_modify, Origin.parent?, hy, hu, hup, Ne.symm hup]

theorem find_of_withEnded {t u : Nat} {o : Origin} {z : Transaction} {how : Ended}
    (hz : (d.withEnded t o how).transactions.find? u = some z) :
    ∃ y, d.transactions.find? u = some y := by
  cases h : d.transactions.find? u with
  | some y => exact ⟨y, rfl⟩
  | none => cases o <;> simp [Database.withEnded, Table.find?_modify, h] at hz

/-- What is found where a transaction ended was there before. -/
theorem find_of_find_withEnded {t u : Nat} {x z : Transaction} {how : Ended} (hl : d.Linked)
    (ht : d.transactions.find? t = some x)
    (hz : (d.withEnded t x.origin how).transactions.find? u = some z) :
    ∃ y, d.transactions.find? u = some y ∧ z = { y with
      ended := if u = t then some how else y.ended
      child := if x.origin.parent? = some u then none else y.child } := by
  obtain ⟨y, hy⟩ := find_of_withEnded hz
  exact ⟨y, hy, Option.some.inj (hz.symm.trans (find_withEnded hl ht hy))⟩

theorem withEnded (hl : d.Linked) {t : Nat} {x : Transaction} {how : Ended} (hx : d.Ready t x) :
    (d.withEnded t x.origin how).Linked := by
  obtain ⟨ht, hopen, hchild⟩ := hl.ready_iff.1 hx
  have find {u : Nat} {y : Transaction} (hy : d.transactions.find? u = some y) :=
    @find_withEnded d t u x y how hl ht hy
  have hroot : (d.withEnded t x.origin how).root = if x.origin = .root then none else d.root := by
    cases ho : x.origin <;> rfl
  have hsaved : (d.withEnded t x.origin how).savepoints = d.savepoints := withEnded_savepoints
  -- the parent refers to this one, so it refers to no other one
  have hparent {u v : Nat} {y : Transaction} (hu : x.origin.parent? = some u)
      (hy : d.transactions.find? u = some y) (hc : y.child = some v) : v = t := by
    obtain ⟨n, ho⟩ := parent?_eq_some hu
    obtain ⟨-, -, y', hy', -, h⟩ := hl.nested t x u n ht ho
    obtain rfl : y' = y := Option.some.inj (hy'.symm.trans hy)
    exact Option.some.inj (hc.symm.trans (h hopen).2)
  -- what is open now was so before, and is another one
  have still {u : Nat} {y : Transaction} (h : (if u = t then some how else y.ended) = none) :
      u ≠ t ∧ y.ended = none := by
    split at h
    · cases h
    · next hne => exact ⟨hne, h⟩
  refine ⟨fun u z hz ho => ?_, fun u hu => ?_, fun u z q m hz ho => ?_, fun u z c hz hc => ?_,
    fun u z u' z' q q' m hz hz' ho ho' => ?_⟩
  · obtain ⟨y, hy, rfl⟩ := find_of_find_withEnded hl ht hz
    obtain ⟨hdepth, hown⟩ := hl.root u y hy ho
    refine ⟨hdepth, fun hz => ?_⟩
    obtain ⟨hne, hyo⟩ := still hz
    have hxo : x.origin ≠ .root := fun hxo =>
      hne (Option.some.inj ((hown hyo).symm.trans ((hl.root t x ht hxo).2 hopen)))
    rw [hroot, if_neg hxo]
    exact hown hyo
  · rw [hroot] at hu
    split at hu
    · cases hu
    · next hxo =>
      obtain ⟨y, hy, hyo, ho⟩ := hl.root_open u hu
      have hne : u ≠ t := by
        rintro rfl
        exact hxo (Option.some.inj (hy.symm.trans ht) ▸ ho)
      exact ⟨_, find hy, (if_neg hne).trans hyo, ho⟩
  · obtain ⟨y, hy, rfl⟩ := find_of_find_withEnded hl ht hz
    obtain ⟨hq, hm, w, hw, hd, h⟩ := hl.nested u y q m hy ho
    refine ⟨hq, hsaved ▸ hm, _, find hw, hd, fun hz => ?_⟩
    obtain ⟨hne, hyo⟩ := still hz
    obtain ⟨hwo, hwc⟩ := h hyo
    have hqt : q ≠ t := by
      rintro rfl
      obtain rfl : w = x := Option.some.inj (hw.symm.trans ht)
      cases hchild.symm.trans hwc
    have hqp : x.origin.parent? ≠ some q := fun hp => hne (hparent hp hw hwc)
    exact ⟨(if_neg hqt).trans hwo, (if_neg hqp).trans hwc⟩
  · obtain ⟨y, hy, rfl⟩ := find_of_find_withEnded hl ht hz
    dsimp only at hc
    split at hc
    · cases hc
    · next hup =>
      obtain ⟨w, n, hw, hwo, hwp⟩ := hl.child u y c hy hc
      have hne : c ≠ t := by
        rintro rfl
        obtain rfl : w = x := Option.some.inj (hw.symm.trans ht)
        exact hup (congrArg Origin.parent? hwp)
      exact ⟨_, n, find hw, (if_neg hne).trans hwo, hwp⟩
  · obtain ⟨y, hy, rfl⟩ := find_of_find_withEnded hl ht hz
    obtain ⟨y', hy', rfl⟩ := find_of_find_withEnded hl ht hz'
    exact hl.distinct u y u' y' q q' m hy hy' ho ho'

end Linked

end SqlAccess.Database
