import SqlAccess.Proofs.Database.Undone

/-!
# What becomes of a run

A run is made in a transaction, around which there are others. Its work stays in the frames until
the engine's transaction ends, and becomes durable if that is committed, unless the work since the
savepoint of one of the transactions around it was undone before (`Tracked`).

The transactions around a run are given by a function, which says of each where it was begun.
-/

namespace SqlAccess.Database

variable {A : Database → Prop} {around : Nat → Option Origin} {d d' : Database}
  {h h' : History} {c p t u n : Nat}

/-- What was begun stays known. -/
theorem Turn.known (ht : Turn A c (d, h) (d', h')) {o : Origin} {how : Option Ended}
    (hu : d.state? u = some (o, how)) : ∃ how', d'.state? u = some (o, how') := by
  have hnew : u ≠ d.transactions.next := by
    rintro rfl
    rw [state?_next] at hu
    cases hu
  have ended {t : Nat} {x : Transaction} (hx : d.transactions.find? t = some x) (e : Ended) :
      ∃ how', (d.withEnded t x.origin e).state? u = some (o, how') := by
    rw [state?_withEnded hx]
    split
    · next hut =>
      subst hut
      rw [state?_of_find hx] at hu
      exact ⟨some e, by rw [(Prod.mk.inj (Option.some.inj hu)).1]⟩
    · exact ⟨how, hu⟩
  cases ht with
  | rested ha | refused ha => exact ⟨how, ha.state ▸ hu⟩
  | began => exact ⟨how, by rw [state?_withRoot, if_neg hnew, hu]⟩
  | nested => exact ⟨how, by rw [state?_withNested]; exact (if_neg hnew).trans hu⟩
  | committed hx | rolledBack hx | stuck hx | undone hx => exact ended hx.1 _
  | closed => exact ⟨how, hu⟩

/-- The open transactions, with where they were begun. -/
def opened? (d : Database) (u : Nat) : Option Origin :=
  (d.state? u).bind fun s => if s.2 = none then some s.1 else none

theorem opened?_eq_some {o : Origin} : d.opened? u = some o ↔ d.state? u = some (o, none) := by
  rw [opened?, Option.bind_eq_some_iff]
  constructor
  · rintro ⟨⟨o', how⟩, hs, ho⟩
    split at ho
    · next hhow => rw [hs, ← Option.some.inj ho, ← hhow]
    · cases ho
  · exact fun hs => ⟨_, hs, if_pos rfl⟩

/-- The work since the savepoints of the transactions around a run was not undone. -/
def Kept (around : Nat → Option Origin) (c : Nat) (h : History) : Prop :=
  ∀ u q n, around u = some (.nested q n) → true ∉ asks c (.rollbackTo n) h

/-- What is known of a run at any time after it was made. -/
structure Tracked (around : Nat → Option Origin) (c p : Nat) (d : Database) (h : History) :
    Prop where
  past : p < h.length
  known : ∀ u o, around u = some o → ∃ how, d.state? u = some (o, how)
  /-- While the frames have its work, it is below those of open transactions that are not around
  it. -/
  place : ∀ u q n, d.state? u = some (.nested q n, none) →
    (p ∈ works (below n (ledger c h).frames) ↔
      p ∈ works (ledger c h).frames ∧ around u = none)
  held : p ∈ works (ledger c h).frames ↔ fate? c p h = none ∧ Kept around c h
  durable : p ∈ (ledger c h).durable ↔ fate? c p h = some .committed ∧ Kept around c h
  running : ∀ u o, around u = some o → d.state? u = some (o, none) → fate? c p h = none
  root : ∀ u how, around u = some .root → d.state? u = some (.root, some how) →
    fate? c p h = some how ∨ how = .rolledBack ∧ false ∈ asks c .rollback h

namespace Tracked

/-- A transaction that was not known before is not around the run. -/
theorem not_around (ht : Tracked around c p d h) (hu : d.state? u = none) : around u = none := by
  cases ha : around u with
  | none => rfl
  | some o =>
    obtain ⟨how, hs⟩ := ht.known u o ha
    rw [hu] at hs
    cases hs

theorem origin_eq (ht : Tracked around c p d h) {o o' : Origin} {how : Option Ended}
    (ha : around u = some o) (hu : d.state? u = some (o', how)) : o = o' := by
  obtain ⟨how', hs⟩ := ht.known u o ha
  exact (Prod.mk.inj (Option.some.inj (hs.symm.trans hu))).1

section

variable (ht : Tracked around c p d h) (hturn : Turn A c (d, h) (d', h'))
  (hlen : h.length ≤ h'.length)
  (hrefused : false ∈ asks c .rollback h → false ∈ asks c .rollback h')
include ht hturn hlen hrefused

/-- The work stays where it is. -/
theorem keep (hheld : p ∈ works (ledger c h').frames ↔ p ∈ works (ledger c h).frames)
    (hdurable : p ∈ (ledger c h').durable ↔ p ∈ (ledger c h).durable)
    (hfate : fate? c p h' = fate? c p h)
    (hasks : ∀ n, true ∈ asks c (.rollbackTo n) h' ↔ true ∈ asks c (.rollbackTo n) h)
    (hplace : ∀ u q n, d'.state? u = some (.nested q n, none) →
      (p ∈ works (below n (ledger c h').frames) ↔
        p ∈ works (ledger c h).frames ∧ around u = none))
    (hopen : ∀ u o, d'.state? u = some (o, none) →
      d.state? u = some (o, none) ∨ d.state? u = none)
    (hroot : ∀ u how, d'.state? u = some (.root, some how) →
      d.state? u = some (.root, some how) ∨ how = .rolledBack ∧ false ∈ asks c .rollback h') :
    Tracked around c p d' h' := by
  have hkept : Kept around c h' ↔ Kept around c h := by simp only [Kept, hasks]
  refine ⟨Nat.lt_of_lt_of_le ht.past hlen, fun u o ha => ?_, fun u q n hu => ?_, ?_, ?_,
    fun u o ha hu => ?_, fun u how ha hu => ?_⟩
  · obtain ⟨how, hs⟩ := ht.known u o ha
    exact hturn.known hs
  · rw [hplace u q n hu, hheld]
  · rw [hheld, hfate, hkept]
    exact ht.held
  · rw [hdurable, hfate, hkept]
    exact ht.durable
  · rw [hfate]
    obtain hu | hnew := hopen u o hu
    · exact ht.running u o ha hu
    · rw [ht.not_around hnew] at ha
      cases ha
  · rw [hfate]
    obtain hu | hr := hroot u how hu
    · exact (ht.root u how ha hu).imp_right fun h => ⟨h.1, hrefused h.2⟩
    · exact .inr hr

/-- The engine's transaction ends. -/
theorem finish {e : Ended} (hframes : (ledger c h').frames = [])
    (hdurable : p ∈ (ledger c h').durable ↔
      p ∈ (ledger c h).durable ∨ e = .committed ∧ p ∈ works (ledger c h).frames)
    (hfate : fate? c p h' = (fate? c p h).or (some e))
    (hasks : ∀ n, asks c (.rollbackTo n) h' = asks c (.rollbackTo n) h)
    (hopen : ∀ u o, d'.state? u ≠ some (o, none))
    (hroot : ∀ u how, d'.state? u = some (.root, some how) →
      d.state? u = some (.root, some how) ∨ d.state? u = some (.root, none) ∧ how = e) :
    Tracked around c p d' h' := by
  have hkept : Kept around c h' ↔ Kept around c h := by simp only [Kept, hasks]
  refine ⟨Nat.lt_of_lt_of_le ht.past hlen, fun u o ha => ?_, fun u q n hu => ?_, ?_, ?_,
    fun u o ha hu => ?_, fun u how ha hu => ?_⟩
  · obtain ⟨how, hs⟩ := ht.known u o ha
    exact hturn.known hs
  · exact absurd hu (hopen u _)
  · rw [hframes, hfate]
    cases fate? c p h <;> simp
  · rw [hdurable, hfate, hkept, ht.durable, ht.held]
    cases hf : fate? c p h <;> cases e <;> simp
  · exact absurd hu (hopen u o)
  · rw [hfate]
    obtain hu | ⟨hu, rfl⟩ := hroot u how hu
    · obtain hf | hr := ht.root u how ha hu
      · exact .inl (by rw [hf]; rfl)
      · exact .inr ⟨hr.1, hrefused hr.2⟩
    · exact .inl (by rw [ht.running u _ ha hu]; rfl)

end

/-- The work of a nested transaction is undone. -/
theorem undo (ht : Tracked around c p d h) (hl : d.Linked) (hturn : Turn A c (d, h) (d', h'))
    (hlen : h.length ≤ h'.length) {q : Nat} (hself : d.state? t = some (.nested q n, none))
    (hstate : ∀ u, d'.state? u =
      if u = t then some (.nested q n, some .rolledBack) else d.state? u)
    (hheld : p ∈ works (ledger c h').frames ↔ p ∈ works (below n (ledger c h).frames))
    (hdurable : (ledger c h').durable = (ledger c h).durable)
    (hfate : fate? c p h' = fate? c p h)
    (hdone : true ∈ asks c (.rollbackTo n) h')
    (hasks : ∀ directive, directive.undoes → directive ≠ .rollbackTo n →
      asks c directive h' = asks c directive h)
    (hplace : ∀ u q m, d'.state? u = some (.nested q m, none) →
      below m (ledger c h').frames = below m (ledger c h).frames ∧
        (p ∈ works (below m (ledger c h).frames) → p ∈ works (below n (ledger c h).frames))) :
    Tracked around c p d' h' := by
  have hkept : Kept around c h' ↔ Kept around c h ∧ around t = none := by
    constructor
    · intro hk
      have hnone : around t = none := by
        cases ha : around t with
        | none => rfl
        | some o => exact absurd hdone (hk t q n (ht.origin_eq ha hself ▸ ha))
      refine ⟨fun u q' m ha => ?_, hnone⟩
      have hne : m ≠ n := fun hm => hk u q' m ha (hm ▸ hdone)
      rw [← hasks _ rfl fun heq => hne (Directive.rollbackTo.inj heq)]
      exact hk u q' m ha
    · rintro ⟨hk, hnone⟩ u q' m ha
      have hne : m ≠ n := by
        rintro rfl
        obtain ⟨how, hs⟩ := ht.known u _ ha
        rw [hl.savepoint_inj hs hself, hnone] at ha
        cases ha
      rw [hasks _ rfl fun heq => hne (Directive.rollbackTo.inj heq)]
      exact hk u q' m ha
  have hwork := ht.place t q n hself
  -- while the transaction is open, the engine's has not ended if it is around the run
  have hrunning : fate? c p h = some .committed → around t = none := fun hf => by
    cases ha : around t with
    | none => rfl
    | some o =>
      obtain rfl := ht.origin_eq ha hself
      rw [ht.running t _ ha hself] at hf
      cases hf
  refine ⟨Nat.lt_of_lt_of_le ht.past hlen, fun u o ha => ?_, fun u q' m hu => ?_, ?_, ?_,
    fun u o ha hu => ?_, fun u how ha hu => ?_⟩
  · obtain ⟨how, hs⟩ := ht.known u o ha
    exact hturn.known hs
  · obtain ⟨hsame, hsub⟩ := hplace u q' m hu
    rw [hstate] at hu
    split at hu
    · cases hu
    · rw [hsame, hheld]
      have := ht.place u q' m hu
      grind
  · rw [hheld, hwork, ht.held, hfate, hkept, and_assoc]
  · rw [hdurable, hfate, hkept, ht.durable]
    grind
  · rw [hfate]
    rw [hstate] at hu
    split at hu
    · exact nomatch (Prod.mk.inj (Option.some.inj hu)).2
    · exact ht.running u o ha hu
  · have hsame : asks c .rollback h' = asks c .rollback h := hasks _ rfl nofun
    rw [hfate, hsame]
    rw [hstate] at hu
    split at hu
    · cases hu
    · exact ht.root u how ha hu

/-! ## One turn -/

/-- When a root ends, no transaction is open. -/
theorem none_open (hl : d.Linked) {x : Transaction} {how : Ended} (hx : d.Ready t x)
    (ho : x.origin = .root) (u : Nat) (o : Origin) :
    (d.withEnded t x.origin how).state? u ≠ some (o, none) := by
  intro hu
  exact savepointChain_ne_nil hu (savepointChain_root hl how hx ho)

/-- What is open when a transaction has ended was open before, and is another one. -/
theorem open_of_withEnded {x : Transaction} {how : Ended} {o : Origin} (hx : d.Ready t x)
    (hu : (d.withEnded t x.origin how).state? u = some (o, none)) :
    u ≠ t ∧ d.state? u = some (o, none) := by
  rw [state?_withEnded hx.1] at hu
  split at hu
  · exact nomatch (Prod.mk.inj (Option.some.inj hu)).2
  · next hne => exact ⟨hne, hu⟩

/-- A root that has ended did so before, or is the transaction that ends. -/
theorem root_of_withEnded {x : Transaction} {e how : Ended} (hx : d.Ready t x)
    (hu : (d.withEnded t x.origin e).state? u = some (.root, some how)) :
    d.state? u = some (.root, some how) ∨
      d.state? u = some (.root, none) ∧ x.origin = .root ∧ how = e := by
  rw [state?_withEnded hx.1] at hu
  split at hu
  · next hut =>
    subst hut
    obtain ⟨ho, he⟩ := Prod.mk.inj (Option.some.inj hu)
    exact .inr ⟨by rw [state?_of_find hx.1, ho, hx.2.1], ho, (Option.some.inj he).symm⟩
  · exact .inl hu

section Turn

variable (ht : Tracked around c p d h) (hturn : Turn A c (d, h) (d', h'))
include ht hturn

theorem rested {ps : List Nat} (ha : Alike d d') (hs : Spent c h h' ps) :
    Tracked around c p d' h' := by
  have hnew : p ∉ ps := fun hmem =>
    absurd ((hs.runs p).1 hmem).1 (Nat.not_le.2 ht.past)
  refine ht.keep hturn hs.suffix.length_le (hs.asks _ ▸ id) ?_ ?_ (hs.fate p)
    (fun n => by rw [hs.asks]) (fun u q n hu => ?_) (fun u o hu => .inl (ha.state ▸ hu))
    fun u how hu => .inl (ha.state ▸ hu)
  · rw [hs.ledger, Ledger.works_runs_of_notMem hnew]
  · rw [hs.ledger, Ledger.durable_runs_of_notMem hnew]
  · rw [hs.ledger, Ledger.below_runs]
    exact ht.place u q n (ha.state ▸ hu)

theorem refused {directive : Directive} (ha : Alike d d') (hundo : directive.undoes = false)
    (he : Effect c directive false h h') : Tracked around c p d' h' := by
  have hledger : ledger c h' = ledger c h := he.ledger
  have hfate : fate? c p h' = fate? c p h := (he.fate p ht.past).trans Option.or_none
  have hasks (d' : Directive) (hd' : d'.undoes = true) : asks c d' h' = asks c d' h := by
    refine he.asks_of_ne ?_
    rintro rfl
    rw [hundo] at hd'
    cases hd'
  refine ht.keep hturn he.suffix.length_le (hasks .rollback rfl ▸ id) (by rw [hledger])
    (by rw [hledger]) hfate (fun n => by rw [hasks (.rollbackTo n) rfl]) (fun u q n hu => ?_)
    (fun u o hu => .inl (ha.state ▸ hu)) fun u how hu => .inl (ha.state ▸ hu)
  rw [hledger]
  exact ht.place u q n (ha.state ▸ hu)

/-- What is not known yet is new to the run. -/
theorem began (hd' : d' = d.withRoot) (hnone : d.ranks = []) (he : Effect c .start true h h') :
    Tracked around c p d' h' := by
  subst hd'
  have hfate : fate? c p h' = fate? c p h := (he.fate p ht.past).trans Option.or_none
  have hasks (d' : Directive) (hne : d' ≠ .start) : asks c d' h' = asks c d' h :=
    he.asks_of_ne hne
  have hledger : ledger c h' = (ledger c h).control .start := he.ledger
  -- there is nothing in a frame that is new
  have hnew : ledger c h' = ledger c h ∨ (ledger c h).frames = [] ∧
      ledger c h' = { ledger c h with frames := [{ savepoint := none }] } := by
    rw [hledger, Ledger.control]
    split
    · next hf => exact .inr ⟨List.isEmpty_iff.1 hf, rfl⟩
    · exact .inl rfl
  have state {u : Nat} {o : Origin} {how : Option Ended}
      (hu : d.withRoot.state? u = some (o, how)) :
      d.state? u = some (o, how) ∨ d.state? u = none ∧ o = .root ∧ how = none := by
    rw [state?_withRoot] at hu
    split at hu
    · next hn =>
      cases hu
      exact .inr ⟨hn ▸ state?_next, rfl, rfl⟩
    · exact .inl hu
  have hrollback : Directive.rollback ≠ .start := by decide
  have hrollbackTo (n : Nat) : Directive.rollbackTo n ≠ .start := by simp
  refine ht.keep hturn he.suffix.length_le (hasks .rollback hrollback ▸ id) ?_ ?_ hfate
    (fun n => by rw [hasks _ (hrollbackTo n)]) (fun u q n hu => ?_)
    (fun u o hu => (state hu).imp_right (·.1)) fun u how hu => ?_
  · obtain hl | ⟨hf, hl⟩ := hnew <;> simp [hl]
    simp [hf]
  · obtain hl | ⟨-, hl⟩ := hnew <;> rw [hl]
  · obtain hu | ⟨-, ho, -⟩ := state hu
    · have hold := mem_savepointChain hu
      rw [savepointChain, hnone] at hold
      cases hold
    · cases ho
  · obtain hu | ⟨-, -, hhow⟩ := state hu
    · exact .inl hu
    · cases hhow

theorem nested {parent depth : Nat} (hl : d.Linked)
    (hd' : d' = { d with savepoints := d.savepoints + 1 }.withNested parent
      (d.savepoints + 1) depth)
    (he : Effect c (.savepoint (d.savepoints + 1)) true h h') : Tracked around c p d' h' := by
  subst hd'
  have hfate : fate? c p h' = fate? c p h := (he.fate p ht.past).trans Option.or_none
  have hrollback : asks c .rollback h' = asks c .rollback h := he.asks_of_ne nofun
  have hasks (n : Nat) : asks c (.rollbackTo n) h' = asks c (.rollbackTo n) h :=
    he.asks_of_ne nofun
  have hledger : ledger c h' = (ledger c h).control (.savepoint (d.savepoints + 1)) := he.ledger
  have state {u : Nat} {o : Origin} {how : Option Ended}
      (hu : ({ d with savepoints := d.savepoints + 1 }.withNested parent (d.savepoints + 1)
        depth).state? u = some (o, how)) : d.state? u = some (o, how) ∨
        d.state? u = none ∧ o = .nested parent (d.savepoints + 1) ∧ how = none := by
    rw [state?_withNested] at hu
    split at hu
    · next hn =>
      cases hu
      exact .inr ⟨hn ▸ state?_next, rfl, rfl⟩
    · exact .inl hu
  refine ht.keep hturn he.suffix.length_le (hrollback ▸ id) ?_ ?_ hfate
    (fun n => by rw [hasks]) (fun u q n hu => ?_) (fun u o hu => (state hu).imp_right (·.1))
    fun u how hu => ?_
  · rw [hledger]
    simp [Ledger.control]
  · rw [hledger]
    rfl
  · rw [hledger, Ledger.control]
    obtain hu | ⟨hnew, ho, -⟩ := state hu
    · have hne : d.savepoints + 1 ≠ n := Nat.ne_of_gt (Nat.lt_succ_of_le (hl.savepoint_le hu))
      rw [below_cons_ne (by simpa using hne)]
      exact ht.place u q n hu
    · cases ho
      simp [below_cons_self, ht.not_around hnew]
  · obtain hu | ⟨-, -, hhow⟩ := state hu
    · exact .inl hu
    · cases hhow

end Turn

section Root

variable (ht : Tracked around c p d h) (hl : d.Linked) {x : Transaction} (hx : d.Ready t x)
  (ho : x.origin = .root)
include ht hl hx ho

/-- A root ends with success. -/
theorem rootEnded {e : Ended} {directive : Directive}
    (hturn : Turn A c (d, h) (d.withEnded t x.origin e, h'))
    (hkind : directive = .commit ∧ e = .committed ∨ directive = .rollback ∧ e = .rolledBack)
    (he : Effect c directive true h h') :
    Tracked around c p (d.withEnded t x.origin e) h' := by
  have hledger : ledger c h' = (ledger c h).control directive := he.ledger
  have hfate := he.fate p ht.past
  have hasks (n : Nat) : asks c (.rollbackTo n) h' = asks c (.rollbackTo n) h := by
    refine he.asks_of_ne ?_
    obtain ⟨rfl, -⟩ | ⟨rfl, -⟩ := hkind <;> nofun
  have hrefused (hr : false ∈ asks c .rollback h) : false ∈ asks c .rollback h' := by
    rw [he.asks]
    split
    · exact List.mem_cons_of_mem _ hr
    · exact hr
  refine ht.finish (e := e) hturn he.suffix.length_le hrefused ?_ ?_ ?_ hasks
    (none_open hl hx ho) fun u how hu => ?_
  · rw [hledger]
    obtain ⟨rfl, -⟩ | ⟨rfl, -⟩ := hkind <;> rfl
  · rw [hledger]
    obtain ⟨rfl, rfl⟩ | ⟨rfl, rfl⟩ := hkind <;> simp [Ledger.control, or_comm]
  · obtain ⟨rfl, rfl⟩ | ⟨rfl, rfl⟩ := hkind <;> exact hfate
  · exact (root_of_withEnded hx hu).imp_right fun h => ⟨h.1, h.2.2⟩

/-- The engine refuses to roll back a root, which ends nevertheless. -/
theorem rootLeft (hturn : Turn A c (d, h) (d.withEnded t x.origin .rolledBack, h'))
    (he : Effect c .rollback false h h') :
    Tracked around c p (d.withEnded t x.origin .rolledBack) h' := by
  have hledger : ledger c h' = ledger c h := he.ledger
  have hfate : fate? c p h' = fate? c p h := (he.fate p ht.past).trans Option.or_none
  have hasks (n : Nat) : asks c (.rollbackTo n) h' = asks c (.rollbackTo n) h :=
    he.asks_of_ne nofun
  have hrefused : asks c .rollback h' = false :: asks c .rollback h :=
    (he.asks _).trans (if_pos rfl)
  refine ht.keep hturn he.suffix.length_le (hrefused ▸ List.mem_cons_of_mem _) (by rw [hledger])
    (by rw [hledger]) hfate (fun n => by rw [hasks]) (fun u q n hu => ?_) (fun u o hu => ?_)
    fun u how hu => ?_
  · exact absurd hu (none_open hl hx ho u _)
  · exact absurd hu (none_open hl hx ho u _)
  · exact (root_of_withEnded hx hu).imp_right fun h =>
      ⟨h.2.2, hrefused ▸ List.mem_cons_self⟩

end Root

section Nested

variable (ht : Tracked around c p d h) (hs : Stacked d (ledger c h)) (hl : d.Linked)
  {x : Transaction} {q : Nat} (hx : d.Ready t x) (ho : x.origin = .nested q n)
include hs hl hx ho

/-- The frame of a nested transaction, and those of the open ones around it. -/
theorem mem_below (how : Ended) : some n ∈ (ledger c h).savepoints ∧
    ∀ u q m, (d.withEnded t x.origin how).state? u = some (.nested q m, none) →
      some m ∈ (below n (ledger c h).frames).map (·.savepoint) := by
  have hchain := hs.chain
  rw [savepointChain_withEnded hl how hx, ho] at hchain
  refine ⟨hchain.subset List.mem_cons_self, fun u q m hu => ?_⟩
  exact (sublist_below hchain).subset (ho ▸ mem_savepointChain hu)

include ht

theorem nestedCommitted (hturn : Turn A c (d, h) (d.withEnded t x.origin .committed, h'))
    (he : Effect c (.release n) true h h') :
    Tracked around c p (d.withEnded t x.origin .committed) h' := by
  obtain ⟨hmem, hbelow⟩ := mem_below hs hl hx ho .committed
  have hne := hs.below_ne_nil hmem
  have hledger : ledger c h' = (ledger c h).release n := he.ledger
  have hfate : fate? c p h' = fate? c p h := (he.fate p ht.past).trans Option.or_none
  have hasks (m : Nat) : asks c (.rollbackTo m) h' = asks c (.rollbackTo m) h :=
    he.asks_of_ne nofun
  have hrollback : asks c .rollback h' = asks c .rollback h := he.asks_of_ne nofun
  refine ht.keep hturn he.suffix.length_le (hrollback ▸ id) ?_ ?_ hfate
    (fun n => by rw [hasks]) (fun u q m hu => ?_) (fun u o hu => .inl (open_of_withEnded hx hu).2)
    fun u how hu => ?_
  · rw [hledger]
    exact Ledger.works_release hmem hne
  · rw [hledger, Ledger.durable_release hmem hne]
  · rw [hledger, Ledger.below_release hmem hne hs.nodup (hbelow u q m hu)]
    exact ht.place u q m (open_of_withEnded hx hu).2
  · obtain hu | ⟨-, hor, -⟩ := root_of_withEnded hx hu
    · exact .inl hu
    · rw [ho] at hor
      cases hor

omit hs hl in
theorem nestedStuck (hturn : Turn A c (d, h) (d.withEnded t x.origin .rolledBack, h'))
    (he : Effect c (.rollbackTo n) false h h') :
    Tracked around c p (d.withEnded t x.origin .rolledBack) h' := by
  have hledger : ledger c h' = ledger c h := he.ledger
  have hfate : fate? c p h' = fate? c p h := (he.fate p ht.past).trans Option.or_none
  have hrollback : asks c .rollback h' = asks c .rollback h := he.asks_of_ne nofun
  refine ht.keep hturn he.suffix.length_le (hrollback ▸ id) (by rw [hledger]) (by rw [hledger])
    hfate (fun m => ?_) (fun u q m hu => ?_) (fun u o hu => .inl (open_of_withEnded hx hu).2)
    fun u how hu => ?_
  · rw [he.asks]
    split <;> simp
  · rw [hledger]
    exact ht.place u q m (open_of_withEnded hx hu).2
  · obtain hu | ⟨-, hor, -⟩ := root_of_withEnded hx hu
    · exact .inl hu
    · rw [ho] at hor
      cases hor

theorem nestedUndone {h₁ : History} {ok : Bool}
    (hturn : Turn A c (d, h) (d.withEnded t x.origin .rolledBack, h'))
    (he : Effect c (.rollbackTo n) true h h₁) (he' : Effect c (.release n) ok h₁ h') :
    Tracked around c p (d.withEnded t x.origin .rolledBack) h' := by
  obtain ⟨hmem, hbelow⟩ := mem_below hs hl hx ho .rolledBack
  have hlen := he.suffix.length_le
  have hledger : ledger c h₁ = (ledger c h).rollbackTo n := he.ledger
  have hself : d.state? t = some (.nested q n, none) := by
    rw [state?_of_find hx.1, ho, hx.2.1]
  -- the savepoint is on top of what is left, or not even that
  have hleft : (ledger c h').durable = (ledger c h).durable ∧
      ((ledger c h').frames = below n (ledger c h).frames ∨
        ledger c h' = (ledger c h).rollbackTo n) := by
    cases ok with
    | true =>
      have hl' : ledger c h' = (ledger c h₁).release n := he'.ledger
      rw [hl', hledger, Ledger.release_rollbackTo hmem (hs.below_ne_nil hmem)]
      exact ⟨rfl, .inl rfl⟩
    | false =>
      have hl' : ledger c h' = ledger c h₁ := he'.ledger
      rw [hl', hledger]
      exact ⟨Ledger.durable_rollbackTo hmem, .inr rfl⟩
  refine ht.undo hl hturn (Nat.le_trans hlen he'.suffix.length_le) hself (fun u => ?_) ?_ hleft.1
    ?_ ?_ (fun directive hkind hne => ?_) fun u q m hu => ?_
  · rw [state?_withEnded hx.1, ho]
  · obtain hf | hl' := hleft.2
    · rw [hf]
    · rw [hl', Ledger.works_rollbackTo hmem]
  · have hfate := he.fate p ht.past
    have hfate' := he'.fate p (Nat.lt_of_lt_of_le ht.past hlen)
    rw [hfate', hfate]
    cases ok <;> simp [Directive.ends?]
  · have hsame : asks c (.rollbackTo n) h' = asks c (.rollbackTo n) h₁ := he'.asks_of_ne nofun
    rw [hsame, he.asks, if_pos rfl]
    exact List.mem_cons_self
  · have hrelease : directive ≠ .release n := by
      rintro rfl
      cases hkind
    rw [he'.asks_of_ne hrelease, he.asks_of_ne hne]
  · have hm := hbelow u q m hu
    obtain ⟨hut, hu⟩ := open_of_withEnded hx hu
    have hne : m ≠ n := fun hm => hut (hl.savepoint_inj (hm ▸ hu) hself)
    have hsame := below_below hs.nodup hm
    refine ⟨?_, fun hp => mem_works_below (hsame ▸ hp)⟩
    obtain hf | hl' := hleft.2
    · rw [hf, hsame]
    · rw [hl']
      exact Ledger.below_rollbackTo hmem hs.nodup hm hne

end Nested

theorem closed (ht : Tracked around c p d h) (hnone : d.ranks = [])
    (hturn : Turn A c (d, h) ({ d with isOpen := false }, h')) (hs : Shut c h h') :
    Tracked around c p { d with isOpen := false } h' := by
  have hopen (u : Nat) (o : Origin) : d.state? u ≠ some (o, none) := fun hu => by
    refine savepointChain_ne_nil hu ?_
    rw [savepointChain, hnone]
    rfl
  obtain ⟨hl, hf⟩ | ⟨hl, hf⟩ := hs.rest
  · exact ht.keep hturn hs.suffix.length_le (hs.asks _ ▸ id) (by rw [hl]) (by rw [hl])
      (hf p ht.past) (fun n => by rw [hs.asks]) (fun u q n hu => absurd hu (hopen u _))
      (fun u o hu => .inl hu) fun u how hu => .inl hu
  · refine ht.finish (e := .rolledBack) hturn hs.suffix.length_le (hs.asks _ ▸ id) (by rw [hl]) ?_
      (hf p ht.past) (fun n => hs.asks _) hopen fun u how hu => .inl hu
    rw [hl]
    simp

theorem turn (ht : Tracked around c p d h) (hs : Stacked d (ledger c h)) (hl : d.Linked)
    (hturn : Turn A c (d, h) (d', h')) : Tracked around c p d' h' := by
  cases id hturn with
  | rested ha hspent => exact ht.rested hturn ha hspent
  | refused ha hundo he => exact ht.refused hturn ha hundo he
  | began hnone he => exact ht.began hturn rfl hnone he
  | nested hx he => exact ht.nested hturn hl rfl he
  | @committed _ _ _ t x hx he =>
    cases ho : x.origin with
    | root =>
      rw [ho] at he
      exact ho ▸ ht.rootEnded hl hx ho hturn (.inl ⟨rfl, rfl⟩) he
    | nested q n =>
      rw [ho] at he
      exact ho ▸ ht.nestedCommitted hs hl hx ho hturn he
  | @rolledBack _ _ _ t x ok hx ho he =>
    cases ok with
    | true => exact ht.rootEnded hl hx ho hturn (.inr ⟨rfl, rfl⟩) he
    | false => exact ht.rootLeft hl hx ho hturn he
  | stuck hx ho he => exact ht.nestedStuck hx ho hturn he
  | undone hx ho he he' => exact ht.nestedUndone hs hl hx ho hturn he he'
  | closed hnone hshut => exact ht.closed hnone hturn hshut

/-! ## The first turn -/

/-- A run is made in the transactions that are open. -/
theorem made (hs : Stacked d (ledger c h)) (ha : Accounted c d h) {x : Transaction}
    (hx : d.Ready t x) (halike : Alike d d') {ps : List Nat} (hspent : Spent c h h' ps)
    (hp : p ∈ ps) : Tracked d.opened? c p d' h' := by
  obtain ⟨hle, hran⟩ := (hspent.runs p).1 hp
  have hopen : (ledger c h).frames ≠ [] := fun hnil => by
    have hchain := hs.chain
    rw [Ledger.savepoints, hnil] at hchain
    exact savepointChain_ne_nil (hx.2.1 ▸ state?_of_find hx.1) (List.sublist_nil.1 hchain)
  have hnew := fun hold => Nat.not_le.2 (ledger_bounded c h p hold) hle
  have hfate : fate? c p h' = none := (hspent.fate p).trans (fate?_of_length_le hle)
  obtain ⟨hdurable, hworks⟩ := @Ledger.runs_of_ne_nil (ledger c h) ps hopen
  rw [← hspent.ledger] at hdurable hworks
  refine ⟨?_, fun u o hu => ⟨none, ?_⟩, fun u q n hu => ?_, ?_, ?_, fun _ _ _ _ => hfate,
    fun u how hu hu' => ?_⟩
  · by_contra hlt
    rw [ranAt_of_length_le (Nat.not_lt.1 hlt)] at hran
    cases hran
  · rw [halike.state]
    exact opened?_eq_some.1 hu
  · rw [halike.state] at hu
    rw [hspent.ledger, Ledger.below_runs, opened?_eq_some.2 hu]
    simp only [reduceCtorEq, and_false, iff_false]
    exact fun hmem => hnew (.inl (mem_works_below hmem))
  · refine iff_of_true (hworks p hp) ⟨hfate, fun u q n hu => ?_⟩
    rw [hspent.asks, ha.kept u q n none (opened?_eq_some.1 hu) (by simp)]
    exact List.not_mem_nil
  · rw [hdurable, hfate]
    exact iff_of_false (fun hmem => hnew (.inr hmem)) (by simp)
  · rw [halike.state, opened?_eq_some.1 hu] at hu'
    cases hu'

end Tracked

end SqlAccess.Database
