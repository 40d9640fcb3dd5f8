import SqlAccess.Proofs.Database.Chain
import SqlAccess.Proofs.Ledger.Frames

/-!
# Turns in the life of a database

As far as transactions and the work on a connection are concerned, little can happen to a
database: statements are run, and transactions are begun and ended. `Turn A c` lists it, each with
what it comes to in the ledger of the connection `c`. All that happens is such a turn, as long as
the library takes calls for what they are (`Happens.turn`).

A turn is about where transactions were begun and how they ended (`state?`), which `Alike`
databases agree on.
-/

namespace SqlAccess.Database

variable {A : Database → Prop} {d d' : Database} {h h' : History} {c t u : Nat}

/-! ## What is known of a transaction -/

/-- Where a transaction was begun and how it ended, if it did. -/
def state? (d : Database) (t : Nat) : Option (Origin × Option Ended) :=
  (d.transactions.find? t).map fun x => (x.origin, x.ended)

theorem state?_of_find {x : Transaction} (hx : d.transactions.find? t = some x) :
    d.state? t = some (x.origin, x.ended) := by
  rw [state?, hx, Option.map_some]

theorem state?_next : d.state? d.transactions.next = none := by
  rw [state?, Table.find?_next, Option.map_none]

theorem state?_withStatement {s : Statement} : (d.withStatement s).state? = d.state? := by
  funext u
  rw [state?, find_withStatement, Option.map_map]
  rfl

theorem state?_disowned : ({ d with transactions := d.transactions.modify t fun x =>
    { x with statements := [] } } : Database).state? = d.state? := by
  funext u
  exact Table.map_find?_modify _ _ _ fun _ => rfl

theorem state?_withRoot : d.withRoot.state? u =
    if u = d.transactions.next then some (.root, none) else d.state? u := by
  rw [state?, withRoot, Table.find?_add]
  split <;> rfl

theorem state?_withNested {p n depth : Nat} : (d.withNested p n depth).state? u =
    if u = d.transactions.next then some (.nested p n, none) else d.state? u := by
  have hsame : (d.withNested p n depth).state? u =
      ((d.transactions.add { origin := .nested p n, depth }).find? u).map
        fun x => (x.origin, x.ended) := Table.map_find?_modify _ _ _ fun _ => rfl
  rw [hsame, Table.find?_add]
  split <;> rfl

theorem state?_withEnded {x : Transaction} {how : Ended} (hx : d.transactions.find? t = some x) :
    (d.withEnded t x.origin how).state? u =
      if u = t then some (x.origin, some how) else d.state? u := by
  have hsame : (d.withEnded t x.origin how).state? u =
      ((d.transactions.modify t fun x => { x with ended := some how }).find? u).map
        fun x => (x.origin, x.ended) := by
    cases x.origin with
    | root => rfl
    | nested => exact Table.map_find?_modify _ _ _ fun _ => rfl
  rw [hsame, Table.find?_modify]
  by_cases hu : u = t
  · subst hu
    simp [hx]
  · simp [hu, state?]

/-- The savepoints at which open transactions were begun, the latest first. -/
def savepointChain (d : Database) : List (Option Nat) := (d.ranks.map (·.1.savepoint?)).reverse

theorem mem_savepointChain {u n p : Nat} (hu : d.state? u = some (.nested p n, none)) :
    some n ∈ d.savepointChain := by
  obtain ⟨x, hx, ho⟩ := Option.map_eq_some_iff.1 hu
  obtain ⟨hor, ho⟩ := Prod.mk.inj ho
  exact List.mem_reverse.2 <| List.mem_map.2 ⟨_, mem_ranks.2 ⟨u, x, hx, ho, rfl⟩, by rw [hor]; rfl⟩

theorem savepointChain_ne_nil {o : Origin} (hu : d.state? u = some (o, none)) :
    d.savepointChain ≠ [] := by
  obtain ⟨x, hx, ho⟩ := Option.map_eq_some_iff.1 hu
  have hmem := mem_ranks.2 ⟨u, x, hx, (Prod.mk.inj ho).2, rfl⟩
  intro hnil
  rw [savepointChain, List.reverse_eq_nil_iff, List.map_eq_nil_iff] at hnil
  rw [hnil] at hmem
  cases hmem

theorem savepointChain_withRoot : d.withRoot.savepointChain = none :: d.savepointChain := by
  simp [savepointChain, ranks_withRoot, Origin.savepoint?]

theorem savepointChain_withNested {p n depth : Nat} :
    (d.withNested p n depth).savepointChain = some n :: d.savepointChain := by
  simp [savepointChain, ranks_withNested, Origin.savepoint?]

theorem savepointChain_withEnded (hl : d.Linked) {x : Transaction} (how : Ended)
    (hx : d.Ready t x) :
    d.savepointChain = x.origin.savepoint? :: (d.withEnded t x.origin how).savepointChain := by
  rw [savepointChain, ranks_withEnded hl how hx]
  simp [savepointChain]

/-- Databases that have the same transactions, as to where they were begun and how they ended. -/
structure Alike (d d' : Database) : Prop where
  state : d'.state? = d.state?
  ranks : d'.ranks = d.ranks
  savepoints : d.savepoints ≤ d'.savepoints

theorem Alike.refl : Alike d d := ⟨rfl, rfl, Nat.le_refl _⟩

theorem Alike.savepointChain (ha : Alike d d') : d'.savepointChain = d.savepointChain :=
  congrArg (fun r => (r.map fun e : Origin × Nat => e.1.savepoint?).reverse) ha.ranks

/-! ## Turns -/

/-- One thing that happens to a database, with what it comes to for a connection. -/
inductive Turn (A : Database → Prop) (c : Nat) : Database × History → Database × History → Prop
  /-- Statements are run, if anything. -/
  | rested {d d' : Database} {h h' : History} {ps : List Nat} :
      Alike d d' → Spent c h h' ps → ps = [] ∨ A d → Turn A c (d, h) (d', h')
  /-- The engine refuses to begin a transaction or to keep the work of one. -/
  | refused {d d' : Database} {h h' : History} {directive : Directive} :
      Alike d d' → directive.undoes = false → Effect c directive false h h' →
      Turn A c (d, h) (d', h')
  | began {d : Database} {h h' : History} :
      d.ranks = [] → Effect c .start true h h' → Turn A c (d, h) (d.withRoot, h')
  | nested {d : Database} {h h' : History} {parent : Nat} {x : Transaction} :
      d.Ready parent x → Effect c (.savepoint (d.savepoints + 1)) true h h' →
      Turn A c (d, h) ({ d with savepoints := d.savepoints + 1 }.withNested parent
        (d.savepoints + 1) (x.depth + 1), h')
  | committed {d : Database} {h h' : History} {t : Nat} {x : Transaction} :
      d.Ready t x → Effect c (keeping x.origin) true h h' →
      Turn A c (d, h) (d.withEnded t x.origin .committed, h')
  /-- A root is rolled back. -/
  | rolledBack {d : Database} {h h' : History} {t : Nat} {x : Transaction} {ok : Bool} :
      d.Ready t x → x.origin = .root → Effect c .rollback ok h h' →
      Turn A c (d, h) (d.withEnded t x.origin .rolledBack, h')
  /-- A nested transaction is rolled back, and the engine refuses to undo its work. -/
  | stuck {d : Database} {h h' : History} {t p n : Nat} {x : Transaction} :
      d.Ready t x → x.origin = .nested p n → Effect c (.rollbackTo n) false h h' →
      Turn A c (d, h) (d.withEnded t x.origin .rolledBack, h')
  /-- A nested transaction is rolled back, and its work is undone. -/
  | undone {d : Database} {h h₁ h' : History} {t p n : Nat} {x : Transaction} {ok : Bool} :
      d.Ready t x → x.origin = .nested p n → Effect c (.rollbackTo n) true h h₁ →
      Effect c (.release n) ok h₁ h' →
      Turn A c (d, h) (d.withEnded t x.origin .rolledBack, h')
  | closed {d : Database} {h h' : History} :
      d.ranks = [] → Shut c h h' → Turn A c (d, h) ({ d with isOpen := false }, h')

theorem Turn.suffix (ht : Turn A c (d, h) (d', h')) : h <:+ h' := by
  cases ht with
  | rested _ hs => exact hs.suffix
  | refused _ _ he => exact he.suffix
  | began _ he => exact he.suffix
  | nested _ he => exact he.suffix
  | committed _ he => exact he.suffix
  | rolledBack _ _ he => exact he.suffix
  | stuck _ _ he => exact he.suffix
  | undone _ _ he he' => exact he.suffix.trans he'.suffix
  | closed _ hs => exact hs.suffix

/-- Statements were worked on, and run only if that is allowed. -/
theorem Turn.of_work (ha : Alike d d') (hg : Grown (Work d.link.connection) h h')
    (hA : A d ∨ Grown Idle h h') : Turn A c (d, h) (d', h') := by
  obtain ⟨ps, hs⟩ := Spent.of_grown (hg.mono fun _ _ hw => hw.harmless)
  refine .rested ha hs ?_
  obtain hA | hidle := hA
  · exact .inr hA
  · exact .inl (hs.eq_nil (hidle.mono fun _ _ hi => hi.unrun))

/-- While the library takes calls for what they are, each thing that happens is a turn. -/
theorem Happens.turn (hh : Happens A (d, h) (d', h')) (hl : d.Linked)
    (hc : d.link.connection = some c) (hcandid : candid c h') : Turn A c (d, h) (d', h') := by
  cases hh with
  | elsewhere hg =>
    rw [hc] at hg
    obtain ⟨ps, hs⟩ := Spent.of_grown (hg.mono fun _ _ hf => hf.harmless)
    exact .rested .refl hs (.inl (hs.eq_nil (hg.mono fun _ _ hf => hf.unrun)))
  | change hch =>
    cases hch with
    | called hg =>
      exact .of_work .refl (hg.mono fun _ _ hm => hm.work) (.inr (hg.mono fun _ _ hm => hm.2))
    | worked hk hst hs hg hA => exact .of_work ⟨rfl, rfl, Nat.le_refl _⟩ hg hA
    | added ho howner hm =>
      exact .rested ⟨state?_withStatement, ranks_withStatement, Nat.le_refl _⟩ .refl (.inl rfl)
    | unlisted => exact .rested ⟨rfl, rfl, Nat.le_refl _⟩ .refl (.inl rfl)
    | disowned =>
      exact .rested ⟨state?_disowned, ranks_disowned, Nat.le_refl _⟩ .refl (.inl rfl)
    | @refused _ _ _ directive hd ha =>
      rw [hc] at ha
      have hkind : directive.controls ∧ directive.undoes = false := by
        obtain rfl | rfl | ⟨n, rfl⟩ := hd <;> exact ⟨rfl, rfl⟩
      exact .refused .refl hkind.2 (ha.effect hkind.1 hcandid)
    | began ho hr ha =>
      rw [hc] at ha
      exact .began (ranks_eq_nil fun t => hl.none_open hr t) (ha.effect rfl hcandid)
    | numbered ha =>
      rw [hc] at ha
      exact .refused ⟨rfl, rfl, Nat.le_succ _⟩ rfl (ha.effect rfl hcandid)
    | nested ho hx ha =>
      rw [hc] at ha
      exact .nested hx (ha.effect rfl hcandid)
    | @committed _ _ _ _ x ho hx hn ha =>
      rw [hc] at ha
      have hkind : (keeping x.origin).controls := by cases x.origin <;> rfl
      exact .committed hx (ha.effect hkind hcandid)
    | @rolledBack _ _ _ t x ho hx hn hu =>
      rw [hc] at hu
      cases hor : x.origin with
      | root =>
        rw [hor] at hu
        obtain ⟨ok, ha⟩ := hu
        exact hor ▸ .rolledBack hx hor (ha.effect rfl hcandid)
      | nested p n =>
        rw [hor] at hu
        cases hu with
        | refused ha => exact hor ▸ .stuck hx hor (ha.effect rfl hcandid)
        | done ha hb =>
          have hfirst := ha.effect rfl (candid_of_suffix hb.suffix hcandid)
          exact hor ▸ .undone hx hor hfirst (hb.effect rfl hcandid)
    | closed hlisted hr hg =>
      rw [hc] at hg
      exact .closed (ranks_eq_nil fun t => hl.none_open hr t) (.of_grown hg)

end SqlAccess.Database
