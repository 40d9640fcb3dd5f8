import SqlAccess.Proofs.Database.Durable
import SqlAccess.Proofs.Session.Reachable

/-!
# Durable work

A session runs the engine's transactions as its own: where no directive fails, the frames of a
connection are those of the open transactions on its database, and what is run in a transaction
becomes durable if and only if it and all transactions around it are committed
(`frames_follow_transactions`). Where directives may fail, work of a rolled back transaction becomes
durable only where the engine refused to undo it (`durable_iff_kept`).
-/

namespace SqlAccess

/-- The frames are those of the open transactions: none while no root is open, and else the one of
the root at the bottom, with those of the open nested transactions on it in the order of their
depths. -/
structure Database.Follows (d : Database) (l : Ledger) : Prop where
  frames : l.frames.map (·.savepoint) = (d.chain.map (·.origin.savepoint?)).reverse
  root : d.chain.head? = d.root.bind d.transactions.find?
  depth : d.chain.map (·.depth) = List.range d.chain.length

namespace Database

variable {d : Database} {l : Ledger} {h : History} {c : Nat}

theorem mem_chain {x : Transaction} :
    x ∈ d.chain ↔ ∃ t, d.transactions.find? t = some x ∧ x.ended = none := by
  rw [chain, Table.mem_collect]
  simp only [Transaction.isOpen, Option.isNone_iff_eq_none]
  grind

/-- The open transactions begin with the root, if one is open. -/
theorem chain_head? (hl : d.Linked) (hn : d.chain.map (·.depth) = List.range d.chain.length) :
    d.chain.head? = d.root.bind d.transactions.find? := by
  cases hr : d.root with
  | none =>
    have hnil : d.chain = [] := List.eq_nil_iff_forall_not_mem.2 fun x hx => by
      obtain ⟨t, hx, ho⟩ := mem_chain.1 hx
      exact hl.none_open (by simp [hr]) t x hx ho
    rw [hnil]
    rfl
  | some root =>
    obtain ⟨x, hx, ho, -⟩ := hl.root_open root hr
    obtain ⟨y, outer, hchain⟩ := List.exists_cons_of_ne_nil
      (List.ne_nil_of_mem (mem_chain.2 ⟨_, hx, ho⟩))
    obtain ⟨t, hy, hyo⟩ := mem_chain.1 (hchain ▸ List.mem_cons_self)
    have hzero : y.depth = 0 := by
      rw [hchain, List.length_cons, List.range_succ_eq_map] at hn
      exact (List.cons.inj hn).1
    -- what is not nested in another one is the root
    have hroot : y.origin = .root := by
      cases hor : y.origin with
      | root => rfl
      | nested p n =>
        obtain ⟨-, -, z, -, hdepth, -⟩ := hl.nested t y p n hy hor
        omega
    obtain rfl : root = t := Option.some.inj (hr.symm.trans ((hl.root t y hy hroot).2 hyo))
    rw [hchain, Option.bind_some, hy]
    rfl

theorem Mirrored.follows (hm : Mirrored c d h) (hl : d.Linked) (hn : d.Nested) :
    d.Follows (ledger c h) := by
  have hdepth : d.chain.map (·.depth) = List.range d.chain.length := by
    rw [Nested, ranks_eq_map, List.map_map, List.length_map] at hn
    exact hn
  refine ⟨?_, chain_head? hl hdepth, hdepth⟩
  have hchain := hm.chain
  rw [savepointChain, ranks_eq_map, List.map_map] at hchain
  exact hchain

end Database

namespace Session

variable {s : Session × World} {n c p : Nat} {d : Database} {r : TransactionRef}

/-- The run at some position was made by a step before, which ran a statement in a transaction. -/
def Wrote (s : Session × World) (r : TransactionRef) (c p : Nat) : Prop :=
  ∃ s₀ x, Reachable s₀ ∧ s₀.1.executes x = some r ∧ Later (after x s₀) s ∧
    s₀.2.engine.history.length ≤ p ∧ ranAt c p (after x s₀).2.engine.history

/-- What runs a statement in a transaction runs it on a database. -/
theorem exists_database {x : Step} (hx : s.1.executes x = some r)
    (hp : s.2.engine.history.length ≤ p) (hran : ranAt c p (after x s).2.engine.history) :
    ∃ d, s.1.opened.find? r.database = some d := by
  have owned {name : Bytes} (hr : s.1.owner? name = some r) :
      ∃ d, s.1.opened.find? r.database = some d := by
    simp only [owner?, statement?, Option.bind_eq_bind, Option.bind_eq_some_iff, Option.pure_def,
      Option.some.injEq] at hr
    obtain ⟨k, -, z, ⟨d, hd, -⟩, t, -, rfl⟩ := hr
    exact ⟨d, hd⟩
  cases x with
  | update name | execute name | insert name | query name => exact owned hx
  | executeOnce name query =>
    cases hd : s.1.opened.find? r.database with
    | some d => exact ⟨d, rfl⟩
    | none =>
      -- nothing is called then
      have hsame : After (carryOut (.executeOnce name query)) s fun _ s' => s' = s := by
        refine After.bind_iff.2 <| After.bind_iff.2 <| After.get_iff.2 ?_
        rw [show s.1.transactions.find? name = some r from hx]
        refine After.bind_iff.2 <| After.get_iff.2 ?_
        rw [hd]
        exact After.pure_iff.2 (After.pure_iff.2 rfl)
      have hsame : after (.executeOnce name query) s = s := step_iff.2 hsame
      rw [hsame, ranAt_of_length_le hp] at hran
      cases hran
  | _ => cases hx

/-- A run that a transaction wrote is followed by the transaction's database. -/
theorem Wrote.followed (hw : Wrote s r c p) (hd : s.1.opened.find? r.database = some d)
    (hc : d.link.connection = some c) (hcandid : candid c s.2.engine.history) :
    Database.Settled c d s.2.engine.history ∧
      Database.Followed c p r.number d s.2.engine.history := by
  obtain ⟨s₀, x, hr₀, hx, hlater, hp, hran⟩ := hw
  obtain ⟨d₀, hd₀⟩ := exists_database hx hp hran
  obtain ⟨d₁, hd₁, hlife₁⟩ := after_running hr₀ hx hd₀
  obtain ⟨d₂, hd₂, hlife₂⟩ := hlater.life (hr₀.step x) hd₁
  obtain rfl : d = d₂ := Option.some.inj (hd.symm.trans hd₂)
  have hc₁ : d₁.link.connection = some c := (Database.Life.link hlife₂) ▸ hc
  have hc₀ : d₀.link.connection = some c := (Database.Life.link hlife₁) ▸ hc₁
  have hcandid₁ := candid_of_suffix (Database.Life.suffix hlife₂) hcandid
  have hcandid₀ := candid_of_suffix (Database.Life.suffix hlife₁) hcandid₁
  have hs₀ := hr₀.sound.database _ d₀ hd₀
  have hs₁ := (hr₀.step x).sound.database _ d₁ hd₁
  obtain ⟨b, hb, hborn, hlife⟩ := hr₀.life hd₀
  have hcb : b.link.connection = some c := (Database.Life.link hlife) ▸ hc₀
  have settled₀ := (hborn.settled hcb).life hlife hborn.sound hcb hcandid₀
  have settled₁ := settled₀.life hlife₁ hs₀ hc₀ hcandid₁
  have followed := settled₀.followed hlife₁ hs₀ hc₀ hcandid₁ hp hran
  exact ⟨settled₁.life hlife₂ hs₁ hc₁ hcandid, followed.life settled₁ hlife₂ hs₁ hc₁ hcandid⟩

/-- Where no directive failed on the connection of a database, the frames are those of the open
transactions and every directive was run where it belongs; and what was run in a transaction is
durable if and only if the transaction and all those around it were committed. -/
theorem frames_follow_transactions (hs : Reachable s) (hd : s.1.opened.find? n = some d)
    (hc : d.link.connection = some c) (hu : undisturbed c s.2.engine.history) :
    d.Follows (ledger c s.2.engine.history) ∧ orderly c s.2.engine.history ∧
      ∀ r p, r.database = n → Wrote s r c p →
        (p ∈ (ledger c s.2.engine.history).durable ↔ ∀ u, d.Encloses u r.number →
          ∃ y, d.transactions.find? u = some y ∧ y.ended = some .committed) := by
  have hcandid := candid_of_undisturbed hu
  have hsound := hs.sound.database n d hd
  obtain ⟨b, hb, hborn, hlife⟩ := hs.life hd
  have hcb : b.link.connection = some c := (Database.Life.link hlife) ▸ hc
  have hmirrored := hborn.mirrored hlife hcb hu
  have hsettled := (hborn.settled hcb).life hlife hborn.sound hcb hcandid
  refine ⟨hmirrored.follows hsound.linked hsettled.nested, hmirrored.orderly, ?_⟩
  rintro r p rfl hw
  obtain ⟨-, hfollowed⟩ := hw.followed hd hc hcandid
  rw [hfollowed.durable_iff_committed hsettled.accounted hsound.linked hu]
  obtain ⟨around, hsurrounds, -⟩ := hfollowed
  obtain ⟨x, hx⟩ := hsurrounds.found
  constructor
  · intro h u he
    obtain ⟨y, hy, -⟩ := hsound.linked.encloses_find he hx
    exact ⟨y, hy, h u y.origin y.ended he (Database.state?_of_find hy)⟩
  · intro h u o how he hu
    obtain ⟨y, hy, hended⟩ := h u he
    rw [Database.state?_of_find hy, hended] at hu
    exact (Prod.mk.inj (Option.some.inj hu)).2.symm

/-- A session over SQLite in which a transaction was nested in another, while some calls fail. -/
def nestedTrial (rules : List Rule) : Session × World :=
  (outcome (run [.connect "d" (some "file") {}, .begin "d" "outer", .nest "outer" "inner"])
    (start .sqlite "3.40.0" rules [])).2

/-- Running something in the nested transaction. -/
def writing : Step :=
  .executeOnce "inner" (some { source := .text [] (some "A"), declarations := {} })

theorem nestedTrial_reachable (rules : List Rule) : Reachable (nestedTrial rules) :=
  (run_later _).reachable (.start .sqlite "3.40.0" rules [])

theorem Wrote.of_run {x : Step} {steps : List Step} (hs : Reachable s)
    (hx : s.1.executes x = some r)
    (hp : s.2.engine.history.length ≤ p) (hran : ranAt c p (after x s).2.engine.history) :
    Wrote (outcome (run steps) (after x s)).2 r c p :=
  ⟨s, x, hs, hx, run_later steps, hp, hran⟩

/-- What is run in a nested transaction is durable when that and the one around it are
committed. -/
theorem frames_follow_nested :
    let s := (outcome (run [.commit "inner", .commit "outer"]) (after writing (nestedTrial []))).2
    ∃ d, s.1.opened.find? 0 = some d ∧ d.link.connection = some 1 ∧
      undisturbed 1 s.2.engine.history ∧ Wrote s ⟨0, 1⟩ 1 5 ∧
      d.Follows (ledger 1 s.2.engine.history) ∧ orderly 1 s.2.engine.history ∧
      5 ∈ (ledger 1 s.2.engine.history).durable ∧ ∀ u, d.Encloses u 1 →
        ∃ y, d.transactions.find? u = some y ∧ y.ended = some .committed := by
  intro s
  have hr : Reachable s := (run_later _).reachable ((nestedTrial_reachable []).step writing)
  obtain ⟨d, hd⟩ := Option.isSome_iff_exists.1 (by decide +kernel : (s.1.opened.find? 0).isSome)
  have hc : (s.1.opened.find? 0).bind (·.link.connection) = some 1 := by decide +kernel
  rw [hd, Option.bind_some] at hc
  have hu : undisturbed 1 s.2.engine.history := by decide +kernel
  have hp : 5 ∈ (ledger 1 s.2.engine.history).durable := by decide +kernel
  have hw : Wrote s ⟨0, 1⟩ 1 5 := .of_run (nestedTrial_reachable [])
    (by decide +kernel) (by decide +kernel) (by decide +kernel)
  obtain ⟨hfollows, horderly, hdurable⟩ := frames_follow_transactions hr hd hc hu
  exact ⟨d, hd, hc, hu, hw, hfollows, horderly, hp, (hdurable _ 5 rfl hw).1 hp⟩

/-! ## Where directives fail -/

/-- Where the library took the failures of directives for what they were, what was run in a
transaction is durable if and only if the engine's transaction was committed, and each nested one of
the transaction and those around it was committed or the engine refused to undo its work. So the
work of a rolled back transaction is durable only where the engine refused to undo it. -/
theorem durable_iff_kept (hd : s.1.opened.find? r.database = some d)
    (hc : d.link.connection = some c) (hw : Wrote s r c p)
    (hcandid : candid c s.2.engine.history) :
    (p ∈ (ledger c s.2.engine.history).durable ↔
      fate? c p s.2.engine.history = some .committed ∧
        ∀ u y q m, d.Encloses u r.number → d.transactions.find? u = some y →
          y.origin = .nested q m → y.ended = some .committed ∨
            false ∈ asks c (.rollbackTo m) s.2.engine.history) ∧
    (p ∈ (ledger c s.2.engine.history).durable →
      ∀ u y, d.Encloses u r.number → d.transactions.find? u = some y →
        y.ended = some .committed ∨ y.ended = some .rolledBack ∧
          false ∈ asks c (Database.undoing y.origin) s.2.engine.history) := by
  obtain ⟨hsettled, hfollowed⟩ := hw.followed hd hc hcandid
  have hiff := hfollowed.durable_iff hsettled.accounted
  refine ⟨hiff.trans (and_congr_right fun _ => ?_), fun hp u y he hy => ?_⟩
  · constructor
    · intro h u y q m he hy ho
      exact h u q m y.ended he (ho ▸ Database.state?_of_find hy)
    · intro h u q m how he hu
      obtain ⟨y, hy, hs⟩ := Option.map_eq_some_iff.1 hu
      obtain ⟨ho, rfl⟩ := Prod.mk.inj hs
      exact h u y q m he hy ho
  · have hstate := Database.state?_of_find hy
    have hfate : fate? c p s.2.engine.history ≠ none := fun hnone => by
      have := (hiff.1 hp).1
      rw [hnone] at this
      cases this
    have hended := hfollowed.ended hfate he hstate
    match hy' : y.ended with
    | none => exact absurd hy' hended
    | some .committed => exact .inl rfl
    | some .rolledBack =>
      rw [hy'] at hstate
      exact .inr ⟨rfl, hfollowed.refused hsettled.accounted hp he hstate⟩

/-- What is run in a nested transaction is durable although that is rolled back, when the engine
refuses to undo its work and the transaction around it is committed. -/
theorem durable_of_refused :
    let refusal : Rule :=
      { call := "exec ROLLBACK TO", failure := { code := 5, message := none, noHandle := false } }
    let s :=
      (outcome (run [.rollback "inner", .commit "outer"]) (after writing (nestedTrial [refusal]))).2
    ∃ d y, s.1.opened.find? 0 = some d ∧ d.link.connection = some 1 ∧ Wrote s ⟨0, 1⟩ 1 5 ∧
      candid 1 s.2.engine.history ∧ 5 ∈ (ledger 1 s.2.engine.history).durable ∧
      d.transactions.find? 1 = some y ∧ y.ended = some .rolledBack ∧
      false ∈ asks 1 (Database.undoing y.origin) s.2.engine.history := by
  intro refusal s
  have hr := nestedTrial_reachable [refusal]
  obtain ⟨d, hd⟩ := Option.isSome_iff_exists.1 (by decide +kernel : (s.1.opened.find? 0).isSome)
  have hc : (s.1.opened.find? 0).bind (·.link.connection) = some 1 := by decide +kernel
  have hy : ((s.1.opened.find? 0).bind (·.transactions.find? 1)).map (·.ended) =
    some (some .rolledBack) := by decide +kernel
  rw [hd, Option.bind_some] at hc hy
  obtain ⟨y, hy, hended⟩ := Option.map_eq_some_iff.1 hy
  have hw : Wrote s ⟨0, 1⟩ 1 5 :=
    .of_run hr (by decide +kernel) (by decide +kernel) (by decide +kernel)
  have hcandid : candid 1 s.2.engine.history := by decide +kernel
  have hp : 5 ∈ (ledger 1 s.2.engine.history).durable := by decide +kernel
  obtain ⟨-, hrolled⟩ := durable_iff_kept (s := s) (r := ⟨0, 1⟩) hd hc hw hcandid
  refine ⟨d, y, hd, hc, hw, hcandid, hp, hy, hended, ?_⟩
  obtain hcommitted | ⟨-, hrefused⟩ := hrolled hp 1 y .refl hy
  · rw [hended] at hcommitted
    cases hcommitted
  · exact hrefused

end Session

end SqlAccess
