import SqlAccess.Proofs.Database.Linked

/-!
# What holds of a database at any time

`Database.Sound` puts together that the transactions are linked, that open statements and
transactions are within what is open around them (`Database.Owned`), and that every statement is
well formed. Each change keeps it (`Sound.change`).
-/

namespace SqlAccess.Database

/-- What is open is found from what is open around it. -/
structure Owned (d : Database) : Prop where
  /-- An open statement is listed with the database, which is open. -/
  listed : ∀ k s, d.statements.find? k = some s → s.isOpen → d.isOpen ∧ k ∈ d.listed
  /-- An open statement is listed with the transaction that it belongs to, which is open. -/
  owner : ∀ k s t, d.statements.find? k = some s → s.isOpen → s.owner = some t →
    ∃ x, d.transactions.find? t = some x ∧ x.ended = none ∧ k ∈ x.statements
  /-- Transactions are open only while the database is. -/
  transaction : ∀ t x, d.transactions.find? t = some x → x.ended = none → d.isOpen

/-- What holds of a database at any time, with the history of its engine. -/
structure Sound (d : Database) (h : History) : Prop where
  linked : d.Linked
  owned : d.Owned
  sane : ∀ k s, d.statements.find? k = some s → s.Sane d.link.connection h

variable {A : Database → Prop} {d d' : Database} {h h' : History}

/-- A database with nothing in it is sound. -/
theorem Sound.opened {l : Link} : Sound { link := l } h where
  linked := ⟨nofun, nofun, nofun, nofun, nofun⟩
  owned := ⟨nofun, nofun, nofun⟩
  sane := nofun

theorem openStatement?_eq_none {k : Nat} (hn : d.openStatement? k = none) {s : Statement}
    (hs : d.statements.find? k = some s) : s.isOpen = false := by
  simpa [openStatement?, hs, Option.filter] using hn

theorem openStatement?_isSome {k : Nat} {s : Statement} (hs : d.statements.find? k = some s)
    (ho : s.isOpen) : (d.openStatement? k).isSome := by
  simp [openStatement?, hs, Option.filter, ho]

theorem mem_enlist_self {k : Nat} {l : List Nat} : k ∈ d.enlist k l := by simp [enlist]

theorem mem_enlist {j k : Nat} {l : List Nat} {s : Statement}
    (hs : d.statements.find? j = some s) (ho : s.isOpen) (hj : j ∈ l) : j ∈ d.enlist k l := by
  simp [enlist, hj, openStatement?_isSome hs ho]

/-- Without an open root no transaction is open. -/
theorem Linked.none_open (hl : d.Linked) (hr : d.root.any d.isActive = false) (t : Nat) :
    ∀ x, d.transactions.find? t = some x → x.ended ≠ none := by
  induction t using Nat.strongRecOn with
  | ind t ih =>
    intro x hx ho
    cases hor : x.origin with
    | root =>
      have := (hl.root t x hx hor).2 ho
      rw [this, Option.any_some, isActive_iff.2 ⟨x, hx, ho⟩] at hr
      cases hr
    | nested p n =>
      obtain ⟨hp, -, y, hy, -, h⟩ := hl.nested t x p n hx hor
      exact ih p hp y hy (h ho).1

theorem Change.suffix (hc : Change A (d, h) (d', h')) : h <:+ h' := by
  cases hc with
  | called hg => exact hg.suffix
  | worked _ _ _ hg _ => exact hg.suffix
  | added | unlisted | disowned => exact List.suffix_refl _
  | refused _ ha => exact ha.suffix
  | began _ _ ha => exact ha.suffix
  | numbered ha => exact ha.suffix
  | nested _ _ ha => exact ha.suffix
  | committed _ _ _ ha => exact ha.suffix
  | rolledBack _ _ _ hu => exact hu.suffix
  | closed _ _ hg => exact hg.suffix

theorem Change.link (hc : Change A (d, h) (d', h')) : d'.link = d.link := by
  cases hc with
  | committed | rolledBack => exact withEnded_link
  | _ => rfl

theorem Path.link {a b : Database × History} (h : Path A a b) : b.1.link = a.1.link := by
  induction h with
  | refl => rfl
  | tail _ hc ih => exact hc.link.trans ih

/-- The transactions with one more statement, which is listed with its own. -/
theorem find_withStatement {s : Statement} {t : Nat} :
    (d.withStatement s).transactions.find? t = (d.transactions.find? t).map fun x => { x with
      statements :=
        if s.owner = some t then d.enlist d.statements.next x.statements else x.statements } := by
  cases hs : s.owner with
  | none => simp [Database.withStatement, hs]
  | some t' =>
    by_cases ht : t = t'
    · subst ht
      simp [Database.withStatement, hs, Table.find?_modify]
    · simp [Database.withStatement, hs, Table.find?_modify, ht, Ne.symm ht]

namespace Owned

/-- What is open stays within what is open if transactions stay open as long as they have open
statements. -/
theorem of_transactions (ho : d.Owned) (hs : d'.statements = d.statements)
    (hl : d'.listed = d.listed) (hopen : d'.isOpen = d.isOpen)
    (hkeep : ∀ t x k, d.transactions.find? t = some x → x.ended = none → k ∈ x.statements →
      (∃ s, d.statements.find? k = some s ∧ s.isOpen) →
      ∃ x', d'.transactions.find? t = some x' ∧ x'.ended = none ∧ k ∈ x'.statements)
    (hnew : ∀ t x, d'.transactions.find? t = some x → x.ended = none → d.isOpen) : d'.Owned where
  listed k s hk hso := by
    rw [hopen, hl]
    exact ho.listed k s (hs ▸ hk) hso
  owner k s t hk hso ht := by
    rw [hs] at hk
    obtain ⟨x, hx, hxo, hkx⟩ := ho.owner k s t hk hso ht
    exact hkeep t x k hx hxo hkx ⟨s, hk, hso⟩
  transaction t x hx hxo := by
    rw [hopen]
    exact hnew t x hx hxo

theorem worked (ho : d.Owned) {k : Nat} {s s' : Statement} (hs : d.statements.find? k = some s)
    (hst : s.Stays s') :
    { d with statements := d.statements.modify k fun _ => s' }.Owned := by
  have find {j : Nat} {z : Statement}
      (hz : (d.statements.modify k fun _ => s').find? j = some z) :
      ∃ y, d.statements.find? j = some y ∧ y.Stays z := by
    obtain ⟨rfl, y, hy, rfl⟩ | ⟨-, hz⟩ := Table.find?_modify_eq_some.1 hz
    · exact ⟨s, hs, hst⟩
    · exact ⟨z, hz, .refl⟩
  refine ⟨fun j z hz hzo => ?_, fun j z t hz hzo ht => ?_, ho.transaction⟩
  · obtain ⟨y, hy, hyz⟩ := find hz
    exact ho.listed j y hy (hyz.closed hzo)
  · obtain ⟨y, hy, hyz⟩ := find hz
    exact ho.owner j y t hy (hyz.closed hzo) (hyz.owner ▸ ht)

theorem withStatement (ho : d.Owned) {s : Statement} (hopen : d.isOpen)
    (howner : ∀ t, s.owner = some t → ∃ x, d.Ready t x) : (d.withStatement s).Owned := by
  have find {t : Nat} {x : Transaction} (hx : d.transactions.find? t = some x) :
      (d.withStatement s).transactions.find? t = some { x with
        statements :=
          if s.owner = some t then d.enlist d.statements.next x.statements else x.statements } := by
    rw [find_withStatement, hx, Option.map_some]
  refine ⟨fun k z hz hzo => ?_, fun k z t hz hzo ht => ?_, fun t x hx hxo => ?_⟩
  · obtain ⟨rfl, rfl⟩ | hz := Table.find?_add_eq_some.1 hz
    · exact ⟨hopen, mem_enlist_self⟩
    · exact ⟨hopen, mem_enlist hz hzo (ho.listed k z hz hzo).2⟩
  · obtain ⟨rfl, rfl⟩ | hz := Table.find?_add_eq_some.1 hz
    · obtain ⟨x, hx, hxo, -⟩ := howner t ht
      refine ⟨_, find hx, hxo, ?_⟩
      simp only [ht, if_true]
      exact mem_enlist_self
    · obtain ⟨x, hx, hxo, hk⟩ := ho.owner k z t hz hzo ht
      refine ⟨_, find hx, hxo, ?_⟩
      dsimp only
      split
      · exact mem_enlist hz hzo hk
      · exact hk
  · exact hopen

theorem withEnded (ho : d.Owned) (hl : d.Linked) {t : Nat} {x : Transaction} {how : Ended}
    (hx : d.Ready t x) (hnone : x.statements = []) : (d.withEnded t x.origin how).Owned := by
  refine ho.of_transactions withEnded_statements withEnded_listed withEnded_isOpen
    (fun u y k hy hyo hk _ => ?_) fun u z hz hzo => ?_
  · refine ⟨_, hl.find_withEnded hx.1 hy, ?_, hk⟩
    -- a transaction that lists a statement is another one
    have hne : u ≠ t := by
      rintro rfl
      obtain rfl : x = y := Option.some.inj (hx.1.symm.trans hy)
      rw [hnone] at hk
      cases hk
    simp only [hne, if_false, hyo]
  · obtain ⟨y, hy⟩ := Linked.find_of_withEnded hz
    exact ho.transaction t x hx.1 hx.2.1

end Owned

theorem Sound.change (hs : d.Sound h) (hc : Change A (d, h) (d', h')) : d'.Sound h' := by
  have hsuf := hc.suffix
  have hlink := hc.link
  obtain ⟨hl, ho, hsane⟩ := hs
  have sane {k : Nat} {s : Statement} (hk : d.statements.find? k = some s) :
      s.Sane d.link.connection h' := (hsane k s hk).of_suffix hsuf
  cases hc with
  | called | refused => exact ⟨hl, ho, fun k s => sane⟩
  | @worked _ _ _ k s s' hk hst hs' _ =>
    refine ⟨hl.congr (fun _ => rfl) rfl (Nat.le_refl _), ho.worked hk hst, fun j z hz => ?_⟩
    obtain ⟨rfl, y, hy, rfl⟩ | ⟨-, hz⟩ := Table.find?_modify_eq_some.1 hz
    · exact hs'
    · exact sane hz
  | @added _ _ owner descriptor handle hopen howner hmade =>
    refine ⟨hl.congr (fun t => ?_) rfl (Nat.le_refl _), ho.withStatement hopen howner,
      fun k s hk => ?_⟩
    · simp [find_withStatement, Function.comp_def]
    · obtain ⟨rfl, rfl⟩ | hk := Table.find?_add_eq_some.1 hk
      · exact ⟨hmade, nofun, nofun⟩
      · exact sane hk
  | unlisted hnone =>
    refine ⟨hl.congr (fun _ => rfl) rfl (Nat.le_refl _), ⟨fun k s hk hso => ?_, ho.owner,
      ho.transaction⟩, fun k s => sane⟩
    have hclosed := openStatement?_eq_none (hnone k (ho.listed k s hk hso).2) hk
    rw [hso] at hclosed
    cases hclosed
  | @disowned _ _ t hnone =>
    refine ⟨hl.disowned rfl rfl (Nat.le_refl _),
      ho.of_transactions rfl rfl rfl (fun u x k hx hxo hk hks => ?_) fun u x hx hxo => ?_,
      fun k s => sane⟩
    · by_cases hu : u = t
      · subst hu
        obtain ⟨s, hs, hso⟩ := hks
        have hclosed := openStatement?_eq_none (hnone x hx k hk) hs
        rw [hso] at hclosed
        cases hclosed
      · exact ⟨x, Table.find?_modify_eq_some.2 (.inr ⟨hu, hx⟩), hxo, hk⟩
    · obtain ⟨rfl, y, hy, rfl⟩ | ⟨-, hx⟩ := Table.find?_modify_eq_some.1 hx
      · exact ho.transaction _ y hy hxo
      · exact ho.transaction u x hx hxo
  | began hopen hroot =>
    refine ⟨hl.withRoot hroot, ho.of_transactions rfl rfl rfl (fun u x k hx hxo hk _ =>
      ⟨x, Table.find?_add_eq_some.2 (.inr hx), hxo, hk⟩) fun _ _ _ _ => hopen, fun k s => sane⟩
  | numbered =>
    exact ⟨hl.congr (fun _ => rfl) rfl (Nat.le_succ _), ⟨ho.listed, ho.owner, ho.transaction⟩,
      fun k s => sane⟩
  | nested hopen hx =>
    refine ⟨hl.withNested hx, ho.of_transactions rfl rfl rfl (fun u y k hy hyo hk _ => ?_)
      fun _ _ _ _ => hopen, fun k s => sane⟩
    obtain ⟨y', hy', -, -, he, hst, -⟩ := Linked.keep_withNested
      (d := { d with savepoints := d.savepoints + 1 }) hx.1 hy
    exact ⟨y', hy', he.trans hyo, hst ▸ hk⟩
  | @committed _ _ _ t x hopen hx hnone =>
    refine ⟨hl.withEnded hx, ho.withEnded hl hx hnone, fun k s hk => ?_⟩
    rw [hlink]
    exact sane (withEnded_statements ▸ hk)
  | @rolledBack _ _ _ t x hopen hx hnone =>
    refine ⟨hl.withEnded hx, ho.withEnded hl hx hnone, fun k s hk => ?_⟩
    rw [hlink]
    exact sane (withEnded_statements ▸ hk)
  | closed hlisted hroot =>
    refine ⟨hl.congr (fun _ => rfl) rfl (Nat.le_refl _), ⟨fun k s hk hso => ?_, ho.owner,
      fun t x hx hxo => absurd hxo (hl.none_open hroot t x hx)⟩, fun k s => sane⟩
    have hmem := (ho.listed k s hk hso).2
    rw [hlisted] at hmem
    cases hmem

theorem Sound.path (hs : d.Sound h) (hp : Path A (d, h) (d', h')) : d'.Sound h' := by
  suffices ∀ a b : Database × History, Path A a b → a.1.Sound a.2 → b.1.Sound b.2 from
    this _ _ hp hs
  intro a b hp ha
  induction hp with
  | refl => exact ha
  | tail _ hc ih => exact ih.change hc

end SqlAccess.Database
