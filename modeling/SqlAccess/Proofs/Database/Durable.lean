import SqlAccess.Proofs.Database.Tracked

/-!
# When work becomes durable

What is known of the stack of frames, of the savepoints and of the runs made in a transaction holds
through the life of a database (`Born.settled`, `Settled.followed`, `Followed.life`). So the work
of a run is durable if and only if the engine's transaction was committed, and each nested
transaction around the run was committed or the engine refused to undo its work
(`Followed.durable_iff`).
-/

namespace SqlAccess

/-- What was run with success where no directive failed. -/
theorem asks_of_undisturbed {c : Nat} {directive : Directive} {h : History}
    (hd : directive.controls)
    (hu : undisturbed c h) : false ∉ asks c directive h := by
  induction h with
  | nil => exact List.not_mem_nil
  | cons e past ih =>
    obtain ⟨hpast, he⟩ := Bool.and_eq_true_iff.1 hu
    intro hmem
    simp only [asks, List.filter_cons] at hmem
    split at hmem
    · next hdir =>
      obtain hfail | hmem := List.mem_cons.1 hmem
      · have hcontrols : e.controls c := by
          rw [Event.controls, beq_iff_eq.1 hdir]
          simp [hd]
        simp_all
      · exact ih hpast hmem
    · exact ih hpast hmem

namespace Database

variable {A : Database → Prop} {around : Nat → Option Origin} {d d' : Database}
  {h h' : History} {c p t u n : Nat} {a b : Database × History}

/-! ## At any time -/

/-- What is known of a database with what was called on its connection. -/
structure Settled (c : Nat) (d : Database) (h : History) : Prop where
  stacked : Stacked d (ledger c h)
  accounted : Accounted c d h
  nested : d.Nested

theorem Settled.turn (hs : Settled c d h) (hd : d.Sound h) (ht : Turn A c (d, h) (d', h')) :
    Settled c d' h' :=
  ⟨hs.stacked.turn hd ht, hs.accounted.turn hd ht, hs.nested.turn hd.linked ht⟩

theorem Born.settled (hb : d.Born h) (hc : d.link.connection = some c) : Settled c d h := by
  refine ⟨?_, .born hb hc, ?_⟩
  · rw [hb.ledger_eq hc]
    obtain ⟨l, rfl⟩ := hb.link
    exact .opened
  · obtain ⟨l, rfl⟩ := hb.link
    rfl

theorem Settled.life (hs : Settled c a.1 a.2) (hl : Life A a b) (hd : a.1.Sound a.2)
    (hc : a.1.link.connection = some c) (hcandid : candid c b.2) : Settled c b.1 b.2 :=
  Life.turns hl hd hc hcandid (fun _ _ _ _ hd _ ht hs => hs.turn hd ht) hs

/-- Where no directive failed, the frames are those of the open transactions. -/
theorem Born.mirrored (hb : a.1.Born a.2) (hl : Life A a b) (hc : a.1.link.connection = some c)
    (hu : undisturbed c b.2) : Mirrored c b.1 b.2 := by
  have hcandid := candid_of_undisturbed hu
  refine (Life.turns (I := fun d h => Stacked d (ledger c h) ∧ (undisturbed c h → Mirrored c d h))
    hl hb.sound hc hcandid (fun d h d' h' hd _ ht hI => ⟨hI.1.turn hd ht, fun hu' => ?_⟩) ?_).2 hu
  · exact (hI.2 (undisturbed_of_suffix ht.suffix hu')).turn hI.1 hd ht hu'
  · refine ⟨(hb.settled hc).stacked, fun _ => ⟨?_, hb.orderly hc⟩⟩
    rw [hb.ledger_eq hc]
    obtain ⟨l, hl⟩ := hb.link
    rw [hl]
    rfl

/-! ## Runs -/

/-- The transactions around a given one, with where they were begun. -/
structure Surrounds (around : Nat → Option Origin) (d : Database) (t : Nat) : Prop where
  found : ∃ x, d.transactions.find? t = some x
  around_iff : ∀ u o, around u = some o ↔ d.Encloses u t ∧ ∃ how, d.state? u = some (o, how)

/-- What is open when a transaction is ready is around it. -/
theorem Surrounds.opened (hl : d.Linked) {x : Transaction} (hx : d.Ready t x) :
    Surrounds d.opened? d t := by
  refine ⟨⟨x, hx.1⟩, fun u o => ?_⟩
  rw [opened?_eq_some]
  constructor
  · intro hu
    obtain ⟨y, hy, hs⟩ := Option.map_eq_some_iff.1 hu
    exact ⟨hl.encloses hx hy (Prod.mk.inj hs).2, none, hu⟩
  · rintro ⟨he, how, hu⟩
    obtain ⟨y, hy, ho⟩ := hl.encloses_find he hx.1
    rw [state?_of_find hy, ho hx.2.1] at hu
    rw [state?_of_find hy, ho hx.2.1, (Prod.mk.inj (Option.some.inj hu)).1]

theorem Surrounds.kin (hs : Surrounds around d t) (hl : d.Linked) (hk : Kin d d') :
    Surrounds around d' t := by
  obtain ⟨⟨x, hx⟩, haround⟩ := hs
  obtain ⟨x', hx', -⟩ := hk.keep t x hx
  refine ⟨⟨x', hx'⟩, fun u o => ?_⟩
  rw [haround, hk.encloses_iff hl hx]
  refine and_congr_right fun he => ?_
  obtain ⟨y, hy, -⟩ := hl.encloses_find he hx
  obtain ⟨y', hy', ho, -⟩ := hk.keep u y hy
  simp [state?_of_find hy, state?_of_find hy', ho]

/-- A run was made in a transaction, and it is known what becomes of it. -/
def Followed (c p t : Nat) (d : Database) (h : History) : Prop :=
  ∃ around, Surrounds around d t ∧ Tracked around c p d h

theorem Followed.turn (hf : Followed c p t d h) (hs : Stacked d (ledger c h)) (hl : d.Linked)
    (hk : Kin d d') (ht : Turn A c (d, h) (d', h')) : Followed c p t d' h' := by
  obtain ⟨around, hsurrounds, htracked⟩ := hf
  exact ⟨around, hsurrounds.kin hl hk, htracked.turn hs hl ht⟩

theorem Followed.life (hf : Followed c p t a.1 a.2) (hs : Settled c a.1 a.2) (hl : Life A a b)
    (hd : a.1.Sound a.2) (hc : a.1.link.connection = some c) (hcandid : candid c b.2) :
    Followed c p t b.1 b.2 :=
  (Life.turns (I := fun d h => Settled c d h ∧ Followed c p t d h) hl hd hc hcandid
    (fun _ _ _ _ hd hk ht hI => ⟨hI.1.turn hd ht, hI.2.turn hI.1.stacked hd.linked hk ht⟩)
    ⟨hs, hf⟩).2

/-- What is run in a turn is run while that is allowed. -/
theorem Turn.ran (ht : Turn A c (d, h) (d', h')) (hp : ranAt c p h') :
    ranAt c p h ∨ A d ∧ Alike d d' ∧ ∃ ps, Spent c h h' ps ∧ p ∈ ps := by
  cases ht with
  | @rested _ _ _ _ ps ha hspent hA =>
    by_cases hmem : p ∈ ps
    · refine .inr ⟨hA.resolve_left fun hnil => ?_, ha, ps, hspent, hmem⟩
      rw [hnil] at hmem
      cases hmem
    · have hlt : p < h.length := by
        by_contra hle
        exact hmem ((hspent.runs p).2 ⟨Nat.not_lt.1 hle, hp⟩)
      exact .inl (ranAt_of_suffix hspent.suffix hlt ▸ hp)
  | refused _ _ he => exact .inl (he.runs p ▸ hp)
  | began _ he => exact .inl (he.runs p ▸ hp)
  | nested _ he => exact .inl (he.runs p ▸ hp)
  | committed _ he => exact .inl (he.runs p ▸ hp)
  | rolledBack _ _ he => exact .inl (he.runs p ▸ hp)
  | stuck _ _ he => exact .inl (he.runs p ▸ hp)
  | undone _ _ he he' => exact .inl (he.runs p ▸ he'.runs p ▸ hp)
  | closed _ hs => exact .inl (hs.runs p ▸ hp)

/-- What is run while statements are run in one transaction only is followed from there on. -/
theorem Settled.followed (hs : Settled c a.1 a.2)
    (hl : Life (fun d => ∃ x, d.Ready t x) a b) (hd : a.1.Sound a.2)
    (hc : a.1.link.connection = some c) (hcandid : candid c b.2) (hp : a.2.length ≤ p)
    (hran : ranAt c p b.2) : Followed c p t b.1 b.2 := by
  refine (Life.turns (I := fun d h => Settled c d h ∧ (ranAt c p h → Followed c p t d h)) hl hd hc
    hcandid (fun d h d' h' hd hk ht hI => ⟨hI.1.turn hd ht, fun hran => ?_⟩) ⟨hs, fun hran => ?_⟩).2
    hran
  · obtain hold | ⟨⟨x, hx⟩, halike, ps, hspent, hmem⟩ := ht.ran hran
    · exact (hI.2 hold).turn hI.1.stacked hd.linked hk ht
    · have hmade := Tracked.made hI.1.stacked hI.1.accounted hx halike hspent hmem
      exact ⟨d.opened?, (Surrounds.opened hd.linked hx).kin hd.linked hk, hmade⟩
  · rw [ranAt_of_length_le hp] at hran
    cases hran

/-! ## What becomes of a run -/

/-- The directive that undoes the work of a transaction. -/
def undoing : Origin → Directive
  | .root => .rollback
  | .nested _ n => .rollbackTo n

namespace Followed

/-- Once the engine's transaction has ended, so have the transactions around the run. -/
theorem ended (hf : Followed c p t d h) (hfate : fate? c p h ≠ none) (he : d.Encloses u t)
    {o : Origin} {how : Option Ended} (hu : d.state? u = some (o, how)) : how ≠ none := by
  obtain ⟨around, hs, ht⟩ := hf
  rintro rfl
  exact hfate (ht.running u o ((hs.around_iff u o).2 ⟨he, none, hu⟩) hu)

/-- The engine's transaction was committed if the root around a run was. -/
theorem root (hf : Followed c p t d h) (he : d.Encloses u t) {how : Ended}
    (hu : d.state? u = some (.root, some how)) :
    fate? c p h = some how ∨ how = .rolledBack ∧ false ∈ asks c .rollback h := by
  obtain ⟨around, hs, ht⟩ := hf
  exact ht.root u how ((hs.around_iff u .root).2 ⟨he, some how, hu⟩) hu

/-- The work of a run is durable if and only if the engine's transaction was committed, and the
nested transactions around the run were committed, but for those whose work the engine refused to
undo. -/
theorem durable_iff (hf : Followed c p t d h) (ha : Accounted c d h) :
    p ∈ (ledger c h).durable ↔ fate? c p h = some .committed ∧
      ∀ u q n how, d.Encloses u t → d.state? u = some (.nested q n, how) →
        how = some .committed ∨ false ∈ asks c (.rollbackTo n) h := by
  obtain ⟨around, hs, ht⟩ := id hf
  rw [ht.durable]
  refine and_congr_right fun hfate => ?_
  have hended : fate? c p h ≠ none := fun hnone => by
    rw [hfate] at hnone
    cases hnone
  constructor
  · intro hk u q n how he hu
    have hnot := hk u q n ((hs.around_iff u _).2 ⟨he, how, hu⟩)
    match how with
    | none => exact absurd rfl (hf.ended hended he hu)
    | some .committed => exact .inl rfl
    | some .rolledBack =>
      obtain ⟨ok, hok⟩ := ha.undone u q n hu
      rw [hok] at hnot ⊢
      cases ok with
      | true => exact absurd List.mem_cons_self hnot
      | false => exact .inr List.mem_cons_self
  · intro h u q n hu
    obtain ⟨he, how, hu⟩ := (hs.around_iff u _).1 hu
    match how with
    | none => exact absurd rfl (hf.ended hended he hu)
    | some .committed =>
      rw [ha.kept u q n _ hu nofun]
      exact List.not_mem_nil
    | some .rolledBack =>
      obtain ⟨ok, hok⟩ := ha.undone u q n hu
      have hrefused := (h u q n _ he hu).resolve_left nofun
      rw [hok] at hrefused ⊢
      rw [← List.mem_singleton.1 hrefused]
      simp

/-- Where the work of a rolled back transaction is durable, the engine refused to undo it. -/
theorem refused (hf : Followed c p t d h) (ha : Accounted c d h) (hp : p ∈ (ledger c h).durable)
    (he : d.Encloses u t) {o : Origin} (hu : d.state? u = some (o, some .rolledBack)) :
    false ∈ asks c (undoing o) h := by
  obtain ⟨hfate, hnested⟩ := (hf.durable_iff ha).1 hp
  cases o with
  | root =>
    obtain hr | hr := hf.root he hu
    · rw [hfate] at hr
      cases hr
    · exact hr.2
  | nested q n => exact (hnested u q n _ he hu).resolve_left nofun

/-- Where no directive failed, the work of a run is durable if and only if all transactions around
it were committed. -/
theorem durable_iff_committed (hf : Followed c p t d h) (ha : Accounted c d h) (hl : d.Linked)
    (hu : undisturbed c h) : p ∈ (ledger c h).durable ↔
      ∀ u o how, d.Encloses u t → d.state? u = some (o, how) → how = some .committed := by
  have hnone (directive : Directive) (hd : directive.controls) : false ∉ asks c directive h :=
    asks_of_undisturbed hd hu
  constructor
  · intro hp u o how he hs
    have hended : fate? c p h ≠ none := fun hnone => by
      rw [((hf.durable_iff ha).1 hp).1] at hnone
      cases hnone
    match how with
    | none => exact absurd rfl (hf.ended hended he hs)
    | some .committed => rfl
    | some .rolledBack =>
      have hkind : (undoing o).controls := by cases o <;> rfl
      exact absurd (hf.refused ha hp he hs) (hnone _ hkind)
  · intro h
    obtain ⟨around, hs, ht⟩ := id hf
    obtain ⟨x, hx⟩ := hs.found
    obtain ⟨r, y, he, hy, hroot⟩ := hl.exists_root hx
    have hr := state?_of_find hy
    rw [h r _ _ he hr, hroot] at hr
    refine (hf.durable_iff ha).2 ⟨?_, fun u q n how he hu => .inl (h u _ how he hu)⟩
    exact (hf.root he hr).resolve_right fun h => nomatch h.1

end Followed

end Database

end SqlAccess
