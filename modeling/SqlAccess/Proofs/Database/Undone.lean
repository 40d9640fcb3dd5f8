import SqlAccess.Proofs.Database.Stack

/-!
# When work was to be undone

The savepoint of a nested transaction is gone back to when that is rolled back, once, and at no
other time (`Accounted`).
-/

namespace SqlAccess

namespace Database

variable {A : Database → Prop} {d d' : Database} {h h' : History} {c t u v p q n : Nat}
  {how how' : Option Ended}

theorem Linked.savepoint_le (hl : d.Linked) (hu : d.state? u = some (.nested p n, how)) :
    n ≤ d.savepoints := by
  obtain ⟨x, hx, hs⟩ := Option.map_eq_some_iff.1 hu
  exact (hl.nested u x p n hx (Prod.mk.inj hs).1).2.1

/-- Each savepoint belongs to one transaction. -/
theorem Linked.savepoint_inj (hl : d.Linked) (hu : d.state? u = some (.nested p n, how))
    (hv : d.state? v = some (.nested q n, how')) : u = v := by
  obtain ⟨x, hx, hs⟩ := Option.map_eq_some_iff.1 hu
  obtain ⟨y, hy, hs'⟩ := Option.map_eq_some_iff.1 hv
  exact hl.distinct u x v y p q n hx hy (Prod.mk.inj hs).1 (Prod.mk.inj hs').1

/-- How often the work of nested transactions was to be undone. -/
structure Accounted (c : Nat) (d : Database) (h : History) : Prop where
  fresh : ∀ n, d.savepoints < n → asks c (.rollbackTo n) h = []
  kept : ∀ u p n how, d.state? u = some (.nested p n, how) → how ≠ some .rolledBack →
    asks c (.rollbackTo n) h = []
  undone : ∀ u p n, d.state? u = some (.nested p n, some .rolledBack) →
    ∃ ok, asks c (.rollbackTo n) h = [ok]

namespace Accounted

theorem born (hb : d.Born h) (hc : d.link.connection = some c) : Accounted c d h := by
  have hnil (n : Nat) : asks c (.rollbackTo n) h = [] := hb.asks_eq_nil hc rfl
  refine ⟨fun n _ => hnil n, fun _ _ n _ _ _ => hnil n, fun u p n hu => ?_⟩
  obtain ⟨l, rfl⟩ := hb.link
  cases hu

/-- No work was to be undone, and what is new is begun at a new savepoint. -/
theorem keep (ha : Accounted c d h)
    (hasks : ∀ n, asks c (.rollbackTo n) h' = asks c (.rollbackTo n) h)
    (hstate : ∀ u p n how, d'.state? u = some (.nested p n, how) →
      d.savepoints < n ∧ how = none ∨
        ∃ how', d.state? u = some (.nested p n, how') ∧
          (how = how' ∨ how' = none ∧ how ≠ some .rolledBack))
    (hle : d.savepoints ≤ d'.savepoints) : Accounted c d' h' := by
  refine ⟨fun n hn => ?_, fun u p n how hu hhow => ?_, fun u p n hu => ?_⟩
  · rw [hasks]
    exact ha.fresh n (Nat.lt_of_le_of_lt hle hn)
  · rw [hasks]
    obtain ⟨hn, -⟩ | ⟨how', hu', rfl | ⟨rfl, -⟩⟩ := hstate u p n how hu
    · exact ha.fresh n hn
    · exact ha.kept u p n how hu' hhow
    · exact ha.kept u p n none hu' nofun
  · rw [hasks]
    obtain ⟨-, hnone⟩ | ⟨how', hu', rfl | ⟨-, hne⟩⟩ := hstate u p n _ hu
    · cases hnone
    · exact ha.undone u p n hu'
    · exact absurd rfl hne

/-- The work of a nested transaction was to be undone. -/
theorem rollback (ha : Accounted c d h) (hl : d.Linked) {x : Transaction} {ok : Bool}
    (hx : d.Ready t x) (ho : x.origin = .nested p n)
    (hself : asks c (.rollbackTo n) h' = ok :: asks c (.rollbackTo n) h)
    (hother : ∀ m, m ≠ n → asks c (.rollbackTo m) h' = asks c (.rollbackTo m) h) :
    Accounted c (d.withEnded t x.origin .rolledBack) h' := by
  have hstate : d.state? t = some (.nested p n, none) := by
    rw [state?_of_find hx.1, ho, hx.2.1]
  have other {u q m : Nat} {how : Option Ended} (hu : d.state? u = some (.nested q m, how))
      (hne : u ≠ t) : asks c (.rollbackTo m) h' = asks c (.rollbackTo m) h := by
    refine hother m fun hm => hne ?_
    subst hm
    exact hl.savepoint_inj hu hstate
  have hold := ha.kept t p n none hstate nofun
  refine ⟨fun m hm => ?_, fun u q m how hu hhow => ?_, fun u q m hu => ?_⟩
  · rw [withEnded_savepoints] at hm
    rw [hother m (Nat.ne_of_gt (Nat.lt_of_le_of_lt (hl.savepoint_le hstate) hm))]
    exact ha.fresh m hm
  · rw [state?_withEnded hx.1] at hu
    split at hu
    · exact absurd (Prod.mk.inj (Option.some.inj hu)).2.symm hhow
    · next hne =>
      rw [other hu hne]
      exact ha.kept u q m how hu hhow
  · rw [state?_withEnded hx.1] at hu
    split at hu
    · rw [ho] at hu
      cases hu
      exact ⟨ok, hself.trans (congrArg _ hold)⟩
    · next hne =>
      rw [other hu hne]
      exact ha.undone u q m hu

theorem turn (ha : Accounted c d h) (hd : d.Sound h) (ht : Turn A c (d, h) (d', h')) :
    Accounted c d' h' := by
  have same (u p n : Nat) (how : Option Ended) (hu : d.state? u = some (.nested p n, how)) :
      d.savepoints < n ∧ how = none ∨ ∃ how', d.state? u = some (.nested p n, how') ∧
        (how = how' ∨ how' = none ∧ how ≠ some .rolledBack) := .inr ⟨how, hu, .inl rfl⟩
  cases ht with
  | rested halike hs =>
    exact ha.keep (fun n => hs.asks _) (halike.state ▸ same) halike.savepoints
  | refused halike hundo he =>
    refine ha.keep (fun n => he.asks_of_ne ?_) (halike.state ▸ same) halike.savepoints
    rintro rfl
    cases hundo
  | began _ he =>
    refine ha.keep (fun n => he.asks_of_ne nofun) (fun u p n how hu => ?_) (Nat.le_refl _)
    rw [state?_withRoot] at hu
    split at hu
    · cases hu
    · exact same u p n how hu
  | nested hx he =>
    refine ha.keep (fun n => he.asks_of_ne nofun) (fun u p n how hu => ?_) (Nat.le_succ _)
    rw [state?_withNested] at hu
    split at hu
    · cases hu
      exact .inl ⟨Nat.lt_succ_self _, rfl⟩
    · exact same u p n how hu
  | @committed _ _ _ t x hx he =>
    refine ha.keep (fun n => he.asks_of_ne ?_) (fun u p n how hu => ?_)
      (Nat.le_of_eq withEnded_savepoints.symm)
    · cases x.origin with
      | root => nofun
      | nested => nofun
    · rw [state?_withEnded hx.1] at hu
      split at hu
      · next hut =>
        subst hut
        obtain ⟨ho, rfl⟩ := Prod.mk.inj (Option.some.inj hu)
        refine .inr ⟨none, ?_, .inr ⟨rfl, nofun⟩⟩
        rw [state?_of_find hx.1, ho, hx.2.1]
      · exact same u p n how hu
  | @rolledBack _ _ _ t x _ hx ho he =>
    refine ha.keep (fun n => he.asks_of_ne nofun) (fun u p n how hu => ?_)
      (Nat.le_of_eq withEnded_savepoints.symm)
    rw [state?_withEnded hx.1] at hu
    split at hu
    · rw [ho] at hu
      cases hu
    · exact same u p n how hu
  | stuck hx ho he =>
    refine ha.rollback hd.linked hx ho ((he.asks _).trans (if_pos rfl)) fun m hm => ?_
    exact he.asks_of_ne fun heq => hm (Directive.rollbackTo.inj heq)
  | @undone _ _ h₁ _ t p n x _ hx ho he he' =>
    have hsame (m : Nat) : asks c (.rollbackTo m) h' = asks c (.rollbackTo m) h₁ :=
      he'.asks_of_ne nofun
    have hself := (hsame n).trans ((he.asks _).trans (if_pos rfl))
    refine ha.rollback hd.linked hx ho hself fun m hm => ?_
    rw [hsame]
    exact he.asks_of_ne fun heq => hm (Directive.rollbackTo.inj heq)
  | closed _ hs => exact ha.keep (fun n => hs.asks _) same (Nat.le_refl _)

end Accounted

end Database

end SqlAccess
