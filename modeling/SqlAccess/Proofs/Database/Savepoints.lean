import Mathlib.Data.List.Nodup
import SqlAccess.Proofs.Database.Life
import SqlAccess.Proofs.Numeral

/-!
# The savepoints of a connection

A database counts the savepoints that it asks for, whether or not the engine sets them, and names
each after its number. So no name is asked for twice on a connection (`Counted.names`).
-/

namespace SqlAccess

/-! ## Names -/

theorem savepointName_injective : Function.Injective savepointName :=
  fun _ _ h => Numeral.ofNat_injective (List.append_cancel_left h)

/-! ## What was asked for -/

/-- The numbers of the savepoints that were asked for on a connection, the latest first. -/
def savepointsAsked (c : Nat) (h : History) : List Nat :=
  h.filterMap fun e => match e.call.directive? with
    | some (c', .savepoint n) => if c' = c then some n else none
    | _ => none

variable {c n : Nat} {h h' : History}

theorem savepointsAsked_of_grown {P : History → Event → Prop} (hg : Grown P h h')
    (hP : ∀ past e n, P past e → e.call.directive? ≠ some (c, .savepoint n)) :
    savepointsAsked c h' = savepointsAsked c h := by
  induction hg with
  | refl => rfl
  | @call past e _ he ih =>
    rw [savepointsAsked, List.filterMap_cons_none, ← savepointsAsked, ih]
    split
    · next c' n hd =>
      refine if_neg fun hc => hP past e n he ?_
      rw [hd, hc]
    · rfl

theorem Asked.savepointsAsked {ok : Bool} (ha : Asked (some c) (.savepoint n) h ok h') :
    savepointsAsked c h' = n :: savepointsAsked c h := by
  cases ha <;> simp [SqlAccess.savepointsAsked, Call.directive?]

theorem Asked.savepointsAsked_of_ne {d : Directive} {ok : Bool} (ha : Asked (some c) d h ok h')
    (hd : ∀ n, d ≠ .savepoint n) :
    SqlAccess.savepointsAsked c h' = SqlAccess.savepointsAsked c h := by
  refine savepointsAsked_of_grown ha.grown fun past e n ⟨c', hc, he⟩ hdir => hd n ?_
  obtain he | he | he := he <;> simp_all [Call.directive?]

namespace Database

variable {A : Database → Prop} {d d' : Database}

theorem Undone.savepointsAsked {o : Origin} (hu : Undone (some c) o h h') :
    savepointsAsked c h' = savepointsAsked c h := by
  cases o with
  | root =>
    obtain ⟨ok, ha⟩ := hu
    exact ha.savepointsAsked_of_ne nofun
  | nested p m =>
    cases hu with
    | refused ha => exact ha.savepointsAsked_of_ne nofun
    | done ha hb => exact (hb.savepointsAsked_of_ne nofun).trans (ha.savepointsAsked_of_ne nofun)

/-- Savepoints are asked for in the order of their numbers, up to the count of the database. -/
structure Counted (c : Nat) (d : Database) (h : History) : Prop where
  le : ∀ n ∈ savepointsAsked c h, n ≤ d.savepoints
  nodup : (savepointsAsked c h).Nodup

namespace Counted

theorem names (hc : Counted c d h) : ((savepointsAsked c h).map savepointName).Nodup :=
  hc.nodup.map savepointName_injective

theorem same (hc : Counted c d h) (hs : savepointsAsked c h' = savepointsAsked c h)
    (hd : d'.savepoints = d.savepoints) : Counted c d' h' := by
  refine ⟨fun n hn => ?_, ?_⟩
  · rw [hs] at hn
    exact hd ▸ hc.le n hn
  · rw [hs]
    exact hc.nodup

/-- One more savepoint is asked for. -/
theorem next {ok : Bool} (hc : Counted c d h)
    (ha : Asked (some c) (.savepoint (d.savepoints + 1)) h ok h')
    (hd : d'.savepoints = d.savepoints + 1) : Counted c d' h' := by
  have hs := ha.savepointsAsked
  refine ⟨fun n hn => ?_, ?_⟩
  · rw [hs] at hn
    obtain rfl | hn := List.mem_cons.1 hn
    · exact Nat.le_of_eq hd.symm
    · exact hd ▸ Nat.le_succ_of_le (hc.le n hn)
  · rw [hs, List.nodup_cons]
    exact ⟨fun hmem => absurd (hc.le _ hmem) (Nat.not_succ_le_self _), hc.nodup⟩

theorem born (hb : d.Born h) (hc : d.link.connection = some c) : Counted c d h := by
  have hnil : savepointsAsked c h = [] := by
    refine List.filterMap_eq_nil_iff.2 fun e he => ?_
    split
    · next c' n hd =>
      refine if_neg fun hcc => ?_
      subst hcc
      cases (hb.setup _ hc e he (Call.connection?_of_directive? hd)).2 _ _ hd
    · rfl
  refine ⟨fun n hn => ?_, hnil ▸ List.nodup_nil⟩
  rw [hnil] at hn
  cases hn

theorem happens (hn : Counted c d h) (hc : d.link.connection = some c)
    (hh : Happens A (d, h) (d', h')) : Counted c d' h' := by
  cases hh with
  | elsewhere hg =>
    rw [hc] at hg
    refine hn.same (savepointsAsked_of_grown hg fun past e n hf hd => ?_) rfl
    exact (hf c rfl).1 (Call.connection?_of_directive? hd)
  | change hch =>
    have work {h₁ : History} (hg : Grown (Work d.link.connection) h h₁) :
        savepointsAsked c h₁ = savepointsAsked c h := by
      refine savepointsAsked_of_grown hg fun past e n hw hd => ?_
      rw [hw.directive] at hd
      cases hd
    cases hch with
    | called hg => exact hn.same (work (hg.mono fun _ _ hm => hm.work)) rfl
    | worked _ _ _ hg _ => exact hn.same (work hg) rfl
    | added | unlisted | disowned => exact hn.same rfl rfl
    | refused hd ha =>
      rw [hc] at ha
      refine hn.same (ha.savepointsAsked_of_ne fun n hdir => ?_) rfl
      obtain rfl | rfl | ⟨m, rfl⟩ := hd <;> cases hdir
    | began _ _ ha =>
      rw [hc] at ha
      exact hn.same (ha.savepointsAsked_of_ne nofun) rfl
    | numbered ha =>
      rw [hc] at ha
      exact hn.next ha rfl
    | nested _ _ ha =>
      rw [hc] at ha
      exact hn.next ha rfl
    | @committed _ _ _ t x _ _ _ ha =>
      rw [hc] at ha
      refine hn.same (ha.savepointsAsked_of_ne fun n => ?_) withEnded_savepoints
      cases x.origin with
      | root => nofun
      | nested => nofun
    | rolledBack _ _ _ hu =>
      rw [hc] at hu
      exact hn.same hu.savepointsAsked withEnded_savepoints
    | closed _ _ hg =>
      refine hn.same (savepointsAsked_of_grown hg fun past e n he hd => ?_) rfl
      obtain ⟨c', -, hcall⟩ := he
      rw [hcall] at hd
      cases hd

theorem life {a b : Database × History} (hn : Counted c a.1 a.2)
    (hc : a.1.link.connection = some c) (hl : Life A a b) : Counted c b.1 b.2 := by
  induction hl with
  | refl => exact hn
  | tail hl hh ih => exact ih.happens (by rw [Life.link hl, hc]) hh

end Counted

end Database

end SqlAccess
