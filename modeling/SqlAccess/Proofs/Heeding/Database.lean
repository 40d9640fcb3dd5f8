import SqlAccess.Proofs.Holdings.Database
import SqlAccess.Proofs.Heeding.Statement

/-!
# Databases heed failures

The operations on a database that begin and commit transactions and that prepare and run statements
hand on the failures of the backend and the statements. What is closed on the way is left out of
account. For the directives of MariaDB it counts that the connection is there, which it is while the
database is open (`Database.Wired`).
-/

namespace SqlAccess.Database

open Engine

variable {α : Type} {W : Call → Prop} {a : Database × World} {k t : Nat}

/-! ## What makes no call -/

theorem checkRunnable_calm {writes : Bool} : Calm W (checkRunnable k writes).run a :=
  calm_of_same <| checkRunnable_after.mono fun _ _ h => by rw [h.1]

theorem writeLog_calm {level : LogLevel} {text : Bytes} : Calm W (writeLog level text) a :=
  calm_of_same <| writeLog_same.mono fun _ _ h => h.engine

/-! ## Statements -/

theorem atStatement_heeds {x : Link → Op Statement α} (hx : ∀ l b, Heeds W (x l).run b) :
    Heeds W (atStatement k x).run a :=
  atStatement_cases (fun _ => .refl) fun _ _ => hx _ _

theorem onStatement_heeds {x : Link → Op Statement α} (hx : ∀ l b, Heeds W (x l).run b) :
    Heeds W (onStatement k x).run a :=
  onStatement_cases (fun _ => .refl) fun _ _ _ => hx _ _

theorem atStatement_calm {x : Link → Op Statement α} (hx : ∀ l b, Calm W (x l).run b) :
    Calm W (atStatement k x).run a :=
  atStatement_cases (fun _ => .refl) fun _ _ => hx _ _

theorem closeStatement_calm : Calm Call.GivesNothingUp (closeStatement k) a :=
  closeStatement_cases (fun _ => .refl) fun _ _ => Statement.close_calm

theorem closeOwned_calm : Calm Call.GivesNothingUp (closeOwned t) a :=
  closeOwned_keeps_of (I := fun b => Grown (Unfailed Call.GivesNothingUp) a.2.engine.history
      b.2.engine.history) (fun h h' => h'.engine.symm ▸ h)
    (fun h => closeStatement_calm.mono fun _ _ h' => h.trans h') .refl id

theorem prepare_heeds {owner : Option Nat} {query : Option Query} :
    Heeds Call.GivesNothingUp (prepare owner query).run a := by
  refine prepare_after (fun _ => .refl) fun _ _ _ _ =>
    Backend.prepare_heeds.mono fun r e hg b h => ?_
  have hg : Grown (Heeded Call.GivesNothingUp r) a.2.engine.history b.2.engine.history := by
    rw [h.engine]
    exact hg
  refine ⟨?_, ?_⟩
  · rintro f rfl
    exact hg.mono fun _ _ => Heeded.of_error
  · rintro handle rfl
    exact hg.mono fun _ _ => Heeded.of_ok

theorem executeStatement_heeds : Heeds Call.GivesNothingUp (executeStatement k).run a :=
  checkRunnable_calm.heeds.bind fun _ _ => onStatement_heeds fun _ _ => Statement.execute_heeds

theorem executeOnce_heeds {query : Option Query} :
    Heeds Call.GivesNothingUp (executeOnce t query).run a := by
  unfold executeOnce
  refine prepare_heeds.bind fun k b => ?_
  have ran : Heeds Call.GivesNothingUp (executeStatement k).attempt b := executeStatement_heeds
  refine ran.examines.bind (fun _ c => ?_) fun f c => ?_
  · exact closeStatement_calm.lift.bind fun _ _ => heeds_pure _
  · exact closeStatement_calm.lift.yields fun _ _ => yields_throw f

/-! ## Transactions -/

/-- The connection of a database is there while the database is open, also when statements of it
are closed. -/
def Wired (a : Database × World) : Prop :=
  ∃ g x, Backed (Keeps g a.1.link a.1.isOpen) x a ∧ (a.1.isOpen → Connected a.1.link.connection x)

theorem Wired.has (h : Wired a) (ho : a.1.isOpen) : a.2.engine.Has a.1.link.connection := by
  obtain ⟨g, x, ⟨own, -, he⟩, hc⟩ := h
  exact ((hc ho).add own).has he

theorem closeOwned_wired (h : Wired a) : After (closeOwned t) a fun _ b =>
    Wired b ∧ b.1.isOpen = a.1.isOpen := by
  obtain ⟨g, x, hb, hc⟩ := h
  refine (closeOwned_keeps t hb hc).mono fun _ b hb => ?_
  obtain ⟨own, hk, he⟩ := hb
  rw [← hk.link, ← hk.isOpen] at hc
  exact ⟨⟨g, x, ⟨own, ⟨rfl, rfl, by rw [hk.link, hk.isOpen]; exact hk.statements⟩, he⟩, hc⟩,
    hk.isOpen⟩

theorem begin_heeds (h : Wired a) : Heeds W begin.run a := by
  unfold begin
  refine After.try_seq checkOpen_after ?_ ?_
  · rintro _ _ ⟨rfl, ho⟩
    refine heeds_get ?_
    dsimp only
    split
    · exact After.try_bind_iff.2 (After.throw_iff.2 .refl)
    · split
      · exact After.try_bind_iff.2 (After.throw_iff.2 .refl)
      · refine (heeds_op (Backend.control_heeds fun _ => h.has (ho rfl))).bind fun _ b => ?_
        exact proceeds_modify.bind fun _ _ => writeLog_calm.lift.bind fun _ _ => heeds_try_pure _
  · rintro _ _ ⟨rfl, -⟩
    exact .refl

theorem nest_heeds (h : Wired a) : Heeds W (nest t).run a := by
  unfold nest
  refine After.try_seq checkUsable_after ?_ ?_
  · rintro x _ ⟨rfl, hx⟩
    obtain ⟨-, ho⟩ := hx x rfl
    refine After.try_bind_iff.2 <| After.try_modify_iff.2 <| heeds_get ?_
    exact Heeds.bind (heeds_op (Backend.control_heeds fun _ => h.has ho)) fun _ _ =>
      proceeds_modify.bind fun _ _ => writeLog_calm.lift.bind fun _ _ => heeds_try_pure _
  · rintro _ _ ⟨rfl, -⟩
    exact .refl

theorem keepWork_heeds {l : Link} {origin : Origin} {e : Engine} (hc : e.Has l.connection) :
    Heeds W (keepWork l origin).run e := by
  cases origin <;> exact Backend.control_heeds fun _ => hc

theorem commit_heeds (h : Wired a) : Heeds Call.GivesNothingUp (commit t).run a := by
  unfold commit
  refine After.try_seq active_after ?_ ?_
  · rintro x _ ⟨rfl, -⟩
    refine After.try_seq checkOpen_after ?_ ?_
    · rintro _ _ ⟨rfl, ho⟩
      refine After.try_call (closeOwned_calm.and (closeOwned_wired h)) fun first b hb => ?_
      obtain ⟨hcalm, hwired, hopen⟩ := hb
      suffices Heeds Call.GivesNothingUp _ b from
        this.mono fun _ _ h' => (hcalm.mono fun _ _ => Unfailed.heeded).trans h'
      refine heeds_get ?_
      refine (examines_op (keepWork_heeds (hwired.has (hopen.trans (ho rfl))))).bind
        (fun _ c => ?_) fun f c => ?_
      · exact proceeds_modify.bind fun _ _ => writeLog_calm.lift.bind fun _ _ => heeds_pure _
      · exact writeLog_calm.lift.yields fun _ _ => yields_throw f
    · rintro _ _ ⟨rfl, -⟩
      exact .refl
  · rintro _ _ ⟨rfl, -⟩
    exact .refl

end SqlAccess.Database
