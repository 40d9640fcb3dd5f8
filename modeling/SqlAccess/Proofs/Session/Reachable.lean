import SqlAccess.Proofs.Session.Operations

/-!
# Reachable sessions

A session starts with nothing opened, over an engine that was not called yet, whatever version it
reports, whatever its scripts yield and whichever calls its rules let fail. What can be reached
from there by steps is `Reachable`; `Later s s'` says that `s'` can be reached from `s`.
-/

namespace SqlAccess.Session

/-- A session in which nothing happened yet. -/
def start (b : Backend) (version : Bytes) (rules : List Rule) (scripts : List Script) :
    Session × World :=
  ({ backend := b }, { engine := { version, rules, scripts } })

/-- The state that a step leaves behind. -/
def after (x : Step) (s : Session × World) : Session × World := (outcome (step x) s).2

/-- One state comes of another one by steps. -/
inductive Later (s : Session × World) : Session × World → Prop
  | refl : Later s s
  | step {s' : Session × World} (x : Step) : Later s s' → Later s (after x s')

/-- The states of a session from its start on. -/
inductive Reachable : Session × World → Prop
  | start (b : Backend) (version : Bytes) (rules : List Rule) (scripts : List Script) :
      Reachable (start b version rules scripts)
  | step {s : Session × World} (x : Step) : Reachable s → Reachable (after x s)

variable {s s' : Session × World}

theorem Later.reachable (hl : Later s s') (hr : Reachable s) : Reachable s' := by
  induction hl with
  | refl => exact hr
  | step x _ ih => exact ih.step x

theorem Later.trans {s'' : Session × World} (h₁ : Later s s') (h₂ : Later s' s'') :
    Later s s'' := by
  induction h₂ with
  | refl => exact h₁
  | step x _ ih => exact ih.step x

/-- Carrying out steps one after another leads to a later state. -/
theorem run_later (steps : List Step) : After (run steps) s fun _ s' => Later s s' := by
  unfold run
  induction steps generalizing s with
  | nil => exact After.pure_iff.2 .refl
  | cons x steps ih =>
    rw [List.mapM_cons]
    have first : After (step x) s fun _ s' => Later s s' := Later.refl.step x
    exact After.seq first fun _ _ h₁ => After.seq ih fun _ _ h₂ =>
      After.pure_iff.2 (h₁.trans h₂)

theorem start_sound {b : Backend} {version : Bytes} {rules : List Rule} {scripts : List Script} :
    Sound (start b version rules scripts) := by
  have none (n : Nat) : (start b version rules scripts).1.opened.find? n = none := rfl
  refine ⟨⟨fun c k h => ?_, fun c c' k h => ?_⟩, fun e he => ?_, fun n d c h => ?_,
    fun n n' d d' c h => ?_, fun n d h => ?_⟩
  · cases h
  · cases h
  · cases he
  all_goals
    rw [none] at h
    cases h

theorem after_leads (x : Step) (hs : Sound s) : Leads (fun _ _ => True) s (after x s) :=
  step_iff.2 (carryOut_goes s hs)

namespace Reachable

theorem sound (hr : Reachable s) : Sound s := by
  induction hr with
  | start => exact start_sound
  | step x _ ih => exact Leads.sound (after_leads x ih) ih

theorem lived (hr : Reachable s) : Lived s := by
  induction hr with
  | start =>
    intro n d hd
    cases hd
  | step x hr ih => exact ih.leads hr.sound (after_leads x hr.sound)

/-- A database of a reachable session was opened and has lived since. -/
theorem life (hr : Reachable s) {n : Nat} {d : Database} (hd : s.1.opened.find? n = some d) :
    ∃ d₀ h₀, Database.Born d₀ h₀ ∧
      Database.Life (fun _ => True) (d₀, h₀) (d, s.2.engine.history) :=
  hr.lived n d hd

end Reachable

/-- A database lives on while steps are carried out. -/
theorem Later.life (hl : Later s s') (hr : Reachable s) {n : Nat} {d : Database}
    (hd : s.1.opened.find? n = some d) : ∃ d', s'.1.opened.find? n = some d' ∧
      Database.Life (fun _ => True) (d, s.2.engine.history) (d', s'.2.engine.history) := by
  induction hl with
  | refl => exact ⟨d, hd, .refl⟩
  | step x hl ih =>
    obtain ⟨d₁, hd₁, h₁⟩ := ih
    have hs := (hl.reachable hr).sound
    obtain ⟨d₂, hd₂, h₂⟩ := Leads.life (after_leads x hs) hs hd₁
    exact ⟨d₂, hd₂, h₁.trans h₂⟩

/-- Through a step that runs a statement in a transaction, the database lives on without running
another statement while the transaction is not ready. -/
theorem after_running {x : Step} {r : TransactionRef} (hr : Reachable s)
    (hx : s.1.executes x = some r) {d : Database} (hd : s.1.opened.find? r.database = some d) :
    ∃ d', (after x s).1.opened.find? r.database = some d' ∧
      Database.Life (fun d => ∃ y, d.Ready r.number y) (d, s.2.engine.history)
        (d', (after x s).2.engine.history) := by
  obtain ⟨d', hd', hl⟩ := Leads.life (step_iff.2 (carryOut_running hr.sound hx)) hr.sound hd
  exact ⟨d', hd', hl.mono fun _ h => h rfl⟩

end SqlAccess.Session
