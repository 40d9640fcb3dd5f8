import Mathlib.Data.List.Basic
import SqlAccess.Proofs.Ledger.Growth

/-!
# Frames above and below a savepoint

Going back to a savepoint, or giving it up, concerns the frames from the top down to its own. The
ones below (`below`) stay as they are, except that the topmost of them gets the work of a savepoint
that is given up. So work that is below a savepoint stays where it is (`below_release`,
`below_rollbackTo`), and work that is not is kept or dropped as a whole (`works_release`,
`works_rollbackTo`).

All work in a ledger was run before (`ledger_bounded`).
-/

namespace SqlAccess

/-- The frames below that of a savepoint. -/
def below (n : Nat) : List Frame → List Frame
  | [] => []
  | f :: outer => if f.savepoint = some n then outer else below n outer

section Below

variable {n m p : Nat} {f : Frame} {l l' : List Frame}

theorem below_cons_self (hf : f.savepoint = some n) : below n (f :: l) = l := by
  rw [below, if_pos hf]

theorem below_cons_ne (hf : f.savepoint ≠ some n) : below n (f :: l) = below n l := by
  rw [below, if_neg hf]

theorem below_cons_suffix : below n (f :: l) <:+ l := by
  induction l generalizing f with
  | nil =>
    rw [below]
    split <;> exact List.nil_suffix
  | cons g l ih =>
    rw [below]
    split
    · exact List.suffix_refl _
    · exact ih.trans (List.suffix_cons g l)

theorem below_suffix : below n l <:+ l := by
  cases l with
  | nil => exact List.suffix_refl _
  | cons f l => exact below_cons_suffix.trans (List.suffix_cons f l)

theorem mem_works_below (hp : p ∈ works (below n l)) : p ∈ works l := by
  obtain ⟨f, hf, hp⟩ := List.mem_flatMap.1 hp
  exact List.mem_flatMap.2 ⟨f, below_suffix.subset hf, hp⟩

/-- The frames from the top to that of a savepoint, and the ones below it. -/
theorem exists_above (hn : some n ∈ l.map (·.savepoint)) : ∃ above f,
    l = above ++ f :: below n l ∧ f.savepoint = some n ∧
      l.takeWhile (Ledger.isOther n) = above ∧ l.dropWhile (Ledger.isOther n) = f :: below n l := by
  induction l with
  | nil => cases hn
  | cons f l ih =>
    by_cases hf : f.savepoint = some n
    · exact ⟨[], f, by simp [below_cons_self hf], hf, by simp [Ledger.isOther, hf],
        by simp [Ledger.isOther, hf, below_cons_self hf]⟩
    · have hn : some n ∈ l.map (·.savepoint) := by simpa [Ne.symm hf] using hn
      have hother : Ledger.isOther n f = true := by simp [Ledger.isOther, hf]
      obtain ⟨above, g, hl, hg, htake, hdrop⟩ := ih hn
      refine ⟨f :: above, g, ?_, hg, ?_, ?_⟩
      · rw [below_cons_ne hf, List.cons_append, ← hl]
      · rw [List.takeWhile_cons_of_pos hother, htake]
      · rw [below_cons_ne hf, List.dropWhile_cons_of_pos hother, hdrop]

/-- Frames have savepoints of their own, so what is below one of them is found from above too. -/
theorem below_below (hd : (l.map (·.savepoint)).Nodup)
    (hm : some m ∈ (below n l).map (·.savepoint)) : below m (below n l) = below m l := by
  induction l with
  | nil => rfl
  | cons f l ih =>
    rw [List.map_cons, List.nodup_cons] at hd
    have hne : f.savepoint ≠ some m := fun hf => by
      have := (below_cons_suffix.sublist.map (·.savepoint)).subset hm
      exact hd.1 (hf.symm ▸ this)
    rw [below_cons_ne hne]
    by_cases hf : f.savepoint = some n
    · rw [below_cons_self hf]
    · rw [below_cons_ne hf] at hm ⊢
      exact ih hd.2 hm

/-- Savepoints among which some one is the latest are below its frame, but for that one. -/
theorem sublist_below {ns : List (Option Nat)}
    (hs : (some n :: ns).Sublist (l.map (·.savepoint))) :
    ns.Sublist ((below n l).map (·.savepoint)) := by
  induction l with
  | nil => cases hs
  | cons f l ih =>
    rw [List.map_cons] at hs
    by_cases hf : f.savepoint = some n
    · rw [below_cons_self hf]
      rw [hf] at hs
      exact List.cons_sublist_cons.1 hs
    · rw [below_cons_ne hf]
      exact ih (hs.of_cons_of_ne (Ne.symm hf))

end Below

namespace Ledger

variable {l : Ledger} {n m p : Nat}

section Above

variable (hn : some n ∈ l.frames.map (·.savepoint)) (hb : below n l.frames ≠ [])
include hn hb

/-- Giving up a savepoint merges the frames down to its own into the one below. -/
theorem release_eq : ∃ above f g outer, l.frames = above ++ f :: g :: outer ∧
    below n l.frames = g :: outer ∧ f.savepoint = some n ∧ l.release n =
      { l with frames := { g with work := works above ++ f.work ++ g.work } :: outer } := by
  obtain ⟨above, f, hl, hf, htake, hdrop⟩ := exists_above hn
  obtain ⟨g, outer, hg⟩ := List.exists_cons_of_ne_nil hb
  rw [hg] at hl hdrop
  refine ⟨above, f, g, outer, hl, hg, hf, ?_⟩
  rw [release, hdrop, htake]

theorem durable_release : (l.release n).durable = l.durable := by
  obtain ⟨above, f, g, outer, -, -, -, hr⟩ := release_eq hn hb
  rw [hr]

theorem savepoints_release :
    (l.release n).frames.map (·.savepoint) = (below n l.frames).map (·.savepoint) := by
  obtain ⟨above, f, g, outer, -, hg, -, hr⟩ := release_eq hn hb
  rw [hr, hg]
  rfl

theorem works_release : p ∈ works (l.release n).frames ↔ p ∈ works l.frames := by
  obtain ⟨above, f, g, outer, hl, -, -, hr⟩ := release_eq hn hb
  rw [hr, hl]
  simp

theorem below_release (hd : (l.frames.map (·.savepoint)).Nodup)
    (hm : some m ∈ (below n l.frames).map (·.savepoint)) :
    below m (l.release n).frames = below m l.frames := by
  obtain ⟨above, f, g, outer, -, hg, -, hr⟩ := release_eq hn hb
  rw [← below_below hd hm, hr, hg]
  rfl

end Above

section Back

variable (hn : some n ∈ l.frames.map (·.savepoint))
include hn

/-- Going back to a savepoint drops the work in the frames down to its own. -/
theorem rollbackTo_eq : ∃ f : Frame, f.savepoint = some n ∧
    l.rollbackTo n = { l with frames := { f with work := [] } :: below n l.frames } := by
  obtain ⟨above, f, -, hf, -, hdrop⟩ := exists_above hn
  refine ⟨f, hf, ?_⟩
  rw [rollbackTo, hdrop]

theorem durable_rollbackTo : (l.rollbackTo n).durable = l.durable := by
  obtain ⟨f, -, hr⟩ := rollbackTo_eq hn
  rw [hr]

theorem savepoints_rollbackTo : (l.rollbackTo n).frames.map (·.savepoint) =
    some n :: (below n l.frames).map (·.savepoint) := by
  obtain ⟨f, hf, hr⟩ := rollbackTo_eq hn
  rw [hr, List.map_cons, hf]

theorem works_rollbackTo : works (l.rollbackTo n).frames = works (below n l.frames) := by
  obtain ⟨f, -, hr⟩ := rollbackTo_eq hn
  rw [hr]
  rfl

theorem below_rollbackTo_self : below n (l.rollbackTo n).frames = below n l.frames := by
  obtain ⟨f, hf, hr⟩ := rollbackTo_eq hn
  rw [hr]
  exact below_cons_self hf

theorem below_rollbackTo (hd : (l.frames.map (·.savepoint)).Nodup)
    (hm : some m ∈ (below n l.frames).map (·.savepoint)) (hne : m ≠ n) :
    below m (l.rollbackTo n).frames = below m l.frames := by
  obtain ⟨f, hf, hr⟩ := rollbackTo_eq hn
  rw [← below_below hd hm, hr]
  refine below_cons_ne fun hm => hne ?_
  exact Option.some.inj (hm.symm.trans hf)

end Back

/-- Going back to a savepoint and giving it up then comes to dropping the frames down to its own. -/
theorem release_rollbackTo (hn : some n ∈ l.frames.map (·.savepoint))
    (hb : below n l.frames ≠ []) :
    (l.rollbackTo n).release n = { l with frames := below n l.frames } := by
  obtain ⟨f, hf, hr⟩ := rollbackTo_eq hn
  obtain ⟨g, outer, hg⟩ := List.exists_cons_of_ne_nil hb
  have hother : isOther n { f with work := [] } = false := by simp [isOther, hf]
  rw [hr, release, hg]
  simp [hother]

section Runs

variable {ps : List Nat}

theorem below_runs : below m (l.runs ps).frames = below m l.frames := by
  cases hf : l.frames with
  | nil => simp [runs, hf]
  | cons f outer => simp [runs, hf, below]

theorem works_runs_of_notMem (hp : p ∉ ps) :
    p ∈ works (l.runs ps).frames ↔ p ∈ works l.frames := by
  cases hf : l.frames <;> simp [runs, hf, hp]

theorem durable_runs_of_notMem (hp : p ∉ ps) : p ∈ (l.runs ps).durable ↔ p ∈ l.durable := by
  cases hf : l.frames <;> simp [runs, hf, hp]

/-- What is run while there are frames is in the one on top. -/
theorem runs_of_ne_nil (hne : l.frames ≠ []) : (l.runs ps).durable = l.durable ∧
    ∀ p ∈ ps, p ∈ works (l.runs ps).frames := by
  obtain ⟨f, outer, hf⟩ := List.exists_cons_of_ne_nil hne
  unfold runs
  simp only [hf, works_cons, List.mem_append, true_and]
  exact fun p hp => .inl (.inl hp)

end Runs

/-! ## What a ledger holds -/

/-- There is no work in a ledger from some position on. -/
def Bounded (l : Ledger) (k : Nat) : Prop := ∀ p, p ∈ works l.frames ∨ p ∈ l.durable → p < k

variable {k : Nat}

theorem Bounded.mono {k' : Nat} (hl : l.Bounded k) (hk : k ≤ k') : l.Bounded k' :=
  fun p hp => Nat.lt_of_lt_of_le (hl p hp) hk

theorem Bounded.run (hl : l.Bounded k) : (l.run k).Bounded (k + 1) := by
  intro p hp
  have hp : p = k ∨ p ∈ works l.frames ∨ p ∈ l.durable := by
    unfold Ledger.run at hp
    cases hf : l.frames <;> simp only [hf, works_cons, List.mem_append, List.mem_cons] at hp ⊢ <;>
      grind
  obtain rfl | hp := hp
  · exact Nat.lt_succ_self p
  · exact Nat.lt_succ_of_lt (hl p hp)

/-- Directives do not add work. -/
theorem Bounded.control (hl : l.Bounded k) (d : Directive) : (l.control d).Bounded k := by
  have split (n : Nat) : works l.frames = works (l.frames.takeWhile (isOther n)) ++
      works (l.frames.dropWhile (isOther n)) := by
    rw [← works_append, List.takeWhile_append_dropWhile]
  intro p hp
  refine hl p ?_
  cases d with
  | start =>
    simp only [Ledger.control] at hp
    split at hp
    · exact .inr (by simpa using hp)
    · exact hp
  | commit => simpa [Ledger.control] using hp
  | rollback => exact .inr (by simpa [Ledger.control] using hp)
  | savepoint => simpa [Ledger.control] using hp
  | release n =>
    simp only [Ledger.control, release] at hp
    split at hp
    · exact hp
    all_goals
      next hdrop =>
      rw [split n, hdrop]
      simp only [works_cons, works_nil, List.mem_append] at hp ⊢
      grind
  | rollbackTo n =>
    simp only [Ledger.control, rollbackTo] at hp
    split at hp
    · exact hp
    · next hdrop =>
      rw [split n, hdrop]
      simp only [works_cons, List.mem_append] at hp ⊢
      grind
  | readOnly | lockWait => exact hp

end Ledger

/-- All work on a connection was run before. -/
theorem ledger_bounded (c : Nat) (h : History) : (ledger c h).Bounded h.length := by
  induction h with
  | nil => exact fun p hp => by simp [ledger] at hp
  | cons e past ih =>
    have same : (ledger c past).Bounded (past.length + 1) := ih.mono (Nat.le_succ _)
    rw [ledger, List.length_cons]
    split
    · exact same
    unfold Ledger.call
    split
    · split
      · exact same.control _
      · exact same
    · split
      · exact same.control _
      · exact same
    · split
      · exact fun p hp => same p (.inr (by simpa using hp))
      · exact same
    · split
      · exact ih.run
      · exact same
    · split
      · exact ih.run
      · exact same
    · exact same

end SqlAccess
