import SqlAccess.Proofs.Database.Change
import SqlAccess.Proofs.Ledger

/-!
# How the ledger of a connection grows

Between two directives the calls on a connection only run statements, so the frame on top gets
what was run (`Spent`). Closing the connection drops the frames (`Shut`).
-/

namespace SqlAccess

variable {c p : Nat} {h h' h'' : History}

/-! ## Runs -/

/-- A call that runs no statement of a connection. -/
def Unrun (c : Nat) (past : History) (e : Event) : Prop := e.call.runs?.any (made c past) = false

theorem ranAt_of_unrun (hg : Grown (Unrun c) h h') (hp : h.length ≤ p) : ranAt c p h' = false := by
  induction hg with
  | refl => exact ranAt_of_length_le hp
  | call _ he ih =>
    rw [ranAt]
    split
    · rw [he, Bool.and_false]
    · exact ih

theorem Idle.unrun {past : History} {e : Event} (hi : Idle past e) : Unrun c past e := by
  rw [Unrun, hi, Option.any_none]

theorem Foreign.unrun {past : History} {e : Event} (hf : Foreign (some c) past e) :
    Unrun c past e := by
  rw [Unrun, Option.any_eq_false]
  exact fun k hk => Bool.eq_false_iff.2 ((hf c rfl).2 k hk)

namespace Ledger

/-- Several runs are made, the latest first. -/
def runs (l : Ledger) (ps : List Nat) : Ledger :=
  match l.frames with
  | [] => { l with durable := ps ++ l.durable }
  | f :: outer => { l with frames := { f with work := ps ++ f.work } :: outer }

variable {l : Ledger} {ps : List Nat}

theorem runs_nil : l.runs [] = l := by
  unfold runs
  split
  · rfl
  · next f outer hf => simp [← hf]

theorem runs_run : (l.runs ps).run p = l.runs (p :: ps) := by
  unfold runs run
  cases hf : l.frames <;> simp

/-- Runs do not open or close frames. -/
theorem runs_savepoints : (l.runs ps).frames.map (·.savepoint) = l.frames.map (·.savepoint) := by
  unfold runs
  split
  · next hf => simp [hf]
  · next hf => simp [hf]

end Ledger

/-- A call that neither runs a directive on a connection nor closes it. -/
def Harmless (c : Nat) (_ : History) (e : Event) : Prop :=
  (∀ d, e.call.directive? ≠ some (c, d)) ∧ e.call.closes? ≠ some c

theorem Work.harmless {c' : Option Nat} {past : History} {e : Event} (hw : Work c' past e) :
    Harmless c past e := by
  refine ⟨fun d hd => ?_, fun hc => ?_⟩
  · rw [hw.directive] at hd
    cases hd
  · obtain ⟨⟨c'', -, hp⟩ | hs, -⟩ := hw
    · revert hp hc
      cases e.call <;> simp [Call.prepares, Call.closes?]
    · revert hs hc
      cases e.call <;> simp [Call.statement?, Call.closes?]

theorem Foreign.harmless {past : History} {e : Event} (hf : Foreign (some c) past e) :
    Harmless c past e := by
  have hc := (hf c rfl).1
  refine ⟨fun d hd => hc (Call.connection?_of_directive? hd), fun h => hc ?_⟩
  revert h
  cases e.call <;> simp [Call.closes?, Call.connection?]

/-- Nothing but runs came to a connection. -/
structure Spent (c : Nat) (h h' : History) (ps : List Nat) : Prop where
  suffix : h <:+ h'
  ledger : ledger c h' = (ledger c h).runs ps
  asks : ∀ d, asks c d h' = asks c d h
  fate : ∀ p, fate? c p h' = fate? c p h
  runs : ∀ p, p ∈ ps ↔ h.length ≤ p ∧ ranAt c p h'
  orderly : orderly c h' = orderly c h

namespace Spent

theorem refl : Spent c h h [] where
  suffix := List.suffix_refl h
  ledger := Ledger.runs_nil.symm
  asks _ := rfl
  fate _ := rfl
  runs p := by
    simp only [List.not_mem_nil, false_iff, not_and]
    intro hp
    simp [ranAt_of_length_le hp]
  orderly := rfl

theorem call {ps : List Nat} {e : Event} (hs : Spent c h h' ps)
    (he : Harmless c h' e) : ∃ ps', Spent c h (e :: h') ps' := by
  have hask (d : Directive) : SqlAccess.asks c d (e :: h') = SqlAccess.asks c d h := by
    rw [← hs.asks]
    simp [SqlAccess.asks, he.1 d]
  have hfate (p : Nat) : fate? c p (e :: h') = fate? c p h := by
    rw [← hs.fate]
    have : e.call.ends? c = none := by
      obtain ⟨hd, hc⟩ := he
      revert hd hc
      cases e.call <;> simp +contextual [Call.directive?, Call.ends?, Call.closes?]
    simp [fate?, this]
  have horder : SqlAccess.orderly c (e :: h') = SqlAccess.orderly c h := by
    rw [← hs.orderly, SqlAccess.orderly]
    cases hd : e.call.directive? with
    | none => simp
    | some r =>
      have hne : r.1 ≠ c := fun hc => he.1 r.2 (by rw [hd, ← hc])
      simp [hne]
  have hsuf := hs.suffix.trans (List.suffix_cons e h')
  have hlen := hs.suffix.length_le
  have old (p : Nat) (hp : p ≠ h'.length) : ranAt c p (e :: h') = ranAt c p h' := by
    rw [ranAt, if_neg (Ne.symm hp)]
  by_cases hrun : ranAt c h'.length (e :: h')
  · refine ⟨h'.length :: ps, hsuf, ?_, hask, hfate, fun p => ?_, horder⟩
    · rw [← Ledger.runs_run, ← hs.ledger]
      rw [ranAt, if_pos rfl, Bool.and_eq_true] at hrun
      obtain ⟨hok, hr⟩ := hrun
      obtain ⟨k, hk, hmade⟩ := (Option.any_eq_true _ _).1 hr
      cases hcall : e.call <;> simp_all [SqlAccess.ledger, Ledger.call, Call.runs?]
    · rw [List.mem_cons, hs.runs]
      by_cases hp : p = h'.length
      · subst hp
        simp [hlen, hrun]
      · simp [hp, old p hp]
  · refine ⟨ps, hsuf, ?_, hask, hfate, fun p => ?_, horder⟩
    · rw [← hs.ledger, SqlAccess.ledger]
      rw [ranAt, if_pos rfl] at hrun
      split
      · rfl
      · next hok =>
        obtain ⟨hd, hc⟩ := he
        cases hcall : e.call <;>
          simp_all [Ledger.call, Call.runs?, Call.directive?, Call.closes?]
    · rw [hs.runs]
      by_cases hp : p = h'.length
      · subst hp
        simp [hrun, ranAt_of_length_le (Nat.le_refl _)]
      · rw [old p hp]

theorem of_grown (hg : Grown (Harmless c) h h') : ∃ ps, Spent c h h' ps := by
  induction hg with
  | refl => exact ⟨[], refl⟩
  | call hg he ih =>
    obtain ⟨ps, hs⟩ := ih
    exact hs.call he

/-- Nothing came to a connection at all. -/
theorem eq_nil {ps : List Nat} (hs : Spent c h h' ps) (hg : Grown (Unrun c) h h') : ps = [] := by
  refine List.eq_nil_iff_forall_not_mem.2 fun p hp => ?_
  obtain ⟨hle, hr⟩ := (hs.runs p).1 hp
  rw [ranAt_of_unrun hg hle] at hr
  cases hr

end Spent

/-! ## Closing -/

/-- The frames of a connection were dropped, or nothing came of it. -/
structure Shut (c : Nat) (h h' : History) : Prop where
  suffix : h <:+ h'
  asks : ∀ d, asks c d h' = asks c d h
  runs : ∀ p, ranAt c p h' = ranAt c p h
  orderly : orderly c h' = orderly c h
  rest : (ledger c h' = ledger c h ∧ ∀ p, p < h.length → fate? c p h' = fate? c p h) ∨
    (ledger c h' = { ledger c h with frames := [] } ∧
      ∀ p, p < h.length → fate? c p h' = (fate? c p h).or (some .rolledBack))

theorem Shut.of_grown (hg : Grown (Database.Closing (some c)) h h') : Shut c h h' := by
  induction hg with
  | refl => exact ⟨List.suffix_refl h, fun _ => rfl, fun _ => rfl, rfl, .inl ⟨rfl, fun _ _ => rfl⟩⟩
  | @call past e hg he ih =>
    obtain ⟨n, hn, hcall⟩ := he
    obtain rfl : c = n := Option.some.inj hn
    have hlen := hg.suffix.length_le
    refine ⟨hg.suffix.trans (List.suffix_cons _ _), fun d => ?_,
      fun p => (ranAt_cons (by rw [hcall]; rfl)).trans (ih.runs p), ?_, ?_⟩
    · rw [← ih.asks]
      simp [SqlAccess.asks, hcall, Call.directive?]
    · rw [← ih.orderly]
      simp [SqlAccess.orderly, hcall, Call.directive?]
    · cases ho : e.outcome.isFailure with
      | true =>
        have hsame : ledger c (e :: past) = ledger c past := by simp [ledger, ho]
        have hfate (p : Nat) : fate? c p (e :: past) = fate? c p past := by simp [fate?, ho]
        simp only [hsame, hfate]
        exact ih.rest
      | false =>
        have hshut : ledger c (e :: past) = { ledger c past with frames := [] } := by
          simp [ledger, ho, hcall, Ledger.call]
        have hfate (p : Nat) (hp : p < h.length) :
            fate? c p (e :: past) = (fate? c p past).or (some .rolledBack) := by
          simp [fate?, ho, hcall, Call.ends?, Nat.lt_of_lt_of_le hp hlen]
        refine .inr ⟨?_, fun p hp => ?_⟩
        · rw [hshut]
          obtain ⟨hl, -⟩ | ⟨hl, -⟩ := ih.rest <;> rw [hl]
        · rw [hfate p hp]
          obtain ⟨-, hf⟩ | ⟨-, hf⟩ := ih.rest <;> rw [hf p hp]
          cases fate? c p h <;> rfl

end SqlAccess
