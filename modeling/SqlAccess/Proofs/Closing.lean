import SqlAccess.Proofs.After
import SqlAccess.Statement

/-!
# How closing goes

A cursor that is closed is taken out of its statement before anything is given up, so it is gone
whatever the engine says then: its rows are given up, and the statement of the engine that it reads
is finalized if it is its own and stops reading if it is that of its statement. Closing the current
cursor closes the cursor that was produced last, and closing a statement does that first.

The lemmas reduce these three to what the backend does.
-/

namespace SqlAccess.Statement

variable {l : Link} {s : Statement} {w : World} {n : Nat}
  {Q : Except Fault Unit → Statement × World → Prop}

/-- A cursor that is closed already is left alone. -/
theorem closeCursor_missing (hn : s.cursors.find? n = none) (hQ : Q (.ok ()) (s, w)) :
    After (closeCursor n l).run (s, w) Q := by
  refine After.try_bind_iff.2 (After.try_get_iff.2 ?_)
  simp only [hn]
  exact After.try_pure_iff.2 hQ

theorem closeCursor_open {x : Cursor} (hx : s.cursors.find? n = some x)
    (hfreed : After (l.backend.freeRows x.rows) w.engine fun _ e =>
      (∀ h, x.own = some h → After (l.backend.finalize h).run e fun r e' =>
        Q r ({ s with cursors := s.cursors.erase n }, { w with engine := e' })) ∧
      (x.own = none → After s.handle.endRows e fun h e' =>
        Q (.ok ()) ({ s with cursors := s.cursors.erase n, handle := h },
          { w with engine := e' }))) :
    After (closeCursor n l).run (s, w) Q := by
  unfold closeCursor
  refine After.try_bind_iff.2 (After.try_get_iff.2 ?_)
  simp only [hx]
  refine After.try_bind_iff.2 <| After.try_set_iff.2 <| After.try_bind_iff.2 <|
    After.op_onEngine_iff.2 <| hfreed.mono fun _ e ⟨hown, hshared⟩ => ?_
  cases ho : x.own with
  | some h => exact After.op_onTry_iff.2 (hown h ho)
  | none =>
    exact After.try_bind_iff.2 <| After.op_onEngine_iff.2 <| (hshared ho).mono fun _ _ h =>
      After.try_set_iff.2 h

theorem closeCursor_cases (hmissing : s.cursors.find? n = none → Q (.ok ()) (s, w))
    (hopen : ∀ x, s.cursors.find? n = some x →
      After (l.backend.freeRows x.rows) w.engine fun _ e =>
        (∀ h, x.own = some h → After (l.backend.finalize h).run e fun r e' =>
          Q r ({ s with cursors := s.cursors.erase n }, { w with engine := e' })) ∧
        (x.own = none → After s.handle.endRows e fun h e' =>
          Q (.ok ()) ({ s with cursors := s.cursors.erase n, handle := h },
            { w with engine := e' }))) :
    After (closeCursor n l).run (s, w) Q := by
  cases hx : s.cursors.find? n with
  | none => exact closeCursor_missing hx (hmissing hx)
  | some x => exact closeCursor_open hx (hopen x hx)

theorem closeCurrent_cases (hnone : s.current = none → Q (.ok ()) (s, w))
    (hsome : ∀ n, s.current = some n →
      After (closeCursor n l).run ({ s with current := none }, w) Q) :
    After (closeCurrent l).run (s, w) Q := by
  unfold closeCurrent
  refine After.try_bind_iff.2 (After.try_get_iff.2 ?_)
  cases hn : s.current with
  | none =>
    simp only [hn]
    exact After.try_pure_iff.2 (hnone hn)
  | some n =>
    simp only [hn]
    exact After.try_bind_iff.2 (After.try_set_iff.2 (hsome n hn))

/-- The statement is finalized whatever came of its current cursor, and the first failure counts. -/
theorem close_cases (hclosed : s.isOpen = false → Q (.ok ()) (s, w))
    (hopen : s.isOpen → After (closeCurrent l).run ({ s with isOpen := false }, w) fun first a =>
      After (l.backend.finalize a.1.handle).run a.2.engine fun next e =>
        After (keepFirst l.options.sink "Statement close failed" first next)
          { a.2 with engine := e } fun r w' => Q r (a.1, w')) :
    After (close l) (s, w) Q := by
  unfold close
  refine After.bind_iff.2 (After.get_iff.2 ?_)
  cases ho : s.isOpen with
  | false =>
    exact After.pure_iff.2 (hclosed ho)
  | true =>
    exact After.bind_iff.2 <| After.modify_iff.2 <| After.bind_iff.2 <| After.attempt_iff.2 <|
      (hopen ho).mono fun _ _ h => After.bind_iff.2 <| After.get_iff.2 <| After.bind_iff.2 <|
        After.object_onEngine_iff.2 <| h.mono fun _ _ h => After.lift_iff.2 h

end SqlAccess.Statement
