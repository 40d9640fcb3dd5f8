import SqlAccess.Proofs.Holdings.Maria
import SqlAccess.Proofs.Holdings.Sqlite

/-!
# What the operations of the backends do to what is held

For either engine: what is held before and after an operation on a connection or on a prepared
statement, by the phase that the statement is in.
-/

namespace SqlAccess

open Engine

variable {b : Backend} {c : Option Nat} {k n : Nat} {st : Stage} {x : Multiset Asset} {e : Engine}

namespace Backend

/-- A connection that is there is asked for its engine. -/
theorem info_same (hc : e.Has c) : After (b.info c) e fun _ e' => e' = e := by
  cases b with
  | sqlite | strict => rfl
  | maria =>
    cases c with
    | none => rfl
    | some c => exact viewConnection_same hc

theorem connect_carries {dsn : Bytes} {readOnly : Bool} {busyTimeout : Int32} (h : e.Carries x)
    (hx : Grounded x) : After (b.connect dsn readOnly busyTimeout).run e fun r e' => match r with
      | .ok c => e'.Carries (Asset.ofConnection c + x)
      | .error _ => e'.Carries x := by
  cases b with
  | sqlite | strict => exact Sqlite.connect_carries h hx
  | maria => exact Maria.connect_carries h hx

theorem disconnect_carries (h : e.Carries (Asset.ofConnection c + x)) (hx : Grounded x) :
    After (b.disconnect c).run e fun _ e' => e'.Carries x := by
  cases b with
  | sqlite | strict => exact Sqlite.disconnect_carries h hx
  | maria => exact Maria.disconnect_carries h hx

theorem control_carries {d : Directive} (hc : Connected c x) (h : e.Carries x) :
    After (b.control c d).run e fun _ e' => e'.Carries x := by
  cases b with
  | sqlite | strict => exact Sqlite.control_carries hc h
  | maria => exact Maria.control_carries hc h

theorem rollbackTo_carries {savepoint : Nat} (hc : Connected c x) (h : e.Carries x) :
    After (b.rollbackTo c savepoint).run e fun _ e' => e'.Carries x :=
  After.try_keep (control_carries hc h) fun _ _ h₁ => control_carries hc h₁

theorem prepare_backed {sql : Bytes} (hc : Connected c x) (h : e.Carries x) :
    After (b.prepare c sql).run e fun r e' => match r with
      | .ok handle => Backed (Handle.Stands b c .resting) x (handle, e')
      | .error _ => e'.Carries x := by
  cases b with
  | sqlite =>
    exact After.try_seq (Sqlite.prepare_backed (b := .sqlite) (by decide) hc h)
      (fun _ _ h₁ => After.try_pure_iff.2 h₁) fun _ _ h₁ => h₁
  | strict =>
    exact After.try_seq (Sqlite.prepare_backed (b := .strict) (by decide) hc h)
      (fun _ _ h₁ => After.try_pure_iff.2 h₁) fun _ _ h₁ => h₁
  | maria =>
    exact After.try_seq (Maria.prepare_backed rfl hc h) (fun _ _ h₁ => After.try_pure_iff.2 h₁)
      fun _ _ h₁ => h₁

/-- A statement that is given up is no more held, however that ends. -/
theorem finalize_carries {h : Handle} {p : Phase} (hx : Connected c x)
    (hb : Backed (Handle.Stands b c p) x (h, e)) :
    After (b.finalize h).run e fun _ e' => e'.Carries x := by
  obtain ⟨own, hs, he⟩ := hb
  cases hs with
  | missing hb => exact After.try_pure_iff.2 (by rwa [zero_add] at he)
  | sqlite hb hc hst hp =>
    dsimp only [finalize]
    split
    · exact Sqlite.finalizeStrictly_carries hst (hc ▸ hx) he
    · exact Sqlite.finalize_carries hst he
  | maria hb hc hst hp hr => exact Maria.finalize_carries hst he

theorem freeRows_carries {rows : List (List Cell)}
    (h : e.Carries (Multiset.replicate (b.copies rows) .cell + x)) :
    After (b.freeRows rows) e fun _ e' => e'.Carries x := by
  cases b with
  | sqlite | strict =>
    refine freeCells_carries ?_
    rw [List.length_flatten]
    exact h
  | maria => exact After.pure_iff.2 (by simpa [copies] using h)

end Backend

namespace Handle

variable {h : Handle}

theorem onClient_iff {s : Maria.Client} {y : Maria.ClientTry Unit}
    {Q : Except Fault Unit → Handle × Engine → Prop} :
    After (onClient s y).run (h, e) Q ↔ After y.run (s, e) fun r s' => Q r (maria s'.1, s'.2) := by
  unfold onClient
  exact Iff.rfl

/-- Naming the columns changes nothing. -/
theorem columnNames_same {p : Phase} (hh : Backed (Stands b c p) x (h, e)) :
    After h.columnNames e fun _ e' => e' = e := by
  obtain ⟨own, hs, he⟩ := hh
  cases hs with
  | missing => exact After.pure_iff.2 rfl
  | sqlite => exact After.seq (viewStatement_same he) fun _ _ h => After.pure_iff.2 h.2
  | maria => exact After.pure_iff.2 rfl

theorem execute_backed (hx : Connected c x) (hh : Backed (Stands b c .resting) x (h, e)) :
    After (h.execute c).run e fun _ e' => Backed (Stands b c .resting) x (h, e') := by
  cases h with
  | sqlite k => exact Sqlite.execute_backed hx hh
  | maria s => exact Maria.execute_backed hh

theorem beginRows_backed (hh : Backed (Stands b c .resting) x (h, e)) :
    After beginRows.run (h, e) fun r s' => match r with
      | .ok _ => Backed (Stands b c (.reading false)) x s'
      | .error _ => Backed (Stands b c .resting) x s' := by
  unfold beginRows
  refine After.try_bind_iff.2 (After.try_get_iff.2 ?_)
  cases h with
  | sqlite k =>
    refine After.try_object_onEngine_iff.2 <| (Sqlite.rewind_backed hh).mono fun _ e₁ h₁ => ?_
    obtain ⟨own, hs, he⟩ := h₁
    cases hs with
    | missing hb => exact ⟨_, .missing hb, he⟩
    | sqlite hb hc hst hp =>
      obtain rfl := Stage.eq_ready hst hp
      exact ⟨_, .sqlite hb hc rfl rfl, he⟩
  | maria s =>
    exact onClient_iff.2 <| (Maria.beginRows_backed hh).mono fun r s' h' => by cases r <;> exact h'

theorem fetchRow_backed (hx : Connected c x)
    (hh : Backed (Stands b c (.reading false)) x (h, e)) :
    After (h.fetchRow c).run e fun r e' => match r with
      | .ok (some row) =>
        Backed (Stands b c (.reading false)) (Multiset.replicate (b.copies [row]) .cell + x) (h, e')
      | _ => Backed (Stands b c (.reading true)) x (h, e') := by
  cases h with
  | sqlite k => exact Sqlite.fetchRow_backed hx hh
  | maria s =>
    refine (Maria.fetchRow_backed hh).mono fun r e₁ h₁ => ?_
    have hmaria : b = .maria := by
      obtain ⟨own, hs, -⟩ := hh
      cases hs with
      | maria hb => exact hb
    match r with
    | .ok (some row) =>
      subst hmaria
      simpa [Backend.copies] using h₁
    | .ok none | .error _ => exact h₁.mono fun own hs => hs.reading_true

theorem endRows_backed {p : Phase} (hh : Backed (Stands b c p) x (h, e)) :
    After h.endRows e fun h' e' => Backed (Stands b c .resting) x (h', e') := by
  cases h with
  | sqlite k => exact After.seq (Sqlite.rewind_backed hh) fun _ _ h₁ => After.pure_iff.2 h₁
  | maria s =>
    exact After.seq (Maria.endRows_backed hh) fun _ _ h₁ => After.pure_iff.2 h₁.1

theorem bind_backed {type : ValueType} {slot : Nat} {v : Value} (hx : Connected c x)
    (hh : Backed (Stands b c .resting) x (h, e)) :
    After (bind type slot v).run (h, e) fun _ s' => Backed (Stands b c .resting) x s' := by
  unfold bind
  refine After.try_bind_iff.2 (After.try_get_iff.2 ?_)
  cases h with
  | sqlite k => exact After.try_object_onTry_iff.2 (Sqlite.bind_backed hx hh)
  | maria s => exact onClient_iff.2 (Maria.bind_backed hh)

end Handle

end SqlAccess
