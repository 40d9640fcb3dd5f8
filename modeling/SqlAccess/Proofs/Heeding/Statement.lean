import SqlAccess.Proofs.Preserved.Statement
import SqlAccess.Proofs.Heeding.Backend

/-!
# Statements heed failures

The operations on statements and cursors hand on the failures of the backends. On the way they close
cursors, which only gives something up, and where one fails in the middle of its work it puts things
away before it fails with the fault that it met.
-/

namespace SqlAccess

open Engine

variable {σ τ α β : Type} {W : Call → Prop} {l : Link}

/-! ## Putting operations together -/

section Op

variable {s : σ × World}

theorem heeds_op {x : EngineTry α} (h : Heeds W x.run s.2.engine) :
    Heeds W (liftM x : Op σ α).run s :=
  After.op_onTry_iff.2 h

theorem examines_op {x : EngineTry α} (h : Heeds W x.run s.2.engine) :
    Examines W (liftM x.run : Op σ (Except Fault α)) s :=
  After.op_onEngine_iff.2 <| h.mono fun r _ hg => ⟨r, rfl, hg⟩

theorem Calm.op {x : EngineM α} (hx : Calm W x s.2.engine) : Proceeds W (liftM x : Op σ α) s :=
  After.op_onEngine_iff.2 <| hx.mono fun a _ h => ⟨⟨a, rfl⟩, h⟩

theorem proceeds_set {t : σ} : Proceeds W (set t : Op σ PUnit) s :=
  After.try_set_iff.2 ⟨⟨_, rfl⟩, .refl⟩

theorem proceeds_modify {f : σ → σ} : Proceeds W (modify f : Op σ PUnit) s :=
  After.try_modify_iff.2 ⟨⟨_, rfl⟩, .refl⟩

theorem heeds_get {f : σ → Op σ α} (hf : Heeds W (f s.1).run s) : Heeds W (getThe σ >>= f).run s :=
  After.try_bind_iff.2 (After.try_get_iff.2 hf)

theorem proceeds_writeLog {sink : LogSink} {level : LogLevel} {text : Bytes} :
    Proceeds W (liftM (writeLog sink level text) : Op σ Unit) s :=
  After.op_onAct_iff.2 ⟨⟨_, rfl⟩, .refl⟩

/-- Work on another object is looked at, and its fault is the one that is met. -/
theorem heeds_runOn {x : Op τ α} {t : τ} {f : Except Fault α × τ → Op σ β}
    (hx : Heeds W x.run (t, s.2)) (hok : ∀ a t' s', Heeds W (f (.ok a, t')).run s')
    (herror : ∀ g t' s', Yields W g (f (.error g, t')).run s') :
    Heeds W (liftM (x.runOn t) >>= f).run s := by
  refine After.try_bind_iff.2 <| After.op_onAct_iff.2 <| After.runOn_iff.2 <|
    hx.mono fun r b h => ?_
  cases r with
  | ok a => exact (hok a b.1 _).mono fun _ _ h' => (h.mono fun _ _ => Heeded.of_ok).trans h'
  | error g =>
    refine (herror g b.1 _).mono ?_
    rintro _ s₂ ⟨rfl, h'⟩
    exact (h.mono fun _ _ => Heeded.of_error).trans (h'.mono fun _ _ => Unfailed.heeded)

end Op

/-! ## Cursors -/

theorem Handle.columnNames_calm {h : Handle} {e : Engine} : Calm W h.columnNames e :=
  calm_of_preserves fun _ => preserves_columnNames

theorem Handle.endRows_calm {h : Handle} {e : Engine} : Calm W h.endRows e := by
  unfold endRows
  cases h with
  | sqlite k => exact calm_bind Sqlite.rewind_calm fun _ _ => calm_of_same (After.pure_iff.2 rfl)
  | maria s => exact calm_bind Maria.endRows_calm fun _ _ => calm_of_same (After.pure_iff.2 rfl)

theorem Backend.finalize_calm {b : Backend} {h : Handle} {e : Engine} :
    Calm Call.GivesNothingUp (b.finalize h).run e :=
  calm_of_preserves fun _ => preserves_finalize fun _ _ => Unharmed.admitsRelease

namespace Cursor

variable {h : Handle} {c : Option Nat} {a : Cursor × World}

theorem fetchRows_heeds (n : Nat) : Heeds W (fetchRows h c n).run a := by
  induction n generalizing a with
  | zero => exact heeds_try_pure _
  | succ n ih =>
    unfold fetchRows
    refine heeds_get ?_
    split
    · refine (heeds_op Handle.fetchRow_heeds).bind fun row b => ?_
      cases row with
      | none => exact proceeds_modify.heeds
      | some row => exact proceeds_modify.bind fun _ _ => ih
    · exact heeds_try_pure _

theorem fetchTo_heeds (index : Int) : Heeds W (fetchTo h c index).run a :=
  heeds_get (fetchRows_heeds _)

end Cursor

namespace Statement

variable {a : Statement × World} {n : Nat}

/-! ## Closing -/

/-- What a statement holds is given up without a call that is taken into account. -/
theorem released : Tends (a.2.engine.Unharmed Call.GivesNothingUp) (fun _ => True)
    (fun _ => True) a.1 a :=
  ⟨.refl, ⟨fun _ _ => trivial, fun _ _ _ _ _ _ _ => trivial, fun _ _ _ => trivial, fun _ _ =>
    trivial⟩,
    .refl⟩

theorem closeCursor_calm : Calm Call.GivesNothingUp (closeCursor n l).run a :=
  (closeCursor_tends (fun _ _ => Unharmed.admitsRelease) n released).mono fun _ _ h => h.engine

theorem closeCurrent_calm : Calm Call.GivesNothingUp (closeCurrent l).run a :=
  (closeCurrent_tends (fun _ _ => Unharmed.admitsRelease) released).mono fun _ _ h => h.engine

theorem close_calm : Calm Call.GivesNothingUp (close l) a :=
  (close_tends (fun _ _ => Unharmed.admitsRelease) released).mono fun _ _ h => h.engine

theorem abandonCursor_proceeds : Proceeds Call.GivesNothingUp (abandonCursor n l) a :=
  After.try_bind_iff.2 <| After.try_lift_iff.2 <| After.attempt_iff.2 <|
    closeCursor_calm.mono fun _ _ h => After.try_pure_iff.2 ⟨⟨_, rfl⟩, h⟩

/-! ## Binding -/

theorem onHandle_heeds {x : HandleTry Unit} (hx : ∀ b, Heeds W x.run b) :
    Heeds W (onHandle x).run a := by
  change After x.run (a.1.handle, a.2.engine) fun r o =>
    Grown (Heeded W r) a.2.engine.history o.2.history
  exact hx _

theorem write_heeds {assignments : List (Destination × Value)} :
    Heeds Call.GivesNothingUp (write l assignments).run a := by
  refine heeds_forM fun assignment b => ?_
  obtain ⟨destination, v⟩ := assignment
  exact closeCurrent_calm.heeds.bind fun _ _ => heeds_forM fun slot _ =>
    onHandle_heeds fun _ => Handle.bind_heeds

theorem assign_heeds {p : Parameter} {v : Value} :
    Heeds Call.GivesNothingUp (assign p v l).run a :=
  Heeds.bind (heeds_pure _) fun _ _ => write_heeds

theorem assignList_heeds {p : Parameter} {vs : List Value} :
    Heeds Call.GivesNothingUp (assignList p vs l).run a :=
  Heeds.bind (heeds_pure _) fun _ _ => write_heeds

theorem parameter_heeds {name : Option Bytes} : Heeds W (parameter name l).run a := by
  unfold parameter
  cases name with
  | none => exact heeds_throw _
  | some name => exact heeds_get (heeds_pure _)

theorem bind_heeds {name : Option Bytes} {v : Value} :
    Heeds Call.GivesNothingUp (Statement.bind name v l).run a :=
  parameter_heeds.bind fun _ _ => assign_heeds

theorem bindList_heeds {name : Option Bytes} {vs : List Value} :
    Heeds Call.GivesNothingUp (bindList name vs l).run a :=
  parameter_heeds.bind fun _ _ => assignList_heeds

/-! ## Running -/

theorem putCursor_heeds {cursor : Cursor} : Heeds W (putCursor cursor).run a :=
  heeds_get (proceeds_set.bind fun _ _ => heeds_try_pure _)

theorem query_heeds : Heeds Call.GivesNothingUp (query l).run a := by
  unfold query
  refine closeCurrent_calm.heeds.bind fun _ a₁ => ?_
  refine (onHandle_heeds fun _ => Handle.beginRows_heeds).bind fun _ a₂ => heeds_get ?_
  refine (Calm.op Handle.columnNames_calm).bind fun names a₃ => ?_
  split
  · exact putCursor_heeds
  · exact (Calm.op Handle.endRows_calm).bind fun _ _ => proceeds_set.bind fun _ _ => heeds_throw _

theorem execute_heeds : Heeds Call.GivesNothingUp (execute l).run a := by
  unfold execute
  exact closeCurrent_calm.heeds.bind fun _ _ => heeds_get (heeds_op Handle.execute_heeds)

theorem fetchKeys_heeds {keys : TypeMap} {b : Cursor × World} :
    Heeds Call.GivesNothingUp (fetchKeys l keys).run b := by
  unfold fetchKeys
  refine (heeds_op Backend.prepare_heeds).bind fun own b₁ => proceeds_modify.bind fun _ b₂ => ?_
  refine (Calm.op Handle.columnNames_calm).bind fun names b₃ => ?_
  refine Heeds.bind (heeds_pure _) fun columns b₄ => proceeds_modify.bind fun _ b₅ => ?_
  -- the handle is kept before it is seen whether rows are produced
  refine After.try_bind_iff.2 <| After.op_onEngine_iff.2 <| After.run_iff.2 <|
    (Handle.beginRows_heeds (W := Call.GivesNothingUp) (a := (own, b₅.2.engine))).mono
      fun r o h => ?_
  refine (After.try_bind_iff.2 <| After.try_modify_iff.2 <| After.try_bind_iff.2 <|
    After.ofResult_iff.2 ?_)
  cases r with
  | error f => exact h
  | ok _ =>
    exact (Cursor.fetchTo_heeds 0).mono fun _ _ h' => (h.mono fun _ _ => Heeded.of_ok).trans h'

theorem insert_heeds : Heeds Call.GivesNothingUp (insert l).run a := by
  unfold insert
  refine heeds_get ?_
  dsimp only
  split
  · exact After.try_bind_iff.2 (After.throw_iff.2 .refl)
  · refine execute_heeds.bind fun _ a₁ => ?_
    refine heeds_runOn fetchKeys_heeds (fun _ cursor a₂ => putCursor_heeds) fun f cursor a₂ => ?_
    dsimp only
    split
    · refine (Calm.op (calm_of_preserves fun _ => Backend.preserves_freeRows)).yields fun _ a₃ => ?_
      refine (Calm.op Backend.finalize_calm).yields fun r a₄ => ?_
      cases r with
      | ok _ => exact yields_throw f
      | error g => exact proceeds_writeLog.yields fun _ _ => yields_throw f
    · exact yields_throw f

theorem seek_heeds {offset : Int64} : Heeds Call.GivesNothingUp (seek n offset l).run a := by
  unfold seek
  refine heeds_get ?_
  dsimp only
  split
  · exact heeds_throw _
  · split
    · exact abandonCursor_proceeds.bind fun _ _ => heeds_try_pure _
    · refine heeds_runOn (Cursor.fetchTo_heeds _) (fun _ cursor a₁ => ?_) fun f cursor a₁ => ?_
      · refine proceeds_modify.bind fun _ a₂ => ?_
        dsimp only
        split
        · exact proceeds_modify.bind fun _ _ => heeds_try_pure _
        · exact abandonCursor_proceeds.bind fun _ _ => heeds_try_pure _
      · exact proceeds_modify.yields fun _ _ =>
          abandonCursor_proceeds.yields fun _ _ => yields_throw f

end Statement

end SqlAccess
