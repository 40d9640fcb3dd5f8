import SqlAccess.Action

/-!
# What holds after an action

The actions of the library live in a stack of state monads over an engine. `outcome x s` is what
the action `x` answers when it is started in `s`, with the state it leaves behind; where the
monad stacks several states, `s` is the pair of the upper one and the rest. `After x s Q` says
that `Q` holds of them. An action that may fail is run first, so it answers a result.

The lemmas carry an action out one instruction at a time, so that a statement about an operation
follows from those about the operations that it uses (`After.mono`), and no proof looks into a
monad.
-/

namespace SqlAccess

/-- Monads whose actions answer something and change a state. -/
class Stateful (m : Type → Type) (σ : outParam Type) [Monad m] where
  /-- The answer of an action, and the state after it. -/
  outcome {α : Type} : m α → σ → α × σ
  outcome_pure {α : Type} (a : α) (s : σ) : outcome (pure a : m α) s = (a, s)
  outcome_bind {α β : Type} (x : m α) (f : α → m β) (s : σ) :
    outcome (x >>= f) s = outcome (f (outcome x s).1) (outcome x s).2

export Stateful (outcome outcome_pure outcome_bind)

instance {σ : Type} : Stateful (StateT σ Id) σ where
  outcome x s := x.run s
  outcome_pure _ _ := rfl
  outcome_bind _ _ _ := rfl

instance {m : Type → Type} {σ τ : Type} [Monad m] [Stateful m σ] :
    Stateful (StateT τ m) (τ × σ) where
  outcome x s :=
    let r := outcome (x.run s.1) s.2
    (r.1.1, r.1.2, r.2)
  outcome_pure a s := by simp [outcome_pure]
  outcome_bind x f s := by simp [outcome_bind]

variable {m : Type → Type} {σ τ α β : Type} [Monad m] [Stateful m σ]

/-- After the action `x` is started in `s`, its answer and the state satisfy `Q`. -/
def After (x : m α) (s : σ) (Q : α → σ → Prop) : Prop := Q (outcome x s).1 (outcome x s).2

namespace After

theorem mono {x : m α} {s : σ} {P Q : α → σ → Prop} (h : After x s P)
    (hPQ : ∀ a s', P a s' → Q a s') : After x s Q := hPQ _ _ h

/-- What holds whatever is answered. -/
theorem of_forall {x : m α} {s : σ} {Q : α → σ → Prop} (h : ∀ a s', Q a s') : After x s Q := h _ _

@[simp] theorem pure_iff {a : α} {s : σ} {Q : α → σ → Prop} :
    After (pure a : m α) s Q ↔ Q a s := by rw [After, outcome_pure]

@[simp] theorem bind_iff {x : m α} {f : α → m β} {s : σ} {Q : β → σ → Prop} :
    After (x >>= f) s Q ↔ After x s fun a s' => After (f a) s' Q := by
  simp only [After, outcome_bind]

/-- An action that changes nothing. -/
theorem of_same {x : m α} {s : σ} {Q : α → σ → Prop} (h : After x s fun _ s' => s' = s)
    (hQ : ∀ a, Q a s) : After x s Q :=
  h.mono fun a _ he => he ▸ hQ a

theorem and {x : m α} {s : σ} {P Q : α → σ → Prop} (hP : After x s P) (hQ : After x s Q) :
    After x s fun a s' => P a s' ∧ Q a s' := ⟨hP, hQ⟩

/-- What holds after an action carries over to the one that follows. -/
theorem seq {x : m α} {f : α → m β} {s : σ} {P : α → σ → Prop} {Q : β → σ → Prop}
    (hx : After x s P) (hf : ∀ a s', P a s' → After (f a) s' Q) : After (x >>= f) s Q :=
  bind_iff.2 (hx.mono hf)

@[simp] theorem map_iff [LawfulMonad m] {f : α → β} {x : m α} {s : σ} {Q : β → σ → Prop} :
    After (f <$> x) s Q ↔ After x s fun a s' => Q (f a) s' := by
  rw [map_eq_pure_bind, bind_iff]
  simp only [pure_iff]

/-! ## State -/

@[simp] theorem run_iff {x : StateT τ m α} {t : τ} {s : σ} {Q : α × τ → σ → Prop} :
    After (x.run t) s Q ↔ After x (t, s) fun a s' => Q (a, s'.1) s'.2 := Iff.rfl

@[simp] theorem get_iff {s : τ × σ} {Q : τ → τ × σ → Prop} :
    After (getThe τ : StateT τ m τ) s Q ↔ Q s.1 s :=
  pure_iff (m := m) (a := (s.1, s.1)) (Q := fun r s' => Q r.1 (r.2, s'))

@[simp] theorem set_iff {t : τ} {s : τ × σ} {Q : PUnit → τ × σ → Prop} :
    After (set t : StateT τ m PUnit) s Q ↔ Q ⟨⟩ (t, s.2) :=
  pure_iff (m := m) (a := (PUnit.unit, t)) (Q := fun r s' => Q r.1 (r.2, s'))

@[simp] theorem modify_iff {f : τ → τ} {s : τ × σ} {Q : PUnit → τ × σ → Prop} :
    After (modify f : StateT τ m PUnit) s Q ↔ Q ⟨⟩ (f s.1, s.2) :=
  pure_iff (m := m) (a := (PUnit.unit, f s.1)) (Q := fun r s' => Q r.1 (r.2, s'))

@[simp] theorem lift_iff {x : m α} {s : τ × σ} {Q : α → τ × σ → Prop} :
    After (liftM x : StateT τ m α) s Q ↔ After x s.2 fun a s' => Q a (s.1, s') := by
  change After (x >>= fun a => pure (a, s.1)) s.2 (fun r s' => Q r.1 (r.2, s')) ↔ _
  simp only [bind_iff, pure_iff]

@[simp] theorem base_get_iff {s : σ} {Q : σ → σ → Prop} :
    After (get : StateM σ σ) s Q ↔ Q s s := Iff.rfl

@[simp] theorem base_modify_iff {f : σ → σ} {s : σ} {Q : PUnit → σ → Prop} :
    After (modify f : StateM σ PUnit) s Q ↔ Q ⟨⟩ (f s) := Iff.rfl

@[simp] theorem base_modifyGet_iff {f : σ → α × σ} {s : σ} {Q : α → σ → Prop} :
    After (modifyGet f : StateM σ α) s Q ↔ Q (f s).1 (f s).2 := Iff.rfl

/-! ## Failure -/

section Failure

variable {Q : Except Fault α → σ → Prop}

/-- An action goes on unless it has failed. -/
theorem try_bind_iff {x : ExceptT Fault m β} {f : β → ExceptT Fault m α} {s : σ} :
    After (x >>= f).run s Q ↔ After x.run s fun r s' => match r with
      | .ok a => After (f a).run s' Q
      | .error e => Q (.error e) s' := by
  rw [ExceptT.run_bind, bind_iff]
  simp only [After]
  cases (outcome x.run s).1
  · rw [outcome_pure]
  · rfl

theorem try_seq {x : ExceptT Fault m β} {f : β → ExceptT Fault m α} {s : σ}
    {P : Except Fault β → σ → Prop} (hx : After x.run s P)
    (hok : ∀ a s', P (.ok a) s' → After (f a).run s' Q)
    (herror : ∀ e s', P (.error e) s' → Q (.error e) s') : After (x >>= f).run s Q := by
  refine try_bind_iff.2 (hx.mono fun r s' h => ?_)
  cases r with
  | ok a => exact hok a s' h
  | error e => exact herror e s' h

/-- What holds of the state however an action ends is kept if the next action keeps it. -/
theorem try_keep {x : ExceptT Fault m β} {f : β → ExceptT Fault m α} {s : σ} {I : σ → Prop}
    (hx : After x.run s fun _ s' => I s')
    (hf : ∀ a s', I s' → After (f a).run s' fun _ s'' => I s'') :
    After (x >>= f).run s fun _ s' => I s' :=
  try_seq hx hf fun _ _ h => h

theorem try_forM {l : List β} {f : β → ExceptT Fault m PUnit} {I : σ → Prop}
    (hf : ∀ b s, I s → After (f b).run s fun _ s' => I s') {s : σ} (hs : I s) :
    After (l.forM f).run s fun _ s' => I s' := by
  induction l generalizing s with
  | nil => exact pure_iff.2 hs
  | cons b l ih => exact try_keep (hf b s hs) fun _ _ h => ih h

@[simp] theorem try_pure_iff {a : α} {s : σ} :
    After (pure a : ExceptT Fault m α).run s Q ↔ Q (.ok a) s := pure_iff

@[simp] theorem throw_iff {f : Fault} {s : σ} :
    After (throw f : ExceptT Fault m α).run s Q ↔ Q (.error f) s := pure_iff

/-- An action fails with the fault that there is, if there is one. -/
theorem try_fault {f : Option Fault} {a : α} {s : σ} (hnone : f = none → Q (.ok a) s)
    (hsome : ∀ g, f = some g → Q (.error g) s) : After (ExceptT.run do
      match f with
      | some g => throw g
      | none => return a : m (Except Fault α)) s Q := by
  cases f with
  | none => exact try_pure_iff.2 (hnone rfl)
  | some g => exact throw_iff.2 (hsome g rfl)

@[simp] theorem mk_iff {x : m (Except Fault α)} {s : σ} :
    After (ExceptT.run (ExceptT.mk x)) s Q ↔ After x s Q := Iff.rfl

variable [LawfulMonad m]

@[simp] theorem try_lift_iff {x : m α} {s : σ} :
    After (liftM x : ExceptT Fault m α).run s Q ↔ After x s fun a s' => Q (.ok a) s' := by
  change After (Except.ok <$> x) s Q ↔ _
  rw [map_iff]

@[simp] theorem try_get_iff {s : τ × σ} {Q : Except Fault τ → τ × σ → Prop} :
    After (getThe τ : ExceptT Fault (StateT τ m) τ).run s Q ↔ Q (.ok s.1) s := by
  change After (liftM (getThe τ : StateT τ m τ) : ExceptT Fault (StateT τ m) τ).run s Q ↔ _
  rw [try_lift_iff, get_iff]

@[simp] theorem try_set_iff {t : τ} {s : τ × σ} {Q : Except Fault PUnit → τ × σ → Prop} :
    After (set t : ExceptT Fault (StateT τ m) PUnit).run s Q ↔ Q (.ok ⟨⟩) (t, s.2) := by
  change After (liftM (set t : StateT τ m PUnit) : ExceptT Fault (StateT τ m) PUnit).run s Q ↔ _
  rw [try_lift_iff, set_iff]

@[simp] theorem try_modify_iff {f : τ → τ} {s : τ × σ} {Q : Except Fault PUnit → τ × σ → Prop} :
    After (modify f : ExceptT Fault (StateT τ m) PUnit).run s Q ↔ Q (.ok ⟨⟩) (f s.1, s.2) := by
  change After (liftM (modify f : StateT τ m PUnit) : ExceptT Fault (StateT τ m) PUnit).run s Q ↔ _
  rw [try_lift_iff, modify_iff]

/-- What holds after an action that cannot fail carries over to the one that follows. -/
theorem try_call {x : m β} {f : β → ExceptT Fault m α} {s : σ} {P : β → σ → Prop}
    (hx : After x s P) (hf : ∀ a s', P a s' → After (f a).run s' Q) :
    After (liftM x >>= f).run s Q :=
  try_bind_iff.2 (try_lift_iff.2 (hx.mono hf))

end Failure

/-! ## The layers of the library -/

section Layers

@[simp] theorem onEngine_iff {x : EngineM α} {w : World} {Q : α → World → Prop} :
    After (liftM x : Act α) w Q ↔ After x w.engine fun a e => Q a { w with engine := e } :=
  Iff.rfl

/-- Writing to the log leaves the engine alone. -/
theorem writeLog_still {sink : LogSink} {level : LogLevel} {text : Bytes} {w : World} :
    After (writeLog sink level text) w fun _ w' => w'.engine = w.engine := rfl

theorem keepFirst_still {sink : LogSink} {note : Bytes} {first next : Except Fault Unit}
    {w : World} : After (keepFirst sink note first next) w fun _ w' => w'.engine = w.engine := by
  unfold keepFirst
  split <;> rfl

@[simp] theorem object_onEngine_iff {x : EngineM α} {s : τ × World} {Q : α → τ × World → Prop} :
    After (liftM x : StateT τ Act α) s Q ↔
      After x s.2.engine fun a e => Q a (s.1, { s.2 with engine := e }) := Iff.rfl

@[simp] theorem try_object_onEngine_iff {x : EngineM α} {s : τ × Engine}
    {Q : Except Fault α → τ × Engine → Prop} :
    After (liftM x : ExceptT Fault (StateT τ EngineM) α).run s Q ↔
      After x s.2 fun a e => Q (.ok a) (s.1, e) := Iff.rfl

@[simp] theorem try_object_onTry_iff {x : EngineTry α} {s : τ × Engine}
    {Q : Except Fault α → τ × Engine → Prop} :
    After (liftM x : ExceptT Fault (StateT τ EngineM) α).run s Q ↔
      After x.run s.2 fun r e => Q r (s.1, e) := Iff.rfl

variable {s : τ × World} {Q : Except Fault α → τ × World → Prop}

@[simp] theorem op_onEngine_iff {x : EngineM α} :
    After (liftM x : Op τ α).run s Q ↔
      After x s.2.engine fun a e => Q (.ok a) (s.1, { s.2 with engine := e }) := Iff.rfl

@[simp] theorem op_onTry_iff {x : EngineTry α} :
    After (liftM x : Op τ α).run s Q ↔
      After x.run s.2.engine fun r e => Q r (s.1, { s.2 with engine := e }) := Iff.rfl

@[simp] theorem op_onAct_iff {x : Act α} :
    After (liftM x : Op τ α).run s Q ↔ After x s.2 fun a w => Q (.ok a) (s.1, w) := Iff.rfl

@[simp] theorem attempt_iff {x : Op τ α} : After x.attempt s Q ↔ After x.run s Q := Iff.rfl

@[simp] theorem ofResult_iff {r : Except Fault α} :
    After (Op.ofResult r : Op τ α).run s Q ↔ Q r s := Iff.rfl

@[simp] theorem runOn_iff {x : Op τ α} {t : τ} {w : World}
    {Q : Except Fault α × τ → World → Prop} :
    After (x.runOn t) w Q ↔ After x.run (t, w) fun r s => Q (r, s.1) s.2 := Iff.rfl

end Layers

end After

end SqlAccess
