import SqlAccess.Proofs.Parameter
import SqlAccess.Proofs.Refusals
import SqlAccess.Proofs.Session.Runs

/-!
# Handles of parameters

A parameter that a handle holds was resolved on its statement, and the statement keeps what it was
prepared from. So the parameter is what its name would resolve to now, however often it was used and
whatever was done in between (`Session.Reachable.resolved`).
-/

namespace SqlAccess

namespace Session

variable {α β : Type} {A : Nat → Database → Nat → Statement.Task → Prop} {s s' : Session × World}
  {n : Nat} {name target : Bytes} {r : ParameterRef}

/-- A parameter is one of its statement. -/
def Resolved (r : ParameterRef) (s : Session) : Prop :=
  ∃ d z, s.opened.find? r.database = some d ∧ d.statements.find? r.statement = some z ∧
    r.parameter.Of d.link.options.accessors z.descriptor

theorem Tasks.resolved (h : Tasks A s s') (hr : Resolved r s.1) : Resolved r s'.1 := by
  obtain ⟨d, z, hd, hk, hp⟩ := hr
  obtain ⟨d', z', hd', hk', hl, halike⟩ := h.alike hd hk
  exact ⟨d', z', hd', hk', hl ▸ halike.descriptor ▸ hp⟩

/-! ## What leaves the handles alone -/

/-- An action leaves the handles of parameters as they are. -/
def Spares (x : SessionM α) : Prop := ∀ s, After x s fun _ s' => s'.1.parameters = s.1.parameters

/-- Whatever is done to a database. -/
theorem spares_onDatabase {otherwise : α} {x : StateT Database Act α} :
    Spares (onDatabase n otherwise x) :=
  fun _ => onDatabase_cases (fun _ => rfl) fun _ _ => After.of_forall fun _ _ => rfl

theorem spares_attemptOn {x : Op Database α} : Spares (attemptOn n x) := spares_onDatabase

theorem spares_course : Course fun s s' => s'.1.parameters = s.1.parameters where
  refl _ := rfl
  trans h h' := h'.trans h
  handles hf := fun s => After.modify_iff.2 (hf s.1).2.2
  log := spares_onDatabase

theorem spares_closes : ClosesAll fun s s' => s'.1.parameters = s.1.parameters where
  database := spares_onDatabase
  transaction := spares_onDatabase
  statement := spares_onDatabase
  cursor := spares_attemptOn

theorem withDatabase_spares {x : Nat → Op Database α} : Spares (withDatabase name x) :=
  fun s => withDatabase_cases (fun _ => rfl) fun _ _ => spares_attemptOn s

theorem withTransaction_spares {x : TransactionRef → Op Database α} :
    Spares (withTransaction name x) :=
  fun s => withTransaction_cases (fun _ => rfl) fun _ _ => spares_attemptOn s

theorem withStatement_spares {x : StatementRef → Op Database α} :
    Spares (withStatement name x) :=
  fun s => withStatement_cases (fun _ => rfl) fun _ _ => spares_attemptOn s

theorem onParameter_spares {x : Parameter → Link → Op Statement Unit} :
    Spares (onParameter name x) :=
  fun s => onParameter_cases (fun _ => rfl) fun _ _ => spares_attemptOn s

theorem onCursor_spares {x : Nat → Link → Op Statement α} : Spares (onCursor name x) :=
  fun s => onCursor_cases (fun _ => rfl) fun _ _ _ => spares_attemptOn s

theorem establish_spares {dsn : Bytes} {options : Options} :
    Spares (establish name dsn options) := by
  intro s
  refine After.bind_iff.2 <| After.get_iff.2 <| After.bind_iff.2 <| After.lift_iff.2 <|
    After.of_forall fun r _ => ?_
  cases r with
  | error f => exact After.pure_iff.2 rfl
  | ok d => exact After.bind_iff.2 <| After.modify_iff.2 <| After.pure_iff.2 rfl

/-! ## Steps -/

/-- What handles of parameters hold is what they held before, or was resolved. -/
def Handed (s s' : Session × World) : Prop :=
  ∀ name r, s'.1.parameters.find? name = some r →
    (∃ other, s.1.parameters.find? other = some r) ∨ Resolved r s'.1

theorem handed_of_eq (h : s'.1.parameters = s.1.parameters) : Handed s s' :=
  fun name _ hr => .inl ⟨name, h ▸ hr⟩

theorem Spares.handed {x : SessionM α} (hx : Spares x) : After x s fun _ s' => Handed s s' :=
  (hx s).mono fun _ _ => handed_of_eq

theorem resolve_resolved {parameter : Option Bytes} :
    After (resolve name parameter) s fun a s' => ∀ r, a = .ok r → Resolved r s'.1 := by
  refine withStatement_cases (fun _ _ => nofun) fun q _ => attemptOn_ok fun d hd => ?_
  refine After.try_bind_iff.2 <| Database.onStatement_cases (fun _ _ => nofun) fun z hz _ => ?_
  cases parameter with
  | none => exact After.throw_iff.2 fun _ => nofun
  | some spelled =>
    refine After.try_bind_iff.2 <| After.try_get_iff.2 <| After.ofResult_iff.2 ?_
    dsimp only
    split
    · next p hp =>
      refine After.try_pure_iff.2 ?_
      rintro _ ⟨⟩
      obtain ⟨-, hof⟩ := Parameter.resolve_eq_ok_iff.1 hp
      exact ⟨_, z, Table.find?_modify_eq_some.2 (.inl ⟨rfl, d, hd, rfl⟩),
        Table.find?_modify_eq_some.2 (.inl ⟨rfl, z, hz, rfl⟩), hof⟩
    · exact fun _ => nofun

/-- A handle that gets a parameter holds that one. -/
theorem setParameter_handed {r : Option ParameterRef} (h : ∀ p, r = some p → Resolved p s.1) :
    After (setParameter target r) s fun _ s' => Handed s s' := by
  refine After.modify_iff.2 fun name p hp => ?_
  dsimp only at hp
  rw [NameMap.find?_update] at hp
  split at hp
  · exact .inr (h p hp)
  · exact .inl ⟨name, hp⟩

theorem drop_handed {h : HandleName} : After (drop h) s fun _ s' => Handed s s' := by
  by_cases hp : ∃ name, h = .parameter name
  · obtain ⟨name, rfl⟩ := hp
    exact setParameter_handed nofun
  · exact Spares.handed (spares_course.drop spares_closes fun name h => absurd ⟨name, h⟩ hp)

/-- A handle that gives what it holds to another one is empty then. -/
theorem move_handed {h : HandleName} : After (move h target) s fun _ s' => Handed s s' := by
  by_cases hp : ∃ name, h = .parameter name
  · obtain ⟨name, rfl⟩ := hp
    refine After.bind_iff.2 (After.get_iff.2 ?_)
    dsimp only
    split
    · refine After.bind_iff.2 <| After.modify_iff.2 <| After.modify_iff.2 fun other p hp => ?_
      dsimp only at hp
      rw [NameMap.find?_erase] at hp
      split at hp
      · cases hp
      · rw [NameMap.find?_update] at hp
        split at hp
        · exact .inl ⟨name, hp⟩
        · exact .inl ⟨other, hp⟩
    · exact After.pure_iff.2 (handed_of_eq rfl)
  · exact Spares.handed (spares_course.move spares_closes fun name _ h => absurd ⟨name, h⟩ hp)

theorem carryOut_handed (x : Step) : After (carryOut x) s fun _ s' => Handed s s' := by
  have plain {α : Type} {y : SessionM α} {f : α → Reply} (hy : Spares y) :
      After (do return f (← y)) s fun _ s' => Handed s s' :=
    Spares.handed (spares_course.reply hy)
  have silent {y : SessionM Unit} (hy : After y s fun _ s' => Handed s s') :
      After (do y; return {} : SessionM Reply) s fun _ s' => Handed s s' :=
    After.seq hy fun _ _ h => After.pure_iff.2 h
  cases x with
  | connect name dsn options =>
    exact plain (spares_course.connect spares_closes fun _ => establish_spares)
  | begin name target =>
    exact Spares.handed (spares_course.deliverTransaction spares_closes withDatabase_spares)
  | nest name target =>
    exact Spares.handed (spares_course.deliverTransaction spares_closes withTransaction_spares)
  | commit name | rollback name | executeOnce name query => exact plain withTransaction_spares
  | rollbackThrough name => exact plain (spares_course.rollbackThrough spares_closes)
  | prepare name query target =>
    exact Spares.handed (spares_course.deliverStatement spares_closes.statement withDatabase_spares)
  | prepareIn name query target =>
    exact Spares.handed
      (spares_course.deliverStatement spares_closes.statement withTransaction_spares)
  | bind name p v | bindList name p vs => exact plain withStatement_spares
  | resolve name p target =>
    refine After.seq ((withStatement_spares s).and resolve_resolved) ?_
    rintro r s₁ ⟨hsame, hr⟩
    have hput : After (setParameter target r.toOption) s₁ fun _ s' => Handed s s' := by
      refine (setParameter_handed fun p hp => hr p ?_).mono fun _ _ h name p hp => ?_
      · cases r with
        | error f => cases hp
        | ok p' => exact congrArg Except.ok (Option.some.inj hp)
      · exact hsame ▸ h name p hp
    exact After.seq hput fun _ _ h => After.pure_iff.2 h
  | assign name v | assignList name vs => exact plain onParameter_spares
  | query name target | insert name target =>
    exact Spares.handed (spares_course.deliverCursor spares_attemptOn withStatement_spares)
  | update name | execute name => exact plain withStatement_spares
  | seek name offset => exact plain onCursor_spares
  | read name column type ifNull | hasColumn name column | inspect h =>
    exact plain spares_course.get
  | close h => exact plain (spares_course.close spares_closes)
  | drop h => exact silent drop_handed
  | move h target => exact silent move_handed

/-- Whatever a handle of a parameter holds is a parameter of its statement. -/
theorem Reachable.resolved (hr : Reachable s) :
    ∀ name r, s.1.parameters.find? name = some r → Resolved r s.1 := by
  induction hr with
  | start => exact fun _ _ => nofun
  | @step s x _ ih =>
    intro name r hname
    have handed : Handed s (after x s) := step_iff.2 (carryOut_handed x)
    obtain ⟨other, hother⟩ | hr := handed name r hname
    · exact (after_tasks x s).resolved (ih other r hother)
    · exact hr

end Session

end SqlAccess
