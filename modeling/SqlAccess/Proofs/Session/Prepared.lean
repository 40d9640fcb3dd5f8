import SqlAccess.Proofs.Binding
import SqlAccess.Proofs.Query.Lists
import SqlAccess.Proofs.Session.Runs

/-!
# Statements and their queries

A statement that a step prepared comes from the query of that step, resolved for the database of the
statement, and that stays so whatever happens later (`Session.Later.fromQuery`).
-/

namespace SqlAccess

namespace Database

variable {s : Database × World}

/-- A statement that is prepared has what its query is resolved to. -/
theorem prepare_resolved {owner : Option Nat} {q : Query} :
    After (prepare owner (some q)).run s fun r s' => ∀ k, r = .ok k →
      s'.1.link = s.1.link ∧ ∃ z, s'.1.statements.find? k = some z ∧
        q.resolve s.1.link.info = .ok z.descriptor := by
  refine prepare_after (fun _ => nofun) fun _ _ descriptor hresolved => After.of_forall ?_
  intro r e s₁ h
  refine ⟨fun _ _ => nofun, fun handle _ k hk => ?_⟩
  cases hk
  refine ⟨?_, _, Table.find?_add_eq_some.2 (.inl ⟨rfl, rfl⟩), hresolved⟩
  change s₁.1.link = s.1.link
  rw [h.database]

end Database

/-- The query that a step prepares, and the handle for the statement. -/
def Step.prepared? : Step → Option (Query × Bytes)
  | .prepare _ (some q) target | .prepareIn _ (some q) target => some (q, target)
  | _ => none

namespace Session

variable {A : Nat → Database → Nat → Statement.Task → Prop} {s s' : Session × World} {n k : Nat}
  {q : Query} {x : Step} {name target : Bytes}

/-- A statement has what a query is resolved to for its database. -/
def FromQuery (q : Query) (n k : Nat) (s : Session) : Prop :=
  ∃ d z, s.opened.find? n = some d ∧ d.statements.find? k = some z ∧
    q.resolve d.link.info = .ok z.descriptor

theorem Tasks.fromQuery (h : Tasks A s s') (hq : FromQuery q n k s.1) : FromQuery q n k s'.1 := by
  obtain ⟨d, z, hd, hk, hz⟩ := hq
  obtain ⟨d', z', hd', hk', hl, halike⟩ := h.alike hd hk
  exact ⟨d', z', hd', hk', hl ▸ halike.descriptor ▸ hz⟩

/-- A statement keeps its query. -/
theorem Later.fromQuery (h : Later s s') (hq : FromQuery q n k s.1) : FromQuery q n k s'.1 := by
  induction h with
  | refl => exact hq
  | step x _ ih => exact (after_tasks x _).fromQuery ih

theorem attemptOn_prepared {owner : Option Nat} :
    After (attemptOn n do return (⟨n, ← Database.prepare owner (some q)⟩ : StatementRef)) s
      fun r s' => ∀ ref, r = .ok ref → FromQuery q ref.database ref.number s'.1 := by
  refine attemptOn_ok fun d hd => ?_
  refine After.try_seq Database.prepare_resolved (fun k b hk => ?_) fun _ _ _ _ => nofun
  refine After.try_pure_iff.2 ?_
  rintro _ ⟨⟩
  obtain ⟨hl, z, hz, hresolved⟩ := hk k rfl
  exact ⟨b.1, z, Table.find?_modify_eq_some.2 (.inl ⟨rfl, d, hd, rfl⟩), hz, hl ▸ hresolved⟩

theorem setStatement_holds {r : Option StatementRef} :
    After (setStatement name r) s fun _ s' => s'.1.statements.find? name = r := by
  have held (s : Session × World) : After (modify fun s : Session =>
      { s with statements := s.statements.update name r } : SessionM Unit) s fun _ s' =>
        s'.1.statements.find? name = r := by
    refine After.modify_iff.2 ?_
    dsimp only
    rw [NameMap.find?_update, if_pos rfl]
  unfold setStatement
  refine After.bind_iff.2 (After.get_iff.2 ?_)
  dsimp only
  split
  · exact After.bind_iff.2 (After.of_forall fun _ s => held s)
  · exact held s

/-- A step that prepared a query has left a statement with it to its handle. -/
theorem step_prepared (hx : x.prepared? = some (q, target)) :
    After (step x) s fun a s' => a.fault = none → ∃ n k,
      s'.1.statements.find? target = some ⟨n, k⟩ ∧ FromQuery q n k s'.1 := by
  have delivered {y : SessionM (Except Fault StatementRef)}
      (hy : After y s fun r s' => ∀ ref, r = .ok ref →
        FromQuery q ref.database ref.number s'.1) :
      After (do deliver (setStatement target) (← y)) s fun a s' => a.fault = none → ∃ n k,
        s'.1.statements.find? target = some ⟨n, k⟩ ∧ FromQuery q n k s'.1 := by
    refine After.seq hy fun r s₁ hr => ?_
    have hput : After (setStatement target r.toOption) s₁ fun _ s₂ =>
        Tasks (fun _ _ _ _ => True) s₁ s₂ := setStatement_does s₁
    refine After.seq (setStatement_holds.and hput) fun _ s₂ ⟨hheld, htasks⟩ =>
      After.pure_iff.2 fun hok => ?_
    cases r with
    | error f => cases hok
    | ok ref => exact ⟨ref.database, ref.number, hheld, htasks.fromQuery (hr ref rfl)⟩
  suffices h : After (carryOut x) s fun r s' => r.fault = none → ∃ n k,
      s'.1.statements.find? target = some ⟨n, k⟩ ∧ FromQuery q n k s'.1 from h
  cases x with
  | prepare name query target' =>
    cases query with
    | none => cases hx
    | some q' =>
      cases hx
      exact delivered <| withDatabase_cases (fun _ _ => nofun) fun _ _ => attemptOn_prepared
  | prepareIn name query target' =>
    cases query with
    | none => cases hx
    | some q' =>
      cases hx
      exact delivered <| withTransaction_cases (fun _ _ => nofun) fun _ _ => attemptOn_prepared
  | _ => cases hx

/-- A statement was prepared from a query by an earlier step. -/
def PreparedFrom (q : Query) (n k : Nat) (s : Session × World) : Prop :=
  ∃ s₀ x target, Reachable s₀ ∧ Step.prepared? x = some (q, target) ∧
    After (step x) s₀ fun a s₁ => a.fault = none ∧
      s₁.1.statements.find? target = some ⟨n, k⟩ ∧ Later s₁ s

namespace PreparedFrom

theorem reachable (h : PreparedFrom q n k s) : Reachable s := by
  obtain ⟨s₀, x, target, hr, -, -, -, hl⟩ := h
  exact hl.reachable (hr.step x)

theorem fromQuery (h : PreparedFrom q n k s) : FromQuery q n k s.1 := by
  obtain ⟨s₀, x, target, -, hx, hok, hheld, hl⟩ := h
  obtain ⟨n', k', hheld', hq⟩ := step_prepared hx hok
  cases hheld.symm.trans hheld'
  exact hl.fromQuery hq

theorem resolved {d : Database} {z : Statement} (h : PreparedFrom q n k s)
    (hz : OpenAt s.1 n k d z) : q.resolve d.link.info = .ok z.descriptor := by
  obtain ⟨d', z', hd, hk, hresolved⟩ := h.fromQuery
  obtain ⟨rfl, rfl⟩ := hz.eq hd hk
  exact hresolved

end PreparedFrom

/-! ## Resolving parameters -/

section Resolving

variable {d : Database} {z : Statement} {spelled : Bytes} {p : Parameter}

/-- Resolving a name that can be resolved puts the parameter into the handle, and changes nothing
else. -/
theorem step_resolve (hname : s.1.statements.find? name = some ⟨n, k⟩) (hz : OpenAt s.1 n k d z)
    (hp : Parameter.resolve d.link.options.accessors z.descriptor spelled = .ok p) :
    After (step (.resolve name (some spelled) target)) s fun r s' => r.fault = none ∧
      s' = ({ s.1 with parameters := s.1.parameters.insert target ⟨n, k, p⟩ }, s.2) := by
  have hk := (Database.openStatement?_eq_some hz.2).1
  have resolved : After (resolve name (some spelled)) s fun r s' =>
      r = .ok ⟨n, k, p⟩ ∧ s' = s := by
    refine (withStatement_iff hname).2 <| (attemptOn_iff hz.1).2 <| After.try_bind_iff.2 <|
      (Database.onStatement_iff hz.2).2 <| (Statement.parameter_resolved hp).mono ?_
    rintro _ _ ⟨rfl, rfl⟩
    refine After.try_pure_iff.2 ⟨rfl, ?_⟩
    dsimp only
    rw [Table.modify_of_find? hk, Table.modify_of_find? hz.1]
  suffices h : After (carryOut (.resolve name (some spelled) target)) s fun r s' =>
      r.fault = none ∧ s' = ({ s.1 with parameters := s.1.parameters.insert target ⟨n, k, p⟩ }, s.2)
    from h
  refine After.seq resolved ?_
  rintro _ _ ⟨rfl, rfl⟩
  exact After.bind_iff.2 <| After.modify_iff.2 <| After.pure_iff.2 ⟨rfl, rfl⟩

end Resolving

/-- However a query was made, its names are in lower case, and its lists have their elements, with
one type for all of them. On a statement that was prepared from it, and is still open, a list
resolves in any spelling, as long as there is an accessor for that type: the parameter takes as many
values as the list has elements, and the values go to the slots of the elements in their order. -/
theorem lists_resolve {steps : List BuildStep} (hq : Query.MadeBy steps q) :
    q.declarations.Complete ∧ ∀ s n k d z name spelled target size, PreparedFrom q n k s →
      OpenAt s.1 n k d z → s.1.statements.find? name = some ⟨n, k⟩ →
      q.declarations.lists.find? (Name.toLower spelled) = some size → ∃ type,
        (∀ i < elementCount size, q.declarations.parameters.find?
          (elementName (Name.toLower spelled) i) = some type) ∧
        ∀ accessor, d.link.options.accessors type = some accessor →
          After (step (.resolve name (some spelled) target)) s fun r s' => r.fault = none ∧
            ∃ p, s'.1.parameters.find? target = some ⟨n, k, p⟩ ∧
              p.name = Name.toLower spelled ∧ p.isList ∧ p.listSize = elementCount size ∧
              p.destinations = (List.range (elementCount size)).map fun i =>
                ⟨accessor, z.descriptor.slots (elementName (Name.toLower spelled) i)⟩ := by
  refine ⟨hq.complete, fun s n k d z name spelled target size hprepared hz hname hsize => ?_⟩
  obtain ⟨-, type, htype⟩ := hq.complete.elements _ size hsize
  refine ⟨type, htype, fun accessor haccessor => ?_⟩
  obtain ⟨text, -, hcreate⟩ := Query.resolve_eq_ok_iff.1 (hprepared.resolved hz)
  have hdeclarations := Descriptor.declarations_of_create hcreate
  have hp : Parameter.resolve d.link.options.accessors z.descriptor spelled =
      .ok (.ofList z.descriptor (Name.toLower spelled) size accessor) :=
    Parameter.resolve_list (hdeclarations ▸ hsize) (hdeclarations ▸ htype) haccessor
  refine (step_resolve hname hz hp).mono ?_
  rintro r _ ⟨hr, rfl⟩
  refine ⟨hr, _, ?_, rfl, rfl, Parameter.listSize_ofList _ _ _ _, rfl⟩
  dsimp only
  rw [NameMap.find?_insert, if_pos rfl]

/-- A session with a database on which nothing was prepared yet. -/
def listTrial : Session × World :=
  (outcome (run [.connect "d" (some "file") {}]) (start .sqlite "3.40.0" [] [])).2

/-- A list of two, resolved in another spelling, goes to the slots of its elements in each of its
occurrences. -/
theorem list_resolves_anywhere :
    let steps : List BuildStep :=
      [.fallback (some "A IN (:ids) OR B IN (:Ids)"), .list (some "Ids") .int64 2]
    ∃ q, Query.MadeBy steps q ∧ PreparedFrom q 0 0 (after (.prepare "d" (some q) "k") listTrial) ∧
      After (step (.resolve "k" (some "IDS") "p")) (after (.prepare "d" (some q) "k") listTrial)
        fun r s' => r.fault = none ∧ ∃ p, s'.1.parameters.find? "p" = some ⟨0, 0, p⟩ ∧
          p.listSize = 2 ∧ p.destinations.map (·.slots) = [[0, 2], [1, 3]] := by
  intro steps
  let q : Query :=
    { source := .text [] (some "A IN (:ids) OR B IN (:Ids)")
      declarations := .ofList "ids" .int64 2 }
  have hq : Query.MadeBy steps q := .built rfl
  have hstart : Reachable listTrial := (run_later _).reachable (.start .sqlite "3.40.0" [] [])
  refine ⟨q, hq, ?_⟩
  generalize hs : after (.prepare "d" (some q) "k") listTrial = s
  have hname : (s.1.statements.find? "k").map (fun q => (q.database, q.number)) = some (0, 0) := by
    rw [← hs]
    decide +kernel
  have hstate : (s.1.opened.find? 0).bind (fun d => (d.openStatement? 0).map fun z =>
      (d.link.options.accessors .int64, z.descriptor.slots "ids[0]", z.descriptor.slots "ids[1]")) =
      some (some .int64, [0, 2], [1, 3]) := by
    rw [← hs]
    decide +kernel
  have hok : (outcome (step (.prepare "d" (some q) "k")) listTrial).1.fault = none := by
    decide +kernel
  obtain ⟨⟨n, k⟩, hname, heq⟩ := Option.map_eq_some_iff.1 hname
  cases heq
  obtain ⟨d, hd, hstate⟩ := Option.bind_eq_some_iff.1 hstate
  obtain ⟨z, hz, hstate⟩ := Option.map_eq_some_iff.1 hstate
  obtain ⟨haccessor, hfirst, hsecond⟩ : d.link.options.accessors .int64 = some .int64 ∧
      z.descriptor.slots "ids[0]" = [0, 2] ∧ z.descriptor.slots "ids[1]" = [1, 3] := by
    simpa using hstate
  have hprepared : PreparedFrom q 0 0 s :=
    ⟨listTrial, _, "k", hstart, rfl, hok, by rw [← hname, ← hs]; rfl, hs ▸ .refl⟩
  obtain ⟨-, hlists⟩ := lists_resolve hq
  obtain ⟨type, htype, hresolve⟩ := hlists s 0 0 d z "k" "IDS" "p" 2 hprepared ⟨hd, hz⟩ hname rfl
  obtain rfl : ValueType.int64 = type := Option.some.inj (htype 0 (by decide))
  refine ⟨hprepared, (hresolve .int64 haccessor).mono ?_⟩
  rintro r s' ⟨hr, p, hp, -, -, hsize, hdestinations⟩
  refine ⟨hr, p, hp, hsize, ?_⟩
  rw [hdestinations]
  exact congrArg₂ (fun a b => [a, b]) hfirst hsecond

end Session

end SqlAccess
