import SqlAccess.Proofs.Holdings.Statement
import SqlAccess.Proofs.Refusals

/-!
# Setting parameters

A statement is not run while another transaction is open in its own one, but its parameters can be
set: that asks for nothing but whether the statement is open, and is done to the statement as if it
were alone (`Session.binding_unguarded`). So it closes the cursor of the statement, too.
-/

namespace SqlAccess

/-- A parameter that takes one value goes to one place. -/
theorem Parameter.destinations_of_resolve {accessors : Accessors} {d : Descriptor} {name : Bytes}
    {p : Parameter} (h : Parameter.resolve accessors d name = .ok p) (hlist : p.isList = false) :
    ∃ destination, p.destinations = [destination] := by
  unfold Parameter.resolve at h
  dsimp only at h
  cases hl : d.declarations.lists.find? (Name.toLower name) with
  | none =>
    rw [hl] at h
    cases hr : Destination.resolve accessors d name (Name.toLower name) with
    | error f => simp [hr, bind, Except.bind] at h
    | ok destination =>
      simp only [hr, bind, Except.bind, pure, Except.pure, Except.ok.injEq] at h
      exact ⟨destination, by rw [← h]⟩
  | some size =>
    simp only [hl, bind, Except.bind, pure, Except.pure] at h
    split at h
    · cases h
    · cases h
      cases hlist

namespace Statement

variable {z : Statement} {w : World} {l : Link} {p : Parameter}

/-- Setting a value closes all cursors of a statement that knows them. -/
theorem write_closes (htidy : ∀ m c, z.cursors.find? m = some c → z.current = some m)
    (destination : Destination) (v : Value) :
    After (write l [(destination, v)]).run (z, w) fun _ a => ∀ m, a.1.cursors.find? m = none := by
  refine After.try_keep (After.try_keep ?_ fun _ a ha => ?_) fun _ _ ha => After.try_pure_iff.2 ha
  · refine (closeCurrent_after htidy).mono fun _ a ha m => ?_
    refine Option.eq_none_iff_forall_ne_some.2 fun c hc => ?_
    exact (ha.1.cursors m c hc).2 trivial
  · exact After.try_forM (I := fun a : Statement × World => ∀ m, a.1.cursors.find? m = none)
      (fun _ _ ha => onHandle_iff.2 (After.of_forall fun _ _ => ha)) ha

theorem bind_closes {spelled : Bytes} {v : Value}
    (htidy : ∀ m c, z.cursors.find? m = some c → z.current = some m)
    (hp : Parameter.resolve l.options.accessors z.descriptor spelled = .ok p)
    (hlist : p.isList = false) :
    After (bind (some spelled) v l).run (z, w) fun _ a => ∀ m, a.1.cursors.find? m = none := by
  obtain ⟨destination, hdest⟩ := Parameter.destinations_of_resolve hp hlist
  refine After.try_seq (parameter_resolved hp) ?_ ?_
  · rintro q _ ⟨hq, rfl⟩
    obtain rfl : q = p := Except.ok.inj hq
    have hassign : q.assign v = .ok [(destination, v)] := by
      simp [Parameter.assign, hlist, hdest]
    refine After.try_bind_iff.2 (After.ofResult_iff.2 ?_)
    rw [hassign]
    exact write_closes htidy destination v
  · rintro _ _ ⟨hq, -⟩
    cases hq

end Statement

namespace Session

variable {α : Type} {s : Session × World} {x : Step} {n k t child : Nat} {name : Bytes}
  {d : Database} {z : Statement}

/-- A session with something else in place of a statement. -/
def withStatementAt (s : Session) (n k : Nat) (d : Database) (z : Statement) : Session :=
  { s with opened := s.opened.modify n fun _ =>
      { d with statements := d.statements.modify k fun _ => z } }

theorem cursor?_withStatementAt {z' : Statement} {m : Nat} (hz : OpenAt s.1 n k d z) :
    (s.1.withStatementAt n k d z').cursor? ⟨n, k, m⟩ = z'.cursors.find? m := by
  have hk := (Database.openStatement?_eq_some hz.2).1
  simp [cursor?, statement?, withStatementAt, Table.find?_modify, hz.1, hk]

/-- The statement that a step sets a parameter of, and what is done to it. -/
def binding? (s : Session) : Step → Option (StatementRef × (Link → Op Statement Unit))
  | .bind name p v => (s.statements.find? name).map fun q => (q, Statement.bind p v)
  | .bindList name p vs => (s.statements.find? name).map fun q => (q, Statement.bindList p vs)
  | .assign name v => (s.parameters.find? name).map fun r =>
      (⟨r.database, r.statement⟩, Statement.assign r.parameter v)
  | .assignList name vs => (s.parameters.find? name).map fun r =>
      (⟨r.database, r.statement⟩, Statement.assignList r.parameter vs)
  | _ => none

theorem OpenAt.onStatement_iff {y : Link → Op Statement α}
    {Q : Except Fault α → Session × World → Prop} (hz : OpenAt s.1 n k d z)
    (hname : s.1.statements.find? name = some ⟨n, k⟩) :
    After (onStatement name y) s Q ↔ After (y d.link).run (z, s.2) fun r b =>
      Q r (s.1.withStatementAt n k d b.1, b.2) := by
  rw [onStatement, withStatement_iff hname, attemptOn_iff hz.1, Database.onStatement_iff hz.2]
  rfl

theorem OpenAt.onParameter_iff {y : Parameter → Link → Op Statement Unit} {p : Parameter}
    {Q : Except Fault Unit → Session × World → Prop} (hz : OpenAt s.1 n k d z)
    (hname : s.1.parameters.find? name = some ⟨n, k, p⟩) :
    After (onParameter name y) s Q ↔ After (y p d.link).run (z, s.2) fun r b =>
      Q r (s.1.withStatementAt n k d b.1, b.2) := by
  rw [Session.onParameter_iff hname, attemptOn_iff hz.1, Database.onStatement_iff hz.2]
  rfl

/-- Setting a parameter is done to an open statement alone. -/
theorem step_of_binding {y : Link → Op Statement Unit} (hx : s.1.binding? x = some (⟨n, k⟩, y))
    (hz : OpenAt s.1 n k d z) : After (y d.link).run (z, s.2) fun r b =>
      After (step x) s fun a s' =>
        a.toReply = .plain r ∧ s' = (s.1.withStatementAt n k d b.1, b.2) := by
  generalize hout : outcome (y d.link).run (z, s.2) = out
  suffices After (carryOut x) s fun a s' =>
      a = .plain out.1 ∧ s' = (s.1.withStatementAt n k d out.2.1, out.2.2) by
    rw [After, hout]
    exact this
  have ran : After (y d.link).run (z, s.2) fun r b => r = out.1 ∧ b = out.2 := by
    rw [After, hout]
    exact ⟨rfl, rfl⟩
  have replied (r : Except Fault Unit) (b : Statement × World) (h : r = out.1 ∧ b = out.2) :
      After (pure (Reply.plain r) : SessionM Reply) (s.1.withStatementAt n k d b.1, b.2)
        fun a s' => a = .plain out.1 ∧ s' = (s.1.withStatementAt n k d out.2.1, out.2.2) := by
    rw [h.1, h.2]
    exact After.pure_iff.2 ⟨rfl, rfl⟩
  cases x with
  | bind name p v | bindList name p vs =>
    obtain ⟨q, hname, hq⟩ := Option.map_eq_some_iff.1 hx
    cases hq
    exact After.bind_iff.2 ((hz.onStatement_iff hname).2 (ran.mono replied))
  | assign name v | assignList name vs =>
    obtain ⟨⟨n', k', p⟩, hname, hq⟩ := Option.map_eq_some_iff.1 hx
    cases hq
    exact After.bind_iff.2 ((hz.onParameter_iff hname).2 (ran.mono replied))
  | _ => cases hx

/-- While another transaction is open in that of a statement, the statement is not run, but setting
its parameters is not refused: whatever comes of setting them on the statement alone, with neither
its transaction nor its database to ask, is what the step comes to. It closes every cursor of the
statement if the parameter is one that takes a value. -/
theorem binding_unguarded (hr : Reachable s) (hz : OpenAt s.1 n k d z) (howner : z.owner = some t)
    (hc : d.openChild? t = some child) :
    (∀ x name writes, runOf? x = some (name, writes) → s.1.statements.find? name = some ⟨n, k⟩ →
      After (step x) s fun a s' => (∃ f, a.fault = some f ∧ f.kind = .misuse) ∧
        s' = (outcome (vacate x) s).2) ∧
    (∀ x y, s.1.binding? x = some (⟨n, k⟩, y) → After (y d.link).run (z, s.2) fun r b =>
      After (step x) s fun a s' =>
        a.toReply = .plain r ∧ s' = (s.1.withStatementAt n k d b.1, b.2)) ∧
    ∀ name spelled p v, s.1.statements.find? name = some ⟨n, k⟩ →
      Parameter.resolve d.link.options.accessors z.descriptor spelled = .ok p → p.isList = false →
      After (step (.bind name (some spelled) v)) s fun _ s' => ∀ m,
        s'.1.cursor? ⟨n, k, m⟩ = none := by
  refine ⟨fun x name writes hx hname => ?_, fun x y hx => step_of_binding hx hz,
    fun name spelled p v hname hp hlist => ?_⟩
  · refine (refused_unchanged hr (.ownerShadowed hx hname hz howner hc)).mono ?_
    rintro a s' ⟨hf, hs', -⟩
    exact ⟨hf, hs'⟩
  · have hbinding : s.1.binding? (.bind name (some spelled) v) =
        some (⟨n, k⟩, Statement.bind (some spelled) v) := by simp [binding?, hname]
    have hk := (Database.openStatement?_eq_some hz.2).1
    have htidy := ((hr.sound.database n d hz.1).sane k z hk).tidy
    have hclosed := Statement.bind_closes (l := d.link) (w := s.2) (v := v)
      (fun m c hm => (htidy m c hm).2) hp hlist
    have hstep := (step_of_binding hbinding hz).and hclosed
    refine After.mono hstep.1 ?_
    rintro a s' ⟨-, rfl⟩ m
    rw [cursor?_withStatementAt hz]
    exact hstep.2 m

/-- A session in which a statement was queried, and another transaction was begun in its own one. -/
def bindingTrial : Session × World :=
  let query : Query :=
    { source := .text [] (some "A :p"), declarations := { parameters := .ofList [("p", .int64)] } }
  (outcome (run [.connect "d" (some "file") {}, .begin "d" "t", .prepareIn "t" (some query) "k",
    .query "k" "c", .nest "t" "u"]) (start .sqlite "3.40.0" [] [])).2

/-- The statement cannot be run then, but setting its parameter closes its cursor. -/
theorem bound_while_nested :
    (bindingTrial.1.cursor? ⟨0, 0, 0⟩).isSome ∧
      After (step (.update "k")) bindingTrial (fun a s' =>
        (∃ f, a.fault = some f ∧ f.kind = .misuse) ∧ s' = bindingTrial) ∧
      After (step (.bind "k" (some "p") (.int64 7))) bindingTrial fun a s' =>
        a.fault = none ∧ s'.1.cursor? ⟨0, 0, 0⟩ = none := by
  have hr : Reachable bindingTrial := (run_later _).reachable (.start .sqlite "3.40.0" [] [])
  have hname : (bindingTrial.1.statements.find? "k").map (fun q => (q.database, q.number)) =
      some (0, 0) := by decide +kernel
  have hstate : (bindingTrial.1.opened.find? 0).bind (fun d => (d.openStatement? 0).map fun z =>
      (z.owner, d.openChild? 0,
        (Parameter.resolve d.link.options.accessors z.descriptor "p").toOption.map (·.isList))) =
      some (some 0, some 1, some false) := by decide +kernel
  have hbound : (outcome (step (.bind "k" (some "p") (.int64 7))) bindingTrial).1.fault = none := by
    decide +kernel
  obtain ⟨⟨n, k⟩, hname, hq⟩ := Option.map_eq_some_iff.1 hname
  cases hq
  obtain ⟨d, hd, hstate⟩ := Option.bind_eq_some_iff.1 hstate
  obtain ⟨z, hz, hstate⟩ := Option.map_eq_some_iff.1 hstate
  obtain ⟨howner, hc, hp⟩ : z.owner = some 0 ∧ d.openChild? 0 = some 1 ∧
      (Parameter.resolve d.link.options.accessors z.descriptor "p").toOption.map (·.isList) =
        some false := by simpa using hstate
  obtain ⟨p, hp, hlist⟩ := Option.map_eq_some_iff.1 hp
  have hp : Parameter.resolve d.link.options.accessors z.descriptor "p" = .ok p := by
    cases hres : Parameter.resolve d.link.options.accessors z.descriptor "p" with
    | error f => simp [hres, Except.toOption] at hp
    | ok p' => simpa [hres, Except.toOption] using hp
  obtain ⟨hruns, -, hbinds⟩ := binding_unguarded hr ⟨hd, hz⟩ howner hc
  refine ⟨by decide +kernel, ?_, After.and hbound ?_⟩
  · refine (hruns (.update "k") "k" true rfl hname).mono ?_
    rintro a s' ⟨hf, hs'⟩
    exact ⟨hf, hs'.trans (vacate_of_vacant trivial)⟩
  · exact (hbinds "k" "p" p (.int64 7) hname hp hlist).mono fun _ _ h => h 0

end Session

end SqlAccess
