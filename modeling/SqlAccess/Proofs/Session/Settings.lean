import SqlAccess.Proofs.Session.Parameters
import SqlAccess.Proofs.Session.Prepared
import SqlAccess.Proofs.Setting

/-!
# Where the values of parameters go

A parameter of a statement can be set in four ways: by its name or resolved before, to one value or
to one for each element of a list. What such a step sets is its `Setting` (`Session.setting?`), and
all four come to the same: the values are written to the slots that the setting sends them to, or
nothing is set (`Session.step_of_setting`). `Session.Sets` are such steps one after another, and
what they write is written one after another (`Session.Sets.writes`).

For a statement that was prepared from a query the slots are those that the text of the query gives
to the names (`Session.settings_reach`).
-/

namespace SqlAccess

namespace Statement

variable {z : Statement} {w : World} {l : Link} {p : Parameter} {spelled : Bytes}
  {Q : Except Fault Unit → Statement × World → Prop}

/-- Set slots as a result says, or fail as it does. -/
def writeResult (r : Except Fault (List (Destination × Value))) (l : Link) : Op Statement Unit := do
  write l (← Op.ofResult r)

theorem bind_iff {v : Value} : After (bind (some spelled) v l).run (z, w) Q ↔
    After (writeResult ((Parameter.resolve l.options.accessors z.descriptor spelled).bind
      (·.assign v)) l).run (z, w) Q := by
  simp only [bind, parameter, assign, writeResult, After.try_bind_iff, After.try_get_iff,
    After.ofResult_iff]
  cases Parameter.resolve l.options.accessors z.descriptor spelled <;> rfl

theorem bindList_iff {vs : List Value} : After (bindList (some spelled) vs l).run (z, w) Q ↔
    After (writeResult ((Parameter.resolve l.options.accessors z.descriptor spelled).bind
      (·.assignList vs)) l).run (z, w) Q := by
  simp only [bindList, parameter, assignList, writeResult, After.try_bind_iff, After.try_get_iff,
    After.ofResult_iff]
  cases Parameter.resolve l.options.accessors z.descriptor spelled <;> rfl

end Statement

namespace Session

variable {s s' : Session × World} {x : Step} {n k : Nat} {d d' : Database} {z z' : Statement}
  {st : Setting} {q : Query}

/-- The statement of which a step sets a parameter, and what it sets it to. -/
def setting? (s : Session) : Step → Option (StatementRef × Setting)
  | .bind name (some p) v =>
    (s.statements.find? name).map fun r => (r, .scalar (Name.toLower p) v)
  | .bindList name (some p) vs =>
    (s.statements.find? name).map fun r => (r, .list (Name.toLower p) vs)
  | .assign name v =>
    (s.parameters.find? name).map fun r =>
      (⟨r.database, r.statement⟩, .scalar r.parameter.name v)
  | .assignList name vs =>
    (s.parameters.find? name).map fun r =>
      (⟨r.database, r.statement⟩, .list r.parameter.name vs)
  | _ => none

theorem of_resolved {p : Parameter} (hz : OpenAt s.1 n k d z) (hp : Resolved ⟨n, k, p⟩ s.1) :
    p.Of d.link.options.accessors z.descriptor := by
  obtain ⟨d', z', hd, hk, hof⟩ := hp
  obtain ⟨rfl, rfl⟩ := hz.eq hd hk
  exact hof

/-- What a step does to a statement to set a parameter, by its name or resolved before. -/
theorem exists_binding (hr : Reachable s) (hz : OpenAt s.1 n k d z)
    (hx : s.1.setting? x = some (⟨n, k⟩, st)) :
    ∃ y r, s.1.binding? x = some (⟨n, k⟩, y) ∧
      st.Comes d.link.options.accessors z.descriptor r ∧
      ∀ Q, After (y d.link).run (z, s.2) Q ↔
        After (Statement.writeResult r d.link).run (z, s.2) Q := by
  cases x with
  | bind name p v =>
    cases p with
    | none => cases hx
    | some spelled =>
      obtain ⟨r, hname, heq⟩ := Option.map_eq_some_iff.1 hx
      cases heq
      have hy : s.1.binding? (.bind name (some spelled) v) =
          some (⟨n, k⟩, Statement.bind (some spelled) v) := by simp [binding?, hname]
      exact ⟨_, _, hy, .byName rfl, fun _ => Statement.bind_iff⟩
  | bindList name p vs =>
    cases p with
    | none => cases hx
    | some spelled =>
      obtain ⟨r, hname, heq⟩ := Option.map_eq_some_iff.1 hx
      cases heq
      have hy : s.1.binding? (.bindList name (some spelled) vs) =
          some (⟨n, k⟩, Statement.bindList (some spelled) vs) := by simp [binding?, hname]
      exact ⟨_, _, hy, .byName rfl, fun _ => Statement.bindList_iff⟩
  | assign name v =>
    obtain ⟨⟨n', k', p⟩, hname, heq⟩ := Option.map_eq_some_iff.1 hx
    cases heq
    have hof := of_resolved hz (hr.resolved name _ hname)
    have hy : s.1.binding? (.assign name v) = some (⟨n', k'⟩, Statement.assign p v) := by
      simp [binding?, hname]
    exact ⟨_, _, hy, .resolved hof rfl, fun _ => Iff.rfl⟩
  | assignList name vs =>
    obtain ⟨⟨n', k', p⟩, hname, heq⟩ := Option.map_eq_some_iff.1 hx
    cases heq
    have hof := of_resolved hz (hr.resolved name _ hname)
    have hy : s.1.binding? (.assignList name vs) =
        some (⟨n', k'⟩, Statement.assignList p vs) := by simp [binding?, hname]
    exact ⟨_, _, hy, .resolved hof rfl, fun _ => Iff.rfl⟩
  | _ => cases hx

theorem binding_of_setting (hr : Reachable s) (hz : OpenAt s.1 n k d z)
    (hx : s.1.setting? x = some (⟨n, k⟩, st)) :
    ∃ y r, s.1.binding? x = some (⟨n, k⟩, y) ∧
      st.Yields d.link.options.accessors z.descriptor r ∧
      ∀ Q, After (y d.link).run (z, s.2) Q ↔
        After (Statement.writeResult r d.link).run (z, s.2) Q := by
  obtain ⟨y, r, hy, hcomes, hiff⟩ := exists_binding hr hz hx
  exact ⟨y, r, hy, hcomes.yields, hiff⟩

theorem ok_of_plain {r : Except Fault Unit} (h : (Reply.plain r).fault = none) : r = .ok () := by
  cases r with
  | ok _ => rfl
  | error f => cases h

theorem openAt_withStatementAt (hz : OpenAt s.1 n k d z) (ho : z'.isOpen) :
    OpenAt (s.1.withStatementAt n k d z') n k
      { d with statements := d.statements.modify k fun _ => z' } z' := by
  have hk := (Database.openStatement?_eq_some hz.2).1
  refine ⟨Table.find?_modify_eq_some.2 (.inl ⟨rfl, d, hz.1, rfl⟩), ?_⟩
  have hfind : (d.statements.modify k fun _ => z').find? k = some z' :=
    Table.find?_modify_eq_some.2 (.inl ⟨rfl, z, hk, rfl⟩)
  simp [Database.openStatement?, hfind, ho]

/-- What is left of a statement after a step that is to set a parameter of it. It stays what it is;
if the step succeeds, the values are written to the slots they go to. -/
theorem step_of_setting (hr : Reachable s) (hz : OpenAt s.1 n k d z)
    (hx : s.1.setting? x = some (⟨n, k⟩, st)) : After (step x) s fun a s' =>
      ∃ d' z', OpenAt s'.1 n k d' z' ∧ d'.link = d.link ∧ z'.descriptor = z.descriptor ∧
        (a.fault = none → ∃ ws, Handle.Writes ws (z.handle, s.2.engine) (z'.handle, s'.2.engine) ∧
          Setting.Sends d.link.options.accessors z.descriptor z.handle [st] ws) := by
  obtain ⟨y, r, hy, hyields, hiff⟩ := binding_of_setting hr hz hx
  have hk := (Database.openStatement?_eq_some hz.2)
  have hsane := (hr.sound.database n d hz.1).sane k z hk.1
  have hran : After (y d.link).run (z, s.2) fun r' b =>
      Statement.Goes d.link.connection (z, s.2) b ∧
        (r' = .ok () → ∃ ws, Handle.Writes ws (z.handle, s.2.engine) (Statement.prepared b) ∧
          Setting.Sends d.link.options.accessors z.descriptor z.handle [st] ws) := by
    refine (hiff _).2 <| After.try_bind_iff.2 <| After.ofResult_iff.2 ?_
    cases hr : r with
    | error f => exact ⟨.refl hsane, nofun⟩
    | ok l =>
      exact ((Statement.write_goes hsane).and (Statement.write_writes l)).mono
        fun _ _ ⟨hgoes, hwrites⟩ => ⟨hgoes, fun hok => ⟨_, hwrites hok, hyields.sends hr⟩⟩
  have hstep := (step_of_binding hy hz).and hran
  refine After.mono hstep.1 ?_
  obtain ⟨hgoes, hwrites⟩ := hstep.2
  rintro a s' ⟨ha, rfl⟩
  refine ⟨_, _, openAt_withStatementAt hz (hgoes.open_eq.trans hk.2), rfl, hgoes.stays.descriptor,
    fun hok => hwrites (ok_of_plain (ha ▸ hok))⟩

/-- A setting whose names own no slot is not refused. It fails only if the engine fails to give up
the statement of generated keys. -/
theorem step_of_slotless (hr : Reachable s) (hz : OpenAt s.1 n k d z)
    (hx : s.1.setting? x = some (⟨n, k⟩, st))
    (hready : st.Ready d.link.options.accessors z.descriptor.declarations)
    (hslots : ∀ name v, (name, v) ∈ st.assigned → z.descriptor.slots name = []) :
    After (step x) s fun a s' => a.fault = none ∨
      History.GivingUpFailed s.2.engine.history s'.2.engine.history := by
  obtain ⟨y, r, hy, hyields, hiff⟩ := binding_of_setting hr hz hx
  obtain ⟨l, rfl⟩ := hyields.ready_iff.2 hready
  have hnowhere : ∀ b ∈ l, b.1.slots = [] := by
    intro b hb
    obtain ⟨⟨name, v⟩, hv, ⟨-, -, -, hslot⟩, -⟩ :=
      exists_of_forall₂ (hyields.delivers l rfl).flip hb
    exact hslot.trans (hslots name v hv)
  have hran : After (y d.link).run (z, s.2) fun r a' => r = .ok () ∨
      History.GivingUpFailed s.2.engine.history a'.2.engine.history :=
    (hiff _).2 (Statement.write_succeeds hnowhere)
  have hstep := (step_of_binding hy hz).and hran
  refine After.mono hstep.1 ?_
  rintro a s' ⟨ha, rfl⟩
  refine hstep.2.imp_left fun hok => ?_
  have hplain : a.toReply = .plain (.ok ()) := ha.trans (congrArg Reply.plain hok)
  rw [hplain]
  rfl

/-! ## Setting one parameter after another -/

/-- Steps set parameters of a statement, one after another, and succeed. -/
inductive Sets (n k : Nat) (s : Session × World) : List Setting → Session × World → Prop
  | refl : Sets n k s [] s
  | set {sts : List Setting} {s' : Session × World} {x : Step} {st : Setting} : Sets n k s sts s' →
      s'.1.setting? x = some (⟨n, k⟩, st) → After (step x) s' (fun a _ => a.fault = none) →
      Sets n k s (sts ++ [st]) (after x s')

theorem Sets.later {sts : List Setting} (hs : Sets n k s sts s') : Later s s' := by
  induction hs with
  | refl => exact .refl
  | set _ _ _ ih => exact ih.step _

/-- What is set by steps one after another is written so. -/
theorem Sets.writes {sts : List Setting} (hs : Sets n k s sts s') (hr : Reachable s)
    (hz : OpenAt s.1 n k d z) : ∃ d' z' ws, OpenAt s'.1 n k d' z' ∧ d'.link = d.link ∧
      z'.descriptor = z.descriptor ∧
      Handle.Writes ws (z.handle, s.2.engine) (z'.handle, s'.2.engine) ∧
      Setting.Sends d.link.options.accessors z.descriptor z.handle sts ws := by
  induction hs with
  | refl => exact ⟨d, z, [], hz, rfl, rfl, .refl, .nil⟩
  | @set sts s₁ x st hs hx hok ih =>
    obtain ⟨d₁, z₁, ws, hz₁, hl₁, hd₁, hw, hsends⟩ := ih
    obtain ⟨d₂, z₂, hz₂, hl₂, hd₂, hwrites⟩ := step_of_setting (hs.later.reachable hr) hz₁ hx
    obtain ⟨us, hu, hsent⟩ := hwrites hok
    rw [hl₁, hd₁] at hsent
    have hhandle : Setting.Sends d.link.options.accessors z.descriptor z.handle [st] us :=
      ⟨hsent.ready, hsent.slots, Handle.datum_of_fixed hw.fixed ▸ hsent.data⟩
    exact ⟨d₂, z₂, ws ++ us, hz₂, hl₂.trans hl₁, hd₂.trans hd₁, hw.append hu,
      hsends.append hhandle⟩

end Session

namespace Setting

/-- A setting has reached the slots that a text gives to its names, each with the value as the
accessor of the declared type makes it, and every other slot is as it was. -/
structure Reaches (accessors : Accessors) (declarations : Declarations) (text : Bytes)
    (st : Setting) (b b' : Handle × Engine) : Prop where
  ready : st.Ready accessors declarations
  reached : ∀ name v type accessor, (name, v) ∈ st.assigned →
    declarations.parameters.find? name = some type → accessors type = some accessor →
      ∀ slot, Template.Gives declarations.lists text name slot →
        Handle.Reached b b' slot (b.1.datum accessor v)
  kept : ∀ slot, (∀ name v, (name, v) ∈ st.assigned →
    ¬Template.Gives declarations.lists text name slot) → Handle.held b' slot = Handle.held b slot

theorem Sends.reaches {accessors : Accessors} {d : Descriptor} {text : Bytes} {st : Setting}
    {b b' : Handle × Engine} {ws : List (Nat × Datum)}
    (h : Descriptor.create text d.declarations = .ok d) (hs : Sends accessors d b.1 [st] ws)
    (hw : Handle.Writes ws b b') : st.Reaches accessors d.declarations text b b' := by
  have hst : st ∈ [st] := List.mem_singleton_self st
  have hslots : ws.map (·.1) = (st.assigned.map (·.1)).flatMap d.slots := by
    rw [hs.slots, List.flatMap_singleton]
  refine ⟨hs.ready st hst, fun name v type accessor hv ht ha slot hslot => ?_, fun slot hs => ?_⟩
  · refine hw.reached ?_ _ (hs.data st hst name v type accessor hv ht ha slot ?_)
    · rw [hslots]
      exact Descriptor.slots_nodup st.assigned_nodup
    · exact (Descriptor.mem_slots_iff h).2 hslot
  · refine hw.kept slot fun hmem => ?_
    rw [hslots] at hmem
    obtain ⟨name, hname, hslot⟩ := List.mem_flatMap.1 hmem
    obtain ⟨⟨name, v⟩, hv, rfl⟩ := List.mem_map.1 hname
    exact hs name v hv ((Descriptor.mem_slots_iff h).1 hslot)

end Setting

namespace Session

variable {s : Session × World} {n k : Nat} {d : Database} {z : Statement} {q : Query}

/-- Setting a parameter of a statement, by its name in any spelling or resolved before, reaches the
slots that the text of the query gives to the names of the parameter, and touches no other slot. A
name without slots is set, unless the engine fails to give up a statement. And where each parameter
of the text is set once, what is written are the placeholders of the statement, each of them
once. -/
theorem settings_reach (hp : PreparedFrom q n k s) (hz : OpenAt s.1 n k d z) :
    ∃ text, q.source.textFor d.link.info = .ok text ∧
      Descriptor.create text q.declarations = .ok z.descriptor ∧
      (∀ x st, s.1.setting? x = some (⟨n, k⟩, st) → After (step x) s fun a s' =>
        ∃ d' z', OpenAt s'.1 n k d' z' ∧ (a.fault = none →
          st.Reaches d.link.options.accessors q.declarations text (z.handle, s.2.engine)
            (z'.handle, s'.2.engine))) ∧
      (∀ x st, s.1.setting? x = some (⟨n, k⟩, st) →
        st.Ready d.link.options.accessors q.declarations →
        (∀ name v, (name, v) ∈ st.assigned →
          ∀ slot, ¬Template.Gives q.declarations.lists text name slot) →
        After (step x) s fun a s' => a.fault = none ∨
          History.GivingUpFailed s.2.engine.history s'.2.engine.history) ∧
      ∀ sts s', Sets n k s sts s' → (sts.map Setting.key).Nodup →
        (∀ name, name ∈ sts.map Setting.key ↔
          ∃ p, .parameter p ∈ Template.cut text ∧ name = Name.toLower p) →
        ∃ d' z' ws, OpenAt s'.1 n k d' z' ∧ (ws.map (·.1)).Perm (List.range z.descriptor.count) ∧
          Handle.Writes ws (z.handle, s.2.engine) (z'.handle, s'.2.engine) ∧
          ∀ st ∈ sts, ∀ name v type accessor, (name, v) ∈ st.assigned →
            q.declarations.parameters.find? name = some type →
            d.link.options.accessors type = some accessor →
            ∀ slot, Template.Gives q.declarations.lists text name slot →
              (slot, z.handle.datum accessor v) ∈ ws := by
  have hr := hp.reachable
  obtain ⟨text, htext, hcreate⟩ := Query.resolve_eq_ok_iff.1 (hp.resolved hz)
  have hdeclarations := Descriptor.declarations_of_create hcreate
  have hcreate' : Descriptor.create text z.descriptor.declarations = .ok z.descriptor :=
    hdeclarations ▸ hcreate
  rw [← hdeclarations]
  refine ⟨text, htext, hcreate', fun x st hx => ?_, fun x st hx hready hnone => ?_,
    fun sts s' hs hnodup hkeys => ?_⟩
  · refine (step_of_setting hr hz hx).mono ?_
    rintro a s' ⟨d', z', hz', -, -, hwrites⟩
    refine ⟨d', z', hz', fun hok => ?_⟩
    obtain ⟨ws, hw, hsends⟩ := hwrites hok
    exact hsends.reaches hcreate' hw
  · refine step_of_slotless hr hz hx hready fun name v hv => ?_
    exact List.eq_nil_iff_forall_not_mem.2 fun slot hslot =>
      hnone name v hv slot ((Descriptor.mem_slots_iff hcreate').1 hslot)
  · obtain ⟨d', z', ws, hz', -, -, hw, hsends⟩ := hs.writes hr hz
    refine ⟨d', z', ws, hz', ?_, hw, fun st hst name v type accessor hv ht ha slot hslot => ?_⟩
    · rw [hsends.slots]
      exact Setting.slots_perm hcreate' (fun st hst => (hsends.ready st hst).fits) hnodup hkeys
    · exact hsends.data st hst name v type accessor hv ht ha slot
        ((Descriptor.mem_slots_iff hcreate').2 hslot)

/-- A query with a scalar around a list of two, and a scalar that does not occur. -/
def settingQuery : Query :=
  { source := .text [] (some ":A,:Ids,:a")
    declarations :=
      { parameters := .ofList
          [("a", .int64), ("b", .int64), ("ids[0]", .int64), ("ids[1]", .int64)]
        lists := NameMap.empty.insert "ids" 2 } }

/-- A session with a statement that was prepared from that query. -/
def settingStart (rules : List Rule) : Session × World :=
  after (.prepare "d" (some settingQuery) "k")
    (outcome (run [.connect "d" (some "file") {}]) (start .sqlite "3.40.0" rules [])).2

/-- The session with the list of the statement resolved. -/
def settingTrial (rules : List Rule) : Session × World :=
  after (.resolve "k" (some "IDS") "p") (settingStart rules)

theorem settingTrial_preparedFrom : PreparedFrom settingQuery 0 0 (settingTrial []) := by
  let s₀ := (outcome (run [.connect "d" (some "file") {}]) (start .sqlite "3.40.0" [] [])).2
  have hr : Reachable s₀ := (run_later _).reachable (.start .sqlite "3.40.0" [] [])
  have hok : (outcome (step (.prepare "d" (some settingQuery) "k")) s₀).1.fault = none := rfl
  have hheld : ((settingStart []).1.statements.find? "k").map
      (fun r => (r.database, r.number)) = some (0, 0) := rfl
  obtain ⟨⟨n, k⟩, hname, ⟨⟩⟩ := Option.map_eq_some_iff.1 hheld
  exact ⟨s₀, _, "k", hr, rfl, hok, hname, Later.refl.step _⟩

theorem settingTrial_openAt : ∃ d z, OpenAt (settingTrial []).1 0 0 d z ∧
    d.link.options.accessors .int64 = some .int64 ∧ z.descriptor.count = 4 ∧
      z.descriptor.slots "a" = [0, 3] ∧ z.descriptor.slots "b" = [] := by
  have hstate : ((settingTrial []).1.opened.find? 0).bind (fun d =>
      (d.openStatement? 0).map fun z =>
        (d.link.options.accessors .int64, z.descriptor.count, z.descriptor.slots "a",
          z.descriptor.slots "b")) = some (some .int64, 4, [0, 3], []) := rfl
  obtain ⟨d, hd, hstate⟩ := Option.bind_eq_some_iff.1 hstate
  obtain ⟨z, hz, hstate⟩ := Option.map_eq_some_iff.1 hstate
  exact ⟨d, z, ⟨hd, hz⟩, by simpa using hstate⟩

theorem settingTrial_setting (spelled : Bytes) :
    (settingTrial []).1.setting? (.bind "k" (some spelled) (.int64 7)) =
      some (⟨0, 0⟩, .scalar (Name.toLower spelled) (.int64 7)) := by
  have hk : ((settingTrial []).1.statements.find? "k").map
      (fun r => (r.database, r.number)) = some (0, 0) := rfl
  obtain ⟨⟨n, k⟩, hk, ⟨⟩⟩ := Option.map_eq_some_iff.1 hk
  rw [setting?, hk]
  rfl

/-- The list by its parameter, and then the scalar by its name. -/
theorem settingTrial_sets : ∃ s', Sets 0 0 (settingTrial [])
    [.list "ids" [.int64 8, .int64 9], .scalar "a" (.int64 7)] s' := by
  let x : Step := .assignList "p" [.int64 8, .int64 9]
  let y : Step := .bind "k" (some "A") (.int64 7)
  have hp : ((settingTrial []).1.parameters.find? "p").map
      (fun r => (r.database, r.statement, r.parameter.name)) = some (0, 0, ("ids" : Bytes)) := by
    decide +kernel
  have hk : ((after x (settingTrial [])).1.statements.find? "k").map
      (fun r => (r.database, r.number)) = some (0, 0) := by decide +kernel
  have hx : (settingTrial []).1.setting? x =
      some (⟨0, 0⟩, .list "ids" [.int64 8, .int64 9]) := by
    obtain ⟨⟨n, k, p⟩, hname, hp⟩ := Option.map_eq_some_iff.1 hp
    obtain ⟨rfl, rfl, hkey⟩ : n = 0 ∧ k = 0 ∧ p.name = "ids" := by simpa using hp
    simp [x, setting?, hname, hkey]
  have hy : (after x (settingTrial [])).1.setting? y = some (⟨0, 0⟩, .scalar "a" (.int64 7)) := by
    obtain ⟨⟨n, k⟩, hname, ⟨⟩⟩ := Option.map_eq_some_iff.1 hk
    rw [setting?, hname]
    rfl
  have hokx : (outcome (step x) (settingTrial [])).1.fault = none := by decide +kernel
  have hoky : (outcome (step y) (after x (settingTrial []))).1.fault = none := by decide +kernel
  exact ⟨_, (Sets.refl.set hx hokx).set hy hoky⟩

/-- No call fails in that session when a parameter is set. -/
theorem settingTrial_quiet {spelled : Bytes} (hs : spelled ∈ [("A" : Bytes), "B"]) {e : Event}
    (he : e ∈ (after (.bind "k" (some spelled) (.int64 7)) (settingTrial [])).2.engine.history) :
    ¬e.outcome.isFailure := by
  have hquiet : [("A" : Bytes), "B"].all (fun spelled =>
      (after (.bind "k" (some spelled) (.int64 7)) (settingTrial [])).2.engine.history.all
        fun e => !e.outcome.isFailure) = true := by decide +kernel
  simpa using List.all_eq_true.1 (List.all_eq_true.1 hquiet spelled hs) e he

/-- A rule that lets the next call to set a slot fail with a code that passes for success. -/
def missingRule : Rule :=
  { call := "bind", failure := { code := 256, message := none, noHandle := false } }

/-- The scalar reaches its slots on both sides of the list, and the list keeps its own. A name that
does not occur is set. The list by its parameter and the scalar set each slot once. But a call that
fails with a code that passes for success is missed: the scalar counts as set, and its slot is still
null. -/
theorem set_around_list :
    (∃ d z, OpenAt (settingTrial []).1 0 0 d z ∧
      After (step (.bind "k" (some "A") (.int64 7))) (settingTrial []) (fun a s' => a.fault = none ∧
        ∃ d' z', OpenAt s'.1 0 0 d' z' ∧
          (∀ slot ∈ [0, 3], Handle.held (z'.handle, s'.2.engine) slot =
            some (z.handle.datum .int64 (.int64 7))) ∧
          ∀ slot ∈ [1, 2], Handle.held (z'.handle, s'.2.engine) slot =
            Handle.held (z.handle, (settingTrial []).2.engine) slot) ∧
      After (step (.bind "k" (some "B") (.int64 7))) (settingTrial []) (fun a _ => a.fault = none) ∧
      ∃ s' d' z' ws, Sets 0 0 (settingTrial [])
          [.list "ids" [.int64 8, .int64 9], .scalar "a" (.int64 7)] s' ∧ OpenAt s'.1 0 0 d' z' ∧
        (ws.map (·.1)).Perm (List.range 4) ∧
        Handle.Writes ws (z.handle, (settingTrial []).2.engine) (z'.handle, s'.2.engine)) ∧
    (outcome (step (.bind "k" (some "A") (.int64 7))) (settingTrial [missingRule])).1.fault = none ∧
    (Handle.held (.sqlite (some 1), (after (.bind "k" (some "A") (.int64 7))
      (settingTrial [missingRule])).2.engine) 0).map Datum.sqliteText = some ("null" : Bytes) := by
  refine ⟨?_, by decide +kernel, by decide +kernel⟩
  obtain ⟨d, z, hz, haccessor, hcount, ha, hb⟩ := settingTrial_openAt
  obtain ⟨text, htext, hcreate, hset, hslotless, hsets⟩ :=
    settings_reach settingTrial_preparedFrom hz
  obtain rfl : (":A,:Ids,:a" : Bytes) = text := Except.ok.inj htext
  have hslots {name : Bytes} {slot : Nat} : slot ∈ z.descriptor.slots name ↔
      Template.Gives settingQuery.declarations.lists ":A,:Ids,:a" name slot :=
    Descriptor.mem_slots_iff hcreate
  refine ⟨d, z, hz, ?_, ?_, ?_⟩
  · have hok : (outcome (step (.bind "k" (some "A") (.int64 7))) (settingTrial [])).1.fault =
        none := by decide +kernel
    obtain ⟨d', z', hz', hreaches⟩ := hset _ _ (settingTrial_setting "A")
    refine ⟨hok, d', z', hz', fun slot hslot => ?_, fun slot hslot => ?_⟩
    · refine ((hreaches hok).reached "a" _ .int64 .int64 (List.mem_singleton_self _) rfl haccessor
        slot (hslots.1 (ha ▸ hslot))).resolve_right fun ⟨_, k, code, new, _, hnew, hmem, _⟩ => ?_
      exact settingTrial_quiet (by simp) (hnew ▸ List.mem_append_left _ hmem) rfl
    · refine (hreaches hok).kept slot fun name v hv hgives => ?_
      obtain ⟨rfl, -⟩ := Prod.mk.inj (List.mem_singleton.1 hv)
      have hmem := ha ▸ hslots.2 hgives
      simp at hslot hmem
      omega
  · refine (hslotless _ _ (settingTrial_setting "B") ⟨rfl, fun name v hv => ?_⟩
      fun name v hv slot hgives => ?_).resolve_right fun ⟨new, hnew, e, he, _, hfailed⟩ => ?_
    · obtain ⟨rfl, -⟩ := Prod.mk.inj (List.mem_singleton.1 hv)
      exact ⟨.int64, .int64, rfl, haccessor⟩
    · obtain ⟨rfl, -⟩ := Prod.mk.inj (List.mem_singleton.1 hv)
      cases hb ▸ hslots.2 hgives
    · exact settingTrial_quiet (by simp) (hnew ▸ List.mem_append_left _ he) hfailed
  · have hcut : Template.cut ":A,:Ids,:a" =
        [.parameter "A", .other 0x2C, .parameter "Ids", .other 0x2C, .parameter "a"] := by
      decide +kernel
    have hA : Name.toLower "A" = "a" := rfl
    have ha : Name.toLower "a" = "a" := rfl
    have hids : Name.toLower "Ids" = "ids" := rfl
    obtain ⟨s', hrun⟩ := settingTrial_sets
    obtain ⟨d', z', ws, hz', hperm, hwrites, -⟩ := hsets _ s' hrun (by decide) fun name => by
      simp [hcut, Setting.key, hA, ha, hids, or_comm]
    exact ⟨s', d', z', ws, hrun, hz', hcount ▸ hperm, hwrites⟩

end Session

end SqlAccess
