import SqlAccess.Proofs.Mismatch
import SqlAccess.Proofs.Session.Settings

/-!
# Parameters after a mismatch

Setting a parameter of an open statement to a value of the wrong type is refused as a mismatch. That
leaves the parameter as it was if it takes one value. A list keeps what its elements in front of the
refused one were set to, and all that comes behind them stays as it was
(`Session.mismatch_stops`), so the next run may mix old values and new ones.
-/

namespace SqlAccess

namespace Session

variable {s : Session × World} {x : Step} {n k : Nat} {d : Database} {z : Statement} {st : Setting}

theorem error_of_plain {r : Except Fault Unit} {f : Fault}
    (h : (Reply.plain r).fault = some f) : r = .error f := by
  cases r with
  | ok _ => cases h
  | error g => exact congrArg Except.error (Option.some.inj h)

/-- A step that sets a parameter of an open statement and fails as a mismatch has stopped at one of
the values: at the first that goes to a slot and does not fit the type of its name, or at a call
that SQLite refused with a code of that kind. The values before it have reached their slots, and
this one those in front of the refused call, which are none if it does not fit. Every other slot of
the statement holds what it held. -/
theorem mismatch_stops (hr : Reachable s) (hz : OpenAt s.1 n k d z)
    (hx : s.1.setting? x = some (⟨n, k⟩, st)) : After (step x) s fun a s' =>
      ∀ f, a.fault = some f → f.kind = .mismatch → ∃ d' z', OpenAt s'.1 n k d' z' ∧
        st.Mismatched d.link.options.accessors z.descriptor (z.handle, s.2.engine)
          (z'.handle, s'.2.engine) := by
  obtain ⟨y, r, hy, hcomes, hiff⟩ := exists_binding hr hz hx
  have hk := Database.openStatement?_eq_some hz.2
  have hsane := (hr.sound.database n d hz.1).sane k z hk.1
  have hran : After (y d.link).run (z, s.2) fun r' b =>
      Statement.Goes d.link.connection (z, s.2) b ∧ ∀ f, r' = .error f → f.kind = .mismatch →
        st.Mismatched d.link.options.accessors z.descriptor (z.handle, s.2.engine)
          (Statement.prepared b) := by
    refine (hiff _).2 <| After.try_bind_iff.2 <| After.ofResult_iff.2 ?_
    cases hresult : r with
    | error f =>
      refine ⟨.refl hsane, fun f' hf' hkind => absurd hkind ?_⟩
      exact hcomes.kind_ne_mismatch (hresult.trans (congrArg Except.error (Except.error.inj hf')))
    | ok l =>
      refine ((Statement.write_goes hsane).and (Statement.write_stops l)).mono
        fun r' b ⟨hgoes, hstops⟩ => ⟨hgoes, fun f hf hkind => ?_⟩
      obtain ⟨sent, x, v, later, b₁, rfl, hsuits, hw, hslot⟩ := hstops f hf hkind
      exact .of_slotStops (hcomes.yields.delivers _ hresult) hsuits hw hslot
  have hstep := (step_of_binding hy hz).and hran
  refine After.mono hstep.1 ?_
  obtain ⟨hgoes, hstops⟩ := hstep.2
  rintro a s' ⟨ha, rfl⟩ f hf hkind
  exact ⟨_, _, openAt_withStatementAt hz (hgoes.open_eq.trans hk.2),
    hstops f (error_of_plain (ha ▸ hf)) hkind⟩

/-- The list of the trial with an element of the wrong type behind one that fits. -/
def halfFitting : Step := .bindList "k" (some "IDS") [.int64 8, .text "x"]

theorem halfFitting_setting : (settingTrial []).1.setting? halfFitting =
    some (⟨0, 0⟩, .list "ids" [.int64 8, .text "x"]) := rfl

theorem halfFitting_assigned : (Setting.list "ids" [.int64 8, .text "x"]).assigned =
    ([("ids[0]", .int64 8), ("ids[1]", .text "x")] : List (Bytes × Value)) := by
  have hfirst : elementName "ids" 0 = "ids[0]" := by decide
  have hsecond : elementName "ids" 1 = "ids[1]" := by decide
  simp [Setting.assigned, hfirst, hsecond]

/-- A step ends with a fault and no call fails, which a run of it shows. -/
theorem ends_quietly {f : Fault} (hfault : (outcome (step x) s).1.fault = some f)
    (hcalls : ((after x s).2.engine.history.all fun e => !e.outcome.isFailure) = true) :
    After (step x) s fun a s' => a.fault = some f ∧
      ∀ new, s'.2.engine.history = new ++ s.2.engine.history →
        ∀ e ∈ new, ¬e.outcome.isFailure := by
  refine ⟨hfault, fun new hnew e he => ?_⟩
  have hhistory : (after x s).2.engine.history = new ++ s.2.engine.history := hnew
  simpa using List.all_eq_true.1 hcalls e (hhistory ▸ List.mem_append_left _ he)

theorem halfFitting_fault : (outcome (step halfFitting) (settingTrial [])).1.fault =
    some (.unassignable .text .int64) := by decide +kernel

/-- The first element of the list of the trial has one slot, and an accessor of its type. -/
theorem settingTrial_first : ∃ d z, OpenAt (settingTrial []).1 0 0 d z ∧
    d.link.options.accessors .int64 = some .int64 ∧
    z.descriptor.declarations.parameters.find? "ids[0]" = some .int64 ∧
    z.descriptor.slots "ids[0]" = [1] := by
  have hstate : ((settingTrial []).1.opened.find? 0).bind (fun d =>
      (d.openStatement? 0).map fun z => (d.link.options.accessors .int64,
        z.descriptor.declarations.parameters.find? "ids[0]", z.descriptor.slots "ids[0]")) =
      some (some .int64, some .int64, [1]) := rfl
  obtain ⟨d, hd, hstate⟩ := Option.bind_eq_some_iff.1 hstate
  obtain ⟨z, hz, hstate⟩ := Option.map_eq_some_iff.1 hstate
  exact ⟨d, z, ⟨hd, hz⟩, by simpa using hstate⟩

/-- The element that fits has been set when the one behind it is refused, and the other slots are as
they were. A single value of the wrong type changes no slot. -/
theorem list_half_set : ∃ d z, OpenAt (settingTrial []).1 0 0 d z ∧
    After (step halfFitting) (settingTrial []) (fun a s' =>
      a.fault = some (.unassignable .text .int64) ∧ ∃ d' z', OpenAt s'.1 0 0 d' z' ∧
        Handle.held (z'.handle, s'.2.engine) 1 = some (z.handle.datum .int64 (.int64 8)) ∧
        ∀ slot ∈ [0, 2, 3], Handle.held (z'.handle, s'.2.engine) slot =
          Handle.held (z.handle, (settingTrial []).2.engine) slot) ∧
    After (step (.bind "k" (some "A") (.text "x"))) (settingTrial []) (fun a s' =>
      a.fault = some (.unassignable .text .int64) ∧ ∃ d' z', OpenAt s'.1 0 0 d' z' ∧
        ∀ slot, Handle.held (z'.handle, s'.2.engine) slot =
          Handle.held (z.handle, (settingTrial []).2.engine) slot) := by
  obtain ⟨d, z, hz, haccessor, hdeclared, hslots⟩ := settingTrial_first
  have hr := settingTrial_preparedFrom.reachable
  refine ⟨d, z, hz, ?_, ?_⟩
  · refine ((mismatch_stops hr hz halfFitting_setting).and
      (ends_quietly halfFitting_fault (by decide +kernel))).mono ?_
    rintro a s' ⟨hstops, hfault, hquiet⟩
    obtain ⟨d', z', hz', hstop⟩ := hstops _ hfault rfl
    obtain ⟨before, name, v, later, type, accessor, hassigned, htype, ha, -, hunfit, hreached,
      hkept⟩ := hstop.of_quiet hquiet
    rw [halfFitting_assigned] at hassigned
    refine ⟨hfault, d', z', hz', ?_⟩
    rcases before with _ | ⟨e, _ | ⟨e', before⟩⟩
    · -- the first element fits
      obtain ⟨⟨rfl, rfl⟩, -⟩ : (("ids[0]" : Bytes) = name ∧ Value.int64 8 = v) ∧ _ := by
        simpa using hassigned
      obtain rfl : ValueType.int64 = type := Option.some.inj (hdeclared.symm.trans htype)
      obtain rfl : ValueType.int64 = accessor := Option.some.inj (haccessor.symm.trans ha)
      cases hunfit
    · obtain ⟨rfl, -⟩ : (("ids[0]" : Bytes), Value.int64 8) = e ∧ _ := by simpa using hassigned
      refine ⟨?_, fun slot hslot => hkept slot fun name v hv hmem => ?_⟩
      · exact (hreached _ _ _ _ (List.mem_singleton_self _) hdeclared haccessor).2 1
          (hslots ▸ List.mem_singleton_self 1)
      · obtain ⟨rfl, -⟩ := Prod.mk.inj (List.mem_singleton.1 hv)
        rw [hslots] at hmem
        simp at hslot hmem
        omega
    · simp at hassigned
  · have hsetting : (settingTrial []).1.setting? (.bind "k" (some "A") (.text "x")) =
        some (⟨0, 0⟩, .scalar "a" (.text "x")) := rfl
    refine ((mismatch_stops hr hz hsetting).and
      (ends_quietly (f := .unassignable .text .int64) (by decide +kernel)
        (by decide +kernel))).mono ?_
    rintro a s' ⟨hstops, hfault, hquiet⟩
    obtain ⟨d', z', hz', hstop⟩ := hstops _ hfault rfl
    exact ⟨hfault, d', z', hz', hstop.scalar_kept hquiet⟩

/-! ## Slots that change -/

/-- What a slot of a statement holds, as SQLite writes it. -/
def shown? (n k : Nat) (s : Session × World) (slot : Nat) : Option Bytes := do
  let d ← s.1.opened.find? n
  let z ← d.openStatement? k
  (Handle.held (z.handle, s.2.engine) slot).map Datum.sqliteText

theorem exists_of_shown {slot : Nat} {text : Bytes} (h : shown? n k s slot = some text) :
    ∃ d z, OpenAt s.1 n k d z ∧
      (Handle.held (z.handle, s.2.engine) slot).map Datum.sqliteText = some text := by
  obtain ⟨d, hd, h⟩ := Option.bind_eq_some_iff.1 h
  obtain ⟨z, hz, h⟩ := Option.bind_eq_some_iff.1 h
  exact ⟨d, z, ⟨hd, hz⟩, h⟩

/-- A step that fails as a mismatch in setting a parameter of some kind leaves every slot as it was,
whatever the statement, if it has the accessors that come with the library. -/
def MismatchKeeps (P : Setting → Prop) : Prop :=
  ∀ (s : Session × World) (x : Step) (n k : Nat) (d : Database) (z : Statement) (st : Setting),
    Reachable s → OpenAt s.1 n k d z → d.link.options.accessors = .standard →
      s.1.setting? x = some (⟨n, k⟩, st) → P st →
        After (step x) s fun a s' => ∀ f, a.fault = some f → f.kind = .mismatch →
          ∀ d' z', OpenAt s'.1 n k d' z' → ∀ slot,
            Handle.held (z'.handle, s'.2.engine) slot =
              Handle.held (z.handle, s.2.engine) slot

/-- Every type that a parameter can be declared with. -/
def everyType : List ValueType := [.null, .bool, .int32, .int64, .double, .text, .blob]

theorem eq_standard {accessors : Accessors}
    (h : everyType.map accessors = everyType.map Accessors.standard) : accessors = .standard := by
  have hall : ∀ type ∈ everyType, accessors type = Accessors.standard type := List.map_inj_left.1 h
  funext type
  exact hall type (by cases type <;> decide)

theorem not_mismatchKeeps {P : Setting → Prop} {slot : Nat} {old new : Bytes} (hr : Reachable s)
    (haccessors : (s.1.opened.find? n).map
      (fun d : Database => everyType.map d.link.options.accessors) =
        some (everyType.map Accessors.standard))
    (hx : s.1.setting? x = some (⟨n, k⟩, st)) (hP : P st)
    (hfault : (outcome (step x) s).1.fault.map Fault.kind = some .mismatch)
    (hold : shown? n k s slot = some old) (hnew : shown? n k (after x s) slot = some new)
    (hne : new ≠ old) : ¬MismatchKeeps P := by
  intro h
  obtain ⟨f, hf, hkind⟩ := Option.map_eq_some_iff.1 hfault
  obtain ⟨d, z, hz, hold⟩ := exists_of_shown hold
  obtain ⟨d', z', hz', hnew⟩ := exists_of_shown hnew
  rw [hz.1] at haccessors
  have hsame := h s x n k d z st hr hz (eq_standard (Option.some.inj haccessors)) hx hP f hf
    hkind d' z' hz' slot
  exact hne (Option.some.inj
    (hnew.symm.trans ((congrArg (Option.map Datum.sqliteText) hsame).trans hold)))

/-- A rule that lets the second call to set a slot fail with the code for a mismatch. -/
def mismatchRule : Rule :=
  { call := "bind", skip := 1, failure := { code := 20, message := none, noHandle := false } }

theorem settingTrial_reachable (rules : List Rule) : Reachable (settingTrial rules) :=
  ((Later.refl.step _).step _).reachable <|
    (run_later _).reachable (.start .sqlite "3.40.0" rules [])

/-- A mismatch can leave a slot changed: that of an element in front of the refused one, or one that
was set before SQLite refused the next. -/
theorem mismatch_changes_slot : ¬MismatchKeeps (fun st => ∃ key vs, st = .list key vs) ∧
    ¬MismatchKeeps fun st => ∃ key v, st = .scalar key v := by
  constructor
  · have hold : shown? 0 0 (settingTrial []) 1 = some "null" := by decide +kernel
    have hnew : shown? 0 0 (after halfFitting (settingTrial [])) 1 = some "int64 8" := by
      decide +kernel
    exact not_mismatchKeeps (settingTrial_reachable []) (by decide +kernel) halfFitting_setting
      ⟨_, _, rfl⟩ (congrArg (Option.map Fault.kind) halfFitting_fault) hold hnew (by decide)
  · let x : Step := .bind "k" (some "A") (.int64 7)
    have hx : (settingTrial [mismatchRule]).1.setting? x =
        some (⟨0, 0⟩, .scalar "a" (.int64 7)) := rfl
    have hfault : (outcome (step x) (settingTrial [mismatchRule])).1.fault.map Fault.kind =
        some .mismatch := by decide +kernel
    have hold : shown? 0 0 (settingTrial [mismatchRule]) 0 = some "null" := by decide +kernel
    have hnew : shown? 0 0 (after x (settingTrial [mismatchRule])) 0 = some "int64 7" := by
      decide +kernel
    exact not_mismatchKeeps (settingTrial_reachable _) (by decide +kernel) hx ⟨_, _, rfl⟩ hfault
      hold hnew (by decide)

end Session

end SqlAccess
