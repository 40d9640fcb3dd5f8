import Mathlib.Algebra.Order.Group.Multiset
import SqlAccess.Database
import SqlAccess.Proofs.Closing

/-!
# Giving things up, whatever fails

What is closed gives up one thing after another (`Release`), each of which may fail, and every one
is attempted (`attemptAll`). Of the failures the first one is the answer, and each other one has a
line of its own among the warnings of the log (`Settles`). So it stays where two such answers are
made into one (`Settles.keepFirst`).
-/

namespace SqlAccess

/-- Something that is given up or brought to its end. -/
inductive Release
  /-- A cursor of a statement. -/
  | cursor (c : Cursor) (h : Handle)
  | statement (h : Handle)
  /-- The work of a transaction, which is kept. -/
  | kept (o : Origin)
  /-- The work of a transaction, which is undone. -/
  | undone (o : Origin)
  | connection

/-- Give something up. -/
def Release.attempt (l : Link) : Release → EngineTry Unit
  | cursor c h => do
    l.backend.freeRows c.rows
    match c.own with
    | some own => l.backend.finalize own
    | none => let _ ← h.endRows
  | statement h => l.backend.finalize h
  | kept o => Database.keepWork l o
  | undone o => Database.undoWork l o
  | connection => l.backend.disconnect l.connection

/-- Give up one thing after another, whatever fails. -/
def attemptAll (l : Link) (rs : List Release) : EngineM (List (Except Fault Unit)) :=
  rs.mapM fun r => (r.attempt l).run

/-- The failures among some outcomes. -/
def failures (outcomes : List (Except Fault Unit)) : List Fault :=
  outcomes.filterMap fun
    | .ok _ => none
    | .error f => some f

/-- The outcome of work that failed in some places, of which the first one counts. -/
def firstOf : List Fault → Except Fault Unit
  | [] => .ok ()
  | f :: _ => .error f

/-- The warnings among some lines. -/
def warnings (lines : List LogLine) : Multiset LogLine := lines.filter (·.level = .warn)

/-- A line warns of a failure, behind a note of what was going on. -/
def Tells (f : Fault) (line : LogLine) : Prop :=
  ∃ note : Bytes, line = .bounded .warn (note ++ ": " ++ f.message)

/-- Some lines warn of some failures, each of one, beside some notices. -/
def Told (fs : Multiset Fault) (notices : Multiset LogLine) (lines : List LogLine) : Prop :=
  ∃ told, Multiset.Rel Tells fs told ∧ warnings lines = notices + told

/-- The answer is the first one of some failures, and lines warn of each other one, if the sink
takes warnings. -/
structure Reports (sink : LogSink) (fs : List Fault) (notices : Multiset LogLine)
    (r : Except Fault Unit) (lines : List LogLine) : Prop where
  result : r = firstOf fs
  told : sink.takes .warn → Told fs.tail notices lines

/-- Some things were given up, and what failed was reported. -/
structure Settles (l : Link) (rs : List Release) (notices : Multiset LogLine) (w : World)
    (r : Except Fault Unit) (w' : World) : Prop where
  engine : w'.engine = (outcome (attemptAll l rs) w.engine).2
  log : ∃ new, w'.log = new ++ w.log ∧
    Reports l.options.sink (failures (outcome (attemptAll l rs) w.engine).1) notices r new

/-- Some things were given up and the last one was refused, which is the answer. Of the failures
before it the first one is lost. -/
structure Refuses (l : Link) (rs : List Release) (last : Release) (w : World)
    (r : Except Fault Unit) (w' : World) : Prop where
  engine : w'.engine = (outcome (attemptAll l (rs ++ [last])) w.engine).2
  refused : ∃ f, r = .error f ∧ (outcome (attemptAll l (rs ++ [last])) w.engine).1 =
    (outcome (attemptAll l rs) w.engine).1 ++ [.error f]
  log : ∃ new, w'.log = new ++ w.log ∧ (l.options.sink.takes .warn →
    Told (failures (outcome (attemptAll l rs) w.engine).1).tail 0 new)

variable {l : Link} {rs rs' : List Release} {sink : LogSink} {notices notices' : Multiset LogLine}
  {lines lines' : List LogLine} {r r' : Except Fault Unit} {w w₁ w₂ : World} {e : Engine}

/-! ## Warnings -/

theorem warnings_append : warnings (lines ++ lines') = warnings lines + warnings lines' := by
  simp [warnings]

theorem warnings_reverse : warnings lines.reverse = warnings lines := by
  simp [warnings, List.filter_reverse]

theorem warnings_write {text : Bytes} (htakes : sink.takes .warn) :
    warnings (sink.write .warn text).toList = {.bounded .warn text} := by
  simp [LogSink.write, htakes, warnings, LogLine.bounded]

/-- Lines of other levels are no warnings. -/
theorem warnings_write_of_ne {level : LogLevel} {text : Bytes} (hlevel : level ≠ .warn) :
    warnings (sink.write level text).toList = 0 := by
  unfold LogSink.write
  split <;> simp [warnings, LogLine.bounded, hlevel]

theorem Told.zero : Told 0 0 [] := ⟨0, .zero, rfl⟩

theorem Told.reverse {fs : Multiset Fault} (h : Told fs notices lines) :
    Told fs notices lines.reverse := by
  obtain ⟨told, hr, hw⟩ := h
  exact ⟨told, hr, warnings_reverse.trans hw⟩

theorem Told.add {fs fs' : Multiset Fault} (h : Told fs notices lines)
    (h' : Told fs' notices' lines') : Told (fs + fs') (notices + notices') (lines ++ lines') := by
  obtain ⟨told, hr, hw⟩ := h
  obtain ⟨told', hr', hw'⟩ := h'
  exact ⟨told + told', hr.add hr', by rw [warnings_append, hw, hw', add_add_add_comm]⟩

/-- Lines that are no warnings do not matter. -/
theorem Told.append {fs : Multiset Fault} (h : Told fs notices lines)
    (hnone : warnings lines' = 0) :
    Told fs notices (lines' ++ lines) := by
  obtain ⟨told, hr, hw⟩ := h
  exact ⟨told, hr, by rw [warnings_append, hnone, zero_add, hw]⟩

/-- Of two answers the first failure stands, and the second one is warned of. -/
theorem Reports.keepFirst {fs fs' : List Fault} {note : Bytes} (h : Reports sink fs notices r lines)
    (h' : Reports sink fs' notices' r' lines') :
    After (keepFirst sink note r r') w fun r'' w' => w'.engine = w.engine ∧
      ∃ new, w'.log = new ++ w.log ∧
        Reports sink (fs ++ fs') (notices + notices') r'' (new ++ (lines' ++ lines)) := by
  obtain ⟨rfl, htold⟩ := h
  obtain ⟨rfl, htold'⟩ := h'
  have both (htakes : sink.takes .warn) :
      Told (fs.tail + fs'.tail) (notices + notices') (lines' ++ lines) := by
    rw [add_comm (fs.tail : Multiset Fault), add_comm notices]
    exact (htold' htakes).add (htold htakes)
  unfold SqlAccess.keepFirst
  cases fs with
  | nil =>
    refine After.pure_iff.2 ⟨rfl, [], rfl, rfl, fun htakes => ?_⟩
    simpa using both htakes
  | cons f fs =>
    cases fs' with
    | nil =>
      refine After.pure_iff.2 ⟨rfl, [], rfl, rfl, fun htakes => ?_⟩
      simpa using both htakes
    | cons g fs' =>
      refine After.bind_iff.2 <| After.base_modify_iff.2 <| After.pure_iff.2
        ⟨rfl, _, rfl, rfl, fun htakes => ?_⟩
      obtain ⟨told, hr, hw⟩ := both htakes
      refine ⟨.bounded .warn (note ++ ": " ++ g.message) ::ₘ told, ?_, ?_⟩
      · have hfs : ((f :: fs ++ g :: fs').tail : Multiset Fault) = g ::ₘ (↑fs + ↑fs') := by
          simp
        rw [hfs]
        exact .cons ⟨note, rfl⟩ hr
      · rw [warnings_append, warnings_write htakes, hw, ← Multiset.singleton_add, add_left_comm]

/-! ## One after another -/

theorem failures_append (xs ys : List (Except Fault Unit)) :
    failures (xs ++ ys) = failures xs ++ failures ys := List.filterMap_append

theorem outcome_append : outcome (attemptAll l (rs ++ rs')) e =
    ((outcome (attemptAll l rs) e).1 ++
      (outcome (attemptAll l rs') (outcome (attemptAll l rs) e).2).1,
      (outcome (attemptAll l rs') (outcome (attemptAll l rs) e).2).2) := by
  simp only [attemptAll, List.mapM_append, outcome_bind, outcome_pure]

theorem outcome_singleton (x : Release) : outcome (attemptAll l [x]) e =
    ([(outcome (x.attempt l).run e).1], (outcome (x.attempt l).run e).2) := by
  simp only [attemptAll, List.mapM_cons, List.mapM_nil, outcome_bind, outcome_pure]

namespace Settles

theorem nil : Settles l [] 0 w (.ok ()) w := ⟨rfl, [], rfl, rfl, fun _ => .zero⟩

theorem single (x : Release) : After (x.attempt l).run w.engine fun r e =>
    Settles l [x] 0 w r { w with engine := e } := by
  refine ⟨by rw [outcome_singleton], [], rfl, ?_⟩
  rw [outcome_singleton]
  cases (outcome (x.attempt l).run w.engine).1 <;> exact ⟨rfl, fun _ => .zero⟩

theorem writeLog {level : LogLevel} {text : Bytes} (h : Settles l rs notices w r w₁)
    (hlevel : level ≠ .warn) :
    After (SqlAccess.writeLog l.options.sink level text) w₁ fun _ w₂ =>
      Settles l rs notices w r w₂ := by
  obtain ⟨he, new, hnew, hr, htold⟩ := h
  refine ⟨he, (l.options.sink.write level text).toList ++ new, ?_, hr, fun htakes =>
    (htold htakes).append (warnings_write_of_ne hlevel)⟩
  rw [List.append_assoc, ← hnew]
  rfl

/-- A notice is one more warning. -/
theorem notice {text : Bytes} (h : Settles l rs notices w r w₁) :
    After (SqlAccess.writeLog l.options.sink .warn text) w₁ fun _ w₂ =>
      Settles l rs ({.bounded .warn text} + notices) w r w₂ := by
  obtain ⟨he, new, hnew, hr, htold⟩ := h
  refine ⟨he, (l.options.sink.write .warn text).toList ++ new, ?_, hr, fun htakes => ?_⟩
  · rw [List.append_assoc, ← hnew]
    rfl
  · obtain ⟨told, hrel, hw⟩ := htold htakes
    exact ⟨told, hrel, by rw [warnings_append, warnings_write htakes, hw, add_assoc]⟩

/-- Two answers are made into one. -/
theorem keepFirst (note : Bytes) (h : Settles l rs notices w r w₁)
    (h' : Settles l rs' notices' w₁ r' w₂) :
    After (SqlAccess.keepFirst l.options.sink note r r') w₂ fun r'' w₃ =>
      Settles l (rs ++ rs') (notices + notices') w r'' w₃ := by
  obtain ⟨he, new, hnew, hr⟩ := h
  obtain ⟨he', new', hnew', hr'⟩ := h'
  refine (hr.keepFirst hr').mono fun r'' w₃ ⟨hengine, line, hline, hreports⟩ => ⟨?_, ?_⟩
  · rw [hengine, he', outcome_append, he]
  · rw [outcome_append, failures_append, ← he]
    refine ⟨line ++ (new' ++ new), ?_, hreports⟩
    rw [hline, hnew', hnew, List.append_assoc, List.append_assoc]

/-- Giving up more without a failure leaves the answer as it is. -/
theorem done (h : Settles l rs notices w r w₁) (h' : Settles l rs' notices' w₁ (.ok ()) w₂) :
    Settles l (rs ++ rs') (notices + notices') w r w₂ := by
  have kept := h.keepFirst "" h'
  unfold SqlAccess.keepFirst at kept
  cases r with
  | ok _ => exact After.pure_iff.1 kept
  | error f => exact After.pure_iff.1 kept

end Settles

/-! ## Statements -/

namespace Statement

/-- What a statement gives up: its cursors, and itself. -/
def releases (z : Statement) : List Release :=
  z.cursors.entries.map (fun c => .cursor c.2 z.handle) ++ [.statement z.handle]

variable {z : Statement} {n : Nat} {c : Cursor}

/-- A statement is given up in the same way when it produces no more rows. -/
theorem finalize_endRows (h : Handle) : After h.endRows e fun h' _ =>
    ∀ b : Backend, b.finalize h' = b.finalize h := by
  cases h with
  | sqlite k => exact After.bind_iff.2 <| After.of_forall fun _ _ => After.pure_iff.2 fun _ => rfl
  | maria s =>
    refine After.bind_iff.2 ?_
    unfold Maria.endRows
    split
    · exact After.bind_iff.2 <| After.of_forall fun _ _ => After.pure_iff.2 fun _ => rfl
    · exact After.pure_iff.2 fun _ => rfl

theorem closeCursor_settles (hc : z.cursors.find? n = some c) :
    After (closeCursor n l).run (z, w) fun r a => Settles l [.cursor c z.handle] 0 w r a.2 ∧
      ∀ b : Backend, b.finalize a.1.handle = b.finalize z.handle := by
  have attempted := Settles.single (l := l) (w := w) (.cursor c z.handle)
  unfold Release.attempt at attempted
  replace attempted := After.try_lift_iff.1 (After.try_bind_iff.1 attempted)
  refine closeCursor_open hc (attempted.mono fun _ e h => ⟨fun own ho => ?_, fun ho => ?_⟩)
  · simp only [ho] at h
    exact h.mono fun _ _ h => ⟨h, fun _ => rfl⟩
  · simp only [ho] at h
    refine ((After.try_lift_iff.1 (After.try_bind_iff.1 h)).and (finalize_endRows z.handle)).mono
      fun _ _ ⟨h, hsame⟩ => ?_
    have h := After.try_pure_iff.1 h
    exact ⟨h, hsame⟩

/-- The only cursor of a statement that can be open is the one that it produced last. -/
theorem cursors_entries (htidy : ∀ n x, z.cursors.find? n = some x → z.current = some n) :
    z.cursors.entries =
      (z.current.bind fun n => (z.cursors.find? n).map fun x => (n, x)).toList := by
  cases he : z.cursors.entries with
  | nil => cases z.current <;> simp [Table.find?_of_nil he]
  | cons c rest =>
    have current (x : Nat × Cursor) (hx : x ∈ z.cursors.entries) : z.current = some x.1 :=
      htidy x.1 x.2 (Table.find?_eq_some_of_mem hx)
    have hcurrent : z.current = some c.1 := current c (by simp [he])
    have hrest : rest = [] := List.eq_nil_iff_forall_not_mem.2 fun x hx => by
      have hlt := List.rel_of_pairwise_cons (he ▸ z.cursors.sorted) hx
      have hsame := (current x (by simp [he, hx])).symm.trans hcurrent
      exact absurd (Option.some.inj hsame) (Nat.ne_of_gt hlt)
    subst hrest
    simp [hcurrent, Table.find?_of_singleton he]

theorem closeCurrent_settles (htidy : ∀ n x, z.cursors.find? n = some x → z.current = some n) :
    After (closeCurrent l).run (z, w) fun r a =>
      Settles l (z.cursors.entries.map fun c => .cursor c.2 z.handle) 0 w r a.2 ∧
        ∀ b : Backend, b.finalize a.1.handle = b.finalize z.handle := by
  rw [cursors_entries htidy]
  refine closeCurrent_cases (fun hn => ?_) fun n hn => ?_
  · rw [hn]
    exact ⟨.nil, fun _ => rfl⟩
  · simp only [hn, Option.bind_some]
    cases hx : z.cursors.find? n with
    | some x => exact closeCursor_settles (z := { z with current := none }) hx
    | none => exact closeCursor_missing hx ⟨.nil, fun _ => rfl⟩

/-- Closing a statement gives up what it holds. -/
theorem close_settles (ho : z.isOpen)
    (htidy : ∀ n x, z.cursors.find? n = some x → z.isOpen ∧ z.current = some n) :
    After (close l) (z, w) fun r a => Settles l z.releases 0 w r a.2 := by
  refine close_cases (fun hclosed => nomatch hclosed.symm.trans ho) fun _ => ?_
  refine (closeCurrent_settles (z := { z with isOpen := false })
    fun n x hx => (htidy n x hx).2).mono fun first (z', w') ⟨h, hsame⟩ => ?_
  have attempted : After (l.backend.finalize z'.handle).run w'.engine fun r e =>
      Settles l [.statement z.handle] 0 w' r { w' with engine := e } := by
    rw [show l.backend.finalize z'.handle = l.backend.finalize z.handle from hsame _]
    exact .single (.statement z.handle)
  refine attempted.mono fun next e h' => (h.keepFirst _ h').mono fun _ _ h => ?_
  rwa [add_zero] at h

end Statement

end SqlAccess
