import SqlAccess.Proofs.Lifetimes
import SqlAccess.Proofs.Ownership

/-!
# Protocols

What an engine asks of its callers beyond the lifetimes of what it hands out. SQLite wants a
statement reset before it is bound again, and before it is stepped again once a step gave no row
(`Session.steps_end_without_row`). MariaDB wants the result of a statement freed before the
statement is run again; there is one way to run it all the same, which goes through a result whose
buffers could not be named (`Session.results_freed_before_run`).

Both are read off the stage of the statement.
-/

namespace SqlAccess

open Engine

namespace Call

/-- The statement that a call binds. -/
def binds? : Call → Option Nat
  | bind k _ _ => some k
  | _ => none

/-- The statement that a call runs from the first row on. -/
def executes? : Call → Option Nat
  | execute k _ => some k
  | _ => none

theorem of_binds? {call : Call} {k : Nat} (h : call.binds? = some k) :
    ∃ slot datum, call = .bind k slot datum := by
  cases call <;> simp_all [binds?]

theorem of_executes? {call : Call} {k : Nat} (h : call.executes? = some k) :
    ∃ ps, call = .execute k ps := by
  cases call <;> simp_all [executes?]

end Call

/-- A history splits at each of its calls. -/
theorem History.split {h : History} {n : Nat} {e : Event} (hn : h[n]? = some e) :
    h = h.take n ++ e :: h.drop (n + 1) := by
  obtain ⟨hlt, rfl⟩ := List.getElem?_eq_some_iff.1 hn
  rw [List.getElem_cons_drop, List.take_append_drop]

/-! ## Steps -/

/-- What the latest step of a statement came to since the statement was last reset, if there was
one. -/
def lastStep (k : Nat) : History → Option Outcome
  | [] => none
  | e :: past =>
    match e.call with
    | .step k' => if k' = k then some e.outcome else lastStep k past
    | .reset k' => if k' = k then none else lastStep k past
    | _ => lastStep k past

theorem lastStep_of_ne {k : Nat} {e : Event} {past : History} (hk : e.call.statement? ≠ some k) :
    lastStep k (e :: past) = lastStep k past := by
  cases h : e.call <;> simp_all [lastStep, Call.statement?]

theorem lastStep_of_not_asked {k : Nat} {h : History} (hn : ∀ e ∈ h, e.call.statement? ≠ some k) :
    lastStep k h = none := by
  induction h with
  | nil => rfl
  | cons e past ih =>
    rw [lastStep_of_ne (hn e List.mem_cons_self)]
    exact ih fun e he => hn e (List.mem_cons_of_mem _ he)

namespace Stage

variable {st : Stage} {e : Event}

/-- What the latest step came to in a stage. -/
def Stepped : Stage → Option Outcome → Prop
  | ready => fun o => o = none
  | onRow => fun o => o = some .row
  | halted => fun o => ∃ x, o = some x ∧ x ≠ .row
  | _ => fun _ => True

theorem stepped_of_maria {o : Option Outcome} (h : st.ofSqlite = false) : st.Stepped o := by
  cases st <;> simp_all [ofSqlite, Stepped]

theorem stepped_of_step {k : Nat} (h : e.call = .step k) :
    (st.after e).Stepped (some e.outcome) := by
  obtain ⟨call, outcome⟩ := e
  obtain rfl : call = .step k := h
  cases outcome with
  | row => rfl
  | _ => exact ⟨_, rfl, nofun⟩

/-- Only stepping and resetting move a statement of SQLite. -/
theorem after_of_other (hstep : ∀ k, e.call ≠ .step k) (hreset : ∀ k, e.call ≠ .reset k) :
    st.after e = st ∨ (st.after e).ofSqlite = false := by
  obtain ⟨call, outcome⟩ := e
  cases call with
  | step k => exact absurd rfl (hstep k)
  | reset k => exact absurd rfl (hreset k)
  | prepareText k sql | bindResult k => cases outcome <;> first | exact .inl rfl | exact .inr rfl
  | storeResult k => cases outcome <;> cases st <;> first | exact .inl rfl | exact .inr rfl
  | freeResult k => cases outcome <;> cases st <;> exact .inr rfl
  | _ => cases outcome <;> exact .inl rfl

end Stage

theorem Event.of_makes?_stage {e : Event} {k c : Nat} {st : Stage}
    (h : e.makes? = some (k, c, st)) : st = .ready ∨ st = .blank := by
  unfold makes? at h
  split at h <;> cases h
  · exact .inl rfl
  · exact .inr rfl

/-- The stage of a statement tells what its latest step came to. -/
theorem Grown.stepped {h : History} {k c : Nat} {st : Stage} (hg : Grown Orderly [] h)
    (hst : stage k h = some (c, st)) : st.Stepped (lastStep k h) := by
  refine hg.stage_induction (I := fun _ st h => st.Stepped (lastStep k h)) ?_ ?_ ?_ hst
  · intro past e c st _ hnot hm
    rw [lastStep_of_ne (by simp [(Event.of_makes? hm).2.2]), lastStep_of_not_asked hnot]
    obtain rfl | rfl := Event.of_makes?_stage hm
    · rfl
    · trivial
  · intro past e c st hk _ _ ih
    by_cases hstep : e.call = .step k
    · rw [lastStep, hstep]
      simpa using Stage.stepped_of_step hstep
    by_cases hreset : e.call = .reset k
    · simp [lastStep, Stage.after, hreset, Stage.Stepped]
    have hsame : lastStep k (e :: past) = lastStep k past := by
      cases hc : e.call <;> simp_all [lastStep, Call.statement?]
    have hmoved : st.after e = st ∨ (st.after e).ofSqlite = false :=
      Stage.after_of_other (fun k' hc => hstep (by simp_all [Call.statement?]))
        fun k' hc => hreset (by simp_all [Call.statement?])
    obtain hst | hst := hmoved
    · rwa [hst, hsame]
    · exact Stage.stepped_of_maria hst
  · intro past e c st _ hk ih
    rwa [lastStep_of_ne hk]

/-! ## Results -/

/-- Whether a result of a statement was stored and not freed. -/
def holdsResult (k : Nat) : History → Bool
  | [] => false
  | e :: past =>
    match e.call, e.outcome with
    | .storeResult k', .done => k' == k || holdsResult k past
    | .freeResult k', _ => k' != k && holdsResult k past
    | _, _ => holdsResult k past

/-- Whether the buffers for a result of a statement could not be named. -/
def bindingFailed (k : Nat) (h : History) : Bool :=
  h.any fun e =>
    match e.call with
    | .bindResult k' => k' == k && e.outcome.isFailure
    | _ => false

section Results

variable {k : Nat} {e : Event} {past h : History}

theorem holdsResult_of_ne (hk : e.call.statement? ≠ some k) :
    holdsResult k (e :: past) = holdsResult k past := by
  obtain ⟨call, outcome⟩ := e
  cases call with
  | storeResult k' => cases outcome <;> simp_all [holdsResult, Call.statement?]
  | freeResult k' => simp_all [holdsResult, Call.statement?]
  | _ => rfl

theorem holdsResult_of_not_asked (hn : ∀ e ∈ h, e.call.statement? ≠ some k) :
    holdsResult k h = false := by
  induction h with
  | nil => rfl
  | cons e past ih =>
    rw [holdsResult_of_ne (hn e List.mem_cons_self)]
    exact ih fun e he => hn e (List.mem_cons_of_mem _ he)

theorem bindingFailed_cons (hf : bindingFailed k past) : bindingFailed k (e :: past) := by
  rw [bindingFailed, List.any_cons, Bool.or_eq_true]
  exact .inr hf

end Results

namespace Stage

variable {st : Stage}

/-- Whether the buffers for a result could not be named that was not freed by itself since. -/
def isSpoiled : Stage → Bool
  | stranded | overrun | drained => true
  | _ => false

/-- A statement can be run over a result that is stored only if the buffers could not be named. -/
theorem eq_stranded (hi : st.isIdle) (hh : st.isHeld) : st = .stranded := by
  cases st <;> simp_all [isIdle, isHeld]

/-- A handle that knows of a result is right unless another one was freed in its place. -/
theorem isHeld_of_allows {p : Phase} (hst : st.ofSqlite = false) (hp : p.allows st)
    (hd : st ≠ .drained) : st.isHeld = (st != .bare) := by
  cases p <;> cases st <;> simp_all [Phase.allows, ofSqlite, isHeld]

end Stage

namespace Grown

variable {h : History} {k c : Nat} {st : Stage}

/-- The stage of a statement tells whether a result is stored. -/
theorem holdsResult_eq (hg : Grown Orderly [] h) (hst : stage k h = some (c, st)) :
    holdsResult k h = st.isHeld := by
  refine hg.stage_induction (I := fun _ st h => holdsResult k h = st.isHeld) ?_ ?_ ?_ hst
  · intro past e c st _ hnot hm
    rw [holdsResult_of_ne (by simp [(Event.of_makes? hm).2.2]), holdsResult_of_not_asked hnot]
    obtain rfl | rfl := Event.of_makes?_stage hm <;> rfl
  · intro past e c st hk _ ha ih
    obtain ⟨call, outcome⟩ := e
    cases call with
    | step k' | reset k' | prepareText k' sql | bindResult k' =>
      cases st <;> first | (cases outcome <;> exact ih) | cases ha
    | storeResult k' =>
      obtain rfl : k' = k := Option.some.inj hk
      cases outcome <;> first | exact ih | simp [holdsResult, Stage.after, Stage.store_isHeld ha]
    | freeResult k' =>
      obtain rfl : k' = k := Option.some.inj hk
      cases st <;> simp [holdsResult, Stage.after, Stage.free, Stage.isHeld]
    | _ => exact ih
  · intro past e c st _ hk ih
    rwa [holdsResult_of_ne hk]

/-- A statement is spoiled only by buffers that could not be named. -/
theorem bindingFailed_of_isSpoiled (hg : Grown Orderly [] h) (hst : stage k h = some (c, st))
    (hs : st.isSpoiled) : bindingFailed k h := by
  refine hg.stage_induction (I := fun _ st h => st.isSpoiled → bindingFailed k h) ?_ ?_ ?_ hst hs
  · intro past e c st _ _ hm hs
    obtain rfl | rfl := Event.of_makes?_stage hm <;> cases hs
  · intro past e c st hk _ _ ih hs
    obtain ⟨call, outcome⟩ := e
    cases call with
    | bindResult k' =>
      obtain rfl : k' = k := Option.some.inj hk
      cases outcome with
      | failed => simp [bindingFailed, Outcome.isFailure]
      | _ => exact bindingFailed_cons (ih hs)
    | storeResult k' | freeResult k' =>
      refine bindingFailed_cons (ih ?_)
      cases outcome <;> cases st <;> first | exact hs | rfl
    | step k' | reset k' | prepareText k' sql =>
      refine bindingFailed_cons (ih ?_)
      cases outcome <;> first | exact hs | cases hs
    | _ => exact bindingFailed_cons (ih hs)
  · exact fun past e c st _ _ ih hs => bindingFailed_cons (ih hs)

end Grown

/-! ## Handles in use -/

/-- Whether a statement or one of its open cursors uses a handle. -/
def Statement.HasHandle (z : Statement) (h : Handle) : Prop :=
  (z.isOpen ∧ z.handle = h) ∨ ∃ n y, z.cursors.find? n = some y ∧ y.own = some h

/-- Whether a handle is in use in a session. -/
def Session.HasHandle (s : Session) (h : Handle) : Prop :=
  ∃ n d k z, s.opened.find? n = some d ∧ d.statements.find? k = some z ∧ z.HasHandle h

theorem Cursor.Uses.stands {b : Backend} {c : Option Nat} {handle h : Handle} {ended : Bool}
    {y : Cursor} {own : Multiset Asset} (hu : y.Uses b c handle ended own)
    (hh : handle = h ∨ y.own = some h) : ∃ p, ∃ o ≤ own, h.Stands b c p o := by
  cases hu with
  | rows hown hov =>
    obtain ⟨o, hs, rfl⟩ := hov
    obtain rfl | hh := hh
    · exact ⟨_, o, Multiset.le_add_left _ _, hs⟩
    · cases hown.symm.trans hh
  | keys hown hs hov =>
    obtain ⟨o', hs', rfl⟩ := hov
    obtain rfl | hh := hh
    · exact ⟨_, _, Multiset.le_add_right _ _, hs⟩
    · cases hown.symm.trans hh
      exact ⟨_, o', (Multiset.le_add_left _ _).trans (Multiset.le_add_left _ _), hs'⟩

theorem Statement.Holds.stands {l : Link} {O : Prop} {R : Nat → Prop} {z : Statement}
    {own : Multiset Asset} {h : Handle} (hz : z.Holds l O R own) (hh : z.HasHandle h) :
    ∃ p, ∃ o ≤ own, h.Stands l.backend l.connection p o := by
  cases hz with
  | working _ hw =>
    cases hw with
    | idle _ he hs =>
      obtain ⟨-, rfl⟩ | ⟨n, y, hn, -⟩ := hh
      · exact ⟨_, own, le_rfl, hs⟩
      · cases (Table.find?_of_nil he n).symm.trans hn
    | busy _ _ _ he hu =>
      obtain ⟨-, hh⟩ | ⟨n, y, hn, hh⟩ := hh
      · exact hu.stands (.inl hh)
      · rw [Table.find?_of_singleton he] at hn
        split at hn
        · cases hn
          exact hu.stands (.inr hh)
        · cases hn
  | closed ho he =>
    obtain ⟨ho', -⟩ | ⟨n, y, hn, -⟩ := hh
    · cases ho.symm.trans ho'
    · cases (Table.find?_of_nil he n).symm.trans hn

/-- The engine stands with a handle in use where the phase of the handle allows it. -/
theorem Session.Accounted.stands {g : Set (Nat × Database.Part)} {s : Session × World} {h : Handle}
    (hs : Session.Accounted g s) (hh : s.1.HasHandle h) :
    ∃ b c p o, h.Stands b c p o ∧
      ∀ k n st, .statement k n st ∈ o → stage k s.2.engine.history = some (n, st) := by
  obtain ⟨n, d, k, z, hd, hz, hh⟩ := hh
  obtain ⟨own, hheld, he⟩ := hs
  obtain ⟨o, ho, hb⟩ := hheld.holds hd
  have statement {open' : Bool} {o' : Multiset Asset}
      (hk : d.Keeps (within n g) d.link open' o') (hle : o' ≤ own) :
      ∃ b c p o, h.Stands b c p o ∧
        ∀ k n st, .statement k n st ∈ o → stage k s.2.engine.history = some (n, st) := by
    obtain ⟨o₁, ho₁, hstatement⟩ := hk.statements.holds hz
    obtain ⟨p, o₂, ho₂, hstands⟩ := Statement.Holds.stands hstatement hh
    refine ⟨_, _, p, o₂, hstands, fun k n st hm => he.statements.stage_eq ?_⟩
    exact Multiset.mem_add.2 (.inl (Multiset.mem_of_le (ho₂.trans (ho₁.trans hle)) hm))
  cases hb with
  | opened _ hk => exact statement hk ((Multiset.le_add_left _ _).trans ho)
  | closed hk => exact statement hk ho

namespace Session

variable {s : Session × World} {later past : History} {e : Event}

/-- A statement of SQLite is bound only if it was not stepped since it was last reset, and stepped
on only if the latest step since then gave a row, whatever fails. -/
theorem steps_end_without_row (hr : Reachable s)
    (h : s.2.engine.history = later ++ e :: past) (k : Nat) :
    (∀ slot datum, e.call = .bind k slot datum → lastStep k past = none) ∧
    (e.call = .step k → ∀ o, lastStep k past = some o → o = .row) := by
  obtain ⟨_, -, he⟩ := hr.accounted
  have hg : Grown Orderly [] s.2.engine.history := he.orderly
  rw [h] at hg
  obtain ⟨hpast, hevent⟩ := hg.of_append
  refine ⟨fun slot datum hc => ?_, fun hc o ho => ?_⟩
  · obtain ⟨c, st, hst, ha⟩ := hevent.statement k (by rw [hc]; rfl)
    have hstepped := hpast.stepped hst
    rw [hc] at ha
    obtain rfl : st = .ready := by simpa [Stage.allows] using ha
    exact hstepped
  · obtain ⟨c, st, hst, ha⟩ := hevent.statement k (by rw [hc]; rfl)
    have hstepped := hpast.stepped hst
    rw [hc] at ha
    obtain rfl | rfl : st = .ready ∨ st = .onRow := by simpa [Stage.allows] using ha
    · cases hstepped.symm.trans ho
    · exact Option.some.inj (ho.symm.trans hstepped)

/-- A session over one statement with a parameter, which was run for rows, while some calls
fail, and what is done then. -/
def readTrial (b : Backend) (rules : List Rule) (steps : List Step) : Session × World :=
  let query : Query :=
    { source := .text [] (some "A :p"), declarations := { parameters := .ofList [("p", .int64)] } }
  let rows : Script := { sql := "A ?", columns := [some "x"], rows := [[some (.int 7)]] }
  (outcome (run ([.connect "d" (some "host") {}, .begin "d" "t", .prepareIn "t" (some query) "k",
    .query "k" "c"] ++ steps)) (start b "3.40.0" rules [rows])).2

theorem readTrial_reachable (b : Backend) (rules : List Rule) (steps : List Step) :
    Reachable (readTrial b rules steps) :=
  (run_later _).reachable (.start b "3.40.0" rules _)

/-- A statement whose step failed is bound again after it was reset. -/
theorem bound_after_failed_step :
    let s := readTrial .sqlite [refusal "step"] [.seek "c" 1, .bind "k" (some "p") (.int64 5)]
    ∃ later e past slot datum, s.2.engine.history = later ++ e :: past ∧
      e.call = .bind 1 slot datum ∧
      past.any (fun e => e.outcome.isFailure && e.call.runs? == some 1) ∧
      lastStep 1 past = none := by
  intro s
  have hr : Reachable s := readTrial_reachable _ _ _
  have hbound : s.2.engine.history[0]?.bind (·.call.binds?) = some 1 := by decide +kernel
  have hfailed : (s.2.engine.history.drop 1).any
      (fun e => e.outcome.isFailure && e.call.runs? == some 1) := by decide +kernel
  obtain ⟨e, he, hbinds⟩ := Option.bind_eq_some_iff.1 hbound
  obtain ⟨slot, datum, hcall⟩ := Call.of_binds? hbinds
  have hsplit := History.split he
  exact ⟨_, e, _, slot, datum, hsplit, hcall, hfailed,
    (steps_end_without_row hr hsplit 1).1 slot datum hcall⟩

/-- What is stored for a statement of MariaDB is freed before the statement is run again, and a
handle knows at any time whether something is. This can only fail once the buffers for a result
could not be named: then the statement is run over that result, and the handle does not notice that
another one is freed in its place. -/
theorem results_freed_before_run (hr : Reachable s) :
    (∀ later e past k ps, s.2.engine.history = later ++ e :: past → e.call = .execute k ps →
      holdsResult k past → bindingFailed k past ∧ ∃ c, stage k past = some (c, .stranded)) ∧
    (∀ y, s.1.HasHandle (.maria y) →
      (holdsResult y.number s.2.engine.history → y.hasRows) ∧
      (y.hasRows → holdsResult y.number s.2.engine.history ∨
        bindingFailed y.number s.2.engine.history ∧
          ∃ c, stage y.number s.2.engine.history = some (c, .drained))) := by
  have hg : Grown Orderly [] s.2.engine.history := by
    obtain ⟨_, -, he⟩ := hr.accounted
    exact he.orderly
  refine ⟨fun later e past k ps h hc hheld => ?_, fun y hy => ?_⟩
  · rw [h] at hg
    obtain ⟨hpast, hevent⟩ := hg.of_append
    obtain ⟨c, st, hst, ha⟩ := hevent.statement k (by rw [hc]; rfl)
    rw [hpast.holdsResult_eq hst] at hheld
    rw [hc] at ha
    obtain rfl := Stage.eq_stranded ha hheld
    exact ⟨hpast.bindingFailed_of_isSpoiled hst rfl, c, hst⟩
  · obtain ⟨b, c, p, o, hstands, hstage⟩ := hr.accounted.stands hy
    cases hstands with
    | @maria _ n st hb hc hsql hp hrows =>
      have hst := hstage _ _ _ (Multiset.mem_singleton_self _)
      rw [hg.holdsResult_eq hst, hrows]
      by_cases hd : st = .drained
      · subst hd
        exact ⟨nofun, fun _ => .inr ⟨hg.bindingFailed_of_isSpoiled hst rfl, n, hst⟩⟩
      · rw [Stage.isHeld_of_allows hsql hp hd]
        exact ⟨id, .inl⟩

/-- Where the buffers for a result could not be named, the statement is run over it, and its handle
takes a result for stored that was freed. -/
theorem run_over_stranded_result :
    let s := readTrial .maria [refusal "bind_result"] [.update "k"]
    (∃ later e past ps, s.2.engine.history = later ++ e :: past ∧ e.call = .execute 1 ps ∧
      holdsResult 1 past ∧ bindingFailed 1 past) ∧
    ∃ y, s.1.HasHandle (.maria y) ∧ y.hasRows ∧ ¬ holdsResult y.number s.2.engine.history ∧
      bindingFailed y.number s.2.engine.history := by
  intro s
  have hr : Reachable s := readTrial_reachable _ _ _
  obtain ⟨hexecute, hflag⟩ := results_freed_before_run hr
  constructor
  · have hrun : s.2.engine.history[2]?.bind (·.call.executes?) = some 1 := by decide +kernel
    have hheld : holdsResult 1 (s.2.engine.history.drop 3) := by decide +kernel
    obtain ⟨e, he, hexecutes⟩ := Option.bind_eq_some_iff.1 hrun
    obtain ⟨ps, hcall⟩ := Call.of_executes? hexecutes
    have hsplit := History.split he
    exact ⟨_, e, _, ps, hsplit, hcall, hheld, (hexecute _ _ _ _ _ hsplit hcall hheld).1⟩
  · have hhandle : ((s.1.statement? 0 0).map fun z =>
        match z.handle with
        | .maria y => (z.isOpen, y.number, y.hasRows)
        | .sqlite _ => (false, 0, false)) = some (true, 1, true) := by decide +kernel
    have hfreed : holdsResult 1 s.2.engine.history = false := by decide +kernel
    obtain ⟨z, hz, hhandle⟩ := Option.map_eq_some_iff.1 hhandle
    obtain ⟨d, hd, hk⟩ := statement?_eq_some.1 hz
    cases hy : z.handle with
    | sqlite k =>
      rw [hy] at hhandle
      cases hhandle
    | maria y =>
      simp only [hy, Prod.mk.injEq] at hhandle
      obtain ⟨ho, hn, hrows⟩ := hhandle
      have huse : s.1.HasHandle (.maria y) := ⟨0, d, 0, z, hd, hk, .inl ⟨ho, hy⟩⟩
      have hnot : ¬ holdsResult y.number s.2.engine.history := by simp [hn, hfreed]
      exact ⟨y, huse, hrows, hnot, (((hflag y huse).2 hrows).resolve_left hnot).1⟩

end Session

end SqlAccess
