import SqlAccess.Proofs.History

/-!
# How far the engine has got with a statement

A statement goes through a `Stage` after another, from the call that makes it to the one that gives
it up; `stage k h` reads off a history where the statement `k` stands. A stage allows some calls and
not others (`Stage.allows`). SQLite takes no value for a statement that was stepped, and does not
step on behind a step that gave no row. MariaDB keeps the result that a statement stored until it is
freed.

A call is `Orderly` if the statement of which it is asked stands where the call is allowed, and if
the connection of which it is asked was opened and not closed; closing one asks that no statement
is left on it.
-/

namespace SqlAccess

/-! ## Statements -/

/-- How far the engine has got with a statement. -/
inductive Stage
  /-- SQLite: it was not stepped since it was prepared or reset. -/
  | ready
  /-- SQLite: the latest step gave a row. -/
  | onRow
  /-- SQLite: the latest step gave no row. -/
  | halted
  /-- MariaDB: it has no text. -/
  | blank
  /-- MariaDB: no result is stored. -/
  | bare
  /-- MariaDB: a result is stored. -/
  | stored
  /-- MariaDB: a result is stored, and naming the buffers for it failed. -/
  | stranded
  /-- MariaDB: a further result is stored after one was stranded. -/
  | overrun
  /-- MariaDB: the further result was freed, and no result is stored. -/
  | drained
  deriving DecidableEq

namespace Call

/-- The statement that a call gives up. -/
def givesUp? : Call → Option Nat
  | finalize k | closeStatement k => some k
  | _ => none

theorem connection?_of_closes? {call : Call} {c : Nat} (h : call.closes? = some c) :
    call.connection? = some c := by
  cases call <;> simp_all [closes?, connection?]

theorem statement?_of_givesUp? {call : Call} {k : Nat} (h : call.givesUp? = some k) :
    call.statement? = some k := by
  cases call <;> simp_all [givesUp?, statement?]

theorem closes?_of_statement? {call : Call} {k : Nat} (h : call.statement? = some k) :
    call.closes? = none := by
  cases call <;> simp_all [closes?, statement?]

end Call

namespace Event

/-- The connection that a call made. -/
def opens? (e : Event) : Option Nat :=
  match e.call, e.outcome with
  | .openFile _ _, .created c | .openFile _ _, .failed _ (some c) | .init, .created c => some c
  | _, _ => none

/-- The statement that a call made, with its connection and its first stage. -/
def makes? (e : Event) : Option (Nat × Nat × Stage) :=
  match e.call, e.outcome with
  | .prepare c _, .created k => some (k, c, .ready)
  | .newStatement c, .created k => some (k, c, .blank)
  | _, _ => none

theorem makes?_iff {e : Event} {k c : Nat} : (∃ st, e.makes? = some (k, c, st)) ↔
    e.call.prepares c ∧ e.outcome = .created k := by
  obtain ⟨call, outcome⟩ := e
  cases call <;> cases outcome <;> simp [makes?, Call.prepares]
  all_goals exact and_comm

theorem makes?_eq_none {e : Event} (h : ∀ k, e.outcome ≠ .created k) : e.makes? = none := by
  obtain ⟨call, outcome⟩ := e
  cases call <;> cases outcome <;> simp_all [makes?]

theorem makes?_of_statement? {e : Event} {k : Nat} (h : e.call.statement? = some k) :
    e.makes? = none := by
  obtain ⟨call, outcome⟩ := e
  cases call <;> simp_all [makes?, Call.statement?]

theorem opens?_of_statement? {e : Event} {k : Nat} (h : e.call.statement? = some k) :
    e.opens? = none := by
  obtain ⟨call, outcome⟩ := e
  cases call <;> simp_all [opens?, Call.statement?]

theorem opens?_of_connection? {e : Event} {c : Nat} (h : e.call.connection? = some c) :
    e.opens? = none := by
  obtain ⟨call, outcome⟩ := e
  cases call <;> simp_all [opens?, Call.connection?]

/-- A call that makes a statement is asked of its connection, and does not close it. -/
theorem of_makes? {e : Event} {k c : Nat} {st : Stage} (h : e.makes? = some (k, c, st)) :
    e.call.connection? = some c ∧ e.call.closes? = none ∧ e.call.statement? = none := by
  obtain ⟨call, outcome⟩ := e
  cases call <;> cases outcome <;>
    simp_all [makes?, Call.connection?, Call.closes?, Call.statement?]

/-- A call that makes a connection is asked of nothing. -/
theorem of_opens? {e : Event} {c : Nat} (h : e.opens? = some c) : e.call.connection? = none ∧
    e.call.closes? = none ∧ e.call.statement? = none ∧ e.makes? = none := by
  obtain ⟨call, outcome⟩ := e
  cases call <;>
    simp_all [opens?, makes?, Call.connection?, Call.closes?, Call.statement?]

/-- A call that closes a connection makes nothing. -/
theorem of_closes? {e : Event} {c : Nat} (h : e.call.closes? = some c) :
    e.opens? = none ∧ e.makes? = none ∧ e.call.statement? = none := by
  obtain ⟨call, outcome⟩ := e
  cases call <;> simp_all [opens?, makes?, Call.closes?, Call.statement?]

end Event

namespace Stage

/-- Whether the statement is one of SQLite. -/
def ofSqlite : Stage → Bool
  | ready | onRow | halted => true
  | _ => false

/-- Whether a statement of MariaDB can be run. -/
def isIdle : Stage → Bool
  | bare | stranded | drained => true
  | _ => false

/-- Whether a result is stored. -/
def isHeld : Stage → Bool
  | stored | stranded | overrun => true
  | _ => false

/-- Another result is stored. -/
def store : Stage → Stage
  | bare => stored
  | stranded | drained => overrun
  | st => st

/-- The result is freed. -/
def free : Stage → Stage
  | overrun => drained
  | _ => bare

/-- The stage after a call. -/
def after (st : Stage) (e : Event) : Stage :=
  match e.call, e.outcome with
  | .step _, .row => onRow
  | .step _, _ => halted
  | .reset _, _ => ready
  | .prepareText _ _, .done => bare
  | .storeResult _, .done => st.store
  | .bindResult _, .failed _ _ => stranded
  | .freeResult _, _ => st.free
  | _, _ => st

/-- Whether a call may be asked of the statement. -/
def allows (st : Stage) : Call → Bool
  | .bind _ _ _ => st == ready
  | .step _ => st == ready || st == onRow
  | .reset _ | .finalize _ => st.ofSqlite
  | .prepareText _ _ => st == blank
  | .bindParam _ | .execute _ _ | .storeResult _ => st.isIdle
  | .bindResult _ | .fetch _ => st == stored
  | .freeResult _ => st.isHeld || st == drained
  | .closeStatement _ => !st.ofSqlite
  | _ => false

/-- A step without a row ends the rows, also if it fails. -/
theorem after_step {st : Stage} {k : Nat} {o : Outcome} (ho : o ≠ .row) :
    st.after ⟨.step k, o⟩ = halted := by
  cases o <;> first | rfl | exact absurd rfl ho

/-- A statement without a text can get one, or be given up. -/
theorem of_allows_blank {call : Call} {k : Nat} (h : blank.allows call)
    (hk : call.statement? = some k) :
    (∃ sql, call = .prepareText k sql) ∨ call = .closeStatement k := by
  cases call <;> simp_all [allows, ofSqlite, isIdle, isHeld, Call.statement?]

end Stage

/-- The connection of a statement that was made and not given up, and how far the engine has got
with it. -/
def stage (k : Nat) : History → Option (Nat × Stage)
  | [] => none
  | e :: past =>
    match e.makes? with
    | some (k', x) => if k' = k then some x else stage k past
    | none =>
      if e.call.givesUp? = some k then none
      else if e.call.statement? = some k then (stage k past).map fun x => (x.1, x.2.after e)
      else stage k past

/-- Whether a statement was given up. -/
def givenUp (k : Nat) (h : History) : Bool := h.any fun e => e.call.givesUp? == some k

section Stage

variable {e : Event} {past : History} {k : Nat}

theorem stage_of_makes {x : Nat × Stage} (hm : e.makes? = some (k, x)) :
    stage k (e :: past) = some x := by simp [stage, hm]

theorem stage_of_makes_ne {k' : Nat} {x : Nat × Stage} (hm : e.makes? = some (k', x))
    (hk : k' ≠ k) : stage k (e :: past) = stage k past := by simp [stage, hm, hk]

theorem stage_of_givesUp (hg : e.call.givesUp? = some k) : stage k (e :: past) = none := by
  simp [stage, Event.makes?_of_statement? (Call.statement?_of_givesUp? hg), hg]

theorem stage_of_statement (hs : e.call.statement? = some k) (hg : e.call.givesUp? = none) :
    stage k (e :: past) = (stage k past).map fun x => (x.1, x.2.after e) := by
  simp [stage, Event.makes?_of_statement? hs, hg, hs]

/-- Where a statement stands does not depend on calls that are not asked of it. -/
theorem stage_of_ne (hm : ∀ x, e.makes? ≠ some (k, x)) (hs : e.call.statement? ≠ some k) :
    stage k (e :: past) = stage k past := by
  have hg : e.call.givesUp? ≠ some k := fun hg => hs (Call.statement?_of_givesUp? hg)
  cases he : e.makes? with
  | none => simp [stage, he, hg, hs]
  | some x =>
    obtain ⟨k', x⟩ := x
    refine stage_of_makes_ne he ?_
    rintro rfl
    exact hm x he

/-- Where a statement stands goes back to the call that made it, to the latest one that was asked of
it, or to what came before. -/
theorem stage_cons_cases {c : Nat} {st : Stage} (h : stage k (e :: past) = some (c, st)) :
    e.makes? = some (k, c, st) ∨
      (e.call.statement? = some k ∧ e.call.givesUp? = none ∧
        ∃ st₀, stage k past = some (c, st₀) ∧ st = st₀.after e) ∨
      ((∀ x, e.makes? ≠ some (k, x)) ∧ e.call.statement? ≠ some k ∧
        stage k past = some (c, st)) := by
  by_cases hm : ∃ x, e.makes? = some (k, x)
  · obtain ⟨x, hx⟩ := hm
    rw [stage_of_makes hx] at h
    cases h
    exact .inl hx
  have hm (x : Nat × Stage) (hx : e.makes? = some (k, x)) : False := hm ⟨x, hx⟩
  by_cases hs : e.call.statement? = some k
  · cases hg : e.call.givesUp? with
    | some k' =>
      obtain rfl : k' = k := Option.some.inj ((Call.statement?_of_givesUp? hg).symm.trans hs)
      rw [stage_of_givesUp hg] at h
      cases h
    | none =>
      rw [stage_of_statement hs hg] at h
      obtain ⟨⟨c₀, st₀⟩, hst, h⟩ := Option.map_eq_some_iff.1 h
      cases h
      exact .inr (.inl ⟨hs, rfl, st₀, hst, rfl⟩)
  · rw [stage_of_ne hm hs] at h
    exact .inr (.inr ⟨hm, hs, h⟩)

theorem made_of_makes?_eq_none {c : Nat} (hm : e.makes? = none) :
    made c (e :: past) k = made c past k := by
  have hnot : (e.call.prepares c && e.outcome == .created k) = false := by
    refine Bool.eq_false_iff.2 fun h => ?_
    rw [Bool.and_eq_true, beq_iff_eq] at h
    obtain ⟨st, hst⟩ := Event.makes?_iff.2 h
    rw [hm] at hst
    cases hst
  simp [made, hnot]

theorem made_iff_of_makes? {k' c c' : Nat} {st : Stage} (hm : e.makes? = some (k', c', st)) :
    made c (e :: past) k ↔ (c = c' ∧ k = k') ∨ made c past k := by
  obtain ⟨hp, ho⟩ := Event.makes?_iff.1 ⟨st, hm⟩
  have hc : e.call.prepares c = (c' == c) := by
    revert hp
    cases e.call <;> simp +contextual [Call.prepares]
  rw [made, made, List.any_cons, hc, ho, Bool.or_eq_true, Bool.and_eq_true, beq_iff_eq, beq_iff_eq,
    Outcome.created.injEq, eq_comm, @eq_comm _ k]

end Stage

/-! ## Connections -/

/-- Whether a connection was made. -/
def everOpened (c : Nat) (h : History) : Bool := h.any fun e => e.opens? == some c

/-- Whether a connection was to be closed. -/
def closeAsked (c : Nat) (h : History) : Bool := h.any fun e => e.call.closes? == some c

/-- Whether the engine refused to close a connection. -/
def closeRefused (c : Nat) (h : History) : Bool :=
  h.any fun e => e.call.closes? == some c && e.outcome.isFailure

section Connections

variable {e : Event} {past : History} {c : Nat}

theorem everOpened_cons_iff :
    everOpened c (e :: past) ↔ e.opens? = some c ∨ everOpened c past := by
  simp [everOpened]

theorem closeAsked_cons_iff :
    closeAsked c (e :: past) ↔ e.call.closes? = some c ∨ closeAsked c past := by
  simp [closeAsked]

theorem closeRefused_cons_iff : closeRefused c (e :: past) ↔
    (e.call.closes? = some c ∧ e.outcome.isFailure) ∨ closeRefused c past := by
  simp [closeRefused]

theorem closeAsked_of_closeRefused (h : closeRefused c past) : closeAsked c past := by
  obtain ⟨e, he, hc⟩ := List.any_eq_true.1 h
  rw [Bool.and_eq_true] at hc
  exact List.any_eq_true.2 ⟨e, he, hc.1⟩

end Connections

/-! ## The order of calls -/

/-- A call is asked of a statement that allows it, and of a connection that is open. -/
structure Orderly (past : History) (e : Event) : Prop where
  statement : ∀ k, e.call.statement? = some k →
    ∃ c st, stage k past = some (c, st) ∧ st.allows e.call
  /-- No number is given to two statements. -/
  fresh : ∀ k x, e.makes? = some (k, x) → ∀ c, ¬ made c past k
  connection : ∀ c, e.call.connection? = some c → everOpened c past ∧ ¬ closeAsked c past
  /-- No statement is left on a connection that is closed. -/
  close : ∀ c, e.call.closes? = some c → ∀ k st, stage k past ≠ some (c, st)

namespace Orderly

variable {e : Event} {past : History} {k c : Nat}

/-- A call on a statement is in order if the statement allows it. -/
theorem of_statement {st : Stage} (hk : e.call.statement? = some k)
    (hst : stage k past = some (c, st)) (ha : st.allows e.call) : Orderly past e where
  statement k' hk' := by
    obtain rfl : k = k' := Option.some.inj (hk.symm.trans hk')
    exact ⟨c, st, hst, ha⟩
  fresh k' x hm := by
    rw [Event.makes?_of_statement? hk] at hm
    cases hm
  connection c' hc := by
    rw [Call.connection?_of_statement? hk] at hc
    cases hc
  close c' hc := by
    have := Call.connection?_of_closes? hc
    rw [Call.connection?_of_statement? hk] at this
    cases this

/-- A call that is not on a statement is in order if its connection is open and nothing is made
twice or closed too early. -/
theorem of_connection (hs : e.call.statement? = none)
    (hm : ∀ k x, e.makes? = some (k, x) → ∀ c, ¬ made c past k)
    (hc : ∀ c, e.call.connection? = some c → everOpened c past ∧ ¬ closeAsked c past)
    (hclose : ∀ c, e.call.closes? = some c → ∀ k st, stage k past ≠ some (c, st)) :
    Orderly past e := by
  refine ⟨fun k hk => ?_, hm, hc, hclose⟩
  rw [hs] at hk
  cases hk

end Orderly

namespace Grown

variable {h : History} {k c : Nat}

/-- Only connections that were made are closed. -/
theorem everOpened_of_closeAsked (hg : Grown Orderly [] h) (hc : closeAsked c h) :
    everOpened c h := by
  induction hg with
  | refl => cases hc
  | call hg he ih =>
    simp only [closeAsked, everOpened, List.any_cons, Bool.or_eq_true, beq_iff_eq] at hc ih ⊢
    obtain hc | hc := hc
    · exact .inr (by simpa [everOpened] using (he.connection c (Call.connection?_of_closes? hc)).1)
    · exact .inr (ih hc)

/-- A statement that was not made is asked nothing. -/
theorem not_asked (hg : Grown Orderly [] h) (hm : ∀ c, ¬ made c h k) :
    stage k h = none ∧ ∀ e ∈ h, e.call.statement? ≠ some k := by
  induction hg with
  | refl => exact ⟨rfl, nofun⟩
  | @call past e hg he ih =>
    have hpast (c : Nat) (hc : made c past k) : False :=
      hm c (made_of_suffix (List.suffix_cons e past) hc)
    obtain ⟨hs, hnone⟩ := ih fun c hc => hpast c hc
    have hasked : e.call.statement? ≠ some k := fun hk => by
      obtain ⟨c, st, hst, -⟩ := he.statement k hk
      rw [hs] at hst
      cases hst
    refine ⟨?_, fun e' he' => ?_⟩
    · rw [stage_of_ne ?_ hasked, hs]
      rintro ⟨c, st⟩ hmk
      obtain ⟨hp, ho⟩ := Event.makes?_iff.1 ⟨st, hmk⟩
      exact hm c (by simp [made, hp, ho])
    · obtain rfl | he' := List.mem_cons.1 he'
      · exact hasked
      · exact hnone e' he'

/-- A statement stands where it does from the call that made it to the one that gives it up. -/
theorem stage_isSome_iff (hg : Grown Orderly [] h) :
    (stage k h).isSome ↔ (∃ c, made c h k) ∧ ¬ givenUp k h := by
  induction hg with
  | refl => simp [stage, made]
  | @call past e hg he ih =>
    cases hm : e.makes? with
    | some x =>
      obtain ⟨k', c, st⟩ := x
      obtain ⟨hp, ho⟩ := Event.makes?_iff.1 ⟨st, hm⟩
      have hnone : e.call.givesUp? = none := by
        cases hcall : e.call <;> simp_all [Call.prepares, Call.givesUp?]
      by_cases hk : k' = k
      · subst hk
        have hnot : ¬ givenUp k' past := fun hup => by
          obtain ⟨e', he', hk'⟩ := List.any_eq_true.1 hup
          have hasked := (hg.not_asked (he.fresh _ _ hm)).2 e' he'
          exact hasked (Call.statement?_of_givesUp? (beq_iff_eq.1 hk'))
        simp only [stage_of_makes hm, Option.isSome_some, true_iff]
        refine ⟨⟨c, by simp [made, hp, ho]⟩, ?_⟩
        simpa [givenUp, hnone] using hnot
      · have hmade (c' : Nat) : made c' (e :: past) k = made c' past k := by
          simp [made, ho, hk]
        simp only [stage_of_makes_ne hm hk, ih, hmade, givenUp, List.any_cons, hnone]
        simp
    | none =>
      have hmade (c' : Nat) : made c' (e :: past) k = made c' past k :=
        made_of_makes?_eq_none hm
      by_cases hup : e.call.givesUp? = some k
      · simp [stage_of_givesUp hup, givenUp, hup]
      · have hgiven : givenUp k (e :: past) = givenUp k past := by
          simp [givenUp, hup]
        have hstage : (stage k (e :: past)).isSome = (stage k past).isSome := by
          by_cases hs : e.call.statement? = some k <;> simp [stage, hm, hup, hs]
        simp only [hstage, ih, hmade, hgiven]

/-- What holds of a statement when it is made, and is kept by the calls that it allows, holds as
long as it has a stage. -/
theorem stage_induction {I : Nat → Stage → History → Prop}
    (make : ∀ past e c st, (∀ c, ¬ made c past k) → (∀ e ∈ past, e.call.statement? ≠ some k) →
      e.makes? = some (k, c, st) → I c st (e :: past))
    (ask : ∀ past e c st, e.call.statement? = some k → e.call.givesUp? = none →
      st.allows e.call → I c st past → I c (st.after e) (e :: past))
    (pass : ∀ past e c st, (∀ x, e.makes? ≠ some (k, x)) → e.call.statement? ≠ some k →
      I c st past → I c st (e :: past))
    (hg : Grown Orderly [] h) {st : Stage} (hst : stage k h = some (c, st)) : I c st h := by
  induction hg generalizing st with
  | refl => cases hst
  | @call past e hg he ih =>
    obtain hm | ⟨hk, hgiven, st₀, hst₀, rfl⟩ | ⟨hm, hk, hst⟩ := stage_cons_cases hst
    · have hnew := he.fresh _ _ hm
      exact make past e c st hnew (hg.not_asked hnew).2 hm
    · obtain ⟨c', st', hst', ha⟩ := he.statement k hk
      cases hst₀.symm.trans hst'
      exact ask past e c st₀ hk hgiven ha (ih hst₀)
    · exact pass past e c st hm hk (ih hst)

end Grown

end SqlAccess
