import SqlAccess.Proofs.Holdings.Session

/-!
# Lifetimes

Whatever fails, nothing is asked of a statement before it was prepared or after it was given up, and
nothing of a connection once it was to be closed, not even if the engine refused. A connection is
closed when every statement that was prepared on it has been given up, among them those of the
cursors over generated keys. What is only looked at, as the text of the latest failure is, is there
too (`calls_within_lifetimes`).

All of this is in the stages of the statements: a statement has one from the call that makes it to
the one that gives it up, and no statement with a stage is left on a connection that is closed.
-/

namespace SqlAccess

/-- Whether a statement got its text. -/
def prepared (k : Nat) (h : History) : Bool :=
  h.any fun e =>
    match e.call, e.outcome with
    | .prepare _ _, .created k' | .prepareText k' _, .done => k' == k
    | _, _ => false

/-- A call falls within the lifetimes of the statement and the connection of which it is asked.
Giving up a statement and closing a connection are such calls themselves. -/
structure InLifetime (past : History) (e : Event) : Prop where
  /-- A statement was made before and not given up yet. Until it got its text that is all it can
  get, or it is given up. -/
  statement : ∀ k, e.call.statement? = some k → (∃ c, made c past k) ∧ ¬ givenUp k past ∧
    (prepared k past ∨ (∃ sql, e.call = .prepareText k sql) ∨ e.call = .closeStatement k)
  /-- A connection was opened, and was not to be closed yet. -/
  connection : ∀ c, e.call.connection? = some c → everOpened c past ∧ ¬ closeAsked c past
  /-- Every statement of a connection was given up before it is closed. -/
  close : ∀ c, e.call = .close c → ∀ k, made c past k → givenUp k past

section Prepared

variable {past : History} {e : Event} {k c : Nat} {st : Stage}

theorem prepared_of_makes (hm : e.makes? = some (k, c, st)) (hne : st ≠ .blank) :
    prepared k (e :: past) := by
  obtain ⟨call, outcome⟩ := e
  unfold Event.makes? at hm
  split at hm
  · cases hm
    simp_all [prepared]
  · cases hm
    exact absurd rfl hne
  · cases hm

theorem prepared_of_blank (ha : Stage.blank.allows e.call) (hk : e.call.statement? = some k)
    (hg : e.call.givesUp? = none) (hne : Stage.blank.after e ≠ .blank) :
    prepared k (e :: past) := by
  obtain ⟨call, outcome⟩ := e
  obtain ⟨sql, rfl⟩ | rfl := Stage.of_allows_blank ha hk
  · cases outcome <;> simp_all [prepared, Stage.after]
  · cases hg

end Prepared

namespace Grown

variable {P : History → Event → Prop} {past later h : History} {e : Event} {k c : Nat} {st : Stage}

/-- A statement has its text once it is no more blank. -/
theorem prepared_of_stage (hg : Grown Orderly [] h) (hst : stage k h = some (c, st))
    (hne : st ≠ .blank) : prepared k h := by
  have later {past : History} {e : Event} (hp : prepared k past) : prepared k (e :: past) := by
    rw [prepared, List.any_cons, Bool.or_eq_true]
    exact .inr hp
  refine hg.stage_induction (I := fun _ st h => st ≠ .blank → prepared k h) ?_ ?_ ?_ hst hne
  · exact fun past e c st _ _ hm => prepared_of_makes hm
  · intro past e c st hk hg ha ih hne
    by_cases hblank : st = .blank
    · subst hblank
      exact prepared_of_blank ha hk hg hne
    · exact later (ih hblank)
  · exact fun past e c st _ _ ih hne => later (ih hne)

/-- A statement is on the connection that it was made on. -/
theorem made_iff_of_stage (hg : Grown Orderly [] h) (hst : stage k h = some (c, st)) (c' : Nat) :
    made c' h k ↔ c' = c := by
  refine hg.stage_induction (I := fun c _ h => made c' h k ↔ c' = c) ?_ ?_ ?_ hst
  · intro past e c st hnew _ hm
    simp [made_iff_of_makes? hm, hnew c']
  · intro past e c st hk _ _ ih
    rwa [made_of_makes?_eq_none (Event.makes?_of_statement? hk)]
  · intro past e c st hm _ ih
    cases hmade : e.makes? with
    | none => rwa [made_of_makes?_eq_none hmade]
    | some x =>
      obtain ⟨k', c₁, st₁⟩ := x
      rw [made_iff_of_makes? hmade, or_iff_right, ih]
      rintro ⟨-, rfl⟩
      exact hm _ hmade

theorem inLifetime (hg : Grown Orderly [] h) : Grown InLifetime [] h := by
  induction hg with
  | refl => exact .refl
  | @call past e hg he ih =>
    refine .call ih ⟨fun k hk => ?_, he.connection, fun c hc k hm => ?_⟩
    · obtain ⟨c, st, hst, ha⟩ := he.statement k hk
      obtain ⟨hmade, hup⟩ := hg.stage_isSome_iff.1 (Option.isSome_of_eq_some hst)
      refine ⟨hmade, hup, ?_⟩
      by_cases hne : st = .blank
      · subst hne
        exact .inr (Stage.of_allows_blank ha hk)
      · exact .inl (hg.prepared_of_stage hst hne)
    · have hclose := he.close c (by rw [hc]; rfl) k
      by_contra hup
      have hsome := hg.stage_isSome_iff.2 ⟨⟨c, hm⟩, hup⟩
      obtain ⟨⟨c', st⟩, hst⟩ := Option.isSome_iff_exists.1 hsome
      obtain rfl := (hg.made_iff_of_stage hst c).1 hm
      exact hclose st hst

end Grown

/-- What is there is what was made and not taken back: a connection stays when closing it is
refused. Nothing else was looked at. -/
structure Engine.Seen (e : Engine) : Prop where
  statements : ∀ k, k ∈ e.statements.numbers ↔ (∃ c, made c e.history k) ∧ ¬ givenUp k e.history
  connections : ∀ c, c ∈ e.connections.numbers ↔
    everOpened c e.history ∧ (closeAsked c e.history → closeRefused c e.history)
  strayed : e.strayed = false

theorem Engine.Carries.seen {e : Engine} {x : Multiset Asset} (he : e.Carries x) : e.Seen where
  statements k := by
    rw [← Engine.outline_numbers, he.statements.mem_numbers_iff]
    exact he.orderly.stage_isSome_iff
  connections := he.connections.listed
  strayed := he.strayed

namespace Session

/-- At any time, and whatever failed, every call that was made fell within the lifetimes of what it
was asked of, and what was looked at was there. -/
theorem calls_within_lifetimes {s : Session × World} (hr : Reachable s) :
    (∀ later e past, s.2.engine.history = later ++ e :: past → InLifetime past e) ∧
      s.2.engine.Seen := by
  obtain ⟨_, -, he⟩ := hr.accounted
  refine ⟨fun later e past h => ?_, he.seen⟩
  have hg : Grown InLifetime [] s.2.engine.history := he.orderly.inLifetime
  rw [h] at hg
  exact hg.of_append.2

/-- A session in which a statement was run in a transaction for its generated keys, while some calls
fail, and what is done then. -/
def insertTrial (b : Backend) (rules : List Rule) (steps : List Step) : Session × World :=
  let query : Query :=
    { source := .text [] (some "A"), declarations := { keys := .ofList [("id", .int64)] } }
  let keys : Script :=
    { sql := b.keysSql ["id"], columns := [some "id"], rows := [[some (.int 7)]] }
  (outcome (run ([.connect "d" (some "host") {}, .begin "d" "t", .prepareIn "t" (some query) "k",
    .insert "k" "c"] ++ steps)) (start b "3.40.0" rules [keys])).2

theorem insertTrial_reachable (b : Backend) (rules : List Rule) (steps : List Step) :
    Reachable (insertTrial b rules steps) :=
  (run_later _).reachable (.start b "3.40.0" rules _)

/-- A rule that lets a call fail once. -/
def refusal (call : Bytes) : Rule :=
  { call, failure := { code := 10, message := none, noHandle := false } }

/-- The statement of a cursor over keys is given up before its connection is closed, although that
fails and the closing too. Then the connection is still there, and is looked at for the failure. -/
theorem keys_given_up_before_close :
    let s := insertTrial .sqlite [refusal "finalize", refusal "close"] [.close (.database "d")]
    ∃ e past, s.2.engine.history = e :: past ∧ e.call = .close 1 ∧ e.outcome.isFailure ∧
      made 1 past 2 ∧ givenUp 2 past ∧ 1 ∈ s.2.engine.connections.numbers ∧
      s.2.engine.strayed = false := by
  intro s
  have hr : Reachable s := insertTrial_reachable _ _ _
  obtain ⟨hlife, hseen⟩ := calls_within_lifetimes hr
  have hlast : s.2.engine.history.head?.map (fun e => (e.call.closes?, e.outcome.isFailure)) =
      some (some 1, true) := by decide +kernel
  have hmade : made 1 s.2.engine.history.tail 2 := by decide +kernel
  cases h : s.2.engine.history with
  | nil =>
    rw [h] at hlast
    cases hlast
  | cons e past =>
    rw [h] at hlast hmade
    simp only [List.head?_cons, Option.map_some, Option.some.injEq, Prod.mk.injEq] at hlast
    have hclose : e.call = .close 1 := by
      revert hlast
      cases e.call <;> simp +contextual [Call.closes?]
    exact ⟨e, past, rfl, hclose, hlast.2, hmade, (hlife [] e past h).close 1 hclose 2 hmade,
      by decide +kernel, hseen.strayed⟩

end Session

end SqlAccess
