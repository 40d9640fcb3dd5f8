import SqlAccess.Proofs.Database.Releases
import SqlAccess.Proofs.Session.Reachable

/-!
# Failures on the way to the end

Closing a statement or a database, committing and rolling back each give up one thing after another
(`Session.gives?`). Every one of these is attempted, and each failure is either the answer or a
warning of the log (`Session.failures_reported`). There is one exception: where a commit is refused,
that is the answer, and the first failure to close a statement before it is neither answered nor
logged (`Session.lost_before_refused_commit`).
-/

namespace SqlAccess

/-- Whether a step brings something to its end, and reports how that went. -/
def Step.ends : Step → Bool
  | .close (.statement _) | .close (.database _) | .commit _ | .rollback _ | .rollbackThrough _ =>
    true
  | _ => false

/-- A transaction that is open, with no open one nested in it. -/
def Database.ready? (d : Database) (t : Nat) : Option Transaction :=
  (d.transactions.find? t).filter fun x => x.isOpen && (d.openChild? t).isNone

namespace Database

variable {d : Database} {t : Nat} {x : Transaction}

theorem ready?_eq_some : d.ready? t = some x ↔ d.Ready t x := by
  simp only [ready?, Option.filter_eq_some_iff, Ready, Transaction.isOpen, Bool.and_eq_true,
    Option.isNone_iff_eq_none]

theorem active_idle {attempt : Attempt} {w : World} (h : d.ready? t = none) :
    After (active attempt t).run (d, w) fun r s' => s' = (d, w) ∧ ∃ f, r = .error f := by
  refine active_after.mono fun r s' ⟨hsame, hok, _⟩ => ⟨hsame, ?_⟩
  cases r with
  | error f => exact ⟨f, rfl⟩
  | ok x =>
    rw [ready?_eq_some.2 (hok x rfl)] at h
    cases h

end Database

namespace Session

/-- What a step gives up, one after another, and the database to which it belongs. -/
def gives? (s : Session) : Step → Option (Database × List Release)
  | .close (.statement name) => do
    let r ← s.statements.find? name
    let d ← s.opened.find? r.database
    return (d, d.releases r.number)
  | .close (.database name) => do
    let d ← s.opened.find? (← s.databases.find? name)
    if d.isOpen then return (d, d.closing) else none
  | .commit name => do
    let r ← s.transactions.find? name
    let d ← s.opened.find? r.database
    let x ← d.ready? r.number
    return (d, d.ownReleases r.number ++ [.kept x.origin])
  | .rollback name => do
    let r ← s.transactions.find? name
    let d ← s.opened.find? r.database
    let _ ← d.ready? r.number
    return (d, d.undoReleases r.number)
  | .rollbackThrough name => do
    let r ← s.transactions.find? name
    let d ← s.opened.find? r.database
    if d.isActive r.number then return (d, (d.openFrom r.number).flatMap d.undoReleases) else none
  | _ => none

/-- What a step warns of although nothing has failed. -/
def notices (d : Database) : Step → Multiset LogLine
  | .close (.database _) => d.closingNotice
  | _ => 0

variable {s : Session × World} {n : Nat} {d : Database} {x : Step}

theorem Reachable.listed (hr : Reachable s) (hd : s.1.opened.find? n = some d) : d.Listed := by
  obtain ⟨d₀, h₀, hborn, hlife⟩ := hr.life hd
  obtain ⟨l, rfl⟩ := hborn.link
  exact Database.Listed.life .opened hlife

/-- Work on a database does to the world what it does there. -/
theorem onDatabase_world {α : Type} {otherwise : α} {f : StateT Database Act α}
    {P : α → World → Prop} (hd : s.1.opened.find? n = some d)
    (hf : After f (d, s.2) fun a s' => P a s'.2) :
    After (onDatabase n otherwise f) s fun a s' => P a s'.2 :=
  (onDatabase_iff hd).2 hf

theorem onDatabase_idle {α : Type} {otherwise : α} {f : StateT Database Act α}
    (hf : ∀ d, s.1.opened.find? n = some d → After f (d, s.2) fun _ s' => s'.2 = s.2) :
    After (onDatabase n otherwise f) s fun _ s' => s'.2 = s.2 :=
  onDatabase_cases (fun _ => rfl) hf

/-- A step that has nothing to give up, or must not, does nothing. -/
theorem carryOut_idle (hx : x.ends) (hg : s.1.gives? x = none) :
    After (carryOut x) s fun _ s' => s'.2 = s.2 := by
  have refused {name : Bytes} {f : Nat → Op Database Unit}
      (hf : ∀ r d, s.1.transactions.find? name = some r → s.1.opened.find? r.database = some d →
        After (f r.number).run (d, s.2) fun _ s' => s'.2 = s.2) :
      After (do return .plain (← withTransaction name fun r => f r.number) : SessionM Reply) s
        fun _ s' => s'.2 = s.2 := by
    exact After.seq (withTransaction_cases (fun _ => rfl) fun r hr =>
      onDatabase_idle fun d hd => hf r d hr hd) fun _ _ h => After.pure_iff.2 h
  unfold Step.ends at hx
  unfold gives? at hg
  split at hx
  · next name =>
    refine After.bind_iff.2 <| After.bind_iff.2 <| After.get_iff.2 ?_
    cases hr : s.1.statements.find? name with
    | none => exact After.pure_iff.2 (After.pure_iff.2 rfl)
    | some r =>
      refine After.bind_iff.2 <| After.modify_iff.2 ?_
      refine (onDatabase_idle (s := (_, s.2)) fun d hd => ?_).mono fun _ _ h => After.pure_iff.2 h
      simp [hr, show s.1.opened.find? r.database = some d from hd] at hg
  · next name =>
    refine After.bind_iff.2 <| After.bind_iff.2 <| After.get_iff.2 ?_
    cases hr : s.1.databases.find? name with
    | none => exact After.pure_iff.2 (After.pure_iff.2 rfl)
    | some m =>
      refine After.bind_iff.2 <| After.modify_iff.2 ?_
      refine (onDatabase_idle (s := (_, s.2)) fun d hd => ?_).mono fun _ _ h => After.pure_iff.2 h
      have hclosed : d.isOpen = false := by
        simpa [hr, show s.1.opened.find? m = some d from hd] using hg
      unfold Database.close
      refine After.bind_iff.2 (After.get_iff.2 ?_)
      simp only [hclosed]
      exact After.pure_iff.2 rfl
  · next name =>
    refine refused fun r d hr hd => ?_
    have hnone : d.ready? r.number = none :=
      Option.eq_none_iff_forall_ne_some.2 (by simpa [hr, hd] using hg)
    unfold Database.commit
    refine After.try_bind_iff.2 <| (Database.active_idle hnone).mono ?_
    rintro _ _ ⟨rfl, f, rfl⟩
    rfl
  · next name =>
    refine refused fun r d hr hd => ?_
    have hnone : d.ready? r.number = none :=
      Option.eq_none_iff_forall_ne_some.2 (by simpa [hr, hd] using hg)
    unfold Database.rollback
    refine After.try_bind_iff.2 <| (Database.active_idle hnone).mono ?_
    rintro _ _ ⟨rfl, f, rfl⟩
    rfl
  · next name =>
    refine After.bind_iff.2 <| After.bind_iff.2 <| After.get_iff.2 ?_
    cases hr : s.1.transactions.find? name with
    | none => exact After.pure_iff.2 (After.pure_iff.2 rfl)
    | some r =>
      refine (onDatabase_idle fun d hd => ?_).mono fun _ _ h => After.pure_iff.2 h
      have hended : d.isActive r.number = false := by simpa [hr, hd] using hg
      unfold Database.rollbackThrough
      refine After.bind_iff.2 (After.get_iff.2 ?_)
      simp only [hended]
      exact After.pure_iff.2 rfl
  · cases hx

/-- What a step gave up, one thing after another, and how it was reported: the first failure is the
answer, and the log warns of the others. Only where a commit is refused it is that failure which is
the answer. -/
def Ended (x : Step) (d : Database) (rs : List Release) (w : World) (r : Except Fault Unit)
    (w' : World) : Prop :=
  (∃ name last before, x = .commit name ∧ rs = before ++ [last] ∧
    Refuses d.link before last w r w') ∨
    Settles d.link rs (notices d x) w r w' ∧ ∀ name, x = .commit name →
      ∃ rest, (outcome (attemptAll d.link rs) w.engine).1 = rest ++ [.ok ()]

/-- What a step gives up it attempts to give up. -/
theorem carryOut_ended {rs : List Release} (hr : Reachable s) (hg : s.1.gives? x = some (d, rs)) :
    After (carryOut x) s fun reply s' => ∃ r, reply = .plain r ∧ Ended x d rs s.2 r s'.2 := by
  have plain {y : SessionM (Except Fault Unit)}
      (hy : After y s fun r s' => Ended x d rs s.2 r s'.2) :
      After (do return .plain (← y) : SessionM Reply) s fun reply s' =>
        ∃ r, reply = .plain r ∧ Ended x d rs s.2 r s'.2 :=
    After.bind_iff.2 (hy.mono fun r _ h => After.pure_iff.2 ⟨r, rfl, h⟩)
  unfold gives? at hg
  split at hg
  · next name =>
    obtain ⟨r, hr', hg⟩ := Option.bind_eq_some_iff.1 hg
    obtain ⟨d, hd, hg⟩ := Option.bind_eq_some_iff.1 hg
    cases hg
    refine plain <| After.bind_iff.2 <| After.get_iff.2 ?_
    simp only [hr']
    refine After.bind_iff.2 <| After.modify_iff.2 <| onDatabase_world (s := (_, s.2)) hd ?_
    exact (Database.closeStatement_settles (hr.sound.database _ d hd) r.number).mono
      fun _ _ h => .inr ⟨h.1, nofun⟩
  · next name =>
    obtain ⟨m, hm, hg⟩ := Option.bind_eq_some_iff.1 hg
    obtain ⟨d, hd, hg⟩ := Option.bind_eq_some_iff.1 hg
    obtain ⟨ho, hg⟩ := Option.ite_none_right_eq_some.1 hg
    cases hg
    refine plain <| After.bind_iff.2 <| After.get_iff.2 ?_
    simp only [hm]
    refine After.bind_iff.2 <| After.modify_iff.2 <| onDatabase_world (s := (_, s.2)) hd ?_
    exact (Database.close_settles (hr.sound.database _ d hd) (hr.listed hd) ho).mono
      fun _ _ h => .inr ⟨h, nofun⟩
  · next name =>
    obtain ⟨r, hr', hg⟩ := Option.bind_eq_some_iff.1 hg
    obtain ⟨d, hd, hg⟩ := Option.bind_eq_some_iff.1 hg
    obtain ⟨y, hy, hg⟩ := Option.bind_eq_some_iff.1 hg
    cases hg
    have hs := hr.sound.database _ d hd
    have hready := Database.ready?_eq_some.1 hy
    have ho := hs.owned.transaction _ y hready.1 hready.2.1
    refine plain <| (withTransaction_iff hr').2 <| onDatabase_world hd <|
      (Database.commit_settles hs (hr.listed hd) hready ho).mono fun _ _ h => ?_
    obtain ⟨hrest, h⟩ | h := h
    · exact .inr ⟨h, fun _ _ => hrest⟩
    · exact .inl ⟨name, _, _, rfl, rfl, h⟩
  · next name =>
    obtain ⟨r, hr', hg⟩ := Option.bind_eq_some_iff.1 hg
    obtain ⟨d, hd, hg⟩ := Option.bind_eq_some_iff.1 hg
    obtain ⟨y, hy, hg⟩ := Option.bind_eq_some_iff.1 hg
    cases hg
    exact plain <| (withTransaction_iff hr').2 <| onDatabase_world hd <|
      (Database.rollback_settles (hr.sound.database _ d hd) (hr.listed hd)
        (Database.ready?_eq_some.1 hy)).mono fun _ _ h => .inr ⟨h.1, nofun⟩
  · next name =>
    obtain ⟨r, hr', hg⟩ := Option.bind_eq_some_iff.1 hg
    obtain ⟨d, hd, hg⟩ := Option.bind_eq_some_iff.1 hg
    obtain ⟨ht, hg⟩ := Option.ite_none_right_eq_some.1 hg
    cases hg
    refine plain <| After.bind_iff.2 <| After.get_iff.2 ?_
    simp only [hr']
    exact onDatabase_world hd <| (Database.rollbackThrough_settles (hr.sound.database _ d hd)
      (hr.listed hd) ht).mono fun _ _ h => .inr ⟨h, nofun⟩
  · cases hg

/-- What is written while a step is carried out is reported. -/
theorem step_log {P : Reply → List LogLine → World → Prop}
    (hx : After (carryOut x) s fun reply s' =>
      ∃ new, s'.2.log = new ++ s.2.log ∧ P reply new.reverse s'.2) :
    After (step x) s fun report s' => P report.toReply report.log s'.2 := by
  have reported : After (carryOut x) s fun reply s' =>
      P reply (since s.2.log.length s'.2.log) s'.2 := hx.mono fun reply s' ⟨new, hnew, h⟩ => by
    have hsince : since s.2.log.length s'.2.log = new.reverse := by simp [since, hnew]
    rwa [hsince]
  exact reported

theorem firstOf_fault (fs : List Fault) : (Reply.plain (firstOf fs)).fault = fs.head? := by
  cases fs <;> rfl

/-- A step that brings something to its end attempts to give up each thing that it holds, in order
and whatever fails. The answer is the first failure, and each other one has a warning in the log,
which has no more warnings. Where a commit is refused, that is the answer, and of the failures
before it the first one is lost. What is refused altogether does nothing. -/
theorem failures_reported (hr : Reachable s) (hx : x.ends) :
    (s.1.gives? x = none → (after x s).2 = s.2) ∧
    ∀ d rs, s.1.gives? x = some (d, rs) →
      After (step x) s fun report s' =>
        let tried := outcome (attemptAll d.link rs) s.2.engine
        let refused := (∃ name, x = .commit name) ∧ ∃ f, tried.1.getLast? = some (.error f)
        s'.2.engine = tried.2 ∧
        (¬ refused → report.fault = (failures tried.1).head? ∧ (d.link.options.sink.takes .warn →
          Told (failures tried.1).tail (notices d x) report.log)) ∧
        (refused → report.fault = (failures tried.1).getLast? ∧ (d.link.options.sink.takes .warn →
          Told (failures tried.1).dropLast.tail 0 report.log)) := by
  refine ⟨fun hg => carryOut_idle hx hg, fun d rs hg => ?_⟩
  dsimp only
  refine step_log (P := fun reply log w =>
    w.engine = (outcome (attemptAll d.link rs) s.2.engine).2 ∧
    (_ → reply.fault = _ ∧ (_ → Told _ _ log)) ∧ (_ → reply.fault = _ ∧ (_ → Told _ _ log))) ?_
  refine (carryOut_ended hr hg).mono ?_
  rintro _ s' ⟨r, rfl, ⟨name, last, before, rfl, rfl, h⟩ | ⟨h, hcommit⟩⟩
  · obtain ⟨he, ⟨f, rfl, hf⟩, new, hnew, htold⟩ := h
    rw [hf, failures_append]
    refine ⟨new, hnew, he, fun hnot => ?_, fun _ => ⟨?_, fun htakes => ?_⟩⟩
    · exact absurd ⟨⟨name, rfl⟩, f, by simp⟩ hnot
    · simp [failures, Reply.plain, Reply.of]
    · simpa [failures] using (htold htakes).reverse
  · obtain ⟨he, new, hnew, hr, htold⟩ := h
    refine ⟨new, hnew, he, fun _ => ⟨?_, fun htakes => (htold htakes).reverse⟩, ?_⟩
    · rw [hr, firstOf_fault]
    · rintro ⟨⟨name, rfl⟩, f, hf⟩
      obtain ⟨rest, hrest⟩ := hcommit name rfl
      simp [hrest] at hf

/-- A session in which a statement was prepared in a transaction, over an engine that refuses to
close statements and to commit. -/
def refusedTrial : Session × World :=
  let query : Query := { source := .text [] (some "A"), declarations := {} }
  let refusal (call : Bytes) : Rule := { call, failure := ⟨1, none, false⟩ }
  (outcome (run [.connect "d" (some "host") {}, .begin "d" "t", .prepareIn "t" (some query) "k"])
    (start .maria "10.5.0" [refusal "stmt_close", refusal "query COMMIT"] [])).2

/-- Where a commit is refused after a statement could not be closed, nothing tells of the
statement. -/
theorem lost_before_refused_commit :
    let refused : Fault := .engine .error "COMMIT" 1 "unknown error"
    ∃ d rs, refusedTrial.1.gives? (.commit "t") = some (d, rs) ∧
      failures (outcome (attemptAll d.link rs) refusedTrial.2.engine).1 =
        [.statementClose, refused] ∧
      After (step (.commit "t")) refusedTrial fun report _ =>
        report.fault = some refused ∧ warnings report.log = 0 := by
  intro refused
  have hr : Reachable refusedTrial := (run_later _).reachable (.start .maria "10.5.0" _ [])
  have hgives : (refusedTrial.1.gives? (.commit "t")).map
      (fun p => (p.1.link.options.sink.takes .warn,
      (outcome (attemptAll p.1.link p.2) refusedTrial.2.engine).1.map Except.toOption,
      failures (outcome (attemptAll p.1.link p.2) refusedTrial.2.engine).1)) =
        some (true, [none, none], [.statementClose, refused]) := by decide +kernel
  obtain ⟨⟨d, rs⟩, hg, hstate⟩ := Option.map_eq_some_iff.1 hgives
  simp only [Prod.mk.injEq] at hstate
  obtain ⟨htakes, hlast, hfailures⟩ := hstate
  have hcommit : (∃ name, Step.commit "t" = .commit name) ∧ ∃ f,
      (outcome (attemptAll d.link rs) refusedTrial.2.engine).1.getLast? = some (.error f) := by
    refine ⟨⟨_, rfl⟩, ?_⟩
    have hnone := congrArg List.getLast? hlast
    rw [List.getLast?_map] at hnone
    obtain ⟨r, hr, hnone⟩ := Option.map_eq_some_iff.1 hnone
    cases r with
    | error f => exact ⟨f, hr⟩
    | ok _ => cases hnone
  refine ⟨d, rs, hg, hfailures, ((failures_reported hr rfl).2 d rs hg).mono fun report _ h => ?_⟩
  obtain ⟨hfault, htold⟩ := h.2.2 hcommit
  obtain ⟨told, hrel, hwarnings⟩ := htold htakes
  rw [hfailures] at hfault hrel
  obtain rfl : told = 0 := Multiset.rel_zero_left.1 hrel
  exact ⟨hfault, hwarnings⟩

end Session

end SqlAccess
