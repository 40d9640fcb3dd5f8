import SqlAccess.Proofs.Holdings.Session
import SqlAccess.Proofs.Refusals
import SqlAccess.Proofs.Heeding.Database

/-!
# Sessions heed failures

Every operation of a backend heeds the calls that it makes (`Backend.Faithful`), and so does every
step that begins or commits a transaction or works on a statement (`Session.failures_heeded`). A
failure of SQLite whose code passes for success is the one that is missed: a directive that failed
so is taken for one that succeeded.

What a step gives up is left out of account. A step that puts a transaction into a handle which
holds another one would roll that one back on the way, so these steps are looked at where the handle
is empty.
-/

namespace SqlAccess

open Engine

/-! ## Backends -/

namespace Sqlite

variable {c : Option Nat} {e : Engine}

/-- A failure whose code passes for success is answered with a success. -/
def Misses (r : Except Fault Unit) (_past : History) (ev : Event) : Prop :=
  ∀ code left, ev.outcome = .failed code left → Passes code → r = .ok ()

theorem control_misses {d : Directive} : After (control c d).run e fun r e' =>
    Grown (Misses r) e.history e'.history := by
  unfold control
  cases c with
  | none => exact (check_reports e).mono fun _ _ h => h.1 ▸ .refl
  | some n =>
    refine After.try_call (exec_asks.enters e) ?_
    rintro ⟨code, message⟩ e₁ ⟨o, ho, hh⟩
    dsimp only at ho ⊢
    have one {r : Except Fault Unit} (h : Passes code → r = .ok ()) :
        Grown (Misses r) e.history e₁.history := by
      rw [hh]
      exact .one fun code' left hf hp => h (ho code' left hf ▸ hp)
    split
    · refine After.try_call (failureText_still e₁) fun text e₂ h₂ => ?_
      rw [show e₁.history = e₂.history from h₂.history.symm] at one
      cases hk : kindOf? code with
      | none => exact After.try_pure_iff.2 (one fun _ => rfl)
      | some kind =>
        refine After.throw_iff.2 (one fun hp => ?_)
        cases hk.symm.trans (kindOf?_eq_none_iff.2 hp)
    · exact After.try_pure_iff.2 (one fun _ => rfl)

end Sqlite

/-- The operations of a backend heed the calls that they make. Where opening or
preparing fails, what was opened so far is given up without minding how that ends. -/
structure Backend.Faithful (b : Backend) (e : Engine) : Prop where
  connect : ∀ dsn readOnly busyTimeout,
    Heeds Call.GivesNothingUp (b.connect dsn readOnly busyTimeout).run e
  disconnect : ∀ c, Heeds (fun _ => True) (b.disconnect c).run e
  control : ∀ c d, (b = .maria → e.Has c) → Heeds (fun _ => True) (b.control c d).run e
  rollbackTo : ∀ c n, (b = .maria → e.Has c) → Heeds (fun _ => True) (b.rollbackTo c n).run e
  prepare : ∀ c sql, Heeds Call.GivesNothingUp (b.prepare c sql).run e
  /-- How SQLite ends giving up a statement is no failure. -/
  finalize : ∀ z, Heeds (fun _ => True) (b.finalize (.maria z)).run e
  bind : ∀ h type slot v, Heeds (fun _ => True) (Handle.bind type slot v).run (h, e)
  execute : ∀ (h : Handle) c, Heeds (fun _ => True) (h.execute c).run e
  beginRows : ∀ h, Heeds (fun _ => True) Handle.beginRows.run (h, e)
  fetchRow : ∀ (h : Handle) c, Heeds (fun _ => True) (h.fetchRow c).run e

theorem Backend.faithful (b : Backend) (e : Engine) : b.Faithful e where
  connect _ _ _ := connect_heeds
  disconnect _ := disconnect_heeds
  control _ _ hc := control_heeds hc
  rollbackTo _ _ hc := rollbackTo_heeds hc
  prepare _ _ := prepare_heeds
  finalize _ := Maria.finalize_heeds
  bind _ _ _ _ := Handle.bind_heeds
  execute _ _ := Handle.execute_heeds
  beginRows _ := Handle.beginRows_heeds
  fetchRow _ _ := Handle.fetchRow_heeds

/-! ## Replies -/

/-- Whether a step succeeded. -/
def Reply.result (a : Reply) : Except Fault Unit :=
  match a.fault with
  | none => .ok ()
  | some f => .error f

theorem Heeded.reply {α : Type} {W : Call → Prop} {r : Except Fault α} {answer : α → Answer}
    {failed : Answer} {past : History} {ev : Event} (h : Heeded W r past ev) :
    Heeded W (Reply.of answer failed r).result past ev := by
  cases r with
  | ok a => exact h.of_ok
  | error f => exact h.of_error

namespace Session

variable {α : Type} {W : Call → Prop} {s : Session × World} {n : Nat} {name target : Bytes}
  {x : Step}

/-! ## Work on databases -/

/-- While a database is open, its connection is there. -/
theorem Reachable.wired (hr : Reachable s) {d : Database} (hd : s.1.opened.find? n = some d) :
    Database.Wired (d, s.2) := by
  obtain ⟨own, hh, he⟩ := hr.accounted
  obtain ⟨o, rest, rfl, ho, -, -⟩ := Table.Sums.focus hh hd
  have keeps {own : Multiset Asset} {isOpen : Bool}
      (hk : d.Keeps (within n s.1.held) d.link isOpen own) :
      d.Keeps (within n s.1.held) d.link d.isOpen own := by rwa [← hk.isOpen] at hk
  cases ho with
  | opened _ hk =>
    exact ⟨_, Asset.ofConnection d.link.connection + rest, ⟨_, keeps hk, he.of_eq (by abel)⟩,
      fun _ => connected_ofConnection⟩
  | closed hk =>
    exact ⟨_, rest, ⟨_, keeps hk, he.of_eq (add_zero _)⟩, fun ho =>
      by cases hk.isOpen.symm.trans ho⟩

/-- What work on a database does is all that work of the session does then. -/
theorem onDatabase_calm {y : StateT Database Act α} {otherwise : α}
    (hy : ∀ d, Calm W y (d, s.2)) : Calm W (onDatabase n otherwise y) s :=
  onDatabase_cases (fun _ => .refl) fun d _ => hy d

/-- Work of a session heeds its calls, and leaves the handles of transactions alone. -/
def HeedsBeside (W : Call → Prop) (y : SessionM (Except Fault α)) (s : Session × World) : Prop :=
  After y s fun r s' =>
    Grown (Heeded W r) s.2.engine.history s'.2.engine.history ∧ s'.1.transactions = s.1.transactions

theorem HeedsBeside.heeds {y : SessionM (Except Fault α)} (h : HeedsBeside W y s) : Heeds W y s :=
  h.mono fun _ _ h => h.1

theorem attemptOn_heeds {y : Op Database α}
    (hy : ∀ d, s.1.opened.find? n = some d → Heeds W y.run (d, s.2)) :
    HeedsBeside W (attemptOn n y) s :=
  onDatabase_cases (fun _ => ⟨.refl, rfl⟩) fun d hd => (hy d hd).mono fun _ _ h => ⟨h, rfl⟩

theorem withDatabase_heeds {y : Nat → Op Database α}
    (hy : ∀ n d, s.1.opened.find? n = some d → Heeds W (y n).run (d, s.2)) :
    HeedsBeside W (withDatabase name y) s :=
  withDatabase_cases (fun _ => ⟨.refl, rfl⟩) fun n _ => attemptOn_heeds (hy n)

theorem withTransaction_heeds {y : TransactionRef → Op Database α}
    (hy : ∀ r d, s.1.opened.find? r.database = some d → Heeds W (y r).run (d, s.2)) :
    HeedsBeside W (withTransaction name y) s :=
  withTransaction_cases (fun _ => ⟨.refl, rfl⟩) fun r _ => attemptOn_heeds (hy r)

theorem withStatement_heeds {y : StatementRef → Op Database α}
    (hy : ∀ r a, Heeds W (y r).run a) : HeedsBeside W (withStatement name y) s :=
  withStatement_cases (fun _ => ⟨.refl, rfl⟩) fun _ _ => attemptOn_heeds fun _ _ => hy _ _

theorem onStatement_heeds {y : Link → Op Statement α} (hy : ∀ l b, Heeds W (y l).run b) :
    HeedsBeside W (onStatement name y) s :=
  withStatement_heeds fun _ _ => Database.onStatement_heeds hy

theorem onParameter_heeds {y : Parameter → Link → Op Statement Unit}
    (hy : ∀ p l b, Heeds W (y p l).run b) : HeedsBeside W (onParameter name y) s :=
  onParameter_cases (fun _ => ⟨.refl, rfl⟩) fun _ _ =>
    attemptOn_heeds fun _ _ => Database.onStatement_heeds (hy _)

theorem onCursor_heeds {y : Nat → Link → Op Statement α} (hy : ∀ m l b, Heeds W (y m l).run b) :
    HeedsBeside W (onCursor name y) s :=
  onCursor_cases (fun _ => ⟨.refl, rfl⟩) fun _ _ _ =>
    attemptOn_heeds fun _ _ => Database.atStatement_heeds (hy _)

/-! ## Operations -/

theorem begin_heeds (hr : Reachable s) : HeedsBeside W (begin name) s :=
  withDatabase_heeds fun _ _ hd => (Database.begin_heeds (hr.wired hd)).bind fun _ _ =>
    heeds_try_pure _

theorem nest_heeds (hr : Reachable s) : HeedsBeside W (nest name) s :=
  withTransaction_heeds fun _ _ hd => (Database.nest_heeds (hr.wired hd)).bind fun _ _ =>
    heeds_try_pure _

theorem prepare_heeds {query : Option Query} :
    HeedsBeside Call.GivesNothingUp (prepare name query) s :=
  withDatabase_heeds fun _ _ _ => Database.prepare_heeds.bind fun _ _ => heeds_try_pure _

theorem prepareIn_heeds {query : Option Query} :
    HeedsBeside Call.GivesNothingUp (prepareIn name query) s :=
  withTransaction_heeds fun _ _ _ => Database.prepare_heeds.bind fun _ _ => heeds_try_pure _

theorem resolve_heeds {parameter : Option Bytes} :
    HeedsBeside Call.GivesNothingUp (resolve name parameter) s :=
  withStatement_heeds fun _ _ => (Database.onStatement_heeds fun _ _ =>
    Statement.parameter_heeds).bind fun _ _ => heeds_try_pure _

theorem execute_heeds : HeedsBeside Call.GivesNothingUp (execute name) s :=
  withStatement_heeds fun _ _ => Database.executeStatement_heeds

theorem runForCursor_heeds {writes : Bool} {y : Link → Op Statement Nat}
    (hy : ∀ l b, Heeds W (y l).run b) : HeedsBeside W (runForCursor name writes y) s :=
  withStatement_heeds fun _ _ => Database.checkRunnable_calm.heeds.bind fun _ _ =>
    (Database.onStatement_heeds hy).bind fun _ _ => heeds_try_pure _

/-! ## Handles -/

theorem calm_course : Course fun s s' =>
    Grown (Unfailed W) s.2.engine.history s'.2.engine.history where
  refl _ := .refl
  trans := .trans
  handles _ _ := After.modify_iff.2 .refl
  log _ := onDatabase_calm fun _ => Database.writeLog_calm

theorem setStatement_calm {r : Option StatementRef} :
    Calm Call.GivesNothingUp (setStatement name r) s :=
  calm_course.setStatement (fun _ => onDatabase_calm fun _ => Database.closeStatement_calm) s

theorem setCursor_calm {r : Option CursorRef} :
    Calm Call.GivesNothingUp (setCursor name r) s :=
  calm_course.setCursor (fun _ => onDatabase_calm fun _ =>
    Database.atStatement_calm fun _ _ => Statement.closeCursor_calm) s

/-- Nothing is called to put a transaction into an empty handle. -/
theorem setTransaction_calm {r : Option TransactionRef}
    (h : s.1.transactions.find? name = none) : Calm W (setTransaction name r) s := by
  refine After.bind_iff.2 (After.get_iff.2 ?_)
  rw [h]
  exact After.modify_iff.2 .refl

/-! ## Steps -/

/-- A step goes on with the work: it begins or commits a transaction, or works on a statement or its
cursors. Where it begins a transaction, the handle for that is empty. -/
def Advances (s : Session) : Step → Prop
  | .begin _ target | .nest _ target => s.transactions.find? target = none
  | .connect _ _ _ | .rollback _ | .rollbackThrough _ | .close _ | .drop _ | .move _ _ => False
  | _ => True

/-- The calls of a step are heeded in its reply. -/
def Replies (y : SessionM Reply) (s : Session × World) : Prop :=
  After y s fun a s' =>
    Grown (Heeded Call.GivesNothingUp a.result) s.2.engine.history s'.2.engine.history

theorem replies {y : SessionM (Except Fault α)} {answer : α → Answer} {failed : Answer}
    (hy : HeedsBeside Call.GivesNothingUp y s) :
    Replies (do return .of answer failed (← y)) s :=
  After.seq hy fun _ _ h => After.pure_iff.2 (h.1.mono fun _ _ => Heeded.reply)

/-- What is done to put a result into its handle is calm. -/
theorem replies_deliver {y : SessionM (Except Fault α)} {put : Option α → SessionM Unit}
    (hy : HeedsBeside Call.GivesNothingUp y s)
    (hput : ∀ r s', s'.1.transactions = s.1.transactions → Calm Call.GivesNothingUp (put r) s') :
    Replies (do deliver put (← y)) s :=
  After.seq hy fun r s₁ h => After.seq (hput r.toOption s₁ h.2) fun _ _ h' => After.pure_iff.2 <|
    (h.1.mono fun _ _ => Heeded.reply).trans (h'.mono fun _ _ => Unfailed.heeded)

/-- A step that only looks at something calls nothing. -/
theorem replies_look {f : Session → Reply} : Replies (do return f (← getThe Session)) s :=
  After.bind_iff.2 <| After.get_iff.2 <| After.pure_iff.2 .refl

theorem carryOut_replies (hr : Reachable s) (hx : Advances s.1 x) : Replies (carryOut x) s := by
  cases x with
  | connect _ _ _ | rollback _ | rollbackThrough _ | close _ | drop _ | move _ _ => cases hx
  | begin name target =>
    exact replies_deliver (begin_heeds hr) fun _ _ h => setTransaction_calm (h ▸ hx)
  | nest name target =>
    exact replies_deliver (nest_heeds hr) fun _ _ h => setTransaction_calm (h ▸ hx)
  | commit name =>
    exact replies (withTransaction_heeds fun _ _ hd => Database.commit_heeds (hr.wired hd))
  | executeOnce name query =>
    exact replies (withTransaction_heeds fun _ _ _ => Database.executeOnce_heeds)
  | prepare name query target => exact replies_deliver prepare_heeds fun _ _ _ => setStatement_calm
  | prepareIn name query target =>
    exact replies_deliver prepareIn_heeds fun _ _ _ => setStatement_calm
  | bind name p v => exact replies (onStatement_heeds fun _ _ => Statement.bind_heeds)
  | bindList name p vs => exact replies (onStatement_heeds fun _ _ => Statement.bindList_heeds)
  | resolve name p target =>
    exact replies_deliver resolve_heeds fun _ _ _ => After.modify_iff.2 .refl
  | assign name v => exact replies (onParameter_heeds fun _ _ _ => Statement.assign_heeds)
  | assignList name vs => exact replies (onParameter_heeds fun _ _ _ => Statement.assignList_heeds)
  | query name target =>
    exact replies_deliver (runForCursor_heeds fun _ _ => Statement.query_heeds) fun _ _ _ =>
      setCursor_calm
  | insert name target =>
    exact replies_deliver (runForCursor_heeds fun _ _ => Statement.insert_heeds) fun _ _ _ =>
      setCursor_calm
  | update name | execute name => exact replies execute_heeds
  | seek name offset => exact replies (onCursor_heeds fun _ _ _ => Statement.seek_heeds)
  | read name column type ifNull => exact replies_look
  | hasColumn name column => exact replies_look
  | inspect h => exact replies_look

/-- In every reachable state, an operation of a backend that made a call which failed fails, and its
fault is no success and has the code of SQLite as its native code; so does every step that goes on
with the work, and beginning a transaction whatever the handle holds that it is put into. The
exceptions are the failures of SQLite whose codes pass for success: after a directive that failed
so, nothing failed. -/
theorem failures_heeded (hr : Reachable s) :
    (∀ b e, Backend.Faithful b e) ∧
    (∀ c d e, After (Sqlite.control c d).run e fun r e' =>
      Grown (Sqlite.Misses r) e.history e'.history) ∧
    (∀ name, Heeds Call.GivesNothingUp (begin name) s ∧ Heeds Call.GivesNothingUp (nest name) s) ∧
    ∀ x, Advances s.1 x → After (step x) s fun a s' =>
      Grown (Heeded Call.GivesNothingUp a.toReply.result) s.2.engine.history s'.2.engine.history :=
  ⟨Backend.faithful, fun _ _ _ => Sqlite.control_misses,
    fun _ => ⟨(begin_heeds hr).heeds, (nest_heeds hr).heeds⟩, fun _ hx => carryOut_replies hr hx⟩

/-- A session in which the next transaction will fail to begin with a code. -/
def heedingTrial (code : Int32) : Session × World :=
  let refusal : Rule :=
    { call := "exec BEGIN", failure := { code, message := none, noHandle := false } }
  (outcome (run [.connect "d" (some "file") {}]) (start .sqlite "3.40.0" [refusal] [])).2

/-- That a transaction does not begin is heeded, but not if the code of the failure is 256. -/
theorem began_of_missed :
    (∃ f, (outcome (step (.begin "d" "t")) (heedingTrial 5)).1.fault = some f ∧
      f.toError.isOk = false ∧ f.toError.native = 5) ∧
    (outcome (step (.begin "d" "t")) (heedingTrial 256)).1.fault = none ∧
    (after (.begin "d" "t") (heedingTrial 256)).2.engine.history.head?.map
      (fun e => (e.call.directive?, e.outcome)) = some (some (1, .start), .failed 256 none) := by
  have hr : Reachable (heedingTrial 5) := (run_later _).reachable (.start .sqlite "3.40.0" _ [])
  have hempty : (heedingTrial 5).1.transactions.find? "t" = none := by decide +kernel
  have hlast : (after (.begin "d" "t") (heedingTrial 5)).2.engine.history.head?.map
      (fun e => (e.call.directive?, e.call.ofSqlite, e.outcome)) =
        some (some (1, .start), true, .failed 5 none) := by decide +kernel
  have hnew : (after (.begin "d" "t") (heedingTrial 5)).2.engine.history.length ≠
      (heedingTrial 5).2.engine.history.length := by decide +kernel
  refine ⟨?_, by decide +kernel, by decide +kernel⟩
  have hheeded := (failures_heeded hr).2.2.2 (.begin "d" "t") hempty
  change Grown (Heeded _ (outcome (step (.begin "d" "t")) (heedingTrial 5)).1.toReply.result) _
    (after (.begin "d" "t") (heedingTrial 5)).2.engine.history at hheeded
  generalize (after (.begin "d" "t") (heedingTrial 5)).2.engine.history = h at hheeded hlast hnew
  cases hheeded with
  | refl => exact absurd rfl hnew
  | @call past ev _ ht =>
    obtain ⟨call, o⟩ := ev
    obtain ⟨hcall, hsqlite, rfl⟩ : call.directive? = some (1, .start) ∧ call.ofSqlite ∧
      o = .failed 5 none := by simpa using hlast
    cases call with
    | exec c d =>
      obtain ⟨f, hf, hok, hnative⟩ :=
        ht ⟨rfl, rfl⟩ 5 none rfl (show ¬ Sqlite.Passes 5 from by unfold Sqlite.Passes; decide)
      refine ⟨f, ?_, hok, hnative hsqlite⟩
      unfold Reply.result at hf
      split at hf
      · cases hf
      · next hfault =>
        cases hf
        exact hfault
    | query c d => cases hsqlite
    | _ => cases hcall

end Session

end SqlAccess
