import Mathlib.Logic.ExistsUnique
import SqlAccess.Proofs.Session.Reachable

/-!
# What is open belongs to something open

At any time an open statement is on an open database and, if it belongs to a transaction, in an open
one; and an open cursor is the current one of an open statement. So closing a database leaves
nothing usable of what was obtained from it, and ending a transaction closes its statements
(`open_within_open`). What was closed is never opened again (`Leads.closed`).
-/

namespace SqlAccess

/-- A closed database stays closed. -/
theorem Database.Change.stays_closed {A : Database → Prop} {a b : Database × History}
    (hc : Change A a b) (ha : a.1.isOpen = false) : b.1.isOpen = false := by
  cases hc with
  | committed | rolledBack => exact withEnded_isOpen.trans ha
  | closed => rfl
  | _ => exact ha

theorem Database.Life.closed {A : Database → Prop} {a b : Database × History} (hl : Life A a b)
    (ha : a.1.isOpen = false) : b.1.isOpen = false := by
  induction hl with
  | refl => exact ha
  | tail _ hh ih =>
    cases hh with
    | change hc => exact hc.stays_closed ih
    | elsewhere => exact ih

namespace Session

variable {α β : Type} {A : Nat → Database → Prop} {s s' : Session × World} {n : Nat}
  {name target : Bytes}

/-- A database was opened and is closed. -/
def Closed (n : Nat) (s : Session × World) : Prop :=
  ∃ d, s.1.opened.find? n = some d ∧ d.isOpen = false

theorem Leads.closed (hl : Leads A s s') (hs : Sound s) (hc : Closed n s) : Closed n s' := by
  obtain ⟨d, hd, hclosed⟩ := hc
  obtain ⟨d', hd', hlife⟩ := Leads.life hl hs hd
  exact ⟨d', hd', Database.Life.closed hlife hclosed⟩

theorem Later.closed (hl : Later s s') (hr : Reachable s) (hc : Closed n s) : Closed n s' := by
  obtain ⟨d, hd, hclosed⟩ := hc
  obtain ⟨d', hd', hlife⟩ := hl.life hr hd
  exact ⟨d', hd', Database.Life.closed hlife hclosed⟩

/-! ## Closing databases -/

/-- An action that closes a database goes by changes, and closes it however it ends. -/
def Closes (A : Nat → Database → Prop) (n : Nat) (s : Session × World) (x : SessionM α) : Prop :=
  After x s fun _ s' => Leads A s s' ∧ Closed n s'

/-- What was closed first is closed in the end. -/
theorem Closes.bind {x : SessionM α} {f : α → SessionM β} (hs : Sound s) (hx : Closes A n s x)
    (hf : ∀ a, Goes A (f a)) : Closes A n s (x >>= f) :=
  After.seq hx fun a s₁ ⟨h₁, hc⟩ =>
    (hf a s₁ (Leads.sound h₁ hs)).mono fun _ _ h₂ =>
      ⟨h₁.trans h₂, Leads.closed h₂ (Leads.sound h₁ hs) hc⟩

section Closing

variable {d : Database} (hs : Sound s) (hd : s.1.opened.find? n = some d)
include hs hd

theorem close_closes {otherwise : Except Fault Unit} :
    Closes A n s (onDatabase n otherwise Database.close) := by
  refine (onDatabase_after (Q := fun _ _ s' => s'.1.isOpen = false) hs fun _ _ hsound =>
    Database.close_after hsound).mono fun _ _ ⟨hl, h⟩ => ⟨hl, ?_⟩
  exact h d hd

theorem releaseDatabase_closes : Closes A n s (releaseDatabase n) :=
  (close_closes hs hd).bind hs fun _ => leads_course.complain

theorem setDatabase_closes (hn : s.1.databases.find? name = some n) (r : Option Nat) :
    Closes A n s (setDatabase name r) := by
  refine After.bind_iff.2 (After.get_iff.2 ?_)
  rw [hn]
  exact (releaseDatabase_closes hs hd).bind hs fun _ => goes_modify fun _ => rfl

theorem closeDatabase_closes (hn : s.1.databases.find? name = some n) :
    Closes A n s (closeDatabase name) := by
  refine After.bind_iff.2 (After.get_iff.2 ?_)
  rw [hn]
  -- the handle is emptied before the database is closed
  have emptied : Change A s ({ s.1 with databases := s.1.databases.erase name }, s.2) :=
    .handles rfl rfl
  refine After.bind_iff.2 (After.modify_iff.2 ?_)
  exact (close_closes (hs.change emptied) hd).mono fun _ _ ⟨hl, hc⟩ => ⟨hl.head emptied, hc⟩

theorem connect_closes (hn : s.1.databases.find? name = some n) (dsn : Bytes) (options : Options) :
    Closes A n s (connect name (some dsn) options) :=
  (closeDatabase_closes hs hd hn).bind hs reopen_goes

theorem move_closes (hne : name ≠ target) (hn : s.1.databases.find? target = some n) :
    Closes A n s (move (.database name) target) := by
  refine After.bind_iff.2 (After.get_iff.2 ?_)
  dsimp only
  rw [if_pos hne]
  exact (setDatabase_closes hs hd hn _).bind hs fun _ => goes_modify fun _ => rfl

end Closing

/-- The database that a step closes: the one that its handle holds, or that the handle holds which
gets another one. Opening without a name is refused; moving a handle onto itself does nothing. -/
def closes? (s : Session) : Step → Option Nat
  | .connect name (some _) _ | .close (.database name) | .drop (.database name) =>
    s.databases.find? name
  | .move (.database name) target => if name = target then none else s.databases.find? target
  | _ => none

theorem carryOut_closes {x : Step} {d : Database} (hs : Sound s)
    (hd : s.1.opened.find? n = some d) (hx : s.1.closes? x = some n) :
    Closes A n s (carryOut x) := by
  match x with
  | .connect name (some dsn) options =>
    exact (connect_closes hs hd hx dsn options).bind hs fun _ => goes_pure _
  | .close (.database name) => exact (closeDatabase_closes hs hd hx).bind hs fun _ => goes_pure _
  | .drop (.database name) => exact (setDatabase_closes hs hd hx none).bind hs fun _ => goes_pure _
  | .move (.database name) target =>
    simp only [closes?] at hx
    split at hx
    · cases hx
    · next hne => exact (move_closes hs hd hne hx).bind hs fun _ => goes_pure _

theorem after_closed {x : Step} {d : Database} (hs : Sound s)
    (hd : s.1.opened.find? n = some d) (hx : s.1.closes? x = some n) : Closed n (after x s) := by
  have h : After (carryOut x) s fun _ s' => Closed n s' :=
    (carryOut_closes (A := fun _ _ => True) hs hd hx).mono fun _ _ h => h.2
  exact step_iff.2 h

/-! ## What is left of a closed database -/

/-- Nothing that was obtained from a database can be used. -/
structure Unusable (n : Nat) (s : Session × World) : Prop where
  database : Closed n s
  statement : ∀ k z, s.1.statement? n k = some z → z.isOpen = false
  cursor : ∀ r, r.database = n → s.1.cursor? r = none
  transaction : ∀ t x, s.1.transaction? ⟨n, t⟩ = some x → x.ended ≠ none
  /-- Setting a parameter is refused, before the engine is called. -/
  parameter : ∀ name r (x : Parameter → Link → Op Statement Unit),
    s.1.parameters.find? name = some r → r.database = n → After (onParameter name x) s fun a s' =>
      a = .error .statementClosed ∧ s'.2 = s.2

/-- A resolved parameter is refused once its statement is closed. -/
theorem onParameter_refused {r : ParameterRef} {x : Parameter → Link → Op Statement Unit}
    {d : Database} (hr : s.1.parameters.find? name = some r)
    (hd : s.1.opened.find? r.database = some d) (hz : d.openStatement? r.statement = none) :
    After (onParameter name x) s fun a s' => a = .error .statementClosed ∧ s'.2 = s.2 := by
  refine After.bind_iff.2 (After.get_iff.2 ?_)
  rw [hr]
  refine After.bind_iff.2 (After.get_iff.2 ?_)
  rw [hd]
  refine After.bind_iff.2 <| After.lift_iff.2 <| After.run_iff.2 <|
    After.try_bind_iff.2 <| After.try_get_iff.2 ?_
  dsimp only
  rw [hz]
  exact After.throw_iff.2 <| After.bind_iff.2 <| After.modify_iff.2 <|
    After.pure_iff.2 ⟨rfl, rfl⟩

theorem Closed.unusable (hc : Closed n s) (hs : Sound s) : Unusable n s := by
  have ⟨d, hd, hclosed⟩ := hc
  have howned := (hs.database n d hd).owned
  have statement {k : Nat} {z : Statement} (hz : d.statements.find? k = some z) :
      z.isOpen = false := by
    refine Bool.eq_false_iff.2 fun ho => ?_
    rw [(howned.listed k z hz ho).1] at hclosed
    cases hclosed
  refine ⟨hc, fun k z hz => ?_, ?_, fun t x hx ho => ?_, ?_⟩
  · simp only [statement?, hd, Option.bind_eq_bind, Option.bind_some] at hz
    exact statement hz
  · rintro r rfl
    refine Option.eq_none_iff_forall_ne_some.2 fun c hcur => ?_
    simp only [cursor?, statement?, hd, Option.bind_eq_bind, Option.bind_some,
      Option.bind_eq_some_iff] at hcur
    obtain ⟨z, hz, hcur⟩ := hcur
    have hopen := (((hs.database _ d hd).sane _ z hz).tidy _ c hcur).1
    rw [statement hz] at hopen
    cases hopen
  · simp only [transaction?, hd, Option.bind_eq_bind, Option.bind_some] at hx
    rw [howned.transaction t x hx ho] at hclosed
    cases hclosed
  · rintro name r x hr rfl
    refine onParameter_refused hr hd ?_
    cases hz : d.statements.find? r.statement with
    | none => simp [Database.openStatement?, hz]
    | some z => simp [Database.openStatement?, hz, statement hz]

/-! ## What is open -/

/-- The cursor that an open statement knows as its current one. -/
def current? (s : Session) (q : StatementRef) : Option CursorRef := do
  let z ← (s.statement? q.database q.number).filter (·.isOpen)
  return { database := q.database, statement := q.number, number := ← z.current }

/-- An open cursor is the current one of its statement, which is open. -/
theorem Sound.current (hs : Sound s) {r : CursorRef} {c : Cursor} (hc : s.1.cursor? r = some c) :
    s.1.current? ⟨r.database, r.statement⟩ = some r := by
  obtain ⟨z, hz, hcur⟩ := Option.bind_eq_some_iff.1 hc
  obtain ⟨d, hd, hk⟩ := statement?_eq_some.1 hz
  obtain ⟨ho, hn⟩ := ((hs.database _ d hd).sane _ z hk).tidy _ c hcur
  simp [current?, hz, ho, hn, Option.filter]

/-- What is open at any time belongs to something open: a statement is on an open database and in an
open transaction, which list it, and a cursor is the only one of an open statement. What was
obtained from a database is unusable from the step on that closed it, and the statements of a
transaction that has ended are closed with their cursors. -/
theorem open_within_open (hr : Reachable s) :
    (∀ n k z, s.1.statement? n k = some z → z.isOpen →
      ∃ d, s.1.opened.find? n = some d ∧ d.isOpen ∧ k ∈ d.listed ∧
        ∀ t, z.owner = some t →
          ∃ x, s.1.transaction? ⟨n, t⟩ = some x ∧ x.ended = none ∧ k ∈ x.statements) ∧
    (∀ r c, s.1.cursor? r = some c → ∃! q, s.1.current? q = some r) ∧
    (∀ r r' c c', s.1.cursor? r = some c → s.1.cursor? r' = some c' →
      r.database = r'.database → r.statement = r'.statement → r = r') ∧
    (∀ n d x s', s.1.opened.find? n = some d → s.1.closes? x = some n → Later (after x s) s' →
      Unusable n s') ∧
    ∀ n t x, s.1.transaction? ⟨n, t⟩ = some x → x.ended ≠ none →
      ∀ k z, s.1.statement? n k = some z → z.owner = some t →
        z.isOpen = false ∧ ∀ m, s.1.cursor? ⟨n, k, m⟩ = none := by
  have hs := hr.sound
  refine ⟨fun n k z hz ho => ?_, fun r c hc => ?_, fun r r' c c' hc hc' hd hk => ?_,
    fun n d x s' hd hx hl => ?_, fun n t x hx he k z hz ht => ?_⟩
  · obtain ⟨d, hd, hk⟩ := statement?_eq_some.1 hz
    have howned := (hs.database n d hd).owned
    obtain ⟨hopen, hlisted⟩ := howned.listed k z hk ho
    refine ⟨d, hd, hopen, hlisted, fun t ht => ?_⟩
    obtain ⟨x, hx, h⟩ := howned.owner k z t hk ho ht
    exact ⟨x, by simp [transaction?, hd, hx], h⟩
  · refine ⟨⟨r.database, r.statement⟩, hs.current hc, fun q hq => ?_⟩
    obtain ⟨z, -, hq⟩ := Option.bind_eq_some_iff.1 hq
    obtain ⟨m, -, hq⟩ := Option.bind_eq_some_iff.1 hq
    cases hq
    rfl
  · have hsame : some r = some r' := by rw [← hs.current hc, ← hs.current hc', hd, hk]
    exact Option.some.inj hsame
  · have hclosed := hl.closed (hr.step x) (after_closed hs hd hx)
    exact hclosed.unusable (hl.reachable (hr.step x)).sound
  · have hclosed : z.isOpen = false := by
      refine Bool.eq_false_iff.2 fun ho => he ?_
      obtain ⟨d, hd, hk⟩ := statement?_eq_some.1 hz
      obtain ⟨y, hy, hyo, -⟩ := (hs.database n d hd).owned.owner k z t hk ho ht
      obtain rfl : x = y := by simpa [transaction?, hd, hy] using hx.symm
      exact hyo
    refine ⟨hclosed, fun m => Option.eq_none_iff_forall_ne_some.2 fun c hc => ?_⟩
    have hcur := hs.current hc
    simp [current?, hz, hclosed, Option.filter] at hcur

/-- A session over SQLite with a cursor over a statement in a transaction, while some calls fail. -/
def cursorTrial (rules : List Rule) : Session × World :=
  let query : Query := { source := .text [] (some "A"), declarations := {} }
  (outcome (run [.connect "d" (some "file") {}, .begin "d" "t", .prepareIn "t" (some query) "k",
    .query "k" "c"]) (start .sqlite "3.40.0" rules [])).2

theorem cursorTrial_reachable (rules : List Rule) : Reachable (cursorTrial rules) :=
  (run_later _).reachable (.start .sqlite "3.40.0" rules [])

/-- Closing a database leaves nothing usable although the calls that it makes fail. -/
theorem unusable_of_close :
    let refusal (call : Bytes) : Rule :=
      { call, failure := { code := 10, message := none, noHandle := false } }
    let s := cursorTrial [refusal "finalize", refusal "exec ROLLBACK", refusal "close"]
    (∃ q, s.1.current? q = some ⟨0, 0, 0⟩) ∧ s.1.closes? (.close (.database "d")) = some 0 ∧
      Unusable 0 (after (.close (.database "d")) s) := by
  intro refusal s
  have hr := cursorTrial_reachable [refusal "finalize", refusal "exec ROLLBACK", refusal "close"]
  obtain ⟨-, hcurrent, -, hclosed, -⟩ := open_within_open hr
  obtain ⟨d, hd⟩ := Option.isSome_iff_exists.1 (by decide +kernel : (s.1.opened.find? 0).isSome)
  obtain ⟨c, hc⟩ := Option.isSome_iff_exists.1 (by decide +kernel : (s.1.cursor? ⟨0, 0, 0⟩).isSome)
  obtain ⟨q, hq, -⟩ := hcurrent _ c hc
  have hx : s.1.closes? (.close (.database "d")) = some 0 := by decide +kernel
  exact ⟨⟨q, hq⟩, hx, hclosed 0 d _ _ hd hx .refl⟩

/-- Opening without a name is refused and closes nothing. -/
theorem open_of_unnamed :
    let s := after (.connect "d" none {}) (cursorTrial [])
    (cursorTrial []).1.databases.find? "d" = some 0 ∧ Reachable s ∧
      (∃ z, s.1.statement? 0 0 = some z ∧ z.isOpen) ∧ ¬ Unusable 0 s := by
  intro s
  have hz : (s.1.statement? 0 0).map (·.isOpen) = some true := by decide +kernel
  obtain ⟨z, hz, ho⟩ := Option.map_eq_some_iff.1 hz
  refine ⟨by decide +kernel, (cursorTrial_reachable []).step _, ⟨z, hz, ho⟩, fun h => ?_⟩
  rw [h.statement 0 z hz] at ho
  cases ho

end Session

end SqlAccess
