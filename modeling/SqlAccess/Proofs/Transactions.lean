import SqlAccess.Proofs.Database.Savepoints
import SqlAccess.Proofs.Database.Turn
import SqlAccess.Proofs.Session.Reachable

/-!
# How transactions hang together

At any time at most one root is open on a database, and at most one transaction in another one, and
each is found from the one around it; no savepoint is named twice; and what has ended stays as it
ended. A commit that the engine refuses changes nothing, but for SQLite's failures that count as a
success (`transactions_linked`).
-/

namespace SqlAccess

/-- Whether SQLite reported a failure by a code that counts as a success. -/
def Event.missed (e : Event) : Bool :=
  match e.call, e.outcome with
  | .exec _ _, .failed code _ => (Sqlite.kindOf? code).isNone
  | _, _ => false

/-- A directive whose call failed does not count as done, unless the failure is missed. -/
theorem Asked.eq_missed {c : Nat} {d : Directive} {h h' new : History} {ok : Bool} {e : Event}
    (ha : Asked (some c) d h ok h') (hnew : h' = new ++ h) (he : e ∈ new)
    (hd : e.call.directive? = some (c, d)) (hf : e.outcome.isFailure) : ok = e.missed := by
  cases ha with
  | exec =>
    obtain rfl : [_] = new := List.append_cancel_right hnew
    rw [List.mem_singleton.1 he] at hf
    cases hf
  | execFailed =>
    obtain rfl : [_] = new := List.append_cancel_right hnew
    rw [List.mem_singleton.1 he]
    rfl
  | queryFailed =>
    obtain rfl : [_] = new := List.append_cancel_right hnew
    rw [List.mem_singleton.1 he]
    rfl
  | query | storeFailed =>
    obtain rfl : [_, _] = new := List.append_cancel_right hnew
    obtain rfl | he := List.mem_cons.1 he
    · cases hd
    · rw [List.mem_singleton.1 he] at hf
      cases hf

namespace Database

variable {d d' : Database} {t : Nat}

/-- The transactions and the references between them are the same, whatever statements they
list. -/
structure Unmoved (d d' : Database) : Prop where
  root : d'.root = d.root
  transactions : ∀ u, (d'.transactions.find? u).map (fun x => { x with statements := [] }) =
    (d.transactions.find? u).map fun x => { x with statements := [] }

theorem Unmoved.refl : Unmoved d d := ⟨rfl, fun _ => rfl⟩

theorem Disowns.unmoved (h : Disowns t d d') : Unmoved d d' := by
  refine ⟨by rw [h.rest], fun u => ?_⟩
  rw [h.rest]
  exact Table.map_find?_modify _ _ _ fun _ => rfl

end Database

namespace Session

variable {s : Session × World} {n c : Nat} {d : Database} {name : Bytes} {r : TransactionRef}

/-- How a commit goes: it is refused before the engine is asked, or the engine is. -/
structure Commits (t : Nat) (a b : Database × World) : Prop where
  how : Database.Same a b ∨ ∃ x d₁ h₁ ok, a.1.Ready t x ∧ Database.Disowns t a.1 d₁ ∧
    Grown Quiet a.2.engine.history h₁ ∧
    Asked a.1.link.connection (Database.keeping x.origin) h₁ ok b.2.engine.history ∧
    b.1 = if ok then d₁.withEnded t x.origin .committed else d₁

theorem after_commit (hs : Sound s) (hr : s.1.transactions.find? name = some r)
    (hd : s.1.opened.find? r.database = some d) :
    ∃ d', (after (.commit name) s).1.opened.find? r.database = some d' ∧
      Commits r.number (d, s.2) (d', (after (.commit name) s).2) := by
  have hcommit : After (withTransaction name fun r => Database.commit r.number) s fun _ s' =>
      ∀ d, s.1.opened.find? r.database = some d → ∃ d', s'.1.opened.find? r.database = some d' ∧
        Commits r.number (d, s.2) (d', s'.2) := by
    refine (withTransaction_iff hr).2 <| (onDatabase_after (A := fun _ _ => True)
      (Q := fun d _ b => Commits r.number (d, s.2) b) hs fun d _ hsound => ?_).mono fun _ _ h => h.2
    exact (Database.commit_after hsound).mono fun _ _ h => ⟨h.1, ⟨h.2⟩⟩
  have hstep : After (step (.commit name)) s fun _ s' =>
      ∀ d, s.1.opened.find? r.database = some d → ∃ d', s'.1.opened.find? r.database = some d' ∧
        Commits r.number (d, s.2) (d', s'.2) :=
    step_iff.2 (After.seq hcommit fun _ _ h => After.pure_iff.2 h)
  exact hstep d hd

/-- A commit for which the call of the engine fails leaves the transaction open and moves none,
unless the failure is missed: then the transaction ends. -/
theorem commit_of_failed (hs : Sound s) (hr : s.1.transactions.find? name = some r)
    (hd : s.1.opened.find? r.database = some d) (hc : d.link.connection = some c)
    {x : Transaction} (hx : d.transactions.find? r.number = some x) {new : History} {e : Event}
    (hnew : (after (.commit name) s).2.engine.history = new ++ s.2.engine.history) (he : e ∈ new)
    (hcall : e.call.directive? = some (c, Database.keeping x.origin)) (hf : e.outcome.isFailure) :
    ∃ d', (after (.commit name) s).1.opened.find? r.database = some d' ∧
      if e.missed then ∃ x', d'.transactions.find? r.number = some x' ∧ x'.ended = some .committed
      else x.ended = none ∧ Database.Unmoved d d' := by
  obtain ⟨d', hd', ⟨hsame | ⟨y, d₁, h₁, ok, hy, hdis, hq, ha, hend⟩⟩⟩ := after_commit hs hr hd
  · -- the engine was not called
    rw [hsame.engine] at hnew
    have hnil : new = [] := List.append_cancel_right (hnew.symm.trans (List.nil_append _).symm)
    rw [hnil] at he
    cases he
  · obtain rfl : x = y := Option.some.inj (hx.symm.trans hy.1)
    obtain ⟨closing, rfl, hclosing⟩ := hq.exists_append
    obtain ⟨asked, hasked⟩ := ha.suffix
    have hboth : new ++ s.2.engine.history = (asked ++ closing) ++ s.2.engine.history := by
      rw [← hnew, ← hasked, List.append_assoc]
    have hsplit : new = asked ++ closing := List.append_cancel_right hboth
    -- closing statements runs no directive
    have hmem : e ∈ asked := by
      rw [hsplit] at he
      refine (List.mem_append.1 he).resolve_right fun hquiet => ?_
      obtain ⟨past, hpast⟩ := hclosing e hquiet
      have hnone := (hpast.work (c := none)).directive
      rw [hnone] at hcall
      cases hcall
    rw [hc] at ha
    have hok := ha.eq_missed hasked.symm hmem hcall hf
    refine ⟨d', hd', ?_⟩
    dsimp only at hend
    rw [hend, hok]
    split
    · have hstate : (d₁.withEnded r.number x.origin .committed).state? r.number =
          some (x.origin, some .committed) :=
        (Database.state?_withEnded (hdis.ready hy).1).trans (if_pos rfl)
      obtain ⟨x', hx', hended⟩ := Option.map_eq_some_iff.1 hstate
      exact ⟨x', hx', (Prod.mk.inj hended).2⟩
    · exact ⟨hy.2.1, hdis.unmoved⟩

/-- The transactions on a database hang together at any time, no savepoint on its connection is
named twice, what has ended stays as it ended, and a commit whose call fails changes nothing,
unless SQLite's failure counts as a success. -/
theorem transactions_linked (hs : Reachable s) (hd : s.1.opened.find? n = some d) :
    d.Linked ∧
    (∀ t t' x x', d.transactions.find? t = some x → d.transactions.find? t' = some x' →
      x.ended = none → x'.ended = none → x.origin.parent? = x'.origin.parent? → t = t') ∧
    (∀ c, d.link.connection = some c →
      ((savepointsAsked c s.2.engine.history).map savepointName).Nodup) ∧
    (∀ s' t x, Later s s' → d.transactions.find? t = some x → x.ended ≠ none →
      ∃ d' x', s'.1.opened.find? n = some d' ∧ d'.transactions.find? t = some x' ∧
        x'.ended = x.ended) ∧
    ∀ name r c x new e, s.1.transactions.find? name = some r → r.database = n →
      d.link.connection = some c → d.transactions.find? r.number = some x →
      (after (.commit name) s).2.engine.history = new ++ s.2.engine.history → e ∈ new →
      e.call.directive? = some (c, Database.keeping x.origin) → e.outcome.isFailure →
      ∃ d', (after (.commit name) s).1.opened.find? n = some d' ∧
        if e.missed then ∃ x', d'.transactions.find? r.number = some x' ∧ x'.ended = some .committed
        else x.ended = none ∧ Database.Unmoved d d' := by
  have hsound := hs.sound.database n d hd
  have hl := hsound.linked
  refine ⟨hl, fun t t' x x' hx hx' ho ho' hp => ?_, fun c hc => ?_, fun s' t x hlater hx he => ?_,
    ?_⟩
  · -- they are the root, or the only one that their parent refers to
    cases hor : x.origin with
    | root =>
      have hor' : x'.origin = .root := by
        cases hor' : x'.origin with
        | root => rfl
        | nested => simp [hor, hor', Origin.parent?] at hp
      have hroot := (hl.root t x hx hor).2 ho
      exact Option.some.inj (hroot.symm.trans ((hl.root t' x' hx' hor').2 ho'))
    | nested p m =>
      have hparent : x.origin.parent? = some p := by rw [hor]; rfl
      obtain ⟨-, y, hy, -, h⟩ := hl.parent hx hparent
      obtain ⟨-, y', hy', -, h'⟩ := hl.parent hx' (hp ▸ hparent)
      obtain rfl : y = y' := Option.some.inj (hy.symm.trans hy')
      exact Option.some.inj ((h ho).2.symm.trans (h' ho').2)
  · obtain ⟨b, hb, hborn, hlife⟩ := hs.life hd
    have hcb : b.link.connection = some c := (Database.Life.link hlife) ▸ hc
    exact ((Database.Counted.born hborn hcb).life hcb hlife).names
  · obtain ⟨d', hd', hlife⟩ := hlater.life hs hd
    obtain ⟨x', hx', -, -, hended⟩ := (Database.Life.kin hlife hsound).keep t x hx
    exact ⟨d', x', hd', hx', hended he⟩
  · rintro name r c x new e hr rfl hc hx hnew he hcall hf
    exact commit_of_failed hs.sound hr hd hc hx hnew he hcall hf

/-- A root is committed although SQLite reports that the commit failed, when the code of the failure
counts as a success. -/
theorem committed_of_missed :
    let missed : Rule :=
      { call := "exec COMMIT", failure := { code := 256, message := none, noHandle := false } }
    let s := (outcome (run [.connect "d" (some "file") {}, .begin "d" "t"])
      (start .sqlite "3.40.0" [missed] [])).2
    ∃ d x d' x' e, s.1.opened.find? 0 = some d ∧ d.Linked ∧ d.transactions.find? 0 = some x ∧
      x.ended = none ∧ (after (.commit "t") s).2.engine.history = e :: s.2.engine.history ∧
      e.call.directive? = some (1, .commit) ∧ e.outcome = .failed 256 none ∧
      (after (.commit "t") s).1.opened.find? 0 = some d' ∧
      d'.transactions.find? 0 = some x' ∧ x'.ended = some .committed := by
  intro missed s
  have hs : Reachable s := (run_later _).reachable (.start .sqlite "3.40.0" [missed] [])
  have hr : s.1.transactions.find? "t" = some ⟨0, 0⟩ := by decide +kernel
  obtain ⟨d, hd⟩ := Option.isSome_iff_exists.1 (by decide +kernel : (s.1.opened.find? 0).isSome)
  have hc : (s.1.opened.find? 0).bind (·.link.connection) = some 1 := by decide +kernel
  have hx : ((s.1.opened.find? 0).bind (·.transactions.find? 0)).map
    (fun x => (x.origin, x.ended)) = some (.root, none) := by decide +kernel
  have hlast : (after (.commit "t") s).2.engine.history.head?.map
    (fun e => (e.call.directive?, e.outcome, e.missed)) =
      some (some (1, .commit), .failed 256 none, true) := by
    decide +kernel
  have hcount :
      (after (.commit "t") s).2.engine.history.length = s.2.engine.history.length + 1 := by
    decide +kernel
  rw [hd, Option.bind_some] at hc hx
  obtain ⟨x, hx, hstate⟩ := Option.map_eq_some_iff.1 hx
  obtain ⟨ho, hended⟩ := Prod.mk.inj hstate
  obtain ⟨_, -, hlife⟩ := Later.life (.step (.commit "t") .refl) hs hd
  obtain ⟨new, hnew⟩ := Database.Life.suffix hlife
  dsimp only at hnew
  -- the commit is the only call
  have hone : new.length = 1 := by
    rw [← hnew, List.length_append] at hcount
    omega
  obtain ⟨e, rfl⟩ := List.length_eq_one_iff.1 hone
  rw [← hnew, List.cons_append, List.head?_cons, Option.map_some] at hlast
  obtain ⟨hcall, hfailed, hmissed⟩ := by simpa using hlast
  obtain ⟨hlinked, -, -, -, hcommit⟩ := transactions_linked hs hd
  obtain ⟨d', hd', hcommitted⟩ := hcommit "t" ⟨0, 0⟩ 1 x [e] e hr rfl hc hx hnew.symm
    List.mem_cons_self (ho ▸ hcall) (by rw [hfailed]; rfl)
  rw [if_pos hmissed] at hcommitted
  obtain ⟨x', hx', hended'⟩ := hcommitted
  exact ⟨d, x, d', x', e, hd, hlinked, hx, hended, hnew.symm, hcall, hfailed, hd', hx', hended'⟩

end Session

end SqlAccess
