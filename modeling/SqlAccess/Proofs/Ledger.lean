import SqlAccess.Proofs.Opening

/-!
# What becomes of work

An engine keeps the work of a connection in a stack of frames: beginning a transaction opens one,
each savepoint opens another one on top of it, and what is run goes into the frame on top, or is
durable at once if there is none. `ledger c h` is what a history comes to for the connection `c`,
where a call that failed has no effect. Runs are known by their position in the history.

Two more things are read off a history: with what success a directive was run (`asks`), and how
the engine's transaction ended in which a run was made (`fate?`).
-/

namespace SqlAccess

/-- Work that is not durable yet, since a savepoint or the beginning of a transaction. -/
structure Frame where
  /-- The savepoint that opened it; the frame of a transaction as a whole has none. -/
  savepoint : Option Nat
  /-- The positions of the runs made in it. -/
  work : List Nat := []
  deriving DecidableEq, Repr

/-- What has become of the work on a connection. -/
structure Ledger where
  /-- The open frames, the innermost first. -/
  frames : List Frame := []
  /-- The runs whose work is durable. -/
  durable : List Nat := []
  deriving DecidableEq, Repr

/-- The work in some frames. -/
def works (frames : List Frame) : List Nat := frames.flatMap (·.work)

@[simp] theorem works_nil : works [] = [] := rfl

@[simp] theorem works_cons {f : Frame} {l : List Frame} : works (f :: l) = f.work ++ works l := rfl

@[simp] theorem works_append {l l' : List Frame} : works (l ++ l') = works l ++ works l' :=
  List.flatMap_append

namespace Ledger

/-- Whether a frame was not opened by a savepoint. -/
def isOther (n : Nat) (f : Frame) : Bool := f.savepoint != some n

/-- A run is made. -/
def run (l : Ledger) (p : Nat) : Ledger :=
  match l.frames with
  | [] => { l with durable := p :: l.durable }
  | f :: outer => { l with frames := { f with work := p :: f.work } :: outer }

/-- The frames from that of a savepoint on are merged into the one below, or become durable if
there is none below. -/
def release (l : Ledger) (n : Nat) : Ledger :=
  let inner := works (l.frames.takeWhile (isOther n))
  match l.frames.dropWhile (isOther n) with
  | [] => l
  | [f] => { frames := [], durable := inner ++ f.work ++ l.durable }
  | f :: g :: outer => { l with frames := { g with work := inner ++ f.work ++ g.work } :: outer }

/-- The frames on top of that of a savepoint are dropped, and that one is emptied. -/
def rollbackTo (l : Ledger) (n : Nat) : Ledger :=
  match l.frames.dropWhile (isOther n) with
  | [] => l
  | f :: outer => { l with frames := { f with work := [] } :: outer }

/-- A directive is run. -/
def control (l : Ledger) : Directive → Ledger
  | .start => if l.frames.isEmpty then { l with frames := [{ savepoint := none }] } else l
  | .commit => { frames := [], durable := works l.frames ++ l.durable }
  | .rollback => { l with frames := [] }
  | .savepoint n => { l with frames := { savepoint := some n } :: l.frames }
  | .release n => l.release n
  | .rollbackTo n => l.rollbackTo n
  | .readOnly | .lockWait _ => l

/-- A call is made that succeeds. -/
def call (l : Ledger) (c : Nat) (past : History) : Call → Ledger
  | .exec c' d | .query c' d => if c' = c then l.control d else l
  | .close c' => if c' = c then { l with frames := [] } else l
  | .step k | .execute k _ => if made c past k then l.run past.length else l
  | _ => l

theorem call_of_directive? {l : Ledger} {c : Nat} {past : History} {call : Call} {d : Directive}
    (h : call.directive? = some (c, d)) : l.call c past call = l.control d := by
  cases call <;> simp_all [Ledger.call, Call.directive?]

end Ledger

/-- What a history comes to for a connection. -/
def ledger (c : Nat) : History → Ledger
  | [] => {}
  | e :: past => if e.outcome.isFailure then ledger c past else (ledger c past).call c past e.call

/-- Whether at some position in the history a statement of a connection was run with success. -/
def ranAt (c p : Nat) : History → Bool
  | [] => false
  | e :: past =>
    if past.length = p then !e.outcome.isFailure && e.call.runs?.any (made c past)
    else ranAt c p past

theorem ranAt_of_length_le {c p : Nat} {h : History} (hp : h.length ≤ p) : ranAt c p h = false := by
  induction h with
  | nil => rfl
  | cons e past ih =>
    simp only [List.length_cons] at hp
    rw [ranAt, if_neg (by omega)]
    exact ih (by omega)

theorem ranAt_cons {c p : Nat} {h : History} {e : Event} (he : e.call.runs? = none) :
    ranAt c p (e :: h) = ranAt c p h := by
  rw [ranAt, he, Option.any_none, Bool.and_false]
  split
  · next hp => rw [ranAt_of_length_le (Nat.le_of_eq hp)]
  · rfl

/-- What was run is decided once and for all. -/
theorem ranAt_of_suffix {c p : Nat} {h h' : History} (hs : h <:+ h') (hp : p < h.length) :
    ranAt c p h' = ranAt c p h := by
  obtain ⟨l, rfl⟩ := hs
  induction l with
  | nil => rfl
  | cons e l ih =>
    rw [List.cons_append, ranAt, if_neg (by simp only [List.length_append]; omega)]
    exact ih

/-- With what success a directive was run on a connection, the latest time first. -/
def asks (c : Nat) (d : Directive) (h : History) : List Bool :=
  (h.filter fun e => e.call.directive? == some (c, d)).map (!·.outcome.isFailure)

/-- How a directive ends a transaction, if it does. -/
def Directive.ends? : Directive → Option Ended
  | commit => some .committed
  | rollback => some .rolledBack
  | _ => none

/-- Whether a directive undoes work. -/
def Directive.undoes : Directive → Bool
  | rollback | rollbackTo _ => true
  | _ => false

/-- How a call ends the engine's transaction on a connection, if it does. -/
def Call.ends? (c : Nat) : Call → Option Ended
  | exec c' d | query c' d => if c' = c then d.ends? else none
  | close c' => if c' = c then some .rolledBack else none
  | _ => none

theorem Call.ends?_of_directive? {call : Call} {c : Nat} {d : Directive}
    (h : call.directive? = some (c, d)) : call.ends? c = d.ends? := by
  cases call <;> simp_all [ends?, directive?]

/-- How the engine's transaction ended that was under way on a connection at some position in the
history. -/
def fate? (c p : Nat) : History → Option Ended
  | [] => none
  | e :: past =>
    (fate? c p past).or <|
      if p < past.length ∧ e.outcome.isFailure = false then e.call.ends? c else none

theorem fate?_of_length_le {c p : Nat} {h : History} (hp : h.length ≤ p) : fate? c p h = none := by
  induction h with
  | nil => rfl
  | cons e past ih =>
    simp only [List.length_cons] at hp
    rw [fate?, ih (by omega), if_neg (by omega), Option.or_none]

/-- Whether a directive is run where it belongs: a transaction is begun where there is none, it is
committed without savepoints, and a savepoint is given up or gone back to while its frame is on
top. -/
def Ledger.admits (l : Ledger) : Directive → Bool
  | .start => l.frames.isEmpty
  | .commit => l.frames.map (·.savepoint) == [none]
  | .release n | .rollbackTo n => l.frames.head?.any (·.savepoint == some n)
  | _ => true

/-- A directive that has nothing to do with transactions does not matter to the frames. -/
theorem Ledger.control_eq_self {l : Ledger} {d : Directive} (hd : d.controls = false) :
    l.control d = l ∧ l.admits d := by
  cases d <;> first | exact ⟨rfl, rfl⟩ | cases hd

/-- Whether all directives on a connection were run where they belong. -/
def orderly (c : Nat) : History → Bool
  | [] => true
  | e :: past => orderly c past &&
      e.call.directive?.all fun r => r.1 != c || (ledger c past).admits r.2

/-! ## Failures that the library sees -/

/-- Whether a call runs a directive that has to do with transactions. -/
def Event.controls (c : Nat) (e : Event) : Bool :=
  e.call.directive?.any fun r => r.1 == c && r.2.controls

/-- Whether a call takes the result of a directive that has to do with transactions, where there
is one. -/
def Event.follows (c : Nat) (past : History) (e : Event) : Bool :=
  match e.call, past.head? with
  | .store c', some ⟨.query c'' d, .answered columns⟩ =>
    c' == c && c'' == c && d.controls && columns != 0
  | _, _ => false

/-- Whether the library takes a call on a connection for what it is, as far as transactions are
concerned: it sees a failure of SQLite by its code, and MariaDB hands over the results of
directives. -/
def Event.plain (c : Nat) (past : History) (e : Event) : Bool :=
  match e.outcome with
  | .failed code _ =>
    !e.follows c past && match e.call with
      | .exec _ _ => !e.controls c || (Sqlite.kindOf? code).isSome
      | _ => true
  | _ => true

/-- Whether the library took all calls on a connection for what they were. -/
def candid (c : Nat) : History → Bool
  | [] => true
  | e :: past => candid c past && e.plain c past

/-- Whether no directive that has to do with transactions failed on a connection. -/
def undisturbed (c : Nat) : History → Bool
  | [] => true
  | e :: past =>
    undisturbed c past && !(e.outcome.isFailure && (e.controls c || e.follows c past))

theorem candid_of_undisturbed {c : Nat} {h : History} (hu : undisturbed c h) : candid c h := by
  induction h with
  | nil => rfl
  | cons e past ih =>
    simp only [undisturbed, Bool.and_eq_true] at hu
    refine Bool.and_eq_true_iff.2 ⟨ih hu.1, ?_⟩
    have he := hu.2
    unfold Event.plain
    cases ho : e.outcome with
    | failed code left =>
      simp only [ho, Outcome.isFailure, Bool.true_and, Bool.not_eq_true',
        Bool.or_eq_false_iff] at he
      simp only [he.1, he.2, Bool.not_false, Bool.true_or, Bool.true_and]
      cases e.call <;> rfl
    | _ => rfl

theorem candid_of_suffix {c : Nat} {h h' : History} (hs : h <:+ h') (hc : candid c h') :
    candid c h := by
  obtain ⟨l, rfl⟩ := hs
  induction l with
  | nil => exact hc
  | cons e l ih => exact ih (Bool.and_eq_true_iff.1 hc).1

theorem undisturbed_of_suffix {c : Nat} {h h' : History} (hs : h <:+ h') (hc : undisturbed c h') :
    undisturbed c h := by
  obtain ⟨l, rfl⟩ := hs
  induction l with
  | nil => exact hc
  | cons e l ih => exact ih (Bool.and_eq_true_iff.1 hc).1

/-! ## What a directive comes to -/

/-- What it comes to that a directive was run, with success or not. -/
structure Effect (c : Nat) (d : Directive) (ok : Bool) (h h' : History) : Prop where
  suffix : h <:+ h'
  ledger : ledger c h' = if ok then (ledger c h).control d else ledger c h
  asks : ∀ d', asks c d' h' = if d' = d then ok :: asks c d' h else asks c d' h
  fate : ∀ p, p < h.length → fate? c p h' = (fate? c p h).or (if ok then d.ends? else none)
  runs : ∀ p, ranAt c p h' = ranAt c p h
  orderly : orderly c h' = (orderly c h && (SqlAccess.ledger c h).admits d)
  sure : undisturbed c h' → ok = true

variable {c : Nat} {d : Directive} {h h' : History} {ok : Bool}

theorem Effect.asks_of_ne {d' : Directive} (he : Effect c d ok h h') (hne : d' ≠ d) :
    SqlAccess.asks c d' h' = SqlAccess.asks c d' h := by
  rw [he.asks, if_neg hne]

/-- A directive that is run has an effect unless its call fails. -/
theorem Effect.call (e : Event) (he : e.call.directive? = some (c, d)) (hd : d.controls) :
    Effect c d (!e.outcome.isFailure) h (e :: h) := by
  refine ⟨List.suffix_cons _ _, ?_, fun d' => ?_, fun p hp => ?_,
    fun p => ranAt_cons (Call.runs?_of_directive? he), ?_, fun hu => ?_⟩
  · cases ho : e.outcome.isFailure <;> simp [SqlAccess.ledger, ho, Ledger.call_of_directive? he]
  · by_cases hdd : d' = d
    · simp [SqlAccess.asks, he, hdd]
    · simp [SqlAccess.asks, he, hdd, Ne.symm hdd]
  · cases ho : e.outcome.isFailure <;> simp [fate?, ho, hp, Call.ends?_of_directive? he]
  · simp [SqlAccess.orderly, he]
  · have := (Bool.and_eq_true_iff.1 hu).2
    simpa [Event.controls, he, hd] using this

/-- Taking a result comes to nothing. -/
theorem Effect.store {outcome : Outcome} (he : Effect c d ok h h') :
    Effect c d ok h (⟨.store c, outcome⟩ :: h') := by
  refine ⟨he.suffix.trans (List.suffix_cons _ _), ?_, fun d' => ?_, fun p hp => ?_,
    fun p => (ranAt_cons rfl).trans (he.runs p), ?_, fun hu => ?_⟩
  · rw [← he.ledger]
    cases ho : outcome.isFailure <;> simp [SqlAccess.ledger, ho, Ledger.call]
  · rw [← he.asks]
    simp [SqlAccess.asks, Call.directive?]
  · rw [← he.fate p hp]
    simp [fate?, Call.ends?]
  · rw [← he.orderly]
    simp [SqlAccess.orderly, Call.directive?]
  · exact he.sure (Bool.and_eq_true_iff.1 hu).1

/-- Where the library takes calls for what they are, a directive had an effect if and only if it
counts as done. -/
theorem Asked.effect (ha : Asked (some c) d h ok h') (hd : d.controls) (hc : candid c h') :
    Effect c d ok h h' := by
  cases ha with
  | exec => exact .call ⟨.exec c d, .done⟩ rfl hd
  | @execFailed _ _ _ code =>
    have hk := (Bool.and_eq_true_iff.1 hc).2
    simp only [Event.plain, Event.controls, Call.directive?, Option.any_some, beq_self_eq_true, hd,
      Bool.and_self, Bool.not_true, Bool.false_or, Bool.and_eq_true] at hk
    rw [Option.isSome_iff_ne_none] at hk
    rw [Option.isNone_eq_false_iff.2 (Option.isSome_iff_ne_none.2 hk.2)]
    exact .call ⟨.exec c d, .failed code none⟩ rfl hd
  | @queryFailed _ _ _ code => exact .call ⟨.query c d, .failed code none⟩ rfl hd
  | @query _ _ _ columns => exact .store (.call ⟨.query c d, .answered columns⟩ rfl hd)
  | @storeFailed _ _ _ columns _ _ hok =>
    have hk := (Bool.and_eq_true_iff.1 hc).2
    have hzero : columns = 0 := by simpa [Event.plain, Event.follows, hd] using hk
    rw [hok hzero]
    exact .store (.call ⟨.query c d, .answered columns⟩ rfl hd)

end SqlAccess
