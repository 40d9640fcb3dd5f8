import SqlAccess.Proofs.Preserved.Statement

/-!
# Fetching rows

A statement that was run yields the rows of its script one after another (`Handle.Yields`). A cursor
over it keeps those that were fetched, so what it has and what is still to come make up the result
(`Cursor.Reads`), and rows are fetched as they are needed, each of them once
(`Cursor.fetchTo_reads`). All of this holds as long as no attempt to fetch a row fails
(`fetchesFailed`).
-/

namespace SqlAccess

/-- How many rows of a statement were fetched. -/
def rowsFetched (k : Nat) (h : History) : Nat :=
  h.countP fun e => e.call.fetches? == some k && e.outcome == .row

/-- How many attempts to fetch a row of a statement failed. -/
def fetchesFailed (k : Nat) (h : History) : Nat :=
  h.countP fun e => e.call.fetches? == some k && e.outcome.isFailure

section Counts

variable {k : Nat} {h h' : History}

theorem fetchesFailed_mono (hs : h <:+ h') : fetchesFailed k h ≤ fetchesFailed k h' :=
  hs.sublist.countP_le

theorem Grown.rowsFetched_eq (hg : Grown (fun _ e => e.call.fetches? ≠ some k) h h') :
    rowsFetched k h' = rowsFetched k h := by
  induction hg with
  | refl => rfl
  | call _ he ih => simpa [rowsFetched, he] using ih

theorem Grown.fetchesFailed_eq (hg : Grown (fun _ e => e.call.fetches? ≠ some k) h h') :
    fetchesFailed k h' = fetchesFailed k h := by
  induction hg with
  | refl => rfl
  | call _ he ih => simpa [fetchesFailed, he] using ih

end Counts

/-- No row of a statement was to be fetched. -/
def Engine.Unfetched (k : Nat) (e e' : Engine) : Prop :=
  Grown (fun _ ev => ev.call.fetches? ≠ some k) e.history e'.history

namespace Engine.Unfetched

variable {k : Nat} {e e' : Engine} {call : Call}

theorem rows (h : e.Unfetched k e') : rowsFetched k e'.history = rowsFetched k e.history :=
  h.rowsFetched_eq

theorem failed (h : e.Unfetched k e') :
    fetchesFailed k e'.history = fetchesFailed k e.history := h.fetchesFailed_eq

theorem of_spares (h : e.Spares k e') : e.Unfetched k e' :=
  h.calls.mono fun _ _ hs hf => hs (Call.statement?_of_fetches? hf)

instance : Steady (e.Unfetched k) := ⟨fun h ha => h.trans (ha.history ▸ .refl)⟩

theorem admits (h : call.fetches? ≠ some k) : Admits (e.Unfetched k) call := by
  intro e₁ e₂ h₁ ht
  obtain ⟨o, hh, -⟩ := ht.history
  exact h₁.trans (hh ▸ .one h)

theorem admitsStart {j : Nat} : AdmitsStart (e.Unfetched k) j :=
  fun _ _ _ _ hf => admits (by simp [hf])

theorem admitsNew : AdmitsNew (e.Unfetched k) := fun _ _ _ _ _ hf => admits (by simp [hf])

theorem admitsPrepare {c : Nat} : AdmitsPrepare (e.Unfetched k) c := by
  intro call hp
  have hf : call.fetches? ≠ some k := by cases call <;> simp_all [Call.prepares, Call.fetches?]
  exact ⟨admits hf, fun _ _ h₁ ha => h₁.trans (ha.history ▸ .one hf)⟩

end Engine.Unfetched

/-! ## One row -/

namespace Engine

variable {k : Nat} {p : Prepared} {e : Engine}

/-- The next row that a statement has to yield was fetched, if there is one. -/
structure Fetched (k : Nat) (p : Prepared) (e e' : Engine) (row : Option (List (Option Cell))) :
    Prop where
  isNext : row = p.pending.head?.map p.script.pad
  entry : e'.statements.find? k = some { p with pending := p.pending.tail }
  rows : rowsFetched k e'.history = rowsFetched k e.history + row.toList.length
  failed : fetchesFailed k e'.history = fetchesFailed k e.history

variable {e₁ e' : Engine}

/-- An attempt failed. -/
theorem fetchesFailed_of_failed {f : Failure} (call : Call) (hc : call.fetches? = some k)
    (hh : e₁.history = ⟨call, .failed f.code none⟩ :: e.history) :
    fetchesFailed k e.history < fetchesFailed k e₁.history := by
  simp [hh, fetchesFailed, hc, Outcome.isFailure]

/-- An attempt did not fail. -/
theorem Fetched.of_history (call : Call) (hc : call.fetches? = some k)
    (hh : e₁.history = ⟨call, if p.pending.isEmpty then .noRow else .row⟩ :: e.history)
    (he : e'.history = e₁.history)
    (hs : e'.statements.find? k = some { p with pending := p.pending.tail }) :
    Fetched k p e e' (p.pending.head?.map p.script.pad) := by
  refine ⟨rfl, hs, ?_, ?_⟩
  · rw [he, hh]
    cases hp : p.pending <;> simp [rowsFetched, hc]
  · rw [he, hh]
    cases hp : p.pending <;> simp [fetchesFailed, Outcome.isFailure]

theorem statement_found (hp : e.statements.find? k = some p) :
    After (statement k) e fun s e' => s = p ∧ e' = e := by
  refine ⟨?_, rfl⟩
  change (e.statements.find? k).getD _ = p
  rw [hp]
  rfl

theorem step_fetched (hp : e.statements.find? k = some p) : After (step k) e fun r e' =>
    fetchesFailed k e.history < fetchesFailed k e'.history ∨
      ∃ row, Fetched k p e e' row ∧ r = row.elim .finished .row := by
  unfold step
  refine After.seq (statement_found hp) fun s _ ⟨hs, he⟩ => ?_
  subst hs he
  refine After.seq (perform_after _) fun r e₁ ⟨hh, _, hk⟩ => ?_
  cases r with
  | some f =>
    exact After.bind_iff.2 <| After.base_modify_iff.2 <| After.pure_iff.2 <|
      .inl (fetchesFailed_of_failed (.step k) rfl hh)
  | none =>
    have fetched {x : Engine} : x.history = e₁.history → _ := Fetched.of_history (.step k) rfl hh
    obtain ⟨connection, script, pending, code, text⟩ := s
    cases pending with
    | nil =>
      exact After.bind_iff.2 <| After.base_modify_iff.2 <| After.pure_iff.2 <|
        .inr ⟨none, fetched rfl (hk ▸ hp), rfl⟩
    | cons row rest =>
      refine After.bind_iff.2 <| After.base_modify_iff.2 <| After.pure_iff.2 <|
        .inr ⟨_, fetched rfl ?_, rfl⟩
      change (e₁.statements.modify k _).find? k = _
      rw [Table.find?_modify, if_pos rfl, hk, hp]
      rfl

theorem fetch_fetched (hp : e.statements.find? k = some p) : After (fetch k) e fun r e' =>
    fetchesFailed k e.history < fetchesFailed k e'.history ∨
      ∃ row, Fetched k p e e' row ∧ r = row.elim .noRow .row := by
  unfold fetch
  refine After.seq (statement_found hp) fun s _ ⟨hs, he⟩ => ?_
  subst hs he
  refine After.seq (perform_after _) fun r e₁ ⟨hh, _, hk⟩ => ?_
  cases r with
  | some f =>
    exact After.bind_iff.2 <| After.base_modify_iff.2 <| After.pure_iff.2 <|
      .inl (fetchesFailed_of_failed (.fetch k) rfl hh)
  | none =>
    have fetched {x : Engine} : x.history = e₁.history → _ := Fetched.of_history (.fetch k) rfl hh
    obtain ⟨connection, script, pending, code, text⟩ := s
    cases pending with
    | nil => exact After.pure_iff.2 <| .inr ⟨none, fetched rfl (hk ▸ hp), rfl⟩
    | cons row rest =>
      refine After.bind_iff.2 <| After.base_modify_iff.2 <| After.pure_iff.2 <|
        .inr ⟨_, fetched rfl ?_, rfl⟩
      change (e₁.statements.modify k _).find? k = _
      rw [Table.find?_modify, if_pos rfl, hk, hp]
      rfl

end Engine

/-! ## Rows of a statement -/

/-- A value as MariaDB hands it out. -/
def Maria.cell : Option Cell → Cell
  | none | some .null => .null
  | some c => .text c.toBytes

namespace Handle

/-- A row as a statement hands it out, if all of it can be copied. -/
def row? : Handle → List (Option Cell) → Option (List Cell)
  | sqlite _, values => values.mapM id
  | maria _, values => some (values.map Maria.cell)

/-- The rows that a statement yields when it is run, if all of them can be copied. -/
def result? (h : Handle) (e : Engine) : Option (List (List Cell)) := do
  let p ← e.statements.find? (← h.number?)
  p.script.rows.mapM fun row => h.row? (p.script.pad row)

/-- Whether a statement can be asked for the rows of its run. -/
def holdsRows : Handle → Bool
  | sqlite _ => true
  | maria s => s.hasRows

/-- The rows that a statement has still to yield. -/
def Yields (h : Handle) (k : Nat) (rest : List (List Cell)) (e : Engine) : Prop :=
  ∃ p, e.statements.find? k = some p ∧
    p.pending.mapM (fun row => h.row? (p.script.pad row)) = some rest

/-- The next row of those that a statement has still to yield was fetched, if there is one. -/
structure Fetches (h : Handle) (k : Nat) (rest : List (List Cell)) (e e' : Engine) : Prop where
  yields : h.Yields k rest.tail e'
  rows : rowsFetched k e'.history = rowsFetched k e.history + rest.head?.toList.length
  failed : fetchesFailed k e'.history = fetchesFailed k e.history

variable {h : Handle} {k : Nat} {rest : List (List Cell)} {e e' : Engine} {c : Option Nat}

/-- What is fetched from the engine is the next row. -/
theorem Fetches.of_fetched {p : Prepared} {row : Option (List (Option Cell))}
    (hp : p.pending.mapM (fun row => h.row? (p.script.pad row)) = some rest)
    (hf : Engine.Fetched k p e e' row) :
    h.Fetches k rest e e' ∧ row.mapM h.row? = some rest.head? := by
  obtain ⟨hrow, hs, hrows, hfailed⟩ := hf
  cases hpending : p.pending with
  | nil =>
    rw [hpending] at hp hs hrow
    obtain rfl : rest = [] := by simpa using hp.symm
    subst hrow
    exact ⟨⟨⟨_, hs, rfl⟩, hrows, hfailed⟩, rfl⟩
  | cons next later =>
    rw [hpending] at hp hs hrow
    simp only [List.mapM_cons, Option.bind_eq_bind, Option.bind_eq_some_iff, Option.pure_def,
      Option.some.injEq] at hp
    obtain ⟨cells, hcells, rest', hrest, rfl⟩ := hp
    subst hrow
    exact ⟨⟨⟨_, hs, hrest⟩, hrows, hfailed⟩, by simp [hcells]⟩

end Handle

namespace Sqlite

variable {k : Nat} {e : Engine} {c : Option Nat}

/-- A row is copied if all of its values can be. -/
theorem copyRow_copies {values : List (Option Cell)} {copied : List Cell} (e : Engine) :
    After (copyRow copied values).run e fun r e' => Engine.Alters none e e' ∧
      ∀ cells, values.mapM id = some cells → r = .ok (copied ++ cells) := by
  induction values generalizing copied e with
  | nil =>
    refine After.try_pure_iff.2 ⟨.refl, ?_⟩
    rintro _ ⟨⟩
    simp
  | cons value values ih =>
    unfold copyRow
    have copied : After (Engine.copyValue value) e fun r e₁ => Engine.Alters none e e₁ ∧
        r = value :=
      Engine.copyValue_alters.and (by cases value <;> rfl)
    refine After.try_bind_iff.2 <| After.try_lift_iff.2 <| copied.mono fun r e₁ ⟨h₁, hr⟩ => ?_
    subst hr
    cases r with
    | none =>
      refine After.try_bind_iff.2 <| After.try_lift_iff.2 <| Engine.freeCells_alters.mono
        fun _ _ h₂ => After.throw_iff.2 ⟨h₁.trans h₂, ?_⟩
      simp
    | some cell =>
      refine (ih e₁).mono fun r e₂ ⟨h₂, hr⟩ => ⟨h₁.trans h₂, fun cells hcells => ?_⟩
      simp only [List.mapM_cons, id, Option.bind_eq_bind, Option.bind_some, Option.pure_def,
        Option.bind_eq_some_iff, Option.some.injEq] at hcells
      obtain ⟨cells', hcells', rfl⟩ := hcells
      rw [hr cells' hcells']
      simp

end Sqlite

namespace Handle

variable {h : Handle} {k : Nat} {rest : List (List Cell)} {e e' : Engine} {c : Option Nat}

theorem Fetches.altered (hf : h.Fetches k rest e e') {e'' : Engine}
    (ha : Engine.Alters none e' e'') : h.Fetches k rest e e'' := by
  obtain ⟨⟨p, hp, hrest⟩, hrows, hfailed⟩ := hf
  refine ⟨⟨p, (ha.others k (by simp)).trans hp, hrest⟩, ?_, ?_⟩
  · rwa [ha.history]
  · rwa [ha.history]

/-- Fetching a row fails in the engine, or yields the next row if there is one. -/
theorem fetchRow_fetches (hk : h.number? = some k) (hh : h.holdsRows) (hy : h.Yields k rest e) :
    After (h.fetchRow c).run e fun r e' =>
      fetchesFailed k e.history < fetchesFailed k e'.history ∨
        r = .ok rest.head? ∧ h.Fetches k rest e e' := by
  obtain ⟨p, hp, hrest⟩ := hy
  cases h with
  | sqlite n =>
    obtain rfl : n = some k := hk
    refine After.try_bind_iff.2 <| After.try_lift_iff.2 <| (Engine.step_fetched hp).mono
      fun r e₁ h₁ => ?_
    obtain hfailed | ⟨row, hf, rfl⟩ := h₁
    · have later {e₂ : Engine} (h₂ : e₁.Extends e₂) :
          fetchesFailed k e.history < fetchesFailed k e₂.history :=
        Nat.lt_of_lt_of_le hfailed (fetchesFailed_mono h₂)
      cases r with
      | finished => exact After.try_pure_iff.2 (.inl hfailed)
      | failed code =>
        exact After.try_seq (Sqlite.preserves_check (I := e₁.Extends) e₁ (List.suffix_refl _))
          (fun _ _ h₂ => After.try_pure_iff.2 (.inl (later h₂))) fun _ _ h₂ => .inl (later h₂)
      | row values =>
        exact After.try_seq (Sqlite.preserves_copyRow (I := e₁.Extends) e₁ (List.suffix_refl _))
          (fun _ _ h₂ => After.try_pure_iff.2 (.inl (later h₂))) fun _ _ h₂ => .inl (later h₂)
    · obtain ⟨hfetches, hrow⟩ := Fetches.of_fetched (h := sqlite (some k)) hrest hf
      cases row with
      | none =>
        have hnone : rest.head? = none := by simpa using hrow.symm
        exact After.try_pure_iff.2 (.inr ⟨by rw [hnone], hfetches⟩)
      | some values =>
        obtain ⟨cells, hcells, hhead⟩ : ∃ cells, values.mapM id = some cells ∧
            rest.head? = some cells := by
          simpa [row?, Option.bind_eq_some_iff, eq_comm] using hrow
        refine After.try_seq (Sqlite.copyRow_copies e₁) (fun copied e₂ ⟨ha, hr⟩ => ?_)
          fun f e₂ ⟨_, hr⟩ => ?_
        · obtain rfl : copied = cells := Except.ok.inj (hr cells hcells)
          exact After.try_pure_iff.2 (.inr ⟨by rw [hhead], hfetches.altered ha⟩)
        · cases hr cells hcells
  | maria s =>
    obtain rfl : s.number = k := Option.some.inj hk
    change s.hasRows = true at hh
    unfold fetchRow Maria.fetchRow
    simp only [hh, Bool.not_true, Bool.false_eq_true, if_false]
    refine After.try_bind_iff.2 <| After.try_lift_iff.2 <| (Engine.fetch_fetched hp).mono
      fun r e₁ h₁ => ?_
    obtain hfailed | ⟨row, hf, rfl⟩ := h₁
    · cases r with
      | noRow => exact After.try_pure_iff.2 (.inl hfailed)
      | truncated => exact After.throw_iff.2 (.inl hfailed)
      | failed =>
        refine After.try_seq (preserves_try_lift
          (Maria.preserves_statementFault (I := e₁.Extends)) e₁
          (List.suffix_refl _)) (fun _ _ h₂ => After.throw_iff.2 (.inl ?_)) fun _ _ h₂ => .inl ?_
        · exact Nat.lt_of_lt_of_le hfailed (fetchesFailed_mono h₂)
        · exact Nat.lt_of_lt_of_le hfailed (fetchesFailed_mono h₂)
      | row values => exact After.try_pure_iff.2 (.inl hfailed)
    · obtain ⟨hfetches, hrow⟩ := Fetches.of_fetched (h := maria s) hrest hf
      cases row with
      | none =>
        have hnone : rest.head? = none := by simpa using hrow.symm
        exact After.try_pure_iff.2 (.inr ⟨by rw [hnone], hfetches⟩)
      | some values =>
        have hhead : rest.head? = some (values.map Maria.cell) := by
          simpa [row?, eq_comm] using hrow
        exact After.try_pure_iff.2 (.inr ⟨by rw [hhead]; rfl, hfetches⟩)

end Handle

/-! ## The rows of a cursor -/

namespace Cursor

/-- A cursor has the first rows of a result, and the statement it reads is to yield the others. -/
structure Reads (h : Handle) (k : Nat) (result : List (List Cell)) (base : Nat) (x : Cursor)
    (e : Engine) : Prop where
  number : h.number? = some k
  holdsRows : h.holdsRows
  coming : ∃ rest, result = x.rows ++ rest ∧ h.Yields k rest e ∧ (x.exhausted → rest = [])
  fetched : rowsFetched k e.history = base + x.rows.length

/-- A cursor has some more rows, and none was fetched in vain. -/
structure Further (h : Handle) (k : Nat) (result : List (List Cell)) (base : Nat) (x : Cursor)
    (e : Engine) (count : Nat) (y : Cursor) (e' : Engine) : Prop where
  reads : y.Reads h k result base e'
  failed : fetchesFailed k e'.history = fetchesFailed k e.history
  length : y.rows.length = count
  own : y.own = x.own
  columns : y.columns = x.columns
  position : y.position = x.position

variable {h : Handle} {k : Nat} {result : List (List Cell)} {base : Nat} {x : Cursor} {w : World}
  {c : Option Nat}

theorem Reads.rows_prefix {e : Engine} (hx : x.Reads h k result base e) : x.rows <+: result := by
  obtain ⟨rest, hrest, -⟩ := hx.coming
  exact ⟨rest, hrest.symm⟩

theorem Reads.altered {e e' : Engine} (hx : x.Reads h k result base e)
    (hs : e'.statements.find? k = e.statements.find? k)
    (hr : rowsFetched k e'.history = rowsFetched k e.history) : x.Reads h k result base e' := by
  obtain ⟨rest, hrest, ⟨p, hp, hy⟩, hend⟩ := hx.coming
  exact ⟨hx.number, hx.holdsRows, ⟨rest, hrest, ⟨p, hs.trans hp, hy⟩, hend⟩, hr.trans hx.fetched⟩

/-- Once a fetch has failed, the count of failures stays above what it was. -/
theorem fetchRows_failed {n m : Nat} (hm : m < fetchesFailed k w.engine.history) :
    After (fetchRows h c n).run (x, w) fun _ s' => m < fetchesFailed k s'.2.engine.history :=
  (Statement.fetchRows_preserves (I := w.engine.Extends) (fun _ _ _ _ _ _ => admits_extends)
    (fun _ _ => admits_extends) n (List.suffix_refl _)).mono fun _ _ ⟨_, he⟩ =>
      Nat.lt_of_lt_of_le hm (fetchesFailed_mono he)

/-- Rows are fetched up to the end of the result, unless an attempt fails. -/
theorem fetchRows_reads (n : Nat) (hx : x.Reads h k result base w.engine) :
    After (fetchRows h c n).run (x, w) fun r s' =>
      fetchesFailed k w.engine.history < fetchesFailed k s'.2.engine.history ∨
        r = .ok () ∧ x.Further h k result base w.engine (min (x.rows.length + n) result.length)
          s'.1 s'.2.engine := by
  have hle := hx.rows_prefix.length_le
  induction n generalizing x w with
  | zero => exact After.try_pure_iff.2 (.inr ⟨rfl, hx, rfl, by dsimp only; omega, rfl, rfl, rfl⟩)
  | succ n ih =>
    obtain ⟨rest, hrest, hyields, hend⟩ := hx.coming
    unfold fetchRows
    refine After.try_bind_iff.2 <| After.try_get_iff.2 ?_
    cases hexhausted : x.exhausted with
    | true =>
      have : x.rows.length = result.length := by simp [hrest, hend hexhausted]
      simp only [hexhausted, Bool.not_true, Bool.false_eq_true, if_false]
      exact After.try_pure_iff.2 (.inr ⟨rfl, hx, rfl, by dsimp only; omega, rfl, rfl, rfl⟩)
    | false =>
      simp only [hexhausted, Bool.not_false, if_true]
      refine After.try_bind_iff.2 <| After.op_onTry_iff.2 <|
        (Handle.fetchRow_fetches hx.number hx.holdsRows hyields).mono fun r e₁ h₁ => ?_
      obtain hfailed | ⟨rfl, hnext, hrows, hsame⟩ := h₁
      · match r with
        | .error f => exact .inl hfailed
        | .ok none => exact After.try_modify_iff.2 (.inl hfailed)
        | .ok (some row) =>
          exact After.try_bind_iff.2 <| After.try_modify_iff.2 <|
            (fetchRows_failed (w := { w with engine := e₁ }) hfailed).mono fun _ _ h => .inl h
      · have hfetched := hx.fetched
        cases rest with
        | nil =>
          have : x.rows.length = result.length := by simp [hrest]
          exact After.try_modify_iff.2 (.inr ⟨rfl, ⟨hx.number, hx.holdsRows,
            ⟨[], hrest, hnext, fun _ => rfl⟩, hrows.trans hfetched⟩, hsame, by dsimp only; omega,
            rfl, rfl, rfl⟩)
        | cons row rest =>
          refine After.try_bind_iff.2 <| After.try_modify_iff.2 ?_
          have hone : ({ x with rows := x.rows ++ [row] } : Cursor).Reads h k result base e₁ :=
            ⟨hx.number, hx.holdsRows, ⟨rest, by simp [hrest], hnext, by simp [hexhausted]⟩, by
              simpa [hfetched, Nat.add_assoc] using hrows⟩
          refine (ih (w := { w with engine := e₁ }) hone hone.rows_prefix.length_le).mono
            fun r s' h' => ?_
          obtain hfailed | ⟨rfl, hreads, hsame', hlength, hown, hcolumns, hposition⟩ := h'
          · exact .inl (hsame ▸ hfailed)
          · refine .inr ⟨rfl, hreads, hsame'.trans hsame, ?_, hown, hcolumns, hposition⟩
            simpa [Nat.add_assoc, Nat.add_comm 1] using hlength

/-- Rows are fetched until the one of an index is there, unless an attempt fails. -/
theorem fetchTo_reads (index : Int) (hx : x.Reads h k result base w.engine) :
    After (fetchTo h c index).run (x, w) fun r s' =>
      fetchesFailed k w.engine.history < fetchesFailed k s'.2.engine.history ∨
        r = .ok () ∧ x.Further h k result base w.engine
          (min (max x.rows.length (index + 1).toNat) result.length) s'.1 s'.2.engine := by
  refine After.try_bind_iff.2 (After.try_get_iff.2 ((fetchRows_reads _ hx).mono fun r s' h' => ?_))
  have hcount : x.rows.length + (index + 1 - x.rows.length).toNat =
      max x.rows.length (index + 1).toNat := by omega
  rwa [hcount] at h'

end Cursor

end SqlAccess
