import SqlAccess.Proofs.Holdings.Statement
import SqlAccess.Proofs.Showing
import SqlAccess.Proofs.Statement

/-!
# Cursors that are produced

Running a statement for rows, or for generated keys, produces a cursor in front of the first row of
what was run (`Statement.query_produces`, `Statement.insert_produces`). Of the keys the first row
has been fetched already.
-/

namespace SqlAccess

/-! ## Starting a statement -/

/-- All rows of a statement are still to come. -/
def Engine.Full (k : Nat) (e : Engine) : Prop :=
  ∀ p, e.statements.find? k = some p → p.pending = p.script.rows

/-- The statements that are there have the rows to come that they had. -/
def Engine.KeepsRows (e e' : Engine) : Prop :=
  ∀ j p, e'.statements.find? j = some p →
    ∃ q, e.statements.find? j = some q ∧ p.script = q.script ∧ p.pending = q.pending

namespace Engine

variable {k : Nat} {e e' : Engine} {call : Call}

theorem Full.kept (h : e.Full k) (hk : e.KeepsRows e') : e'.Full k := by
  intro p hp
  obtain ⟨q, hq, hscript, hpending⟩ := hk k p hp
  rw [hscript, hpending, h q hq]

theorem KeepsRows.of_eq (h : e'.statements = e.statements) : e.KeepsRows e' :=
  fun _ p hp => ⟨p, h ▸ hp, rfl, rfl⟩

theorem Full.altered (h : e.Full k) (ha : e.Alters none e') : e'.Full k :=
  fun p hp => h p (ha.others k (by simp) ▸ hp)

theorem onStatement_keepsRows : After (onStatement k call) e fun _ e' => e.KeepsRows e' := by
  unfold onStatement
  refine After.seq (perform_after _) fun r e₁ ⟨_, _, hs⟩ => ?_
  cases r with
  | none => exact After.pure_iff.2 (.of_eq hs)
  | some f =>
    refine After.bind_iff.2 <| After.base_modify_iff.2 <| After.pure_iff.2 fun j p hp => ?_
    obtain ⟨-, q, hq, rfl⟩ | ⟨-, hq⟩ := Table.find?_modify_eq_some.1 hp
    · exact ⟨q, hs ▸ hq, rfl, rfl⟩
    · exact ⟨p, hs ▸ hq, rfl, rfl⟩

theorem reset_full : After (reset k) e fun _ e' => e'.Full k := by
  intro p hp
  obtain ⟨-, q, hq, rfl⟩ | ⟨hne, -⟩ := Table.find?_modify_eq_some.1 hp
  · rfl
  · exact absurd rfl hne

theorem execute_full {parameters : List Datum} :
    After (execute k parameters) e fun ok e' => ok → e'.Full k := by
  unfold execute
  refine After.bind_iff.2 <| After.of_forall fun ok e₁ => ?_
  cases ok with
  | false => exact After.bind_iff.2 (After.pure_iff.2 (After.pure_iff.2 nofun))
  | true =>
    refine After.bind_iff.2 <| After.base_modify_iff.2 <| After.pure_iff.2 fun _ p hp => ?_
    obtain ⟨-, q, hq, rfl⟩ | ⟨hne, -⟩ := Table.find?_modify_eq_some.1 hp
    · rfl
    · exact absurd rfl hne

end Engine

namespace Maria

variable {s : Client} {k : Nat} {e : Engine}

theorem checkStatement_alters {ok : Bool} {action : Bytes} :
    After (checkStatement k ok action).run e fun r e' => e.Alters none e' ∧ (r = .ok () → ok) := by
  unfold checkStatement
  cases ok with
  | true => exact After.try_pure_iff.2 ⟨.refl, fun _ => rfl⟩
  | false =>
    have failed : After (statementFault k action) e fun _ e' => e.Alters none e' :=
      Engine.alters_bind Engine.viewStatement_alters fun _ _ => Engine.alters_pure _
    exact After.try_call failed fun _ _ h => After.throw_iff.2 ⟨h, nofun⟩

/-- A statement that was run has all its rows to come. -/
theorem bindAndExecute_full :
    After (bindAndExecute s).run e fun r e' => r = .ok () → e'.Full s.number := by
  have executed {action : Bytes} {e : Engine} : After (ExceptT.run do
      checkStatement s.number (← Engine.execute s.number s.parameters) action :
        EngineM (Except Fault Unit)) e fun r e' => r = .ok () → e'.Full s.number :=
    After.try_call Engine.execute_full fun _ _ hfull => checkStatement_alters.mono
      fun _ _ ⟨ha, hok⟩ hr => (hfull (hok hr)).altered ha
  unfold bindAndExecute
  split
  · refine After.try_bind_iff.2 <| After.try_lift_iff.2 <| After.of_forall fun ok e₁ =>
      After.try_bind_iff.2 <| After.of_forall fun r e₂ => ?_
    cases r with
    | error f => exact nofun
    | ok _ => exact executed
  · exact executed

/-- A statement that was started holds a result, and all its rows are to come. -/
theorem beginRows_full : After beginRows.run (s, e) fun r a =>
    r = .ok () → a.1.hasRows ∧ a.2.Full a.1.number := by
  have rest {s₁ : Client} {e₂ : Engine} (h : e₂.Full s₁.number) : After (do
        checkStatement s₁.number (← Engine.storeResult s₁.number) "mysql_stmt_store_result failed"
        set { s₁ with hasRows := true }
        checkStatement s₁.number (← Engine.bindResult s₁.number) "mysql_stmt_bind_result failed" :
          ClientTry Unit).run (s₁, e₂) fun r a => r = .ok () → a.1.hasRows ∧
            a.2.Full a.1.number := by
    refine After.try_bind_iff.2 <| After.try_object_onEngine_iff.2 <|
      Engine.onStatement_keepsRows.mono fun ok e₃ h₃ => ?_
    refine After.try_bind_iff.2 <| After.try_object_onTry_iff.2 <| checkStatement_alters.mono
      fun r e₄ ⟨h₄, _⟩ => ?_
    cases r with
    | error f => exact nofun
    | ok _ =>
      refine After.try_bind_iff.2 <| After.try_set_iff.2 <| After.try_bind_iff.2 <|
        After.try_object_onEngine_iff.2 <| Engine.onStatement_keepsRows.mono fun ok e₅ h₅ => ?_
      exact After.try_object_onTry_iff.2 <| checkStatement_alters.mono fun r e₆ ⟨h₆, _⟩ _ =>
        ⟨rfl, (((h.kept h₃).altered h₄).kept h₅).altered h₆⟩
  unfold beginRows
  refine After.try_bind_iff.2 <| After.try_get_iff.2 <| After.try_bind_iff.2 <|
    After.try_object_onEngine_iff.2 <| After.of_forall fun s₁ e₁ => ?_
  refine After.try_bind_iff.2 <| After.try_set_iff.2 <| After.try_bind_iff.2 <|
    After.try_get_iff.2 ?_
  refine After.try_bind_iff.2 <| After.try_object_onTry_iff.2 <|
    bindAndExecute_full.mono fun r e₂ hfull => ?_
  cases r with
  | error f => exact nofun
  | ok _ =>
    dsimp only
    split
    · exact After.try_bind_iff.2 (After.throw_iff.2 nofun)
    · exact rest (hfull rfl)

end Maria

namespace Handle

variable {h : Handle} {e : Engine}

/-- What was started can be asked for rows, and all of them are to come. -/
theorem beginRows_full : After beginRows.run (h, e) fun r a =>
    r = .ok () → a.1.holdsRows ∧ ∀ k, a.1.number? = some k → a.2.Full k := by
  unfold beginRows
  refine After.try_bind_iff.2 <| After.try_get_iff.2 ?_
  cases h with
  | sqlite k =>
    cases k with
    | none => exact After.try_object_onEngine_iff.2 fun _ => ⟨rfl, nofun⟩
    | some k =>
      refine After.try_object_onEngine_iff.2 <| Engine.reset_full.mono fun _ e' hfull _ => ⟨rfl, ?_⟩
      rintro _ ⟨⟩
      exact hfull
  | maria s =>
    have begun : After Maria.beginRows.run (s, e) fun r a => r = .ok () →
        (maria a.1).holdsRows ∧ ∀ k, (maria a.1).number? = some k → a.2.Full k :=
      Maria.beginRows_full.mono fun _ a hfull hr => ⟨(hfull hr).1, by
        rintro _ ⟨⟩
        exact (hfull hr).2⟩
    exact begun

end Handle

/-- No row of a statement was to be fetched, and the statements there are have their scripts. -/
structure Engine.Awaits (k : Nat) (e e' : Engine) : Prop where
  unfetched : e.Unfetched k e'
  retains : e.Retains e'

namespace Engine.Awaits

variable {k : Nat} {e e' : Engine} {call : Call}

theorem refl : e.Awaits k e := ⟨.refl, .refl⟩

instance : Steady (e.Awaits k) :=
  ⟨fun h ha => ⟨Steady.alters h.unfetched ha, Steady.alters h.retains ha⟩⟩

theorem admits (hf : call.fetches? ≠ some k) (ht : call.givesText = false) :
    Admits (e.Awaits k) call := fun e₁ e₂ h₁ h =>
  ⟨Engine.Unfetched.admits hf e₁ e₂ h₁.unfetched h, Engine.Retains.admits ht e₁ e₂ h₁.retains h⟩

theorem admitsStart {j : Nat} : AdmitsStart (e.Awaits k) j :=
  fun _ _ _ ht hf => admits (by simp [hf]) ht

theorem admitsExecute {j : Nat} : AdmitsExecute (e.Awaits k) j := fun _ => admits nofun rfl

end Engine.Awaits

/-- Only statements that were there before were asked anything. -/
structure Engine.Recalls (e e' : Engine) : Prop where
  next : e.statements.next ≤ e'.statements.next
  calls : Grown (fun _ ev => ∀ k, ev.call.statement? = some k → k < e.statements.next)
    e.history e'.history

namespace Engine.Recalls

variable {k : Nat} {e e' : Engine} {call : Call}

theorem refl : e.Recalls e := ⟨Nat.le_refl _, .refl⟩

instance : Steady e.Recalls := ⟨fun h ha =>
  ⟨Nat.le_trans h.next (Nat.le_of_eq ha.next.symm), h.calls.trans (ha.history ▸ .refl)⟩⟩

theorem admits (h : ∀ k, call.statement? = some k → k < e.statements.next) :
    Admits e.Recalls call := by
  intro e₁ e₂ h₁ ht
  obtain ⟨o, hh, -⟩ := ht.history
  exact ⟨Nat.le_trans h₁.next (Nat.le_of_eq ht.next.symm), h₁.calls.trans (hh ▸ .one h)⟩

theorem admits_of_lt {j : Nat} (hj : j < e.statements.next) (hs : call.statement? = some j) :
    Admits e.Recalls call := admits fun k hk => by
  obtain rfl := Option.some.inj (hs.symm.trans hk)
  exact hj

/-- Of what is new nothing was fetched. -/
theorem unfetched (h : e.Recalls e') (hk : e.statements.next ≤ k) : e.Unfetched k e' :=
  h.calls.mono fun _ _ hc hf => Nat.not_lt.2 hk (hc k (Call.statement?_of_fetches? hf))

end Engine.Recalls

/-! ## Columns -/

/-- A column that can be read is one of those that were reported. -/
theorem Column.index_lt {options : Options} {declared : TypeMap} {reported : List Bytes}
    {columns : NameMap Column} (h : resolve options declared reported = .ok columns) {name : Bytes}
    {c : Column} (hc : columns.find? name = some c) : c.index < reported.length := by
  have entered {m m' : NameMap Column} {entry : Bytes × Nat} (hi : entry.2 < reported.length)
      (hm : ∀ name c, m.find? name = some c → c.index < reported.length)
      (h : enter options declared m entry = .ok m') (name : Bytes) (c : Column)
      (hc : m'.find? name = some c) : c.index < reported.length := by
    unfold enter at h
    dsimp only at h
    split at h
    · obtain rfl := Except.ok.inj h
      exact hm name c hc
    · split at h
      · cases h
      · obtain rfl := Except.ok.inj h
        simp only [NameMap.find?_insert] at hc
        split at hc
        · obtain rfl := Option.some.inj hc
          exact hi
        · split at hc
          · obtain rfl := Option.some.inj hc
            exact hi
          · exact hm name c hc
  -- the columns entered so far keep to the indices of the result
  have folded {l : List (Bytes × Nat)} {m : NameMap Column} (hl : ∀ e ∈ l, e.2 < reported.length)
      (hm : ∀ name c, m.find? name = some c → c.index < reported.length)
      (h : l.foldlM (enter options declared) m = .ok columns) : ∀ name c,
        columns.find? name = some c → c.index < reported.length := by
    induction l generalizing m with
    | nil =>
      obtain rfl := Except.ok.inj h
      exact hm
    | cons e l ih =>
      rw [List.foldlM_cons] at h
      cases he : enter options declared m e with
      | error f =>
        rw [he] at h
        cases h
      | ok m' =>
        rw [he] at h
        exact ih (fun e' he' => hl e' (List.mem_cons_of_mem _ he'))
          (entered (hl e List.mem_cons_self) hm he) h
  refine folded (fun e he => ?_) (fun _ _ h => by cases h) h name c hc
  obtain ⟨_, i⟩ := e
  have := List.mem_zipIdx he
  omega

namespace Handle

variable {h h' : Handle} {k : Nat} {e e' : Engine} {p : Prepared}

/-- The columns that a statement has are those of its text, also later on. -/
theorem Fits.retained (hf : h.Fits e) (hk : ∀ k, h.number? = some k → k < e.statements.next)
    (hr : e.Retains e') (hfixed : h'.fixed = h.fixed) : h'.Fits e' := by
  cases h' with
  | sqlite _ => trivial
  | maria s' =>
    cases h with
    | sqlite _ => cases hfixed
    | maria s =>
      obtain hfixed : s'.fixed = s.fixed := Handle.maria.inj hfixed
      intro p hp
      have hn : s'.number = s.number := Maria.Client.number_of_fixed hfixed
      have hcolumns : s'.columns = s.columns := congrArg (·.columns) hfixed
      obtain ⟨q, hq, hpq⟩ := hr.scripts s.number p (hk _ rfl) (hn ▸ hp)
      rw [hcolumns, hf q hq, hpq]

/-- The result of a statement is what it was. -/
theorem result?_retained {result : List (List Cell)} (hr : e.Retains e')
    (hk : ∀ k, h.number? = some k → k < e.statements.next) (h' : h.result? e' = some result) :
    h.result? e = some result := by
  simp only [result?, Option.bind_eq_bind, Option.bind_eq_some_iff] at h' ⊢
  obtain ⟨k, hnumber, p, hp, hrows⟩ := h'
  obtain ⟨q, hq, hpq⟩ := hr.scripts k p (hk k hnumber) hp
  exact ⟨k, hnumber, q, hq, hpq ▸ hrows⟩

/-- The names of the columns are as many as the columns of the text. -/
theorem columnNames_length (hf : h.Fits e) : After h.columnNames e fun names _ =>
    ∀ k p, h.number? = some k → e.statements.find? k = some p →
      names.length = p.script.columns.length := by
  intro k p hk hp
  unfold columnNames
  cases h with
  | sqlite n =>
    obtain rfl : n = some k := hk
    have viewed : After (Engine.viewStatement k) e fun q _ => q = p := by
      change (e.statements.find? k).getD _ = p
      rw [hp]
      rfl
    have named : After (Sqlite.columnNames (some k)) e fun names _ =>
        names.length = p.script.columns.length :=
      After.seq viewed fun q _ hq => After.pure_iff.2 (by rw [hq, List.length_map])
    exact named
  | maria s =>
    obtain rfl : s.number = k := Option.some.inj hk
    change (Maria.columnNames s).length = _
    rw [Maria.columnNames, List.length_map, hf p hp]

theorem forall₂_of_mapM {α β : Type} {f : α → Option β} {l : List α} {r : List β}
    (h : l.mapM f = some r) : List.Forall₂ (fun a b => f a = some b) l r := by
  induction l generalizing r with
  | nil =>
    obtain rfl : r = [] := by simpa using h.symm
    exact .nil
  | cons a l ih =>
    simp only [List.mapM_cons, Option.bind_eq_bind, Option.bind_eq_some_iff, Option.pure_def,
      Option.some.injEq] at h
    obtain ⟨b, hb, r, hr, rfl⟩ := h
    exact .cons hb (ih hr)

theorem row?_length {values : List (Option Cell)} {row : List Cell}
    (hr : h.row? values = some row) :
    row.length = values.length := by
  cases h with
  | sqlite _ => exact (forall₂_of_mapM hr).length_eq.symm
  | maria _ =>
    obtain rfl := Option.some.inj hr
    exact List.length_map _

/-- The rows of a result are as long as the list of columns of the text. -/
theorem length_of_result {result : List (List Cell)} (hk : h.number? = some k)
    (hp : e.statements.find? k = some p) (hr : h.result? e = some result) {row : List Cell}
    (hrow : row ∈ result) : row.length = p.script.columns.length := by
  simp only [result?, hk, Option.bind_eq_bind, Option.bind_some, hp] at hr
  have padded {values : List (Option Cell)} :
      (p.script.pad values).length = p.script.columns.length := by
    simp only [Script.pad, List.length_take, List.length_append, List.length_replicate]
    omega
  have hrows := forall₂_of_mapM hr
  generalize p.script.rows = rows at hrows
  clear hr
  induction hrows with
  | nil => cases hrow
  | cons hb _ ih =>
    obtain rfl | hrow := List.mem_cons.1 hrow
    · rw [row?_length hb, padded]
    · exact ih hrow

end Handle

/-! ## In front of the first row -/

/-- A cursor over a statement that was started is in front of the first row. -/
theorem Cursor.Stands.of_full {h : Handle} {own : Option Handle} {k base : Nat} {e : Engine}
    {result : List (List Cell)} {options : Options} {declared : TypeMap} {names : List Bytes}
    {columns : NameMap Column} (hk : h.number? = some k) (hh : h.holdsRows) (hfull : e.Full k)
    (hr : h.result? e = some result) (hb : rowsFetched k e.history = base)
    (hn : ∀ p, e.statements.find? k = some p → names.length = p.script.columns.length)
    (hc : Column.resolve options declared names = .ok columns) :
    ({ own, columns } : Cursor).Stands h k result base (-1) e := by
  obtain ⟨p, hp, hrows⟩ : ∃ p, e.statements.find? k = some p ∧
      p.script.rows.mapM (fun row => h.row? (p.script.pad row)) = some result := by
    simpa [Handle.result?, hk, Option.bind_eq_some_iff] using hr
  refine ⟨⟨hk, hh, ⟨result, rfl, ⟨p, hp, hfull p hp ▸ hrows⟩, nofun⟩, hb⟩,
    fun name c hname row hrow => ?_,
    rfl, Int.le_refl _, Int.negSucc_lt_zero _⟩
  rw [Handle.length_of_result hk hp hr hrow, ← hn p hp]
  exact Column.index_lt hc hname

/-- It stays there when rows are fetched. -/
theorem Cursor.Stands.further {h : Handle} {k base count : Nat} {e e' : Engine}
    {result : List (List Cell)} {p : Int} {x y : Cursor} (hx : x.Stands h k result base p e)
    (hy : x.Further h k result base e count y e') (hle : x.rows.length ≤ count) :
    y.Stands h k result base p e' :=
  ⟨hy.reads, hy.columns ▸ hx.columns, hy.position.trans hx.position, hx.low,
    Int.lt_of_lt_of_le hx.high (Int.ofNat_le.2 (hy.length ▸ hle))⟩

namespace Statement

variable {l : Link} {z : Statement} {w : World}

/-- What a run that produces a cursor leaves behind. The cursor reads the statement that was run, or
one that is new. It is in front of the first row of the result, unless an attempt to fetch a row
failed. -/
def Produces (k : Nat) (z : Statement) (w : World) (r : Except Fault Nat) (a : Statement × World) :
    Prop :=
  ∀ m, r = .ok m → a.1.Current m ∧ ∀ x, a.1.cursors.find? m = some x →
    (x.own.getD a.1.handle).number? = some k →
      (z.handle.number? = some k ∨ w.engine.statements.next ≤ k) ∧
      k < a.2.engine.statements.next ∧ ∀ result,
        (x.own.getD a.1.handle).result? a.2.engine = some result →
        fetchesFailed k w.engine.history < fetchesFailed k a.2.engine.history ∨
        Shows m k result (rowsFetched k w.engine.history) (fetchesFailed k w.engine.history) (-1) a

theorem Produces.of_error {k : Nat} {f : Fault} {a : Statement × World} :
    Produces k z w (.error f) a := fun _ h => nomatch h

/-- A cursor put in place is the current one. -/
theorem putCursor_current {x : Cursor} (ho : z.isOpen) (hnone : ∀ n c, z.cursors.find? n ≠ some c) :
    After (putCursor x).run (z, w) fun r a => a.2 = w ∧ a.1.handle = z.handle ∧ ∀ m, r = .ok m →
      a.1.Current m ∧ a.1.cursors.find? m = some x := by
  unfold putCursor
  refine After.try_bind_iff.2 <| After.try_get_iff.2 <| After.try_bind_iff.2 <|
    After.try_set_iff.2 <|
    After.try_pure_iff.2 ⟨rfl, rfl, ?_⟩
  rintro _ ⟨⟩
  refine ⟨⟨ho, rfl, fun n c hn => ?_, Nat.lt_succ_self _⟩, by simp [Table.find?_add]⟩
  obtain ⟨rfl, -⟩ | hn := Table.find?_add_eq_some.1 hn
  · rfl
  · exact absurd hn (hnone n c)

/-- Running a statement for rows produces a cursor in front of the first one. -/
theorem query_produces (k : Nat) (hs : z.Sane l.connection w.engine.history) (ho : z.isOpen)
    (hk : ∀ k, z.handle.number? = some k → k < w.engine.statements.next)
    (hf : z.handle.Fits w.engine) :
    After (query l).run (z, w) fun r a => Produces k z w r a := by
  have closed := closeCurrent_tends (l := l) (I := w.engine.Awaits k)
    (fun _ _ => Engine.Awaits.admitsStart.release) (.all (s := z) (w := w) .refl)
  unfold query
  refine After.try_bind_iff.2 <| ((closeCurrent_goes hs).and closed).mono ?_
  rintro r a₁ ⟨⟨h₁, hnone⟩, htends⟩
  cases r with
  | error f => exact .of_error
  | ok _ =>
    refine After.try_bind_iff.2 <| onHandle_iff.2 <| (Handle.beginRows_full.and
      (Handle.beginRows_preserves (fun _ _ => Engine.Awaits.admitsStart)
        (fun _ _ => Engine.Awaits.admitsExecute) htends.engine)).mono ?_
    rintro r ⟨h', e₂⟩ ⟨hfull, hfixed, h₂⟩
    cases r with
    | error f => exact .of_error
    | ok _ =>
      obtain ⟨hh, hfull⟩ := hfull rfl
      have hfits : h'.Fits e₂ := hf.retained hk h₂.retains (hfixed.trans htends.alike.handle)
      refine After.try_bind_iff.2 <| After.try_get_iff.2 <| After.try_bind_iff.2 <|
        After.op_onEngine_iff.2 <| ((Handle.columnNames_length hfits).and
          (Handle.preserves_columnNames (I := e₂.Alters none) e₂ .refl)).mono ?_
      rintro names e₃ ⟨hnames, h₃⟩
      dsimp only
      split
      · next columns hcolumns =>
        refine (putCursor_current (z := { a₁.1 with handle := h' })
          (w := { a₁.2 with engine := e₃ })
          (h₁.open_eq.trans ho) hnone).mono ?_
        rintro r a ⟨hw, hhandle, hput⟩ m hr
        obtain ⟨hcurrent, hfound⟩ := hput m hr
        refine ⟨hcurrent, fun x hx hkx => ?_⟩
        obtain rfl := Option.some.inj (hfound.symm.trans hx)
        rw [Option.getD_none, hhandle] at hkx ⊢
        have h₃' : w.engine.Awaits k e₃ := Steady.alters h₂ h₃
        have hkz : z.handle.number? = some k := by
          rw [← hkx, Handle.number?_of_fixed (hfixed.trans htends.alike.handle)]
        refine ⟨.inl hkz, ?_, fun result hresult => .inr ?_⟩
        · rw [hw]
          exact Nat.lt_of_lt_of_le (hk k hkz) h₃'.retains.next
        · rw [hw] at hresult
          refine ⟨hcurrent, ⟨_, hfound, ?_⟩, ?_⟩
          · rw [Option.getD_none, hhandle, hw]
            exact .of_full hkx hh ((hfull k hkx).altered h₃) hresult h₃'.unfetched.rows
              (fun p hp => hnames k p hkx (h₃.others k (by simp) ▸ hp)) hcolumns
          · rw [hw]
            exact h₃'.unfetched.failed
      · exact After.try_bind_iff.2 <| After.op_onEngine_iff.2 <| After.of_forall fun _ _ =>
          After.try_bind_iff.2 <| After.try_set_iff.2 <| After.throw_iff.2 .of_error

/-- A cursor over generated keys is in front of the first row, which has been fetched. -/
theorem fetchKeys_stands (k : Nat) (keys : TypeMap) :
    After (fetchKeys l keys).run ({ columns := .empty }, w) fun r a => r = .ok () →
      ∃ own, a.1.own = some own ∧ (own.number? = some k → w.engine.statements.next ≤ k ∧
        k < a.2.engine.statements.next ∧ ∀ result, own.result? a.2.engine = some result →
          fetchesFailed k w.engine.history < fetchesFailed k a.2.engine.history ∨
          a.1.Stands own k result (rowsFetched k w.engine.history) (-1) a.2.engine ∧
            fetchesFailed k a.2.engine.history = fetchesFailed k w.engine.history) := by
  unfold fetchKeys
  refine After.try_bind_iff.2 <| After.op_onTry_iff.2 <|
    ((Backend.prepare_preserves (fun _ _ => Engine.Unfetched.admitsPrepare)
      Engine.Unfetched.admitsNew (I := w.engine.Unfetched k) .refl).and
        (Backend.prepare_fits _)).mono fun r e₁ ⟨⟨h₁, hnumber⟩, hfits⟩ => ?_
  cases r with
  | error f => exact nofun
  | ok own =>
    have hfits := hfits own rfl
    have hnumber := hnumber own rfl
    refine After.try_bind_iff.2 <| After.try_modify_iff.2 <| After.try_bind_iff.2 <|
      After.op_onEngine_iff.2 <| ((Handle.columnNames_length hfits).and
        (Handle.preserves_columnNames (I := e₁.Awaits k) e₁ .refl)).mono
          fun names e₂ ⟨hnames, h₂⟩ => ?_
    refine After.try_bind_iff.2 <| After.ofResult_iff.2 ?_
    cases hcolumns : Column.resolve l.options keys names with
    | error f => exact nofun
    | ok columns =>
      refine After.try_bind_iff.2 <| After.try_modify_iff.2 <| After.try_bind_iff.2 <|
        After.op_onEngine_iff.2 <| After.run_iff.2 <| (Handle.beginRows_full.and
          (Handle.beginRows_preserves (fun _ _ => Engine.Awaits.admitsStart)
            (fun _ _ => Engine.Awaits.admitsExecute) h₂)).mono
              fun r (own', e₃) ⟨hfull, hfixed, h₃⟩ => ?_
      refine After.try_bind_iff.2 <| After.try_modify_iff.2 <| After.try_bind_iff.2 <|
        After.ofResult_iff.2 ?_
      cases r with
      | error f => exact nofun
      | ok _ =>
        obtain ⟨hh, hfull⟩ := hfull rfl
        have kept := fetchTo_preserves (h := own') (c := l.connection) (I := e₃.Retains)
          (x := { own := some own', columns }) (w := { w with engine := e₃ })
          (fun _ _ => Engine.Retains.admitsQuiet) (fun _ _ => Engine.Retains.admits rfl) 0 .refl
        have hsame : own.number? = own'.number? := (Handle.number?_of_fixed hfixed).symm
        have hnext : own'.number? = some k → k < e₃.statements.next := fun hk =>
          Nat.lt_of_lt_of_le (hnumber k (hsame.trans hk)).2 h₃.retains.next
        -- before its first row is fetched the cursor is in front of it
        have stands (hk : own'.number? = some k) (result : List (List Cell))
            (hresult : own'.result? e₃ = some result) :
            ({ own := some own', columns } : Cursor).Stands own' k result
              (rowsFetched k w.engine.history) (-1) e₃ := by
          refine .of_full hk hh (hfull k hk) hresult (h₃.unfetched.rows.trans h₁.rows)
            (fun p hp => ?_) hcolumns
          have hk := hsame.trans hk
          obtain ⟨q, hq, hpq⟩ := h₃.retains.scripts k p (hnumber k hk).2 hp
          rw [hnames k q hk hq, hpq]
        have fetched : After (Cursor.fetchTo own' l.connection 0).run
            ({ own := some own', columns }, { w with engine := e₃ }) fun _ a =>
              own'.number? = some k → ∀ result, own'.result? e₃ = some result →
                fetchesFailed k e₃.history < fetchesFailed k a.2.engine.history ∨
                a.1.Stands own' k result (rowsFetched k w.engine.history) (-1) a.2.engine ∧
                  fetchesFailed k a.2.engine.history = fetchesFailed k e₃.history :=
          fun hk result hresult => (Cursor.fetchTo_reads (w := { w with engine := e₃ }) 0
            (stands hk result hresult).reads).imp id fun ⟨_, hfurther⟩ =>
              ⟨(stands hk result hresult).further hfurther (Nat.zero_le _), hfurther.failed⟩
        refine (kept.and fetched).mono fun r a ⟨⟨hown, hretains⟩, hfetched⟩ _ =>
          ⟨own', hown, fun hk => ⟨?_, Nat.lt_of_lt_of_le (hnext hk) hretains.next,
            fun result hresult => ?_⟩⟩
        · exact Nat.le_of_eq (hnumber k (hsame.trans hk)).1.symm
        · have hfailed : fetchesFailed k e₃.history = fetchesFailed k w.engine.history :=
            h₃.unfetched.failed.trans h₁.failed
          rw [← hfailed]
          refine hfetched hk result (Handle.result?_retained hretains (fun j hj => ?_) hresult)
          obtain rfl := Option.some.inj (hk.symm.trans hj)
          exact hnext hk

/-- Running a statement for generated keys produces a cursor in front of the first one. It reads a
statement that is new. -/
theorem insert_produces (k : Nat) (hs : z.Sane l.connection w.engine.history) (ho : z.isOpen)
    (hz : z.Within (· < w.engine.statements.next) fun _ => True) :
    After (insert l).run (z, w) fun r a => Produces k z w r a := by
  have executed := execute_tends (l := l) (I := w.engine.Recalls) (s := z) (w := w) (z := z)
    (fun _ hj _ hs _ _ => Engine.Recalls.admits_of_lt hj hs)
    (fun j hj _ hr => Engine.Recalls.admits_of_lt (hz.handle j hj) (Call.statement?_of_runs? hr))
    ⟨.refl, hz, .refl⟩
  unfold insert
  refine After.try_bind_iff.2 <| After.try_get_iff.2 ?_
  dsimp only
  split
  · exact After.try_bind_iff.2 (After.throw_iff.2 .of_error)
  refine After.try_bind_iff.2 <| ((execute_goes hs).and executed).mono
    fun r a₁ ⟨⟨h₁, hnone⟩, htends⟩ => ?_
  cases r with
  | error f => exact .of_error
  | ok _ =>
    have hrecalls := htends.engine
    refine After.try_bind_iff.2 <| After.op_onAct_iff.2 <| After.runOn_iff.2 <|
      (fetchKeys_stands k z.descriptor.declarations.keys).mono fun r (x, w₂) hkeys => ?_
    match r with
    | .ok () =>
      obtain ⟨own, hown, hkeys⟩ := hkeys rfl
      refine (putCursor_current (w := w₂) (h₁.open_eq.trans ho) hnone).mono
        fun r a ⟨hw, _, hput⟩ => ?_
      intro m hr
      obtain ⟨hcurrent, hfound⟩ := hput m hr
      refine ⟨hcurrent, fun y hy hk => ?_⟩
      obtain rfl := Option.some.inj (hfound.symm.trans hy)
      rw [hown, Option.getD_some] at hk ⊢
      obtain ⟨hle, hlt, hkeys⟩ := hkeys hk
      have hold := hrecalls.unfetched (Nat.le_trans hrecalls.next hle)
      refine ⟨.inr (Nat.le_trans hrecalls.next hle), hw ▸ hlt, fun result hresult => ?_⟩
      rw [hw] at hresult ⊢
      rw [← hold.failed, ← hold.rows]
      refine (hkeys result hresult).imp id fun ⟨hstands, hfailed⟩ => ⟨hcurrent, ⟨x, hfound, ?_⟩, ?_⟩
      · rw [hown, Option.getD_some, hw]
        exact hstands
      · rw [hw]
        exact hfailed
    | .error f =>
      dsimp only
      split
      · refine After.try_bind_iff.2 <| After.op_onEngine_iff.2 <| After.of_forall fun _ _ => ?_
        refine After.try_bind_iff.2 <| After.op_onEngine_iff.2 <| After.of_forall fun r _ => ?_
        cases r with
        | ok _ => exact After.throw_iff.2 .of_error
        | error g =>
          exact After.try_bind_iff.2 <| After.op_onAct_iff.2 <| After.of_forall fun _ _ =>
            After.throw_iff.2 .of_error
      · exact After.throw_iff.2 .of_error

end Statement

end SqlAccess
