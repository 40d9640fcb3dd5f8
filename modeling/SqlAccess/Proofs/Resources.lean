import Mathlib.Data.Multiset.Bind
import SqlAccess.Proofs.Lifetimes

/-!
# Resources

After every step, whatever failed in it, the engine has handed out exactly what the session has open
(`Session.Exact`): the handles of the statements and cursors that are not closed, copies of the rows
that those cursors have cached, and the connections of the databases that are not closed. Of what
was closed only a connection can be left, if the engine refused to close it. A step that failed has
opened nothing, and without handles there is nothing left to be given up
(`Session.resources_accounted`).

What is open is counted on a `Scale`, on which the assets that an object holds come to as much as
the object itself.
-/

namespace SqlAccess

open Engine

/-! ## Counting -/

/-- How much each thing counts that an engine hands out. -/
structure Scale (M : Type) where
  statement : Nat → M
  connection : Nat → M
  cell : M

namespace Scale

/-- The statements by their numbers. -/
def statements : Scale (Multiset Nat) := ⟨fun k => {k}, fun _ => 0, 0⟩

/-- The connections by their numbers. -/
def connections : Scale (Multiset Nat) := ⟨fun _ => 0, fun c => {c}, 0⟩

/-- The number of copied values. -/
def cells : Scale Nat := ⟨fun _ => 0, fun _ => 0, 1⟩

variable {M : Type} [AddCommMonoid M] (m : Scale M)

/-- What an asset counts. -/
def asset : Asset → M
  | .statement k _ _ => m.statement k
  | .connection c => m.connection c
  | .cell => m.cell

/-- What some assets count together. -/
def sum (own : Multiset Asset) : M := (own.map m.asset).sum

@[simp] theorem sum_zero : m.sum 0 = 0 := rfl

@[simp] theorem sum_cons (a : Asset) (own : Multiset Asset) :
    m.sum (a ::ₘ own) = m.asset a + m.sum own := by
  simp [sum]

@[simp] theorem sum_singleton (a : Asset) : m.sum {a} = m.asset a := by
  simp [sum]

@[simp] theorem sum_add (own own' : Multiset Asset) :
    m.sum (own + own') = m.sum own + m.sum own' := by
  simp [sum]

@[simp] theorem sum_replicate (n : Nat) (a : Asset) :
    m.sum (Multiset.replicate n a) = n • m.asset a := by
  simp [sum]

/-- A connection is counted as often as it is held. -/
theorem count_connections (own : Multiset Asset) (c : Nat) :
    (connections.sum own).count c = own.count (.connection c) := by
  induction own using Multiset.induction_on with
  | empty => rfl
  | cons a own ih =>
    rw [sum_cons, Multiset.count_add, ih, Multiset.count_cons, add_comm]
    cases a <;> simp [connections, asset, Multiset.count_singleton]

theorem sum_cells (own : Multiset Asset) : cells.sum own = own.count .cell := by
  induction own using Multiset.induction_on with
  | empty => rfl
  | cons a own ih =>
    rw [sum_cons, ih, Multiset.count_cons, add_comm]
    cases a <;> simp [cells, asset]

end Scale

section Weight

variable {M : Type} [AddCommMonoid M] (m : Scale M)

/-- What the entries of a table count together. -/
def Table.total {α : Type} (weight : α → M) (t : Table α) : M :=
  (t.entries.map fun e => weight e.2).sum

theorem Table.total_eq_zero {α : Type} {weight : α → M} {t : Table α}
    (h : ∀ n a, t.find? n = some a → weight a = 0) : t.total weight = 0 := by
  refine List.sum_eq_zero fun x hx => ?_
  obtain ⟨e, he, rfl⟩ := List.mem_map.1 hx
  exact h e.1 e.2 (Table.find?_eq_some_of_mem he)

/-- What a handle counts, if the engine has a statement for it. -/
def Handle.weight (h : Handle) : M := h.number?.elim 0 m.statement

/-- What a cursor counts: its own handle if it has one, and a copy of each value that it has
cached. -/
def Cursor.weight (b : Backend) (y : Cursor) : M :=
  y.own.elim 0 (Handle.weight m) + b.copies y.rows • m.cell

/-- What a statement counts: its handle unless it is closed, and its cursors that are not closed. -/
def Statement.weight (b : Backend) (z : Statement) : M :=
  (if z.isOpen then z.handle.weight m else 0) + z.cursors.total (Cursor.weight m b)

/-- What a database counts: its connection unless it is closed, and its statements. -/
def Database.weight (d : Database) : M :=
  (if d.isOpen then d.link.connection.elim 0 m.connection else 0) +
    d.statements.total (Statement.weight m d.link.backend)

/-- What a session counts. -/
def Session.weight (s : Session) : M := s.opened.total (Database.weight m)

/-! ## What is held and what is open -/

theorem Table.Sums.sum_eq {α : Type} {P : Nat → α → Multiset Asset → Prop} {l : List (Nat × α)}
    {own : Multiset Asset} (h : Table.Sums P l own) {weight : α → M}
    (hP : ∀ n a o, P n a o → m.sum o = weight a) : m.sum own = (l.map fun e => weight e.2).sum := by
  induction h with
  | nil => rfl
  | cons ha _ ih => rw [Scale.sum_add, hP _ _ _ ha, ih, List.map_cons, List.sum_cons]

variable {b : Backend} {c : Option Nat} {own : Multiset Asset}

theorem Handle.Stands.weight {p : Phase} {h : Handle} (hs : h.Stands b c p own) :
    m.sum own = h.weight m := by
  cases hs <;> simp [Handle.weight, number?, Scale.asset]

theorem Cursor.Uses.weight {h : Handle} {ended : Bool} {y : Cursor}
    (hu : y.Uses b c h ended own) : m.sum own = h.weight m + y.weight m b := by
  have fetched {h : Handle} {own : Multiset Asset} (ho : y.Over b c h ended own) :
      m.sum own = b.copies y.rows • m.cell + h.weight m := by
    obtain ⟨o, hs, rfl⟩ := ho
    rw [Scale.sum_add, Scale.sum_replicate, hs.weight]
    rfl
  cases hu with
  | rows hown hov =>
    simp only [fetched hov, Cursor.weight, hown, Option.elim_none]
    abel
  | keys hown hs hov =>
    simp only [Scale.sum_add, hs.weight, fetched hov, Cursor.weight, hown, Option.elim_some]
    abel

theorem Statement.Holds.weight {l : Link} {O : Prop} {R : Nat → Prop} {z : Statement}
    (hz : z.Holds l O R own) : m.sum own = z.weight m l.backend := by
  cases hz with
  | working _ hw =>
    cases hw with
    | idle ho he hs => simp [Statement.weight, Table.total, ho, he, hs.weight]
    | busy ho _ _ he hu => simp [Statement.weight, Table.total, ho, he, hu.weight]
  | closed ho he => simp [Statement.weight, Table.total, ho, he]

theorem Database.Holds.weight {g : Set Part} {d : Database} (hd : d.Holds g own) :
    m.sum own = d.weight m := by
  have statements {o : Bool} {own : Multiset Asset} (hk : d.Keeps g d.link o own) :
      m.sum own = d.statements.total (Statement.weight m d.link.backend) :=
    hk.statements.sum_eq m fun _ _ _ hz => Statement.Holds.weight m hz
  cases hd with
  | opened _ hk =>
    rw [Scale.sum_add, statements hk, Database.weight, hk.isOpen]
    cases d.link.connection <;> simp [Asset.ofConnection, Scale.asset]
  | closed hk => simp [statements hk, Database.weight, hk.isOpen]

theorem Session.Holds.weight {g : Set (Nat × Database.Part)} {s : Session} (hs : s.Holds g own) :
    m.sum own = s.weight m :=
  Table.Sums.sum_eq m hs fun _ _ _ hd => hd.weight m

end Weight

/-! ## What was handed out -/

/-- The connections that the engine refused to close. -/
def refusals (h : History) : Multiset Nat :=
  ↑(h.filterMap fun e => if e.outcome.isFailure then e.call.closes? else none)

/-- The engine refuses once at most to close a connection, since that is not tried again. -/
theorem Grown.count_refusals {h : History} (hg : Grown Orderly [] h) (c : Nat) :
    (refusals h).count c = if closeRefused c h then 1 else 0 := by
  induction hg with
  | refl => rfl
  | @call past e hg he ih =>
    have href : closeRefused c (e :: past) ↔
        (e.call.closes? = some c ∧ e.outcome.isFailure) ∨ closeRefused c past :=
      closeRefused_cons_iff
    by_cases hc : e.call.closes? = some c ∧ e.outcome.isFailure
    · have hnot : ¬ closeRefused c past := fun hr =>
        (he.connection c (Call.connection?_of_closes? hc.1)).2 (closeAsked_of_closeRefused hr)
      rw [if_neg hnot] at ih
      rw [if_pos (href.2 (.inl hc)), refusals, List.filterMap_cons_some (b := c) (by simp [hc]),
        ← Multiset.cons_coe, Multiset.count_cons_self]
      exact congrArg (· + 1) ih
    · have hsame : (refusals (e :: past)).count c = (refusals past).count c := by
        rw [refusals, List.filterMap_cons]
        split
        · rfl
        · next c' hc' =>
          rw [Option.ite_none_right_eq_some] at hc'
          rw [← Multiset.cons_coe, Multiset.count_cons_of_ne]
          · rfl
          · rintro rfl
            exact hc ⟨hc'.2, hc'.1⟩
      rw [hsame, ih]
      simp only [href, hc, false_or]

namespace Outline.Carries

variable {o : Outline} {x : Multiset Asset}

/-- The statements that are there are those that are held, each by one only. -/
theorem statements_eq (h : o.Carries x) (hn : (o.statements.map Prod.fst).Nodup) :
    (o.statements.map Prod.fst : Multiset Nat) = Scale.statements.sum x := by
  have notMem {k : Nat} {y : Multiset Asset} (hk : ∀ c st, .statement k c st ∉ y) :
      k ∉ Scale.statements.sum y := by
    intro hm
    obtain ⟨a, ha, hm⟩ := Multiset.mem_bind.1 (show k ∈ y.bind Scale.statements.asset from hm)
    cases a with
    | statement k' c st =>
      obtain rfl := Multiset.mem_singleton.1 hm
      exact hk c st ha
    | connection | cell => exact absurd hm (Multiset.notMem_zero _)
  refine Multiset.ext.2 fun k => ?_
  rw [Multiset.coe_count, hn.count]
  by_cases hk : ∃ c st, .statement k c st ∈ x
  · obtain ⟨c, st, hk⟩ := hk
    have hsome := Option.isSome_of_eq_some (h.statements.stage_eq hk)
    rw [if_pos (h.statements.mem_numbers_iff.2 hsome)]
    obtain ⟨y, rfl⟩ := Multiset.exists_cons_of_mem hk
    rw [Scale.sum_cons, Multiset.count_add, Multiset.count_eq_zero_of_notMem
      (notMem fun _ _ => h.not_mem_of_statement)]
    exact (Multiset.count_singleton_self k).symm
  · have hnot : k ∉ o.statements.map Prod.fst := fun hl => by
      obtain ⟨⟨c, st⟩, hst⟩ := Option.isSome_iff_exists.1 (h.statements.mem_numbers_iff.1 hl)
      exact hk ⟨c, st, h.statements.mem_iff.2 hst⟩
    rw [if_neg hnot, Multiset.count_eq_zero_of_notMem (notMem fun c st hm => hk ⟨c, st, hm⟩)]

/-- The connections that are there are those that are held, and those that could not be closed. -/
theorem connections_eq (h : o.Carries x) (hn : o.connections.Nodup) :
    (o.connections : Multiset Nat) = Scale.connections.sum x + refusals o.history := by
  refine Multiset.ext.2 fun c => ?_
  rw [Multiset.coe_count, hn.count, Multiset.count_add, Scale.count_connections,
    h.connections.count, h.orderly.count_refusals]
  have hlisted := h.connections.listed c
  by_cases hr : closeRefused c o.history
  · have hasked := closeAsked_of_closeRefused hr
    simp [hlisted, hr, hasked, h.orderly.everOpened_of_closeAsked hasked]
  · simp [hlisted, hr]

theorem cells_eq (h : o.Carries x) : o.cells = Scale.cells.sum x := by
  rw [← h.cells, Scale.sum_cells]

end Outline.Carries

namespace Session

open Database (Part)

variable {s : Session × World}

/-- The engine has handed out what the session has open, and what it refused to take back. -/
structure Exact (s : Session × World) : Prop where
  statements : (s.2.engine.statements.numbers : Multiset Nat) = s.1.weight .statements
  cells : s.2.engine.cells = s.1.weight .cells
  connections : (s.2.engine.connections.numbers : Multiset Nat) =
    s.1.weight .connections + refusals s.2.engine.history

theorem Reachable.exact (hr : Reachable s) : Exact s := by
  obtain ⟨own, hh, he⟩ := hr.accounted
  have he : s.2.engine.outline.Carries own := he.of_eq (add_zero own)
  refine ⟨?_, ?_, ?_⟩
  · rw [← hh.weight, ← Engine.outline_numbers]
    exact he.statements_eq (Engine.outline_numbers ▸ Table.numbers_nodup _)
  · rw [← hh.weight]
    exact he.cells_eq
  · rw [← hh.weight]
    exact he.connections_eq (Table.numbers_nodup _)

/-- A session with nothing but databases open has no statements and no copies. -/
theorem weight_eq_zero {M : Type} [AddCommMonoid M] {m : Scale M} (hm : m.connection = fun _ => 0)
    (hs : ∀ p, s.1.HasOpen p → p.2 = .whole) : s.1.weight m = 0 := by
  refine Table.total_eq_zero fun n d hd => ?_
  have hconnection : (if d.isOpen then d.link.connection.elim 0 m.connection else 0) = 0 := by
    rw [hm]
    cases d.link.connection <;> simp
  rw [Database.weight, hconnection, zero_add]
  refine Table.total_eq_zero fun k z hz => ?_
  have hclosed : z.isOpen = false := Bool.eq_false_iff.2 fun ho =>
    nomatch hs (n, .statement k) ⟨d, hd, Database.openStatement?_isSome hz ho⟩
  have hcursors : z.cursors.total (Cursor.weight m d.link.backend) = 0 :=
    Table.total_eq_zero fun j y hj =>
      nomatch hs (n, .cursor k j) ⟨d, hd, z, hz, Option.isSome_of_eq_some hj⟩
  simp [Statement.weight, hclosed, hcursors]

/-- What is open is on an open database, and a cursor that is open has an open statement. -/
theorem Reachable.hasOpen (hr : Reachable s) {n : Nat} {p : Part} (hp : s.1.HasOpen (n, p)) :
    s.1.HasOpen (whole n) ∧ ∀ k j, p = .cursor k j → s.1.HasOpen (n, .statement k) := by
  obtain ⟨d, hd, hp⟩ := hp
  have hsound := hr.sound.database n d hd
  have whole {k : Nat} {z : Statement} (hz : d.statements.find? k = some z) (ho : z.isOpen) :
      s.1.HasOpen (whole n) := ⟨d, hd, (hsound.owned.listed k z hz ho).1⟩
  cases p with
  | whole => exact ⟨⟨d, hd, hp⟩, nofun⟩
  | statement k =>
    obtain ⟨z, hz⟩ := Option.isSome_iff_exists.1 hp
    obtain ⟨hz, ho⟩ := Database.openStatement?_eq_some hz
    exact ⟨whole hz ho, nofun⟩
  | cursor k j =>
    obtain ⟨z, hz, hj⟩ := hp
    obtain ⟨y, hj⟩ := Option.isSome_iff_exists.1 hj
    have ho := ((hsound.sane k z hz).tidy j y hj).1
    refine ⟨whole hz ho, ?_⟩
    rintro _ _ ⟨⟩
    exact ⟨d, hd, Database.openStatement?_isSome hz ho⟩

/-- Without handles of databases or of statements no statement and no cursor is open. -/
theorem Reachable.hasOpen_whole (hr : Reachable s)
    (hn : (∀ name, s.1.databases.find? name = none) ∨ ∀ name, s.1.statements.find? name = none)
    (p : Nat × Part) (hp : s.1.HasOpen p) : p.2 = .whole := by
  obtain ⟨n, p⟩ := p
  have statement {k : Nat} (hk : s.1.HasOpen (n, .statement k)) : False := by
    obtain hn | hn := hn
    · simpa [held, whole, StatementRef.part, CursorRef.part, NameMap.values, hn] using
        hr.accounted.of_hasOpen (hr.hasOpen hk).1
    · simpa [held, whole, StatementRef.part, CursorRef.part, NameMap.values, hn] using
        hr.accounted.of_hasOpen hk
  cases p with
  | whole => rfl
  | statement k => exact (statement hp).elim
  | cursor k j => exact (statement ((hr.hasOpen hp).2 k j rfl)).elim

/-- After every step, whatever failed in it, the engine has handed out exactly what the session has
open, and that is held by handles. If the step failed, nothing is open that was not open before.
Once the handles are dropped no statement and no copy is left. -/
theorem resources_accounted (hr : Reachable s) :
    Exact s ∧ (∀ p, s.1.HasOpen p → p ∈ s.1.held) ∧
    (∀ x, (outcome (step x) s).1.fault.isSome → ∀ p, (after x s).1.HasOpen p → s.1.HasOpen p) ∧
    ((∀ name, s.1.databases.find? name = none) ∨ (∀ name, s.1.statements.find? name = none) →
      s.2.engine.statements.numbers = [] ∧ s.2.engine.cells = 0) := by
  have he := hr.exact
  refine ⟨he, fun p => hr.accounted.of_hasOpen, fun x hf p => hasOpen_of_failure hr hf,
    fun hn => ⟨?_, ?_⟩⟩
  · rw [← Multiset.coe_eq_zero, he.statements]
    exact weight_eq_zero rfl (hr.hasOpen_whole hn)
  · rw [he.cells]
    exact weight_eq_zero rfl (hr.hasOpen_whole hn)

/-- Where the rows of generated keys cannot be fetched, what was made for them is given up again;
and when the database is dropped, although the engine refuses to close it, only its connection is
left. -/
theorem keys_given_up_on_failure :
    let s := insertTrial .sqlite [{ refusal "step" with skip := 3 }, refusal "close"] []
    let failed := after (.insert "k" "e") s
    let dropped := after (.drop (.database "d")) failed
    s.1.weight .statements = {1, 2} ∧ s.1.weight .cells = 1 ∧
      failed.1.weight .statements = {1} ∧ failed.1.weight .cells = 0 ∧
      (∀ p, failed.1.HasOpen p → s.1.HasOpen p) ∧ dropped.2.engine.statements.numbers = [] ∧
      dropped.2.engine.cells = 0 ∧ refusals dropped.2.engine.history = {1} := by
  intro s failed dropped
  have hr : Reachable s := insertTrial_reachable _ _ _
  have hfailed : Reachable failed := hr.step _
  have hdropped : Reachable dropped := hfailed.step _
  obtain ⟨he, -, hopen, -⟩ := resources_accounted hr
  obtain ⟨he', -, -, -⟩ := resources_accounted hfailed
  obtain ⟨-, -, -, hnone⟩ := resources_accounted hdropped
  have hfault : (outcome (step (.insert "k" "e")) s).1.fault.isSome := by decide +kernel
  have hentries : dropped.1.databases.entries = [] := by decide +kernel
  have hempty (name : Bytes) : dropped.1.databases.find? name = none := by
    rw [NameMap.find?, hentries, List.lookup_nil]
  obtain ⟨hstatements, hcells⟩ := hnone (.inl hempty)
  refine ⟨?_, ?_, ?_, ?_, hopen _ hfault, hstatements, hcells, by decide +kernel⟩
  · rw [← he.statements, show s.2.engine.statements.numbers = [1, 2] by decide +kernel]
    rfl
  · rw [← he.cells]
    decide +kernel
  · rw [← he'.statements, show failed.2.engine.statements.numbers = [1] by decide +kernel]
    rfl
  · rw [← he'.cells]
    decide +kernel

end Session

end SqlAccess
