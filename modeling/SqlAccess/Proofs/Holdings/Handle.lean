import SqlAccess.Backend
import SqlAccess.Proofs.Calls
import SqlAccess.Proofs.Holdings.Engine

/-!
# What the backends hold

A prepared statement is in one of two phases: it rests, or a cursor goes over its rows. The phase
leaves open at which of some stages the engine is with it (`Phase.allows`). What a handle holds then
is said by `Handle.Stands`, and `Backed A x s` says that the engine carries what the object of `s`
holds according to `A`, and `x` besides. So each operation is described by the phases before and
after, whatever else is held.

A statement of MariaDB also remembers whether it has a result to free. It does unless none is
stored.
-/

namespace SqlAccess

/-! ## Holding -/

/-- The engine carries what an object holds, and `x` besides. -/
def Backed {σ τ : Type} [HasEngine σ] (A : τ → Multiset Asset → Prop) (x : Multiset Asset)
    (s : τ × σ) : Prop :=
  ∃ own, A s.1 own ∧ (engine s.2).Carries (own + x)

theorem Backed.mono {σ τ : Type} [HasEngine σ] {A B : τ → Multiset Asset → Prop}
    {x : Multiset Asset} {s : τ × σ} (h : Backed A x s) (hAB : ∀ own, A s.1 own → B s.1 own) :
    Backed B x s := by
  obtain ⟨own, hA, he⟩ := h
  exact ⟨own, hAB own hA, he⟩

/-- What an object holds after an action can be said more loosely. -/
theorem After.backed {m : Type → Type} {σ τ α : Type} [Monad m] [Stateful m (τ × σ)] [HasEngine σ]
    {y : m α} {s : τ × σ} {A B : α → τ → Multiset Asset → Prop} {x : Multiset Asset}
    (h : After y s fun a s' => Backed (A a) x s') (hAB : ∀ a t own, A a t own → B a t own) :
    After y s fun a s' => Backed (B a) x s' :=
  h.mono fun a s' hA => hA.mono (hAB a s'.1)

/-- The asset that a connection is, if there is one. -/
def Asset.ofConnection : Option Nat → Multiset Asset
  | none => 0
  | some c => {.connection c}

@[simp] theorem Asset.ofConnection_none : Asset.ofConnection none = 0 := rfl

@[simp] theorem Asset.mem_ofConnection {a : Asset} {c : Option Nat} :
    a ∈ Asset.ofConnection c ↔ ∃ n, c = some n ∧ a = .connection n := by
  cases c <;> simp [ofConnection]

/-- A connection is there if it is not missing. -/
def Connected (c : Option Nat) (x : Multiset Asset) : Prop := ∀ n, c = some n → .connection n ∈ x

theorem connected_ofConnection {c : Option Nat} {x : Multiset Asset} :
    Connected c (Asset.ofConnection c + x) := by
  rintro n rfl
  simp

theorem Connected.add {c : Option Nat} {x : Multiset Asset} (h : Connected c x)
    (y : Multiset Asset) : Connected c (y + x) :=
  fun n hn => Multiset.mem_add.2 (.inr (h n hn))

theorem Connected.cons {c : Option Nat} {x : Multiset Asset} {a : Asset} (h : Connected c x) :
    Connected c (a ::ₘ x) :=
  fun n hn => Multiset.mem_cons_of_mem (h n hn)

/-- A connection that is held is there. -/
theorem Connected.has {c : Option Nat} {x : Multiset Asset} {e : Engine} (h : Connected c x)
    (he : e.Carries x) : e.Has c :=
  fun n hn => he.connections.listed_of_mem (h n hn)

/-- How many copied values an engine keeps for some rows. -/
def Backend.copies (b : Backend) (rows : List (List Cell)) : Nat :=
  match b with
  | sqlite | strict => (rows.map List.length).sum
  | maria => 0

@[simp] theorem Backend.copies_nil {b : Backend} : b.copies [] = 0 := by cases b <;> rfl

theorem Backend.copies_singleton {b : Backend} (hb : b ≠ .maria) (row : List Cell) :
    b.copies [row] = row.length := by
  cases b <;> simp_all [copies]

@[simp] theorem Backend.copies_append {b : Backend} {rows rows' : List (List Cell)} :
    b.copies (rows ++ rows') = b.copies rows + b.copies rows' := by
  cases b <;> simp [copies]

/-- What the work on a prepared statement has come to. -/
inductive Phase
  /-- It can be set up and run. -/
  | resting
  /-- A cursor goes over its rows, of which there may be no more. -/
  | reading (ended : Bool)

/-- The stages of a phase. -/
def Phase.allows : Phase → Stage → Bool
  | .resting, .ready | .resting, .bare | .resting, .stranded | .resting, .drained => true
  | .reading ended, .halted => ended
  | .reading _, .ready | .reading _, .onRow | .reading _, .stored => true
  | _, _ => false

section Phase

variable {p : Phase} {st : Stage} {ended : Bool}

/-- Rows of which no more is known may have ended. -/
theorem Phase.allows_reading (h : (Phase.reading ended).allows st) :
    (Phase.reading true).allows st := by
  revert h
  cases st <;> simp [allows]

theorem Stage.eq_ready (hst : st.ofSqlite) (h : Phase.resting.allows st) : st = .ready := by
  cases st <;> simp_all [Phase.allows, ofSqlite]

theorem Stage.isIdle_of_allows (hst : st.ofSqlite = false) (h : Phase.resting.allows st) :
    st.isIdle := by
  cases st <;> simp_all [Phase.allows, ofSqlite, isIdle]

/-- A result that is stored while another one may be is freed. -/
theorem Stage.store_isHeld (h : st.isIdle) : st.store.isHeld := by
  cases st <;> first | rfl | cases h

/-- Storing a result and freeing it hides no earlier one. -/
theorem Stage.store_free (h : st.isIdle) : Phase.resting.allows st.store.free ∧
    st.store.free.ofSqlite = false ∧ (st.store.free != .bare) = (st != .bare) := by
  cases st <;> first | exact ⟨rfl, rfl, rfl⟩ | cases h

/-- The result of a statement that has one is freed. -/
theorem Stage.free_of_allows (hst : st.ofSqlite = false) (h : p.allows st) (hne : st != .bare) :
    (st.isHeld || st == .drained) ∧ st.free = .bare := by
  cases p <;> cases st <;> simp_all [Phase.allows, ofSqlite, isHeld, free]

end Phase

/-- What a handle holds in a phase. A statement of MariaDB knows whether a result is stored, or was
stored while it should not have been. -/
inductive Handle.Stands (b : Backend) (c : Option Nat) (p : Phase) :
    Handle → Multiset Asset → Prop
  | missing : b ≠ .maria → Stands b c p (.sqlite none) 0
  | sqlite {k n : Nat} {st : Stage} : b ≠ .maria → c = some n → st.ofSqlite → p.allows st →
      Stands b c p (.sqlite (some k)) {.statement k n st}
  | maria {s : Maria.Client} {n : Nat} {st : Stage} : b = .maria → c = some n →
      st.ofSqlite = false → p.allows st → s.hasRows = (st != .bare) →
      Stands b c p (.maria s) {.statement s.number n st}

theorem Handle.Stands.reading_true {b : Backend} {c : Option Nat} {ended : Bool} {h : Handle}
    {own : Multiset Asset} (hs : h.Stands b c (.reading ended) own) :
    h.Stands b c (.reading true) own := by
  cases hs with
  | missing hb => exact .missing hb
  | sqlite hb hc hst hp => exact .sqlite hb hc hst (Phase.allows_reading hp)
  | maria hb hc hst hp hr => exact .maria hb hc hst (Phase.allows_reading hp) hr

/-- The engine has a statement on the connection of its handle. -/
theorem Handle.Stands.connection {b : Backend} {c : Option Nat} {p : Phase} {h : Handle}
    {own : Multiset Asset} (hs : h.Stands b c p own) {k n : Nat} {st : Stage}
    (hm : .statement k n st ∈ own) : c = some n := by
  cases hs with
  | missing => exact absurd hm (Multiset.notMem_zero _)
  | sqlite _ hc | maria _ hc =>
    cases Multiset.mem_singleton.1 hm
    exact hc

end SqlAccess
