import SqlAccess.Proofs.Database.Operations

/-!
# Refused operations

An operation is refused (`Denies`) if it fails and nothing has changed: neither what it works on,
nor the engine, nor the log. It grants (`Grants`) what it answers without a change. An operation
that asks for something first is refused as the first one of its questions is that is not granted
(`Denies.bind`, `Grants.bind`), so each lemma about an operation names the questions before that
one.
-/

namespace SqlAccess

variable {τ α β : Type} {a : τ × World} {f : Fault} {v : α}

/-- An operation fails, and nothing has changed. -/
def Denies (x : Op τ α) (f : Fault) (a : τ × World) : Prop :=
  After x.run a fun r a' => r = .error f ∧ a' = a

/-- An operation answers something, and nothing has changed. -/
def Grants (x : Op τ α) (v : α) (a : τ × World) : Prop :=
  After x.run a fun r a' => r = .ok v ∧ a' = a

theorem Denies.throw : Denies (throw f : Op τ α) f a := After.throw_iff.2 ⟨rfl, rfl⟩

theorem Grants.pure : Grants (pure v : Op τ α) v a := After.try_pure_iff.2 ⟨rfl, rfl⟩

theorem Grants.get : Grants (getThe τ : Op τ τ) a.1 a := After.try_get_iff.2 ⟨rfl, rfl⟩

/-- What is refused at first is refused. -/
theorem Denies.bind {x : Op τ α} {g : α → Op τ β} (h : Denies x f a) : Denies (x >>= g) f a := by
  refine After.try_seq h ?_ ?_
  · rintro _ _ ⟨hr, -⟩
    cases hr
  · rintro e _ ⟨hr, rfl⟩
    exact ⟨congrArg _ (Except.error.inj hr), rfl⟩

/-- What is refused after something was granted is refused. -/
theorem Grants.bind {x : Op τ α} {g : α → Op τ β} (h : Grants x v a) (hg : Denies (g v) f a) :
    Denies (x >>= g) f a := by
  refine After.try_seq h ?_ ?_
  · rintro _ _ ⟨hr, rfl⟩
    obtain rfl := Except.ok.inj hr
    exact hg
  · rintro _ _ ⟨hr, -⟩
    cases hr

theorem Grants.seq {x : Op τ α} {g : α → Op τ β} {u : β} (h : Grants x v a)
    (hg : Grants (g v) u a) : Grants (x >>= g) u a := by
  refine After.try_seq h ?_ ?_
  · rintro _ _ ⟨hr, rfl⟩
    obtain rfl := Except.ok.inj hr
    exact hg
  · rintro _ _ ⟨hr, -⟩
    cases hr

theorem denies_ofResult : Denies (Op.ofResult (.error f) : Op τ α) f a :=
  After.ofResult_iff.2 ⟨rfl, rfl⟩

theorem grants_ofResult : Grants (Op.ofResult (.ok v) : Op τ α) v a :=
  After.ofResult_iff.2 ⟨rfl, rfl⟩

/-! ## Parameters and keys of a statement -/

namespace Statement

variable {z : Statement} {w : World} {l : Link} {p : Parameter} {name : Bytes}

theorem parameter_unnamed : Denies (parameter none l) .noName (z, w) := Denies.throw

theorem parameter_unresolved
    (h : Parameter.resolve l.options.accessors z.descriptor name = .error f) :
    Denies (parameter (some name) l) f (z, w) :=
  Grants.get.bind (by rw [h]; exact denies_ofResult)

theorem parameter_resolved (h : Parameter.resolve l.options.accessors z.descriptor name = .ok p) :
    Grants (parameter (some name) l) p (z, w) :=
  Grants.get.seq (by rw [h]; exact grants_ofResult)

theorem assign_denies {v : Value} (h : p.assign v = .error f) : Denies (assign p v l) f (z, w) := by
  unfold assign
  rw [h]
  exact denies_ofResult.bind

theorem assignList_denies {vs : List Value} (h : p.assignList vs = .error f) :
    Denies (assignList p vs l) f (z, w) := by
  unfold assignList
  rw [h]
  exact denies_ofResult.bind

theorem insert_denies (h : z.descriptor.declarations.keys.entries.isEmpty) :
    Denies (insert l) .noKeys (z, w) := by
  refine Grants.get.bind ?_
  dsimp only
  rw [if_pos h]
  exact Denies.throw.bind

end Statement

namespace Database

variable {d : Database} {w : World} {t k : Nat} {x : Transaction} {z : Statement} {writes : Bool}
  {attempt : Attempt} {query : Option Query}

/-! ## What is asked of a database -/

theorem checkOpen_grants (ho : d.isOpen) : Grants checkOpen () (d, w) :=
  Grants.get.seq (by rw [ho]; exact Grants.pure)

theorem checkOpen_denies (ho : d.isOpen = false) : Denies checkOpen .notOpen (d, w) :=
  Grants.get.bind (by rw [ho]; exact Denies.throw)

theorem active_grants (hx : d.Ready t x) : Grants (active attempt t) x (d, w) := by
  refine Grants.get.seq ?_
  dsimp only
  rw [hx.1]
  dsimp only
  rw [hx.2.1, hx.2.2]
  exact Grants.pure

theorem active_ended {how : Ended} (hx : d.transactions.find? t = some x)
    (he : x.ended = some how) : Denies (active attempt t) (.ended attempt how) (d, w) := by
  refine Grants.get.bind ?_
  dsimp only
  rw [hx]
  dsimp only
  rw [he]
  exact Denies.throw.bind

theorem active_shadowed (hx : d.transactions.find? t = some x) (he : x.ended = none)
    (hc : (d.openChild? t).isSome) : Denies (active attempt t) (.shadowed attempt) (d, w) := by
  refine Grants.get.bind ?_
  dsimp only
  rw [hx]
  dsimp only
  rw [he]
  dsimp only
  rw [if_pos hc]
  exact Denies.throw.bind

theorem checkUsable_grants (ho : d.isOpen) (hx : d.Ready t x) :
    Grants (checkUsable t) x (d, w) :=
  (active_grants hx).seq ((checkOpen_grants ho).seq Grants.pure)

/-! ## Transactions -/

theorem begin_closed (ho : d.isOpen = false) : Denies begin .notOpen (d, w) :=
  (checkOpen_denies ho).bind

theorem begin_readOnly (ho : d.isOpen) (hr : d.link.options.readOnly) :
    Denies begin .readOnlyDatabase (d, w) := by
  refine (checkOpen_grants ho).bind (Grants.get.bind ?_)
  dsimp only
  rw [if_pos hr]
  exact Denies.throw.bind

theorem begin_alreadyOpen (ho : d.isOpen) (hr : d.link.options.readOnly = false)
    (hroot : d.root.any d.isActive) : Denies begin .alreadyOpen (d, w) := by
  refine (checkOpen_grants ho).bind (Grants.get.bind ?_)
  dsimp only
  rw [hr, if_neg Bool.false_ne_true, if_pos hroot]
  exact Denies.throw.bind

theorem nest_denies (h : Denies (active .use t) f (d, w)) : Denies (nest t) f (d, w) := h.bind.bind

theorem commit_denies (h : Denies (active .commit t) f (d, w)) :
    Denies (commit t) f (d, w) := h.bind

theorem rollback_denies (h : Denies (active .rollback t) f (d, w)) : Denies (rollback t) f (d, w) :=
  h.bind

theorem prepare_closed {owner : Option Nat} (ho : d.isOpen = false) :
    Denies (prepare owner query) .notOpen (d, w) := (checkOpen_denies ho).bind

theorem prepare_denies (ho : d.isOpen) (h : Denies (active .use t) f (d, w)) :
    Denies (prepare (some t) query) f (d, w) := (checkOpen_grants ho).bind h.bind.bind

theorem executeOnce_denies (ho : d.isOpen) (h : Denies (active .use t) f (d, w)) :
    Denies (executeOnce t query) f (d, w) := (prepare_denies ho h).bind

/-! ## Statements -/

theorem checkRunnable_closed (hk : d.openStatement? k = none) :
    Denies (checkRunnable k writes) .statementClosed (d, w) := by
  refine Grants.get.bind ?_
  rw [hk]
  exact Denies.throw

theorem checkRunnable_denies (hk : d.openStatement? k = some z) (ho : d.isOpen)
    (ht : z.owner = some t) (h : Denies (active .use t) f (d, w)) :
    Denies (checkRunnable k writes) f (d, w) := by
  refine Grants.get.bind ?_
  rw [hk]
  refine (checkOpen_grants ho).bind ?_
  rw [ht]
  exact h.bind.bind

theorem checkRunnable_unbound (hk : d.openStatement? k = some z) (ho : d.isOpen)
    (hz : z.owner = none) : Denies (checkRunnable k true) .unboundStatement (d, w) := by
  refine Grants.get.bind ?_
  rw [hk]
  refine (checkOpen_grants ho).bind ?_
  rw [hz]
  exact Denies.throw

theorem checkRunnable_grants (hk : d.openStatement? k = some z) (ho : d.isOpen)
    (ht : z.owner = some t) (hx : d.Ready t x) : Grants (checkRunnable k writes) () (d, w) := by
  refine Grants.get.seq ?_
  rw [hk]
  refine (checkOpen_grants ho).seq ?_
  rw [ht]
  exact (checkUsable_grants ho hx).seq Grants.pure

theorem onStatement_closed {y : Link → Op Statement α} (hk : d.openStatement? k = none) :
    Denies (onStatement k y) .statementClosed (d, w) := by
  refine Grants.get.bind ?_
  rw [hk]
  exact Denies.throw

/-- A statement that refuses something stays as it is. -/
theorem onStatement_denies {y : Link → Op Statement α} (hk : d.openStatement? k = some z)
    (h : Denies (y d.link) f (z, w)) : Denies (onStatement k y) f (d, w) := by
  refine (onStatement_iff hk).2 (h.mono ?_)
  rintro r _ ⟨rfl, rfl⟩
  refine ⟨rfl, ?_⟩
  dsimp only
  rw [Table.modify_of_find? (openStatement?_eq_some hk).1]

end Database

end SqlAccess
