import Mathlib.Algebra.Order.Group.Multiset
import Mathlib.Tactic.Abel
import SqlAccess.Engine
import SqlAccess.Proofs.Stage

/-!
# What is held of an engine

An engine hands out three kinds of assets: statements, each on a connection and at a stage;
connections; and copies of values. An engine `Carries x` if it was called in order so far, nothing
was looked at that was not there, and the assets `x`, taken together, are all that it has handed out
and not taken back. Of each statement and each connection there is one asset, so whoever holds it
knows where the engine stands with it, and what others hold cannot be touched by a call on it.

Each kind of call changes the assets in one way: it moves a statement to another stage
(`Carries.ask`), takes one back (`Carries.giveUp`), makes one (`Carries.make`), and so on. An
operation that is shown to need some assets works beside any others.
-/

namespace SqlAccess

/-- What an engine hands out. -/
inductive Asset
  | statement (number connection : Nat) (stage : Stage)
  | connection (number : Nat)
  /-- A copied value. -/
  | cell
  deriving DecidableEq

/-- Statements come with their connections. -/
def Grounded (x : Multiset Asset) : Prop :=
  ∀ k c st, .statement k c st ∈ x → .connection c ∈ x

theorem Grounded.add {x y : Multiset Asset} (hx : Grounded x) (hy : Grounded y) :
    Grounded (x + y) := fun k c st hk => by
  rw [Multiset.mem_add] at hk ⊢
  exact hk.imp (hx k c st) (hy k c st)

/-- What counts of an engine for what is held of it. -/
structure Outline where
  history : History
  /-- The numbers of the statements that were not given up, with those of their connections. -/
  statements : List (Nat × Nat)
  nextStatement : Nat
  /-- The numbers of the connections that are open. -/
  connections : List Nat
  nextConnection : Nat
  /-- How many copied values were not freed. -/
  cells : Nat
  /-- Whether something was looked at that is not there. -/
  strayed : Bool

/-- The outline of an engine. -/
def Engine.outline (e : Engine) : Outline where
  history := e.history
  statements := e.statements.entries.map fun z => (z.1, z.2.connection)
  nextStatement := e.statements.next
  connections := e.connections.numbers
  nextConnection := e.connections.next
  cells := e.cells
  strayed := e.strayed

theorem Engine.outline_numbers {e : Engine} :
    e.outline.statements.map Prod.fst = e.statements.numbers := by
  simp [outline, Table.numbers]

namespace Outline

variable {o : Outline} {x : Multiset Asset} {e : Event} {k c : Nat} {st : Stage}

/-- A call is entered into the history. -/
def call (o : Outline) (e : Event) : Outline := { o with history := e :: o.history }

/-- The next statement is there, on some connection. -/
def addStatement (o : Outline) (c : Nat) : Outline :=
  { o with
    statements := o.statements ++ [(o.nextStatement, c)]
    nextStatement := o.nextStatement + 1 }

/-- A statement is no more there. -/
def dropStatement (o : Outline) (k : Nat) : Outline :=
  { o with statements := o.statements.filter (·.1 != k) }

/-- The next connection is there. -/
def addConnection (o : Outline) : Outline :=
  { o with
    connections := o.connections ++ [o.nextConnection]
    nextConnection := o.nextConnection + 1 }

/-- A connection is no more there. -/
def dropConnection (o : Outline) (c : Nat) : Outline :=
  { o with connections := o.connections.filter (· != c) }

/-- What there is of statements. -/
structure Statements (o : Outline) (x : Multiset Asset) : Prop where
  count : ∀ k c st, x.count (.statement k c st) = if stage k o.history = some (c, st) then 1 else 0
  listed : ∀ k c, (k, c) ∈ o.statements ↔ ∃ st, stage k o.history = some (c, st)
  below : ∀ c k, made c o.history k → k < o.nextStatement

/-- What there is of connections. -/
structure Connections (o : Outline) (x : Multiset Asset) : Prop where
  count : ∀ c, x.count (.connection c) =
    if everOpened c o.history ∧ ¬ closeAsked c o.history then 1 else 0
  /-- A connection is there until it is closed; it stays if that is refused. -/
  listed : ∀ c, c ∈ o.connections ↔
    everOpened c o.history ∧ (closeAsked c o.history → closeRefused c o.history)
  below : ∀ c, everOpened c o.history → c < o.nextConnection

/-- The calls came in order, what was looked at was there, and the assets are all that was handed
out. -/
structure Carries (o : Outline) (x : Multiset Asset) : Prop where
  orderly : Grown Orderly [] o.history
  statements : o.Statements x
  connections : o.Connections x
  cells : x.count .cell = o.cells
  strayed : o.strayed = false

/-! ## Single assets -/

namespace Statements

theorem stage_eq (h : o.Statements x) (hk : .statement k c st ∈ x) :
    stage k o.history = some (c, st) := by
  have hcount := h.count k c st
  split at hcount
  · assumption
  · exact absurd hk (Multiset.count_eq_zero.1 hcount)

theorem mem_iff (h : o.Statements x) :
    .statement k c st ∈ x ↔ stage k o.history = some (c, st) := by
  refine ⟨h.stage_eq, fun hk => Multiset.count_pos.1 ?_⟩
  rw [h.count, if_pos hk]
  exact Nat.one_pos

/-- A statement that is held is there. -/
theorem listed_of_mem (h : o.Statements x) (hk : .statement k c st ∈ x) : (k, c) ∈ o.statements :=
  (h.listed k c).2 ⟨st, h.stage_eq hk⟩

theorem mem_numbers_iff (h : o.Statements x) :
    k ∈ o.statements.map Prod.fst ↔ (stage k o.history).isSome := by
  simp [h.listed, Option.isSome_iff_exists]

/-- A statement that was not made yet has no stage. -/
theorem not_made (h : o.Statements x) : ¬ made c o.history o.nextStatement := fun hm =>
  Nat.lt_irrefl _ (h.below _ _ hm)

/-- Calls that concern no statement change nothing about statements. -/
theorem call (h : o.Statements x) (hm : e.makes? = none) (hs : e.call.statement? = none) :
    (o.call e).Statements x := by
  have same (k : Nat) : stage k (e :: o.history) = stage k o.history :=
    stage_of_ne (by simp [hm]) (by simp [hs])
  refine ⟨fun k c st => ?_, fun k c => ?_, fun c k hk => h.below c k ?_⟩
  · rw [h.count, Outline.call, same]
  · rw [Outline.call, same]
    exact h.listed k c
  · rw [Outline.call, made_of_makes?_eq_none hm] at hk
    exact hk

theorem congr {y : Multiset Asset} (h : o.Statements x)
    (hy : ∀ k c st, y.count (.statement k c st) = x.count (.statement k c st)) : o.Statements y :=
  ⟨fun k c st => (hy k c st).trans (h.count k c st), h.listed, h.below⟩

end Statements

namespace Connections

theorem opened_of_mem (h : o.Connections x) (hc : .connection c ∈ x) :
    everOpened c o.history ∧ ¬ closeAsked c o.history := by
  have hcount := h.count c
  split at hcount
  · assumption
  · exact absurd hc (Multiset.count_eq_zero.1 hcount)

/-- A connection that is held is there. -/
theorem listed_of_mem (h : o.Connections x) (hc : .connection c ∈ x) : c ∈ o.connections := by
  obtain ⟨hop, hcl⟩ := h.opened_of_mem hc
  exact (h.listed c).2 ⟨hop, fun ha => absurd ha hcl⟩

/-- Calls that concern no connection change nothing about connections. -/
theorem call (h : o.Connections x) (ho : e.opens? = none) (hc : e.call.closes? = none) :
    (o.call e).Connections x := by
  refine ⟨fun c => ?_, fun c => ?_, fun c hop => h.below c ?_⟩
  · simpa [Outline.call, everOpened_cons_iff, closeAsked_cons_iff, ho, hc] using h.count c
  · simpa [Outline.call, everOpened_cons_iff, closeAsked_cons_iff, closeRefused_cons_iff, ho, hc]
      using h.listed c
  · simpa [Outline.call, everOpened_cons_iff, ho] using hop

theorem congr {y : Multiset Asset} (h : o.Connections x)
    (hy : ∀ c, y.count (.connection c) = x.count (.connection c)) : o.Connections y :=
  ⟨fun c => (hy c).trans (h.count c), h.listed, h.below⟩

end Connections

namespace Carries

/-- An engine that was not called has handed out nothing. -/
theorem start {m n : Nat} : (⟨[], [], m, [], n, 0, false⟩ : Outline).Carries 0 :=
  ⟨.refl, ⟨by simp [stage], by simp [stage], by simp [made]⟩,
    ⟨by simp [everOpened], by simp [everOpened], by simp [everOpened]⟩, rfl, rfl⟩

/-- A statement has one connection and stands at one stage. -/
theorem stage_unique {c' : Nat} {st' : Stage} (h : o.Carries x) (hk : .statement k c st ∈ x)
    (hk' : .statement k c' st' ∈ x) : c = c' ∧ st = st' := by
  have heq := (h.statements.stage_eq hk).symm.trans (h.statements.stage_eq hk')
  simpa using heq

/-- No statement is held twice. -/
theorem not_mem_of_statement {c' : Nat} {st' : Stage} (h : o.Carries (.statement k c st ::ₘ x)) :
    .statement k c' st' ∉ x := by
  intro hk
  obtain ⟨rfl, rfl⟩ := h.stage_unique (Multiset.mem_cons_self _ _) (Multiset.mem_cons_of_mem hk)
  have hcount := h.statements.count k c st
  rw [Multiset.count_cons_self] at hcount
  have := Multiset.count_pos.2 hk
  split at hcount <;> omega

/-- No connection is held twice. -/
theorem not_mem_of_connection (h : o.Carries (.connection c ::ₘ x)) :
    Asset.connection c ∉ x := by
  intro hc
  have hcount := h.connections.count c
  rw [Multiset.count_cons_self] at hcount
  have := Multiset.count_pos.2 hc
  split at hcount <;> omega

/-- A connection that is held beside statements with theirs has none. -/
theorem not_mem_of_grounded (h : o.Carries (.connection c ::ₘ x)) (hx : Grounded x) (k : Nat)
    (st : Stage) : .statement k c st ∉ x :=
  fun hk => h.not_mem_of_connection (hx k c st hk)

/-! ## Statements -/

/-- A call on a statement moves it on. -/
theorem ask (h : o.Carries (.statement k c st ::ₘ x)) (hk : e.call.statement? = some k)
    (hg : e.call.givesUp? = none) (ha : st.allows e.call) :
    (o.call e).Carries (.statement k c (st.after e) ::ₘ x) := by
  have hm := Event.makes?_of_statement? hk
  have hst := h.statements.stage_eq (Multiset.mem_cons_self _ _)
  have hnew : stage k (e :: o.history) = some (c, st.after e) := by
    rw [stage_of_statement hk hg, hst]
    rfl
  have hother (k' : Nat) (hne : k' ≠ k) : stage k' (e :: o.history) = stage k' o.history :=
    stage_of_ne (by simp [hm]) (by simpa [hk] using hne.symm)
  refine ⟨.call h.orderly (.of_statement hk hst ha), ⟨fun k' c' st' => ?_, fun k' c' => ?_,
    fun c' k' hk' => ?_⟩, ?_, ?_, h.strayed⟩
  · by_cases hne : k' = k
    · subst hne
      simp [Outline.call, Multiset.count_cons, h.not_mem_of_statement, hnew, eq_comm]
    · simpa [Outline.call, Multiset.count_cons, hne, hother k' hne] using
        h.statements.count k' c' st'
  · have hlisted := h.statements.listed k' c'
    by_cases hne : k' = k
    · subst hne
      simpa [Outline.call, hnew, hst] using hlisted
    · simpa [Outline.call, hother k' hne] using hlisted
  · rw [Outline.call, made_of_makes?_eq_none hm] at hk'
    exact h.statements.below c' k' hk'
  · exact (h.connections.congr (by simp)).call (Event.opens?_of_statement? hk)
      (Call.closes?_of_statement? hk)
  · simpa [Outline.call] using h.cells

/-- A statement is given up. -/
theorem giveUp (h : o.Carries (.statement k c st ::ₘ x)) (hk : e.call.givesUp? = some k)
    (ha : st.allows e.call) : ((o.call e).dropStatement k).Carries x := by
  have hs := Call.statement?_of_givesUp? hk
  have hm := Event.makes?_of_statement? hs
  have hst := h.statements.stage_eq (Multiset.mem_cons_self _ _)
  have hnew : stage k (e :: o.history) = none := stage_of_givesUp hk
  have hother (k' : Nat) (hne : k' ≠ k) : stage k' (e :: o.history) = stage k' o.history :=
    stage_of_ne (by simp [hm]) (by simpa [hs] using hne.symm)
  refine ⟨.call h.orderly (.of_statement hs hst ha), ⟨fun k' c' st' => ?_, fun k' c' => ?_,
    fun c' k' hk' => ?_⟩, ?_, ?_, h.strayed⟩
  · by_cases hne : k' = k
    · subst hne
      simp [Outline.call, dropStatement, h.not_mem_of_statement, hnew]
    · simpa [Outline.call, dropStatement, Multiset.count_cons, hne, hother k' hne] using
        h.statements.count k' c' st'
  · by_cases hne : k' = k
    · subst hne
      simp [Outline.call, dropStatement, hnew]
    · simp [Outline.call, dropStatement, hother k' hne, hne, h.statements.listed k' c']
  · exact h.statements.below c' k' ((made_of_makes?_eq_none hm).symm.trans hk')
  · have hcon := (h.connections.congr (y := x) (by simp)).call (Event.opens?_of_statement? hs)
      (Call.closes?_of_statement? hs)
    exact ⟨hcon.count, hcon.listed, hcon.below⟩
  · simpa [Outline.call, dropStatement] using h.cells

/-- A statement is made. -/
theorem make (h : o.Carries x) (hm : e.makes? = some (o.nextStatement, c, st))
    (hc : .connection c ∈ x) :
    ((o.call e).addStatement c).Carries (.statement o.nextStatement c st ::ₘ x) := by
  obtain ⟨hcon, hcl, hs⟩ := Event.of_makes? hm
  have hnone : stage o.nextStatement o.history = none :=
    (h.orderly.not_asked fun _ => h.statements.not_made).1
  have hother (k' : Nat) (hne : k' ≠ o.nextStatement) :
      stage k' (e :: o.history) = stage k' o.history := stage_of_makes_ne hm hne.symm
  refine ⟨.call h.orderly (.of_connection hs (fun k x hk c' => ?_) (fun c' hc' => ?_)
    fun c' hc' => ?_), ⟨fun k' c' st' => ?_, fun k' c' => ?_, fun c' k' hk' => ?_⟩, ?_, ?_,
    h.strayed⟩
  · rw [hm] at hk
    cases hk
    exact h.statements.not_made
  · obtain rfl : c = c' := Option.some.inj (hcon.symm.trans hc')
    exact h.connections.opened_of_mem hc
  · rw [hcl] at hc'
    cases hc'
  · have hcount := h.statements.count k' c' st'
    by_cases hne : k' = o.nextStatement
    · rw [hne, hnone] at hcount
      simp [Outline.call, addStatement, Multiset.count_cons, stage_of_makes hm, hne, hcount,
        eq_comm]
    · simpa [Outline.call, addStatement, Multiset.count_cons, hne, hother k' hne] using hcount
  · have hlisted := h.statements.listed k' c'
    by_cases hne : k' = o.nextStatement
    · rw [hne, hnone] at hlisted
      simp [Outline.call, addStatement, hne, stage_of_makes hm, hlisted, eq_comm]
    · simp [Outline.call, addStatement, hother k' hne, hne, hlisted]
  · change made c' (e :: o.history) k' at hk'
    rw [made_iff_of_makes? hm] at hk'
    obtain ⟨-, rfl⟩ | hk' := hk'
    · exact Nat.lt_succ_self _
    · exact Nat.lt_succ_of_lt (h.statements.below c' k' hk')
  · have hcon := (h.connections.congr (y := .statement o.nextStatement c st ::ₘ x) (by simp)).call
      (Event.opens?_of_connection? hcon) hcl
    exact ⟨hcon.count, hcon.listed, hcon.below⟩
  · simpa [Outline.call, addStatement] using h.cells

/-! ## Connections -/

/-- A call that is at most on an open connection, and makes and closes nothing. -/
theorem pass (h : o.Carries x) (hs : e.call.statement? = none) (hm : e.makes? = none)
    (ho : e.opens? = none) (hcl : e.call.closes? = none)
    (hc : ∀ c, e.call.connection? = some c → .connection c ∈ x) : (o.call e).Carries x := by
  refine ⟨.call h.orderly (.of_connection hs (by simp [hm])
    (fun c hc' => h.connections.opened_of_mem (hc c hc')) (by simp [hcl])), ?_, ?_, h.cells,
    h.strayed⟩
  · exact h.statements.call hm hs
  · exact h.connections.call ho hcl

/-- A connection is made. -/
theorem opens (h : o.Carries x) (ho : e.opens? = some o.nextConnection) :
    (o.call e).addConnection.Carries (.connection o.nextConnection ::ₘ x) := by
  obtain ⟨hcon, hcl, hs, hm⟩ := Event.of_opens? ho
  have hnew : ¬ everOpened o.nextConnection o.history := fun hop =>
    Nat.lt_irrefl _ (h.connections.below _ hop)
  have hasked : ¬ closeAsked o.nextConnection o.history := fun ha =>
    hnew (h.orderly.everOpened_of_closeAsked ha)
  have hop (c : Nat) : everOpened c (e :: o.history) ↔
      c = o.nextConnection ∨ everOpened c o.history := by
    rw [everOpened_cons_iff, ho, Option.some.injEq, eq_comm]
  have hask (c : Nat) : closeAsked c (e :: o.history) ↔ closeAsked c o.history := by
    simp [closeAsked_cons_iff, hcl]
  have href (c : Nat) : closeRefused c (e :: o.history) ↔ closeRefused c o.history := by
    simp [closeRefused_cons_iff, hcl]
  refine ⟨.call h.orderly (.of_connection hs (by simp [hm]) (by simp [hcon]) (by simp [hcl])),
    ?_, ⟨fun c => ?_, fun c => ?_, fun c hc => ?_⟩, ?_, h.strayed⟩
  · have hst := (h.statements.congr (y := .connection o.nextConnection ::ₘ x) (by simp)).call hm hs
    exact ⟨hst.count, hst.listed, hst.below⟩
  · have hcount := h.connections.count c
    simp only [Outline.call, addConnection, Multiset.count_cons, hop, hask, hcount,
      Asset.connection.injEq]
    by_cases hc : c = o.nextConnection
    · simp [hc, hnew, hasked]
    · simp [hc]
  · have hlisted := h.connections.listed c
    simp only [Outline.call, addConnection, List.mem_append, List.mem_singleton, hop, hask, href,
      hlisted]
    by_cases hc : c = o.nextConnection
    · simp [hc, hasked]
    · simp [hc]
  · obtain rfl | hc := (hop c).1 hc
    · exact Nat.lt_succ_self _
    · exact Nat.lt_succ_of_lt (h.connections.below c hc)
  · simpa [Outline.call, addConnection] using h.cells

/-- A connection is closed, or at least was to be, if what else is held has no statement on it. -/
theorem close (h : o.Carries (.connection c ::ₘ x)) (hcl : e.call.closes? = some c)
    (hx : Grounded x) :
    (if e.outcome.isFailure then o.call e else (o.call e).dropConnection c).Carries x := by
  obtain ⟨ho, hm, hs⟩ := Event.of_closes? hcl
  have hmem := h.connections.opened_of_mem (Multiset.mem_cons_self _ _)
  have hcon : e.call.connection? = some c := Call.connection?_of_closes? hcl
  have hop (c' : Nat) : everOpened c' (e :: o.history) ↔ everOpened c' o.history := by
    simp [everOpened_cons_iff, ho]
  have hask (c' : Nat) : closeAsked c' (e :: o.history) ↔ c' = c ∨ closeAsked c' o.history := by
    rw [closeAsked_cons_iff, hcl, Option.some.injEq, eq_comm]
  have href (c' : Nat) : closeRefused c' (e :: o.history) ↔
      (c' = c ∧ e.outcome.isFailure) ∨ closeRefused c' o.history := by
    rw [closeRefused_cons_iff, hcl, Option.some.injEq, @eq_comm _ c]
  have horderly : Grown Orderly [] (e :: o.history) := by
    refine .call h.orderly (.of_connection hs (by simp [hm]) (fun c' hc' => ?_)
      fun c' hc' k st hst => ?_)
    · obtain rfl : c = c' := Option.some.inj (hcon.symm.trans hc')
      exact hmem
    · obtain rfl : c = c' := Option.some.inj (hcl.symm.trans hc')
      have := h.statements.mem_iff.2 hst
      exact h.not_mem_of_grounded hx k st ((Multiset.mem_cons.1 this).resolve_left nofun)
  have hstatements : (o.call e).Statements x := (h.statements.congr (by simp)).call hm hs
  have hcount (c' : Nat) : x.count (.connection c') =
      if everOpened c' (e :: o.history) ∧ ¬ closeAsked c' (e :: o.history) then 1 else 0 := by
    have hcount := h.connections.count c'
    simp only [hop, hask]
    by_cases hc : c' = c
    · subst hc
      simp [h.not_mem_of_connection]
    · simpa [Multiset.count_cons, hc] using hcount
  have hbelow (c' : Nat) (hc : everOpened c' (e :: o.history)) : c' < o.nextConnection :=
    h.connections.below c' ((hop c').1 hc)
  have hlisted (c' : Nat) := h.connections.listed c'
  split
  · next hf =>
    refine ⟨horderly, hstatements, ⟨hcount, fun c' => ?_, hbelow⟩,
      by simpa [Outline.call] using h.cells, h.strayed⟩
    simp only [Outline.call, hlisted, hop, hask, href, hf, and_true]
    by_cases hc : c' = c
    · simp [hc, hmem]
    · simp [hc]
  · next hf =>
    refine ⟨horderly, ⟨hstatements.count, hstatements.listed, hstatements.below⟩,
      ⟨hcount, fun c' => ?_, hbelow⟩,
      by simpa [Outline.call, dropConnection] using h.cells, h.strayed⟩
    simp only [Outline.call, dropConnection, List.mem_filter, hlisted, hop, hask, href, hf]
    by_cases hc : c' = c
    · have : ¬ closeRefused c o.history := fun h => hmem.2 (closeAsked_of_closeRefused h)
      simp [hc, this]
    · simp [hc]

/-! ## Copied values -/

/-- A value is copied. -/
theorem copy (h : o.Carries x) :
    ({ o with cells := o.cells + 1 } : Outline).Carries (.cell ::ₘ x) := by
  have hst := h.statements.congr (y := .cell ::ₘ x) (by simp)
  have hcon := h.connections.congr (y := .cell ::ₘ x) (by simp)
  refine ⟨h.orderly, ⟨hst.count, hst.listed, hst.below⟩, ⟨hcon.count, hcon.listed, hcon.below⟩, ?_,
    h.strayed⟩
  simp [h.cells]

/-- Copied values are freed. -/
theorem free {n : Nat} (h : o.Carries (Multiset.replicate n .cell + x)) :
    ({ o with cells := o.cells - n } : Outline).Carries x := by
  have hst := h.statements.congr (y := x) (by simp [Multiset.count_replicate])
  have hcon := h.connections.congr (y := x) (by simp [Multiset.count_replicate])
  refine ⟨h.orderly, ⟨hst.count, hst.listed, hst.below⟩, ⟨hcon.count, hcon.listed, hcon.below⟩, ?_,
    h.strayed⟩
  simp [← h.cells]

end Carries

end Outline

/-- An engine was called in order, and the assets are all that it has handed out. -/
def Engine.Carries (e : Engine) (x : Multiset Asset) : Prop := e.outline.Carries x

theorem Engine.Carries.of_eq {e : Engine} {x y : Multiset Asset} (h : e.Carries x) (hxy : x = y) :
    e.Carries y := hxy ▸ h

end SqlAccess
