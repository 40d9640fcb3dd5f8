import Mathlib.Data.Set.Insert
import SqlAccess.Proofs.Database.Operations
import SqlAccess.Proofs.Holdings.Statement

/-!
# What databases hold

An open database holds its connection, and what its statements hold (`Database.Holds`). Which of its
parts may be open is said by a set of them: an operation that opens a part adds it to the set, and
one that closes a part takes it out. So what an operation leaves open is known from its answer,
although it may fail anywhere.

Work on the statements is described beside the connection, which is only required to be there while
the database is open.
-/

namespace SqlAccess

open Engine

variable {x : Multiset Asset} {w : World} {α β : Type}

/-! ## Tables -/

/-- What the entries of a table hold together, where `P n a` is what an entry `a` of the number `n`
holds. -/
inductive Table.Sums (P : Nat → α → Multiset Asset → Prop) :
    List (Nat × α) → Multiset Asset → Prop
  | nil : Sums P [] 0
  | cons {n : Nat} {a : α} {l : List (Nat × α)} {o own : Multiset Asset} :
      P n a o → Sums P l own → Sums P ((n, a) :: l) (o + own)

namespace Table.Sums

variable {P P' : Nat → α → Multiset Asset → Prop} {l l' : List (Nat × α)} {t : Table α}
  {own own' : Multiset Asset} {n : Nat} {a : α}

theorem mono (h : Sums P l own) (hP : ∀ e ∈ l, ∀ o, P e.1 e.2 o → P' e.1 e.2 o) :
    Sums P' l own := by
  induction h with
  | nil => exact .nil
  | cons ha _ ih =>
    refine .cons (hP _ List.mem_cons_self _ ha) (ih fun e he => hP e (List.mem_cons_of_mem _ he))

theorem append (h : Sums P l own) (h' : Sums P l' own') : Sums P (l ++ l') (own + own') := by
  induction h with
  | nil => rwa [zero_add, List.nil_append]
  | cons ha _ ih =>
    rw [add_assoc]
    exact .cons ha ih

theorem of_append (h : Sums P (l ++ l') own) :
    ∃ o o', own = o + o' ∧ Sums P l o ∧ Sums P l' o' := by
  induction l generalizing own with
  | nil => exact ⟨0, own, (zero_add own).symm, .nil, h⟩
  | cons e l ih =>
    cases h with
    | cons ha h =>
      obtain ⟨o, o', rfl, hl, hl'⟩ := ih h
      exact ⟨_, o', (add_assoc _ _ _).symm, .cons ha hl, hl'⟩

/-- What is held is held by some entry. -/
theorem exists_of_mem (h : Sums P l own) {asset : Asset} (hm : asset ∈ own) :
    ∃ e ∈ l, ∃ o, P e.1 e.2 o ∧ asset ∈ o := by
  induction h with
  | nil => exact absurd hm (Multiset.notMem_zero _)
  | cons ha _ ih =>
    obtain hm | hm := Multiset.mem_add.1 hm
    · exact ⟨_, List.mem_cons_self, _, ha, hm⟩
    · obtain ⟨e, he, h⟩ := ih hm
      exact ⟨e, List.mem_cons_of_mem _ he, h⟩

/-- Nothing is held if no entry holds anything. -/
theorem eq_zero (h : Sums P l own) (hP : ∀ e ∈ l, ∀ o, P e.1 e.2 o → o = 0) : own = 0 := by
  induction h with
  | nil => rfl
  | cons ha _ ih =>
    rw [hP _ List.mem_cons_self _ ha, ih fun e he => hP e (List.mem_cons_of_mem _ he), add_zero]

theorem grounded (h : Sums P l own) (hP : ∀ n a o, P n a o → Grounded o) : Grounded own := by
  induction h with
  | nil => exact fun _ _ _ hm => absurd hm (Multiset.notMem_zero _)
  | cons ha _ ih => exact (hP _ _ _ ha).add ih

/-- One entry can be changed beside the others. -/
theorem focus (h : Sums P t.entries own) (hn : t.find? n = some a) :
    ∃ o rest, own = o + rest ∧ P n a o ∧ (∃ l, Sums P l rest) ∧
      ∀ P' a' o', (∀ m b o, m ≠ n → P m b o → P' m b o) → P' n a' o' →
        Sums P' (t.modify n fun _ => a').entries (o' + rest) := by
  obtain ⟨pre, post, hl, hpre, hpost, hmodify⟩ := Table.entries_of_find? hn
  rw [hl] at h
  obtain ⟨o₁, o', rfl, h₁, h'⟩ := h.of_append
  cases h' with
  | @cons _ _ _ o o₂ ha h₂ =>
    refine ⟨o, o₁ + o₂, by abel, ha, ⟨_, h₁.append h₂⟩, fun P' a' o' hP ha' => ?_⟩
    have before : Sums P' pre o₁ :=
      h₁.mono fun e he o => hP e.1 e.2 o (Nat.ne_of_lt (hpre e he))
    have behind : Sums P' post o₂ :=
      h₂.mono fun e he o => hP e.1 e.2 o (Nat.ne_of_gt (hpost e he))
    rw [hmodify, show o' + (o₁ + o₂) = o₁ + (o' + o₂) by abel]
    exact before.append (.cons ha' behind)

theorem holds (h : Sums P t.entries own) (hn : t.find? n = some a) : ∃ o ≤ own, P n a o := by
  obtain ⟨o, rest, rfl, ho, -⟩ := h.focus hn
  exact ⟨o, Multiset.le_add_right o rest, ho⟩

theorem add (h : Sums P t.entries own) {o : Multiset Asset} (ha : P t.next a o) :
    Sums P (t.add a).entries (o + own) := by
  rw [add_comm o own, ← add_zero o]
  exact h.append (.cons ha .nil)

end Table.Sums

/-! ## What may be open -/

/-- What may be open once an object was added, if there is one. -/
def joined {ι : Type} (f : α → ι) (g : Set ι) : Option α → Set ι
  | some a => insert (f a) g
  | none => g

theorem subset_joined {ι : Type} {f : α → ι} {g : Set ι} (r : Option α) : g ⊆ joined f g r := by
  cases r with
  | some a => exact Set.subset_insert _ _
  | none => exact subset_rfl

theorem joined_mono {ι : Type} {f : α → ι} {g g' : Set ι} {r : Option α} (h : g ⊆ g') :
    joined f g r ⊆ joined f g' r := by
  cases r with
  | some a => exact Set.insert_subset_insert h
  | none => exact h

namespace Database

/-- A part of a database that can be open. -/
inductive Part
  /-- The database itself. -/
  | whole
  | statement (number : Nat)
  | cursor (statement number : Nat)

variable {g g' : Set Part} {l : Link} {isOpen : Bool} {d d' : Database} {s s' : Database × World}
  {k : Nat} {own : Multiset Asset}

/-- What a statement of a database holds. -/
def Part.Holds (g : Set Part) (l : Link) (isOpen : Bool) (k : Nat) (z : Statement) :
    Multiset Asset → Prop :=
  z.Holds l (isOpen ∧ .statement k ∈ g) fun n => .cursor k n ∈ g

/-- What the statements of a database hold. They are open only while the database is. -/
structure Keeps (g : Set Part) (l : Link) (o : Bool) (d : Database) (own : Multiset Asset) :
    Prop where
  link : d.link = l
  isOpen : d.isOpen = o
  statements : Table.Sums (Part.Holds g l o) d.statements.entries own

/-- Whether a part is open. -/
def HasOpen (d : Database) : Part → Prop
  | .whole => d.isOpen
  | .statement k => (d.openStatement? k).isSome
  | .cursor k n => ∃ z, d.statements.find? k = some z ∧ (z.cursors.find? n).isSome

/-- What may be open counts for what is. -/
theorem Keeps.restrict (h : Keeps g l isOpen d own) (hg : ∀ p ∈ g, d.HasOpen p → p ∈ g') :
    Keeps g' l isOpen d own := by
  refine ⟨h.link, h.isOpen, h.statements.mono fun e he o hz => ?_⟩
  have hk := Table.find?_eq_some_of_mem he
  refine Statement.Holds.mono hz (fun ho hp => ⟨hp.1, hg _ hp.2 ?_⟩)
    fun n hn hp => hg _ hp ⟨_, hk, hn⟩
  exact openStatement?_isSome hk ho

theorem Keeps.mono (h : Keeps g l isOpen d own) (hg : g ⊆ g') : Keeps g' l isOpen d own :=
  h.restrict fun _ hp _ => hg hp

/-- Transactions do not count for what is held. -/
theorem Keeps.congr (h : Backed (Keeps g l isOpen) x s) (hl : d.link = s.1.link)
    (ho : d.isOpen = s.1.isOpen) (hs : d.statements = s.1.statements) :
    Backed (Keeps g l isOpen) x (d, s.2) := by
  obtain ⟨own, hk, he⟩ := h
  exact ⟨own, ⟨hl.trans hk.link, ho.trans hk.isOpen, hs ▸ hk.statements⟩, he⟩

/-- The log does not count for what is held. -/
theorem Same.backed (h : Same s s') (hs : Backed (Keeps g l isOpen) x s) :
    Backed (Keeps g l isOpen) x s' := by
  obtain ⟨own, hk, he⟩ := hs
  refine ⟨own, h.database ▸ hk, ?_⟩
  change s'.2.engine.Carries _
  rw [h.engine]
  exact he

/-- A statement or cursor that is open may be. -/
theorem Keeps.of_hasOpen (h : Keeps g l isOpen d own) {p : Part} (ho : d.HasOpen p)
    (hne : p ≠ .whole) : p ∈ g := by
  cases p with
  | whole => exact absurd rfl hne
  | statement k =>
    obtain ⟨z, hz⟩ := Option.isSome_iff_exists.1 ho
    obtain ⟨hk, hzo⟩ := openStatement?_eq_some hz
    obtain ⟨o, -, hh⟩ := h.statements.holds hk
    exact (hh.of_isOpen hzo).2
  | cursor k n =>
    obtain ⟨z, hk, hn⟩ := ho
    obtain ⟨o, -, hh⟩ := h.statements.holds hk
    exact hh.of_cursor hn

/-- Statements come with the connection of their database. -/
theorem Keeps.grounded (h : Keeps g l isOpen d own) {n c : Nat} {st : Stage}
    (hm : .statement n c st ∈ own) : isOpen ∧ l.connection = some c := by
  obtain ⟨e, -, o, hz, hm⟩ := h.statements.exists_of_mem hm
  cases hz with
  | working ho hw => exact ⟨ho.1, hw.connection hm⟩
  | closed => exact absurd hm (Multiset.notMem_zero _)

/-! ## Statements -/

/-- The statement that a part is or belongs to. -/
def Part.statement? : Part → Option Nat
  | .whole => none
  | .statement k | .cursor k _ => some k

/-- What is said of one statement does not count for the others. -/
theorem Part.Holds.of_ne {j : Nat} {z : Statement} (h : Part.Holds g l isOpen j z own)
    (hg : ∀ p ∈ g, p.statement? ≠ some k → p ∈ g') (hj : j ≠ k) :
    Part.Holds g' l isOpen j z own := by
  have hne : some j ≠ some k := fun h => hj (Option.some.inj h)
  exact Statement.Holds.mono h (fun _ hp => ⟨hp.1, hg _ hp.2 hne⟩) fun n _ hp => hg _ hp hne

/-- A statement is worked on beside the others. -/
theorem Keeps.focus {z : Statement} (h : Backed (Keeps g l isOpen) x (d, w))
    (hz : d.statements.find? k = some z) :
    ∃ rest, Backed (Part.Holds g l isOpen k) (rest + x) (z, w) ∧
      ∀ g' z' (w' : World), (∀ p ∈ g, p.statement? ≠ some k → p ∈ g') →
        Backed (Part.Holds g' l isOpen k) (rest + x) (z', w') →
        Backed (Keeps g' l isOpen) x
          ({ d with statements := d.statements.modify k fun _ => z' }, w') := by
  obtain ⟨own, hk, he⟩ := h
  obtain ⟨o, rest, rfl, ho, -, hput⟩ := hk.statements.focus hz
  refine ⟨rest, ⟨o, ho, he.of_eq (add_assoc _ _ _)⟩, fun g' z' w' hg ⟨o', ho', he'⟩ => ?_⟩
  refine ⟨o' + rest, ⟨hk.link, hk.isOpen, hput _ z' o' (fun m b o hm hb => ?_) ho'⟩,
    he'.of_eq (add_assoc _ _ _).symm⟩
  exact hb.of_ne hg hm

/-- What is said of a statement that does not exist does not count. -/
theorem Keeps.of_missing (h : Backed (Keeps g l isOpen) x (d, w))
    (hz : d.statements.find? k = none) (hg : ∀ p ∈ g, p.statement? ≠ some k → p ∈ g') :
    Backed (Keeps g' l isOpen) x (d, w) := by
  obtain ⟨own, hk, he⟩ := h
  refine ⟨own, ⟨hk.link, hk.isOpen, hk.statements.mono fun e he o hb => ?_⟩, he⟩
  refine hb.of_ne hg fun h => ?_
  cases hz.symm.trans (h ▸ Table.find?_eq_some_of_mem he)

theorem atStatement_keeps {y : Link → Op Statement α} {q : Except Fault α → Set Part}
    (hs : Backed (Keeps g l isOpen) x (d, w)) (hc : isOpen → Connected l.connection x)
    (hg : ∀ r, ∀ p ∈ g, p.statement? ≠ some k → p ∈ q r)
    (hy : ∀ z x, d.statements.find? k = some z → (isOpen → Connected l.connection x) →
      Backed (Part.Holds g l isOpen k) x (z, w) →
      After (y l).run (z, w) fun r s' => Backed (Part.Holds (q r) l isOpen k) x s') :
    After (atStatement k y).run (d, w) fun r s' => Backed (Keeps (q r) l isOpen) x s' := by
  refine atStatement_cases (fun hz => Keeps.of_missing hs hz (hg _)) fun z hz => ?_
  obtain rfl : d.link = l := hs.choose_spec.1.link
  obtain ⟨rest, hb, hput⟩ := Keeps.focus hs hz
  exact (hy z _ hz (fun ho => (hc ho).add rest) hb).mono fun r s₁ h₁ =>
    hput (q r) s₁.1 s₁.2 (hg r) h₁

theorem onStatement_keeps {y : Link → Op Statement α} {q : Except Fault α → Set Part}
    (hs : Backed (Keeps g l isOpen) x (d, w)) (hc : isOpen → Connected l.connection x)
    (hg : ∀ r, g ⊆ q r)
    (hy : ∀ z x, Connected l.connection x →
      Backed (Statement.Works l true fun n => .cursor k n ∈ g) x (z, w) → After (y l).run (z, w)
        fun r s' => Backed (Statement.Works l true fun n => .cursor k n ∈ q r) x s') :
    After (onStatement k y).run (d, w) fun r s' => Backed (Keeps (q r) l isOpen) x s' := by
  refine onStatement_cases (fun _ => hs.mono fun _ h => h.mono (hg _)) fun z hz hzo =>
    (atStatement_iff hz).1 ?_
  refine atStatement_keeps hs hc (fun r p hp _ => hg r hp) fun z' x' hz' hc' ⟨own, hh, he⟩ => ?_
  obtain rfl : z = z' := Option.some.inj (hz.symm.trans hz')
  cases hh with
  | working ho hw =>
    exact (hy z x' (hc' ho.1) ⟨own, hw, he⟩).backed fun r _ _ hw =>
      .working ⟨ho.1, hg r ho.2⟩ hw
  | closed hclosed =>
    rw [hzo] at hclosed
    cases hclosed

/-- A statement that is closed is no more open, and nothing else is opened. -/
theorem closeStatement_keeps (k : Nat) (hs : Backed (Keeps g l isOpen) x (d, w))
    (hc : isOpen → Connected l.connection x) :
    After (closeStatement k) (d, w) fun _ s' =>
      Backed (Keeps (g \ {.statement k}) l isOpen) x s' := by
  have others (p : Part) (hp : p ∈ g) (hne : p.statement? ≠ some k) : p ∈ g \ {.statement k} :=
    ⟨hp, fun h => hne (h ▸ rfl)⟩
  refine closeStatement_cases (fun hz => Keeps.of_missing hs hz others) fun z hz => ?_
  obtain rfl : d.link = l := hs.choose_spec.1.link
  obtain ⟨rest, hb, hput⟩ := Keeps.focus hs hz
  have closed : After (Statement.close d.link) (z, w) fun _ s' =>
      Backed (Part.Holds (g \ {.statement k}) d.link isOpen k) (rest + x) s' :=
    (Statement.close_holds (fun ho => (hc ho.1).add rest) hb).backed
      fun _ _ _ h => h.mono (fun _ => False.elim) fun _ _ => False.elim
  exact closed.mono fun _ s₁ h₁ => hput _ s₁.1 s₁.2 others h₁

theorem closeStatement_stays (hs : Backed (Keeps g l isOpen) x s)
    (hc : isOpen → Connected l.connection x) :
    After (closeStatement k) s fun _ s' => Backed (Keeps g l isOpen) x s' :=
  (closeStatement_keeps k hs hc).backed fun _ _ _ hk => hk.mono Set.sdiff_subset

theorem closeEach_keeps {ks : List Nat} {first : Except Fault Unit}
    (hs : Backed (Keeps g l isOpen) x s) (hc : isOpen → Connected l.connection x) :
    After (closeEach first ks) s fun _ s' => Backed (Keeps g l isOpen) x s' :=
  closeEach_keeps_of (fun h h' => h'.backed h) (fun h => closeStatement_stays h hc) hs

theorem closeOwned_keeps (t : Nat) (hs : Backed (Keeps g l isOpen) x s)
    (hc : isOpen → Connected l.connection x) :
    After (closeOwned t) s fun _ s' => Backed (Keeps g l isOpen) x s' :=
  closeOwned_keeps_of (fun h h' => h'.backed h) (fun h => closeStatement_stays h hc) hs
    fun h => Keeps.congr h rfl rfl rfl

theorem Keeps.withStatement {z : Statement} {o : Multiset Asset} (h : Keeps g l true d own)
    (hz : z.Works l true (fun _ => False) o) :
    Keeps (insert (.statement d.statements.next) g) l true (d.withStatement z) (o + own) := by
  refine ⟨h.link, h.isOpen, ?_⟩
  have others : Table.Sums (Part.Holds (insert (.statement d.statements.next) g) l true)
      d.statements.entries own :=
    (h.mono (Set.subset_insert _ g)).statements
  exact others.add (.working ⟨rfl, Set.mem_insert _ _⟩ (hz.mono fun _ _ => False.elim))

/-- A statement that is prepared is open, and nothing else is. -/
theorem prepare_keeps {owner : Option Nat} {query : Option Query}
    (hs : Backed (Keeps g l isOpen) x s) (hc : isOpen → Connected l.connection x) :
    After (prepare owner query).run s fun r s' =>
      Backed (Keeps (joined .statement g r.toOption) l isOpen) x s' := by
  obtain ⟨own, hk, he⟩ := hs
  refine prepare_after (fun _ => ⟨own, hk, he⟩) fun ho _ _ _ => ?_
  obtain rfl : s.1.link = l := hk.link
  obtain rfl : isOpen = true := hk.isOpen.symm.trans ho
  refine (Backend.prepare_backed ((hc rfl).add own) he).mono fun r e h₁ s₁ h => ⟨?_, ?_⟩
  · rintro f rfl
    exact h.backed ⟨own, hk, h₁⟩
  · rintro handle rfl
    obtain ⟨o, hh, he₁⟩ := h₁
    refine ⟨o + own, ?_, ?_⟩
    · rw [h.database]
      exact hk.withStatement (.idle rfl rfl hh)
    · change s₁.2.engine.Carries _
      rw [h.engine]
      exact he₁.of_eq (add_assoc _ _ _).symm

/-! ## Transactions -/

/-- What is asked of the connection of an open database leaves alone what the database holds. -/
theorem Keeps.asked {y : EngineTry Unit} (hs : Backed (Keeps g l isOpen) x s)
    (hc : isOpen → Connected l.connection x) (ho : s.1.isOpen)
    (hy : ∀ x, Connected s.1.link.connection x → s.2.engine.Carries x →
      After y.run s.2.engine fun _ e => e.Carries x) :
    After y.run s.2.engine fun _ e =>
      Backed (Keeps g l isOpen) x (s.1, { s.2 with engine := e }) := by
  obtain ⟨own, hk, he⟩ := hs
  obtain rfl : s.1.link = l := hk.link
  exact (hy _ ((hc (hk.isOpen ▸ ho)).add own) he).mono fun _ _ he₁ => ⟨own, hk, he₁⟩

theorem keepWork_carries {o : Origin} {e : Engine} (hc : Connected l.connection x)
    (h : e.Carries x) : After (keepWork l o).run e fun _ e' => e'.Carries x := by
  cases o <;> exact Backend.control_carries hc h

theorem undoWork_carries {o : Origin} {e : Engine} (hc : Connected l.connection x)
    (h : e.Carries x) : After (undoWork l o).run e fun _ e' => e'.Carries x := by
  cases o with
  | root => exact Backend.control_carries hc h
  | nested p n => exact Backend.rollbackTo_carries hc h

section Transactions

variable {n t : Nat} {query : Option Query} {first : Except Fault Unit} {origin : Origin}
  (hs : Backed (Keeps g l isOpen) x s) (hc : isOpen → Connected l.connection x)
include hs hc

theorem begin_keeps : After begin.run s fun _ s' => Backed (Keeps g l isOpen) x s' := by
  unfold begin
  refine After.try_seq checkOpen_after ?_ ?_
  · rintro _ s ⟨rfl, ho⟩
    refine After.try_bind_iff.2 (After.try_get_iff.2 ?_)
    dsimp only
    split
    · exact After.try_bind_iff.2 (After.throw_iff.2 hs)
    split
    · exact After.try_bind_iff.2 (After.throw_iff.2 hs)
    refine After.try_seq (After.op_onTry_iff.2 <| Keeps.asked hs hc (ho rfl) fun _ =>
      Backend.control_carries) (fun _ s₁ h₁ => ?_) fun _ _ h₁ => h₁
    exact After.try_bind_iff.2 <| After.try_modify_iff.2 <| After.try_bind_iff.2 <|
      After.try_lift_iff.2 <| writeLog_same.mono fun _ _ h => After.try_pure_iff.2 <|
        h.backed (Keeps.congr h₁ rfl rfl rfl)
  · rintro _ _ ⟨rfl, -⟩
    exact hs

theorem nest_keeps : After (nest t).run s fun _ s' => Backed (Keeps g l isOpen) x s' := by
  unfold nest
  refine After.try_seq checkUsable_after ?_ ?_
  · rintro y s ⟨rfl, hy⟩
    have hs : Backed (Keeps g l isOpen) x ({ s.1 with savepoints := s.1.savepoints + 1 }, s.2) :=
      Keeps.congr hs rfl rfl rfl
    refine After.try_bind_iff.2 <| After.try_modify_iff.2 <| After.try_bind_iff.2 <|
      After.try_get_iff.2 <| After.try_seq (After.op_onTry_iff.2 <|
        Keeps.asked hs hc (hy y rfl).2 fun _ => Backend.control_carries) (fun _ s₁ h₁ => ?_)
        fun _ _ h₁ => h₁
    exact After.try_bind_iff.2 <| After.try_modify_iff.2 <| After.try_bind_iff.2 <|
      After.try_lift_iff.2 <| writeLog_same.mono fun _ _ h => After.try_pure_iff.2 <|
        h.backed (Keeps.congr h₁ rfl rfl rfl)
  · rintro _ _ ⟨rfl, -⟩
    exact hs

theorem commit_keeps :
    After (commit t).run s fun _ s' => Backed (Keeps g l isOpen) x s' := by
  unfold commit
  refine After.try_seq active_after ?_ ?_
  · rintro y _ ⟨rfl, -⟩
    refine After.try_seq checkOpen_after ?_ ?_
    · rintro _ _ ⟨rfl, ho⟩
      have hopen : isOpen := hs.choose_spec.1.isOpen ▸ ho rfl
      refine After.try_call (closeOwned_keeps t hs hc) fun first s₁ h₁ => ?_
      have ho₁ : s₁.1.isOpen := h₁.choose_spec.1.isOpen.trans hopen
      refine After.try_bind_iff.2 <| After.try_get_iff.2 <| After.try_bind_iff.2 <|
        After.op_onEngine_iff.2 <| (Keeps.asked h₁ hc ho₁ fun _ => keepWork_carries).mono
          fun r e h₂ => ?_
      cases r with
      | error f =>
        exact After.try_bind_iff.2 <| After.try_lift_iff.2 <| writeLog_same.mono
          fun _ _ h => After.throw_iff.2 (h.backed h₂)
      | ok _ =>
        exact After.try_bind_iff.2 <| After.try_modify_iff.2 <| After.try_bind_iff.2 <|
          After.try_lift_iff.2 <| writeLog_same.mono fun _ _ h => After.ofResult_iff.2 <|
            h.backed (Keeps.congr h₂ withEnded_link withEnded_isOpen withEnded_statements)
    · rintro _ _ ⟨rfl, -⟩
      exact hs
  · rintro _ _ ⟨rfl, -⟩
    exact hs

theorem undo_keeps :
    After (undo first origin) s fun _ s' => Backed (Keeps g l isOpen) x s' := by
  unfold undo
  refine After.bind_iff.2 (After.get_iff.2 ?_)
  split
  · next ho =>
    refine After.bind_iff.2 <| After.object_onEngine_iff.2 <|
      (Keeps.asked hs hc ho fun _ => undoWork_carries).mono fun _ _ undone => ?_
    exact keepFirst_same.mono fun _ _ h => h.backed undone
  · exact After.pure_iff.2 hs

theorem rollback_keeps :
    After (rollback t).run s fun _ s' => Backed (Keeps g l isOpen) x s' := by
  unfold rollback
  refine After.try_seq active_after ?_ ?_
  · rintro y _ ⟨rfl, -⟩
    refine After.try_call (closeOwned_keeps t hs hc) fun first s₁ h₁ =>
      After.try_call (undo_keeps h₁ hc) fun _ s₂ h₂ => ?_
    exact After.try_bind_iff.2 <| After.try_modify_iff.2 <| After.try_bind_iff.2 <|
      After.try_lift_iff.2 <| writeLog_same.mono fun _ _ h => After.ofResult_iff.2 <|
        h.backed (Keeps.congr h₂ withEnded_link withEnded_isOpen withEnded_statements)
  · rintro _ _ ⟨rfl, -⟩
    exact hs

theorem rollbackThrough_keeps :
    After (rollbackThrough t) s fun _ s' => Backed (Keeps g l isOpen) x s' :=
  rollbackThrough_keeps_of (fun h h' => h'.backed h) (fun h => rollback_keeps h hc) hs

/-! ## Running -/

theorem executeStatement_keeps :
    After (executeStatement k).run s fun _ s' => Backed (Keeps g l isOpen) x s' := by
  unfold executeStatement
  refine After.try_seq checkRunnable_after ?_ ?_
  · rintro _ _ ⟨rfl, -⟩
    exact onStatement_keeps (q := fun _ => g) hs hc (fun _ => subset_rfl) fun _ _ hx hz =>
      (Statement.execute_works hx hz).mono fun _ _ => Statement.Works.of_none
  · rintro _ _ ⟨rfl, -⟩
    exact hs

/-- A query that is run once leaves nothing open. -/
theorem executeOnce_keeps :
    After (executeOnce t query).run s fun _ s' => Backed (Keeps g l isOpen) x s' := by
  unfold executeOnce
  refine After.try_seq (prepare_keeps hs hc) (fun k s₁ h₁ => ?_) fun _ _ h₁ => h₁
  refine After.try_bind_iff.2 <| After.try_lift_iff.2 <| After.attempt_iff.2 <|
    (executeStatement_keeps h₁ hc).mono fun ran s₂ h₂ =>
      After.try_call (closeStatement_keeps k h₂ hc) fun closed s₃ h₃ => ?_
  have h₃ : Backed (Keeps g l isOpen) x s₃ := h₃.mono fun _ h => h.mono <| by
    rintro p ⟨rfl | hp, hne⟩
    · exact absurd rfl hne
    · exact hp
  cases ran with
  | error f => exact After.throw_iff.2 h₃
  | ok _ => exact After.ofResult_iff.2 h₃

end Transactions

/-! ## Opening and closing -/

/-- What a database holds of whose parts only those of `g` may be open. -/
inductive Holds (g : Set Part) (d : Database) : Multiset Asset → Prop
  | opened {own : Multiset Asset} : .whole ∈ g → d.Keeps g d.link true own →
      Holds g d (Asset.ofConnection d.link.connection + own)
  | closed {own : Multiset Asset} : d.Keeps g d.link false own → Holds g d own

theorem Holds.restrict (h : Holds g d own) (hg : ∀ p ∈ g, d.HasOpen p → p ∈ g') :
    Holds g' d own := by
  cases h with
  | opened hw hk => exact .opened (hg _ hw hk.isOpen) (hk.restrict hg)
  | closed hk => exact .closed (hk.restrict hg)

/-- What is open may be. -/
theorem Holds.of_hasOpen (h : Holds g d own) {p : Part} (ho : d.HasOpen p) : p ∈ g := by
  by_cases hp : p = .whole
  · subst hp
    cases h with
    | opened hw _ => exact hw
    | closed hk => exact absurd ho (by simp [HasOpen, hk.isOpen])
  · cases h with
    | opened _ hk | closed hk => exact hk.of_hasOpen ho hp

theorem Holds.grounded (h : Holds g d own) : Grounded own := by
  intro k c st hm
  cases h with
  | opened _ hk =>
    rw [Multiset.mem_add, Asset.mem_ofConnection] at hm ⊢
    obtain ⟨n, -, hm⟩ | hm := hm
    · cases hm
    · exact .inl ⟨c, (hk.grounded hm).2, rfl⟩
  | closed hk => cases (hk.grounded hm).1

/-- Work on the statements of a database is work on the database. -/
theorem Holds.work {y : StateT Database Act α} {g' : α → Set Part} (hs : Backed (Holds g) x s)
    (hg : ∀ a, .whole ∈ g → .whole ∈ g' a)
    (hy : ∀ l o x, Backed (Keeps g l o) x s → (o → Connected l.connection x) →
      After y s fun a s' => Backed (Keeps (g' a) l o) x s') :
    After y s fun a s' => Backed (Holds (g' a)) x s' := by
  obtain ⟨own, hh, he⟩ := hs
  cases hh with
  | @opened own hw hk =>
    have hs : Backed (Keeps g s.1.link true) (Asset.ofConnection s.1.link.connection + x) s :=
      ⟨own, hk, he.of_eq (by abel)⟩
    refine (hy s.1.link true _ hs fun _ => connected_ofConnection).mono
      fun a s' ⟨own', hk', he'⟩ => ?_
    have hlink := hk'.link
    refine ⟨_, .opened (hg a hw) (hlink ▸ hk'), he'.of_eq ?_⟩
    rw [hlink]
    abel
  | closed hk =>
    refine (hy s.1.link false x ⟨own, hk, he⟩ nofun).mono fun a s' ⟨own', hk', he'⟩ => ?_
    exact ⟨own', .closed (hk'.link ▸ hk'), he'⟩

/-- A statement that cannot be open holds nothing. -/
theorem Part.Holds.of_closed {q : Set Part} {z : Statement} {o : Bool}
    (h : Part.Holds g l isOpen k z own) (hz : ¬ (z.isOpen ∧ isOpen ∧ .statement k ∈ g)) :
    own = 0 ∧ Part.Holds q l o k z 0 := by
  cases h with
  | working ho hw =>
    exact absurd ⟨hw.isOpen_eq, ho⟩ hz
  | closed ho hn => exact ⟨rfl, .closed ho hn⟩

theorem Keeps.of_closed {q : Set Part} {o : Bool} (h : Keeps g l isOpen d own)
    (hz : ∀ k z, d.statements.find? k = some z → ¬ (z.isOpen ∧ isOpen ∧ .statement k ∈ g)) :
    own = 0 ∧ Table.Sums (Part.Holds q l o) d.statements.entries 0 := by
  have none (e : Nat × Statement) (he : e ∈ d.statements.entries) :=
    hz e.1 e.2 (Table.find?_eq_some_of_mem he)
  have hown : own = 0 := h.statements.eq_zero fun e he o ho =>
    (ho.of_closed (q := ∅) (o := false) (none e he)).1
  subst hown
  refine ⟨rfl, h.statements.mono fun e he o ho => ?_⟩
  obtain ⟨rfl, h₀⟩ := ho.of_closed (none e he)
  exact h₀

theorem connect_holds {backend : Backend} {dsn : Bytes} {options : Options}
    (h : w.engine.Carries x) (hx : Grounded x) :
    After (connect backend dsn options) w fun r w' => match r with
      | .ok d => Backed (Holds {.whole}) x (d, w')
      | .error _ => w'.engine.Carries x := by
  unfold connect
  refine After.bind_iff.2 <| After.onEngine_iff.2 <| (Backend.connect_carries h hx).mono
    fun r e h₁ => ?_
  cases r with
  | error f =>
    exact After.bind_iff.2 <| After.writeLog_still.mono fun _ w' hw => After.pure_iff.2 <| by
      rw [hw]
      exact h₁
  | ok c =>
    refine After.bind_iff.2 <| After.onEngine_iff.2 <|
      (Backend.info_same (connected_ofConnection.has h₁)).mono fun info e₂ he => ?_
    refine After.bind_iff.2 <| After.writeLog_still.mono fun _ w' hw => After.pure_iff.2 ?_
    refine ⟨Asset.ofConnection c + 0, .opened rfl ⟨rfl, rfl, .nil⟩, ?_⟩
    change w'.engine.Carries _
    rw [hw, he, add_zero]
    exact h₁

theorem abandonChain_keeps {first : Except Fault Unit} (hs : Backed (Keeps g l isOpen) x s)
    (hc : isOpen → Connected l.connection x) :
    After (abandonChain first) s fun _ s' => Backed (Keeps g l isOpen) x s' :=
  abandonChain_keeps_of (fun h h' => h'.backed h) (fun h => rollback_keeps h hc) hs

/-- A database that is closed holds nothing and has nothing open, whatever fails. -/
theorem close_holds (hs : Backed (Holds g) x s) (hsound : s.1.Sound s.2.engine.history)
    (hx : Grounded x) : After close s fun _ s' => Backed (Holds ∅) x s' := by
  unfold close
  refine After.bind_iff.2 (After.get_iff.2 ?_)
  obtain ⟨own, hh, he⟩ := hs
  cases hh with
  | @closed own hk =>
    rw [hk.isOpen]
    obtain ⟨rfl, h₀⟩ := hk.of_closed (q := ∅) (o := false) fun _ _ _ h => nomatch h.2.1
    exact After.pure_iff.2 ⟨0, .closed ⟨rfl, hk.isOpen, h₀⟩, he⟩
  | @opened own hw hk =>
    rw [hk.isOpen]
    have hs : Backed (Keeps g s.1.link true) (Asset.ofConnection s.1.link.connection + x) s :=
      ⟨own, hk, he.of_eq (by abel)⟩
    refine After.seq ((closeEach_keeps hs fun _ => connected_ofConnection).and
        (closeEach_after (A := fun _ => True) hsound))
      fun first s₁ ⟨⟨own₁, hk₁, he₁⟩, h₁, hl⟩ => After.bind_iff.2 (After.modify_iff.2 ?_)
    -- all open statements were listed
    obtain ⟨rfl, h₀⟩ := hk₁.of_closed (q := ∅) (o := true) fun k z hz h => by
      have hlisted := ((h₁.leads.sound hsound).owned.listed k z hz h.1).2
      rw [h₁.shuts.rest] at hlisted
      rw [openStatement?_eq_none (hl k hlisted) hz] at h
      cases h.1
    have hs₁ : Backed (Keeps ∅ s.1.link true) (Asset.ofConnection s.1.link.connection + x)
        ({ s₁.1 with listed := [] }, s₁.2) := ⟨0, ⟨hk₁.link, hk₁.isOpen, h₀⟩, he₁⟩
    refine After.seq (abandonChain_keeps hs₁ fun _ => connected_ofConnection)
      fun first s₂ ⟨own₂, hk₂, he₂⟩ => ?_
    obtain ⟨rfl, h₀⟩ := hk₂.of_closed (q := ∅) (o := false) fun _ _ _ h => h.2.2
    refine After.bind_iff.2 <| After.object_onEngine_iff.2 <|
      (Backend.disconnect_carries (he₂.of_eq (zero_add _)) hx).mono fun next e he₃ => ?_
    refine After.seq keepFirst_same fun first s₃ h₃ => After.bind_iff.2 <| After.modify_iff.2 <|
      After.seq writeLog_same fun _ s₄ h₄ => After.pure_iff.2 ⟨0, .closed ?_, ?_⟩
    · rw [h₄.database, h₃.database]
      exact ⟨rfl, rfl, hk₂.link.symm ▸ h₀⟩
    · change s₄.2.engine.Carries (0 + x)
      rw [h₄.engine, h₃.engine, zero_add]
      exact he₃

end Database

end SqlAccess
