import Mathlib.Data.Set.Image
import SqlAccess.Proofs.Holdings.Database
import SqlAccess.Proofs.Session.Reachable

/-!
# What sessions hold

All that an engine has handed out is held by the databases of the session (`Session.Accounted`), and
all that is open is held by a handle (`Session.Settled`). Work on a database is described by what
may be open after it (`Session.Leaves`): giving something up takes it out, and what a handle is made
to hold was let in by the operation that opened it. A step settles the session again, and one that
failed has let nothing in (`Session.carryOut_settled`).
-/

namespace SqlAccess

open Engine

namespace NameMap

variable {α : Type} {m : NameMap α} {name other : Bytes} {a : α} {r : Option α}

/-- The values of a map. -/
def values (m : NameMap α) : Set α := {a | ∃ name, m.find? name = some a}

/-- What a value is replaced with is among the values, and so is what is not replaced. -/
theorem mem_update {ι : Type} {f : α → ι} {g : Set ι} {p : ι}
    (hp : p ∈ joined f (f '' m.values ∪ g) r) (hold : ∀ old, m.find? name = some old → p ≠ f old) :
    p ∈ f '' (m.update name r).values ∪ g := by
  have kept (hp : p ∈ f '' m.values ∪ g) : p ∈ f '' (m.update name r).values ∪ g := by
    obtain ⟨a, ⟨other, hother⟩, rfl⟩ | hp := hp
    · refine .inl ⟨a, ⟨other, ?_⟩, rfl⟩
      rw [find?_update, if_neg, hother]
      rintro rfl
      exact hold a hother rfl
    · exact .inr hp
  cases r with
  | none => exact kept hp
  | some a =>
    obtain rfl | hp := hp
    · exact .inl ⟨a, ⟨name, by simp [find?_update]⟩, rfl⟩
    · exact kept hp

/-- A value that was moved is still there. -/
theorem mem_values_move (hne : other ≠ name) (ha : a ∈ (m.update name (m.find? other)).values) :
    a ∈ ((m.update name (m.find? other)).erase other).values := by
  obtain ⟨key, hkey⟩ := ha
  by_cases hk : key = other
  · subst hk
    refine ⟨name, ?_⟩
    rw [find?_update, if_neg hne] at hkey
    simpa [find?_erase, find?_update, Ne.symm hne] using hkey
  · exact ⟨key, by rwa [find?_erase, if_neg hk]⟩

end NameMap

open Database (Part)

/-- What a statement is among the parts of the databases. -/
def StatementRef.part (r : StatementRef) : Nat × Part := (r.database, .statement r.number)

/-- What a cursor is among the parts of the databases. -/
def CursorRef.part (r : CursorRef) : Nat × Part := (r.database, .cursor r.statement r.number)

namespace Session

variable {α β : Type} {s s' : Session × World} {n : Nat} {name target : Bytes}
  {g g' : Set (Nat × Part)} {own : Multiset Asset}

/-! ## What is open -/

/-- What a database is among the parts of the databases. -/
def whole (n : Nat) : Nat × Part := (n, .whole)

/-- What the handles hold that can be open. -/
def held (s : Session) : Set (Nat × Part) :=
  whole '' s.databases.values ∪ StatementRef.part '' s.statements.values ∪
    CursorRef.part '' s.cursors.values

/-- Whether a part of a database is open. -/
def HasOpen (s : Session) (p : Nat × Part) : Prop :=
  ∃ d, s.opened.find? p.1 = some d ∧ d.HasOpen p.2

/-- The parts of one database. -/
def within (n : Nat) (g : Set (Nat × Part)) : Set Part := {p | (n, p) ∈ g}

/-- What the databases of a session hold, of which only the parts of `g` may be open. -/
def Holds (g : Set (Nat × Part)) (s : Session) : Multiset Asset → Prop :=
  Table.Sums (fun n d => d.Holds (within n g)) s.opened.entries

/-- What may be open counts for what is. -/
theorem Holds.restrict {s : Session} (h : Holds g s own) (hg : ∀ p ∈ g, s.HasOpen p → p ∈ g') :
    Holds g' s own :=
  Table.Sums.mono h fun e he _ hd => hd.restrict fun p hp ho =>
    hg (e.1, p) hp ⟨e.2, Table.find?_eq_some_of_mem he, ho⟩

theorem Holds.mono {s : Session} (h : Holds g s own) (hg : g ⊆ g') : Holds g' s own :=
  h.restrict fun _ hp _ => hg hp

/-- The engine has handed out what the session holds, of which only the parts of `g` may be open. -/
def Accounted (g : Set (Nat × Part)) (s : Session × World) : Prop := Backed (Holds g) 0 s

/-- What is open may be. -/
theorem Accounted.of_hasOpen (h : Accounted g s) {p : Nat × Part} (ho : s.1.HasOpen p) : p ∈ g := by
  obtain ⟨own, hh, -⟩ := h
  obtain ⟨d, hd, ho⟩ := ho
  obtain ⟨o, -, hb⟩ := hh.holds hd
  exact hb.of_hasOpen ho

theorem Accounted.mono (h : Accounted g s) (hg : g ⊆ g') : Accounted g' s :=
  Backed.mono h fun _ hs => hs.mono hg

/-! ## Working on databases -/

/-- The handles hold the same. -/
structure SameHandles (s s' : Session) : Prop where
  databases : s'.databases = s.databases
  statements : s'.statements = s.statements
  cursors : s'.cursors = s.cursors

theorem SameHandles.refl {s : Session} : SameHandles s s := ⟨rfl, rfl, rfl⟩

theorem SameHandles.trans {s s' s'' : Session} (h : SameHandles s s') (h' : SameHandles s' s'') :
    SameHandles s s'' :=
  ⟨h'.databases.trans h.databases, h'.statements.trans h.statements, h'.cursors.trans h.cursors⟩

theorem SameHandles.held_eq {s s' : Session} (h : SameHandles s s') : s'.held = s.held := by
  rw [held, held, h.databases, h.statements, h.cursors]

/-- An action leaves the handles alone, and what may be open after it depends on the answer. -/
def Leaves (x : SessionM α) (s : Session × World) (g' : α → Set (Nat × Part)) : Prop :=
  After x s fun a s' => SameHandles s.1 s'.1 ∧ Accounted (g' a) s'

theorem leaves_pure {g' : α → Set (Nat × Part)} {a : α} (h : Accounted (g' a) s) :
    Leaves (pure a) s g' :=
  After.pure_iff.2 ⟨.refl, h⟩

theorem Leaves.bind {x : SessionM α} {f : α → SessionM β} {g₁ : α → Set (Nat × Part)}
    {g₂ : β → Set (Nat × Part)} (hx : Leaves x s g₁)
    (hf : ∀ a s', Accounted (g₁ a) s' → Leaves (f a) s' g₂) : Leaves (x >>= f) s g₂ :=
  After.seq hx fun a s₁ ⟨hn, h₁⟩ => (hf a s₁ h₁).mono fun _ _ ⟨hn', h₂⟩ => ⟨hn.trans hn', h₂⟩

/-- A database is worked on beside the others. -/
theorem onDatabase_leaves {y : StateT Database Act α} {otherwise : α}
    {g' : α → Set (Nat × Part)} (hs : Accounted g s)
    (hg : ∀ a, ∀ p ∈ g, p.1 ≠ n → p ∈ g' a)
    (hy : ∀ d x, s.1.opened.find? n = some d → Grounded x →
      Backed (Database.Holds (within n g)) x (d, s.2) →
      After y (d, s.2) fun a s' => Backed (Database.Holds (within n (g' a))) x s') :
    Leaves (onDatabase n otherwise y) s g' := by
  refine onDatabase_cases (fun hnone => ?_) fun d hd => ?_
  · refine ⟨.refl, Backed.mono hs fun own h => h.restrict fun p hp ho => hg _ p hp fun hn => ?_⟩
    obtain ⟨d, hfind, -⟩ := ho
    rw [hn, hnone] at hfind
    cases hfind
  · obtain ⟨own, hh, he⟩ := hs
    obtain ⟨o, rest, rfl, ho, ⟨l, hl⟩, hput⟩ := Table.Sums.focus hh hd
    refine (hy d rest hd (hl.grounded fun _ _ _ h => h.grounded)
      ⟨o, ho, he.of_eq (add_zero _)⟩).mono fun a s₁ ⟨o₁, ho₁, he₁⟩ => ?_
    refine ⟨⟨rfl, rfl, rfl⟩, o₁ + rest, hput _ s₁.1 o₁ (fun m b o hm hb => ?_) ho₁,
      he₁.of_eq (add_zero _).symm⟩
    exact hb.restrict fun p hp _ => hg a (m, p) hp hm

/-- Work on what the statements of a database hold. -/
theorem onDatabase_keeps {y : StateT Database Act α} {otherwise : α}
    {g' : α → Set (Nat × Part)} (hs : Accounted g s)
    (hg : ∀ a, ∀ p ∈ g, p.1 ≠ n ∨ p.2 = .whole → p ∈ g' a)
    (hy : ∀ d l o x, Backed (Database.Keeps (within n g) l o) x (d, s.2) →
      (o → Connected l.connection x) →
      After y (d, s.2) fun a s' => Backed (Database.Keeps (within n (g' a)) l o) x s') :
    Leaves (onDatabase n otherwise y) s g' :=
  onDatabase_leaves hs (fun a p hp hn => hg a p hp (.inl hn)) fun d _ _ _ hd =>
    Database.Holds.work hd (fun a hw => hg a _ hw (.inr rfl)) (hy d)

/-- Work that opens nothing. -/
theorem onDatabase_stays {y : StateT Database Act α} {otherwise : α} (hs : Accounted g s)
    (hy : ∀ g l o x d, Backed (Database.Keeps g l o) x (d, s.2) → (o → Connected l.connection x) →
      After y (d, s.2) fun _ s' => Backed (Database.Keeps g l o) x s') :
    Leaves (onDatabase n otherwise y) s fun _ => g :=
  onDatabase_keeps hs (fun _ _ hp _ => hp) fun d l o x => hy _ l o x d

/-! ## Giving up -/

theorem complain_leaves {level : LogLevel} {note : Bytes} {r : Except Fault Unit}
    (hs : Accounted g s) : Leaves (complain n level note r) s fun _ => g := by
  unfold complain
  cases r with
  | ok _ => exact leaves_pure hs
  | error f =>
    exact onDatabase_stays hs fun _ _ _ _ _ hd _ => Database.writeLog_same.mono
      fun _ _ h => h.backed hd

/-- A database that is closed is no more open. -/
theorem close_leaves (hs : Accounted g s) (hsound : Sound s) :
    Leaves (onDatabase n (.ok ()) Database.close) s fun _ => g \ {whole n} :=
  onDatabase_leaves hs (fun _ _ hp hn => ⟨hp, fun h => hn (h ▸ rfl)⟩) fun d _ hd hx hb =>
    (Database.close_holds hb (hsound.database n d hd) hx).backed
      fun _ _ _ hh => hh.restrict fun _ hp => hp.elim

theorem releaseDatabase_leaves (hs : Accounted g s) (hsound : Sound s) :
    Leaves (releaseDatabase n) s fun _ => g \ {whole n} := by
  unfold releaseDatabase
  exact (close_leaves hs hsound).bind fun _ _ h => complain_leaves h

theorem rollbackThrough_leaves {t : Nat} (hs : Accounted g s) :
    Leaves (onDatabase n (.ok ()) (Database.rollbackThrough t)) s fun _ => g :=
  onDatabase_stays hs fun _ _ _ _ _ hd hc => Database.rollbackThrough_keeps hd hc

theorem releaseTransaction_leaves {r : TransactionRef} (hs : Accounted g s) :
    Leaves (releaseTransaction r) s fun _ => g := by
  unfold releaseTransaction
  exact (rollbackThrough_leaves hs).bind fun _ _ h => complain_leaves h

theorem abandonTransaction_leaves {r : TransactionRef} (hs : Accounted g s) :
    Leaves (abandonTransaction r) s fun _ => g := by
  have warn {x : Transaction} : Leaves (onDatabase r.database () <| Database.writeLog .warn <|
      "Transaction at depth " ++ Bytes.ofNat x.depth ++
        " abandoned without commit; rolling back") s fun _ => g :=
    onDatabase_stays hs fun _ _ _ _ _ hd _ => Database.writeLog_same.mono fun _ _ h => h.backed hd
  unfold abandonTransaction
  refine After.bind_iff.2 (After.get_iff.2 ?_)
  dsimp only
  split
  · split
    · exact warn.bind fun _ _ h => releaseTransaction_leaves h
    · exact releaseTransaction_leaves hs
  · exact releaseTransaction_leaves hs

/-- A part within a database is neither in another one nor the whole of it. -/
theorem mem_sdiff_of_outside {p : Nat × Part} {q : Part} (hq : q ≠ .whole) (hp : p ∈ g)
    (hn : p.1 ≠ n ∨ p.2 = .whole) : p ∈ g \ {(n, q)} := by
  refine ⟨hp, ?_⟩
  rintro rfl
  obtain hn | hwhole := hn
  · exact hn rfl
  · exact hq hwhole

theorem mem_within_sdiff {p q : Part} (hp : p ∈ within n g) (hne : p ≠ q) :
    p ∈ within n (g \ {(n, q)}) :=
  ⟨hp, fun h => hne (congrArg Prod.snd h)⟩

/-- A statement that is closed is no more open. -/
theorem closeStatement_leaves {r : StatementRef} (hs : Accounted g s) :
    Leaves (onDatabase r.database (.ok ()) (Database.closeStatement r.number)) s
      fun _ => g \ {r.part} := by
  have remaining : within r.database g \ {.statement r.number} ⊆
      within r.database (g \ {r.part}) := fun p ⟨hp, hne⟩ => mem_within_sdiff hp hne
  refine onDatabase_keeps hs (fun _ _ => mem_sdiff_of_outside nofun) fun d l o x hd hc => ?_
  exact (Database.closeStatement_keeps r.number hd hc).backed fun _ _ _ hk => hk.mono remaining

theorem releaseStatement_leaves {r : StatementRef} (hs : Accounted g s) :
    Leaves (releaseStatement r) s fun _ => g \ {r.part} := by
  unfold releaseStatement
  exact (closeStatement_leaves hs).bind fun _ _ h => complain_leaves h

/-- A cursor that is closed is no more open. -/
theorem closeCursorOf_leaves {r : CursorRef} (hs : Accounted g s) :
    Leaves (closeCursorOf r) s fun _ => g \ {r.part} := by
  have elsewhere (p : Part) (hp : p ∈ within r.database g) (hn : p.statement? ≠ some r.statement) :
      p ∈ within r.database (g \ {r.part}) :=
    mem_within_sdiff hp fun h => hn (congrArg Part.statement? h)
  have remaining (m : Nat) (hm : .cursor r.statement m ∈ within r.database g) (hne : m ≠ r.number) :
      .cursor r.statement m ∈ within r.database (g \ {r.part}) :=
    mem_within_sdiff hm fun h => hne (Part.cursor.inj h).2
  unfold closeCursorOf
  refine After.bind_iff.2 (After.get_iff.2 ?_)
  split
  · refine onDatabase_keeps hs (fun _ _ => mem_sdiff_of_outside nofun) fun d l o x hd hc => ?_
    refine Database.atStatement_keeps hd hc (fun _ => elsewhere) fun z x _ hc hz => ?_
    have closed := Statement.closeCursor_holds (hc ·.1) r.number hz
    exact closed.backed fun _ _ _ hh =>
      hh.mono (fun _ ho => ⟨ho.1, ho.2, nofun⟩) fun m _ hm => remaining m hm.1 hm.2
  · next hclosed =>
    refine leaves_pure <| Backed.mono hs fun _ h => h.restrict fun p hp ho => ⟨hp, ?_⟩
    rintro rfl
    obtain ⟨d, hd, z, hz, hn⟩ := ho
    dsimp only [CursorRef.part] at hd hz
    exact hclosed (by simpa [cursor?, statement?, hd, hz] using hn)

theorem releaseCursor_leaves {r : CursorRef} (hs : Accounted g s) :
    Leaves (releaseCursor r) s fun _ => g \ {r.part} := by
  unfold releaseCursor
  exact (closeCursorOf_leaves hs).bind fun _ _ h => complain_leaves h

/-! ## Handles -/

/-- A kind of handles that hold what can be open. -/
structure Kind (ρ : Type) where
  /-- What a handle of the kind holds. -/
  part : ρ → Nat × Part
  map : Session → NameMap ρ
  put : NameMap ρ → Session → Session
  /-- What handles of other kinds hold. -/
  rest : Session → Set (Nat × Part)
  held_eq : ∀ s : Session, s.held = part '' (map s).values ∪ rest s
  same : ∀ {s s' : Session}, SameHandles s s' → map s' = map s
  map_put : ∀ m s, map (put m s) = m
  rest_put : ∀ m s, rest (put m s) = rest s
  opened_put : ∀ m s, (put m s).opened = s.opened

/-- The handles of databases. -/
def databaseKind : Kind Nat where
  part := whole
  map := (·.databases)
  put m s := { s with databases := m }
  rest s := StatementRef.part '' s.statements.values ∪ CursorRef.part '' s.cursors.values
  held_eq _ := Set.union_assoc _ _ _
  same h := h.databases
  map_put _ _ := rfl
  rest_put _ _ := rfl
  opened_put _ _ := rfl

/-- The handles of statements. -/
def statementKind : Kind StatementRef where
  part := StatementRef.part
  map := (·.statements)
  put m s := { s with statements := m }
  rest s := whole '' s.databases.values ∪ CursorRef.part '' s.cursors.values
  held_eq s := by rw [held, Set.union_comm (whole '' _), Set.union_assoc]
  same h := h.statements
  map_put _ _ := rfl
  rest_put _ _ := rfl
  opened_put _ _ := rfl

/-- The handles of cursors. -/
def cursorKind : Kind CursorRef where
  part := CursorRef.part
  map := (·.cursors)
  put m s := { s with cursors := m }
  rest s := whole '' s.databases.values ∪ StatementRef.part '' s.statements.values
  held_eq _ := Set.union_comm _ _
  same h := h.cursors
  map_put _ _ := rfl
  rest_put _ _ := rfl
  opened_put _ _ := rfl

/-- Everything is accounted for, and what is open is among the parts of `g` and held by a handle. -/
def Settled (g : Set (Nat × Part)) (s : Session × World) : Prop := Accounted (g ∩ s.1.held) s

theorem Settled.mono (h : Settled g s) (hg : g ⊆ g') : Settled g' s :=
  Accounted.mono h (Set.inter_subset_inter_left _ hg)

namespace Kind

variable {ρ : Type} (K : Kind ρ) {r : Option ρ} {old : ρ}

/-- Handles may be changed as long as what may be open is still held. -/
theorem put_settled {m : NameMap ρ} (h : Accounted g s)
    (hg : g ⊆ K.part '' m.values ∪ K.rest s.1) : Settled g (K.put m s.1, s.2) := by
  obtain ⟨own, hh, he⟩ := h
  refine ⟨own, ?_, he⟩
  have hheld : g ⊆ g ∩ (K.put m s.1).held := by
    rw [K.held_eq, K.map_put, K.rest_put]
    exact Set.subset_inter subset_rfl hg
  rw [Holds, K.opened_put]
  exact Holds.mono hh hheld

/-- A handle is made to hold something once it has given up what it held. -/
theorem update_settled (hs : Accounted g s) (hg : g ⊆ joined K.part s.1.held r)
    (hold : ∀ old, (K.map s.1).find? name = some old → K.part old ∉ g) :
    After (modify fun s => K.put ((K.map s).update name r) s : SessionM Unit) s fun _ s' =>
      K.map s'.1 = (K.map s.1).update name r ∧ Settled g s' := by
  refine After.modify_iff.2 ⟨K.map_put _ _, K.put_settled hs fun p hp => ?_⟩
  have hp' := hg hp
  rw [K.held_eq] at hp'
  exact NameMap.mem_update hp' fun old ho he => hold old ho (he ▸ hp)

/-- A handle is made to hold something after what it held was given up. -/
theorem replace_settled {release : SessionM Unit} (hg : g ⊆ joined K.part s.1.held r)
    (hold : (K.map s.1).find? name = some old)
    (hrelease : Leaves release s fun _ => g \ {K.part old}) :
    After (do release; modify fun s => K.put ((K.map s).update name r) s : SessionM Unit) s
      fun _ s' => K.map s'.1 = (K.map s.1).update name r ∧ Settled g s' := by
  refine After.seq hrelease fun _ s₁ ⟨hn, h₁⟩ => ?_
  rw [← hn.held_eq] at hg
  rw [← K.same hn] at hold ⊢
  refine (K.update_settled h₁ (Set.sdiff_subset.trans hg) fun a ha hp => hp.2 ?_).mono
    fun _ _ h => ⟨h.1, h.2.mono Set.sdiff_subset⟩
  obtain rfl := Option.some.inj (hold.symm.trans ha)
  rfl

/-- Let a handle hold what another one holds, which is empty then. -/
theorem move_settled {set : SessionM Unit} (hne : name ≠ target)
    (hset : After set s fun _ s' =>
      K.map s'.1 = (K.map s.1).update target ((K.map s.1).find? name) ∧ Settled g s') :
    After (do set; modify fun s => K.put ((K.map s).erase name) s : SessionM Unit) s
      fun _ s' => Settled g s' := by
  refine After.seq hset fun _ s₁ ⟨hm, h₁⟩ => After.modify_iff.2 <|
    (K.put_settled h₁ fun p hp => ?_).mono Set.inter_subset_left
  have hheld := hp.2
  rw [K.held_eq, hm] at hheld
  refine hheld.imp_left (Set.image_mono (fun a ha => ?_) ·)
  rw [hm]
  exact NameMap.mem_values_move hne ha

/-- Empty a handle and close what it held. -/
theorem close_settled {y : SessionM α} (hs : Accounted g s) (hg : g ⊆ s.1.held)
    (hold : (K.map s.1).find? name = some old)
    (hy : ∀ s', s'.1.opened = s.1.opened → s'.2 = s.2 → Accounted g s' →
      Leaves y s' fun _ => g \ {K.part old}) :
    After (do modify fun s => K.put ((K.map s).erase name) s; y : SessionM α) s fun _ s' =>
      K.map s'.1 = (K.map s.1).erase name ∧ Settled g s' := by
  refine After.bind_iff.2 (After.modify_iff.2 ?_)
  have opened := K.opened_put ((K.map s.1).erase name) s.1
  refine (hy (K.put ((K.map s.1).erase name) s.1, s.2) opened rfl ?_).mono
    fun _ s₁ ⟨hn, h₁⟩ => ⟨?_, ?_⟩
  · obtain ⟨own, hh, he⟩ := hs
    refine ⟨own, ?_, he⟩
    rw [Holds, opened]
    exact hh
  · rw [K.same hn, K.map_put]
  · refine h₁.mono fun p hp => ⟨hp.1, ?_⟩
    rw [hn.held_eq, K.held_eq, K.map_put, K.rest_put]
    refine NameMap.mem_update (r := none) (K.held_eq s.1 ▸ hg hp.1) fun a ha he => hp.2 ?_
    obtain rfl := Option.some.inj (hold.symm.trans ha)
    exact he

end Kind

theorem setDatabase_settled {r : Option Nat} (hs : Accounted g s)
    (hg : g ⊆ joined whole s.1.held r) (hsound : Sound s) :
    After (setDatabase name r) s fun _ s' =>
      s'.1.databases = s.1.databases.update name r ∧ Settled g s' := by
  unfold setDatabase
  refine After.bind_iff.2 (After.get_iff.2 ?_)
  dsimp only
  split
  · next old hold =>
    exact databaseKind.replace_settled hg hold (releaseDatabase_leaves hs hsound)
  · next hnone => exact databaseKind.update_settled hs hg fun a ha => absurd ha (hnone a)

theorem setStatement_settled {r : Option StatementRef} (hs : Accounted g s)
    (hg : g ⊆ joined StatementRef.part s.1.held r) :
    After (setStatement name r) s fun _ s' =>
      s'.1.statements = s.1.statements.update name r ∧ Settled g s' := by
  unfold setStatement
  refine After.bind_iff.2 (After.get_iff.2 ?_)
  dsimp only
  split
  · next old hold => exact statementKind.replace_settled hg hold (releaseStatement_leaves hs)
  · next hnone => exact statementKind.update_settled hs hg fun a ha => absurd ha (hnone a)

theorem setCursor_settled {r : Option CursorRef} (hs : Accounted g s)
    (hg : g ⊆ joined CursorRef.part s.1.held r) :
    After (setCursor name r) s fun _ s' =>
      s'.1.cursors = s.1.cursors.update name r ∧ Settled g s' := by
  unfold setCursor
  refine After.bind_iff.2 (After.get_iff.2 ?_)
  dsimp only
  split
  · next old hold => exact cursorKind.replace_settled hg hold (releaseCursor_leaves hs)
  · next hnone => exact cursorKind.update_settled hs hg fun a ha => absurd ha (hnone a)

/-- Handles of transactions and parameters hold nothing that can be open. -/
theorem modify_leaves {f : Session → Session} (hs : Accounted g s)
    (hf : ∀ s, (f s).opened = s.opened) (hn : ∀ s, SameHandles s (f s)) :
    Leaves (modify f) s fun _ => g := by
  obtain ⟨own, hh, he⟩ := hs
  refine After.modify_iff.2 ⟨hn s.1, own, ?_, he⟩
  rw [Holds, hf]
  exact hh

theorem Leaves.settled {x : SessionM α} (h : Leaves x s fun _ => g) (hg : g ⊆ s.1.held) :
    After x s fun _ s' => Settled g s' :=
  h.mono fun _ _ ⟨hn, hs⟩ => hs.mono (Set.subset_inter subset_rfl (hn.held_eq ▸ hg))

theorem setTransaction_leaves {r : Option TransactionRef} (hs : Accounted g s) :
    Leaves (setTransaction name r) s fun _ => g := by
  have put {s : Session × World} (hs : Accounted g s) :
      Leaves (modify fun s => { s with transactions := s.transactions.update name r }) s
        fun _ => g :=
    modify_leaves hs (fun _ => rfl) fun _ => ⟨rfl, rfl, rfl⟩
  unfold setTransaction
  refine After.bind_iff.2 (After.get_iff.2 ?_)
  dsimp only
  split
  · exact (releaseTransaction_leaves hs).bind fun _ _ h => put h
  · exact put hs

theorem eraseTransaction_leaves (hs : Accounted g s) :
    Leaves (modify fun s => { s with transactions := s.transactions.erase name }) s fun _ => g :=
  modify_leaves hs (fun _ => rfl) fun _ => ⟨rfl, rfl, rfl⟩

theorem eraseParameter_leaves (hs : Accounted g s) :
    Leaves (modify fun s => { s with parameters := s.parameters.erase name }) s fun _ => g :=
  modify_leaves hs (fun _ => rfl) fun _ => ⟨rfl, rfl, rfl⟩

theorem setParameter_leaves {r : Option ParameterRef} (hs : Accounted g s) :
    Leaves (setParameter name r) s fun _ => g :=
  modify_leaves hs (fun _ => rfl) fun _ => ⟨rfl, rfl, rfl⟩

/-! ## Work on what a handle holds -/

section Work

variable {g' : Except Fault α → Set (Nat × Part)} (hs : Accounted g s)
  (hg : ∀ f, g ⊆ g' (.error f))
include hs hg

theorem withDatabase_leaves {y : Nat → Op Database α} (hy : ∀ n, Leaves (attemptOn n (y n)) s g') :
    Leaves (withDatabase name y) s g' :=
  withDatabase_cases (fun _ => ⟨.refl, hs.mono (hg _)⟩) fun r _ => hy r

theorem withTransaction_leaves {y : TransactionRef → Op Database α}
    (hy : ∀ r, Leaves (attemptOn r.database (y r)) s g') :
    Leaves (withTransaction name y) s g' :=
  withTransaction_cases (fun _ => ⟨.refl, hs.mono (hg _)⟩) fun r _ => hy r

theorem withStatement_leaves {y : StatementRef → Op Database α}
    (hy : ∀ r, Leaves (attemptOn r.database (y r)) s g') : Leaves (withStatement name y) s g' :=
  withStatement_cases (fun _ => ⟨.refl, hs.mono (hg _)⟩) fun r _ => hy r

end Work

/-- An operation on a database that opens nothing. -/
theorem attemptOn_stays {y : Op Database α} (hs : Accounted g s)
    (hy : ∀ g l o x d, Backed (Database.Keeps g l o) x (d, s.2) → (o → Connected l.connection x) →
      After y.run (d, s.2) fun _ s' => Backed (Database.Keeps g l o) x s') :
    Leaves (attemptOn n y) s fun _ => g :=
  onDatabase_stays hs hy

/-- What an operation on a database opens is known by its answer. -/
theorem result_joined {y : Op Database β} {f : β → α} {part : α → Nat × Part} {part' : β → Part}
    {d : Database} {w : World} {l : Link} {o : Bool} {x : Multiset Asset}
    (hpart : ∀ b, part (f b) = (n, part' b))
    (hy : After y.run (d, w) fun r s' =>
      Backed (Database.Keeps (joined part' (within n g) r.toOption) l o) x s') :
    After (do return f (← y) : Op Database α).run (d, w) fun r s' =>
      Backed (Database.Keeps (within n (joined part g r.toOption)) l o) x s' := by
  refine After.try_seq hy (fun b s' h => After.try_pure_iff.2 ?_) fun _ _ h => h
  refine h.mono fun _ hk => hk.mono ?_
  rintro p (rfl | hp)
  · exact .inl (hpart b).symm
  · exact .inr hp

/-- Work on an open statement that opens nothing. -/
theorem onStatement_stays {k : Nat} {y : Link → Op Statement α} (hs : Accounted g s)
    (hy : ∀ l R x z, Connected l.connection x → Backed (Statement.Works l true R) x (z, s.2) →
      After (y l).run (z, s.2) fun _ s' => Backed (Statement.Works l true R) x s') :
    Leaves (attemptOn n (Database.onStatement k y)) s fun _ => g :=
  attemptOn_stays hs fun g l _ _ _ hd hc => Database.onStatement_keeps (q := fun _ => g) hd hc
    (fun _ => subset_rfl) fun z x => hy l _ x z

theorem onParameter_leaves {y : Parameter → Link → Op Statement Unit} (hs : Accounted g s)
    (hy : ∀ p l R x z, Connected l.connection x → Backed (Statement.Works l true R) x (z, s.2) →
      After (y p l).run (z, s.2) fun _ s' => Backed (Statement.Works l true R) x s') :
    Leaves (onParameter name y) s fun _ => g :=
  onParameter_cases (fun _ => ⟨.refl, hs⟩) fun r _ => onStatement_stays hs (hy r.parameter)

theorem seek_leaves {offset : Int64} (hs : Accounted g s) :
    Leaves (onCursor name fun n => Statement.seek n offset) s fun _ => g := by
  refine onCursor_cases (fun _ => ⟨.refl, hs⟩) fun _ _ _ => attemptOn_stays hs ?_
  intro g l o x d hd hc
  refine Database.atStatement_keeps (q := fun _ => g) hd hc (fun _ _ hp _ => hp) ?_
  exact fun _ _ _ hc hz => Statement.seek_holds (hc ·.1) hz

/-- Running a statement for a cursor opens that. -/
theorem runForCursor_leaves {writes : Bool} {y : Link → Op Statement Nat} (hs : Accounted g s)
    (hy : ∀ l R x z w, Connected l.connection x → Backed (Statement.Works l true R) x (z, w) →
      After (y l).run (z, w) fun r s' =>
        Backed (Statement.Works l true (Statement.Answers R r)) x s') :
    Leaves (runForCursor name writes y) s fun r => joined CursorRef.part g r.toOption := by
  refine withStatement_leaves hs (fun _ => subset_rfl) fun r => onDatabase_keeps hs
    (fun _ p hp _ => subset_joined _ hp) fun d l o x hd hc => ?_
  refine After.try_seq Database.checkRunnable_after ?_ ?_
  · rintro _ _ ⟨rfl, -⟩
    refine result_joined (fun _ => rfl) <| Database.onStatement_keeps hd hc
      (fun _ => subset_joined _) fun z x hc hz => ?_
    refine (hy l _ x z _ hc hz).backed fun a _ _ hw => hw.mono fun m _ hm => ?_
    cases a with
    | ok m' => exact .inl (congrArg _ hm)
    | error f => exact hm
  · rintro _ _ ⟨rfl, -⟩
    exact hd

/-! ## Databases -/

section GivingUp

variable (hs : Accounted g s) (hg : g ⊆ s.1.held)
include hs hg

theorem closeDatabase_settled (hsound : Sound s) :
    After (closeDatabase name) s fun _ s' =>
      s'.1.databases.find? name = none ∧ Settled g s' := by
  unfold closeDatabase
  refine After.bind_iff.2 (After.get_iff.2 ?_)
  split
  · next hnone => exact After.pure_iff.2 ⟨hnone, hs.mono (Set.subset_inter subset_rfl hg)⟩
  · next n hn =>
    refine (databaseKind.close_settled hs hg hn fun s' ho hw h => close_leaves h ?_).mono
      fun _ s' ⟨hm, h⟩ => ⟨?_, h⟩
    · exact hsound.change (A := fun _ _ => True) (.handles ho (congrArg _ hw))
    · rw [show s'.1.databases = _ from hm, NameMap.find?_erase, if_pos rfl]

/-- A database that was opened is held by its handle. -/
theorem establish_settled {dsn : Bytes} {options : Options}
    (hname : s.1.databases.find? name = none) :
    After (establish name dsn options) s fun r s' => match r with
      | .ok _ => Settled Set.univ s'
      | .error _ => Settled g s' := by
  obtain ⟨own, hh, he⟩ := hs
  have hx : Grounded own := Table.Sums.grounded hh fun _ _ _ h => h.grounded
  refine After.bind_iff.2 <| After.get_iff.2 <| After.bind_iff.2 <| After.lift_iff.2 <|
    (Database.connect_holds (he.of_eq (add_zero own)) hx).mono fun r w h => ?_
  cases r with
  | error f =>
    exact After.pure_iff.2 ⟨own, Holds.mono hh (Set.subset_inter subset_rfl hg),
      (add_zero own).symm ▸ h⟩
  | ok d =>
    obtain ⟨o, hd, he₁⟩ := h
    have hheld : joined whole s.1.held (some s.1.opened.next) ⊆ Set.univ ∩ ({ s.1 with
        opened := s.1.opened.add d
        databases := s.1.databases.insert name s.1.opened.next } : Session).held := by
      intro p hp
      rw [databaseKind.held_eq] at hp ⊢
      exact ⟨trivial, NameMap.mem_update (m := s.1.databases) hp fun old ho => by
        cases hname.symm.trans ho⟩
    refine After.bind_iff.2 <| After.modify_iff.2 <| After.pure_iff.2 ⟨o + own, ?_,
      he₁.of_eq (add_zero _).symm⟩
    refine Table.Sums.add (Holds.mono hh (hg.trans ((subset_joined _).trans hheld)))
      (hd.restrict ?_)
    rintro _ ⟨⟩ -
    exact hheld (Set.mem_insert _ _)

theorem connect_settled {dsn : Option Bytes} {options : Options} (hsound : Sound s) :
    After (connect name dsn options) s fun r s' => match r with
      | .ok _ => Settled Set.univ s'
      | .error _ => Settled g s' := by
  unfold connect
  cases dsn with
  | none => exact After.pure_iff.2 (hs.mono (Set.subset_inter subset_rfl hg))
  | some dsn =>
    refine After.seq (closeDatabase_settled hs hg hsound) fun r s₁ ⟨hname, h₁⟩ => ?_
    cases r with
    | error f => exact After.pure_iff.2 h₁
    | ok _ =>
      refine (establish_settled h₁ Set.inter_subset_right hname).mono fun r _ h => ?_
      cases r with
      | ok _ => exact h
      | error f => exact h.mono Set.inter_subset_left

/-! ## Giving up handles -/

theorem closeHandle_settled {h : HandleName} (hsound : Sound s) :
    After (close h) s fun _ s' => Settled g s' := by
  have settled : Settled g s := hs.mono (Set.subset_inter subset_rfl hg)
  cases h with
  | database name => exact (closeDatabase_settled hs hg hsound).mono fun _ _ h => h.2
  | statement name =>
    refine After.bind_iff.2 (After.get_iff.2 ?_)
    split
    · exact After.pure_iff.2 settled
    · next r hr =>
      exact (statementKind.close_settled hs hg hr fun _ _ _ => closeStatement_leaves).mono
        fun _ _ h => h.2
  | cursor name =>
    refine After.bind_iff.2 (After.get_iff.2 ?_)
    split
    · exact After.pure_iff.2 settled
    · next r hr =>
      exact (cursorKind.close_settled hs hg hr fun _ _ _ => closeCursorOf_leaves).mono
        fun _ _ h => h.2
  | transaction name | parameter name => exact After.pure_iff.2 settled

theorem drop_settled {h : HandleName} (hsound : Sound s) :
    After (drop h) s fun _ s' => Settled g s' := by
  cases h with
  | database name => exact (setDatabase_settled (r := none) hs hg hsound).mono fun _ _ h => h.2
  | transaction name =>
    refine After.bind_iff.2 (After.get_iff.2 ?_)
    dsimp only
    split
    · exact ((abandonTransaction_leaves hs).bind fun _ _ h =>
        eraseTransaction_leaves h).settled hg
    · exact (eraseTransaction_leaves hs).settled hg
  | statement name => exact (setStatement_settled (r := none) hs hg).mono fun _ _ h => h.2
  | parameter name => exact (setParameter_leaves hs).settled hg
  | cursor name => exact (setCursor_settled (r := none) hs hg).mono fun _ _ h => h.2

theorem move_settled {h : HandleName} (hsound : Sound s) :
    After (move h target) s fun _ s' => Settled g s' := by
  have settled : Settled g s := hs.mono (Set.subset_inter subset_rfl hg)
  unfold move
  refine After.bind_iff.2 (After.get_iff.2 ?_)
  cases h with
  | database name =>
    dsimp only
    split
    · next hne =>
      exact databaseKind.move_settled hne
        (setDatabase_settled hs (hg.trans (subset_joined _)) hsound)
    · exact After.pure_iff.2 settled
  | transaction name =>
    dsimp only
    split
    · exact ((setTransaction_leaves hs).bind fun _ _ h => eraseTransaction_leaves h).settled hg
    · exact After.pure_iff.2 settled
  | statement name =>
    dsimp only
    split
    · next hne =>
      exact statementKind.move_settled hne
        (setStatement_settled hs (hg.trans (subset_joined _)))
    · exact After.pure_iff.2 settled
  | parameter name =>
    dsimp only
    split
    · exact ((setParameter_leaves hs).bind fun _ _ h => eraseParameter_leaves h).settled hg
    · exact After.pure_iff.2 settled
  | cursor name =>
    dsimp only
    split
    · next hne =>
      exact cursorKind.move_settled hne (setCursor_settled hs (hg.trans (subset_joined _)))
    · exact After.pure_iff.2 settled

end GivingUp

/-! ## Steps -/

/-- What may be open after a reply, where nothing is opened if that is a failure. -/
def admitted (g : Set (Nat × Part)) (a : Reply) : Set (Nat × Part) := {p | a.fault.isSome → p ∈ g}

theorem subset_admitted {a : Reply} : g ⊆ admitted g a := fun _ hp _ => hp

theorem joined_subset_admitted {part : α → Nat × Part} {r : Except Fault α} :
    joined part g r.toOption ⊆ admitted g (.plain r) := by
  cases r with
  | ok a => exact fun _ _ h => nomatch h
  | error f => exact subset_admitted

section Steps

variable (hs : Accounted g s) (hg : g ⊆ s.1.held)
include hg

/-- What an operation opened is held by the handle that it is put into. -/
theorem deliver_settled {part : α → Nat × Part} {y : SessionM (Except Fault α)}
    {put : Option α → SessionM Unit} (hy : Leaves y s fun r => joined part g r.toOption)
    (hput : ∀ r s', Accounted (joined part g r) s' → joined part g r ⊆ joined part s'.1.held r →
      After (put r) s' fun _ s'' => Settled (joined part g r) s'') :
    After (do deliver put (← y)) s fun a s' => Settled (admitted g a) s' := by
  refine After.seq hy fun r s₁ ⟨hn, h₁⟩ => After.seq (hput r.toOption s₁ h₁ ?_)
    fun _ _ h₂ => After.pure_iff.2 (h₂.mono joined_subset_admitted)
  rw [hn.held_eq]
  exact joined_mono hg

/-- A result that can not be open is put into its handle. -/
theorem deliver_leaves {y : SessionM (Except Fault α)} {put : Option α → SessionM Unit}
    (hy : Leaves y s fun _ => g)
    (hput : ∀ r s', Accounted g s' → Leaves (put r) s' fun _ => g) :
    After (do deliver put (← y)) s fun a s' => Settled (admitted g a) s' :=
  ((hy.bind fun r s₁ h₁ => (hput r.toOption s₁ h₁).bind fun _ _ h₂ => leaves_pure h₂).settled
    hg).mono fun _ _ h => h.mono subset_admitted

include hs

/-- After every step everything is accounted for, and one that failed has opened nothing. -/
theorem carryOut_settled {x : Step} (hsound : Sound s) :
    After (carryOut x) s fun a s' => Settled (admitted g a) s' := by
  have settled {α : Type} {y : SessionM α} {f : α → Reply}
      (hy : After y s fun _ s' => Settled g s') :
      After (do return f (← y) : SessionM Reply) s fun a s' => Settled (admitted g a) s' :=
    After.seq hy fun _ _ h => After.pure_iff.2 (h.mono subset_admitted)
  have inTransaction {α : Type} {name : Bytes} {y : TransactionRef → Op Database α}
      (hy : ∀ r g l o x d, Backed (Database.Keeps g l o) x (d, s.2) →
        (o → Connected l.connection x) →
        After (y r).run (d, s.2) fun _ s' => Backed (Database.Keeps g l o) x s') :
      Leaves (withTransaction name y) s fun _ => g :=
    withTransaction_leaves hs (fun _ => subset_rfl) fun r => attemptOn_stays hs (hy r)
  have result {α β : Type} {y : Op Database α} {f : α → β} {a : Database × World}
      {I : Database × World → Prop} (hy : After y.run a fun _ s' => I s') :
      After (do return f (← y) : Op Database β).run a fun _ s' => I s' :=
    After.try_keep hy fun _ _ h => After.try_pure_iff.2 h
  have onStatement {name : Bytes} {y : Link → Op Statement Unit}
      (hy : ∀ l R x z, Connected l.connection x → Backed (Statement.Works l true R) x (z, s.2) →
        After (y l).run (z, s.2) fun _ s' => Backed (Statement.Works l true R) x s') :
      Leaves (onStatement name y) s fun _ => g :=
    withStatement_leaves hs (fun _ => subset_rfl) fun _ => onStatement_stays hs hy
  have execute {name : Bytes} : Leaves (execute name) s fun _ => g :=
    withStatement_leaves hs (fun _ => subset_rfl) fun _ => attemptOn_stays hs
      fun _ _ _ _ _ hd hc => Database.executeStatement_keeps hd hc
  have look {f : Session → Reply} : After (do return f (← getThe Session) : SessionM Reply) s
      fun a s' => Settled (admitted g a) s' :=
    After.bind_iff.2 <| After.get_iff.2 <| After.pure_iff.2 <|
      hs.mono (Set.subset_inter subset_admitted hg)
  cases x with
  | connect name dsn options =>
    refine After.seq (connect_settled hs hg hsound) fun r _ h => After.pure_iff.2 ?_
    cases r with
    | ok _ => exact h.mono fun _ _ hf => nomatch hf
    | error f => exact h.mono subset_admitted
  | begin name target =>
    refine deliver_leaves hg ?_ fun _ _ h => setTransaction_leaves h
    exact withDatabase_leaves hs (fun _ => subset_rfl) fun _ => attemptOn_stays hs
      fun _ _ _ _ _ hd hc => result (Database.begin_keeps hd hc)
  | nest name target =>
    refine deliver_leaves hg ?_ fun _ _ h => setTransaction_leaves h
    exact inTransaction fun _ _ _ _ _ _ hd hc => result (Database.nest_keeps hd hc)
  | commit name =>
    exact settled <| Leaves.settled (inTransaction fun _ _ _ _ _ _ hd hc =>
      Database.commit_keeps hd hc) hg
  | rollback name =>
    exact settled <| Leaves.settled (inTransaction fun _ _ _ _ _ _ hd hc =>
      Database.rollback_keeps hd hc) hg
  | rollbackThrough name =>
    refine settled <| After.bind_iff.2 <| After.get_iff.2 ?_
    split
    · exact Leaves.settled (leaves_pure hs) hg
    · exact (rollbackThrough_leaves hs).settled hg
  | executeOnce name query =>
    exact settled <| Leaves.settled (inTransaction fun _ _ _ _ _ _ hd hc =>
      Database.executeOnce_keeps hd hc) hg
  | prepare name query target =>
    refine deliver_settled hg ?_ fun _ _ h hg' => (setStatement_settled h hg').mono fun _ _ h => h.2
    exact withDatabase_leaves hs (fun _ => subset_rfl) fun _ => onDatabase_keeps hs
      (fun _ _ hp _ => subset_joined _ hp) fun _ _ _ _ hd hc =>
        result_joined (fun _ => rfl) (Database.prepare_keeps hd hc)
  | prepareIn name query target =>
    refine deliver_settled hg ?_ fun _ _ h hg' => (setStatement_settled h hg').mono fun _ _ h => h.2
    exact withTransaction_leaves hs (fun _ => subset_rfl) fun _ => onDatabase_keeps hs
      (fun _ _ hp _ => subset_joined _ hp) fun _ _ _ _ hd hc =>
        result_joined (fun _ => rfl) (Database.prepare_keeps hd hc)
  | bind name p v =>
    exact settled <| Leaves.settled (onStatement fun _ _ _ _ => Statement.bind_works) hg
  | bindList name p vs =>
    exact settled <| Leaves.settled (onStatement fun _ _ _ _ => Statement.bindList_works) hg
  | resolve name p target =>
    refine deliver_leaves hg ?_ fun _ _ h => setParameter_leaves h
    refine withStatement_leaves hs (fun _ => subset_rfl) fun _ => attemptOn_stays hs
      fun g _ _ _ _ hd hc => result <| Database.onStatement_keeps (q := fun _ => g) hd hc
        (fun _ => subset_rfl) fun _ _ _ hz => ?_
    exact Statement.parameter_same.mono fun _ _ h => h ▸ hz
  | assign name v =>
    exact settled <| (onParameter_leaves hs fun _ _ _ _ _ => Statement.assign_works).settled hg
  | assignList name vs =>
    exact settled <| (onParameter_leaves hs fun _ _ _ _ _ => Statement.assignList_works).settled hg
  | query name target =>
    refine deliver_settled hg ?_ fun _ _ h hg' => (setCursor_settled h hg').mono fun _ _ h => h.2
    exact runForCursor_leaves hs fun _ _ _ _ _ => Statement.query_works
  | insert name target =>
    refine deliver_settled hg ?_ fun _ _ h hg' => (setCursor_settled h hg').mono fun _ _ h => h.2
    exact runForCursor_leaves hs fun _ _ _ _ _ => Statement.insert_works
  | update name | execute name => exact settled (execute.settled hg)
  | seek name offset => exact settled ((seek_leaves hs).settled hg)
  | read name column type ifNull => exact look
  | hasColumn name column => exact look
  | inspect h => exact look
  | close h => exact settled (closeHandle_settled hs hg hsound)
  | drop h => exact settled (drop_settled hs hg hsound)
  | move h target => exact settled (move_settled hs hg hsound)

end Steps

theorem step_settled {x : Step} (hs : Accounted g s) (hg : g ⊆ s.1.held) (hsound : Sound s) :
    After (step x) s fun a s' => Settled (admitted g a.toReply) s' :=
  carryOut_settled hs hg hsound

/-- At any time the engine has handed out what the session holds, and what is open is held by a
handle. -/
theorem Reachable.accounted (hr : Reachable s) : Accounted s.1.held s := by
  induction hr with
  | start => exact ⟨0, .nil, Outline.Carries.start⟩
  | @step s x hr ih =>
    have h : Settled _ (after x s) := step_settled ih subset_rfl hr.sound
    exact Accounted.mono h Set.inter_subset_right

/-- A step that failed has opened nothing. -/
theorem hasOpen_of_failure (hr : Reachable s) {x : Step}
    (hf : (outcome (step x) s).1.fault.isSome) {p : Nat × Part} (hp : (after x s).1.HasOpen p) :
    s.1.HasOpen p := by
  have hs : Accounted (s.1.held ∩ {p | s.1.HasOpen p}) s :=
    Backed.mono hr.accounted fun _ h => h.restrict fun p hp ho => ⟨hp, ho⟩
  have h : Settled _ (after x s) := step_settled (x := x) hs Set.inter_subset_left hr.sound
  exact (Accounted.of_hasOpen h hp).1 hf |>.2

end Session

end SqlAccess
