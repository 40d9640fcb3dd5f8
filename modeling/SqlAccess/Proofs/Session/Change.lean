import SqlAccess.Proofs.Database.Life
import SqlAccess.Proofs.Database.Operations
import SqlAccess.Proofs.Opening
import SqlAccess.Session

/-!
# What can happen to a session

`Session.Change A` lists what the operations on a session do to it, where `A` says of which
databases statements may be run. Each keeps the session `Session.Sound`: databases have connections
of their own, no statement was made on two of them, and every database is sound. So each database
lives on through whatever the session does (`Leads.life`), and a database that is there now was
opened with nothing in it and has lived since (`Lived`).
-/

namespace SqlAccess.Session

/-- One thing that happens to a session. -/
inductive Change (A : Nat → Database → Prop) (s s' : Session × World) : Prop
  /-- Handles are changed, or the log. -/
  | handles : s'.1.opened = s.1.opened → s'.2.engine = s.2.engine → Change A s s'
  /-- A database is changed. -/
  | changed {n : Nat} {d d' : Database} : s.1.opened.find? n = some d →
      Database.Leads (A n) (d, s.2) (d', s'.2) →
      s'.1.opened = s.1.opened.modify n (fun _ => d') → Change A s s'
  /-- A database cannot be opened. -/
  | failed : Opens s.2.engine.connections.next s.2.engine s'.2.engine →
      s'.1.opened = s.1.opened → Change A s s'
  /-- A database is opened. -/
  | opened {l : Link} : Opens s.2.engine.connections.next s.2.engine s'.2.engine →
      (∀ c, l.connection = some c →
        c = s.2.engine.connections.next ∧ c < s'.2.engine.connections.next) →
      s'.1.opened = s.1.opened.add { link := l } → Change A s s'

/-- One thing after another happens to a session. -/
abbrev Leads (A : Nat → Database → Prop) : Session × World → Session × World → Prop :=
  Relation.ReflTransGen (Change A)

/-- What holds of a session at any time. -/
structure Sound (s : Session × World) : Prop where
  numbered : s.2.engine.Numbered
  called : s.2.engine.Called
  /-- Databases are on connections that were made. -/
  connection : ∀ n d c, s.1.opened.find? n = some d → d.link.connection = some c →
    c < s.2.engine.connections.next
  /-- No two databases are on one connection. -/
  distinct : ∀ n n' d d' c, s.1.opened.find? n = some d → s.1.opened.find? n' = some d' →
    d.link.connection = some c → d'.link.connection = some c → n = n'
  database : ∀ n d, s.1.opened.find? n = some d → d.Sound s.2.engine.history

variable {A : Nat → Database → Prop} {s s' : Session × World}

theorem statement?_eq_some {n k : Nat} {z : Statement} :
    s.1.statement? n k = some z ↔
      ∃ d, s.1.opened.find? n = some d ∧ d.statements.find? k = some z := by
  simp [statement?, Option.bind_eq_some_iff]

theorem Change.suffix (hc : Change A s s') :
    s.2.engine.history <:+ s'.2.engine.history := by
  cases hc with
  | handles _ he => exact he ▸ List.suffix_refl _
  | changed _ hl _ => exact (Database.Path.on hl.path).suffix
  | failed ho _ | opened ho _ _ => exact ho.grown.suffix

/-- Setting up a connection has nothing to do with a database that was there before. -/
theorem Sound.setup_foreign (hs : Sound s) {h : History} {n : Nat} {d : Database}
    (hd : s.1.opened.find? n = some d)
    (hg : Grown (Setup s.2.engine.connections.next) s.2.engine.history h) :
    Grown (Foreign d.link.connection) s.2.engine.history h := by
  refine hg.mono fun past e he c hc => ⟨fun hce => ?_, fun k hk => ?_⟩
  · have := he.2.1 c hce
    have := hs.connection n d c hd hc
    omega
  · have := he.1
    cases hcall : e.call <;> simp_all [Call.runs?, Call.statement?]

/-- What happens to a session happens to each of its databases. -/
theorem Sound.happens (hs : Sound s) (hs' : s'.2.engine.Numbered) (hc : Change A s s') {n : Nat}
    {d : Database} (hd : s.1.opened.find? n = some d) :
    ∃ d', s'.1.opened.find? n = some d' ∧
      Database.Life (A n) (d, s.2.engine.history) (d', s'.2.engine.history) := by
  cases hc with
  | handles ho he =>
    rw [ho, he]
    exact ⟨d, hd, .refl⟩
  | @changed m d₁ d₂ hm hl ho =>
    rw [ho]
    by_cases hn : n = m
    · subst hn
      obtain rfl : d = d₁ := Option.some.inj (hd.symm.trans hm)
      exact ⟨d₂, Table.find?_modify_eq_some.2 (.inl ⟨rfl, d, hd, rfl⟩), hl.path.life⟩
    · refine ⟨d, Table.find?_modify_eq_some.2 (.inr ⟨hn, hd⟩), .single (.elsewhere ?_)⟩
      refine (Database.Path.on hl.path).foreign (fun c hc hc' => hn ?_) hs'.unique
      exact hs.distinct n m d d₁ c hd hm hc hc'
  | failed hop ho =>
    rw [ho]
    exact ⟨d, hd, .single (.elsewhere (hs.setup_foreign hd hop.grown))⟩
  | opened hop _ ho =>
    rw [ho]
    exact ⟨d, Table.find?_add_eq_some.2 (.inr hd),
      .single (.elsewhere (hs.setup_foreign hd hop.grown))⟩

theorem Change.numbered (hc : Change A s s') (hn : s.2.engine.Numbered) :
    s'.2.engine.Numbered := by
  cases hc with
  | handles _ he => exact he ▸ hn
  | changed _ hl _ => exact hl.keeps.numbered hn
  | failed ho _ | opened ho _ _ => exact ho.numbered hn

/-- A database was there before on the same connection, or is opened just now on a new one. -/
theorem Change.origin (hc : Change A s s') {n : Nat} {d' : Database}
    (hd' : s'.1.opened.find? n = some d') :
    (∃ d, s.1.opened.find? n = some d ∧ d.link = d'.link) ∨
      (n = s.1.opened.next ∧ (∃ l, d' = { link := l }) ∧
        Grown (Setup s.2.engine.connections.next) s.2.engine.history s'.2.engine.history ∧
        ∀ c, d'.link.connection = some c →
          c = s.2.engine.connections.next ∧ c < s'.2.engine.connections.next) := by
  cases hc with
  | handles ho _ | failed _ ho =>
    rw [ho] at hd'
    exact .inl ⟨d', hd', rfl⟩
  | @changed m d₁ d₂ hm hl ho =>
    rw [ho] at hd'
    obtain ⟨rfl, d, hd, rfl⟩ | ⟨-, hd⟩ := Table.find?_modify_eq_some.1 hd'
    · exact .inl ⟨d₁, hm, (Database.Path.link hl.path).symm⟩
    · exact .inl ⟨d', hd, rfl⟩
  | @opened l hop hc ho =>
    rw [ho] at hd'
    obtain ⟨rfl, rfl⟩ | hd := Table.find?_add_eq_some.1 hd'
    · exact .inr ⟨rfl, ⟨l, rfl⟩, hop.grown, hc⟩
    · exact .inl ⟨d', hd, rfl⟩

theorem Change.next (hc : Change A s s') :
    s.2.engine.connections.next ≤ s'.2.engine.connections.next := by
  cases hc with
  | handles _ he => exact Nat.le_of_eq (congrArg (·.connections.next) he.symm)
  | changed _ hl _ => exact Nat.le_of_eq hl.keeps.next.symm
  | failed ho _ | opened ho _ _ => exact ho.next

theorem Sound.called_change (hs : Sound s) (hc : Change A s s') : s'.2.engine.Called := by
  cases hc with
  | handles _ he => exact he ▸ hs.called
  | failed ho _ | opened ho _ _ => exact ho.called hs.called
  | @changed m d₁ d₂ hm hl ho =>
    have hlt (c : Nat) (hc : d₁.link.connection = some c) := hs.connection m d₁ c hm hc
    unfold Engine.Called
    rw [hl.keeps.next]
    have hg := Database.Path.on hl.path
    dsimp only at hg
    generalize s'.2.engine.history = h' at hg
    induction hg with
    | refl => exact hs.called
    | call _ he ih =>
      intro ev hev c hc
      obtain rfl | hev := List.mem_cons.1 hev
      · exact hlt c (he.1 c hc)
      · exact ih ev hev c hc

theorem Sound.change (hs : Sound s) (hc : Change A s s') : Sound s' := by
  have hnum := hc.numbered hs.numbered
  refine ⟨hnum, hs.called_change hc, fun n d c hd hdc => ?_, fun n n' d d' c hd hd' hdc hdc' => ?_,
    fun n d hd => ?_⟩
  · obtain ⟨d₀, hd₀, hl⟩ | ⟨-, -, -, hnew⟩ := hc.origin hd
    · exact Nat.lt_of_lt_of_le (hs.connection n d₀ c hd₀ (hl ▸ hdc)) hc.next
    · exact (hnew c hdc).2
  · obtain ⟨d₀, hd₀, hl⟩ | ⟨hn, -, -, hnew⟩ := hc.origin hd <;>
      obtain ⟨d₀', hd₀', hl'⟩ | ⟨hn', -, -, hnew'⟩ := hc.origin hd'
    · exact hs.distinct n n' d₀ d₀' c hd₀ hd₀' (hl ▸ hdc) (hl' ▸ hdc')
    · have := hs.connection n d₀ c hd₀ (hl ▸ hdc)
      have := (hnew' c hdc').1
      omega
    · have := hs.connection n' d₀' c hd₀' (hl' ▸ hdc')
      have := (hnew c hdc).1
      omega
    · exact hn.trans hn'.symm
  · obtain ⟨d₀, hd₀, -⟩ | ⟨-, ⟨l, rfl⟩, -⟩ := hc.origin hd
    · obtain ⟨d', hd', hlife⟩ := hs.happens hnum hc hd₀
      obtain rfl : d = d' := Option.some.inj (hd.symm.trans hd')
      exact hlife.sound (hs.database n d₀ hd₀)
    · exact .opened

namespace Leads

theorem sound (hl : Leads A s s') (hs : Sound s) : Sound s' := by
  induction hl with
  | refl => exact hs
  | tail _ hc ih => exact ih.change hc

/-- Every database lives on. -/
theorem life (hl : Leads A s s') (hs : Sound s) {n : Nat} {d : Database}
    (hd : s.1.opened.find? n = some d) : ∃ d', s'.1.opened.find? n = some d' ∧
      Database.Life (A n) (d, s.2.engine.history) (d', s'.2.engine.history) := by
  induction hl with
  | refl => exact ⟨d, hd, .refl⟩
  | tail hl hc ih =>
    obtain ⟨d₁, hd₁, hlife⟩ := ih
    have hs₁ := sound hl hs
    obtain ⟨d₂, hd₂, hlife₂⟩ := hs₁.happens (hc.numbered hs₁.numbered) hc hd₁
    exact ⟨d₂, hd₂, hlife.trans hlife₂⟩

end Leads

/-! ## Birth -/

/-- Every database was opened and has lived since. -/
def Lived (s : Session × World) : Prop :=
  ∀ n d, s.1.opened.find? n = some d → ∃ d₀ h₀, d₀.Born h₀ ∧
    Database.Life (fun _ => True) (d₀, h₀) (d, s.2.engine.history)

theorem Lived.change (hl : Lived s) (hs : Sound s) (hc : Change A s s') : Lived s' := by
  intro n d' hd'
  obtain ⟨d, hd, -⟩ | ⟨-, hlink, hg, hnew⟩ := hc.origin hd'
  · obtain ⟨d₁, hd₁, hlife⟩ := hs.happens (hc.numbered hs.numbered) hc hd
    obtain rfl : d' = d₁ := Option.some.inj (hd'.symm.trans hd₁)
    obtain ⟨d₀, h₀, hborn, hlife₀⟩ := hl n d hd
    exact ⟨d₀, h₀, hborn, hlife₀.trans (Database.Life.mono (fun _ _ => trivial) hlife)⟩
  · refine ⟨d', s'.2.engine.history, ⟨hlink, fun c hdc e he hec => ?_⟩, .refl⟩
    obtain he | ⟨past, he⟩ := hg.mem he
    · have := hs.called e he c hec
      have := (hnew c hdc).1
      omega
    · exact he.2.2

theorem Lived.leads (hl : Lived s) (hs : Sound s) (hp : Leads A s s') : Lived s' := by
  induction hp with
  | refl => exact hl
  | tail hp hc ih => exact ih.change (Leads.sound hp hs) hc

end SqlAccess.Session
