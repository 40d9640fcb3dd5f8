import SqlAccess.Proofs.Resources
import SqlAccess.Proofs.Session.Tasks

/-!
# One statement among the others

No two statements, open ones or cursors over generated keys, use the same statement of the engine.
So of all that is done to a session only what is done to one statement can touch what that one uses
(`Session.Owns`, `Session.Task.focus`).
-/

namespace SqlAccess

/-- A statement does not use a statement of the engine. One that is closed uses none any more. -/
def Statement.Off (j : Nat) (z : Statement) : Prop :=
  z.Within (· ≠ j) (fun _ => True) ∨ z.isOpen = false ∧ ∀ m, z.cursors.find? m = none

/-- What is done to a statement that does not use a statement of the engine spares that one. -/
theorem Statement.Off.task {j : Nat} {z : Statement} {w : World} {l : Link} {t : Statement.Task}
    (h : z.Off j) (hj : j < w.engine.statements.next) (ho : t.needsOpen → z.isOpen) :
    w.engine.Spares j (t.after l (z, w)).2.engine ∧ (t.after l (z, w)).1.Off j := by
  obtain h | ⟨hc, hn⟩ := h
  · obtain ⟨he, hz⟩ := Task.spares (t := t) (l := l) (a := (z, w)) hj h
    exact ⟨he, .inl hz⟩
  · have ht : t.needsOpen = false := Bool.eq_false_iff.2 fun ht => by
      rw [ho ht] at hc
      cases hc
    rw [Task.after_of_closed hc hn ht]
    exact ⟨.refl, .inr ⟨hc, hn⟩⟩

namespace Session

variable {A : Nat → Database → Nat → Statement.Task → Prop} {s s' : Session × World}
  {n k j : Nat} {d : Database} {z : Statement}

/-- Of all statements only one may use a statement of the engine. -/
structure Owns (n k j : Nat) (s : Session × World) : Prop where
  next : j < s.2.engine.statements.next
  others : ∀ n' k' z, s.1.statement? n' k' = some z → n' ≠ n ∨ k' ≠ k → z.Off j

/-- What a thing that is done to a session comes to for one statement. -/
structure Focus (A : Database → Nat → Statement.Task → Prop) (n k j : Nat) (d : Database)
    (z : Statement) (s s' : Session × World) : Prop where
  owns : Owns n k j s'
  backend : s'.1.backend = s.1.backend
  /-- It is a task done to the statement, or spares both that and what it uses. -/
  done : ∃ d' z', s'.1.opened.find? n = some d' ∧ d'.statements.find? k = some z' ∧
    d'.link = d.link ∧ (z' = z ∧ s.2.engine.Spares j s'.2.engine ∨
      ∃ t : Statement.Task, (t.needsOpen → z.isOpen) ∧ (t.runs → A d k t) ∧
        (z', s'.2) = t.after d.link (z, s.2))

/-- Whatever is done to a session, one statement stays apart from the others. -/
theorem Task.focus (h : Task A s s') (ho : Owns n k j s) (hd : s.1.opened.find? n = some d)
    (hz : d.statements.find? k = some z) : Focus (A n) n k j d z s s' := by
  -- everything but a task on a statement leaves the statements there are as they are
  have spared (hb : s'.1.backend = s.1.backend) {d' : Database}
      (he : s.2.engine.Spares j s'.2.engine)
      (hd' : s'.1.opened.find? n = some d') (hz' : d'.statements.find? k = some z)
      (hl : d'.link = d.link)
      (hs : ∀ n' k' z', s'.1.statement? n' k' = some z' → n' ≠ n ∨ k' ≠ k → z'.Off j) :
      Focus (A n) n k j d z s s' :=
    ⟨⟨Nat.lt_of_lt_of_le ho.next he.next, hs⟩, hb, d', z, hd', hz', hl, .inl ⟨rfl, he⟩⟩
  obtain ⟨c', w'⟩ := s'
  cases h with
  | handles hb hop he =>
    refine spared hb (he ▸ .refl) (hop ▸ hd) hz rfl fun n' k' z' h => ho.others n' k' z' ?_
    rwa [statement?, ← hop]
  | failed hb he hop =>
    refine spared hb (he.spares ho.next) (hop ▸ hd) hz rfl fun n' k' z' h => ho.others n' k' z' ?_
    rwa [statement?, ← hop]
  | @opened l hb he _ hop =>
    refine spared hb (he.spares ho.next) (hop ▸ Table.find?_add_eq_some.2 (.inr hd)) hz rfl
      fun n' k' z' h hne => ?_
    obtain ⟨d', hd', hz'⟩ := statement?_eq_some.1 h
    rw [hop] at hd'
    obtain ⟨-, rfl⟩ | hd' := Table.find?_add_eq_some.1 hd'
    · cases hz'
    · exact ho.others n' k' z' (statement?_eq_some.2 ⟨d', hd', hz'⟩) hne
  | @changed m d₁ d₂ hb hm ht hop =>
    dsimp only at hb ht hop
    have before {k' : Nat} {z' : Statement} (hz' : d₁.statements.find? k' = some z')
        (hne : m ≠ n ∨ k' ≠ k) : z'.Off j :=
      ho.others m k' z' (statement?_eq_some.2 ⟨d₁, hm, hz'⟩) hne
    -- the statements of the other databases are as they were
    have others (h₂ : ∀ k' z', d₂.statements.find? k' = some z' → m ≠ n ∨ k' ≠ k → z'.Off j)
        (n' k' : Nat) (z' : Statement) (hs : c'.statement? n' k' = some z')
        (hne : n' ≠ n ∨ k' ≠ k) : z'.Off j := by
      obtain ⟨d', hd', hz'⟩ := statement?_eq_some (s := (c', w')).1 hs
      rw [hop] at hd'
      obtain ⟨rfl, -, -, rfl⟩ | ⟨-, hd'⟩ := Table.find?_modify_eq_some.1 hd'
      · exact h₂ k' z' hz' hne
      · exact ho.others n' k' z' (statement?_eq_some.2 ⟨d', hd', hz'⟩) hne
    -- where the statement is now
    have there {y : Statement} (hlink : d₂.link = d₁.link)
        (hmine : m = n → d₂.statements.find? k = some y) (hsame : m ≠ n → y = z) :
        ∃ d', c'.opened.find? n = some d' ∧ d'.statements.find? k = some y ∧
          d'.link = d.link := by
      rw [hop]
      by_cases hn : n = m
      · subst hn
        obtain rfl : d = d₁ := Option.some.inj (hd.symm.trans hm)
        exact ⟨d₂, Table.find?_modify_eq_some.2 (.inl ⟨rfl, d, hd, rfl⟩), hmine rfl, hlink⟩
      · exact ⟨d, Table.find?_modify_eq_some.2 (.inr ⟨hn, hd⟩), hsame (Ne.symm hn) ▸ hz, rfl⟩
    have mine (hn : m = n) : d₁.statements.find? k = some z := by
      subst hn
      obtain rfl : d = d₁ := Option.some.inj (hd.symm.trans hm)
      exact hz
    cases ht with
    | beside hbeside =>
      obtain ⟨d', hd', hz', hl⟩ := there (y := z) hbeside.link
        (fun hn => hbeside.statements ▸ mine hn) fun _ => rfl
      exact spared hb (hbeside.engine.spares ho.next) hd' hz' hl <|
        others fun k' z' hz' => before (hbeside.statements ▸ hz')
    | @added _ _ _ y he hnew _ hcursors =>
      obtain ⟨d', hd', hz', hl⟩ := there (y := z) rfl
        (fun hn => Table.find?_add_eq_some.2 (.inr (mine hn))) fun _ => rfl
      refine spared hb (he.spares ho.next) hd' hz' hl <| others fun k' z' hz' hne => ?_
      obtain ⟨-, rfl⟩ | hz' := Table.find?_add_eq_some.1 hz'
      · refine .inl ⟨fun i hi => ?_, fun m c h hm => ?_, fun _ _ _ => trivial, fun _ _ => trivial⟩
        · exact (hnew i hi).1 ▸ Nat.ne_of_gt ho.next
        · rw [hcursors] at hm
          cases hm
      · exact before hz' hne
    | @worked _ _ k₁ y t hy hopen ht =>
      by_cases hone : m = n ∧ k₁ = k
      · obtain ⟨rfl, rfl⟩ := hone
        obtain rfl : z = y := Option.some.inj ((mine rfl).symm.trans hy)
        obtain rfl : d = d₁ := Option.some.inj (hd.symm.trans hm)
        obtain ⟨d', hd', hz', hl⟩ := there (y := (t.after d.link (z, s.2)).1) rfl
          (fun _ => Table.find?_modify_eq_some.2 (.inl ⟨rfl, z, hy, rfl⟩)) (absurd rfl)
        refine ⟨⟨Nat.lt_of_lt_of_le ho.next
          (Statement.Task.runsOnly (t := t) (l := d.link) (a := (z, s.2))).next,
          others fun k' z' hz' hne => ?_⟩, hb, d', _, hd', hz', hl, .inr ⟨t, hopen, ht, rfl⟩⟩
        obtain ⟨rfl, -⟩ | ⟨-, hz'⟩ := Table.find?_modify_eq_some.1 hz'
        · exact absurd hne (by simp)
        · exact before hz' hne
      · have hne : m ≠ n ∨ k₁ ≠ k := by rwa [not_and_or] at hone
        obtain ⟨he, hoff⟩ := (before hy hne).task (l := d₁.link) ho.next hopen
        obtain ⟨d', hd', hz', hl⟩ := there (y := z) rfl (fun hn =>
          Table.find?_modify_eq_some.2 (.inr ⟨fun hk => hone ⟨hn, hk.symm⟩, mine hn⟩)) fun _ => rfl
        refine spared hb he hd' hz' hl <| others fun k' z' hz' hne' => ?_
        obtain ⟨rfl, -, -, rfl⟩ | ⟨-, hz'⟩ := Table.find?_modify_eq_some.1 hz'
        · exact hoff
        · exact before hz' hne'

/-- What is true of a statement and of the engine, and stays so where both are spared and through
the tasks that are done to the statement, stays so whatever is done to the session. -/
theorem Tasks.focus {J : Statement × World → Prop} (h : Tasks A s s') (ho : Owns n k j s)
    (hd : s.1.opened.find? n = some d) (hz : d.statements.find? k = some z) (hJ : J (z, s.2))
    (hspares : ∀ y w w', J (y, w) → w.engine.Spares j w'.engine → J (y, w'))
    (htask : ∀ d' y w t, d'.link = d.link → d'.statements.find? k = some y →
      (t.needsOpen → y.isOpen) → (t.runs → A n d' k t) → J (y, w) →
        J (t.after d.link (y, w))) :
    Owns n k j s' ∧ s'.1.backend = s.1.backend ∧ ∃ d' z', s'.1.opened.find? n = some d' ∧
      d'.statements.find? k = some z' ∧ d'.link = d.link ∧ J (z', s'.2) := by
  induction h with
  | refl => exact ⟨ho, rfl, d, z, hd, hz, rfl, hJ⟩
  | @tail a b _ hab ih =>
    obtain ⟨ho₁, hb₁, d₁, z₁, hd₁, hz₁, hl₁, hJ₁⟩ := ih
    obtain ⟨ho₂, hb₂, d₂, z₂, hd₂, hz₂, hl₂, hdone⟩ := hab.focus ho₁ hd₁ hz₁
    refine ⟨ho₂, hb₂.trans hb₁, d₂, z₂, hd₂, hz₂, hl₂.trans hl₁, ?_⟩
    obtain ⟨rfl, hspared⟩ | ⟨t, hopen, ht, hafter⟩ := hdone
    · exact hspares _ _ _ hJ₁ hspared
    · rw [hafter, hl₁]
      exact htask d₁ z₁ a.2 t hl₁ hz₁ hopen ht hJ₁

end Session

/-! ## Who uses what -/

section Nodup

variable {α : Type} {weight : α → Multiset Nat}

theorem mem_sum_weights {l : List (Nat × α)} {x : Nat} :
    x ∈ (l.map fun e => weight e.2).sum ↔ ∃ e ∈ l, x ∈ weight e.2 := by
  induction l with
  | nil => simp
  | cons e l ih => simp [ih]

theorem disjoint_weights {l : List (Nat × α)} (h : (l.map fun e => weight e.2).sum.Nodup) :
    (∀ e ∈ l, (weight e.2).Nodup) ∧ l.Pairwise fun e e' => Disjoint (weight e.2) (weight e'.2) := by
  induction l with
  | nil => exact ⟨by simp, .nil⟩
  | cons e l ih =>
    rw [List.map_cons, List.sum_cons, Multiset.nodup_add] at h
    obtain ⟨he, hl, hd⟩ := h
    obtain ⟨hn, hp⟩ := ih hl
    refine ⟨fun e' he' => ?_, .cons (fun e' he' => ?_) hp⟩
    · obtain rfl | he' := List.mem_cons.1 he'
      · exact he
      · exact hn e' he'
    · rw [Multiset.disjoint_left] at hd ⊢
      exact fun hx hx' => hd hx (mem_sum_weights.2 ⟨e', he', hx'⟩)

namespace Table

variable {t : Table α} {n n' : Nat} {a a' : α}

theorem mem_entries (h : t.find? n = some a) : (n, a) ∈ t.entries := by
  obtain ⟨pre, post, hl, -⟩ := entries_of_find? h
  simp [hl]

theorem nodup_of_total (h : (t.total weight).Nodup) (hn : t.find? n = some a) :
    (weight a).Nodup := (disjoint_weights h).1 _ (mem_entries hn)

theorem mem_total {x : Nat} : x ∈ t.total weight ↔ ∃ n a, t.find? n = some a ∧ x ∈ weight a := by
  rw [total, mem_sum_weights]
  constructor
  · rintro ⟨⟨n, a⟩, he, hx⟩
    exact ⟨n, a, find?_eq_some_of_mem he, hx⟩
  · rintro ⟨n, a, hn, hx⟩
    exact ⟨_, mem_entries hn, hx⟩

/-- What is counted once in all belongs to one entry. -/
theorem disjoint_of_total (h : (t.total weight).Nodup) (hn : t.find? n = some a)
    (hn' : t.find? n' = some a') (hne : n ≠ n') : Disjoint (weight a) (weight a') := by
  have : Std.Symm fun e e' : Nat × α => Disjoint (weight e.2) (weight e'.2) :=
    ⟨fun _ _ h => h.symm⟩
  exact (disjoint_weights h).2.forall (mem_entries hn) (mem_entries hn')
    fun h => hne (congrArg Prod.fst h)

end Table

end Nodup

/-- A statement uses a statement of the engine: its handle does, or one of its cursors. -/
def Statement.Uses (j : Nat) (z : Statement) : Prop :=
  z.isOpen ∧ z.handle.number? = some j ∨
    ∃ m c h, z.cursors.find? m = some c ∧ c.own = some h ∧ h.number? = some j

theorem Handle.mem_weight {h : Handle} {j : Nat} :
    j ∈ h.weight .statements ↔ h.number? = some j := by
  cases hn : h.number? <;> simp [weight, hn, Scale.statements, eq_comm]

theorem Statement.mem_weight {z : Statement} {b : Backend} {j : Nat} :
    j ∈ z.weight .statements b ↔ z.Uses j := by
  have handle : j ∈ (if z.isOpen then z.handle.weight .statements else 0 : Multiset Nat) ↔
      z.isOpen ∧ z.handle.number? = some j := by
    cases z.isOpen <;> simp [Handle.mem_weight]
  have cursor {y : Cursor} : j ∈ y.weight .statements b ↔
      ∃ h, y.own = some h ∧ h.number? = some j := by
    have hcell : (b.copies y.rows • Scale.statements.cell : Multiset Nat) = 0 := nsmul_zero _
    cases ho : y.own <;> simp [Cursor.weight, ho, hcell, Handle.mem_weight]
  rw [weight, Multiset.mem_add, handle, Table.mem_total]
  simp only [cursor, Uses, exists_and_left]

/-- A statement does not use what it does not use. -/
theorem Statement.off_of_not_uses {z : Statement} {j : Nat} (h : ¬ z.Uses j)
    (hc : z.isOpen = false → ∀ m, z.cursors.find? m = none) : z.Off j := by
  cases ho : z.isOpen with
  | false => exact .inr ⟨ho, hc ho⟩
  | true =>
    refine .inl ⟨?_, ?_, fun _ _ _ => trivial, fun _ _ => trivial⟩
    · rintro i hi rfl
      exact h (.inl ⟨ho, hi⟩)
    · rintro m c o hm hown i hi rfl
      exact h (.inr ⟨m, c, o, hm, hown, hi⟩)

namespace Session

variable {s : Session × World} {n k j : Nat} {z : Statement}

theorem Reachable.off_of_not_uses (hr : Reachable s) (hz : s.1.statement? n k = some z)
    (h : ¬ z.Uses j) : z.Off j := by
  obtain ⟨d, hd, hk⟩ := statement?_eq_some.1 hz
  refine Statement.off_of_not_uses h fun hc m => Option.eq_none_iff_forall_ne_some.2 fun c hm => ?_
  rw [(((hr.sound.database n d hd).sane k z hk).tidy m c hm).1] at hc
  cases hc

/-- What a statement uses no other one does. -/
theorem Reachable.owns (hr : Reachable s) (hz : s.1.statement? n k = some z) (hj : z.Uses j) :
    Owns n k j s := by
  obtain ⟨d, hd, hk⟩ := statement?_eq_some.1 hz
  have hnumbers := hr.exact.statements
  have hnodup : (s.1.weight .statements).Nodup := hnumbers ▸ Table.numbers_nodup _
  -- what a statement counts its database counts
  have inside {n' k' : Nat} {d' : Database} {z' : Statement} (hd' : s.1.opened.find? n' = some d')
      (hz' : d'.statements.find? k' = some z') (h : z'.Uses j) :
      j ∈ d'.statements.total (Statement.weight .statements d'.link.backend) ∧
        j ∈ d'.weight .statements := by
    have hm : j ∈ d'.statements.total (Statement.weight .statements d'.link.backend) :=
      Table.mem_total.2 ⟨k', z', hz', Statement.mem_weight.2 h⟩
    exact ⟨hm, Multiset.mem_add.2 (.inr hm)⟩
  obtain ⟨-, hdatabase⟩ := inside hd hk hj
  have hmem : j ∈ s.2.engine.statements.numbers := by
    rw [← Multiset.mem_coe, hnumbers]
    exact Table.mem_total.2 ⟨n, d, hd, hdatabase⟩
  obtain ⟨e, he, rfl⟩ := List.mem_map.1 hmem
  refine ⟨s.2.engine.statements.below e he, fun n' k' z' hz' hne => ?_⟩
  refine hr.off_of_not_uses hz' fun h => ?_
  obtain ⟨d', hd', hk'⟩ := statement?_eq_some.1 hz'
  obtain ⟨-, hdatabase'⟩ := inside hd' hk' h
  by_cases hn : n' = n
  · subst hn
    obtain rfl : d = d' := Option.some.inj (hd.symm.trans hd')
    have hnodup : (d.weight .statements).Nodup := Table.nodup_of_total hnodup hd
    have hdisjoint := Table.disjoint_of_total (Multiset.nodup_add.1 hnodup).2.1 hk hk'
      (Ne.symm (hne.resolve_left (absurd rfl)))
    exact (Multiset.disjoint_left.1 hdisjoint) (Statement.mem_weight.2 hj)
      (Statement.mem_weight.2 h)
  · exact (Multiset.disjoint_left.1 (Table.disjoint_of_total hnodup hd hd' (Ne.symm hn))) hdatabase
      hdatabase'

end Session

end SqlAccess
