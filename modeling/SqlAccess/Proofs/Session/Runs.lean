import SqlAccess.Proofs.Session.Tasks

/-!
# Who runs what

Whatever is done to a session, a statement stays the one that was prepared (`Session.Tasks.alike`),
and a statement of the engine is run only by a task on the statement that uses it
(`Session.Tasks.runs`).
-/

namespace SqlAccess

namespace Session

variable {A : Nat → Database → Nat → Statement.Task → Prop} {s s' s₁ : Session × World}
  {n k j : Nat}
  {d : Database} {z : Statement}

/-- What tasks keep of a statement is kept whatever is done to the session. -/
theorem Task.follow {J : Statement → Prop} (hJ : ∀ d l y w t, (t.runs → A n d k t) → J y →
      J (Statement.Task.after l (y, w) t).1) (h : Task A s s')
    (hd : s.1.opened.find? n = some d) (hk : d.statements.find? k = some z) (hz : J z) :
    ∃ d' z', s'.1.opened.find? n = some d' ∧ d'.statements.find? k = some z' ∧ d'.link = d.link ∧
      J z' := by
  cases h with
  | handles _ ho _ | failed _ _ ho => exact ⟨d, z, ho ▸ hd, hk, rfl, hz⟩
  | opened _ _ _ ho => exact ⟨d, z, ho ▸ Table.find?_add_eq_some.2 (.inr hd), hk, rfl, hz⟩
  | @changed m d₁ d₂ _ hm ht ho =>
    by_cases hn : n = m
    · subst hn
      obtain rfl : d = d₁ := Option.some.inj (hd.symm.trans hm)
      have there : s'.1.opened.find? n = some d₂ :=
        ho ▸ Table.find?_modify_eq_some.2 (.inl ⟨rfl, d, hd, rfl⟩)
      generalize s'.2 = w' at ht
      cases ht with
      | beside hb => exact ⟨d₂, z, there, hb.statements ▸ hk, hb.link, hz⟩
      | added => exact ⟨_, z, there, Table.find?_add_eq_some.2 (.inr hk), rfl, hz⟩
      | @worked _ _ k₁ y t hy hopen ht =>
        by_cases hkk : k = k₁
        · subst hkk
          obtain rfl : z = y := Option.some.inj (hk.symm.trans hy)
          exact ⟨_, _, there, Table.find?_modify_eq_some.2 (.inl ⟨rfl, z, hk, rfl⟩), rfl,
            hJ d d.link z s.2 t ht hz⟩
        · exact ⟨_, z, there, Table.find?_modify_eq_some.2 (.inr ⟨hkk, hk⟩), rfl, hz⟩
    · exact ⟨d, z, ho ▸ Table.find?_modify_eq_some.2 (.inr ⟨hn, hd⟩), hk, rfl, hz⟩

theorem Tasks.follow {J : Statement → Prop} (hJ : ∀ d l y w t, (t.runs → A n d k t) → J y →
      J (Statement.Task.after l (y, w) t).1) (h : Tasks A s s')
    (hd : s.1.opened.find? n = some d) (hk : d.statements.find? k = some z) (hz : J z) :
    ∃ d' z', s'.1.opened.find? n = some d' ∧ d'.statements.find? k = some z' ∧ d'.link = d.link ∧
      J z' := by
  induction h with
  | refl => exact ⟨d, z, hd, hk, rfl, hz⟩
  | tail _ hab ih =>
    obtain ⟨d₁, z₁, hd₁, hk₁, hl₁, hz₁⟩ := ih
    obtain ⟨d₂, z₂, hd₂, hk₂, hl₂, hz₂⟩ := hab.follow hJ hd₁ hk₁ hz₁
    exact ⟨d₂, z₂, hd₂, hk₂, hl₂.trans hl₁, hz₂⟩

theorem Task.alike (h : Task A s s') (hd : s.1.opened.find? n = some d)
    (hz : d.statements.find? k = some z) : ∃ d' z', s'.1.opened.find? n = some d' ∧
      d'.statements.find? k = some z' ∧ d'.link = d.link ∧ z.Alike z' :=
  h.follow (fun _ _ y w _ _ ha => ha.trans (Statement.Task.alike (a := (y, w)))) hd hz .refl

/-- Whatever is done to a session, a statement stays the one that was prepared. -/
theorem Tasks.alike (h : Tasks A s s') (hd : s.1.opened.find? n = some d)
    (hz : d.statements.find? k = some z) : ∃ d' z', s'.1.opened.find? n = some d' ∧
      d'.statements.find? k = some z' ∧ d'.link = d.link ∧ z.Alike z' :=
  h.follow (fun _ _ y w _ _ ha => ha.trans (Statement.Task.alike (a := (y, w)))) hd hz .refl

/-- A call runs a statement by a task that may run it, or one that was made since, for the keys of
an insertion. The statement that the task was done to is still there. -/
structure RunFor (A : Nat → Database → Nat → Statement.Task → Prop) (s s' : Session × World)
    (call : Call) (n k : Nat) (d₀ d : Database) (y z : Statement) (t : Statement.Task) : Prop where
  before : d₀.statements.find? k = some y
  may : A n d₀ k t
  call : t.RunsBy y call ∨
    t = .insert ∧ ∃ i, s.2.engine.statements.next ≤ i ∧ call.runs? = some i
  database : s'.1.opened.find? n = some d
  link : d.link = d₀.link
  after : d.statements.find? k = some z
  alike : y.Alike z

/-- Whatever was run, was run by a task. -/
structure Runs (A : Nat → Database → Nat → Statement.Task → Prop) (s s' : Session × World) :
    Prop where
  next : s.2.engine.statements.next ≤ s'.2.engine.statements.next
  calls : Grown (fun _ e => ∀ j, e.call.runs? = some j →
    ∃ n k d₀ d y z t, RunFor A s s' e.call n k d₀ d y z t) s.2.engine.history s'.2.engine.history

theorem Task.runs (h : Task A s s') : Runs A s s' := by
  have passive (he : s.2.engine.Passive s'.2.engine) : Runs A s s' :=
    ⟨he.next, he.runsNone.calls.mono fun _ _ hc j hj => (hc j hj).elim⟩
  cases h with
  | handles _ _ he => exact passive (he ▸ .refl)
  | failed _ he _ | opened _ he _ _ => exact passive he
  | @changed m d₁ d₂ _ hm ht ho =>
    have there : s'.1.opened.find? m = some d₂ :=
      ho ▸ Table.find?_modify_eq_some.2 (.inl ⟨rfl, d₁, hm, rfl⟩)
    generalize hw : s'.2 = w' at ht passive
    have := hw
    cases ht with
    | beside hb => exact passive hb.engine
    | added he => exact passive he
    | @worked _ _ k₁ y t hy hopen ht =>
      have hruns := Statement.Task.runsOnly (t := t) (l := d₁.link) (a := (y, s.2))
      refine ⟨hw ▸ hruns.next, hw ▸ hruns.calls.mono fun _ e hc j hj => ?_⟩
      refine ⟨m, k₁, d₁, _, y, _, t, hy, ht ?_, hc j hj, there, rfl,
        Table.find?_modify_eq_some.2 (.inl ⟨rfl, y, hy, rfl⟩),
        Statement.Task.alike (a := (y, s.2))⟩
      obtain hr | ⟨rfl, -⟩ := hc j hj
      · exact Statement.Task.runs_of_runsBy (a := (y, s.2)) hr
      · rfl

theorem Tasks.runs (h : Tasks A s s') : Runs A s s' := by
  induction h with
  | refl => exact ⟨Nat.le_refl _, .refl⟩
  | @tail a b _ hab ih =>
    have hlast := hab.runs
    refine ⟨Nat.le_trans ih.next hlast.next, .trans (ih.calls.mono fun _ e hc j hj => ?_)
      (hlast.calls.mono fun _ e hc j hj => ?_)⟩
    · -- the statement that was run is still there
      obtain ⟨n, k, d₀, d, y, z, t, hr⟩ := hc j hj
      obtain ⟨d', z', hd', hz', hl, ha⟩ := hab.alike hr.database hr.after
      exact ⟨n, k, d₀, d', y, z', t, hr.before, hr.may, hr.call, hd', hl.trans hr.link, hz',
        hr.alike.trans ha⟩
    · obtain ⟨n, k, d₀, d, y, z, t, hr⟩ := hc j hj
      exact ⟨n, k, d₀, d, y, z, t, hr.before, hr.may, hr.call.imp_right fun ⟨ht, i, hi, hc⟩ =>
        ⟨ht, i, Nat.le_trans ih.next hi, hc⟩, hr.database, hr.link, hr.after, hr.alike⟩

end Session

end SqlAccess
