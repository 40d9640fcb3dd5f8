import SqlAccess.Proofs.Focus
import SqlAccess.Proofs.Producing
import SqlAccess.Proofs.Session.Runs

/-!
# Cursors of a session

A cursor of a session stands in its result, or is lost for good (`Session.Shown`, `Session.Lost`).
It is produced in front of the first row (`Session.Reachable.produced`), and no step but one that
moves it changes anything, unless it closes the cursor (`Session.Tasks.shown`).
-/

namespace SqlAccess

/-- A step that produces a cursor for a handle. -/
def Step.Produces (x : Step) (target : Bytes) : Prop :=
  ∃ name, x = .query name target ∨ x = .insert name target

namespace Session

variable {A : Nat → Database → Nat → Statement.Task → Prop} {s s' : Session × World}

/-! ## Columns -/

/-- What is known of the columns of prepared statements is right. -/
def Fitted (s : Session × World) : Prop :=
  ∀ n k z, s.1.statement? n k = some z →
    (∀ j, z.handle.number? = some j → j < s.2.engine.statements.next) ∧ z.handle.Fits s.2.engine

theorem Task.fitted (h : Task A s s') (hs : Fitted s) : Fitted s' := by
  -- what becomes of a statement that was there
  have kept {e' : Engine} (he : s.2.engine.Retains e') {n k : Nat} {z z' : Statement}
      (hz : s.1.statement? n k = some z) (hf : z'.handle.fixed = z.handle.fixed) :
      (∀ j, z'.handle.number? = some j → j < e'.statements.next) ∧ z'.handle.Fits e' := by
    obtain ⟨hn, hfits⟩ := hs n k z hz
    exact ⟨fun j hj => Nat.lt_of_lt_of_le (hn j (Handle.number?_of_fixed hf ▸ hj)) he.next,
      hfits.retained hn he hf⟩
  obtain ⟨c', w'⟩ := s'
  intro n k z' hz'
  obtain ⟨d', hd', hk'⟩ := statement?_eq_some (s := (c', w')).1 hz'
  cases h with
  | handles _ ho he =>
    exact kept (he ▸ Engine.Retains.refl) (statement?_eq_some.2 ⟨d', ho ▸ hd', hk'⟩) rfl
  | failed _ he ho =>
    exact kept he.retains (statement?_eq_some.2 ⟨d', ho ▸ hd', hk'⟩) rfl
  | opened _ he _ ho =>
    dsimp only at ho
    rw [ho] at hd'
    obtain ⟨-, rfl⟩ | hd' := Table.find?_add_eq_some.1 hd'
    · cases hk'
    · exact kept he.retains (statement?_eq_some.2 ⟨d', hd', hk'⟩) rfl
  | @changed m d₁ d₂ _ hm ht ho =>
    dsimp only at ht ho
    rw [ho] at hd'
    have before {k : Nat} {z : Statement} (hk : d₁.statements.find? k = some z) :
        s.1.statement? m k = some z := statement?_eq_some.2 ⟨d₁, hm, hk⟩
    have elsewhere (he : s.2.engine.Retains w'.engine) (hn : s.1.opened.find? n = some d') :=
      kept he (statement?_eq_some.2 ⟨d', hn, hk'⟩) rfl
    cases ht with
    | beside hb =>
      obtain ⟨rfl, -, -, rfl⟩ | ⟨-, hd'⟩ := Table.find?_modify_eq_some.1 hd'
      · exact kept hb.engine.retains (before (hb.statements ▸ hk')) rfl
      · exact elsewhere hb.engine.retains hd'
    | added he hnew hfits =>
      obtain ⟨rfl, -, -, rfl⟩ | ⟨-, hd'⟩ := Table.find?_modify_eq_some.1 hd'
      · obtain ⟨-, rfl⟩ | hk' := Table.find?_add_eq_some.1 hk'
        · exact ⟨fun j hj => (hnew j hj).2, hfits⟩
        · exact kept he.retains (before hk') rfl
      · exact elsewhere he.retains hd'
    | @worked _ _ k₁ y t hy =>
      have he := Statement.Task.retains (t := t) (l := d₁.link) (a := (y, s.2))
      obtain ⟨rfl, -, -, rfl⟩ | ⟨-, hd'⟩ := Table.find?_modify_eq_some.1 hd'
      · obtain ⟨rfl, -, -, rfl⟩ | ⟨-, hk'⟩ := Table.find?_modify_eq_some.1 hk'
        · exact kept he (before hy) (Statement.Task.alike (a := (y, s.2))).handle
        · exact kept he (before hk') rfl
      · exact elsewhere he hd'

theorem Tasks.fitted (h : Tasks A s s') (hs : Fitted s) : Fitted s' := by
  induction h with
  | refl => exact hs
  | tail _ hab ih => exact hab.fitted ih

theorem Reachable.fitted (hr : Reachable s) : Fitted s := by
  induction hr with
  | start =>
    intro n k z hz
    cases hz
  | step x _ ih => exact (after_tasks x _).fitted ih

/-! ## What is shown -/

/-- A cursor that is open stands in a result. -/
def Shown (r : CursorRef) (k : Nat) (result : List (List Cell)) (base failed : Nat) (p : Int)
    (s : Session × World) : Prop :=
  ∃ d z, s.1.opened.find? r.database = some d ∧ d.statements.find? r.statement = some z ∧
    Statement.Shows r.number k result base failed p (z, s.2)

/-- A cursor is closed for good. -/
def Lost (r : CursorRef) (s : Session × World) : Prop :=
  ∃ d z, s.1.opened.find? r.database = some d ∧ d.statements.find? r.statement = some z ∧
    z.Gone r.number

variable {r : CursorRef} {k : Nat} {result : List (List Cell)} {base failed : Nat} {p : Int}

theorem Lost.cursor? (h : Lost r s) : s.1.cursor? r = none := by
  obtain ⟨d, z, hd, hz, hg⟩ := h
  simp [Session.cursor?, statement?, hd, hz, hg.closed]

theorem Lost.tasks (h : Lost r s) (ht : Tasks A s s') : Lost r s' := by
  obtain ⟨d, z, hd, hz, hg⟩ := h
  obtain ⟨d', z', hd', hz', -, hg'⟩ :=
    ht.follow (J := (·.Gone r.number)) (fun _ _ _ _ _ _ h => h.task) hd hz hg
  exact ⟨d', z', hd', hz', hg'⟩

/-- What is lost stays so. -/
theorem Lost.later (h : Lost r s) (hl : Later s s') : Lost r s' := by
  induction hl with
  | refl => exact h
  | step x _ ih => exact ih.tasks (after_tasks x _)

/-- Whatever is done beside moving a cursor, its statement is as it was, and what it uses alone is
spared, unless the cursor is closed for good. -/
theorem Tasks.untouched {n i m j : Nat} {d : Database} {z : Statement} (h : Tasks A s s')
    (hA : ∀ d offset, ¬ A n d i (.seek m offset)) (ho : Owns n i j s)
    (hd : s.1.opened.find? n = some d) (hz : d.statements.find? i = some z) (hc : z.Current m) :
    ∃ d' z', s'.1.opened.find? n = some d' ∧ d'.statements.find? i = some z' ∧
      (z' = z ∧ s.2.engine.Spares j s'.2.engine ∨ z'.Gone m) := by
  have task (d' : Database) (y : Statement) (w : World) (t : Statement.Task)
      (ht : t.runs → A n d' i t) (hy : y = z ∧ s.2.engine.Spares j w.engine ∨ y.Gone m) :
      (t.after d.link (y, w)).1 = z ∧ s.2.engine.Spares j (t.after d.link (y, w)).2.engine ∨
        (t.after d.link (y, w)).1.Gone m := by
    obtain ⟨rfl, hs⟩ | hg := hy
    · have hne (offset : Int64) : t ≠ .seek m offset := by
        rintro rfl
        exact hA d' offset (ht rfl)
      refine (hc.task (l := d.link) (w := w) hne).imp (fun h => ?_) id
      rw [h]
      exact ⟨rfl, hs⟩
    · exact .inr hg.task
  obtain ⟨-, -, d', z', hd', hz', -, hJ⟩ := h.focus ho hd hz
    (J := fun a => a.1 = z ∧ s.2.engine.Spares j a.2.engine ∨ a.1.Gone m) (.inl ⟨rfl, .refl⟩)
    (fun _ _ _ hJ he => hJ.imp (fun h => ⟨h.1, h.2.trans he⟩) id)
    fun d' y w t _ _ _ ht hJ => task d' y w t ht hJ
  exact ⟨d', z', hd', hz', hJ⟩

/-- Whatever is done beside moving a cursor, it shows what it showed or is closed for good. -/
theorem Tasks.shown (h : Tasks A s s')
    (hA : ∀ d offset, ¬ A r.database d r.statement (.seek r.number offset))
    (ho : Owns r.database r.statement k s) (hs : Shown r k result base failed p s) :
    Shown r k result base failed p s' ∨ Lost r s' := by
  obtain ⟨d, z, hd, hz, hshows⟩ := hs
  obtain ⟨d', z', hd', hz', ⟨rfl, he⟩ | hg⟩ := h.untouched hA ho hd hz hshows.current
  · exact .inl ⟨d', z', hd', hz', hshows.spared he⟩
  · exact .inr ⟨d', z', hd', hz', hg⟩

/-! ## Producing a cursor -/

/-- A session in which work on a statement has left something behind. -/
def updated (s : Session) (r : CursorRef) (d : Database) (z : Statement) : Session :=
  { s with opened := s.opened.modify r.database fun _ =>
      { d with statements := d.statements.modify r.statement fun _ => z } }

/-- Running a statement for a cursor is work on that statement, which is open. -/
theorem runForCursor_after {name : Bytes} {writes : Bool} {run : Link → Op Statement Nat}
    {Q : Database → Statement → Except Fault Nat → Statement × World → Prop}
    (hrun : ∀ n d k z, s.1.opened.find? n = some d → d.statements.find? k = some z → z.isOpen →
      After (run d.link).run (z, s.2) (Q d z)) :
    After (runForCursor name writes run) s fun res s' => ∀ r, res = .ok r →
      ∃ d z a, s.1.opened.find? r.database = some d ∧ d.statements.find? r.statement = some z ∧
        z.isOpen ∧ Q d z (.ok r.number) a ∧ s' = (s.1.updated r d a.1, a.2) := by
  have ran {n k : Nat} {d : Database} (hd : s.1.opened.find? n = some d) : After (do
        Database.checkRunnable k writes
        let number ← Database.onStatement k run
        return { database := n, statement := k, number } : Op Database CursorRef).run (d, s.2)
      fun res a => ∀ r, res = .ok r → r.database = n ∧ r.statement = k ∧
        ∃ z a', d.statements.find? k = some z ∧ z.isOpen ∧ Q d z (.ok r.number) a' ∧
          a = ({ d with statements := d.statements.modify k fun _ => a'.1 }, a'.2) := by
    refine After.try_bind_iff.2 <| Database.checkRunnable_after.mono fun res a ⟨ha, _⟩ => ?_
    subst ha
    cases res with
    | error f => exact nofun
    | ok _ =>
      refine After.try_bind_iff.2 <| Database.onStatement_cases (fun _ => nofun)
        fun z hz hopen => (hrun n d k z hd hz hopen).mono fun res a hq => ?_
      cases res with
      | error f => exact nofun
      | ok m =>
        refine After.try_pure_iff.2 ?_
        rintro _ ⟨⟩
        exact ⟨rfl, rfl, z, a, hz, hopen, hq, rfl⟩
  refine withStatement_cases (fun _ => nofun) fun t _ => onDatabase_cases (fun _ => nofun)
    fun d hd => (ran hd).mono fun res a hres => ?_
  rintro r rfl
  obtain ⟨hn, hk, z, a', hz, hopen, hq, rfl⟩ := hres r rfl
  refine ⟨d, z, a', hn ▸ hd, hk ▸ hz, hopen, hq, ?_⟩
  rw [updated, hn, hk]

/-- A handle holds what it was given. -/
theorem setCursor_after {name : Bytes} {r : Option CursorRef} :
    After (setCursor name r) s fun _ s' => s'.1.cursors.find? name = r := by
  have put {s : Session × World} : After (modify fun s => { s with
      cursors := s.cursors.update name r } : SessionM Unit) s fun _ s' =>
        s'.1.cursors.find? name = r :=
    After.modify_iff.2 (by simp [NameMap.find?_update])
  unfold setCursor
  refine After.bind_iff.2 (After.get_iff.2 ?_)
  split
  · exact After.bind_iff.2 (After.of_forall fun _ _ => put)
  · exact put

section Produced

variable {d : Database} {z z' : Statement} {w : World}

theorem updated_statement (z' : Statement) (hd : s.1.opened.find? r.database = some d)
    (hz : d.statements.find? r.statement = some z) :
    ∃ d', (s.1.updated r d z').opened.find? r.database = some d' ∧
      d'.statements.find? r.statement = some z' :=
  ⟨_, Table.find?_modify_eq_some.2 (.inl ⟨rfl, d, hd, rfl⟩),
    Table.find?_modify_eq_some.2 (.inl ⟨rfl, z, hz, rfl⟩)⟩

/-- What a statement uses that was worked on, or what it may use that is new, no other one does. -/
theorem Reachable.owns_updated (hr : Reachable s) (hd : s.1.opened.find? r.database = some d)
    (hz : d.statements.find? r.statement = some z) (ho : z.isOpen)
    (hk : z.handle.number? = some k ∨ s.2.engine.statements.next ≤ k)
    (hlt : k < w.engine.statements.next) :
    Owns r.database r.statement k (s.1.updated r d z', w) := by
  refine ⟨hlt, fun n' k' y hy hne => ?_⟩
  have before : s.1.statement? n' k' = some y := by
    obtain ⟨d', hd', hk'⟩ := statement?_eq_some (s := (s.1.updated r d z', w)).1 hy
    obtain ⟨rfl, -, -, rfl⟩ | ⟨-, hd'⟩ := Table.find?_modify_eq_some.1 hd'
    · obtain ⟨rfl, -⟩ | ⟨-, hk'⟩ := Table.find?_modify_eq_some.1 hk'
      · exact absurd hne (by simp)
      · exact statement?_eq_some.2 ⟨d, hd, hk'⟩
    · exact statement?_eq_some.2 ⟨d', hd', hk'⟩
  obtain hk | hk := hk
  · exact (hr.owns (statement?_eq_some.2 ⟨d, hd, hz⟩) (.inl ⟨ho, hk⟩)).others n' k' y before hne
  · exact hr.off_of_not_uses before fun h => Nat.not_lt.2 hk (hr.owns before h).next

/-- The cursor that a handle holds after such a step was produced by it. -/
theorem Reachable.carryOut_produces (hr : Reachable s) {x : Step} {target : Bytes}
    (hx : x.Produces target) (k : Nat) :
    After (carryOut x) s fun _ s' => ∀ r, s'.1.cursors.find? target = some r →
      ∃ d z a, s.1.opened.find? r.database = some d ∧ d.statements.find? r.statement = some z ∧
        z.isOpen ∧ z.Produces k s.2 (.ok r.number) a ∧
        Tasks (fun _ _ _ _ => False) (s.1.updated r d a.1, a.2) s' := by
  have delivered {writes : Bool} {name : Bytes} {run : Link → Op Statement Nat}
      (hrun : ∀ n d k' z, s.1.opened.find? n = some d → d.statements.find? k' = some z → z.isOpen →
        After (run d.link).run (z, s.2) (z.Produces k s.2)) :
      After (do deliver (setCursor target) (← runForCursor name writes run) : SessionM Reply) s
        fun _ s' => ∀ r, s'.1.cursors.find? target = some r →
          ∃ d z a, s.1.opened.find? r.database = some d ∧ d.statements.find? r.statement = some z ∧
            z.isOpen ∧ z.Produces k s.2 (.ok r.number) a ∧
            Tasks (fun _ _ _ _ => False) (s.1.updated r d a.1, a.2) s' := by
    refine After.seq (runForCursor_after (Q := fun _ z => z.Produces k s.2) hrun)
      fun res s₁ h₁ => ?_
    have given : After (setCursor target res.toOption) s₁ fun _ s₂ =>
        Tasks (fun _ _ _ _ => False) s₁ s₂ ∧ s₂.1.cursors.find? target = res.toOption :=
      (setCursor_does s₁).and setCursor_after
    refine After.seq given fun _ s₂ ⟨h₂, hfind⟩ => After.pure_iff.2 fun r hr => ?_
    cases res with
    | error f => cases hfind.symm.trans hr
    | ok r' =>
      obtain rfl : r' = r := Option.some.inj (hfind.symm.trans hr)
      obtain ⟨d, z, a, hd, hz, ho, hp, rfl⟩ := h₁ r' rfl
      exact ⟨d, z, a, hd, hz, ho, hp, h₂⟩
  obtain ⟨name, rfl | rfl⟩ := hx
  · refine delivered fun n d k' z hd hz ho => ?_
    obtain ⟨hnext, hfits⟩ := hr.fitted n k' z (statement?_eq_some.2 ⟨d, hd, hz⟩)
    exact Statement.query_produces k ((hr.sound.database n d hd).sane k' z hz) ho hnext hfits
  · refine delivered fun n d k' z hd hz ho => ?_
    have hused := statement?_eq_some.2 ⟨d, hd, hz⟩
    exact Statement.insert_produces k ((hr.sound.database n d hd).sane k' z hz) ho
      ⟨fun j hj => (hr.owns hused (.inl ⟨ho, hj⟩)).next,
        fun m c o hm hown j hj => (hr.owns hused (.inr ⟨m, c, o, hm, hown, hj⟩)).next,
        fun _ _ _ => trivial, fun _ _ => trivial⟩

/-- The statement that a cursor reads, if it is open. -/
def source? (s : Session) (r : CursorRef) : Option Handle := do
  let z ← s.statement? r.database r.statement
  let c ← z.cursors.find? r.number
  return c.own.getD z.handle

theorem source?_eq_some {h : Handle} : s.1.source? r = some h ↔ ∃ d z c,
    s.1.opened.find? r.database = some d ∧ d.statements.find? r.statement = some z ∧
      z.cursors.find? r.number = some c ∧ c.own.getD z.handle = h := by
  simp only [source?, statement?, Option.bind_eq_bind, Option.bind_eq_some_iff, Option.pure_def,
    Option.some.injEq]
  constructor
  · rintro ⟨z, ⟨d, hd, hz⟩, c, hc, h⟩
    exact ⟨d, z, c, hd, hz, hc, h⟩
  · rintro ⟨d, z, c, hd, hz, hc, h⟩
    exact ⟨z, ⟨d, hd, hz⟩, c, hc, h⟩

/-- Where no statement is run, one whose cursor stays open is as it was. -/
theorem Tasks.idle {n i m : Nat} {d' : Database} {c : Cursor}
    (ht : Tasks (fun _ _ _ _ => False) s s') (hd : s.1.opened.find? n = some d)
    (hz : d.statements.find? i = some z) (hcurrent : z.Current m)
    (hd' : s'.1.opened.find? n = some d') (hz' : d'.statements.find? i = some z')
    (hc : z'.cursors.find? m = some c) : z' = z := by
  have task (l : Link) (y : Statement) (w : World) (t : Statement.Task) (hrun : t.runs → False)
      (hy : y = z ∨ y.Gone m) : (t.after l (y, w)).1 = z ∨ (t.after l (y, w)).1.Gone m := by
    obtain hy | hg := hy
    · rw [hy]
      refine (hcurrent.task (t := t) fun offset h => hrun (by rw [h]; rfl)).imp (fun h => ?_) id
      rw [h]
    · exact .inr hg.task
  obtain ⟨d₂, z₂, hd₂, hz₂, -, hJ⟩ := ht.follow (J := fun y => y = z ∨ y.Gone m)
    (fun _ l y w t ha hy => task l y w t ha hy) hd hz (.inl rfl)
  obtain rfl := Option.some.inj (hd'.symm.trans hd₂)
  obtain rfl := Option.some.inj (hz'.symm.trans hz₂)
  refine hJ.resolve_right fun hg => ?_
  cases hc.symm.trans hg.closed

/-- A cursor is produced in front of the first row of the result of the statement that it reads,
unless an attempt to fetch a row failed. -/
theorem Reachable.produced (hr : Reachable s) {x : Step} {target : Bytes} (hx : x.Produces target)
    (hc : (after x s).1.cursors.find? target = some r) {h : Handle}
    (hh : (after x s).1.source? r = some h) (hk : h.number? = some k)
    (hresult : h.result? (after x s).2.engine = some result) :
    fetchesFailed k s.2.engine.history < fetchesFailed k (after x s).2.engine.history ∨
      Shown r k result (rowsFetched k s.2.engine.history) (fetchesFailed k s.2.engine.history) (-1)
        (after x s) := by
  obtain ⟨d, z, ⟨z₁, w₁⟩, hd, hz, ho, hp, ht⟩ := hr.carryOut_produces hx k r hc
  obtain ⟨hcurrent, hp⟩ := hp _ rfl
  obtain ⟨d₁, hd₁, hz₁⟩ := updated_statement z₁ hd hz
  obtain ⟨d₂, z₂, c, hd₂, hz₂, hc₂, rfl⟩ := source?_eq_some.1 hh
  change Tasks _ (s.1.updated r d z₁, w₁) (after x s) at ht
  obtain rfl : z₂ = z₁ := ht.idle hd₁ hz₁ hcurrent hd₂ hz₂ hc₂
  obtain ⟨hsource, hlt, hp⟩ := hp c hc₂ hk
  have hspares : w₁.engine.Spares k (after x s).2.engine := by
    obtain ⟨d', z', hd', hz', ⟨-, he⟩ | hg⟩ := ht.untouched (fun _ _ h => h)
      (hr.owns_updated hd hz ho hsource hlt) hd₁ hz₁ hcurrent
    · exact he
    · obtain rfl := Option.some.inj (hd₂.symm.trans hd')
      obtain rfl := Option.some.inj (hz₂.symm.trans hz')
      cases hc₂.symm.trans hg.closed
  have hfailed := (Engine.Unfetched.of_spares hspares).failed
  rw [hfailed]
  refine (hp result ?_).imp id fun hshows => ⟨d₂, z₂, hd₂, hz₂, hshows.spared hspares⟩
  rw [← hresult]
  simp [Handle.result?, hk, hspares.entry]

end Produced

/-! ## Moving a cursor -/

/-- Moving a cursor that is open is work on its statement. -/
theorem carryOut_seek {name : Bytes} {offset : Int64} {d : Database} {z : Statement} {c : Cursor}
    {Q : Except Fault Bool → Statement × World → Prop} (hname : s.1.cursors.find? name = some r)
    (hd : s.1.opened.find? r.database = some d) (hz : d.statements.find? r.statement = some z)
    (hc : z.cursors.find? r.number = some c)
    (hq : After (Statement.seek r.number offset d.link).run (z, s.2) Q) :
    After (carryOut (.seek name offset)) s fun reply s' => ∃ res a, Q res a ∧
      reply = .of .moved (.moved false) res ∧ s' = (s.1.updated r d a.1, a.2) := by
  have hopen : s.1.cursor? r = some c := by simp [cursor?, statement?, hd, hz, hc]
  have sought : After (Database.atStatement r.statement (Statement.seek r.number offset)).run
      (d, s.2)
      fun res a' => ∃ a, Q res a ∧
        a' = ({ d with statements := d.statements.modify r.statement fun _ => a.1 }, a.2) := by
    exact (Database.atStatement_iff hz).2 (hq.mono fun _ a h => ⟨a, h, rfl⟩)
  refine After.bind_iff.2 <| onCursor_cases (fun hclosed => ?_) fun r' hr' _ => ?_
  · rw [openCursor?, hname, Option.bind_some, hopen] at hclosed
    cases hclosed
  · obtain rfl : r = r' := Option.some.inj (hname.symm.trans hr')
    refine (attemptOn_iff hd).2 (sought.mono ?_)
    rintro res _ ⟨a', h, rfl⟩
    exact After.pure_iff.2 ⟨res, a', h, rfl, rfl⟩

/-- A cursor goes to a row if its result has that row, and is closed for good otherwise, unless an
attempt to fetch a row fails. -/
theorem Shown.sought {name : Bytes} {offset : Int64} (hs : Shown r k result base failed p s)
    (hname : s.1.cursors.find? name = some r) :
    After (carryOut (.seek name offset)) s fun reply s' =>
      failed < fetchesFailed k s'.2.engine.history ∨
      (reply = { answer := .moved true } ∧ (0 ≤ p + offset.toInt ∧
        p + offset.toInt < result.length ∧ p + offset.toInt ≤ Int64.maxValue.toInt) ∧
        Shown r k result base failed (p + offset.toInt) s') ∨
      (reply = { answer := .moved false } ∧ ¬ (0 ≤ p + offset.toInt ∧
        p + offset.toInt < result.length ∧ p + offset.toInt ≤ Int64.maxValue.toInt) ∧
        Lost r s' ∧ rowsFetched k s'.2.engine.history ≤ base + result.length) := by
  obtain ⟨d, z, hd, hz, hshows⟩ := hs
  obtain ⟨x, hx, -⟩ := hshows.cursor
  refine (carryOut_seek hname hd hz hx (Statement.seek_shows hshows)).mono
    fun reply s' ⟨res, a, h, hreply, hs'⟩ => ?_
  obtain ⟨d', hd', hz'⟩ := updated_statement a.1 hd hz
  subst hreply hs'
  obtain hfailed | ⟨rfl, hrow, hshows⟩ | ⟨rfl, hrow, hg, hrows⟩ := h
  · exact .inl hfailed
  · exact .inr (.inl ⟨rfl, hrow, d', a.1, hd', hz', hshows⟩)
  · exact .inr (.inr ⟨rfl, hrow, ⟨d', a.1, hd', hz', hg⟩, hrows⟩)

end Session

end SqlAccess
