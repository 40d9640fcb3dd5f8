import SqlAccess.Proofs.Database.Sound

/-!
# Operations on a database go by changes

Every operation on a database leads from a sound database by changes (`Leads`). What some of them
come to is described more closely: closing statements changes nothing else (`Shuts`), and ending
transactions only takes away from what is open (`Shrinks`).
-/

namespace SqlAccess.Database

/-- An operation went by changes, and opened no connection. -/
structure Leads (A : Database → Prop) (s s' : Database × World) : Prop where
  path : Path A (s.1, s.2.engine.history) (s'.1, s'.2.engine.history)
  keeps : s.2.engine.Keeps s'.2.engine

/-- Only the log may be different. -/
structure Same (s s' : Database × World) : Prop where
  database : s'.1 = s.1
  engine : s'.2.engine = s.2.engine

variable {A : Database → Prop} {s s' s'' : Database × World} {d : Database} {w : World}

namespace Leads

theorem refl : Leads A s s := ⟨.refl, .refl⟩

theorem trans (h₁ : Leads A s s') (h₂ : Leads A s' s'') : Leads A s s'' :=
  ⟨h₁.path.trans h₂.path, h₁.keeps.trans h₂.keeps⟩

theorem of_same (h : Same s s') : Leads A s s' := by
  refine ⟨?_, ?_⟩
  · rw [h.database, h.engine]
  · rw [h.engine]
    exact .refl

theorem same (h : Leads A s s') (h' : Same s' s'') : Leads A s s'' := h.trans (.of_same h')

theorem change (hc : Change A (s.1, s.2.engine.history) (s'.1, s'.2.engine.history))
    (hn : s.2.engine.Keeps s'.2.engine) : Leads A s s' :=
  ⟨.single hc, hn⟩

theorem sound (h : Leads A s s') (hs : s.1.Sound s.2.engine.history) :
    s'.1.Sound s'.2.engine.history := hs.path h.path

end Leads

/-- A result does not change how an operation went. -/
theorem result_leads {α β : Type} {x : Op Database α} {f : α → β}
    (hx : After x.run s fun _ s' => Leads A s s') :
    After (do return f (← x) : Op Database β).run s fun _ s' => Leads A s s' :=
  After.try_seq hx (fun _ _ h => After.try_pure_iff.2 h) fun _ _ h => h

/-! ## The log -/

theorem writeLog_same {level : LogLevel} {text : Bytes} :
    After (writeLog level text) s fun _ s' => Same s s' := ⟨rfl, rfl⟩

theorem keepFirst_same {sink : LogSink} {note : Bytes} {first next : Except Fault Unit} :
    After (liftM (keepFirst sink note first next) : StateT Database Act _) s fun _ s' =>
      Same s s' :=
  After.lift_iff.2 (After.keepFirst_still.mono fun _ _ h => ⟨rfl, h⟩)

/-! ## What is allowed -/

theorem checkOpen_after : After checkOpen.run s fun r s' => s' = s ∧ (r = .ok () → s.1.isOpen) := by
  unfold checkOpen
  refine After.try_bind_iff.2 (After.try_get_iff.2 ?_)
  dsimp only
  cases ho : s.1.isOpen with
  | false => exact After.throw_iff.2 ⟨rfl, nofun⟩
  | true => exact After.try_pure_iff.2 ⟨rfl, fun _ => rfl⟩

theorem active_after {attempt : Attempt} {t : Nat} : After (active attempt t).run s fun r s' =>
    s' = s ∧ (∀ x, r = .ok x → s.1.Ready t x) ∧ ∀ f, r = .error f → ∀ x, ¬ s.1.Ready t x := by
  unfold active
  refine After.try_bind_iff.2 (After.try_get_iff.2 ?_)
  dsimp only
  cases hx : s.1.transactions.find? t with
  | none =>
    exact After.throw_iff.2 ⟨rfl, nofun, fun _ _ y hy => nomatch hx.symm.trans hy.1⟩
  | some x =>
    dsimp only
    cases he : x.ended with
    | some how =>
      refine After.try_bind_iff.2 (After.throw_iff.2 ⟨rfl, nofun, fun _ _ y hy => ?_⟩)
      obtain rfl : x = y := Option.some.inj (hx.symm.trans hy.1)
      exact nomatch he.symm.trans hy.2.1
    | none =>
      cases hc : s.1.openChild? t with
      | some c =>
        exact After.try_bind_iff.2 <|
          After.throw_iff.2 ⟨rfl, nofun, fun _ _ y hy => nomatch hc.symm.trans hy.2.2⟩
      | none =>
        refine After.try_pure_iff.2 ⟨rfl, ?_, nofun⟩
        rintro _ ⟨⟩
        exact ⟨hx, he, hc⟩

theorem checkUsable_after {t : Nat} : After (checkUsable t).run s fun r s' =>
    s' = s ∧ ∀ x, r = .ok x → s.1.Ready t x ∧ s.1.isOpen := by
  unfold checkUsable
  refine After.try_seq active_after ?_ ?_
  · rintro x _ ⟨rfl, hx, -⟩
    refine After.try_seq checkOpen_after ?_ ?_
    · rintro _ _ ⟨rfl, ho⟩
      refine After.try_pure_iff.2 ⟨rfl, ?_⟩
      rintro _ ⟨⟩
      exact ⟨hx x rfl, ho rfl⟩
    · rintro _ _ ⟨rfl, -⟩
      exact ⟨rfl, nofun⟩
  · rintro _ _ ⟨rfl, -⟩
    exact ⟨rfl, nofun⟩

/-- What a statement needs to be run. -/
structure Runnable (d : Database) (k : Nat) (writes : Bool) (s : Statement) : Prop where
  statement : d.statements.find? k = some s
  isOpen : s.isOpen
  database : d.isOpen
  owner : ∀ t, s.owner = some t → ∃ x, d.Ready t x
  writes : writes → s.owner.isSome

theorem openStatement?_eq_some {k : Nat} {x : Statement} (h : d.openStatement? k = some x) :
    d.statements.find? k = some x ∧ x.isOpen := by
  unfold openStatement? at h
  exact Option.filter_eq_some_iff.1 h

theorem checkRunnable_after {k : Nat} {writes : Bool} : After (checkRunnable k writes).run s
    fun r s' => s' = s ∧ (r = .ok () → ∃ x, s.1.Runnable k writes x) := by
  unfold checkRunnable
  refine After.try_bind_iff.2 (After.try_get_iff.2 ?_)
  dsimp only
  cases hx : s.1.openStatement? k with
  | none =>
    exact After.throw_iff.2 ⟨rfl, nofun⟩
  | some x =>
    obtain ⟨hk, hxo⟩ := openStatement?_eq_some hx
    refine After.try_seq checkOpen_after ?_ ?_
    · rintro _ _ ⟨rfl, ho⟩
      cases hown : x.owner with
      | some t =>
        refine After.try_seq checkUsable_after ?_ ?_
        · rintro y _ ⟨rfl, hy⟩
          refine After.try_pure_iff.2 ⟨rfl, fun _ => ⟨x, hk, hxo, ho rfl, ?_, ?_⟩⟩
          · rintro t' ht'
            obtain rfl : t = t' := Option.some.inj (hown.symm.trans ht')
            exact ⟨y, (hy y rfl).1⟩
          · simp [hown]
        · rintro _ _ ⟨rfl, -⟩
          exact ⟨rfl, nofun⟩
      | none =>
        cases writes with
        | true => exact After.throw_iff.2 ⟨rfl, nofun⟩
        | false =>
          refine After.try_pure_iff.2 ⟨rfl, fun _ => ⟨x, hk, hxo, ho rfl, ?_, nofun⟩⟩
          rw [hown]
          nofun
    · rintro _ _ ⟨rfl, -⟩
      exact ⟨rfl, nofun⟩

/-! ## Statements -/

section Work

variable {α : Type} {k : Nat} {z : Statement} {x : Link → Op Statement α}
  {Q : Except Fault α → Database × World → Prop}

/-- What was done to a statement takes its place in the database. -/
theorem atStatement_iff (hz : s.1.statements.find? k = some z) :
    After (atStatement k x).run s Q ↔ After (x s.1.link).run (z, s.2) fun r b =>
      Q r ({ s.1 with statements := s.1.statements.modify k fun _ => b.1 }, b.2) := by
  simp only [atStatement, After.try_bind_iff, After.try_get_iff, hz, After.op_onAct_iff,
    After.runOn_iff, After.try_set_iff, After.ofResult_iff]

theorem atStatement_cases (hnone : s.1.statements.find? k = none → Q (.error .statementClosed) s)
    (hsome : ∀ z, s.1.statements.find? k = some z → After (x s.1.link).run (z, s.2) fun r b =>
      Q r ({ s.1 with statements := s.1.statements.modify k fun _ => b.1 }, b.2)) :
    After (atStatement k x).run s Q := by
  cases hz : s.1.statements.find? k with
  | some z => exact (atStatement_iff hz).2 (hsome z hz)
  | none =>
    simpa only [atStatement, After.try_bind_iff, After.try_get_iff, hz, After.throw_iff]
      using hnone hz

/-- Work on an open statement is done to that statement alone. -/
theorem onStatement_iff (hz : s.1.openStatement? k = some z) :
    After (onStatement k x).run s Q ↔ After (x s.1.link).run (z, s.2) fun r b =>
      Q r ({ s.1 with statements := s.1.statements.modify k fun _ => b.1 }, b.2) := by
  rw [← atStatement_iff (openStatement?_eq_some hz).1]
  simp only [onStatement, After.try_bind_iff, After.try_get_iff, hz]

theorem onStatement_cases (hnone : s.1.openStatement? k = none → Q (.error .statementClosed) s)
    (hsome : ∀ z, s.1.statements.find? k = some z → z.isOpen →
      After (x s.1.link).run (z, s.2) fun r b =>
        Q r ({ s.1 with statements := s.1.statements.modify k fun _ => b.1 }, b.2)) :
    After (onStatement k x).run s Q := by
  cases hz : s.1.openStatement? k with
  | some z =>
    obtain ⟨hk, ho⟩ := openStatement?_eq_some hz
    exact (onStatement_iff hz).2 (hsome z hk ho)
  | none =>
    simpa only [onStatement, After.try_bind_iff, After.try_get_iff, hz, After.throw_iff]
      using hnone hz

/-- There is nothing to close where there is no statement. -/
theorem closeStatement_cases {Q : Except Fault Unit → Database × World → Prop}
    (hnone : s.1.statements.find? k = none → Q (.ok ()) s)
    (hsome : ∀ z, s.1.statements.find? k = some z →
      After (Statement.close s.1.link) (z, s.2) fun r b =>
        Q r ({ s.1 with statements := s.1.statements.modify k fun _ => b.1 }, b.2)) :
    After (closeStatement k) s Q := by
  unfold closeStatement
  refine After.bind_iff.2 (After.get_iff.2 ?_)
  dsimp only
  cases hz : s.1.statements.find? k with
  | none => exact After.pure_iff.2 (hnone hz)
  | some z =>
    exact After.bind_iff.2 <| After.lift_iff.2 <| After.run_iff.2 <| (hsome z hz).mono
      fun _ _ h => After.bind_iff.2 (After.set_iff.2 (After.pure_iff.2 h))

end Work

/-- Work on a statement is work on the database. -/
theorem atStatement_leads {α : Type} {k : Nat} {x : Link → Op Statement α}
    (hx : ∀ z, d.statements.find? k = some z →
      After (x d.link).run (z, w) fun _ s' => Statement.Goes d.link.connection (z, w) s' ∧
        (A d ∨ Grown Idle w.engine.history s'.2.engine.history)) :
    After (atStatement k x).run (d, w) fun _ s' => Leads A (d, w) s' :=
  atStatement_cases (fun _ => .refl) fun z hz => (hx z hz).mono fun _ (_, _) ⟨hg, hA⟩ =>
    .change (.worked hz hg.stays hg.sane hg.calls.grown hA) hg.calls.keeps

theorem onStatement_leads {α : Type} {k : Nat} {x : Link → Op Statement α}
    (hx : ∀ z, d.statements.find? k = some z → z.isOpen →
      After (x d.link).run (z, w) fun _ s' => Statement.Goes d.link.connection (z, w) s' ∧
        (A d ∨ Grown Idle w.engine.history s'.2.engine.history)) :
    After (onStatement k x).run (d, w) fun _ s' => Leads A (d, w) s' :=
  onStatement_cases (fun _ => .refl) fun z hz ho => (hx z hz ho).mono fun _ (_, _) ⟨hg, hA⟩ =>
    .change (.worked hz hg.stays hg.sane hg.calls.grown hA) hg.calls.keeps

/-- Some statements were closed, and nothing else is different. -/
structure Shuts (d d' : Database) : Prop where
  rest : d' = { d with statements := d'.statements }
  closed : ∀ k, d.openStatement? k = none → d'.openStatement? k = none

namespace Shuts

variable {d' d'' : Database}

theorem refl : Shuts d d := ⟨rfl, fun _ h => h⟩

theorem trans (h₁ : Shuts d d') (h₂ : Shuts d' d'') : Shuts d d'' := by
  refine ⟨?_, fun k hk => h₂.closed k (h₁.closed k hk)⟩
  rw [h₂.rest, h₁.rest]

end Shuts

/-- How closing statements goes. -/
structure Closes (A : Database → Prop) (s s' : Database × World) : Prop where
  leads : Leads A s s'
  shuts : Shuts s.1 s'.1
  quiet : Grown Quiet s.2.engine.history s'.2.engine.history

namespace Closes

theorem refl : Closes A s s := ⟨.refl, .refl, .refl⟩

theorem trans (h₁ : Closes A s s') (h₂ : Closes A s' s'') : Closes A s s'' :=
  ⟨h₁.leads.trans h₂.leads, h₁.shuts.trans h₂.shuts, h₁.quiet.trans h₂.quiet⟩

theorem of_same (h : Same s s') : Closes A s s' := by
  refine ⟨.of_same h, ?_, ?_⟩
  · rw [h.database]
    exact .refl
  · rw [h.engine]
    exact .refl

end Closes

theorem closeStatement_after (hs : d.Sound w.engine.history) (k : Nat) :
    After (closeStatement k) (d, w) fun _ s' =>
      Closes A (d, w) s' ∧ s'.1.openStatement? k = none := by
  refine closeStatement_cases (fun hnone => ⟨.refl, ?_⟩) fun z hz => ?_
  · simp [openStatement?, show d.statements.find? k = none from hnone]
  · have hsane := hs.sane k z hz
    refine (Statement.close_after hsane.tidy).mono ?_
    rintro r ⟨z', w'⟩ ⟨hst, hclosed, hnone, hc⟩
    dsimp only at hz hst hclosed hnone hc ⊢
    have hsuf := hc.grown.suffix
    have find (j : Nat) : (d.statements.modify k fun _ => z').find? j =
        if j = k then some z' else d.statements.find? j := by
      rw [Table.find?_modify]
      split
      · next h => simp [h, hz]
      · rfl
    have hgone : Option.filter (·.isOpen) (some z') = none := by simp [hclosed]
    refine ⟨⟨.change (.worked hz hst ?_ (hc.grown.mono fun _ _ h => h.work)
      (.inr (hc.grown.mono fun _ _ h => h.2))) hc.keeps,
      ⟨rfl, fun j hj => ?_⟩, hc.grown⟩, ?_⟩
    · exact ⟨(hsane.handle.of_suffix hsuf).of_number hst.number,
        fun n x _ hx => absurd hx (hnone n x), fun n x hx => absurd hx (hnone n x)⟩
    · simp only [openStatement?, find] at hj ⊢
      split
      · exact hgone
      · exact hj
    · simp only [openStatement?, find, if_true, hgone]

section Closing

variable {I : Database × World → Prop} (hsame : ∀ {s s'}, I s → Same s s' → I s')
  (hclose : ∀ {k s}, I s → After (closeStatement k) s fun _ s' => I s')

include hsame hclose

/-- What closing a statement keeps, and what the log has no part in, is kept when several are
closed. -/
theorem closeEach_keeps_of {l : List Nat} {first : Except Fault Unit} (hs : I s) :
    After (closeEach first l) s fun _ s' => I s' := by
  induction l generalizing s first with
  | nil => exact After.pure_iff.2 hs
  | cons k l ih =>
    exact After.seq (hclose hs) fun next s₁ h₁ => After.bind_iff.2 <| After.get_iff.2 <|
      After.seq keepFirst_same fun first s₂ h₂ => ih (hsame h₁ h₂)

theorem closeOwned_keeps_of {t : Nat} (hs : I s) (hdisown : ∀ {s}, I s → I ({ s.1 with
      transactions := s.1.transactions.modify t fun x => { x with statements := [] } }, s.2)) :
    After (closeOwned t) s fun _ s' => I s' := by
  unfold closeOwned
  exact After.bind_iff.2 <| After.get_iff.2 <| After.seq (closeEach_keeps_of hsame hclose hs)
    fun _ _ h => After.bind_iff.2 <| After.modify_iff.2 <| After.pure_iff.2 (hdisown h)

end Closing

theorem closeEach_after {l : List Nat} {first : Except Fault Unit}
    (hs : s.1.Sound s.2.engine.history) : After (closeEach first l) s fun _ s' =>
      Closes A s s' ∧ ∀ k ∈ l, s'.1.openStatement? k = none := by
  induction l generalizing s first with
  | nil => exact After.pure_iff.2 ⟨.refl, nofun⟩
  | cons k l ih =>
    refine After.seq (closeStatement_after (A := A) hs k) fun next s₁ ⟨h₁, hk⟩ => ?_
    refine After.bind_iff.2 <| After.get_iff.2 <| After.seq keepFirst_same
      fun first s₂ hsame => ?_
    have h₂ := h₁.trans (.of_same hsame)
    refine (ih (h₂.leads.sound hs)).mono fun _ s₃ ⟨h₃, hl⟩ => ⟨h₂.trans h₃, fun j hj => ?_⟩
    obtain rfl | hj := List.mem_cons.1 hj
    · exact h₃.shuts.closed j (hsame.database ▸ hk)
    · exact hl j hj

/-- The statements of a transaction were closed, and it lists none any more. -/
structure Disowns (t : Nat) (d d' : Database) : Prop where
  rest : d' = { d with
    statements := d'.statements
    transactions := d.transactions.modify t fun x => { x with statements := [] } }

theorem closeOwned_after (hs : s.1.Sound s.2.engine.history) (t : Nat) :
    After (closeOwned t) s fun _ s' => Leads A s s' ∧ Disowns t s.1 s'.1 ∧
      Grown Quiet s.2.engine.history s'.2.engine.history := by
  unfold closeOwned
  refine After.bind_iff.2 <| After.get_iff.2 <| After.seq (closeEach_after (A := A) hs)
    fun first s₁ ⟨h₁, hl⟩ => ?_
  refine After.bind_iff.2 <| After.modify_iff.2 <| After.pure_iff.2 ?_
  have hrest := h₁.shuts.rest
  refine ⟨h₁.leads.trans (.change (.disowned fun x hx k hk => hl k ?_) .refl), ⟨?_⟩, h₁.quiet⟩
  · rw [hrest] at hx
    simp only [hx, Option.elim]
    exact hk
  · dsimp only
    rw [hrest]

theorem Disowns.ready {t : Nat} {x : Transaction} {d' : Database} (h : Disowns t d d')
    (hx : d.Ready t x) : d'.Ready t { x with statements := [] } := by
  obtain ⟨hx, ho, hc⟩ := hx
  have find (u : Nat) : d'.transactions.find? u = (d.transactions.find? u).map fun y =>
      if u = t then { y with statements := [] } else y := by
    rw [h.rest, Table.find?_modify]
    split <;> simp
  have active (u : Nat) : d'.isActive u = d.isActive u := by
    simp only [isActive, find, Option.any_map]
    congr 1
    funext y
    split <;> rfl
  refine ⟨by simp [find, hx], ho, ?_⟩
  simp only [openChild?, find, hx] at hc ⊢
  simpa [active, funext active] using hc

/-- What there is to do once it is known that a statement may be prepared. -/
theorem prepareReady_after {owner : Option Nat} {query : Option Query}
    {Q : Except Fault Nat → Database × World → Prop} (hrefused : ∀ f, Q (.error f) s)
    (hcalled : ∀ descriptor, Query.resolve? query s.1.link.info = .ok descriptor →
      After (s.1.link.backend.prepare s.1.link.connection descriptor.sql).run s.2.engine
        fun r e => ∀ s', Same (s.1, { s.2 with engine := e }) s' →
          (∀ f, r = .error f → Q (.error f) s') ∧
          ∀ handle, r = .ok handle → Q (.ok s'.1.statements.next)
            (s'.1.withStatement { owner, descriptor, handle }, s'.2)) :
    After (do
      let d ← getThe Database
      let descriptor ← Op.ofResult (Query.resolve? query d.link.info)
      match ← liftM (d.link.backend.prepare d.link.connection descriptor.sql).run with
      | .error f =>
        liftM (writeLog .debug ("Prepare failed for: " ++ descriptor.sql))
        throw f
      | .ok handle =>
        liftM (writeLog .debug ("Prepared: " ++ descriptor.sql))
        modify (·.withStatement { owner, descriptor, handle })
        return d.statements.next : Op Database Nat).run s Q := by
  refine After.try_bind_iff.2 <| After.try_get_iff.2 <| After.try_bind_iff.2 <|
    After.ofResult_iff.2 ?_
  cases hresolved : Query.resolve? query s.1.link.info with
  | error f => exact hrefused f
  | ok descriptor =>
    refine After.try_bind_iff.2 <| After.op_onEngine_iff.2 <|
      (hcalled descriptor hresolved).mono fun r e hq => ?_
    cases r with
    | error f =>
      exact After.try_bind_iff.2 <| After.try_lift_iff.2 <| writeLog_same.mono
        fun _ s' h => After.throw_iff.2 ((hq s' h).1 f rfl)
    | ok handle =>
      refine After.try_bind_iff.2 <| After.try_lift_iff.2 <| writeLog_same.mono
        fun _ s' h => After.try_bind_iff.2 <| After.try_modify_iff.2 <| After.try_pure_iff.2 ?_
      have hnext : s'.1.statements.next = s.1.statements.next := by rw [h.database]
      exact hnext ▸ (hq s' h).2 handle rfl

/-- What preparing a statement comes to, if it is known what the backend does. A refusal changes
nothing. -/
theorem prepare_after {owner : Option Nat} {query : Option Query}
    {Q : Except Fault Nat → Database × World → Prop} (hrefused : ∀ f, Q (.error f) s)
    (hcalled : s.1.isOpen → (∀ t, owner = some t → ∃ x, s.1.Ready t x) →
      ∀ descriptor, Query.resolve? query s.1.link.info = .ok descriptor →
        After (s.1.link.backend.prepare s.1.link.connection descriptor.sql).run s.2.engine
          fun r e => ∀ s', Same (s.1, { s.2 with engine := e }) s' →
            (∀ f, r = .error f → Q (.error f) s') ∧
            ∀ handle, r = .ok handle → Q (.ok s'.1.statements.next)
              (s'.1.withStatement { owner, descriptor, handle }, s'.2)) :
    After (prepare owner query).run s Q := by
  unfold prepare
  refine After.try_seq checkOpen_after ?_ ?_
  · rintro _ _ ⟨rfl, ho⟩
    cases owner with
    | none => exact prepareReady_after hrefused (hcalled (ho rfl) fun _ ht => by cases ht)
    | some t =>
      refine After.try_seq checkUsable_after ?_ ?_
      · rintro x _ ⟨rfl, hx⟩
        refine prepareReady_after hrefused (hcalled (ho rfl) ?_)
        rintro _ ⟨⟩
        exact ⟨x, (hx x rfl).1⟩
      · rintro f _ ⟨rfl, -⟩
        exact hrefused f
  · rintro f _ ⟨rfl, -⟩
    exact hrefused f

/-- What is prepared for a transaction belongs to it. -/
theorem prepare_leads {owner : Option Nat} {query : Option Query} :
    After (prepare owner query).run s fun r s' => Leads A s s' ∧
      ∀ k, r = .ok k → ∃ z, s'.1.statements.find? k = some z ∧ z.owner = owner := by
  refine prepare_after (fun _ => ⟨.refl, fun _ hk => by cases hk⟩) fun ho howner descriptor _ =>
    (Backend.prepare_after _).mono ?_
  rintro r e ⟨hc, hmade⟩ s₁ h
  have called : Leads A s (s.1, { s.2 with engine := e }) := .change (.called hc.grown) hc.keeps
  refine ⟨fun f hr => ⟨called.same h, fun _ hk => by cases hk⟩, fun handle hr => ?_⟩
  have hadd : Leads A s₁ (s₁.1.withStatement { owner, descriptor, handle }, s₁.2) := by
    refine .change (.added ?_ ?_ ?_) .refl
    · rw [h.database]
      exact ho
    · rw [h.database]
      exact howner
    · rw [h.database, h.engine]
      exact hmade handle hr
  refine ⟨(called.same h).trans hadd, ?_⟩
  rintro k ⟨⟩
  exact ⟨_, Table.find?_add_eq_some.2 (.inl ⟨rfl, rfl⟩), rfl⟩

/-! ## Transactions -/

theorem begin_leads : After begin.run s fun _ s' => Leads A s s' := by
  unfold begin
  refine After.try_seq checkOpen_after ?_ ?_
  · rintro _ s ⟨rfl, ho⟩
    refine After.try_bind_iff.2 (After.try_get_iff.2 ?_)
    dsimp only
    split
    · exact After.try_bind_iff.2 (After.throw_iff.2 .refl)
    split
    · exact After.try_bind_iff.2 (After.throw_iff.2 .refl)
    next hroot =>
    refine After.try_bind_iff.2 <| After.op_onTry_iff.2 <|
      (Backend.control_asked _ _).mono fun r e ⟨ha, hn⟩ => ?_
    cases r with
    | error f => exact .change (.refused (.inl rfl) ha) hn
    | ok _ =>
      refine After.try_bind_iff.2 <| After.try_modify_iff.2 <| After.try_bind_iff.2 <|
        After.try_lift_iff.2 <| writeLog_same.mono fun _ _ h => After.try_pure_iff.2 ?_
      have began : Leads A s (s.1.withRoot, { s.2 with engine := e }) :=
        .change (.began (ho rfl) (Bool.eq_false_iff.2 hroot) ha) hn
      exact began.same h
  · rintro _ _ ⟨rfl, -⟩
    exact .refl

theorem nest_leads {parent : Nat} : After (nest parent).run s fun _ s' => Leads A s s' := by
  unfold nest
  refine After.try_seq checkUsable_after ?_ ?_
  · rintro x s ⟨rfl, hx⟩
    obtain ⟨hx, ho⟩ := hx x rfl
    refine After.try_bind_iff.2 <| After.try_modify_iff.2 <| After.try_bind_iff.2 <|
      After.try_get_iff.2 <| After.try_bind_iff.2 <| After.op_onTry_iff.2 <|
        (Backend.control_asked _ _).mono fun r e ⟨ha, hn⟩ => ?_
    cases r with
    | error f => exact .change (.numbered ha) hn
    | ok _ =>
      refine After.try_bind_iff.2 <| After.try_modify_iff.2 <| After.try_bind_iff.2 <|
        After.try_lift_iff.2 <| writeLog_same.mono fun _ _ h => After.try_pure_iff.2 ?_
      have nested : Leads A s ({ s.1 with savepoints := s.1.savepoints + 1 }.withNested parent
          (s.1.savepoints + 1) (x.depth + 1), { s.2 with engine := e }) :=
        .change (.nested ho hx ha) hn
      exact nested.same h
  · rintro _ _ ⟨rfl, -⟩
    exact .refl

theorem keepWork_asked {l : Link} {o : Origin} (e : Engine) : After (keepWork l o).run e fun r e' =>
    Asked l.connection (keeping o) e.history r.isOk e'.history ∧
      e.Keeps e' := by
  cases o <;> exact Backend.control_asked _ e

theorem undoWork_undone {l : Link} {o : Origin} (e : Engine) :
    After (undoWork l o).run e fun _ e' =>
    Undone l.connection o e.history e'.history ∧ e.Keeps e' := by
  cases o with
  | root => exact (Backend.control_asked _ e).mono fun _ _ ⟨ha, hn⟩ => ⟨⟨_, ha⟩, hn⟩
  | nested p n => exact Backend.rollbackTo_rewound _ n e

/-- A commit that is allowed closes the statements of the transaction first. If the engine
refuses then, that is all. -/
theorem commit_after {t : Nat} (hs : s.1.Sound s.2.engine.history) :
    After (commit t).run s fun _ s' => Leads A s s' ∧ (Same s s' ∨ ∃ x d₁ h₁ ok, s.1.Ready t x ∧
      Disowns t s.1 d₁ ∧ Grown Quiet s.2.engine.history h₁ ∧
      Asked s.1.link.connection (keeping x.origin) h₁ ok s'.2.engine.history ∧
      s'.1 = if ok then d₁.withEnded t x.origin .committed else d₁) := by
  unfold commit
  refine After.try_seq active_after ?_ ?_
  · rintro x s ⟨rfl, hx, -⟩
    have hx := hx x rfl
    refine After.try_seq checkOpen_after ?_ ?_
    · rintro _ s ⟨rfl, ho⟩
      refine After.try_bind_iff.2 <| After.try_lift_iff.2 <|
        (closeOwned_after (A := A) hs t).mono fun first s₁ ⟨h₁, hd, hq⟩ => ?_
      have hlink : s₁.1.link = s.1.link := h₁.path.link
      have ho₁ : s₁.1.isOpen := by
        rw [hd.rest]
        exact ho rfl
      refine After.try_bind_iff.2 <| After.try_get_iff.2 <| After.try_bind_iff.2 <|
        After.op_onEngine_iff.2 <| (keepWork_asked _).mono fun r e ⟨ha, hn⟩ => ?_
      cases r with
      | error f =>
        refine After.try_bind_iff.2 <| After.try_lift_iff.2 <| writeLog_same.mono
          fun _ s₃ h => After.throw_iff.2 ?_
        have hrefused : Leads A s₁ (s₁.1, { s₁.2 with engine := e }) := by
          refine .change (.refused ?_ ha) hn
          cases x.origin with
          | root => exact .inr (.inl rfl)
          | nested p n => exact .inr (.inr ⟨n, rfl⟩)
        refine ⟨(h₁.trans hrefused).same h, .inr ⟨x, s₁.1, _, false, hx, hd, hq, ?_, h.database⟩⟩
        rw [h.engine, ← hlink]
        exact ha
      | ok _ =>
        refine After.try_bind_iff.2 <| After.try_modify_iff.2 <| After.try_bind_iff.2 <|
          After.try_lift_iff.2 <| writeLog_same.mono fun _ s₃ h => After.ofResult_iff.2 ?_
        have hcommitted : Leads A s₁ (s₁.1.withEnded t x.origin .committed,
            { s₁.2 with engine := e }) :=
          .change (.committed (x := { x with statements := [] }) ho₁ (hd.ready hx) rfl ha) hn
        refine ⟨(h₁.trans hcommitted).same h,
          .inr ⟨x, s₁.1, _, true, hx, hd, hq, ?_, h.database⟩⟩
        rw [h.engine, ← hlink]
        exact ha
    · rintro _ _ ⟨rfl, -⟩
      exact ⟨.refl, .inl ⟨rfl, rfl⟩⟩
  · rintro _ _ ⟨rfl, -⟩
    exact ⟨.refl, .inl ⟨rfl, rfl⟩⟩

/-- A rollback that is allowed closes the statements of the transaction first, and ends it in any
case. -/
theorem rollback_after {t : Nat} (hs : s.1.Sound s.2.engine.history) :
    After (rollback t).run s fun _ s' => Leads A s s' ∧
      (((∀ x, ¬ s.1.Ready t x) ∧ Same s s') ∨ ∃ x d₁ h₁, s.1.Ready t x ∧ Disowns t s.1 d₁ ∧
        Grown Quiet s.2.engine.history h₁ ∧
        Undone s.1.link.connection x.origin h₁ s'.2.engine.history ∧
        s'.1 = d₁.withEnded t x.origin .rolledBack) := by
  unfold rollback
  refine After.try_seq active_after ?_ ?_
  · rintro x s ⟨rfl, hx, -⟩
    have hx := hx x rfl
    refine After.try_bind_iff.2 <| After.try_lift_iff.2 <|
      (closeOwned_after (A := A) hs t).mono fun first s₁ ⟨h₁, hd, hq⟩ => ?_
    have hlink : s₁.1.link = s.1.link := h₁.path.link
    have ho₁ : s₁.1.isOpen := by
      rw [hd.rest]
      exact hs.owned.transaction t x hx.1 hx.2.1
    have undone : After (undo first x.origin) s₁ fun _ s₂ => s₂.1 = s₁.1 ∧
        Undone s₁.1.link.connection x.origin s₁.2.engine.history s₂.2.engine.history ∧
        s₁.2.engine.Keeps s₂.2.engine := by
      unfold undo
      refine After.bind_iff.2 (After.get_iff.2 ?_)
      rw [if_pos ho₁]
      refine After.bind_iff.2 <| After.object_onEngine_iff.2 <| (undoWork_undone _).mono
        fun r e ⟨hu, hn⟩ => keepFirst_same.mono fun _ s₂ h => ?_
      rw [h.database, h.engine]
      exact ⟨rfl, hu, hn⟩
    refine After.try_bind_iff.2 <| After.try_lift_iff.2 <| undone.mono
      fun first s₂ ⟨hd₂, hu, hn⟩ => ?_
    refine After.try_bind_iff.2 <| After.try_modify_iff.2 <| After.try_bind_iff.2 <|
      After.try_lift_iff.2 <| writeLog_same.mono fun _ s₃ h => After.ofResult_iff.2 ?_
    have ended : Leads A s₁ (s₂.1.withEnded t x.origin .rolledBack, s₂.2) := by
      rw [hd₂]
      exact .change (.rolledBack (x := { x with statements := [] }) ho₁ (hd.ready hx) rfl hu) hn
    refine ⟨(h₁.trans ended).same h, .inr ⟨x, s₁.1, _, hx, hd, hq, ?_, ?_⟩⟩
    · rw [h.engine, ← hlink]
      exact hu
    · rw [h.database, hd₂]
  · rintro f _ ⟨rfl, -, hx⟩
    exact ⟨.refl, .inl ⟨hx f rfl, rfl, rfl⟩⟩

/-- Nothing was opened or listed, and what is open was open. -/
structure Shrinks (d d' : Database) : Prop where
  isOpen : d'.isOpen = d.isOpen
  listed : d'.listed = d.listed
  next : d'.transactions.next = d.transactions.next
  back : ∀ t z, d'.transactions.find? t = some z → ∃ y, d.transactions.find? t = some y ∧
    y.origin = z.origin ∧ (z.ended = none → y.ended = none)

namespace Shrinks

variable {d' d'' : Database}

theorem refl : Shrinks d d := ⟨rfl, rfl, rfl, fun _ z hz => ⟨z, hz, rfl, id⟩⟩

theorem trans (h₁ : Shrinks d d') (h₂ : Shrinks d' d'') : Shrinks d d'' := by
  refine ⟨h₂.isOpen.trans h₁.isOpen, h₂.listed.trans h₁.listed, h₂.next.trans h₁.next,
    fun t z hz => ?_⟩
  obtain ⟨y, hy, ho, hn⟩ := h₂.back t z hz
  obtain ⟨x, hx, ho', hn'⟩ := h₁.back t y hy
  exact ⟨x, hx, ho'.trans ho, hn' ∘ hn⟩

end Shrinks

theorem Disowns.linked {t : Nat} {d' : Database} (h : Disowns t d d') (hl : d.Linked) :
    d'.Linked := by
  rw [h.rest]
  exact hl.disowned rfl rfl (Nat.le_refl _)

theorem Disowns.shrinks {t : Nat} {d' : Database} (h : Disowns t d d') : Shrinks d d' := by
  rw [h.rest]
  refine ⟨rfl, rfl, rfl, fun u z hz => ?_⟩
  obtain ⟨rfl, y, hy, rfl⟩ | ⟨-, hz⟩ := Table.find?_modify_eq_some.1 hz
  · exact ⟨y, hy, rfl, id⟩
  · exact ⟨z, hz, rfl, id⟩

/-- An open child is nested in its parent. -/
theorem Linked.of_openChild? (hl : d.Linked) {t c : Nat} (hc : d.openChild? t = some c) :
    ∃ x y n, d.transactions.find? t = some x ∧ x.child = some c ∧
      d.transactions.find? c = some y ∧ y.ended = none ∧ y.origin = .nested t n := by
  cases hx : d.transactions.find? t with
  | none => simp [openChild?, hx] at hc
  | some x =>
    simp only [openChild?, hx, Option.bind_eq_bind, Option.bind_some] at hc
    have hchild := (Option.filter_eq_some_iff.1 hc).1
    obtain ⟨y, n, hy⟩ := hl.child t x c hx hchild
    exact ⟨x, y, n, rfl, hchild, hy⟩

theorem Ready.shrinks {t : Nat} {x : Transaction} {how : Ended} (hl : d.Linked) (hx : d.Ready t x) :
    Shrinks d (d.withEnded t x.origin how) := by
  refine ⟨withEnded_isOpen, withEnded_listed, withEnded_next, fun u z hz => ?_⟩
  obtain ⟨y, hy⟩ := Linked.find_of_withEnded hz
  obtain rfl := Option.some.inj ((hl.find_withEnded hx.1 hy).symm.trans hz)
  refine ⟨y, hy, rfl, fun ho => ?_⟩
  dsimp only at ho
  split at ho
  · cases ho
  · exact ho

theorem isActive_eq_false {t : Nat} :
    d.isActive t = false ↔ ∀ x, d.transactions.find? t = some x → x.ended ≠ none := by
  rw [Bool.eq_false_iff, Ne, isActive_iff]
  simp

/-- After a transaction was rolled back it is no more open, unless one nested in it still is. -/
theorem rollback_shrinks {t : Nat} (hs : s.1.Sound s.2.engine.history) :
    After (rollback t).run s fun _ s' => Leads A s s' ∧ Shrinks s.1 s'.1 ∧
      (s.1.openChild? t = none → s'.1.isActive t = false) := by
  refine (rollback_after (A := A) hs).mono ?_
  rintro _ s' ⟨hleads, ⟨hnot, hsame⟩ | ⟨x, d₁, h₁, hx, hd, -, -, hd'⟩⟩
  · refine ⟨hleads, hsame.database ▸ .refl, fun hc => ?_⟩
    rw [hsame.database, isActive_eq_false]
    exact fun x hx ho => hnot x ⟨hx, ho, hc⟩
  · have hready := hd.ready hx
    have hl₁ := hd.linked hs.linked
    refine ⟨hleads, hd' ▸ hd.shrinks.trans
      (Ready.shrinks (x := { x with statements := [] }) hl₁ hready), fun _ => ?_⟩
    rw [hd', isActive_eq_false]
    intro y hy
    obtain rfl := Option.some.inj ((hl₁.find_withEnded hready.1 hready.1).symm.trans hy)
    simp

/-- A transaction has no open child after its child was ended: another one would have been there
before. -/
theorem Shrinks.openChild? {d' : Database} {t c : Nat} (h : Shrinks d d') (hl : d.Linked)
    (hl' : d'.Linked) (hc : d.openChild? t = some c) (hnot : d'.isActive c = false) :
    d'.openChild? t = none := by
  refine Option.eq_none_iff_forall_ne_some.2 fun c' hc' => ?_
  obtain ⟨-, y, m, -, -, hy, hyo, hparent⟩ := hl'.of_openChild? hc'
  obtain ⟨y₀, hy₀, ho₀, hopen₀⟩ := h.back c' y hy
  obtain ⟨-, -, x, hx, -, hback⟩ := hl.nested c' y₀ t m hy₀ (ho₀.trans hparent)
  obtain ⟨x', -, -, hx', hchild', -⟩ := hl.of_openChild? hc
  obtain rfl : x = x' := Option.some.inj (hx.symm.trans hx')
  obtain rfl : c' = c := Option.some.inj ((hback (hopen₀ hyo)).2.symm.trans hchild')
  exact isActive_eq_false.1 hnot y hy hyo

/-- An open child came after its parent. -/
theorem Linked.lt_openChild? (hl : d.Linked) {t c : Nat} (hc : d.openChild? t = some c) :
    t < c := by
  obtain ⟨-, y, n, -, -, hy, -, ho⟩ := hl.of_openChild? hc
  exact (hl.nested c y t n hy ho).1

/-! ## Rolling back with all that is within -/

/-- The end of rolling back a chain: the transaction itself is rolled back if it is still open. -/
def rollbackLast (t : Nat) (first : Except Fault Unit) :
    StateT Database Act (Except Fault Unit) := do
  if (← getThe Database).isActive t then
    let next ← (rollback t).attempt
    liftM (keepFirst (← getThe Database).sink "Rollback failed" first next)
  else return first

section Chain

variable {n t : Nat} {first : Except Fault Unit} {Q : Except Fault Unit → Database × World → Prop}

theorem rollbackLast_after (hended : s.1.isActive t = false → Q first s)
    (hopen : s.1.isActive t → After (rollback t).run s fun next s' => After
      (liftM (keepFirst s'.1.sink "Rollback failed" first next) : StateT Database Act _) s' Q) :
    After (rollbackLast t first) s Q := by
  unfold rollbackLast
  refine After.bind_iff.2 (After.get_iff.2 ?_)
  split
  · next ht =>
    exact After.bind_iff.2 <| After.attempt_iff.2 <| (hopen ht).mono fun _ _ h =>
      After.bind_iff.2 (After.get_iff.2 h)
  · next ht => exact After.pure_iff.2 (hended (Bool.eq_false_iff.2 ht))

/-- A chain ends with its first transaction, after what is nested in that. -/
theorem rollbackChain_succ
    (hnone : s.1.openChild? t = none → After (rollbackLast t (.ok ())) s Q)
    (hchild : ∀ c, s.1.openChild? t = some c →
      After (rollbackChain n c) s fun first s' => After (rollbackLast t first) s' Q) :
    After (rollbackChain (n + 1) t) s Q := by
  unfold rollbackChain
  refine After.bind_iff.2 (After.get_iff.2 ?_)
  dsimp only
  cases hc : s.1.openChild? t with
  | none => exact After.bind_iff.2 (After.pure_iff.2 (hnone hc))
  | some c => exact After.bind_iff.2 (hchild c hc)

/-! What rolling back one transaction keeps, and what the log has no part in, is kept when all are
rolled back. -/

variable {I : Database × World → Prop} (hsame : ∀ {s s'}, I s → Same s s' → I s')
  (hroll : ∀ {t s}, I s → After (rollback t).run s fun _ s' => I s')

include hsame hroll

theorem rollbackLast_keeps_of (hs : I s) : After (rollbackLast t first) s fun _ s' => I s' := by
  refine rollbackLast_after (fun _ => hs) fun _ => (hroll hs).mono fun _ _ h => ?_
  exact keepFirst_same.mono fun _ _ => hsame h

theorem rollbackChain_keeps_of (hs : I s) : After (rollbackChain n t) s fun _ s' => I s' := by
  induction n generalizing s t with
  | zero => exact After.pure_iff.2 hs
  | succ n ih =>
    exact rollbackChain_succ (fun _ => rollbackLast_keeps_of hsame hroll hs) fun _ _ =>
      (ih hs).mono fun _ _ => rollbackLast_keeps_of hsame hroll

theorem rollbackThrough_keeps_of (hs : I s) : After (rollbackThrough t) s fun _ s' => I s' := by
  unfold rollbackThrough
  refine After.bind_iff.2 (After.get_iff.2 ?_)
  split
  · exact rollbackChain_keeps_of hsame hroll hs
  · exact After.pure_iff.2 hs

theorem abandonChain_keeps_of (hs : I s) : After (abandonChain first) s fun _ s' => I s' := by
  unfold abandonChain
  refine After.bind_iff.2 (After.get_iff.2 ?_)
  cases s.1.root.filter s.1.isActive with
  | none => exact After.pure_iff.2 hs
  | some r =>
    exact After.seq writeLog_same fun _ _ h =>
      After.seq (rollbackChain_keeps_of hsame hroll (hsame hs h)) fun _ _ h =>
        keepFirst_same.mono fun _ _ => hsame h

end Chain

theorem rollbackLast_shrinks {t : Nat} {first : Except Fault Unit}
    (hs : s.1.Sound s.2.engine.history) :
    After (rollbackLast t first) s fun _ s' => Leads A s s' ∧ Shrinks s.1 s'.1 ∧
      (s.1.openChild? t = none → s'.1.isActive t = false) := by
  refine rollbackLast_after (fun hended => ⟨.refl, .refl, fun _ => hended⟩) fun _ =>
    (rollback_shrinks (A := A) hs).mono fun _ _ ⟨h₁, hshr, hinactive⟩ =>
      keepFirst_same.mono fun _ _ h => ?_
  rw [h.database]
  exact ⟨h₁.same h, hshr, hinactive⟩

theorem rollbackChain_after {n t : Nat} (hs : s.1.Sound s.2.engine.history) :
    After (rollbackChain n t) s fun _ s' => Leads A s s' ∧ Shrinks s.1 s'.1 ∧
      (s.1.transactions.next ≤ t + n → s'.1.isActive t = false) := by
  induction n generalizing s t with
  | zero =>
    refine After.pure_iff.2 ⟨.refl, .refl, fun hn => ?_⟩
    rw [isActive_eq_false, Table.find?_eq_none _ (show s.1.transactions.next ≤ t from hn)]
    nofun
  | succ n ih =>
    refine rollbackChain_succ (fun hc => ?_) fun c hc => ?_
    · exact (rollbackLast_shrinks (A := A) hs).mono fun _ _ ⟨h₁, hshr, hinactive⟩ =>
        ⟨h₁, hshr, fun _ => hinactive hc⟩
    · refine (ih hs).mono fun first s₁ ⟨h₁, hshr₁, hinactive₁⟩ =>
        (rollbackLast_shrinks (A := A) (h₁.sound hs)).mono fun _ s₂ ⟨h₂, hshr₂, hinactive₂⟩ =>
          ⟨h₁.trans h₂, hshr₁.trans hshr₂, fun hn => hinactive₂ ?_⟩
      -- the transaction has no open child any more, since the one that it had was rolled back
      have hlt := hs.linked.lt_openChild? hc
      exact hshr₁.openChild? hs.linked (h₁.sound hs).linked hc (hinactive₁ (by omega))

theorem rollbackThrough_leads {t : Nat} (hs : s.1.Sound s.2.engine.history) :
    After (rollbackThrough t) s fun _ s' => Leads A s s' :=
  rollbackThrough_keeps_of (I := Leads A s) .same
    (fun h => (rollback_shrinks (h.sound hs)).mono fun _ _ h' => h.trans h'.1) .refl

/-! ## Running -/

theorem executeStatement_leads {k : Nat} (hs : s.1.Sound s.2.engine.history)
    (hA : ∀ z, s.1.Runnable k true z → A s.1) :
    After (executeStatement k).run s fun _ s' => Leads A s s' := by
  unfold executeStatement
  refine After.try_seq checkRunnable_after ?_ ?_
  · rintro _ s ⟨rfl, hz⟩
    obtain ⟨z, hz⟩ := hz rfl
    exact onStatement_leads fun y hy _ =>
      (Statement.execute_goes (hs.sane k y hy)).mono fun _ _ h => ⟨h.1, .inl (hA z hz)⟩
  · rintro _ _ ⟨rfl, -⟩
    exact .refl

/-- A query that is run once is run while its transaction is ready. -/
theorem executeOnce_leads {t : Nat} {query : Option Query} (hs : s.1.Sound s.2.engine.history)
    (hA : ∀ d x, Ready d t x → A d) :
    After (executeOnce t query).run s fun _ s' => Leads A s s' := by
  unfold executeOnce
  refine After.try_seq prepare_leads (fun k s₁ ⟨h₁, hk⟩ => ?_) fun _ _ h => h.1
  obtain ⟨z, hz, hzt⟩ := hk k rfl
  have executed := executeStatement_leads (A := A) (k := k) (h₁.sound hs) fun y hy => by
    obtain rfl : z = y := Option.some.inj (hz.symm.trans hy.statement)
    obtain ⟨x, hx⟩ := hy.owner t hzt
    exact hA _ x hx
  refine After.try_bind_iff.2 <| After.try_lift_iff.2 <| After.attempt_iff.2 <|
    executed.mono fun ran s₂ h₂ => ?_
  have h₂ := h₁.trans h₂
  refine After.try_bind_iff.2 <| After.try_lift_iff.2 <|
    (closeStatement_after (A := A) (h₂.sound hs) k).mono fun closed s₃ ⟨h₃, _⟩ => ?_
  have h₃ := h₂.trans h₃.leads
  cases ran with
  | error f => exact After.throw_iff.2 h₃
  | ok _ => exact After.ofResult_iff.2 h₃

/-! ## Closing -/

theorem abandonChain_after {first : Except Fault Unit} (hs : s.1.Sound s.2.engine.history) :
    After (abandonChain first) s fun _ s' => Leads A s s' ∧ s'.1.listed = s.1.listed ∧
      s'.1.root.any s'.1.isActive = false := by
  unfold abandonChain
  refine After.bind_iff.2 (After.get_iff.2 ?_)
  cases hr : s.1.root.filter s.1.isActive with
  | none =>
    refine After.pure_iff.2 ⟨.refl, rfl, ?_⟩
    cases hroot : s.1.root with
    | none => rfl
    | some r =>
      rw [hroot] at hr
      simpa [Option.filter] using hr
  | some r =>
    have hroot := (Option.filter_eq_some_iff.1 hr).1
    refine After.seq writeLog_same fun _ s₁ hsame => ?_
    have h₁ : Leads A s s₁ := .of_same hsame
    refine After.seq (rollbackChain_after (A := A) (h₁.sound hs))
      fun next s₂ ⟨h₂, hshr, hinactive⟩ => ?_
    refine keepFirst_same.mono fun _ s₃ h₃ => ?_
    have h₂ := h₁.trans h₂
    rw [hsame.database] at hshr hinactive
    refine ⟨h₂.same h₃, h₃.database ▸ hshr.listed, ?_⟩
    rw [h₃.database]
    cases hr' : s₂.1.root with
    | none => rfl
    | some r' =>
      -- an open root would be the one that was open before
      obtain ⟨y, hy, hyo, hor⟩ := (h₂.sound hs).linked.root_open r' hr'
      obtain ⟨y₀, hy₀, ho₀, hopen₀⟩ := hshr.back r' y hy
      have hr₀ := (hs.linked.root r' y₀ hy₀ (ho₀.trans hor)).2 (hopen₀ hyo)
      obtain rfl : r' = r := Option.some.inj (hr₀.symm.trans hroot)
      exact hinactive (Nat.le_add_left _ _)

/-- A database is closed after it was closed. -/
theorem close_after (hs : s.1.Sound s.2.engine.history) :
    After close s fun _ s' => Leads A s s' ∧ s'.1.isOpen = false := by
  unfold close
  refine After.bind_iff.2 (After.get_iff.2 ?_)
  cases ho : s.1.isOpen with
  | false => exact After.pure_iff.2 ⟨.refl, ho⟩
  | true =>
    refine After.seq (closeEach_after (A := A) hs) fun first s₁ ⟨h₁, hl⟩ => ?_
    have hlisted : s₁.1.listed = s.1.listed := by rw [h₁.shuts.rest]
    refine After.bind_iff.2 (After.modify_iff.2 ?_)
    have h₂ : Leads A s ({ s₁.1 with listed := [] }, s₁.2) :=
      h₁.leads.trans (.change (.unlisted (hlisted ▸ hl)) .refl)
    refine After.seq (abandonChain_after (A := A) (h₂.sound hs))
      fun first s₃ ⟨h₃, hlisted₃, hroot⟩ => ?_
    have h₃ := h₂.trans h₃
    have hclose : Makes (Closing s₃.1.link.connection)
        (s.1.link.backend.disconnect s.1.link.connection).run := by
      rw [h₃.path.link]
      exact Backend.makes_disconnect fun n hn _ _ => ⟨n, hn, rfl⟩
    refine After.bind_iff.2 <| After.object_onEngine_iff.2 <| (hclose _).mono fun next e hc => ?_
    refine After.seq keepFirst_same fun first s₄ h₄ => ?_
    refine After.bind_iff.2 <| After.modify_iff.2 <| After.seq writeLog_same fun _ s₅ h₅ =>
      After.pure_iff.2 ?_
    have hclosed : Leads A s₃ ({ s₃.1 with isOpen := false }, { s₃.2 with engine := e }) :=
      .change (.closed hlisted₃ hroot hc.grown) hc.keeps
    refine ⟨(h₃.trans hclosed).same ⟨?_, h₅.engine.trans h₄.engine⟩, ?_⟩
    · rw [h₅.database, h₄.database]
    · rw [h₅.database]

end SqlAccess.Database
