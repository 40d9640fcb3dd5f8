import SqlAccess.Proofs.Closing
import SqlAccess.Proofs.Preserved.Backend

/-!
# What operations on statements preserve

A statement uses the engine's statements that it and its cursors hold. If these are all among `K`
and the numbers of its cursors among `G` (`Statement.Within`), and the engine satisfies a predicate
that admits quiet calls on each of `K`, then closing and binding the statement preserve all that; so
does running it, if the predicate admits that too. New statements that are made on the way have to
be among `K`. Whatever is done, it stays the statement that was prepared (`Statement.Alike`).
-/

namespace SqlAccess

namespace Statement

/-- The engine's statements that a statement uses are among some, and the numbers of its cursors,
of the open ones and of those to come, are among others. -/
structure Within (K G : Nat → Prop) (s : Statement) : Prop where
  handle : ∀ k, s.handle.number? = some k → K k
  own : ∀ n c h, s.cursors.find? n = some c → c.own = some h → ∀ k, h.number? = some k → K k
  cursor : ∀ n c, s.cursors.find? n = some c → G n
  coming : ∀ n, s.cursors.next ≤ n → G n

/-- One statement was prepared as the other one was. -/
structure Alike (s s' : Statement) : Prop where
  owner : s'.owner = s.owner
  descriptor : s'.descriptor = s.descriptor
  handle : s'.handle.fixed = s.handle.fixed

theorem Alike.refl {s : Statement} : s.Alike s := ⟨rfl, rfl, rfl⟩

theorem Alike.trans {s s' s'' : Statement} (h : s.Alike s') (h' : s'.Alike s'') : s.Alike s'' :=
  ⟨h'.owner.trans h.owner, h'.descriptor.trans h.descriptor, h'.handle.trans h.handle⟩

theorem Alike.number {s s' : Statement} (h : s.Alike s') : s'.handle.number? = s.handle.number? :=
  Handle.number?_of_fixed h.handle

/-- An engine satisfies a predicate, and what a statement has become uses some of its statements. -/
structure Tends (I : Engine → Prop) (K G : Nat → Prop) (z : Statement) (a : Statement × World) :
    Prop where
  engine : I a.2.engine
  within : a.1.Within K G
  alike : z.Alike a.1

variable {I : Engine → Prop} {K G : Nat → Prop} {l : Link} {z s : Statement} {w : World}
  {a : Statement × World}

/-- The statement that a cursor reads is among those that are used. -/
theorem Within.reads (h : s.Within K G) {n : Nat} {c : Cursor} (hc : s.cursors.find? n = some c)
    {k : Nat} (hk : (c.own.getD s.handle).number? = some k) : K k := by
  cases ho : c.own with
  | none => exact h.handle k (by rwa [ho] at hk)
  | some o => exact h.own n c o hc ho k (by rwa [ho] at hk)

/-- A handle was used, but for the same statement. -/
theorem Within.used (h : s.Within K G) {o : Handle} (ho : o.fixed = s.handle.fixed) :
    { s with handle := o }.Within K G :=
  ⟨fun k hk => h.handle k (Handle.number?_of_fixed ho ▸ hk), h.own, h.cursor, h.coming⟩

theorem Within.erase (h : s.Within K G) (n : Nat) :
    { s with cursors := s.cursors.erase n }.Within K G := by
  have found {m : Nat} {c : Cursor} (hm : (s.cursors.erase n).find? m = some c) :
      s.cursors.find? m = some c := by
    rw [Table.find?_erase] at hm
    split at hm
    · cases hm
    · exact hm
  exact ⟨h.handle, fun m c p hm => h.own m c p (found hm), fun m c hm => h.cursor m c (found hm),
    h.coming⟩

/-- All statements of the engine and all numbers of cursors may be used. -/
theorem Tends.all (h : I w.engine) : Tends I (fun _ => True) (fun _ => True) s (s, w) :=
  ⟨h, ⟨fun _ _ => trivial, fun _ _ _ _ _ _ _ => trivial, fun _ _ _ => trivial, fun _ _ => trivial⟩,
    .refl⟩

/-- A world in which something else was written to the log. -/
theorem Tends.engine_eq {w' : World} (h : Tends I K G z a) (hw : w'.engine = a.2.engine) :
    Tends I K G z (a.1, w') := ⟨hw ▸ h.engine, h.within, h.alike⟩

/-- The engine went on. -/
theorem Tends.went {v : World} (h : Tends I K G z a) (hv : I v.engine) :
    Tends I K G z (a.1, v) := ⟨hv, h.within, h.alike⟩

/-- The engine went on, and the handle was used. -/
theorem Tends.used {w' : World} {o : Handle} (h : Tends I K G z (s, w)) (hw : I w'.engine)
    (ho : o.fixed = s.handle.fixed) : Tends I K G z ({ s with handle := o }, w') :=
  ⟨hw, h.within.used ho, ⟨h.alike.owner, h.alike.descriptor, ho.trans h.alike.handle⟩⟩

/-! ## Closing -/

section Closing

variable (hq : ∀ k, K k → AdmitsRelease I k)
include hq

theorem Tends.release (h : Tends I K G z a) {k : Nat} (hk : a.1.handle.number? = some k) :
    AdmitsRelease I k := hq k (h.within.handle k hk)

variable [Steady I]

theorem closeCursor_tends (n : Nat) (h : Tends I K G z (s, w)) :
    After (closeCursor n l).run (s, w) fun _ s' => Tends I K G z s' := by
  refine closeCursor_cases (fun _ => h) fun x hx => ?_
  have h₀ : Tends I K G z ({ s with cursors := s.cursors.erase n }, w) :=
    ⟨h.engine, h.within.erase n, ⟨h.alike.owner, h.alike.descriptor, h.alike.handle⟩⟩
  refine (Backend.preserves_freeRows _ h.engine).mono fun _ e₁ h₁ => ⟨fun o ho => ?_, fun _ => ?_⟩
  · exact (Backend.preserves_finalize
      (fun k hk => hq k (h.within.own n x o hx ho k hk)) e₁ h₁).mono fun _ e₂ h₂ => h₀.went h₂
  · exact (Handle.endRows_preserves (fun k hk => h.release hq hk) h₁).mono fun o e₂ ⟨hf, h₂⟩ =>
      h₀.used h₂ hf

theorem closeCurrent_tends (h : Tends I K G z (s, w)) :
    After (closeCurrent l).run (s, w) fun _ s' => Tends I K G z s' := by
  refine closeCurrent_cases (fun _ => h) fun n _ => ?_
  have hw := h.within
  exact closeCursor_tends hq n ⟨h.engine, ⟨hw.handle, hw.own, hw.cursor, hw.coming⟩,
    ⟨h.alike.owner, h.alike.descriptor, h.alike.handle⟩⟩

theorem close_tends (h : Tends I K G z (s, w)) :
    After (close l) (s, w) fun _ s' => Tends I K G z s' := by
  refine close_cases (fun _ => h) fun _ => ?_
  have hw := h.within
  have h₀ : Tends I K G z ({ s with isOpen := false }, w) :=
    ⟨h.engine, ⟨hw.handle, hw.own, hw.cursor, hw.coming⟩,
      ⟨h.alike.owner, h.alike.descriptor, h.alike.handle⟩⟩
  refine (closeCurrent_tends hq h₀).mono fun first a₁ h₁ =>
    (Backend.preserves_finalize (fun k hk => h₁.release hq hk) _ h₁.engine).mono
      fun next e₂ h₂ => ?_
  exact After.keepFirst_still.mono fun _ w₃ hw =>
    (h₁.went (v := { a₁.2 with engine := e₂ }) h₂).engine_eq hw

end Closing

/-! ## Binding -/

theorem onHandle_tends {x : HandleTry Unit} (h : Tends I K G z (s, w))
    (hx : After x.run (s.handle, w.engine) fun _ s' => s'.1.fixed = s.handle.fixed ∧ I s'.2) :
    After (onHandle x).run (s, w) fun _ s' => Tends I K G z s' := by
  change After x.run (s.handle, w.engine) fun _ o =>
    Tends I K G z ({ s with handle := o.1 }, { w with engine := o.2 })
  exact hx.mono fun _ o ⟨hf, ho⟩ => h.used ho hf

section Quiet

variable (hq : ∀ k, K k → AdmitsQuiet I k)
include hq

theorem Tends.quiet (h : Tends I K G z a) {k : Nat} (hk : a.1.handle.number? = some k) :
    AdmitsQuiet I k := hq k (h.within.handle k hk)

variable [Steady I]

theorem write_tends {assignments : List (Destination × Value)} (h : Tends I K G z (s, w)) :
    After (write l assignments).run (s, w) fun _ s' => Tends I K G z s' := by
  unfold write
  refine After.try_forM (fun (destination, v) a₁ h₁ => ?_) h
  refine After.try_keep (closeCurrent_tends (fun k hk => (hq k hk).release) h₁) fun _ a₂ h₂ =>
    After.try_forM (fun slot a₃ h₃ => ?_) h₂
  exact onHandle_tends h₃ (Handle.bind_preserves (fun k hk => h₃.quiet hq hk) h₃.engine)

end Quiet

/-! ## Running -/

section Running

theorem putCursor_tends {cursor : Cursor} (h : Tends I K G z (s, w))
    (hown : ∀ o, cursor.own = some o → ∀ k, o.number? = some k → K k) :
    After (putCursor cursor).run (s, w) fun _ s' => Tends I K G z s' := by
  unfold putCursor
  refine After.try_bind_iff.2 <| After.try_get_iff.2 <| After.try_bind_iff.2 <|
    After.try_set_iff.2 <| After.try_pure_iff.2 ⟨h.engine, ⟨h.within.handle,
      fun n c o hn ho k hk => ?_, fun n c hn => ?_, fun n hn => ?_⟩,
      ⟨h.alike.owner, h.alike.descriptor, h.alike.handle⟩⟩
  · obtain ⟨-, rfl⟩ | hn := Table.find?_add_eq_some.1 hn
    · exact hown o ho k hk
    · exact h.within.own n c o hn ho k hk
  · obtain ⟨rfl, -⟩ | hn := Table.find?_add_eq_some.1 hn
    · exact h.within.coming _ (Nat.le_refl _)
    · exact h.within.cursor n c hn
  · exact h.within.coming n (Nat.le_of_succ_le hn)

variable [Steady I]

theorem fetchRows_preserves {h : Handle} {c : Option Nat}
    (hq : ∀ k, h.number? = some k → AdmitsQuiet I k)
    (hr : ∀ k, h.number? = some k → AdmitsStep I k) (n : Nat) {x : Cursor} (hw : I w.engine) :
    After (Cursor.fetchRows h c n).run (x, w) fun _ s' => s'.1.own = x.own ∧ I s'.2.engine := by
  induction n generalizing x w with
  | zero => exact After.try_pure_iff.2 ⟨rfl, hw⟩
  | succ n ih =>
    unfold Cursor.fetchRows
    refine After.try_bind_iff.2 <| After.try_get_iff.2 ?_
    dsimp only
    split
    · refine After.try_bind_iff.2 <| After.op_onTry_iff.2 <|
        (Handle.preserves_fetchRow hq hr _ hw).mono fun r e he => ?_
      match r with
      | .error f => exact ⟨rfl, he⟩
      | .ok none => exact After.try_modify_iff.2 ⟨rfl, he⟩
      | .ok (some row) =>
        exact After.try_bind_iff.2 <| After.try_modify_iff.2 (ih (w := { w with engine := e }) he)
    · exact After.try_pure_iff.2 ⟨rfl, hw⟩

theorem fetchTo_preserves {h : Handle} {c : Option Nat}
    (hq : ∀ k, h.number? = some k → AdmitsQuiet I k)
    (hr : ∀ k, h.number? = some k → AdmitsStep I k) (index : Int) {x : Cursor} (hw : I w.engine) :
    After (Cursor.fetchTo h c index).run (x, w) fun _ s' => s'.1.own = x.own ∧ I s'.2.engine :=
  After.try_bind_iff.2 (After.try_get_iff.2 (fetchRows_preserves hq hr _ hw))

variable (hq : ∀ k, K k → AdmitsQuiet I k)
include hq

theorem query_tends (hr : ∀ k, z.handle.number? = some k → AdmitsExecute I k)
    (h : Tends I K G z (s, w)) :
    After (query l).run (s, w) fun _ s' => Tends I K G z s' := by
  unfold query
  have hq' (k : Nat) (hk : K k) : AdmitsRelease I k := (hq k hk).release
  refine After.try_keep (closeCurrent_tends hq' h) fun _ a₁ h₁ => ?_
  refine After.try_keep (onHandle_tends h₁ <| Handle.beginRows_preserves
    (fun k hk => (h₁.quiet hq hk).start) (fun k hk => hr k (h₁.alike.number ▸ hk)) h₁.engine)
    fun _ a₂ h₂ => ?_
  refine After.try_bind_iff.2 <| After.try_get_iff.2 <| After.try_bind_iff.2 <|
    After.op_onEngine_iff.2 <| (Handle.preserves_columnNames _ h₂.engine).mono fun names e₃ h₃ => ?_
  have h₃ := h₂.went (v := { a₂.2 with engine := e₃ }) h₃
  dsimp only
  split
  · exact putCursor_tends h₃ nofun
  · exact After.try_bind_iff.2 <| After.op_onEngine_iff.2 <|
      (Handle.endRows_preserves (fun k hk => h₃.release hq' hk) h₃.engine).mono fun o e₄ ⟨hf, h₄⟩ =>
        After.try_bind_iff.2 <| After.try_set_iff.2 <| After.throw_iff.2 (h₃.used h₄ hf)

theorem execute_tends (hr : ∀ k, z.handle.number? = some k → AdmitsRun I k)
    (h : Tends I K G z (s, w)) :
    After (execute l).run (s, w) fun _ s' => Tends I K G z s' := by
  unfold execute
  refine After.try_keep (closeCurrent_tends (fun k hk => (hq k hk).release) h) fun _ a₁ h₁ => ?_
  exact After.try_bind_iff.2 <| After.try_get_iff.2 <| After.op_onTry_iff.2 <|
    (Handle.preserves_execute (fun k hk => h₁.quiet hq hk) (fun k hk => hr k (h₁.alike.number ▸ hk))
      _ h₁.engine).mono fun _ _ he => h₁.went he

variable (hfresh : ∀ k, Fresh I k → K k) (hnew : AdmitsNew I)
  (hrun : ∀ k, Fresh I k → AdmitsRun I k)
    (hprepare : ∀ c, l.connection = some c → AdmitsPrepare I c)
include hfresh hnew hrun hprepare

/-- A cursor over generated keys uses a fresh statement. -/
theorem fetchKeys_preserves (keys : TypeMap) {x : Cursor} (hx : x.own = none) (hw : I w.engine) :
    After (fetchKeys l keys).run (x, w) fun _ s' => I s'.2.engine ∧
      ∀ o, s'.1.own = some o → ∀ k, o.number? = some k → K k := by
  have none : ∀ o, x.own = some o → ∀ k, o.number? = some k → K k := by simp [hx]
  unfold fetchKeys
  refine After.try_bind_iff.2 <| After.op_onTry_iff.2 <|
    (Backend.prepare_preserves hprepare hnew hw).mono fun r e₁ ⟨h₁, hown⟩ => ?_
  match r with
  | .error f => exact ⟨h₁, none⟩
  | .ok own =>
    have fresh (k : Nat) (hk : own.number? = some k) : Fresh I k :=
      ⟨w.engine, hw, Nat.le_of_eq (hown own rfl k hk).1.symm⟩
    have among {o : Handle} (ho : o.number? = own.number?) :
        ∀ o', some o = some o' → ∀ k, o'.number? = some k → K k := by
      rintro _ ⟨⟩ k hk
      exact hfresh k (fresh k (ho ▸ hk))
    refine After.try_bind_iff.2 <| After.try_modify_iff.2 <| After.try_bind_iff.2 <|
      After.op_onEngine_iff.2 <| (Handle.preserves_columnNames e₁ h₁).mono fun names e₂ h₂ => ?_
    refine After.try_bind_iff.2 <| After.ofResult_iff.2 ?_
    cases Column.resolve l.options keys names with
    | error f => exact ⟨h₂, among rfl⟩
    | ok columns =>
      refine After.try_bind_iff.2 <| After.try_modify_iff.2 <| After.try_bind_iff.2 <|
        After.op_onEngine_iff.2 <| After.run_iff.2 <|
          (Handle.beginRows_preserves (fun k hk => (hq k (hfresh k (fresh k hk))).start)
            (fun k hk _ => hrun k (fresh k hk) _ rfl) h₂).mono fun r (own', e₃) ⟨hf, h₃⟩ => ?_
      have hn := Handle.number?_of_fixed hf
      refine After.try_bind_iff.2 <| After.try_modify_iff.2 <| After.try_bind_iff.2 <|
        After.ofResult_iff.2 ?_
      cases r with
      | error f => exact ⟨h₃, among hn⟩
      | ok _ =>
        refine (fetchTo_preserves (w := { w with engine := e₃ })
          (fun k hk => hq k (hfresh k (fresh k (hn ▸ hk))))
          (fun k hk => hrun k (fresh k (hn ▸ hk)) _ rfl) 0 h₃).mono fun _ s' ⟨ho, he⟩ => ⟨he, ?_⟩
        rw [ho]
        exact among hn

theorem insert_tends (hr : ∀ k, z.handle.number? = some k → AdmitsRun I k)
    (h : Tends I K G z (s, w)) :
    After (insert l).run (s, w) fun _ s' => Tends I K G z s' := by
  unfold insert
  refine After.try_bind_iff.2 <| After.try_get_iff.2 ?_
  dsimp only
  split
  · exact After.try_bind_iff.2 (After.throw_iff.2 h)
  · refine After.try_keep (execute_tends hq hr h) fun _ a₁ h₁ => ?_
    refine After.try_bind_iff.2 <| After.op_onAct_iff.2 <| After.runOn_iff.2 <|
      (fetchKeys_preserves (l := l) (w := a₁.2) hq hfresh hnew hrun hprepare
        s.descriptor.declarations.keys (x := { columns := .empty }) rfl h₁.engine).mono
        fun r (x, w₂) ⟨h₂, hown⟩ => ?_
    have h₂ := h₁.went h₂
    match r with
    | .ok () => exact putCursor_tends h₂ hown
    | .error f =>
      dsimp only
      split
      · next own ho =>
        refine After.try_bind_iff.2 <| After.op_onEngine_iff.2 <|
          (Backend.preserves_freeRows _ h₂.engine).mono fun _ e₃ h₃ => ?_
        refine After.try_bind_iff.2 <| After.op_onEngine_iff.2 <|
          (Backend.preserves_finalize (fun k hk => (hq k (hown own ho k hk)).release) e₃ h₃).mono
            fun r e₄ h₄ => ?_
        have h₄ := h₂.went (v := { w₂ with engine := e₄ }) h₄
        cases r with
        | ok _ => exact After.throw_iff.2 h₄
        | error g =>
          exact After.try_bind_iff.2 <| After.op_onAct_iff.2 <| After.writeLog_still.mono
            fun _ _ hw => After.throw_iff.2 (h₄.engine_eq hw)
      · exact After.throw_iff.2 h₂

end Running

/-! ## Reading -/

section Reading

theorem updateCursor_tends {n : Nat} {x y : Cursor} (h : Tends I K G z a)
    (hx : a.1.cursors.find? n = some x) (hy : y.own = x.own) :
    After (updateCursor n y).run a fun r s' =>
      r = .ok () ∧ Tends I K G z s' ∧ s'.1.cursors.find? n = some y := by
  refine After.try_modify_iff.2 ⟨rfl, ⟨h.engine, ⟨h.within.handle, fun m c o hm ho k hk => ?_,
    fun m c hm => ?_, h.within.coming⟩, ⟨h.alike.owner, h.alike.descriptor, h.alike.handle⟩⟩, ?_⟩
  · obtain ⟨rfl, z, hz, rfl⟩ | ⟨-, hm⟩ := Table.find?_modify_eq_some.1 hm
    · exact h.within.own m x o hx (hy ▸ ho) k hk
    · exact h.within.own m c o hm ho k hk
  · obtain ⟨rfl, -⟩ | ⟨-, hm⟩ := Table.find?_modify_eq_some.1 hm
    · exact h.within.cursor m x hx
    · exact h.within.cursor m c hm
  · simp [Table.find?_modify, hx]

variable [Steady I] (hq : ∀ k, K k → AdmitsQuiet I k)
include hq

theorem abandonCursor_tends {n : Nat} (h : Tends I K G z a) :
    After (abandonCursor n l).run a fun _ s' => Tends I K G z s' := by
  unfold abandonCursor
  exact After.try_bind_iff.2 <| After.try_lift_iff.2 <| After.attempt_iff.2 <|
    (closeCursor_tends (fun k hk => (hq k hk).release) n h).mono fun _ _ h => After.try_pure_iff.2 h

theorem seek_tends {n : Nat} {offset : Int64}
    (hr : ∀ c k, s.cursors.find? n = some c → (c.own.getD s.handle).number? = some k →
      AdmitsStep I k) (h : Tends I K G z (s, w)) :
    After (seek n offset l).run (s, w) fun _ s' => Tends I K G z s' := by
  have abandon {α : Type} {r : Except Fault α} {a : Statement × World} (h : Tends I K G z a) :
      After (do abandonCursor n l; Op.ofResult r : Op Statement α).run a
        fun _ s' => Tends I K G z s' :=
    After.try_keep (abandonCursor_tends hq h) fun _ _ h => After.ofResult_iff.2 h
  unfold seek
  refine After.try_bind_iff.2 <| After.try_get_iff.2 ?_
  cases hx : s.cursors.find? n with
  | none =>
    simp only [hx]
    exact After.throw_iff.2 h
  | some x =>
    simp only [hx]
    cases x.target? offset with
    | none => exact abandon (r := .ok false) h
    | some target =>
      refine After.try_bind_iff.2 <| After.op_onAct_iff.2 <| After.runOn_iff.2 <|
        (fetchTo_preserves (x := x) (fun k hk => hq k (h.within.reads hx hk))
          (fun k hk => hr x k hx hk) target h.engine).mono fun r (y, w₁) ⟨hy, h₁⟩ => ?_
      have h₁ := h.went h₁
      refine After.try_bind_iff.2 ((updateCursor_tends h₁ hx hy).mono ?_)
      rintro _ a ⟨rfl, h₂, hfind⟩
      cases r with
      | error f => exact abandon (r := .error f) h₂
      | ok _ =>
        dsimp only
        split
        · refine After.try_bind_iff.2 <|
            (updateCursor_tends (y := { y with position := target }) h₂ hfind rfl).mono ?_
          rintro _ _ ⟨rfl, h₃, -⟩
          exact After.try_pure_iff.2 h₃
        · exact abandon (r := .ok false) h₂

end Reading

end Statement

end SqlAccess
