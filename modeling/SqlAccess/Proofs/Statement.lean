import SqlAccess.Proofs.Calls.Backend
import SqlAccess.Proofs.Closing

/-!
# What operations keep of a statement

A statement stays well formed (`Statement.Sane`): what it holds was made on its connection, and
only the cursor that it produced last can be open, and only while it is open itself. Every
operation on a statement keeps that, and changes neither its owner nor its descriptor
(`Statement.Goes`); closing it leaves no cursor open.
-/

namespace SqlAccess

/-- Giving up a statement fails only as the engine says. -/
theorem Backend.finalize_fault {b : Backend} {h : Handle} {e : Engine} :
    After (b.finalize h).run e fun r _ =>
      ∀ f, r = .error f → f.kind = .ioError ∨ f.kind = .error := by
  unfold finalize
  match h with
  | .sqlite none => exact After.try_pure_iff.2 nofun
  | .sqlite (some k) =>
    dsimp only
    split
    · refine After.try_bind_iff.2 <| After.try_lift_iff.2 <| After.of_forall fun s _ =>
        After.try_bind_iff.2 <| After.try_lift_iff.2 <| After.of_forall fun code _ => ?_
      dsimp only
      split
      · refine After.try_bind_iff.2 <| After.try_lift_iff.2 <| After.of_forall fun _ _ =>
          After.throw_iff.2 ?_
        rintro _ ⟨⟩
        exact .inl rfl
      · exact After.try_pure_iff.2 nofun
    · exact After.try_bind_iff.2 <| After.try_lift_iff.2 <| After.of_forall fun _ _ =>
        After.try_pure_iff.2 nofun
  | .maria c =>
    refine After.try_bind_iff.2 <| After.try_lift_iff.2 <| After.of_forall fun ok _ => ?_
    cases ok with
    | false =>
      refine After.throw_iff.2 ?_
      rintro _ ⟨⟩
      exact .inr rfl
    | true => exact After.try_pure_iff.2 nofun

namespace Statement

/-- What a statement holds was made on a connection, and only the cursor that it produced last
can be open, while it is open itself. -/
structure Sane (c : Option Nat) (past : History) (s : Statement) : Prop where
  handle : s.handle.MadeOn c past
  own : ∀ n x h, s.cursors.find? n = some x → x.own = some h → h.MadeOn c past
  tidy : ∀ n x, s.cursors.find? n = some x → s.isOpen ∧ s.current = some n

theorem Sane.of_suffix {c : Option Nat} {past past' : History} {s : Statement}
    (hs : s.Sane c past) (h : past <:+ past') : s.Sane c past' where
  handle := hs.handle.of_suffix h
  own n x o hn ho := (hs.own n x o hn ho).of_suffix h
  tidy := hs.tidy

/-- A statement belongs where it belonged before, and was not opened. -/
structure Stays (s s' : Statement) : Prop where
  owner : s'.owner = s.owner
  descriptor : s'.descriptor = s.descriptor
  number : s'.handle.number? = s.handle.number?
  closed : s'.isOpen → s.isOpen

namespace Stays

variable {s s' s'' : Statement}

theorem refl : Stays s s := ⟨rfl, rfl, rfl, id⟩

theorem trans (h₁ : Stays s s') (h₂ : Stays s' s'') : Stays s s'' :=
  ⟨h₂.owner.trans h₁.owner, h₂.descriptor.trans h₁.descriptor, h₂.number.trans h₁.number,
    h₁.closed ∘ h₂.closed⟩

end Stays

/-! ## Closing -/

section Closing

variable {l : Link} {s : Statement} {w : World}

/-- A statement without some of its cursors. Its handle may have given up rows. -/
structure Without (gone : Nat → Prop) (s s' : Statement) : Prop where
  stays : Stays s s'
  open_eq : s'.isOpen = s.isOpen
  cursors : ∀ n x, s'.cursors.find? n = some x → s.cursors.find? n = some x ∧ ¬ gone n

theorem closeCursor_after (n : Nat) : After (closeCursor n l).run (s, w) fun _ s' =>
    Without (· = n) s s'.1 ∧ s'.1.current = s.current ∧ Calls Quiet w.engine s'.2.engine := by
  refine closeCursor_cases (fun hx => ?_) fun x hx => ?_
  · refine ⟨⟨.refl, rfl, fun m y hy => ⟨hy, ?_⟩⟩, rfl, .refl⟩
    rintro rfl
    cases hx.symm.trans hy
  · have without {h : Handle} (hh : h.number? = s.handle.number?) :
        Without (· = n) s { s with cursors := s.cursors.erase n, handle := h } := by
      refine ⟨⟨rfl, rfl, hh, id⟩, rfl, fun m y hy => ?_⟩
      rw [Table.find?_erase] at hy
      split at hy
      · cases hy
      · next hm => exact ⟨hy, hm⟩
    refine (Backend.makes_freeRows (P := Quiet) _).mono fun _ e₁ h₁ => ⟨fun _ _ => ?_, fun _ => ?_⟩
    · exact (Backend.makes_finalize allowsQuiet_quiet e₁).mono fun _ e₂ h₂ =>
        ⟨without rfl, rfl, h₁.trans h₂⟩
    · exact (Handle.endRows_serves allowsQuiet_quiet).mono fun h e₂ ⟨hn, h₂⟩ =>
        ⟨without hn, rfl, h₁.trans h₂⟩

/-- A statement that knows its cursors has none open after it closed the current one. -/
theorem closeCurrent_after (htidy : ∀ n x, s.cursors.find? n = some x → s.current = some n) :
    After (closeCurrent l).run (s, w) fun _ s' =>
      Without (fun _ => True) s s'.1 ∧ s'.1.current = none ∧
        Calls Quiet w.engine s'.2.engine := by
  refine closeCurrent_cases (fun hn => ?_) fun n hn => (closeCursor_after n).mono ?_
  · refine ⟨⟨.refl, rfl, fun m y hy => ?_⟩, hn, .refl⟩
    have hm := htidy m y hy
    rw [hn] at hm
    cases hm
  · rintro _ s' ⟨⟨hs, ho, hc⟩, hcur, hcalls⟩
    refine ⟨⟨⟨hs.1, hs.2, hs.3, hs.4⟩, ho, fun m y hy => ?_⟩, hcur, hcalls⟩
    obtain ⟨hm, hne⟩ := hc m y hy
    have hcm := htidy m y hm
    rw [hn] at hcm
    exact absurd (Option.some.inj hcm).symm hne

/-- Closing a cursor fails only with what the engine says of a statement that it gives up. -/
theorem closeCurrent_fault : After (closeCurrent l).run (s, w) fun r _ =>
    ∀ f, r = .error f → f.kind = .ioError ∨ f.kind = .error := by
  refine closeCurrent_cases (fun _ => nofun) fun n _ => closeCursor_cases (fun _ => nofun)
    fun x _ => After.of_forall fun _ _ => ⟨fun _ _ => Backend.finalize_fault, fun _ => ?_⟩
  exact After.of_forall fun _ _ => nofun

/-- A closed statement has no cursor open. -/
theorem close_after (htidy : ∀ n x, s.cursors.find? n = some x → s.isOpen ∧ s.current = some n) :
    After (close l) (s, w) fun _ s' => Stays s s'.1 ∧ s'.1.isOpen = false ∧
      (∀ n x, s'.1.cursors.find? n ≠ some x) ∧ Calls Quiet w.engine s'.2.engine := by
  refine close_cases (fun ho => ?_) fun ho => ?_
  · refine ⟨.refl, ho, fun n x hx => ?_, .refl⟩
    have := (htidy n x hx).1
    rw [ho] at this
    cases this
  · have closed := closeCurrent_after (l := l) (s := { s with isOpen := false }) (w := w)
      fun n x hx => (htidy n x hx).2
    refine closed.mono ?_
    rintro first ⟨s₁, w₁⟩ ⟨⟨h₁, ho₁, hc⟩, -, hcalls⟩
    dsimp only at h₁ ho₁ hc hcalls
    refine (Backend.makes_finalize allowsQuiet_quiet _).mono fun next e₂ h₂ =>
      After.keepFirst_still.mono fun _ w₂ hw => ?_
    refine ⟨⟨h₁.owner, h₁.descriptor, h₁.number, fun _ => ho⟩, ho₁,
      fun n x hx => (hc n x hx).2 trivial, ?_⟩
    rw [hw]
    exact hcalls.trans h₂

end Closing

/-! ## Binding and running -/

section Running

variable {l : Link} {s : Statement} {w : World}

/-- How an operation on a statement goes. -/
structure Goes (c : Option Nat) (s s' : Statement × World) : Prop where
  stays : Stays s.1 s'.1
  open_eq : s'.1.isOpen = s.1.isOpen
  calls : Calls (Work c) s.2.engine s'.2.engine
  sane : s'.1.Sane c s'.2.engine.history

namespace Goes

variable {c : Option Nat} {a a' a'' : Statement × World}

theorem refl (hs : a.1.Sane c a.2.engine.history) : Goes c a a := ⟨.refl, rfl, .refl, hs⟩

theorem of_engine {w' : World} (h : Goes c a a') (hw : w'.engine = a'.2.engine) :
    Goes c a (a'.1, w') :=
  ⟨h.stays, h.open_eq, hw ▸ h.calls, hw ▸ h.sane⟩

theorem trans (h₁ : Goes c a a') (h₂ : Goes c a' a'') : Goes c a a'' :=
  ⟨h₁.stays.trans h₂.stays, h₂.open_eq.trans h₁.open_eq, h₁.calls.trans h₂.calls, h₂.sane⟩

end Goes

/-- Giving up cursors keeps a statement sane if the current one stays or all are gone. -/
theorem Without.goes {c : Option Nat} {gone : Nat → Prop} {s' : Statement} {w' : World}
    (hs : s.Sane c w.engine.history) (h : Without gone s s')
    (hcur : ∀ n x, s'.cursors.find? n = some x → s'.current = s.current)
    (hc : Calls Quiet w.engine w'.engine) : Goes c (s, w) (s', w') := by
  have hc' : Calls (Work c) w.engine w'.engine := hc.work
  have hsuf := hc.grown.suffix
  refine ⟨h.stays, h.open_eq, hc', (hs.handle.of_suffix hsuf).of_number h.stays.number,
    fun n x o hn ho => (hs.own n x o (h.cursors n x hn).1 ho).of_suffix hsuf, fun n x hn => ?_⟩
  obtain ⟨ho, hcn⟩ := hs.tidy n x (h.cursors n x hn).1
  exact ⟨h.open_eq ▸ ho, hcur n x hn ▸ hcn⟩

/-- Calls that leave the statement alone keep it sane, also if its handle gives up its rows. -/
theorem Sane.goes {c : Option Nat} {h : Handle} {v : World} (hs : s.Sane c w.engine.history)
    (hn : h.number? = s.handle.number?) (hc : Calls (Work c) w.engine v.engine) :
    Goes c (s, w) ({ s with handle := h }, v) :=
  ⟨⟨rfl, rfl, hn, id⟩, rfl, hc, (hs.handle.of_suffix hc.grown.suffix).of_number hn,
    fun n x o hx ho => (hs.own n x o hx ho).of_suffix hc.grown.suffix, hs.tidy⟩

theorem closeCursor_goes {c : Option Nat} (n : Nat) (hs : s.Sane c w.engine.history) :
    After (closeCursor n l).run (s, w) fun _ s' => Goes c (s, w) s' :=
  (closeCursor_after n).mono fun _ _ ⟨h, hcur, hc⟩ => h.goes hs (fun _ _ _ => hcur) hc

theorem closeCurrent_goes {c : Option Nat} (hs : s.Sane c w.engine.history) :
    After (closeCurrent l).run (s, w) fun _ s' =>
      Goes c (s, w) s' ∧ ∀ n x, s'.1.cursors.find? n ≠ some x :=
  (closeCurrent_after fun n x hn => (hs.tidy n x hn).2).mono fun _ _ ⟨h, _, hc⟩ =>
    ⟨h.goes hs (fun n x hn => absurd trivial (h.cursors n x hn).2) hc,
      fun n x hn => (h.cursors n x hn).2 trivial⟩

/-- Work on the handle alone. -/
theorem onHandle_goes {x : HandleTry Unit} {c : Option Nat} (hs : s.Sane c w.engine.history)
    (hx : After x.run (s.handle, w.engine) fun _ s' =>
      Handle.Serves (Since w.engine.history (Work c)) (s.handle, w.engine) s') :
    After (onHandle x).run (s, w) fun _ s' =>
      Goes c (s, w) s' ∧ s'.1.cursors = s.cursors ∧ s'.1.current = s.current := by
  change After x.run (s.handle, w.engine) fun _ h =>
    Goes c (s, w) ({ s with handle := h.1 }, { w with engine := h.2 }) ∧ _ ∧ _
  exact hx.mono fun _ h ⟨hn, hc⟩ => ⟨hs.goes hn hc.of_since, rfl, rfl⟩

theorem write_goes {assignments : List (Destination × Value)} {c : Option Nat}
    (hs : s.Sane c w.engine.history) :
    After (write l assignments).run (s, w) fun _ s' => Goes c (s, w) s' := by
  unfold write
  refine After.try_forM (I := Goes c (s, w)) (fun (destination, v) s₁ h₁ => ?_) (.refl hs)
  refine After.try_keep ((closeCurrent_goes h₁.sane).mono fun _ _ h => h₁.trans h.1)
    fun _ s₂ h₂ => After.try_forM (I := Goes c (s, w)) (fun slot s₃ h₃ => ?_) h₂
  exact (onHandle_goes h₃.sane (Handle.bind_serves allowsQuiet_work)).mono
    fun _ _ h => h₃.trans h.1

theorem parameter_goes {name : Option Bytes} {c : Option Nat} (hs : s.Sane c w.engine.history) :
    After (parameter name l).run (s, w) fun _ s' => Goes c (s, w) s' := by
  unfold parameter
  split
  · exact After.throw_iff.2 (.refl hs)
  · exact After.try_bind_iff.2 (After.try_get_iff.2 (After.ofResult_iff.2 (.refl hs)))

theorem assign_goes {p : Parameter} {v : Value} {c : Option Nat}
    (hs : s.Sane c w.engine.history) :
    After (assign p v l).run (s, w) fun _ s' => Goes c (s, w) s' :=
  After.try_keep (After.ofResult_iff.2 (.refl hs)) fun _ _ h =>
    (write_goes h.sane).mono fun _ _ => h.trans

theorem assignList_goes {p : Parameter} {vs : List Value} {c : Option Nat}
    (hs : s.Sane c w.engine.history) :
    After (assignList p vs l).run (s, w) fun _ s' => Goes c (s, w) s' :=
  After.try_keep (After.ofResult_iff.2 (.refl hs)) fun _ _ h =>
    (write_goes h.sane).mono fun _ _ => h.trans

theorem bind_goes {name : Option Bytes} {v : Value} {c : Option Nat}
    (hs : s.Sane c w.engine.history) :
    After (bind name v l).run (s, w) fun _ s' => Goes c (s, w) s' :=
  After.try_keep (parameter_goes hs) fun _ _ h =>
    (assign_goes h.sane).mono fun _ _ => h.trans

theorem bindList_goes {name : Option Bytes} {vs : List Value} {c : Option Nat}
    (hs : s.Sane c w.engine.history) :
    After (bindList name vs l).run (s, w) fun _ s' => Goes c (s, w) s' :=
  After.try_keep (parameter_goes hs) fun _ _ h =>
    (assignList_goes h.sane).mono fun _ _ => h.trans

/-- A cursor put in place is the only one. -/
theorem putCursor_goes {cursor : Cursor} {c : Option Nat} (hs : s.Sane c w.engine.history)
    (ho : s.isOpen) (hnone : ∀ n x, s.cursors.find? n ≠ some x)
    (hown : ∀ h, cursor.own = some h → h.MadeOn c w.engine.history) :
    After (putCursor cursor).run (s, w) fun _ s' => Goes c (s, w) s' := by
  have hfind {n : Nat} {x : Cursor} (hn : (s.cursors.add cursor).find? n = some x) :
      n = s.cursors.next ∧ x = cursor := by
    rw [Table.find?_add] at hn
    split at hn
    · next h => exact ⟨h, (Option.some.inj hn).symm⟩
    · exact absurd hn (hnone n x)
  unfold putCursor
  refine After.try_bind_iff.2 <| After.try_get_iff.2 <| After.try_bind_iff.2 <|
    After.try_set_iff.2 <| After.try_pure_iff.2 ⟨⟨rfl, rfl, rfl, id⟩, rfl, .refl, hs.handle, ?_, ?_⟩
  · rintro n x h hn hx
    rw [(hfind hn).2] at hx
    exact hown h hx
  · rintro n x hn
    exact ⟨ho, (hfind hn).1 ▸ rfl⟩

theorem query_goes (hs : s.Sane l.connection w.engine.history) (ho : s.isOpen) :
    After (query l).run (s, w) fun _ s' => Goes l.connection (s, w) s' := by
  unfold query
  refine After.try_seq (closeCurrent_goes hs) (fun _ s₁ ⟨h₁, hnone⟩ => ?_) fun _ _ h => h.1
  refine After.try_seq (onHandle_goes h₁.sane (Handle.beginRows_serves allowsQuiet_work
    fun k hk => h₁.sane.handle.allowsRun hk)) (fun _ s₂ ⟨h₂, hc, _⟩ => ?_)
    fun _ _ h => h₁.trans h.1
  have h₂ := h₁.trans h₂
  refine After.try_bind_iff.2 <| After.try_get_iff.2 <| After.try_bind_iff.2 <|
    After.op_onEngine_iff.2 <| (Handle.makes_columnNames (P := Work l.connection) _).mono
      fun names e₃ h₃ => ?_
  have h₃ := h₂.trans (h₂.sane.goes (v := { s₂.2 with engine := e₃ }) rfl h₃)
  dsimp only
  split
  · exact (putCursor_goes h₃.sane (h₃.open_eq.trans ho) (hc ▸ hnone) (fun _ h => by cases h)).mono
      fun _ _ => h₃.trans
  · refine After.try_bind_iff.2 <| After.op_onEngine_iff.2 <|
      (Handle.endRows_serves (P := Since e₃.history (Work l.connection)) allowsQuiet_work).mono
        fun h e₄ ⟨hn, h₄⟩ => ?_
    exact After.try_bind_iff.2 <| After.try_set_iff.2 <| After.throw_iff.2 <|
      h₃.trans (h₃.sane.goes hn h₄.of_since)

theorem execute_goes (hs : s.Sane l.connection w.engine.history) :
    After (execute l).run (s, w) fun _ s' =>
      Goes l.connection (s, w) s' ∧ ∀ n x, s'.1.cursors.find? n ≠ some x := by
  unfold execute
  refine After.try_seq (closeCurrent_goes hs) (fun _ s₁ ⟨h₁, hnone⟩ => ?_) fun _ _ h => h
  have calls := Handle.makes_execute (c := l.connection) allowsQuiet_work
    (fun k hk => h₁.sane.handle.allowsRun hk) s₁.2.engine
  exact After.try_bind_iff.2 <| After.try_get_iff.2 <| After.op_onTry_iff.2 <|
    calls.mono fun _ _ hc => ⟨h₁.trans (h₁.sane.goes rfl hc.of_since), hnone⟩

/-! ## Cursors -/

variable {x : Cursor}

theorem fetchRows_after {h : Handle} {c : Option Nat} (hm : h.MadeOn c w.engine.history) (n : Nat) :
    After (Cursor.fetchRows h c n).run (x, w) fun _ s' =>
      s'.1.own = x.own ∧ Calls (Work c) w.engine s'.2.engine := by
  induction n generalizing x w with
  | zero => exact After.try_pure_iff.2 ⟨rfl, .refl⟩
  | succ n ih =>
    unfold Cursor.fetchRows
    refine After.try_bind_iff.2 <| After.try_get_iff.2 ?_
    dsimp only
    split
    · have calls := Handle.makes_fetchRow (c := c) allowsQuiet_work
        (fun k hk => hm.allowsRun hk) w.engine
      refine After.try_bind_iff.2 <| After.op_onTry_iff.2 <| calls.mono fun r e hc => ?_
      have hc : Calls (Work c) w.engine e := hc.of_since
      match r with
      | .error f => exact ⟨rfl, hc⟩
      | .ok none => exact After.try_modify_iff.2 ⟨rfl, hc⟩
      | .ok (some row) =>
        refine After.try_bind_iff.2 <| After.try_modify_iff.2 ?_
        exact (ih (hm.of_suffix hc.grown.suffix)).mono fun _ _ ⟨ho, hc'⟩ => ⟨ho, hc.trans hc'⟩
    · exact After.try_pure_iff.2 ⟨rfl, .refl⟩

theorem fetchTo_after {h : Handle} {c : Option Nat} (hm : h.MadeOn c w.engine.history)
    (index : Int) : After (Cursor.fetchTo h c index).run (x, w) fun _ s' =>
      s'.1.own = x.own ∧ Calls (Work c) w.engine s'.2.engine :=
  After.try_bind_iff.2 (After.try_get_iff.2 (fetchRows_after hm _))

/-- A cursor over generated keys uses a statement made on the connection. -/
theorem fetchKeys_after (keys : TypeMap) (hx : x.own = none) :
    After (fetchKeys l keys).run (x, w) fun _ s' => Calls (Work l.connection) w.engine s'.2.engine ∧
      ∀ h, s'.1.own = some h → h.MadeOn l.connection s'.2.engine.history := by
  unfold fetchKeys
  refine After.try_bind_iff.2 <| After.op_onTry_iff.2 <|
    (Backend.prepare_after w.engine).mono fun r e₁ ⟨h₁, hmade⟩ => ?_
  match r with
  | .error f => exact ⟨h₁.mono fun _ _ h => h.work, fun h hh => by rw [hx] at hh; cases hh⟩
  | .ok own =>
    have hm : own.MadeOn l.connection e₁.history := hmade own rfl
    refine After.try_bind_iff.2 <| After.try_modify_iff.2 <| After.try_bind_iff.2 <|
      After.op_onEngine_iff.2 <| (Handle.makes_columnNames (P := Work l.connection) e₁).mono
        fun names e₂ h₂ => ?_
    have hm : own.MadeOn l.connection e₂.history := hm.of_suffix h₂.grown.suffix
    have h₂ : Calls (Work l.connection) w.engine e₂ := (h₁.mono fun _ _ h => h.work).trans h₂
    refine After.try_bind_iff.2 <| After.ofResult_iff.2 ?_
    cases Column.resolve l.options keys names with
    | error f => exact ⟨h₂, fun h hh => Option.some.inj hh ▸ hm⟩
    | ok columns =>
      have begun := Handle.beginRows_serves (h := own) (e := e₂) allowsQuiet_work
        fun k hk => hm.allowsRun hk
      refine After.try_bind_iff.2 <| After.try_modify_iff.2 <| After.try_bind_iff.2 <|
        After.op_onEngine_iff.2 <| After.run_iff.2 <| begun.mono fun r (own', e₃) ⟨hn, h₃⟩ => ?_
      have h₃ : Calls (Work l.connection) e₂ e₃ := h₃.of_since
      have hm : own'.MadeOn l.connection e₃.history :=
        (hm.of_suffix h₃.grown.suffix).of_number hn
      have h₃ : Calls (Work l.connection) w.engine e₃ := h₂.trans h₃
      refine After.try_bind_iff.2 <| After.try_modify_iff.2 <| After.try_bind_iff.2 <|
        After.ofResult_iff.2 ?_
      cases r with
      | error f => exact ⟨h₃, fun h hh => Option.some.inj hh ▸ hm⟩
      | ok _ =>
        refine (fetchTo_after (w := { w with engine := e₃ }) hm 0).mono
          fun _ s' ⟨ho, hc⟩ => ⟨h₃.trans hc, fun h hh => ?_⟩
        rw [ho] at hh
        exact Option.some.inj hh ▸ hm.of_suffix hc.grown.suffix

theorem insert_goes (hs : s.Sane l.connection w.engine.history) (ho : s.isOpen) :
    After (insert l).run (s, w) fun _ s' => Goes l.connection (s, w) s' := by
  unfold insert
  refine After.try_bind_iff.2 <| After.try_get_iff.2 ?_
  dsimp only
  split
  · exact After.try_bind_iff.2 (After.throw_iff.2 (.refl hs))
  · refine After.try_seq (execute_goes hs) (fun _ s₁ ⟨h₁, hnone⟩ => ?_) fun _ _ h => h.1
    have hown : ({ columns := .empty } : Cursor).own = none := rfl
    have keys := fetchKeys_after (l := l) (w := s₁.2) s.descriptor.declarations.keys hown
    refine After.try_bind_iff.2 <| After.op_onAct_iff.2 <| After.runOn_iff.2 <|
      keys.mono fun r (x, w₂) ⟨hc, hown⟩ => ?_
    have h₂ := h₁.trans (h₁.sane.goes (v := w₂) rfl hc)
    match r with
    | .ok () =>
      exact (putCursor_goes h₂.sane (h₂.open_eq.trans ho) hnone hown).mono fun _ _ => h₂.trans
    | .error f =>
      dsimp only
      split
      · next own _ =>
        refine After.try_bind_iff.2 <| After.op_onEngine_iff.2 <|
          (Backend.makes_freeRows (P := Quiet) _).mono fun _ e₃ h₃ => ?_
        refine After.try_bind_iff.2 <| After.op_onEngine_iff.2 <|
          (Backend.makes_finalize (h := own) allowsQuiet_quiet e₃).mono fun r e₄ h₄ => ?_
        have h₄ := h₂.trans
          (h₂.sane.goes (v := { w₂ with engine := e₄ }) rfl (h₃.trans h₄).work)
        cases r with
        | ok _ => exact After.throw_iff.2 h₄
        | error g =>
          exact After.try_bind_iff.2 <| After.op_onAct_iff.2 <| After.writeLog_still.mono
            fun _ _ hw => After.throw_iff.2 (h₄.of_engine hw)
      · exact After.throw_iff.2 h₂

/-- A cursor that went on is still a cursor of the statement. -/
theorem updateCursor_goes {n : Nat} {c : Option Nat} {y : Cursor} (hs : s.Sane c w.engine.history)
    (hx : s.cursors.find? n = some x) (hy : y.own = x.own) :
    After (updateCursor n y).run (s, w) fun r s' =>
      r = .ok () ∧ Goes c (s, w) s' ∧ s'.1.cursors.find? n = some y := by
  have hfind {m : Nat} {z : Cursor} (hz : (s.cursors.modify n fun _ => y).find? m = some z) :
      ∃ z', s.cursors.find? m = some z' ∧ z.own = z'.own := by
    rw [Table.find?_modify] at hz
    split at hz
    · next hm =>
      subst hm
      rw [hx] at hz
      obtain rfl : y = z := Option.some.inj hz
      exact ⟨x, hx, hy⟩
    · exact ⟨z, hz, rfl⟩
  refine After.try_modify_iff.2 ⟨rfl, ⟨⟨rfl, rfl, rfl, id⟩, rfl, .refl, hs.handle, ?_, ?_⟩, ?_⟩
  · rintro m z h hz ho
    obtain ⟨z', hz', hown⟩ := hfind hz
    exact hs.own m z' h hz' (hown ▸ ho)
  · rintro m z hz
    obtain ⟨z', hz', -⟩ := hfind hz
    exact hs.tidy m z' hz'
  · simp [Table.find?_modify, hx]

theorem abandonCursor_goes {n : Nat} {c : Option Nat} (hs : s.Sane c w.engine.history) :
    After (abandonCursor n l).run (s, w) fun _ s' => Goes c (s, w) s' := by
  unfold abandonCursor
  exact After.try_bind_iff.2 <| After.try_lift_iff.2 <| After.attempt_iff.2 <|
    (closeCursor_goes n hs).mono fun _ _ h => After.try_pure_iff.2 h

theorem seek_goes {n : Nat} {offset : Int64} (hs : s.Sane l.connection w.engine.history) :
    After (seek n offset l).run (s, w) fun _ s' => Goes l.connection (s, w) s' := by
  have abandon {α : Type} {r : Except Fault α} {a : Statement × World}
      (h : Goes l.connection (s, w) a) : After (do abandonCursor n l; Op.ofResult r :
        Op Statement α).run a fun _ s' => Goes l.connection (s, w) s' :=
    After.try_keep ((abandonCursor_goes h.sane).mono fun _ _ => h.trans)
      fun _ _ h => After.ofResult_iff.2 h
  unfold seek
  refine After.try_bind_iff.2 <| After.try_get_iff.2 ?_
  cases hx : s.cursors.find? n with
  | none =>
    simp only [hx]
    exact After.throw_iff.2 (.refl hs)
  | some x =>
    simp only [hx]
    cases x.target? offset with
    | none => exact abandon (r := .ok false) (.refl hs)
    | some target =>
      have hm : (x.own.getD s.handle).MadeOn l.connection w.engine.history := by
        cases ho : x.own with
        | none => exact hs.handle
        | some h => exact hs.own n x h hx ho
      refine After.try_bind_iff.2 <| After.op_onAct_iff.2 <| After.runOn_iff.2 <|
        (fetchTo_after (x := x) hm target).mono fun r (y, w₁) ⟨hy, hc⟩ => ?_
      have h₁ := hs.goes (v := w₁) rfl hc
      refine After.try_bind_iff.2 ((updateCursor_goes h₁.sane hx hy).mono ?_)
      rintro _ a ⟨rfl, h₂, hfind⟩
      have h₂ := h₁.trans h₂
      cases r with
      | error f => exact abandon (r := .error f) h₂
      | ok _ =>
        dsimp only
        split
        · refine After.try_bind_iff.2 <|
            (updateCursor_goes (y := { y with position := target }) h₂.sane hfind rfl).mono ?_
          rintro _ _ ⟨rfl, h₃, -⟩
          exact After.try_pure_iff.2 (h₂.trans h₃)
        · exact abandon (r := .ok false) h₂

end Running

end Statement

end SqlAccess
