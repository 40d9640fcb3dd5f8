import SqlAccess.Proofs.Handing

/-!
# What the slots of a statement hold

SQLite keeps what the parameters of a statement are set to, so a slot holds what the latest call
that succeeded has set it to; for MariaDB that is in the buffers of the statement (`Handle.held`).
`Handle.Writes ws b b'` says that values were written to slots, one after another: each slot that is
written once ends up with its value, and every other slot is as it was. Giving up the rows of a
cursor writes nothing, and setting parameters writes what the values come to, each to the slots that
it goes to (`Statement.write_writes`).

The exception is a call of SQLite that fails with a code that passes for success: nobody hears of
it, and the slot stays as it is (`Handle.Missed`). Values that go to no slot are written without a
failure, unless the engine fails to give up a statement (`Statement.write_succeeds`).
-/

namespace SqlAccess

/-! ## The slots of SQLite -/

namespace Event

variable {ev : Event} {j : Nat}

/-- The parameter of a statement that an event is about, counted from one, and what it is to be set
to. -/
def asks? (ev : Event) (k : Nat) : Option (Nat × Datum) :=
  match ev.call with
  | .bind j parameter d => if j = k then some (parameter, d) else none
  | _ => none

/-- What an event sets a slot of a statement to, which is counted from zero. -/
def sets? (ev : Event) (k slot : Nat) : Option Datum :=
  match ev.call, ev.outcome with
  | .bind j parameter d, .done => if j = k ∧ parameter = slot + 1 then some d else none
  | _, _ => none

theorem asks?_of_releases (h : ev.call.releases? = some j) (k : Nat) : ev.asks? k = none := by
  unfold asks?
  split
  · next hcall =>
    rw [hcall] at h
    cases h
  · rfl

theorem sets?_of_releases (h : ev.call.releases? = some j) (k slot : Nat) :
    ev.sets? k slot = none := by
  unfold sets?
  split
  · next hcall _ =>
    rw [hcall] at h
    cases h
  · rfl

end Event

namespace History

variable {past : History} {ev : Event} {k slot : Nat}

/-- What the parameters of a statement were to be set to, the latest first. -/
def asked (past : History) (k : Nat) : List (Nat × Datum) := past.filterMap (·.asks? k)

/-- What a slot of a statement was set to last. A slot that was never set is null. -/
def setting (past : History) (k slot : Nat) : Datum :=
  (past.findSome? (·.sets? k slot)).getD .null

theorem asked_cons_of_none (h : ev.asks? k = none) : asked (ev :: past) k = asked past k :=
  List.filterMap_cons_none h

theorem setting_cons_of_none (h : ev.sets? k slot = none) :
    setting (ev :: past) k slot = setting past k slot := by
  rw [setting, List.findSome?_cons, h, setting]

end History

namespace Handle

variable {h h' : Handle} {b b' b'' : Handle × Engine} {slot : Nat} {d : Datum}
  {ws us : List (Nat × Datum)}

/-- What a slot of a prepared statement holds, if it has the slot. -/
def held (b : Handle × Engine) (slot : Nat) : Option Datum :=
  match b.1 with
  | sqlite none => none
  | sqlite (some k) => some (History.setting b.2.history k slot)
  | maria s => s.parameters[slot]?

/-- What a slot is set to for a value. -/
def datum (h : Handle) (type : ValueType) (v : Value) : Datum :=
  match h with
  | sqlite _ => Sqlite.datum type v
  | maria _ => Maria.datum type v

theorem datum_of_fixed (hf : h'.fixed = h.fixed) : h'.datum = h.datum := by
  cases h <;> cases h' <;> first | rfl | cases hf

theorem eq_sqlite_of_fixed {k : Option Nat} (hf : h.fixed = (sqlite k).fixed) : h = sqlite k := by
  cases h with
  | sqlite j => exact hf
  | maria s => cases hf

/-! ## Writing to slots -/

/-- A call of SQLite that was to set a slot has failed with a code that passes for success. -/
def Missed (b b' : Handle × Engine) (slot : Nat) (d : Datum) : Prop :=
  ∃ k code new, b.1 = sqlite (some k) ∧ b'.2.history = new ++ b.2.history ∧
    ⟨.bind k (slot + 1) d, .failed code none⟩ ∈ new ∧ Sqlite.Passes code

/-- A slot holds what it was to be set to, or the call for that was missed and it is as it was. -/
def Reached (b b' : Handle × Engine) (slot : Nat) (d : Datum) : Prop :=
  held b' slot = some d ∨ held b' slot = held b slot ∧ Missed b b' slot d

/-- Values were written to slots, in the order of a list. SQLite was asked for just that; a slot
that was written once has been reached, and one that was not is as it was. -/
structure Writes (ws : List (Nat × Datum)) (b b' : Handle × Engine) : Prop where
  fixed : b'.1.fixed = b.1.fixed
  history : b.2.history <:+ b'.2.history
  asked : ∀ k, b.1 = sqlite (some k) → History.asked b'.2.history k =
    (ws.map fun w => (w.1 + 1, w.2)).reverse ++ History.asked b.2.history k
  kept : ∀ slot, slot ∉ ws.map (·.1) → held b' slot = held b slot
  reached : (ws.map (·.1)).Nodup → ∀ w ∈ ws, Reached b b' w.1 w.2

theorem Writes.nil (hf : b'.1.fixed = b.1.fixed) (hh : b.2.history <:+ b'.2.history)
    (ha : ∀ k, b.1 = sqlite (some k) →
      History.asked b'.2.history k = History.asked b.2.history k)
    (hk : ∀ slot, held b' slot = held b slot) : Writes [] b b' :=
  ⟨hf, hh, ha, fun slot _ => hk slot, fun _ _ => nofun⟩

theorem Writes.refl : Writes [] b b :=
  .nil rfl (List.suffix_refl _) (fun _ _ => rfl) fun _ => rfl

theorem Missed.of_suffix (hm : Missed b b' slot d) (hs : b'.2.history <:+ b''.2.history) :
    Missed b b'' slot d := by
  obtain ⟨k, code, new, hk, hnew, hmem, hp⟩ := hm
  obtain ⟨newer, hnewer⟩ := hs
  refine ⟨k, code, newer ++ new, hk, ?_, List.mem_append_right _ hmem, hp⟩
  rw [← hnewer, hnew, List.append_assoc]

theorem Missed.after (hw : Writes ws b b') (hm : Missed b' b'' slot d) : Missed b b'' slot d := by
  obtain ⟨k, code, new, hk, hnew, hmem, hp⟩ := hm
  obtain ⟨earlier, hearlier⟩ := hw.history
  refine ⟨k, code, new ++ earlier, ?_, ?_, List.mem_append_left _ hmem, hp⟩
  · exact eq_sqlite_of_fixed (hk ▸ hw.fixed.symm)
  · rw [hnew, ← hearlier, List.append_assoc]

/-- What is written to other slots later does not disturb a slot. -/
theorem Reached.keep (hr : Reached b b' slot d) (hw : Writes ws b' b'')
    (hs : slot ∉ ws.map (·.1)) : Reached b b'' slot d := by
  have hheld := hw.kept slot hs
  obtain h | ⟨h, hm⟩ := hr
  · exact .inl (hheld.trans h)
  · exact .inr ⟨hheld.trans h, hm.of_suffix hw.history⟩

/-- What was written to other slots before does not matter to a slot. -/
theorem Reached.after (hw : Writes ws b b') (hs : slot ∉ ws.map (·.1))
    (hr : Reached b' b'' slot d) : Reached b b'' slot d := by
  obtain h | ⟨h, hm⟩ := hr
  · exact .inl h
  · exact .inr ⟨h.trans (hw.kept slot hs), hm.after hw⟩

theorem Writes.append (hw : Writes ws b b') (hu : Writes us b' b'') :
    Writes (ws ++ us) b b'' := by
  refine ⟨hu.fixed.trans hw.fixed, hw.history.trans hu.history, fun k hk => ?_, fun slot hs => ?_,
    fun hnodup w hmem => ?_⟩
  · rw [hu.asked k (eq_sqlite_of_fixed (hw.fixed.trans (congrArg _ hk))), hw.asked k hk,
      List.map_append, List.reverse_append, List.append_assoc]
  · rw [List.map_append, List.mem_append, not_or] at hs
    exact (hu.kept slot hs.2).trans (hw.kept slot hs.1)
  · rw [List.map_append, List.nodup_append] at hnodup
    obtain ⟨hnw, hnu, hdisjoint⟩ := hnodup
    obtain hmem | hmem := List.mem_append.1 hmem
    · exact (hw.reached hnw w hmem).keep hu fun hs =>
        hdisjoint _ (List.mem_map_of_mem hmem) _ hs rfl
    · exact (hu.reached hnu w hmem).after hw fun hs =>
        hdisjoint _ hs _ (List.mem_map_of_mem hmem) rfl

end Handle

/-! ## Setting a slot -/

namespace Handle

variable {b b' : Handle × Engine} {slot k : Nat} {d : Datum} {type : ValueType} {v : Value}
  {e e' : Engine}

/-- The effect of a call to set a slot of SQLite. -/
theorem Writes.call {o : Outcome} (hh : e'.history = ⟨.bind k (slot + 1) d, o⟩ :: e.history)
    (hr : Reached (sqlite (some k), e) (sqlite (some k), e') slot d) :
    Writes [(slot, d)] (sqlite (some k), e) (sqlite (some k), e') := by
  refine ⟨rfl, hh ▸ List.suffix_cons _ _, ?_, fun other ho => ?_, fun _ w hw => ?_⟩
  · rintro _ ⟨⟩
    simp [hh, History.asked, Event.asks?]
  · refine congrArg some ((congrArg (History.setting · k other) hh).trans ?_)
    refine History.setting_cons_of_none ?_
    simp only [List.map_cons, List.map_nil, List.mem_singleton] at ho
    cases o <;> simp [Event.sets?, Ne.symm ho]
  · obtain rfl := List.mem_singleton.1 hw
    exact hr

theorem reached_of_done (hh : e'.history = ⟨.bind k (slot + 1) d, .done⟩ :: e.history) :
    Reached (sqlite (some k), e) (sqlite (some k), e') slot d :=
  .inl (by simp [held, hh, History.setting, Event.sets?])

theorem reached_of_failed {code : Int32} (hp : Sqlite.Passes code)
    (hh : e'.history = ⟨.bind k (slot + 1) d, .failed code none⟩ :: e.history) :
    Reached (sqlite (some k), e) (sqlite (some k), e') slot d := by
  refine .inr ⟨?_, k, code, [_], rfl, hh, List.mem_singleton_self _, hp⟩
  exact congrArg some (hh ▸ History.setting_cons_of_none rfl)

/-- Where setting a slot succeeds, the slot is written. -/
theorem Bound.writes (h : Bound type v slot b (.ok ()) b') :
    Writes [(slot, b.1.datum type v)] b b' := by
  cases h with
  | sqlite h =>
    cases h with
    | done _ hh => exact .call hh (reached_of_done hh)
    | failed _ hh hr => exact .call hh (reached_of_failed hr hh)
  | maria h =>
    cases h with
    | kept _ hslot =>
      refine ⟨rfl, List.suffix_refl _, nofun, fun other ho => ?_, fun _ w hw => ?_⟩
      · exact List.getElem?_set_ne fun h => ho (by simp [h])
      · obtain rfl := List.mem_singleton.1 hw
        exact .inl (List.getElem?_set_self hslot)

end Handle

/-! ## Giving up rows -/

/-- Calls were made that are not about the slots of any statement. -/
structure Engine.Settled (e e' : Engine) : Prop where
  history : e.history <:+ e'.history
  asked : ∀ k, History.asked e'.history k = History.asked e.history k
  setting : ∀ k slot, History.setting e'.history k slot = History.setting e.history k slot

namespace Engine.Settled

variable {e e' : Engine}

theorem refl : e.Settled e := ⟨List.suffix_refl _, fun _ => rfl, fun _ _ => rfl⟩

instance : Steady e.Settled := ⟨fun h ha => ⟨ha.history ▸ h.history,
  fun k => ha.history ▸ h.asked k, fun k slot => ha.history ▸ h.setting k slot⟩⟩

theorem admitsRelease {n : Nat} : AdmitsRelease e.Settled n := by
  intro call hc e₁ e₂ h₁ ht
  obtain ⟨o, hh, -⟩ := ht.history
  refine ⟨hh ▸ h₁.history.trans (List.suffix_cons _ _), fun k => ?_, fun k slot => ?_⟩
  · rw [hh, History.asked_cons_of_none (Event.asks?_of_releases hc k), h₁.asked]
  · rw [hh, History.setting_cons_of_none (Event.sets?_of_releases hc k slot), h₁.setting]

theorem writes (h : e.Settled e') {p : Handle} : Handle.Writes [] (p, e) (p, e') := by
  refine .nil rfl h.history (fun k _ => h.asked k) fun slot => ?_
  cases p with
  | sqlite k =>
    cases k with
    | none => rfl
    | some k => exact congrArg some (h.setting k slot)
  | maria s => rfl

end Engine.Settled

theorem Handle.endRows_writes (b : Handle × Engine) :
    After b.1.endRows b.2 fun h e => Writes [] b (h, e) := by
  obtain ⟨h, e⟩ := b
  unfold endRows
  cases h with
  | sqlite k =>
    exact After.seq (Sqlite.preserves_rewind (fun _ _ => Engine.Settled.admitsRelease) e .refl)
      fun _ _ h => After.pure_iff.2 h.writes
  | maria s =>
    refine After.seq (P := fun s' e' => Writes [] (maria s, e) (maria s', e')) ?_
      fun _ _ h => After.pure_iff.2 h
    unfold Maria.endRows
    split
    · exact After.seq (preserves_taking (Engine.Settled.admitsRelease _ rfl)
        (fun _ => Engine.freeResult_takes) e .refl) fun _ e' h =>
          After.pure_iff.2 (.nil rfl h.history nofun fun _ => rfl)
    · exact After.pure_iff.2 .refl

namespace Statement

variable {l : Link} {s : Statement} {w : World} {a : Statement × World}

/-- A statement as the backend knows it. -/
def prepared (a : Statement × World) : Handle × Engine := (a.1.handle, a.2.engine)

theorem closeCursor_writes (n : Nat) : After (closeCursor n l).run (s, w) fun _ a =>
    Handle.Writes [] (s.handle, w.engine) (prepared a) := by
  refine closeCursor_cases (fun _ => Handle.Writes.refl) fun _ _ =>
    (Backend.preserves_freeRows _ Engine.Settled.refl).mono fun _ e₁ h₁ =>
      ⟨fun _ _ => ?_, fun _ => ?_⟩
  · exact (Backend.preserves_finalize (fun _ _ => Engine.Settled.admitsRelease) e₁ h₁).mono
      fun _ _ h₂ => h₂.writes
  · exact (Handle.endRows_writes (s.handle, e₁)).mono fun _ _ h₂ => h₁.writes.append h₂

theorem closeCurrent_writes : After (closeCurrent l).run a fun _ a' =>
    Handle.Writes [] (prepared a) (prepared a') :=
  closeCurrent_cases (fun _ => .refl) fun _ _ => closeCursor_writes _

/-! ## Writing -/

/-- Actions one after another write what each of them writes, all of them or those in front of one
that fails. -/
theorem forM_stops {α : Type} {f : α → Op Statement Unit} {P : α → Prop}
    {g : α → List (Nat × Datum)} {F : α → Fault → Handle × Engine → Handle × Engine → Prop}
    {h : Handle} (hf : ∀ x a, a.1.handle.fixed = h.fixed → After (f x).run a fun r a' =>
      (r = .ok () → P x ∧ Handle.Writes (g x) (prepared a) (prepared a')) ∧
        ∀ e, r = .error e → F x e (prepared a) (prepared a'))
    (xs : List α) (a : Statement × World) (ha : a.1.handle.fixed = h.fixed) :
    After (xs.forM f).run a fun r a' =>
      (r = .ok () → (∀ x ∈ xs, P x) ∧ Handle.Writes (xs.flatMap g) (prepared a) (prepared a')) ∧
        ∀ e, r = .error e → ∃ before x after b, xs = before ++ x :: after ∧
          (∀ y ∈ before, P y) ∧ Handle.Writes (before.flatMap g) (prepared a) b ∧
            F x e b (prepared a') := by
  induction xs generalizing a with
  | nil => exact After.try_pure_iff.2 ⟨fun _ => ⟨nofun, .refl⟩, nofun⟩
  | cons x xs ih =>
    refine After.try_seq (hf x a ha) (fun _ a₁ ⟨hok, _⟩ => ?_) fun e a₁ ⟨_, herror⟩ => ?_
    · obtain ⟨hx, hw⟩ := hok rfl
      refine (ih a₁ (hw.fixed.trans ha)).mono fun r a₂ ⟨hok, herror⟩ => ⟨fun hr => ?_, ?_⟩
      · obtain ⟨hxs, hws⟩ := hok hr
        exact ⟨List.forall_mem_cons.2 ⟨hx, hxs⟩, hw.append hws⟩
      · intro e he
        obtain ⟨before, y, after, b, rfl, hbefore, hws, hy⟩ := herror e he
        exact ⟨x :: before, y, after, b, rfl, List.forall_mem_cons.2 ⟨hx, hbefore⟩,
          hw.append hws, hy⟩
    · exact ⟨nofun, fun e' he => ⟨[], x, xs, prepared a, rfl, nofun, .refl, herror e' he⟩⟩

/-- Where actions one after another succeed, they have written what each of them writes. -/
theorem forM_writes {α : Type} {f : α → Op Statement Unit} {g : α → List (Nat × Datum)}
    {h : Handle} (hf : ∀ x a, a.1.handle.fixed = h.fixed → After (f x).run a fun r a' =>
      r = .ok () → Handle.Writes (g x) (prepared a) (prepared a')) (xs : List α)
    (a : Statement × World) (ha : a.1.handle.fixed = h.fixed) :
    After (xs.forM f).run a fun r a' =>
      r = .ok () → Handle.Writes (xs.flatMap g) (prepared a) (prepared a') := by
  refine (forM_stops (P := fun _ => True) (F := fun _ _ _ _ => True) (fun x a₁ h₁ => ?_) xs a
    ha).mono fun _ _ ⟨hok, _⟩ hr => (hok hr).2
  exact (hf x a₁ h₁).mono fun _ _ hw => ⟨fun hr => ⟨trivial, hw hr⟩, fun _ _ => trivial⟩

/-- What is written to the slots where values go to destinations. -/
def written (h : Handle) (assignments : List (Destination × Value)) : List (Nat × Datum) :=
  assignments.flatMap fun (destination, v) =>
    destination.slots.flatMap fun slot => [(slot, h.datum destination.accessor v)]

theorem onHandle_writes {type : ValueType} {slot : Nat} {v : Value} :
    After (onHandle (Handle.bind type slot v)).run a fun r a' => r = .ok () →
      Handle.Writes [(slot, a.1.handle.datum type v)] (prepared a) (prepared a') :=
  onHandle_iff.2 <| (Handle.bind_bound (prepared a)).mono fun _ _ h hok => (hok ▸ h).writes

/-- Setting parameters writes the values to the slots that they go to, and to no other one. -/
theorem write_writes (assignments : List (Destination × Value)) :
    After (write l assignments).run a fun r a' => r = .ok () →
      Handle.Writes (written a.1.handle assignments) (prepared a) (prepared a') := by
  unfold write
  refine forM_writes (fun (destination, v) a₁ h₁ => ?_) assignments a rfl
  refine After.try_seq closeCurrent_writes (fun _ a₂ h₂ => ?_) fun _ _ _ => nofun
  refine (forM_writes (fun slot a₃ h₃ => ?_) destination.slots a₂ (h₂.fixed.trans h₁)).mono
    fun _ _ h₃ hok => h₂.append (h₃ hok)
  exact Handle.datum_of_fixed h₃ ▸ onHandle_writes

end Statement

/-! ## Writing to no slot -/

/-- The engine has failed to give up a statement since an earlier history. -/
def History.GivingUpFailed (past now : History) : Prop :=
  ∃ new, now = new ++ past ∧ ∃ e ∈ new, e.call.givesUp?.isSome ∧ e.outcome.isFailure

namespace History.GivingUpFailed

variable {past mid now : History} {call : Call} {code : Int32}

theorem of_suffix (h : GivingUpFailed mid now) (hs : past <:+ mid) : GivingUpFailed past now := by
  obtain ⟨new, rfl, e, he, hfailed⟩ := h
  obtain ⟨newer, rfl⟩ := hs
  exact ⟨new ++ newer, by simp, e, List.mem_append_left _ he, hfailed⟩

theorem of_call (hc : call.givesUp?.isSome) (h : now = ⟨call, .failed code none⟩ :: past) :
    GivingUpFailed past now :=
  ⟨[_], h, _, List.mem_singleton_self _, hc, rfl⟩

end History.GivingUpFailed

theorem Engine.finalize_after {k : Nat} (e : Engine) : After (finalize k) e fun code e' =>
    code ≠ 0 → e'.history = ⟨.finalize k, .failed code none⟩ :: e.history := by
  unfold finalize
  refine After.seq (statement_alters (k := none)) fun s e₁ h₁ =>
    After.seq (perform_after e₁) fun r e₂ ⟨h₂, _⟩ =>
      After.seq dropStatement_alters fun _ e₃ h₃ => ?_
  cases r with
  | none => exact After.pure_iff.2 fun h => absurd rfl h
  | some f =>
    refine After.seq (modifyConnection_alters (k := none)) fun _ e₄ h₄ =>
      After.pure_iff.2 fun _ => ?_
    rw [h₄.history, h₃.history, h₂, h₁.history]
    rfl

theorem Engine.closeStatement_after {k : Nat} (e : Engine) : After (closeStatement k) e fun ok e' =>
    ok = false → ∃ code, e'.history = ⟨.closeStatement k, .failed code none⟩ :: e.history := by
  unfold closeStatement
  refine After.seq (perform_after e) fun r e₁ ⟨h₁, _⟩ =>
    After.seq dropStatement_alters fun _ e₂ h₂ => After.pure_iff.2 fun hr => ?_
  cases r with
  | none => cases hr
  | some f => exact ⟨f.code, h₂.history.trans h₁⟩

/-- A statement is given up, unless the engine fails to. -/
theorem Backend.finalize_succeeds {b : Backend} {h : Handle} (e : Engine) :
    After (b.finalize h).run e fun r e' =>
      r = .ok () ∨ History.GivingUpFailed e.history e'.history := by
  unfold finalize
  match h with
  | .sqlite none => exact After.try_pure_iff.2 (.inl rfl)
  | .sqlite (some k) =>
    dsimp only
    split
    · unfold Sqlite.finalizeStrictly
      refine After.try_call (Engine.viewStatement_alters (k := none)) fun s e₁ h₁ =>
        After.try_call (Engine.finalize_after e₁) fun code e₂ h₂ => ?_
      split
      · next hcode =>
        refine After.try_call (Sqlite.failureText_still e₂) fun text e₃ h₃ => ?_
        have hh : e₃.history = ⟨.finalize k, .failed code none⟩ :: e.history :=
          h₃.history.trans ((h₂ hcode).trans (congrArg _ h₁.history))
        exact After.throw_iff.2 (.inr (.of_call rfl hh))
      · exact After.try_pure_iff.2 (.inl rfl)
    · exact After.try_call (Engine.finalize_after e) fun _ _ _ => After.try_pure_iff.2 (.inl rfl)
  | .maria c =>
    refine After.try_call (Engine.closeStatement_after e) fun ok e₁ h₁ => ?_
    cases ok with
    | false =>
      obtain ⟨code, hh⟩ := h₁ rfl
      exact After.throw_iff.2 (.inr (.of_call rfl hh))
    | true => exact After.try_pure_iff.2 (.inl rfl)

namespace Statement

variable {l : Link} {a : Statement × World} {assignments : List (Destination × Value)}

theorem closeCursor_succeeds (n : Nat) : After (closeCursor n l).run a fun r a' =>
    r = .ok () ∨ History.GivingUpFailed a.2.engine.history a'.2.engine.history := by
  refine closeCursor_cases (fun _ => .inl rfl) fun _ _ =>
    (Backend.preserves_freeRows _ Engine.Settled.refl).mono fun _ e₁ h₁ =>
      ⟨fun _ _ => ?_, fun _ => After.of_forall fun _ _ => .inl rfl⟩
  exact (Backend.finalize_succeeds e₁).mono fun _ _ => .imp_right (·.of_suffix h₁.history)

theorem closeCurrent_succeeds : After (closeCurrent l).run a fun r a' =>
    r = .ok () ∨ History.GivingUpFailed a.2.engine.history a'.2.engine.history :=
  closeCurrent_cases (fun _ => .inl rfl) fun _ _ => closeCursor_succeeds _

/-- Values that go to no slots are written, unless the engine fails to give up a statement: the
cursor that is closed first may have one of its own. -/
theorem write_succeeds (hslots : ∀ x ∈ assignments, x.1.slots = []) :
    After (write l assignments).run a fun r a' =>
      r = .ok () ∨ History.GivingUpFailed a.2.engine.history a'.2.engine.history := by
  unfold write
  induction assignments generalizing a with
  | nil => exact After.try_pure_iff.2 (.inl rfl)
  | cons x assignments ih =>
    obtain ⟨hx, hrest⟩ := List.forall_mem_cons.1 hslots
    have first : After (ExceptT.run do
        closeCurrent l
        x.1.slots.forM fun slot => onHandle (Handle.bind x.1.accessor slot x.2)) a fun r a' =>
          (r = .ok () ∨ History.GivingUpFailed a.2.engine.history a'.2.engine.history) ∧
            a.2.engine.history <:+ a'.2.engine.history := by
      rw [hx]
      exact After.try_seq (closeCurrent_succeeds.and closeCurrent_writes)
        (fun _ _ h => After.try_pure_iff.2 ⟨.inl rfl, h.2.history⟩)
        fun _ _ h => ⟨h.1.imp_left nofun, h.2.history⟩
    refine After.try_seq first (fun _ a₁ h₁ => ?_) fun _ _ h₁ => h₁.1.imp_left nofun
    exact (ih hrest).mono fun _ _ => .imp_right (·.of_suffix h₁.2)

end Statement

end SqlAccess
