import SqlAccess.Proofs.Setting

/-!
# Values that are refused

Whether a value fits is asked for each slot right before it is set, so a value that does not fit is
refused at the first slot that it goes to, and nothing is done there; SQLite can refuse a call with
a code of the same kind (`Handle.Mismatches`). But a list is set one element after another. Where
writing ends as a mismatch, what comes before the refused value has been written, and nothing else
has (`Statement.write_stops`). So a setting that ends as one was stopped at one of its values
(`Setting.Mismatched`).
-/

namespace SqlAccess

/-! ## One slot -/

namespace Handle

variable {type : ValueType} {v : Value} {slot : Nat} {b b' b₁ : Handle × Engine}
  {d : Datum}

/-- Setting a slot to a value is refused: it does not fit and nothing is done, or SQLite refuses the
call with a code of that kind. -/
inductive Mismatches (type : ValueType) (v : Value) (slot : Nat) (b : Handle × Engine) :
    Handle × Engine → Prop
  | unfit (hfits : v.fits type = false) : Mismatches type v slot b b
  | refused {k : Nat} {code : Int32} {e : Engine} (hfits : v.fits type = true)
    (hk : b.1 = sqlite (some k))
    (hh : e.history = ⟨.bind k (slot + 1) (Sqlite.datum type v), .failed code none⟩ :: b.2.history)
    (hcode : Sqlite.kindOf? code = some .mismatch) : Mismatches type v slot b (b.1, e)

namespace Mismatches

theorem history (h : Mismatches type v slot b b') : b.2.history <:+ b'.2.history := by
  cases h with
  | unfit => exact List.suffix_refl _
  | refused _ _ hh _ => exact hh ▸ List.suffix_cons _ _

theorem held (h : Mismatches type v slot b b') (other : Nat) : held b' other = held b other := by
  cases h with
  | unfit => rfl
  | refused _ hk hh _ =>
    obtain ⟨h, e⟩ := b
    obtain rfl : h = sqlite _ := hk
    exact congrArg some (hh ▸ History.setting_cons_of_none rfl)

/-- What was written before is still there. -/
theorem reached (h : Mismatches type v slot b₁ b') {other : Nat} (hr : Reached b b₁ other d) :
    Reached b b' other d := by
  obtain hr | ⟨hr, hm⟩ := hr
  · exact .inl ((h.held other).trans hr)
  · exact .inr ⟨(h.held other).trans hr, hm.of_suffix h.history⟩

end Mismatches

/-- How setting a slot can end: it succeeds only with a value that fits, and a mismatch is one. -/
structure Ends (type : ValueType) (v : Value) (slot : Nat) (b : Handle × Engine)
    (r : Except Fault Unit) (b' : Handle × Engine) : Prop where
  fits : r = .ok () → v.fits type = true
  mismatches : ∀ f, r = .error f → f.kind = .mismatch → Mismatches type v slot b b'

theorem Ends.unfit (hfits : v.fits type = false) :
    Ends type v slot b (.error (.unassignable v.type type)) b :=
  ⟨nofun, fun _ _ _ => .unfit hfits⟩

theorem Bound.ends {r : Except Fault Unit} (h : Bound type v slot b r b') :
    Ends type v slot b r b' := by
  cases h with
  | sqlite h =>
    cases h with
    | unfit hfits => exact .unfit hfits
    | unprepared hfits hkind =>
      refine ⟨fun _ => hfits, fun f hf hk => ?_⟩
      cases hf
      cases hkind.symm.trans hk
    | done hfits => exact ⟨fun _ => hfits, nofun⟩
    | failed hfits hh hr =>
      refine ⟨fun _ => hfits, fun f hf hk => .refused hfits rfl hh ?_⟩
      subst hf
      exact hk ▸ hr.1
  | maria h =>
    cases h with
    | unfit hfits => exact .unfit hfits
    | outside hfits =>
      refine ⟨fun _ => hfits, ?_⟩
      rintro _ ⟨⟩ ⟨⟩
    | kept hfits => exact ⟨fun _ => hfits, nofun⟩

end Handle

/-! ## One value after another -/

namespace Statement

variable {l : Link} {a : Statement × World} {h : Handle}

/-- A value that goes to a slot fits there. -/
def Suits (y : Destination × Value) : Prop := y.1.slots ≠ [] → y.2.fits y.1.accessor = true

/-- Slots with what a value is for them. -/
def sent (h : Handle) (type : ValueType) (v : Value) (slots : List Nat) : List (Nat × Datum) :=
  slots.flatMap fun slot => [(slot, h.datum type v)]

/-- Writing a value ends as a mismatch at one of its slots, which is the first one if the value does
not fit. -/
def SlotStops (h : Handle) (type : ValueType) (v : Value) (slots : List Nat)
    (b b' : Handle × Engine) : Prop :=
  ∃ done slot rest b₁, slots = done ++ slot :: rest ∧ (v.fits type = false → done = []) ∧
    Handle.Writes (sent h type v done) b b₁ ∧ Handle.Mismatches type v slot b₁ b'

theorem slots_stop {type : ValueType} {v : Value} (slots : List Nat) (a : Statement × World)
    (ha : a.1.handle.fixed = h.fixed) :
    After (slots.forM fun slot => onHandle (Handle.bind type slot v)).run a fun r a' =>
      (r = .ok () → Suits (⟨type, slots⟩, v) ∧
        Handle.Writes (sent h type v slots) (prepared a) (prepared a')) ∧
      ∀ e, r = .error e → e.kind = .mismatch →
        SlotStops h type v slots (prepared a) (prepared a') := by
  refine (forM_stops (h := h) (P := fun _ => v.fits type = true)
    (g := fun slot => [(slot, h.datum type v)])
    (F := fun slot e b b' => e.kind = .mismatch → Handle.Mismatches type v slot b b')
    (fun slot a₁ h₁ => ?_) slots a ha).mono ?_
  · refine onHandle_iff.2 ((Handle.bind_bound (prepared a₁)).mono fun r b hbound => ?_)
    refine ⟨fun hr => ⟨hbound.ends.fits hr, ?_⟩, hbound.ends.mismatches⟩
    exact Handle.datum_of_fixed h₁ ▸ (hr ▸ hbound).writes
  · rintro r a' ⟨hok, herror⟩
    refine ⟨fun hr => ⟨fun hne => ?_, (hok hr).2⟩, fun e he hk => ?_⟩
    · obtain ⟨slot, hslot⟩ := List.exists_mem_of_ne_nil _ hne
      exact (hok hr).1 slot hslot
    · obtain ⟨done, slot, rest, b, heq, hdone, hw, hm⟩ := herror e he
      refine ⟨done, slot, rest, b, heq, fun hfits => ?_, hw, hm hk⟩
      refine List.eq_nil_iff_forall_not_mem.2 fun other hother => ?_
      exact Bool.false_ne_true (hfits.symm.trans (hdone other hother))

/-- Where setting parameters ends as a mismatch, it does so at one of the values: those before it
have been written, and this one to some of its slots, to none if it does not fit. -/
theorem write_stops (assignments : List (Destination × Value)) :
    After (write l assignments).run a fun r a' => ∀ e, r = .error e → e.kind = .mismatch →
      ∃ before destination v after b, assignments = before ++ (destination, v) :: after ∧
        (∀ y ∈ before, Suits y) ∧ Handle.Writes (written a.1.handle before) (prepared a) b ∧
          SlotStops a.1.handle destination.accessor v destination.slots b (prepared a') := by
  unfold write
  refine After.mono (forM_stops (h := a.1.handle) (P := Suits)
    (g := fun y => sent a.1.handle y.1.accessor y.2 y.1.slots)
    (F := fun y e b b' => e.kind = .mismatch →
      SlotStops a.1.handle y.1.accessor y.2 y.1.slots b b')
    (fun ⟨destination, v⟩ a₁ h₁ => ?_) assignments a rfl) ?_
  · refine After.try_seq (closeCurrent_writes.and closeCurrent_fault) (fun _ a₂ ⟨hw, _⟩ => ?_)
      fun e _ ⟨_, he⟩ => ⟨nofun, fun e' he' hk => ?_⟩
    · refine (slots_stop destination.slots a₂ (hw.fixed.trans h₁)).mono
        fun r a₃ ⟨hok, herror⟩ => ⟨fun hr => ⟨(hok hr).1, hw.append (hok hr).2⟩, ?_⟩
      intro e he hk
      obtain ⟨done, slot, rest, b, heq, hdone, hws, hm⟩ := herror e he hk
      exact ⟨done, slot, rest, b, heq, hdone, hw.append hws, hm⟩
    · obtain hkind | hkind := he e' he' <;> cases hkind.symm.trans hk
  · rintro r a' ⟨-, h⟩ e he hk
    obtain ⟨before, ⟨destination, v⟩, after, b, heq, hbefore, hw, hstops⟩ := h e he
    exact ⟨before, destination, v, after, b, heq, hbefore, hw, hstops hk⟩

end Statement

/-! ## Settings -/

namespace Setting

variable {accessors : Accessors} {d : Descriptor} {before : List (Bytes × Value)}
  {sent : List (Destination × Value)} {v : Value} {accessor : ValueType} {slot : Nat}
  {b b₁ b' : Handle × Engine}

/-- A setting has stopped at a value: the values before it fit where they go to slots and have
reached these, this one has reached some of its slots, and every other slot is as it was. -/
structure StopsAt (accessors : Accessors) (d : Descriptor) (before : List (Bytes × Value))
    (accessor : ValueType) (v : Value) (done : List Nat) (b b' : Handle × Engine) : Prop where
  fits : ∀ name v type accessor, (name, v) ∈ before →
    d.declarations.parameters.find? name = some type → accessors type = some accessor →
      d.slots name ≠ [] → v.fits accessor = true
  reached : ∀ name v type accessor, (name, v) ∈ before →
    d.declarations.parameters.find? name = some type → accessors type = some accessor →
      ∀ slot ∈ d.slots name, Handle.Reached b b' slot (b.1.datum accessor v)
  current : ∀ slot ∈ done, Handle.Reached b b' slot (b.1.datum accessor v)
  kept : ∀ slot, (∀ name v, (name, v) ∈ before → slot ∉ d.slots name) → slot ∉ done →
    Handle.held b' slot = Handle.held b slot

theorem map_fst_sent {h : Handle} {type : ValueType} {slots : List Nat} :
    (Statement.sent h type v slots).map (·.1) = slots := by
  simp [Statement.sent, List.map_flatMap]

/-- Why a setting has stopped at a slot: the value does not fit, and then it is the first slot, or
SQLite has refused the call with a code of that kind. -/
inductive Refusal (accessor : ValueType) (v : Value) (done : List Nat) (slot : Nat)
    (b b' : Handle × Engine) : Prop
  | unfit (hfits : v.fits accessor = false) (hdone : done = [])
  | call {k : Nat} {code : Int32} {past : History} (hfits : v.fits accessor = true)
    (hk : b.1 = .sqlite (some k)) (hpast : b.2.history <:+ past)
    (hh : b'.2.history =
      ⟨.bind k (slot + 1) (Sqlite.datum accessor v), .failed code none⟩ :: past)
    (hcode : Sqlite.kindOf? code = some .mismatch)

/-- A setting has ended as a mismatch: it was stopped at a slot of one of its values. -/
inductive Mismatched (accessors : Accessors) (d : Descriptor) (st : Setting)
    (b b' : Handle × Engine) : Prop
  | stop {before after : List (Bytes × Value)} {name : Bytes} {v : Value}
    {type accessor : ValueType} {done rest : List Nat} {slot : Nat}
    (hassigned : st.assigned = before ++ (name, v) :: after)
    (htype : d.declarations.parameters.find? name = some type)
    (haccessor : accessors type = some accessor) (hslots : d.slots name = done ++ slot :: rest)
    (hstops : StopsAt accessors d before accessor v done b b')
    (hrefusal : Refusal accessor v done slot b b')

/-- What was written up to a refused value is what the setting stops with. -/
theorem StopsAt.of_written {done : List Nat}
    (hbefore : List.Forall₂ (Delivers accessors d) before sent)
    (hsuits : ∀ y ∈ sent, Statement.Suits y)
    (hnodup : ((before.map (·.1)).flatMap d.slots ++ done).Nodup)
    (hw : Handle.Writes (Statement.written b.1 sent ++ Statement.sent b.1 accessor v done) b b₁)
    (hm : Handle.Mismatches accessor v slot b₁ b') :
    StopsAt accessors d before accessor v done b b' := by
  have hslots : (Statement.written b.1 sent ++ Statement.sent b.1 accessor v done).map (·.1) =
      (before.map (·.1)).flatMap d.slots ++ done := by
    rw [List.map_append, map_fst_written hbefore, map_fst_sent]
  have hreached := hw.reached (hslots ▸ hnodup)
  refine ⟨fun name v type accessor hv htype haccessor hne => ?_,
    fun name v type accessor hv htype haccessor slot hslot => ?_, fun slot hslot => ?_,
    fun slot hother hnot => ?_⟩
  · exact hsuits _ (mem_of_delivers hbefore hv htype haccessor) hne
  · exact hm.reached (hreached _ (List.mem_append_left _
      (mem_written hbefore hv htype haccessor hslot)))
  · have hmem : (slot, b.1.datum accessor v) ∈ Statement.sent b.1 accessor v done :=
      List.mem_flatMap.2 ⟨slot, hslot, List.mem_singleton_self _⟩
    exact hm.reached (hreached _ (List.mem_append_right _ hmem))
  · refine (hm.held slot).trans (hw.kept slot fun hmem => ?_)
    obtain hmem | hmem := List.mem_append.1 (hslots ▸ hmem)
    · obtain ⟨name, hname, hslot⟩ := List.mem_flatMap.1 hmem
      obtain ⟨⟨name, v⟩, hv, rfl⟩ := List.mem_map.1 hname
      exact hother name v hv hslot
    · exact hnot hmem

theorem Refusal.of_mismatches {ws : List (Nat × Datum)} {done : List Nat} {slot : Nat}
    (hdone : v.fits accessor = false → done = []) (hw : Handle.Writes ws b b₁)
    (hm : Handle.Mismatches accessor v slot b₁ b') : Refusal accessor v done slot b b' := by
  cases hm with
  | unfit hfits => exact .unfit hfits (hdone hfits)
  | refused hfits hk hh hcode =>
    have hb := Handle.eq_sqlite_of_fixed (hw.fixed.symm.trans (congrArg Handle.fixed hk))
    exact .call hfits hb hw.history hh hcode

/-- Where the values of a setting go to their destinations, what stops at one of these has stopped
at a value of the setting. -/
theorem Mismatched.of_slotStops {st : Setting} {x : Destination}
    {later : List (Destination × Value)}
    (hl : List.Forall₂ (Delivers accessors d) st.assigned (sent ++ (x, v) :: later))
    (hsuits : ∀ y ∈ sent, Statement.Suits y)
    (hw : Handle.Writes (Statement.written b.1 sent) b b₁)
    (hstops : Statement.SlotStops b.1 x.accessor v x.slots b₁ b') :
    st.Mismatched accessors d b b' := by
  obtain ⟨before, ⟨name, v'⟩, after, hassigned, hbefore, ⟨type, htype, haccessor, hslots⟩, hv⟩ :=
    exists_append_of_forall₂ hl
  obtain rfl : v = v' := hv
  obtain ⟨done, slot, rest, b₂, hsplit, hdone, hsent, hm⟩ := hstops
  have hnodup : ((before.map (·.1)).flatMap d.slots ++ done).Nodup := by
    have hall := Descriptor.slots_nodup (d := d) st.assigned_nodup
    rw [hassigned, List.map_append, List.map_cons, List.flatMap_append, List.flatMap_cons, ← hslots,
      hsplit, List.append_assoc, ← List.append_assoc] at hall
    exact (List.nodup_append.1 hall).1
  have hall := hw.append hsent
  exact .stop hassigned htype haccessor (hslots ▸ hsplit)
    (.of_written hbefore hsuits hnodup hall hm) (.of_mismatches hdone hall hm)

/-- Where no call fails, a setting is stopped at the first of its values that goes to a slot and
does not fit: the slots of those before it hold their values, and all others what they held. -/
theorem Mismatched.of_quiet {st : Setting} (h : st.Mismatched accessors d b b')
    (hquiet : ∀ new, b'.2.history = new ++ b.2.history → ∀ e ∈ new, ¬e.outcome.isFailure) :
    ∃ before name v after type accessor, st.assigned = before ++ (name, v) :: after ∧
      d.declarations.parameters.find? name = some type ∧ accessors type = some accessor ∧
      d.slots name ≠ [] ∧ v.fits accessor = false ∧
      (∀ name v type accessor, (name, v) ∈ before →
        d.declarations.parameters.find? name = some type → accessors type = some accessor →
          (d.slots name ≠ [] → v.fits accessor = true) ∧
          ∀ slot ∈ d.slots name, Handle.held b' slot = some (b.1.datum accessor v)) ∧
      ∀ slot, (∀ name v, (name, v) ∈ before → slot ∉ d.slots name) →
        Handle.held b' slot = Handle.held b slot := by
  obtain ⟨hassigned, htype, haccessor, hslots, hstops, hrefusal⟩ := h
  cases hrefusal with
  | call _ _ hpast hh _ =>
    obtain ⟨new, rfl⟩ := hpast
    exact absurd rfl (hquiet _ hh _ List.mem_cons_self)
  | unfit hfits hdone =>
    refine ⟨_, _, _, _, _, _, hassigned, htype, haccessor, by simp [hslots], hfits,
      fun name v type accessor hv ht ha => ⟨hstops.fits name v type accessor hv ht ha,
        fun slot hslot => ?_⟩, fun slot hother => hstops.kept slot hother (by simp [hdone])⟩
    obtain hheld | ⟨-, _, _, new, -, hnew, hmem, -⟩ := hstops.reached name v type accessor hv ht ha
      slot hslot
    · exact hheld
    · exact absurd rfl (hquiet new hnew _ hmem)

/-- A single value that does not fit changes no slot. -/
theorem Mismatched.scalar_kept {key : Bytes} (h : (scalar key v).Mismatched accessors d b b')
    (hquiet : ∀ new, b'.2.history = new ++ b.2.history → ∀ e ∈ new, ¬e.outcome.isFailure)
    (slot : Nat) : Handle.held b' slot = Handle.held b slot := by
  obtain ⟨before, name, v', after, type, accessor, hassigned, -, -, -, -, -, hkept⟩ :=
    h.of_quiet hquiet
  cases before with
  | nil => exact hkept slot nofun
  | cons e before => simp [assigned] at hassigned

end Setting

end SqlAccess
