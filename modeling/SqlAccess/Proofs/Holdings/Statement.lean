import SqlAccess.Proofs.Holdings.Backend
import SqlAccess.Proofs.Statement

/-!
# What statements hold

An open statement holds its handle, and through its cursor, if that is open, the copies of the rows
fetched so far and the handle that the cursor has of its own (`Statement.Works`). A closed statement
holds nothing (`Statement.Holds`). Every operation on a statement keeps this however it ends, and
opens no other cursor than the one that it answers with.

Between a fetch that failed and the closing of its cursor the rows have ended although the cursor
does not say so; so what a cursor needs to be closed is less than what it needs to go on.
-/

namespace SqlAccess

open Engine

variable {b : Backend} {c : Option Nat} {x : Multiset Asset} {w : World}

/-! ## Cursors -/

namespace Cursor

/-- What a cursor has fetched over a handle, together with what the handle holds. -/
def Over (b : Backend) (c : Option Nat) (h : Handle) (ended : Bool) (y : Cursor)
    (own : Multiset Asset) : Prop :=
  ∃ o, h.Stands b c (.reading ended) o ∧ own = Multiset.replicate (b.copies y.rows) .cell + o

/-- What a cursor and the handle of its statement hold. The cursor goes over its own handle, if it
has one. -/
inductive Uses (b : Backend) (c : Option Nat) (handle : Handle) (ended : Bool) (y : Cursor) :
    Multiset Asset → Prop
  | rows {own : Multiset Asset} : y.own = none → y.Over b c handle ended own →
      Uses b c handle ended y own
  | keys {h : Handle} {o own : Multiset Asset} : y.own = some h → handle.Stands b c .resting o →
      y.Over b c h ended own → Uses b c handle ended y (o + own)

variable {h handle : Handle} {y : Cursor} {ended : Bool} {own : Multiset Asset}

theorem Over.ended_true (hy : y.Over b c h ended own) : y.Over b c h true own := by
  obtain ⟨o, hs, rfl⟩ := hy
  exact ⟨o, hs.reading_true, rfl⟩

theorem Uses.ended_true (hy : y.Uses b c handle ended own) : y.Uses b c handle true own := by
  cases hy with
  | rows ho hov => exact .rows ho hov.ended_true
  | keys ho hr hov => exact .keys ho hr hov.ended_true

theorem Uses.move (hy : y.Uses b c handle ended own) (position : Int) :
    ({ y with position } : Cursor).Uses b c handle ended own := by
  cases hy with
  | rows ho hov => exact .rows ho hov
  | keys ho hr hov => exact .keys ho hr hov

/-- A cursor goes over one handle, whatever it has fetched; the rest of what is held stays. -/
theorem Uses.over (hy : y.Uses b c handle ended own) : ∃ rest own', own = rest + own' ∧
    y.Over b c (y.own.getD handle) ended own' ∧ ∀ (z : Cursor) ended' own'', z.own = y.own →
      z.Over b c (y.own.getD handle) ended' own'' → z.Uses b c handle ended' (rest + own'') := by
  cases hy with
  | rows ho hov =>
    rw [ho]
    exact ⟨0, own, (zero_add _).symm, hov, fun z _ own'' hz hov' => by
      rw [zero_add]
      exact .rows hz hov'⟩
  | keys ho hr hov =>
    rw [ho]
    exact ⟨_, _, rfl, hov, fun z _ _ hz hov' => .keys hz hr hov'⟩

theorem Over.connection (hy : y.Over b c h ended own) {k n : Nat} {st : Stage}
    (hm : .statement k n st ∈ own) : c = some n := by
  obtain ⟨o, hs, rfl⟩ := hy
  exact hs.connection ((Multiset.mem_add.1 hm).resolve_left fun h =>
    nomatch Multiset.eq_of_mem_replicate h)

theorem Uses.connection (hy : y.Uses b c handle ended own) {k n : Nat} {st : Stage}
    (hm : .statement k n st ∈ own) : c = some n := by
  cases hy with
  | rows _ hov => exact hov.connection hm
  | keys _ hr hov => exact (Multiset.mem_add.1 hm).elim hr.connection hov.connection

/-- Fetching rows leaves the cursor over them. They have ended if the fetch failed. -/
theorem fetchRows_backed (hc : Connected c x) (n : Nat)
    (hy : Backed (fun z => Over b c h z.exhausted z) x (y, w)) :
    After (fetchRows h c n).run (y, w) fun r s' => s'.1.own = y.own ∧ match r with
      | .ok _ => Backed (fun z => Over b c h z.exhausted z) x s'
      | .error _ => Backed (Over b c h true) x s' := by
  induction n generalizing y w with
  | zero => exact After.try_pure_iff.2 ⟨rfl, hy⟩
  | succ n ih =>
    unfold fetchRows
    refine After.try_bind_iff.2 <| After.try_get_iff.2 ?_
    dsimp only
    cases hex : y.exhausted with
    | true => exact After.try_pure_iff.2 ⟨rfl, hy⟩
    | false =>
      obtain ⟨own, ⟨o, hs, rfl⟩, he⟩ := hy
      rw [hex] at hs
      have hh : Backed (Handle.Stands b c (.reading false))
          (Multiset.replicate (b.copies y.rows) .cell + x) (h, w.engine) :=
        ⟨o, hs, he.of_eq (by abel)⟩
      refine After.try_bind_iff.2 <| After.op_onTry_iff.2 <|
        (Handle.fetchRow_backed (hc.add _) hh).mono fun r e₁ h₁ => ?_
      have ended {z : Cursor} (hz : z.rows = y.rows)
          (h₁ : Backed (Handle.Stands b c (.reading true))
            (Multiset.replicate (b.copies y.rows) .cell + x) (h, e₁)) :
          Backed (Over b c h true) x (z, { w with engine := e₁ }) := by
        obtain ⟨o₁, hs₁, he₁⟩ := h₁
        exact ⟨_, ⟨o₁, hs₁, rfl⟩, he₁.of_eq (by rw [hz]; abel)⟩
      cases r with
      | ok row =>
        cases row with
        | some row =>
          refine After.try_bind_iff.2 <| After.try_modify_iff.2 ?_
          obtain ⟨o₁, hs₁, he₁⟩ := h₁
          refine ih ⟨_, ⟨o₁, hex ▸ hs₁, rfl⟩, he₁.of_eq ?_⟩
          dsimp only
          rw [Backend.copies_append, Multiset.replicate_add]
          abel
        | none => exact After.try_modify_iff.2 ⟨rfl, ended rfl h₁⟩
      | error f => exact ⟨rfl, ended rfl h₁⟩

theorem fetchTo_backed (hc : Connected c x) (index : Int)
    (hy : Backed (fun z => Over b c h z.exhausted z) x (y, w)) :
    After (fetchTo h c index).run (y, w) fun r s' => s'.1.own = y.own ∧ match r with
      | .ok _ => Backed (fun z => Over b c h z.exhausted z) x s'
      | .error _ => Backed (Over b c h true) x s' :=
  After.try_bind_iff.2 (After.try_get_iff.2 (fetchRows_backed hc _ hy))

end Cursor

namespace Statement

variable {l : Link} {s : Statement} {R : Nat → Prop} {isOpen : Bool}

/-- What a statement holds that was not given up, where only the cursors of `R` may be open. -/
inductive Works (l : Link) (isOpen : Bool) (R : Nat → Prop) (s : Statement) :
    Multiset Asset → Prop
  | idle {own : Multiset Asset} : s.isOpen = isOpen → s.cursors.entries = [] →
      s.handle.Stands l.backend l.connection .resting own → Works l isOpen R s own
  | busy {n : Nat} {y : Cursor} {own : Multiset Asset} : s.isOpen = isOpen →
      s.current = some n → R n → s.cursors.entries = [(n, y)] →
      y.Uses l.backend l.connection s.handle y.exhausted own → Works l isOpen R s own

/-- What a statement holds, where it may only be open if `O` holds, and its cursors only if they are
among `R`. -/
inductive Holds (l : Link) (O : Prop) (R : Nat → Prop) (s : Statement) : Multiset Asset → Prop
  | working {own : Multiset Asset} : O → s.Works l true R own → Holds l O R s own
  | closed : s.isOpen = false → s.cursors.entries = [] → Holds l O R s 0

theorem Works.isOpen_eq {own : Multiset Asset} (h : s.Works l isOpen R own) :
    s.isOpen = isOpen := by
  cases h <;> assumption

/-- Which cursors may be open counts for those that are. -/
theorem Works.mono {R' : Nat → Prop} {own : Multiset Asset} (h : s.Works l isOpen R own)
    (hR : ∀ n, (s.cursors.find? n).isSome → R n → R' n) : s.Works l isOpen R' own := by
  cases h with
  | idle ho hn hs => exact .idle ho hn hs
  | busy ho hc hr hn hu =>
    exact .busy ho hc (hR _ (by simp [Table.find?_of_singleton hn]) hr) hn hu

theorem Holds.mono {O O' : Prop} {R' : Nat → Prop} {own : Multiset Asset} (h : s.Holds l O R own)
    (hO : s.isOpen → O → O') (hR : ∀ n, (s.cursors.find? n).isSome → R n → R' n) :
    s.Holds l O' R' own := by
  cases h with
  | working ho hw => exact .working (hO hw.isOpen_eq ho) (hw.mono hR)
  | closed ho hn => exact .closed ho hn

/-- A statement that is open may be. -/
theorem Holds.of_isOpen {O : Prop} {own : Multiset Asset} (h : s.Holds l O R own) (ho : s.isOpen) :
    O := by
  cases h with
  | working hO _ => exact hO
  | closed hc _ =>
    rw [hc] at ho
    cases ho

/-- A cursor that is open may be. -/
theorem Holds.of_cursor {O : Prop} {own : Multiset Asset} (h : s.Holds l O R own) {n : Nat}
    (hn : (s.cursors.find? n).isSome) : R n := by
  cases h with
  | working _ hw =>
    cases hw with
    | idle _ he _ => simp [Table.find?_of_nil he] at hn
    | busy _ _ hr he _ =>
      rw [Table.find?_of_singleton he] at hn
      split at hn
      · next h => exact h ▸ hr
      · cases hn
  | closed _ he => simp [Table.find?_of_nil he] at hn

theorem Works.connection {own : Multiset Asset} (h : s.Works l isOpen R own) {k n : Nat}
    {st : Stage} (hm : .statement k n st ∈ own) : l.connection = some n := by
  cases h with
  | idle _ _ hh => exact hh.connection hm
  | busy _ _ _ _ hu => exact hu.connection hm

/-- A statement without a cursor works as one that may have some. -/
theorem Works.of_none {a : Statement × World} (h : Backed (Works l isOpen fun _ => False) x a) :
    Backed (Works l isOpen R) x a :=
  h.mono fun _ hw => hw.mono fun _ _ => False.elim

/-! ## Closing -/

/-- A cursor that is closed gives up what it held, even if its rows have ended without its
knowing. -/
theorem closeCursor_busy {n : Nat} {y : Cursor} (hc : Connected l.connection x)
    (hn : s.cursors.entries = [(n, y)])
    (hy : Backed (fun s => y.Uses l.backend l.connection s.handle true) x (s, w)) :
    After (closeCursor n l).run (s, w) fun _ s' => Backed (Works l s.isOpen R) x s' := by
  have hfind : s.cursors.find? n = some y := by simp [Table.find?_of_singleton hn]
  have hgone : (s.cursors.erase n).entries = [] := by simp [Table.erase, hn]
  obtain ⟨own, hu, he⟩ := hy
  cases hu with
  | rows hown hov =>
    obtain ⟨o, hs, rfl⟩ := hov
    refine closeCursor_open hfind <| (Backend.freeRows_carries (x := o + x)
      (he.of_eq (by abel))).mono fun _ e₁ h₁ => ⟨fun _ hh => ?_, fun _ => ?_⟩
    · cases hown.symm.trans hh
    · have hh : Backed (Handle.Stands l.backend l.connection (.reading true)) x (s.handle, e₁) :=
        ⟨o, hs, h₁⟩
      refine (Handle.endRows_backed hh).mono ?_
      rintro h e₂ ⟨o₂, hs₂, he₂⟩
      exact ⟨o₂, .idle rfl hgone hs₂, he₂⟩
  | @keys h o own hown hr hov =>
    obtain ⟨o', hs, rfl⟩ := hov
    refine closeCursor_open hfind <| (Backend.freeRows_carries (x := o' + (o + x))
      (he.of_eq (by abel))).mono fun _ e₁ h₁ => ⟨fun h' hh' => ?_, fun hnone => ?_⟩
    · obtain rfl : h = h' := Option.some.inj (hown.symm.trans hh')
      have hh : Backed (Handle.Stands l.backend l.connection (.reading true)) (o + x) (h, e₁) :=
        ⟨o', hs, h₁⟩
      exact (Backend.finalize_carries (hc.add o) hh).mono fun _ _ he₂ =>
        ⟨o, .idle rfl hgone hr, he₂⟩
    · cases hown.symm.trans hnone

/-- A cursor that is closed is no more open. -/
theorem closeCursor_works (hc : Connected l.connection x) (n : Nat)
    (hs : Backed (Works l isOpen R) x (s, w)) :
    After (closeCursor n l).run (s, w) fun _ s' =>
      Backed (Works l isOpen fun m => R m ∧ m ≠ n) x s' := by
  obtain ⟨own, hw, he⟩ := hs
  cases hw with
  | idle ho hn hh =>
    exact closeCursor_missing (Table.find?_of_nil hn n) ⟨own, .idle ho hn hh, he⟩
  | @busy m y _ ho hcur hr hn hu =>
    by_cases hm : m = n
    · subst hm ho
      exact closeCursor_busy hc hn ⟨own, hu.ended_true, he⟩
    · refine closeCursor_missing ?_ ⟨own, .busy ho hcur ⟨hr, hm⟩ hn hu, he⟩
      rw [Table.find?_of_singleton hn, if_neg (Ne.symm hm)]

theorem closeCursor_holds {O : Prop} (hc : O → Connected l.connection x) (n : Nat)
    (hs : Backed (Holds l O R) x (s, w)) :
    After (closeCursor n l).run (s, w) fun _ s' =>
      Backed (Holds l O fun m => R m ∧ m ≠ n) x s' := by
  obtain ⟨own, hh, he⟩ := hs
  cases hh with
  | working hO hw =>
    exact (closeCursor_works (hc hO) n ⟨own, hw, he⟩).backed fun _ _ _ => .working hO
  | closed ho hn => exact closeCursor_missing (Table.find?_of_nil hn n) ⟨0, .closed ho hn, he⟩

theorem closeCurrent_works (hc : Connected l.connection x)
    (hs : Backed (Works l isOpen R) x (s, w)) :
    After (closeCurrent l).run (s, w) fun _ s' =>
      Backed (Works l isOpen fun _ => False) x s' := by
  obtain ⟨own, hw, he⟩ := hs
  cases hw with
  | idle ho hn hh =>
    refine closeCurrent_cases (fun _ => ⟨own, .idle ho hn hh, he⟩) fun n _ => ?_
    have emptied : Backed (Works l isOpen fun _ => False) x ({ s with current := none }, w) :=
      ⟨own, .idle ho hn hh, he⟩
    exact (closeCursor_works hc n emptied).backed fun _ _ _ hw => hw.mono fun _ _ h => h.1
  | @busy n y _ ho hcur hr hn hu =>
    subst ho
    refine closeCurrent_cases (fun hnone => nomatch hcur.symm.trans hnone) fun m hm => ?_
    obtain rfl : n = m := Option.some.inj (hcur.symm.trans hm)
    exact closeCursor_busy hc (s := { s with current := none }) hn ⟨own, hu.ended_true, he⟩

/-- A statement that works without a cursor has its handle at rest. -/
theorem Works.rests {own : Multiset Asset} (hw : s.Works l isOpen (fun _ => False) own) :
    s.isOpen = isOpen ∧ s.cursors.entries = [] ∧
      s.handle.Stands l.backend l.connection .resting own := by
  cases hw with
  | idle ho hn hh => exact ⟨ho, hn, hh⟩
  | busy _ _ hr => exact hr.elim

/-- A statement that is closed holds nothing, whatever fails. -/
theorem close_holds {O : Prop} (hc : O → Connected l.connection x)
    (hs : Backed (Holds l O R) x (s, w)) :
    After (close l) (s, w) fun _ s' => Backed (Holds l False fun _ => False) x s' := by
  obtain ⟨own, hh, he⟩ := hs
  cases hh with
  | closed ho hn =>
    exact close_cases (fun _ => ⟨0, .closed ho hn, he⟩) fun hopen => nomatch ho.symm.trans hopen
  | working hO hw =>
    have hopen : s.isOpen := hw.isOpen_eq
    have hw : Backed (Works l false R) x ({ s with isOpen := false }, w) := by
      refine ⟨own, ?_, he⟩
      cases hw with
      | idle _ hn hh => exact .idle rfl hn hh
      | busy _ hcur hr hn hu => exact .busy rfl hcur hr hn hu
    refine close_cases (fun ho => nomatch ho.symm.trans hopen) fun _ =>
      (closeCurrent_works (hc hO) hw).mono fun first s₁ ⟨own₁, hw₁, he₁⟩ => ?_
    obtain ⟨ho₁, hn₁, hh₁⟩ := hw₁.rests
    refine (Backend.finalize_carries (hc hO) ⟨own₁, hh₁, he₁⟩).mono fun next e₂ h₂ =>
      After.keepFirst_still.mono fun _ w₂ hw₂ => ⟨0, .closed ho₁ hn₁, ?_⟩
    change w₂.engine.Carries (0 + x)
    rw [hw₂, zero_add]
    exact h₂

/-! ## Binding -/

theorem onHandle_iff {y : HandleTry Unit} {Q : Except Fault Unit → Statement × World → Prop} :
    After (onHandle y).run (s, w) Q ↔ After y.run (s.handle, w.engine) fun r h =>
      Q r ({ s with handle := h.1 }, { w with engine := h.2 }) := Iff.rfl

/-- A statement at rest can be set up. -/
theorem onHandle_bind {type : ValueType} {slot : Nat} {v : Value} (hc : Connected l.connection x)
    (hs : Backed (Works l isOpen fun _ => False) x (s, w)) :
    After (onHandle (Handle.bind type slot v)).run (s, w) fun _ s' =>
      Backed (Works l isOpen fun _ => False) x s' := by
  obtain ⟨own, hw, he⟩ := hs
  obtain ⟨ho, hn, hh⟩ := hw.rests
  have hb : Backed (Handle.Stands l.backend l.connection .resting) x (s.handle, w.engine) :=
    ⟨own, hh, he⟩
  exact onHandle_iff.2 <| (Handle.bind_backed hc hb).mono fun _ _ ⟨own₁, hh₁, he₁⟩ =>
    ⟨own₁, .idle ho hn hh₁, he₁⟩

theorem write_works {assignments : List (Destination × Value)} (hc : Connected l.connection x)
    (hs : Backed (Works l isOpen R) x (s, w)) :
    After (write l assignments).run (s, w) fun _ s' => Backed (Works l isOpen R) x s' := by
  unfold write
  refine After.try_forM (I := Backed (Works l isOpen R) x) (fun (destination, v) s₁ h₁ => ?_) hs
  refine After.try_seq (closeCurrent_works hc h₁) (fun _ s₂ h₂ => ?_) fun _ _ => Works.of_none
  exact (After.try_forM (I := Backed (Works l isOpen fun _ => False) x)
    (fun slot s₃ h₃ => onHandle_bind hc h₃) h₂).mono fun _ _ => Works.of_none

theorem parameter_same {name : Option Bytes} :
    After (parameter name l).run (s, w) fun _ s' => s' = (s, w) := by
  unfold parameter
  split
  · exact After.throw_iff.2 rfl
  · exact After.try_bind_iff.2 (After.try_get_iff.2 (After.ofResult_iff.2 rfl))

theorem assign_works {p : Parameter} {v : Value} (hc : Connected l.connection x)
    (hs : Backed (Works l isOpen R) x (s, w)) :
    After (assign p v l).run (s, w) fun _ s' => Backed (Works l isOpen R) x s' :=
  After.try_keep (After.ofResult_iff.2 hs) fun _ _ h => write_works hc h

theorem assignList_works {p : Parameter} {vs : List Value} (hc : Connected l.connection x)
    (hs : Backed (Works l isOpen R) x (s, w)) :
    After (assignList p vs l).run (s, w) fun _ s' => Backed (Works l isOpen R) x s' :=
  After.try_keep (After.ofResult_iff.2 hs) fun _ _ h => write_works hc h

theorem bind_works {name : Option Bytes} {v : Value} (hc : Connected l.connection x)
    (hs : Backed (Works l isOpen R) x (s, w)) :
    After (bind name v l).run (s, w) fun _ s' => Backed (Works l isOpen R) x s' :=
  After.try_keep (parameter_same.mono fun _ _ h => h ▸ hs) fun _ _ h => assign_works hc h

theorem bindList_works {name : Option Bytes} {vs : List Value} (hc : Connected l.connection x)
    (hs : Backed (Works l isOpen R) x (s, w)) :
    After (bindList name vs l).run (s, w) fun _ s' => Backed (Works l isOpen R) x s' :=
  After.try_keep (parameter_same.mono fun _ _ h => h ▸ hs) fun _ _ h => assignList_works hc h

/-! ## Running -/

/-- What is open after an operation that is to answer with a cursor. -/
def Answers (R : Nat → Prop) : Except Fault Nat → Nat → Prop
  | .ok n => (· = n)
  | .error _ => R

/-- A cursor that is put in place is the only one that is open. -/
theorem putCursor_works {y : Cursor} (ho : s.isOpen = isOpen) (hn : s.cursors.entries = [])
    (hy : Backed (fun s => y.Uses l.backend l.connection s.handle y.exhausted) x (s, w)) :
    After (putCursor y).run (s, w) fun r s' => Backed (Works l isOpen (Answers R r)) x s' := by
  obtain ⟨own, hu, he⟩ := hy
  refine After.try_bind_iff.2 <| After.try_get_iff.2 <| After.try_bind_iff.2 <|
    After.try_set_iff.2 <| After.try_pure_iff.2 ⟨own, ?_, he⟩
  exact .busy ho rfl rfl (by simp [Table.add, hn]) hu

theorem query_works (hc : Connected l.connection x)
    (hs : Backed (Works l isOpen R) x (s, w)) :
    After (query l).run (s, w) fun r s' => Backed (Works l isOpen (Answers R r)) x s' := by
  unfold query
  refine After.try_seq (closeCurrent_works hc hs) (fun _ (s₁, w₁) h₁ => ?_) fun _ _ => Works.of_none
  obtain ⟨own, hw, he⟩ := h₁
  obtain ⟨ho, hn, hh⟩ := hw.rests
  have hb : Backed (Handle.Stands l.backend l.connection .resting) x (s₁.handle, w₁.engine) :=
    ⟨own, hh, he⟩
  refine After.try_bind_iff.2 <| onHandle_iff.2 <| (Handle.beginRows_backed hb).mono
    fun r (h₂, e₂) hr => ?_
  cases r with
  | error f =>
    obtain ⟨own₂, hh₂, he₂⟩ := hr
    exact ⟨own₂, .idle ho hn hh₂, he₂⟩
  | ok _ =>
    refine After.try_bind_iff.2 <| After.try_get_iff.2 <| After.try_bind_iff.2 <|
      After.op_onEngine_iff.2 <| (Handle.columnNames_same hr).mono fun names e₃ he₃ => ?_
    have h₃ : Backed (Handle.Stands l.backend l.connection (.reading false)) x (h₂, e₃) := he₃ ▸ hr
    dsimp only
    split
    · next columns _ =>
      obtain ⟨own₃, hh₃, he₃⟩ := h₃
      have hover : ({ columns } : Cursor).Over l.backend l.connection h₂ false own₃ :=
        ⟨own₃, hh₃, by simp⟩
      exact putCursor_works (s := { s₁ with handle := h₂ }) ho hn ⟨own₃, .rows rfl hover, he₃⟩
    · refine After.try_bind_iff.2 <| After.op_onEngine_iff.2 <| (Handle.endRows_backed h₃).mono
        fun h e₄ ⟨own₄, hh₄, he₄⟩ => ?_
      exact After.try_bind_iff.2 <| After.try_set_iff.2 <| After.throw_iff.2
        ⟨own₄, .idle ho hn hh₄, he₄⟩

theorem execute_works (hc : Connected l.connection x)
    (hs : Backed (Works l isOpen R) x (s, w)) :
    After (execute l).run (s, w) fun _ s' => Backed (Works l isOpen fun _ => False) x s' := by
  unfold execute
  refine After.try_seq (closeCurrent_works hc hs) (fun _ (s₁, w₁) h₁ => ?_) fun _ _ h => h
  obtain ⟨own, hw, he⟩ := h₁
  obtain ⟨ho, hn, hh⟩ := hw.rests
  have hb : Backed (Handle.Stands l.backend l.connection .resting) x (s₁.handle, w₁.engine) :=
    ⟨own, hh, he⟩
  exact After.try_bind_iff.2 <| After.try_get_iff.2 <| After.op_onTry_iff.2 <|
    (Handle.execute_backed hc hb).mono fun _ _ ⟨own₂, hh₂, he₂⟩ => ⟨own₂, .idle ho hn hh₂, he₂⟩

/-- What a cursor over generated keys holds while it is made: nothing yet, or its handle and what it
has fetched. -/
def Fetching (l : Link) (y : Cursor) (own : Multiset Asset) : Prop :=
  match y.own with
  | none => own = 0
  | some h => ∃ p o, h.Stands l.backend l.connection p o ∧
    own = Multiset.replicate (l.backend.copies y.rows) .cell + o

/-- A cursor over generated keys has a handle of its own; if making one fails, what it has come to
can be given up. -/
theorem fetchKeys_backed {y : Cursor} (keys : TypeMap) (hc : Connected l.connection x)
    (hown : y.own = none) (hrows : y.rows = []) (hex : y.exhausted = false)
    (he : w.engine.Carries x) :
    After (fetchKeys l keys).run (y, w) fun r s' => match r with
      | .ok _ => ∃ h, s'.1.own = some h ∧
        Backed (fun z => z.Over l.backend l.connection h z.exhausted) x s'
      | .error _ => Backed (Fetching l) x s' := by
  unfold fetchKeys
  refine After.try_bind_iff.2 <| After.op_onTry_iff.2 <| (Backend.prepare_backed hc he).mono
    fun r e₁ h₁ => ?_
  cases r with
  | error f => exact ⟨0, by simp [Fetching, hown], by rwa [zero_add]⟩
  | ok own =>
    have fetching {z : Cursor} {h : Handle} {p : Phase} {e : Engine} (hz : z.own = some h)
        (hr : z.rows = []) (hh : Backed (Handle.Stands l.backend l.connection p) x (h, e)) :
        Backed (Fetching l) x (z, { w with engine := e }) := by
      obtain ⟨o, hs, he⟩ := hh
      exact ⟨o, by simpa [Fetching, hz, hr] using ⟨p, hs⟩, he⟩
    refine After.try_bind_iff.2 <| After.try_modify_iff.2 <| After.try_bind_iff.2 <|
      After.op_onEngine_iff.2 <| (Handle.columnNames_same h₁).mono fun names e₂ he₂ => ?_
    have h₂ : Backed (Handle.Stands l.backend l.connection .resting) x (own, e₂) := he₂ ▸ h₁
    refine After.try_bind_iff.2 <| After.ofResult_iff.2 ?_
    cases Column.resolve l.options keys names with
    | error f => exact fetching rfl hrows h₂
    | ok columns =>
      refine After.try_bind_iff.2 <| After.try_modify_iff.2 <| After.try_bind_iff.2 <|
        After.op_onEngine_iff.2 <| After.run_iff.2 <| (Handle.beginRows_backed h₂).mono
          fun r (own₃, e₃) h₃ => ?_
      refine After.try_bind_iff.2 <| After.try_modify_iff.2 <| After.try_bind_iff.2 <|
        After.ofResult_iff.2 ?_
      cases r with
      | error f => exact fetching rfl hrows h₃
      | ok _ =>
        obtain ⟨o, hs, he⟩ := h₃
        have hover : Backed (fun z => Cursor.Over l.backend l.connection own₃ z.exhausted z) x
            ({ y with own := some own₃, columns }, { w with engine := e₃ }) :=
          ⟨o, ⟨o, hex ▸ hs, by simp [hrows]⟩, he⟩
        refine (Cursor.fetchTo_backed hc 0 hover).mono fun r s' ⟨ho, hr⟩ => ?_
        cases r with
        | ok _ => exact ⟨own₃, ho, hr⟩
        | error f =>
          obtain ⟨_, ⟨o', hs', rfl⟩, he'⟩ := hr
          refine ⟨_, ?_, he'⟩
          simp only [Fetching, ho]
          exact ⟨_, o', hs', rfl⟩

/-- A statement that is run for generated keys has a cursor over them, or nothing more than
before. -/
theorem insert_works (hc : Connected l.connection x) (hs : Backed (Works l isOpen R) x (s, w)) :
    After (insert l).run (s, w) fun r s' => Backed (Works l isOpen (Answers R r)) x s' := by
  unfold insert
  refine After.try_bind_iff.2 <| After.try_get_iff.2 ?_
  dsimp only
  split
  · exact After.try_bind_iff.2 (After.throw_iff.2 hs)
  refine After.try_seq (execute_works hc hs) (fun _ (s₁, w₁) h₁ => ?_) fun _ _ => Works.of_none
  obtain ⟨own, hw, he⟩ := h₁
  obtain ⟨ho, hn, hh⟩ := hw.rests
  have made := fetchKeys_backed (l := l) (y := { columns := .empty }) s.descriptor.declarations.keys
    (hc.add own) rfl rfl rfl he
  refine After.try_bind_iff.2 <| After.op_onAct_iff.2 <| After.runOn_iff.2 <|
    made.mono fun r (y, w₂) hy => ?_
  cases r with
  | ok _ =>
    obtain ⟨h, hown, own₂, hover, he₂⟩ := hy
    exact putCursor_works ho hn ⟨own + own₂, .keys hown hh hover, he₂.of_eq (by abel)⟩
  | error f =>
    obtain ⟨own₂, hf, he₂⟩ := hy
    have rests {w₃ : World} (he₃ : w₃.engine.Carries (own + x)) :
        Backed (Works l isOpen R) x (s₁, w₃) := ⟨own, .idle ho hn hh, he₃⟩
    cases hown : y.own with
    | none =>
      simp only [Fetching, hown] at hf
      subst hf
      simp only [hown]
      exact After.throw_iff.2 (rests (he₂.of_eq (zero_add _)))
    | some h =>
      simp only [Fetching, hown] at hf
      obtain ⟨p, o, hs₂, rfl⟩ := hf
      simp only [hown]
      refine After.try_bind_iff.2 <| After.op_onEngine_iff.2 <|
        (Backend.freeRows_carries (x := o + (own + x)) (he₂.of_eq (by abel))).mono fun _ e₃ h₃ => ?_
      have hb : Backed (Handle.Stands l.backend l.connection p) (own + x) (h, e₃) := ⟨o, hs₂, h₃⟩
      refine After.try_bind_iff.2 <| After.op_onEngine_iff.2 <|
        (Backend.finalize_carries (hc.add own) hb).mono fun r e₄ h₄ => ?_
      cases r with
      | ok _ => exact After.throw_iff.2 (rests h₄)
      | error g =>
        exact After.try_bind_iff.2 <| After.op_onAct_iff.2 <| After.writeLog_still.mono
          fun _ w₅ hw₅ => After.throw_iff.2 (rests (hw₅ ▸ h₄))

/-! ## Reading -/

theorem abandonCursor_iff {n : Nat} {Q : Statement × World → Prop} :
    After (abandonCursor n l).run (s, w) (fun _ => Q) ↔
      After (closeCursor n l).run (s, w) fun _ => Q := Iff.rfl

/-- A cursor is moved on, or closed. -/
theorem seek_works {n : Nat} {offset : Int64} (hc : Connected l.connection x)
    (hs : Backed (Works l isOpen R) x (s, w)) :
    After (seek n offset l).run (s, w) fun _ s' => Backed (Works l isOpen R) x s' := by
  have abandon {α : Type} {r : Except Fault α} {s₁ : Statement} {w₁ : World} {y : Cursor}
      (hn : s₁.cursors.entries = [(n, y)]) (ho : s₁.isOpen = isOpen)
      (hy : Backed (fun s => y.Uses l.backend l.connection s.handle true) x (s₁, w₁)) :
      After (do abandonCursor n l; Op.ofResult r : Op Statement α).run (s₁, w₁)
        fun _ s' => Backed (Works l isOpen R) x s' := by
    refine After.try_keep (abandonCursor_iff.2 ?_) fun _ _ h => After.ofResult_iff.2 h
    exact ho ▸ closeCursor_busy hc hn hy
  unfold seek
  refine After.try_bind_iff.2 <| After.try_get_iff.2 ?_
  obtain ⟨own, hw, he⟩ := hs
  cases hw with
  | idle ho hn hh =>
    simp only [Table.find?_of_nil hn]
    exact After.throw_iff.2 ⟨own, .idle ho hn hh, he⟩
  | @busy m y _ ho hcur hr hn hu =>
    by_cases hm : n = m
    · subst hm
      simp only [Table.find?_of_singleton hn, if_true]
      cases y.target? offset with
      | none => exact abandon (r := .ok false) hn ho ⟨own, hu.ended_true, he⟩
      | some target =>
        obtain ⟨rest, own', rfl, hov, huse⟩ := hu.over
        have hover : Backed (fun z => Cursor.Over l.backend l.connection (y.own.getD s.handle)
            z.exhausted z) (rest + x) (y, w) := ⟨own', hov, he.of_eq (by abel)⟩
        refine After.try_bind_iff.2 <| After.op_onAct_iff.2 <| After.runOn_iff.2 <|
          (Cursor.fetchTo_backed (hc.add rest) target hover).mono fun r (z, w₁) ⟨hz, hover₁⟩ => ?_
        have uses {ended : Bool} (h : Backed (Cursor.Over l.backend l.connection
            (y.own.getD s.handle) ended) (rest + x) (z, w₁)) :
            Backed (fun s => z.Uses l.backend l.connection s.handle ended) x (s, w₁) := by
          obtain ⟨own₁, hov₁, he₁⟩ := h
          exact ⟨rest + own₁, huse z ended own₁ hz hov₁, he₁.of_eq (by abel)⟩
        have hz := Table.modify_of_singleton hn fun _ => z
        refine After.try_bind_iff.2 (After.try_modify_iff.2 ?_)
        cases r with
        | error f =>
          exact abandon (r := .error f) hz ho (uses hover₁)
        | ok _ =>
          dsimp only
          split
          · refine After.try_bind_iff.2 <| After.try_modify_iff.2 <| After.try_pure_iff.2 ?_
            obtain ⟨own₁, hu₁, he₁⟩ := uses hover₁
            exact ⟨own₁, .busy ho hcur hr (Table.modify_of_singleton hz _) (hu₁.move target), he₁⟩
          · obtain ⟨own₁, hu₁, he₁⟩ := uses hover₁
            exact abandon (r := .ok false) hz ho ⟨own₁, hu₁.ended_true, he₁⟩
    · simp only [Table.find?_of_singleton hn, if_neg hm]
      exact After.throw_iff.2 ⟨own, .busy ho hcur hr hn hu, he⟩

theorem seek_holds {O : Prop} {n : Nat} {offset : Int64} (hc : O → Connected l.connection x)
    (hs : Backed (Holds l O R) x (s, w)) :
    After (seek n offset l).run (s, w) fun _ s' => Backed (Holds l O R) x s' := by
  obtain ⟨own, hh, he⟩ := hs
  cases hh with
  | working hO hw =>
    exact (seek_works (hc hO) ⟨own, hw, he⟩).backed fun _ _ _ => .working hO
  | closed ho hn =>
    refine After.try_bind_iff.2 <| After.try_get_iff.2 ?_
    simp only [Table.find?_of_nil hn]
    exact After.throw_iff.2 ⟨0, .closed ho hn, he⟩

end Statement

end SqlAccess
