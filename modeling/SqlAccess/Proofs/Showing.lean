import SqlAccess.Proofs.Fetching
import SqlAccess.Proofs.Task

/-!
# Cursors in their results

An open statement has at most one cursor, the one it produced last (`Statement.Current`). Going to a
row of it leads there if the result has that row (`Statement.seek_shows`). Whatever else is done to
the statement either does nothing or closes the cursor (`Statement.Current.task`), and a cursor that
is closed stays so (`Statement.Gone.task`).
-/

namespace SqlAccess

/-- A cursor stands in a result, of which it has all rows up to its own. -/
structure Cursor.Stands (h : Handle) (k : Nat) (result : List (List Cell)) (base : Nat) (p : Int)
    (x : Cursor) (e : Engine) : Prop where
  reads : x.Reads h k result base e
  columns : ∀ name c, x.columns.find? name = some c → ∀ row ∈ result, c.index < row.length
  position : x.position = p
  low : -1 ≤ p
  high : p < x.rows.length

namespace Statement

/-- A statement is open, and so may be one of its cursors, which it produced last. -/
structure Current (m : Nat) (z : Statement) : Prop where
  isOpen : z.isOpen
  current : z.current = some m
  sole : ∀ n c, z.cursors.find? n = some c → n = m
  made : m < z.cursors.next

/-- A cursor of a statement is closed, for good. -/
structure Gone (m : Nat) (z : Statement) : Prop where
  closed : z.cursors.find? m = none
  made : m < z.cursors.next

/-- The current cursor of a statement stands in a result, and no more attempts to fetch a row failed
than before. -/
structure Shows (m k : Nat) (result : List (List Cell)) (base failed : Nat) (p : Int)
    (a : Statement × World) : Prop where
  current : a.1.Current m
  cursor : ∃ x, a.1.cursors.find? m = some x ∧
    x.Stands (x.own.getD a.1.handle) k result base p a.2.engine
  failed : fetchesFailed k a.2.engine.history = failed

variable {l : Link} {m k : Nat} {z : Statement} {w : World} {t : Task}

/-! ## Closed for good -/

theorem Gone.of_within {K : Nat → Prop} (h : z.Within K (· ≠ m)) : z.Gone m := by
  exact ⟨Option.eq_none_iff_forall_ne_some.2 fun c hc => h.cursor m c hc rfl,
    Nat.lt_of_not_le fun hn => h.coming m hn rfl⟩

/-- A cursor that is closed stays so. -/
theorem Gone.task (h : z.Gone m) : (t.after l (z, w)).1.Gone m := by
  refine .of_within (Task.keeps (t := t) (l := l) (a := (z, w)) (G := (· ≠ m)) ?_ ?_).2
  · rintro _ c hc rfl
    rw [h.closed] at hc
    cases hc
  · rintro _ hn rfl
    exact absurd h.made (Nat.not_lt.2 hn)

theorem closeCursor_gone (hm : m < z.cursors.next) :
    After (closeCursor m l).run (z, w) fun _ a => a.1.Gone m ∧ a.1.current = z.current ∧
      a.1.descriptor = z.descriptor := by
  refine closeCursor_cases (fun hx => ⟨⟨hx, hm⟩, rfl, rfl⟩) fun x _ => ?_
  have gone : (z.cursors.erase m).find? m = none := by simp [Table.find?_erase]
  exact After.of_forall fun _ _ => ⟨fun _ _ => After.of_forall fun _ _ => ⟨⟨gone, hm⟩, rfl, rfl⟩,
    fun _ => After.of_forall fun _ _ => ⟨⟨gone, hm⟩, rfl, rfl⟩⟩

theorem closeCurrent_gone (hc : z.current = some m) (hm : m < z.cursors.next) :
    After (closeCurrent l).run (z, w) fun _ a => a.1.Gone m ∧ a.1.current = none ∧
      a.1.descriptor = z.descriptor := by
  refine closeCurrent_cases (fun hnone => nomatch hc.symm.trans hnone) fun n hn => ?_
  obtain rfl : m = n := Option.some.inj (hc.symm.trans hn)
  exact closeCursor_gone (z := { z with current := none }) hm

/-- Nothing is closed if there is no current cursor. -/
theorem closeCurrent_iff {Q : Except Fault Unit → Statement × World → Prop} {a : Statement × World}
    (h : a.1.current = none) : After (closeCurrent l).run a Q ↔ Q (.ok ()) a := by
  unfold closeCurrent
  rw [After.try_bind_iff, After.try_get_iff]
  simp only [h]
  exact After.try_pure_iff

/-- What closes the current cursor first goes on as if it were done to a statement without one. -/
theorem Current.closing {α : Type} {f : Unit → Op Statement α}
    {Q : Except Fault α → Statement × World → Prop} (h : z.Current m)
    (herror : ∀ f (a : Statement × World), a.1.Gone m → Q (.error f) a)
    (hkept : ∀ a : Statement × World, a.1.Gone m → a.1.descriptor = z.descriptor →
      After (closeCurrent l >>= f).run a Q) :
    After (closeCurrent l >>= f).run (z, w) Q := by
  refine After.try_bind_iff.2 <|
    (closeCurrent_gone h.current h.made).mono fun r a ⟨hg, hn, hd⟩ => ?_
  cases r with
  | error f => exact herror f a hg
  | ok _ => exact (closeCurrent_iff hn).1 (After.try_bind_iff.1 (hkept a hg hd))

/-- What is done to a statement with a cursor, other than going to a row, does nothing or closes the
cursor. -/
theorem Current.task (h : z.Current m) (ht : ∀ offset, t ≠ .seek m offset) :
    t.after l (z, w) = (z, w) ∨ (t.after l (z, w)).1.Gone m := by
  have other {n : Nat} (hn : n ≠ m) : z.cursors.find? n = none :=
    Option.eq_none_iff_forall_ne_some.2 fun c hc => hn (h.sole n c hc)
  cases t with
  | closeCursor n =>
    by_cases hn : n = m
    · subst hn
      exact .inr (closeCursor_gone (l := l) (w := w) h.made).1
    · left
      have same : After (closeCursor n l).run (z, w) fun _ a => a = (z, w) :=
        closeCursor_missing (other hn) rfl
      exact same
  | close =>
    right
    have closed : After (close l) (z, w) fun _ a => a.1.Gone m :=
      close_cases (fun ho => nomatch ho.symm.trans h.isOpen) fun _ =>
        (closeCurrent_gone (z := { z with isOpen := false }) h.current h.made).mono
          fun _ a ⟨hg, _⟩ => After.of_forall fun _ _ => After.of_forall fun _ _ => hg
    exact closed
  | write assignments =>
    cases assignments with
    | nil => exact .inl rfl
    | cons a rest =>
      right
      obtain ⟨destination, v⟩ := a
      have closed : After (write l ((destination, v) :: rest)).run (z, w) fun _ a =>
          a.1.Gone m := by
        refine After.try_bind_iff.2 <| h.closing (fun _ _ hg => hg) fun a hg _ => ?_
        have kept : After (write l ((destination, v) :: rest)).run a fun _ a' => a'.1.Gone m :=
          hg.task (t := .write _)
        exact After.try_bind_iff.1 kept
      exact closed
  | query =>
    right
    have closed : After (query l).run (z, w) fun _ a => a.1.Gone m :=
      h.closing (fun _ _ hg => hg) fun _ hg _ => hg.task (t := .query)
    exact closed
  | execute =>
    right
    have closed : After (execute l).run (z, w) fun _ a => a.1.Gone m :=
      h.closing (fun _ _ hg => hg) fun _ hg _ => hg.task (t := .execute)
    exact closed
  | insert =>
    by_cases hk : z.descriptor.declarations.keys.entries.isEmpty
    · left
      have refused : After (insert l).run (z, w) fun _ a => a = (z, w) := by
        refine After.try_bind_iff.2 (After.try_get_iff.2 ?_)
        simp only [hk, if_true]
        exact After.try_bind_iff.2 (After.throw_iff.2 rfl)
      exact refused
    · right
      have closed : After (insert l).run (z, w) fun _ a => a.1.Gone m := by
        refine After.try_bind_iff.2 (After.try_get_iff.2 ?_)
        simp only [hk, Bool.false_eq_true, if_false]
        refine After.try_bind_iff.2 <| h.closing (fun _ _ hg => hg) fun a hg hd => ?_
        have kept : After (insert l).run a fun _ a' => a'.1.Gone m := hg.task (t := .insert)
        have kept := After.try_get_iff.1 (After.try_bind_iff.1 kept)
        simp only [hd, hk, Bool.false_eq_true, if_false] at kept
        exact After.try_bind_iff.1 kept
      exact closed
  | seek n offset =>
    left
    have hn : n ≠ m := fun hn => ht offset (hn ▸ rfl)
    have same : After (seek n offset l).run (z, w) fun _ a => a = (z, w) := by
      refine After.try_bind_iff.2 (After.try_get_iff.2 ?_)
      simp only [other hn]
      exact After.throw_iff.2 rfl
    exact same

/-! ## Going to a row -/

/-- A cursor is given up. Nothing is fetched for that. -/
theorem abandonCursor_gone {α : Type} {r : Except Fault α} (k : Nat) (hm : m < z.cursors.next) :
    After (do abandonCursor m l; Op.ofResult r : Op Statement α).run (z, w) fun r' a =>
      r' = r ∧ a.1.Gone m ∧ w.engine.Unfetched k a.2.engine := by
  have released := closeCursor_tends (l := l) (I := w.engine.Unfetched k)
    (fun _ _ => Engine.Unfetched.admitsStart.release) m (.all (s := z) (w := w) .refl)
  unfold abandonCursor
  exact After.try_bind_iff.2 <| After.try_bind_iff.2 <| After.try_lift_iff.2 <|
    After.attempt_iff.2 <|
    ((closeCursor_gone hm).and released).mono fun _ _ ⟨⟨hg, _⟩, he⟩ => After.try_pure_iff.2 <|
      After.ofResult_iff.2 ⟨rfl, hg, he.engine⟩

theorem updateCursor_current {x y : Cursor} {a : Statement × World} (h : a.1.Current m)
    (hx : a.1.cursors.find? m = some x) : After (updateCursor m y).run a fun r a' =>
      r = .ok () ∧ a'.1.Current m ∧ a'.1.cursors.find? m = some y ∧ a'.1.handle = a.1.handle ∧
        a'.2 = a.2 := by
  refine After.try_modify_iff.2 ⟨rfl, ⟨h.isOpen, h.current, fun n c hn => ?_, h.made⟩,
    by simp [Table.find?_modify, hx], rfl, rfl⟩
  obtain ⟨rfl, -⟩ | ⟨-, hn⟩ := Table.find?_modify_eq_some.1 hn
  · rfl
  · exact h.sole n c hn

variable {result : List (List Cell)} {base failed : Nat} {p : Int}

theorem Shows.spared (h : Shows m k result base failed p (z, w)) {w' : World}
    (he : w.engine.Spares k w'.engine) : Shows m k result base failed p (z, w') := by
  obtain ⟨hcurrent, ⟨x, hx, hs⟩, hfailed⟩ := h
  have hu : w.engine.Unfetched k w'.engine := .of_spares he
  exact ⟨hcurrent, ⟨x, hx, hs.reads.altered he.entry hu.rows, hs.columns, hs.position, hs.low,
    hs.high⟩,
    hu.failed.trans hfailed⟩

/-- A cursor goes to a row if the result has that row, and is closed for good otherwise, unless an
attempt to fetch a row fails. -/
theorem seek_shows {offset : Int64} (h : Shows m k result base failed p (z, w)) :
    After (seek m offset l).run (z, w) fun r a =>
      failed < fetchesFailed k a.2.engine.history ∨
      (r = .ok true ∧ (0 ≤ p + offset.toInt ∧ p + offset.toInt < result.length ∧
        p + offset.toInt ≤ Int64.maxValue.toInt) ∧
          Shows m k result base failed (p + offset.toInt) a) ∨
      (r = .ok false ∧ ¬ (0 ≤ p + offset.toInt ∧ p + offset.toInt < result.length ∧
        p + offset.toInt ≤ Int64.maxValue.toInt) ∧ a.1.Gone m ∧
        rowsFetched k a.2.engine.history ≤ base + result.length) := by
  obtain ⟨hcurrent, ⟨x, hx, hstands⟩, hfailed⟩ := h
  have hprefix := hstands.reads.rows_prefix.length_le
  unfold seek
  refine After.try_bind_iff.2 <| After.try_get_iff.2 ?_
  simp only [hx]
  cases htarget : x.target? offset with
  | none =>
    refine (abandonCursor_gone (r := .ok false) k hcurrent.made).mono
      fun r a ⟨hr, hg, he⟩ => .inr (.inr ⟨hr, ?_, hg, ?_⟩)
    · simp only [Cursor.target?, hstands.position] at htarget
      split at htarget
      · cases htarget
      · next hn => exact fun ⟨hlow, _, hhigh⟩ => hn (by simp [hlow, hhigh])
    · rw [he.rows, hstands.reads.fetched]
      omega
  | some target =>
    obtain ⟨rfl, hlow, hhigh⟩ : target = p + offset.toInt ∧ 0 ≤ target ∧
        target ≤ Int64.maxValue.toInt := by
      simp only [Cursor.target?, hstands.position] at htarget
      split at htarget
      · next hn =>
        obtain rfl := Option.some.inj htarget
        simpa using hn
      · cases htarget
    refine After.try_bind_iff.2 <| After.op_onAct_iff.2 <| After.runOn_iff.2 <|
      (Cursor.fetchTo_reads (w := w) _ hstands.reads).mono fun r (y, w₁) hfetched => ?_
    refine After.try_bind_iff.2 ((updateCursor_current (a := (z, w₁)) hcurrent hx).mono ?_)
    rintro _ ⟨z₂, w₂⟩ ⟨rfl, hcurrent₂, hy, hhandle, rfl⟩
    dsimp only at hcurrent₂ hy hhandle
    obtain hlost | ⟨rfl, hreads, hsame, hlength, hown, hcolumns, hposition⟩ := hfetched
    · -- whatever comes after a failed attempt, it was made
      have abandoned {α : Type} {r : Except Fault α} :
          After (do abandonCursor m l; Op.ofResult r : Op Statement α).run (z₂, w₂) fun _ a =>
            failed < fetchesFailed k a.2.engine.history :=
        (abandonCursor_gone k hcurrent₂.made).mono fun _ _ ⟨_, _, he⟩ => by
          rw [he.failed]
          exact hfailed ▸ hlost
      refine After.mono ?_ fun _ _ h => .inl h
      cases r with
      | error f => exact abandoned (r := .error f)
      | ok _ =>
        dsimp only
        split
        · exact After.try_bind_iff.2 <|
            (updateCursor_current (a := (z₂, w₂)) hcurrent₂ hy).mono <| by
            rintro _ a ⟨rfl, -, -, -, hw⟩
            exact After.try_pure_iff.2 (hw ▸ hfailed ▸ hlost)
        · exact abandoned (r := .ok false)
    · dsimp only at hreads hsame hlength hown hcolumns hposition ⊢
      have hat : p + offset.toInt < y.rows.length ↔ p + offset.toInt < result.length := by
        have := hstands.high
        omega
      split
      · next hrow =>
        refine After.try_bind_iff.2 <| (updateCursor_current (a := (z₂, w₂)) hcurrent₂ hy).mono ?_
        rintro _ ⟨z₃, w₃⟩ ⟨rfl, hcurrent₃, hfound, hhandle₃, rfl⟩
        refine After.try_pure_iff.2 (.inr
          (.inl ⟨rfl, ⟨hlow, hat.1 hrow, hhigh⟩, hcurrent₃, ?_, ?_⟩))
        · refine ⟨_, hfound, ?_⟩
          dsimp only at hhandle₃ ⊢
          rw [hown, hhandle₃, hhandle]
          exact ⟨⟨hreads.number, hreads.holdsRows, hreads.coming, hreads.fetched⟩,
            hcolumns ▸ hstands.columns, rfl, by omega, hrow⟩
        · exact hsame.trans hfailed
      · next hrow =>
        refine (abandonCursor_gone (r := .ok false) k hcurrent₂.made).mono
          fun r a ⟨hr, hg, he⟩ => .inr (.inr ⟨hr, fun h => hrow (hat.2 h.2.1), hg, ?_⟩)
        have := hreads.rows_prefix.length_le
        rw [he.rows, hreads.fetched]
        omega

end Statement

end SqlAccess
