import SqlAccess.Proofs.Database.Chain
import SqlAccess.Proofs.Database.Listed
import SqlAccess.Proofs.Database.Operations
import SqlAccess.Proofs.Release

/-!
# What a database gives up

A statement gives up its cursors and itself (`Database.releases`), a transaction that is rolled back
its statements and its work (`Database.undoReleases`), and a database that is closed all of its
statements, its open transactions from the inside out, and its connection (`Database.closing`). Each
of these is attempted once, whatever fails before it, and what fails is reported (`Settles`). What
belongs to others stays as it is (`Spares`).
-/

namespace SqlAccess.Database

/-- What a statement gives up if it is open. -/
def releases (d : Database) (k : Nat) : List Release :=
  (d.openStatement? k).elim [] Statement.releases

/-- The open statements that satisfy a condition, in the order in which they were prepared. -/
def openWhere (d : Database) (p : Statement → Bool) : List Nat :=
  d.statements.numbers.filter fun k => (d.openStatement? k).any p

/-- What the open statements of a transaction give up. -/
def ownReleases (d : Database) (t : Nat) : List Release :=
  (d.openWhere (·.owner = some t)).flatMap d.releases

/-- The end of a transaction's work. -/
def ending (d : Database) (f : Origin → Release) (t : Nat) : List Release :=
  ((d.transactions.find? t).map fun x => f x.origin).toList

/-- What a transaction gives up that is rolled back. -/
def undoReleases (d : Database) (t : Nat) : List Release := d.ownReleases t ++ d.ending .undone t

/-- The open transactions from one on, the latest first: that one and those within it. -/
def openFrom (d : Database) (t : Nat) : List Nat :=
  (d.transactions.numbers.filter fun u => decide (t ≤ u) && d.isActive u).reverse

/-- What a database gives up that is closed. -/
def closing (d : Database) : List Release :=
  (d.openWhere fun _ => true).flatMap d.releases ++ (d.openFrom 0).flatMap (d.ending .undone) ++
    [.connection]

variable {A : Database → Prop} {d d' d'' : Database} {w w₀ : World} {s : Database × World}
  {k t u : Nat} {p : Statement → Bool}

/-! ## Plans -/

theorem mem_openWhere : k ∈ d.openWhere p ↔
    ∃ z, d.statements.find? k = some z ∧ z.isOpen ∧ p z := by
  rw [openWhere, List.mem_filter, Option.any_eq_true]
  constructor
  · rintro ⟨-, z, hz, hp⟩
    exact ⟨z, (openStatement?_eq_some hz).1, (openStatement?_eq_some hz).2, hp⟩
  · rintro ⟨z, hz, ho, hp⟩
    exact ⟨Table.mem_numbers hz, z, by simp [openStatement?, hz, ho], hp⟩

theorem openWhere_sorted : (d.openWhere p).Pairwise (· < ·) := d.statements.numbers_sorted.filter _

theorem mem_openFrom : u ∈ d.openFrom t ↔ t ≤ u ∧ d.isActive u := by
  rw [openFrom, List.mem_reverse, List.mem_filter, Bool.and_eq_true, decide_eq_true_eq]
  refine and_iff_right_of_imp fun h => ?_
  obtain ⟨x, hx, -⟩ := isActive_iff.1 h.2
  exact Table.mem_numbers hx

theorem openFrom_sorted : (d.openFrom t).Pairwise (· > ·) :=
  List.pairwise_reverse.2 (d.transactions.numbers_sorted.filter _)

theorem releases_eq_nil (hk : d.openStatement? k = none) : d.releases k = [] := by
  simp [releases, hk]

/-- Statements that are closed already give up nothing. -/
theorem flatMap_releases {l : List Nat} (hl : l.Pairwise (· < ·))
    (hmem : ∀ k z, d.statements.find? k = some z → z.isOpen → (k ∈ l ↔ p z)) :
    l.flatMap d.releases = (d.openWhere p).flatMap d.releases := by
  have hfilter : l.filter (fun k => (d.openStatement? k).isSome) = d.openWhere p := by
    refine (hl.filter _).eq_of_mem_iff openWhere_sorted fun k => ?_
    rw [List.mem_filter, mem_openWhere, Option.isSome_iff_exists]
    constructor
    · rintro ⟨hk, z, hz⟩
      obtain ⟨hz, ho⟩ := openStatement?_eq_some hz
      exact ⟨z, hz, ho, (hmem k z hz ho).1 hk⟩
    · rintro ⟨z, hz, ho, hp⟩
      exact ⟨(hmem k z hz ho).2 hp, z, by simp [openStatement?, hz, ho]⟩
  rw [← hfilter]
  clear hfilter hmem hl
  induction l with
  | nil => rfl
  | cons k l ih =>
    cases hk : d.openStatement? k with
    | none => simp [releases_eq_nil hk, hk, ih]
    | some z => simp [hk, ih]

/-! ## Closing statements -/

/-- Only some statements are different, which belong where they belonged. -/
structure Touches (l : List Nat) (d d' : Database) : Prop where
  others : ∀ k, k ∉ l → d'.statements.find? k = d.statements.find? k
  owner : ∀ k, (d'.statements.find? k).map (·.owner) = (d.statements.find? k).map (·.owner)

theorem Touches.refl : Touches [] d d := ⟨fun _ _ => rfl, fun _ => rfl⟩

theorem closeStatement_settles (hs : d.Sound w.engine.history) (k : Nat) :
    After (closeStatement k) (d, w) fun r s' =>
      Settles d.link (d.releases k) 0 w r s'.2 ∧ Touches [k] d s'.1 := by
  refine closeStatement_cases (fun hnone => ?_) fun z hz => ?_
  · rw [releases_eq_nil (by simp [openStatement?, show d.statements.find? k = none from hnone])]
    exact ⟨.nil, fun _ _ => rfl, fun _ => rfl⟩
  · have hz : d.statements.find? k = some z := hz
    have htidy := (hs.sane k z hz).tidy
    have closed : After (Statement.close d.link) (z, w) fun r a =>
        Settles d.link (d.releases k) 0 w r a.2 := by
      cases ho : z.isOpen with
      | true =>
        have hreleases : d.releases k = z.releases := by
          simp [releases, openStatement?, hz, ho, Option.filter]
        exact hreleases ▸ Statement.close_settles ho htidy
      | false =>
        rw [releases_eq_nil (by simp [openStatement?, hz, ho])]
        exact Statement.close_cases (fun _ => .nil) fun hopen =>
          absurd (ho.symm.trans hopen) Bool.false_ne_true
    refine (closed.and (Statement.close_after htidy)).mono ?_
    rintro r ⟨z', w'⟩ ⟨h, hst, -⟩
    refine ⟨h, fun j hj => ?_, fun j => ?_⟩
    · exact (Table.find?_modify _ _ _ _).trans (if_neg (List.ne_of_not_mem_cons hj))
    · rw [Table.find?_modify]
      split
      · next hj =>
        rw [hj, hz]
        exact congrArg some hst.owner
      · rfl

theorem closeEach_settles {l : List Nat} {rs : List Release} {notices : Multiset LogLine}
    {first : Except Fault Unit} (hs : d.Sound w.engine.history) (hl : l.Nodup)
    (h : Settles d.link rs notices w₀ first w) :
    After (closeEach first l) (d, w) fun r s' =>
      Settles d.link (rs ++ l.flatMap d.releases) notices w₀ r s'.2 ∧ Touches l d s'.1 := by
  induction l generalizing d w rs first with
  | nil => exact After.pure_iff.2 ⟨by simpa using h, .refl⟩
  | cons k l ih =>
    obtain ⟨hk, hl⟩ := List.nodup_cons.1 hl
    refine After.seq ((closeStatement_after (A := fun _ => True) hs k).and
      (closeStatement_settles hs k)) ?_
    rintro next s₁ ⟨⟨h₁, -⟩, hnext, htouch⟩
    have hlink : s₁.1.link = d.link := h₁.leads.path.link
    have hkept : After (keepFirst s₁.1.sink "Statement close failed" first next) s₁.2 fun r w' =>
        w'.engine = s₁.2.engine ∧ Settles s₁.1.link (rs ++ d.releases k) notices w₀ r w' := by
      have := After.keepFirst_still.and (h.keepFirst "Statement close failed" hnext)
      rwa [add_zero, ← hlink] at this
    refine After.bind_iff.2 <| After.get_iff.2 <| After.bind_iff.2 <| After.lift_iff.2 <|
      hkept.mono ?_
    rintro first w₂ ⟨he, hfirst⟩
    have hs₂ : s₁.1.Sound w₂.engine.history := he ▸ h₁.leads.sound hs
    have same : l.flatMap s₁.1.releases = l.flatMap d.releases := by
      refine List.flatMap_congr fun j hj => ?_
      have hne : j ∉ [k] := fun h => hk (List.mem_singleton.1 h ▸ hj)
      simp only [releases, openStatement?, htouch.others j hne]
    refine (ih hs₂ hl hfirst).mono ?_
    rintro r s₃ ⟨hsettles, hrest⟩
    refine ⟨?_, fun j hj => ?_, fun j => ?_⟩
    · rw [← hlink, List.flatMap_cons, ← List.append_assoc, ← same]
      exact hsettles
    · obtain ⟨hjk, hjl⟩ := not_or.1 (mt List.mem_cons.2 hj)
      exact (hrest.others j hjl).trans (htouch.others j (mt List.mem_singleton.1 hjk))
    · exact (hrest.owner j).trans (htouch.owner j)

theorem closeOwned_settles (hs : d.Sound w.engine.history) (hl : d.Listed) (t : Nat) :
    After (closeOwned t) (d, w) fun r s' => Settles d.link (d.ownReleases t) 0 w r s'.2 ∧
      ∃ l, Touches l d s'.1 ∧ ∀ k ∈ l, ∃ z, d.statements.find? k = some z ∧ z.owner = some t := by
  generalize hlist : (d.transactions.find? t).elim [] (·.statements) = l
  have hlisted : l.Pairwise (· < ·) ∧
      ∀ k ∈ l, ∃ z, d.statements.find? k = some z ∧ z.owner = some t := by
    subst hlist
    cases hx : d.transactions.find? t with
    | none => exact ⟨.nil, nofun⟩
    | some x => exact hl.owned t x hx
  obtain ⟨hsorted, howner⟩ := hlisted
  have hplan : l.flatMap d.releases = d.ownReleases t := by
    refine flatMap_releases hsorted fun k z hz ho => ?_
    rw [decide_eq_true_eq]
    constructor
    · intro hk
      obtain ⟨y, hy, ht⟩ := howner k hk
      obtain rfl : z = y := Option.some.inj (hz.symm.trans hy)
      exact ht
    · intro ht
      obtain ⟨x, hx, -, hk⟩ := hs.owned.owner k z t hz ho ht
      rw [← hlist, hx]
      exact hk
  unfold closeOwned
  refine After.bind_iff.2 (After.get_iff.2 ?_)
  dsimp only
  rw [hlist]
  refine After.seq (closeEach_settles hs (hsorted.imp Nat.ne_of_lt) .nil) fun r s₁ ⟨h, htouch⟩ => ?_
  rw [List.nil_append, hplan] at h
  exact After.bind_iff.2 <| After.modify_iff.2 <| After.pure_iff.2
    ⟨h, l, ⟨htouch.others, htouch.owner⟩, howner⟩

/-! ## What is spared -/

/-- What belongs to earlier transactions than one, or to none, is as it was, and the earlier
transactions are open if they were. -/
structure Spares (t : Nat) (d d' : Database) : Prop where
  owner : ∀ k, (d'.statements.find? k).map (·.owner) = (d.statements.find? k).map (·.owner)
  statement : ∀ k z, d.statements.find? k = some z → (∀ u, z.owner = some u → u < t) →
    d'.statements.find? k = some z
  transaction : ∀ u x, u < t → d.transactions.find? u = some x →
    ∃ x', d'.transactions.find? u = some x' ∧ x'.origin = x.origin ∧ x'.ended = x.ended

namespace Spares

theorem trans (h : Spares t d d') (h' : Spares t d' d'') : Spares t d d'' := by
  refine ⟨fun k => (h'.owner k).trans (h.owner k),
    fun k z hz ho => h'.statement k z (h.statement k z hz ho) ho, fun u x hu hx => ?_⟩
  obtain ⟨y, hy, ho, he⟩ := h.transaction u x hu hx
  obtain ⟨z, hz, ho', he'⟩ := h'.transaction u y hu hy
  exact ⟨z, hz, ho'.trans ho, he'.trans he⟩

theorem mono (h : Spares u d d') (hle : t ≤ u) : Spares t d d' :=
  ⟨h.owner, fun k z hz ho => h.statement k z hz fun v hv => (ho v hv).trans_le hle,
    fun v x hv => h.transaction v x (hv.trans_le hle)⟩

theorem of_touches {l : List Nat} (h : Touches l d d')
    (hl : ∀ k ∈ l, ∃ z, d.statements.find? k = some z ∧ z.owner = some t)
    (ht : ∀ u x, u < t → d.transactions.find? u = some x →
      ∃ x', d'.transactions.find? u = some x' ∧ x'.origin = x.origin ∧ x'.ended = x.ended) :
    Spares t d d' := by
  refine ⟨h.owner, fun k z hz ho => (h.others k fun hk => ?_).trans hz, ht⟩
  obtain ⟨y, hy, hyt⟩ := hl k hk
  obtain rfl : z = y := Option.some.inj (hz.symm.trans hy)
  exact Nat.lt_irrefl t (ho t hyt)

/-- What is spared gives up the same things. -/
theorem ownReleases (h : Spares t d d') (hu : u < t) : d'.ownReleases u = d.ownReleases u := by
  have same (k : Nat) (z : Statement) (ho : z.owner = some u) :
      d'.statements.find? k = some z ↔ d.statements.find? k = some z := by
    have keep {y : Statement} (hy : d.statements.find? k = some y) (ho : y.owner = some u) :
        d'.statements.find? k = some y :=
      h.statement k y hy fun v hv => Option.some.inj (ho.symm.trans hv) ▸ hu
    refine ⟨fun hz => ?_, fun hz => keep hz ho⟩
    have howner := h.owner k
    rw [hz] at howner
    obtain ⟨y, hy, hyo⟩ := Option.map_eq_some_iff.1 howner.symm
    exact hy.trans ((keep hy (hyo.trans ho)).symm.trans hz)
  have hwhere : d'.openWhere (·.owner = some u) = d.openWhere (·.owner = some u) := by
    refine openWhere_sorted.eq_of_mem_iff openWhere_sorted fun k => ?_
    simp only [mem_openWhere, decide_eq_true_eq]
    refine exists_congr fun z => ⟨fun ⟨hz, ho, hu⟩ => ?_, fun ⟨hz, ho, hu⟩ => ?_⟩
    · exact ⟨(same k z hu).1 hz, ho, hu⟩
    · exact ⟨(same k z hu).2 hz, ho, hu⟩
  unfold Database.ownReleases
  rw [hwhere]
  refine List.flatMap_congr fun k hk => ?_
  obtain ⟨z, hz, ho, hu⟩ := mem_openWhere.1 hk
  rw [decide_eq_true_eq] at hu
  simp [releases, openStatement?, hz, (same k z hu).2 hz]

theorem undoReleases (h : Spares t d d') (hu : u < t) {x : Transaction}
    (hx : d.transactions.find? u = some x) : d'.undoReleases u = d.undoReleases u := by
  obtain ⟨x', hx', ho, -⟩ := h.transaction u x hu hx
  simp [Database.undoReleases, h.ownReleases hu, ending, hx, hx', ho]

end Spares

/-! ## Rolling back -/

/-- No transaction was begun before the root around it. -/
theorem Linked.root_le {r : Nat} (hl : d.Linked) (hr : d.root = some r) (hu : d.isActive u) :
    r ≤ u := by
  obtain ⟨x, hx, hxo⟩ := isActive_iff.1 hu
  obtain ⟨r', y, hle, hy, hor⟩ := hl.exists_root hx
  obtain ⟨y', hy', hyo⟩ := hl.encloses_find hle hx
  obtain rfl : y = y' := Option.some.inj (hy.symm.trans hy')
  have hroot := (hl.root r' y hy hor).2 (hyo hxo)
  exact Option.some.inj (hr.symm.trans hroot) ▸ hl.encloses_le hle

/-- While a transaction is open, an earlier one that is open has an open child, which came no
later. -/
theorem Linked.child_le (hl : d.Linked) (hu : d.isActive u) (ht : d.isActive t) (hlt : t < u) :
    ∃ c, d.openChild? t = some c ∧ c ≤ u := by
  induction u using Nat.strongRecOn generalizing t with
  | ind u ih =>
    obtain ⟨x, hx, hxo⟩ := isActive_iff.1 hu
    cases ho : x.origin with
    | root =>
      exact absurd hlt (Nat.not_lt.2 (hl.root_le ((hl.root u x hx ho).2 hxo) ht))
    | nested p n =>
      obtain ⟨hp, -, y, hy, -, hopen⟩ := hl.nested u x p n hx ho
      obtain ⟨hyo, hchild⟩ := hopen hxo
      have hpu : d.openChild? p = some u := by
        simp [openChild?, hy, hchild, hl.child_active hy hchild, Option.filter]
      have hactive : d.isActive p := isActive_iff.2 ⟨y, hy, hyo⟩
      obtain hlt' | rfl | hgt := Nat.lt_trichotomy t p
      · obtain ⟨c, hc, hle⟩ := ih p hp hactive ht hlt'
        exact ⟨c, hc, hle.trans hp.le⟩
      · exact ⟨u, hpu, Nat.le_refl u⟩
      · -- another one within the parent would be the child
        obtain ⟨c, hc, hle⟩ := ih t hlt ht hactive hgt
        have := Option.some.inj (hc.symm.trans hpu)
        omega

/-- A transaction is open outside of those within its open child. -/
theorem openFrom_child (hl : d.Linked) {c : Nat} (hc : d.openChild? t = some c) :
    d.openFrom t = d.openFrom c ++ [t] := by
  have htc := hl.lt_openChild? hc
  obtain ⟨x, y, n, hx, hchild, hy, hyo, ho⟩ := hl.of_openChild? hc
  obtain ⟨-, -, x', hx', -, hopen⟩ := hl.nested c y t n hy ho
  have ht : d.isActive t := isActive_iff.2 ⟨x', hx', (hopen hyo).1⟩
  refine openFrom_sorted.eq_of_mem_iff (List.pairwise_append.2 ⟨openFrom_sorted,
    List.pairwise_singleton _ _, fun u hu v hv => ?_⟩) fun u => ?_
  · rw [List.mem_singleton.1 hv]
    exact htc.trans_le (mem_openFrom.1 hu).1
  · simp only [List.mem_append, List.mem_singleton, mem_openFrom]
    constructor
    · rintro ⟨hle, hu⟩
      obtain hlt | rfl := Nat.lt_or_eq_of_le hle
      · obtain ⟨c', hc', hle'⟩ := hl.child_le hu ht hlt
        obtain rfl : c = c' := Option.some.inj (hc.symm.trans hc')
        exact .inl ⟨hle', hu⟩
      · exact .inr rfl
    · rintro (⟨hle, hu⟩ | rfl)
      · exact ⟨htc.le.trans hle, hu⟩
      · exact ⟨Nat.le_refl _, ht⟩

theorem openFrom_ready (hl : d.Linked) {x : Transaction} (hx : d.Ready t x) :
    d.openFrom t = [t] := by
  have ht : d.isActive t := isActive_iff.2 ⟨x, hx.1, hx.2.1⟩
  refine openFrom_sorted.eq_of_mem_iff (List.pairwise_singleton _ _) fun u => ?_
  rw [mem_openFrom, List.mem_singleton]
  constructor
  · rintro ⟨hle, hu⟩
    obtain hlt | rfl := Nat.lt_or_eq_of_le hle
    · obtain ⟨c, hc, -⟩ := hl.child_le hu ht hlt
      rw [hx.2.2] at hc
      cases hc
    · rfl
  · rintro rfl
    exact ⟨Nat.le_refl _, ht⟩

/-- A line of another level is no warning. -/
theorem writeLog_silent {text : Bytes} (level : LogLevel) (hlevel : level ≠ .warn) :
    After (writeLog level text) s fun _ s' => s'.2.engine = s.2.engine ∧
      ∃ lines, s'.2.log = lines ++ s.2.log ∧ warnings lines = 0 :=
  ⟨rfl, _, rfl, warnings_write_of_ne hlevel⟩

theorem writeLog_settles {l : Link} {rs : List Release} {notices : Multiset LogLine}
    {r : Except Fault Unit} {text : Bytes} (level : LogLevel) (hd : d.link = l)
    (h : Settles l rs notices w₀ r w) (hlevel : level ≠ .warn) :
    After (writeLog level text) (d, w) fun _ s' =>
      s'.1 = d ∧ Settles l rs notices w₀ r s'.2 := by
  subst hd
  exact After.bind_iff.2 <| After.get_iff.2 <| After.lift_iff.2 <|
    (h.writeLog hlevel).mono fun _ _ h => ⟨rfl, h⟩

theorem undo_settles {l : Link} {rs : List Release} {first : Except Fault Unit} {o : Origin}
    (ho : d.isOpen) (hd : d.link = l) (h : Settles l rs 0 w₀ first w) :
    After (undo first o) (d, w) fun r s' =>
      s'.1 = d ∧ Settles l (rs ++ [.undone o]) 0 w₀ r s'.2 := by
  subst hd
  have attempted := Settles.single (l := d.link) (w := w) (.undone o)
  unfold Release.attempt at attempted
  unfold undo
  refine After.bind_iff.2 (After.get_iff.2 ?_)
  rw [if_pos ho]
  refine After.bind_iff.2 <| After.object_onEngine_iff.2 <| attempted.mono fun next e hnext =>
    After.lift_iff.2 <| (h.keepFirst _ hnext).mono fun r w' h => ⟨rfl, ?_⟩
  rwa [add_zero] at h

/-- Where the statements of a transaction were closed and it has ended, earlier transactions are
spared. -/
theorem Disowns.spares (hd : Disowns t d d') (hl : d.Linked) {x : Transaction} (hx : d.Ready t x)
    {how : Ended} {u : Nat} {y : Transaction} (hu : u < t) (hy : d.transactions.find? u = some y) :
    ∃ y', (d'.withEnded t x.origin how).transactions.find? u = some y' ∧ y'.origin = y.origin ∧
      y'.ended = y.ended := by
  have hy' : d'.transactions.find? u = some y := by
    rw [hd.rest]
    exact Table.find?_modify_eq_some.2 (.inr ⟨hu.ne, hy⟩)
  have hfind := @Linked.find_withEnded d' t u { x with statements := [] } y how (hd.linked hl)
    (hd.ready hx).1 hy'
  exact ⟨_, hfind, rfl, if_neg hu.ne⟩

theorem active_of_ready {x : Transaction} {attempt : Attempt} (hx : d.Ready t x) :
    After (active attempt t).run (d, w) fun r s' => s' = (d, w) ∧ r = .ok x := by
  refine active_after.mono fun r s' ⟨hsame, hok, hnot⟩ => ?_
  cases r with
  | error f => exact absurd hx (hnot f rfl x)
  | ok y => exact ⟨hsame, congrArg _ (Option.some.inj ((hok y rfl).1.symm.trans hx.1))⟩

/-- Rolling back a transaction gives up its statements and its work. -/
theorem rollback_settles (hs : d.Sound w.engine.history) (hl : d.Listed) {x : Transaction}
    (hx : d.Ready t x) : After (rollback t).run (d, w) fun r s' =>
      Settles d.link (d.undoReleases t) 0 w r s'.2 ∧ Spares t d s'.1 := by
  have hplan : d.undoReleases t = d.ownReleases t ++ [.undone x.origin] := by
    simp [undoReleases, ending, hx.1]
  unfold rollback
  refine After.try_bind_iff.2 ((active_of_ready hx).mono ?_)
  rintro _ _ ⟨rfl, rfl⟩
  refine After.try_bind_iff.2 <| After.try_lift_iff.2 <|
    ((closeOwned_after (A := fun _ => True) hs t).and (closeOwned_settles hs hl t)).mono
      fun first s₁ ⟨⟨h₁, hd, _⟩, hfirst, l, htouch, hown⟩ => ?_
  have hlink : s₁.1.link = d.link := h₁.path.link
  have ho₁ : s₁.1.isOpen := by
    rw [hd.rest]
    exact hs.owned.transaction t x hx.1 hx.2.1
  refine After.try_bind_iff.2 <| After.try_lift_iff.2 <|
    (undo_settles (o := x.origin) ho₁ hlink hfirst).mono fun r s₂ ⟨hd₂, h₂⟩ => ?_
  have hlink₂ : (s₂.1.withEnded t x.origin .rolledBack).link = d.link := by
    rw [withEnded_link, hd₂, hlink]
  refine After.try_bind_iff.2 <| After.try_modify_iff.2 <| After.try_bind_iff.2 <|
    After.try_lift_iff.2 <| (writeLog_settles .debug hlink₂ h₂ nofun).mono fun _ s₃ ⟨hd₃, h₃⟩ =>
      After.ofResult_iff.2 ⟨hplan ▸ h₃, ?_⟩
  rw [hd₃, hd₂]
  refine .of_touches (l := l) ⟨fun k hk => ?_, fun k => ?_⟩ hown fun u y =>
    hd.spares hs.linked hx
  · rw [withEnded_statements]
    exact htouch.others k hk
  · rw [withEnded_statements]
    exact htouch.owner k

/-- A transaction is rolled back after what was within it. -/
theorem rollbackLast_settles {l : Link} {rs : List Release} {first : Except Fault Unit}
    (hs : d.Sound w.engine.history) (hd : d.Listed) {x : Transaction} (hx : d.Ready t x)
    (hlink : d.link = l) (h : Settles l rs 0 w₀ first w) :
    After (rollbackLast t first) (d, w) fun r s' =>
      Settles l (rs ++ d.undoReleases t) 0 w₀ r s'.2 ∧ Spares t d s'.1 := by
  subst hlink
  have hactive : d.isActive t := isActive_iff.2 ⟨x, hx.1, hx.2.1⟩
  refine rollbackLast_after (fun hended => nomatch hended.symm.trans hactive) fun _ =>
    ((rollback_shrinks (A := fun _ => True) hs).and (rollback_settles hs hd hx)).mono
      fun next s₁ ⟨⟨h₁, _⟩, hnext, hspares⟩ => ?_
  have hsink : s₁.1.sink = d.link.options.sink := by rw [sink, h₁.path.link]
  rw [hsink]
  refine After.lift_iff.2 <| (h.keepFirst _ hnext).mono fun r w' h => ⟨?_, hspares⟩
  rwa [add_zero] at h

/-- Rolling back a transaction with all that is within it gives up the inner ones first. -/
theorem rollbackChain_settles {n : Nat} (hs : d.Sound w.engine.history) (hd : d.Listed)
    (ht : d.isActive t) (hn : d.transactions.next ≤ t + n) :
    After (rollbackChain n t) (d, w) fun r s' =>
      Settles d.link ((d.openFrom t).flatMap d.undoReleases) 0 w r s'.2 ∧ Spares t d s'.1 := by
  induction n generalizing d w t with
  | zero =>
    obtain ⟨x, hx, -⟩ := isActive_iff.1 ht
    exact absurd (Table.lt_next hx) (Nat.not_lt.2 hn)
  | succ n ih =>
    obtain ⟨x, hx, hxo⟩ := isActive_iff.1 ht
    refine rollbackChain_succ (fun hc => ?_) fun c hc => ?_
    · have hready : d.Ready t x := ⟨hx, hxo, hc⟩
      rw [openFrom_ready hs.linked hready]
      simpa using rollbackLast_settles hs hd hready rfl .nil
    · have hlt := hs.linked.lt_openChild? hc
      have hactive : d.isActive c := by
        obtain ⟨-, y, -, -, -, hy, hyo, -⟩ := hs.linked.of_openChild? hc
        exact isActive_iff.2 ⟨y, hy, hyo⟩
      refine ((rollbackChain_after (A := fun _ => True) hs).and
        (ih hs hd hactive (by omega))).mono ?_
      rintro first s₁ ⟨⟨h₁, hshr, hinactive⟩, hfirst, hspares⟩
      have hnone := hshr.openChild? hs.linked (h₁.sound hs).linked hc <| hinactive <| by
        dsimp only
        omega
      obtain ⟨x', hx', -, hxo'⟩ := hspares.transaction t x hlt hx
      refine (rollbackLast_settles (h₁.sound hs) (hd.path h₁.path) ⟨hx', hxo'.trans hxo, hnone⟩
        h₁.path.link hfirst).mono ?_
      rintro r s₂ ⟨h, hspares₂⟩
      refine ⟨?_, (hspares.mono hlt.le).trans hspares₂⟩
      rw [hspares.undoReleases hlt hx] at h
      rw [openFrom_child hs.linked hc, List.flatMap_append, List.flatMap_singleton]
      exact h

theorem rollbackThrough_settles (hs : d.Sound w.engine.history) (hd : d.Listed)
    (ht : d.isActive t) : After (rollbackThrough t) (d, w) fun r s' =>
      Settles d.link ((d.openFrom t).flatMap d.undoReleases) 0 w r s'.2 := by
  unfold rollbackThrough
  refine After.bind_iff.2 (After.get_iff.2 ?_)
  rw [if_pos ht]
  exact (rollbackChain_settles hs hd ht (Nat.le_add_left _ _)).mono fun _ _ h => h.1

/-! ## Closing -/

/-- The warning that a database is closed while a transaction is open. -/
def closingNotice (d : Database) : Multiset LogLine :=
  if d.root.any d.isActive then
    {.bounded .warn "Closing database with an open transaction; rolling back"}
  else 0

/-- Where all statements are closed, giving up the open transactions is to undo their work. -/
theorem abandonChain_settles {l : Link} {rs : List Release} {first : Except Fault Unit}
    (hs : d.Sound w.engine.history) (hd : d.Listed) (hclosed : ∀ k, d.openStatement? k = none)
    (hlink : d.link = l) (h : Settles l rs 0 w₀ first w) :
    After (abandonChain first) (d, w) fun r s' =>
      Settles l (rs ++ (d.openFrom 0).flatMap (d.ending .undone)) d.closingNotice w₀ r s'.2 := by
  subst hlink
  have undoReleases_eq : d.undoReleases = d.ending .undone := by
    funext u
    have hnone : d.openWhere (·.owner = some u) = [] := by
      refine List.eq_nil_iff_forall_not_mem.2 fun k hk => ?_
      obtain ⟨z, hz, ho, -⟩ := mem_openWhere.1 hk
      rw [openStatement?_eq_none (hclosed k) hz] at ho
      cases ho
    simp [undoReleases, ownReleases, hnone]
  unfold abandonChain
  refine After.bind_iff.2 (After.get_iff.2 ?_)
  dsimp only
  cases hr : d.root.filter d.isActive with
  | none =>
    have hany : d.root.any d.isActive = false := by
      cases hroot : d.root with
      | none => rfl
      | some r => simpa [hroot, Option.filter] using hr
    have hopen : d.openFrom 0 = [] := by
      refine List.eq_nil_iff_forall_not_mem.2 fun u hu => ?_
      obtain ⟨x, hx, hxo⟩ := isActive_iff.1 (mem_openFrom.1 hu).2
      exact hs.linked.none_open hany u x hx hxo
    refine After.pure_iff.2 ?_
    simpa [hopen, closingNotice, hany] using h
  | some r =>
    obtain ⟨hroot, hactive⟩ := Option.filter_eq_some_iff.1 hr
    have hopen : d.openFrom 0 = d.openFrom r :=
      openFrom_sorted.eq_of_mem_iff openFrom_sorted fun u => by
        rw [mem_openFrom, mem_openFrom]
        exact ⟨fun ⟨_, hu⟩ => ⟨hs.linked.root_le hroot hu, hu⟩, fun ⟨_, hu⟩ => ⟨u.zero_le, hu⟩⟩
    have hnotice : d.closingNotice =
        {.bounded .warn "Closing database with an open transaction; rolling back"} + 0 := by
      simp [closingNotice, hroot, hactive]
    rw [hopen, ← undoReleases_eq, hnotice]
    refine After.bind_iff.2 <| After.bind_iff.2 <| After.get_iff.2 <| After.lift_iff.2 <|
      (h.notice.and (After.writeLog_still)).mono fun _ w₁ ⟨h₁, he₁⟩ => ?_
    have hs₁ : d.Sound w₁.engine.history := he₁ ▸ hs
    refine After.bind_iff.2 <| (rollbackChain_settles hs₁ hd hactive (Nat.le_add_left _ _)).mono
      fun next s₂ ⟨hnext, _⟩ => After.lift_iff.2 <| h₁.keepFirst _ hnext

/-- Closing a database gives up all that it holds. -/
theorem close_settles (hs : d.Sound w.engine.history) (hd : d.Listed) (ho : d.isOpen) :
    After close (d, w) fun r s' => Settles d.link d.closing d.closingNotice w r s'.2 := by
  have hplan : d.listed.flatMap d.releases = (d.openWhere fun _ => true).flatMap d.releases :=
    flatMap_releases hd.sorted fun k z hz hzo => iff_of_true (hs.owned.listed k z hz hzo).2 rfl
  unfold close
  refine After.bind_iff.2 (After.get_iff.2 ?_)
  simp only [ho]
  refine After.seq ((closeEach_after (A := fun _ => True) hs).and
    (closeEach_settles hs (hd.sorted.imp Nat.ne_of_lt) .nil))
      fun first s₁ ⟨⟨h₁, hl⟩, hfirst, _⟩ => ?_
  rw [List.nil_append, hplan] at hfirst
  have hrest := h₁.shuts.rest
  have hlisted : s₁.1.listed = d.listed := by rw [hrest]
  have h₂ : Leads (fun _ => True) (d, w) ({ s₁.1 with listed := [] }, s₁.2) :=
    h₁.leads.trans (.change (.unlisted (hlisted ▸ hl)) .refl)
  have hclosed (k : Nat) : openStatement? { s₁.1 with listed := [] } k = none := by
    cases hk : d.openStatement? k with
    | none => exact h₁.shuts.closed k hk
    | some z =>
      obtain ⟨hz, hzo⟩ := openStatement?_eq_some hk
      exact hl k (hs.owned.listed k z hz hzo).2
  have hopen : openFrom { s₁.1 with listed := [] } 0 = d.openFrom 0 := by rw [hrest]; rfl
  have hending : ending { s₁.1 with listed := [] } = d.ending := by rw [hrest]; rfl
  have hnotice : closingNotice { s₁.1 with listed := [] } = d.closingNotice := by rw [hrest]; rfl
  refine After.bind_iff.2 <| After.modify_iff.2 <|
    After.seq ((abandonChain_after (A := fun _ => True) (h₂.sound hs)).and
      (abandonChain_settles (h₂.sound hs) (hd.path h₂.path) hclosed h₂.path.link hfirst))
        fun first s₃ ⟨⟨h₃, _⟩, hfirst₃⟩ => ?_
  rw [hopen, hending, hnotice] at hfirst₃
  have hlink₃ : ({ s₃.1 with isOpen := false } : Database).link = d.link := (h₂.trans h₃).path.link
  have attempted := Settles.single (l := d.link) (w := s₃.2) .connection
  unfold Release.attempt at attempted
  refine After.bind_iff.2 <| After.object_onEngine_iff.2 <| attempted.mono fun next e hnext =>
    After.bind_iff.2 <| After.lift_iff.2 <| (hfirst₃.keepFirst _ hnext).mono fun first w₄ h₄ => ?_
  rw [add_zero] at h₄
  exact After.bind_iff.2 <| After.modify_iff.2 <| After.bind_iff.2 <|
    (writeLog_settles .info hlink₃ h₄ nofun).mono fun _ s₅ ⟨_, h₅⟩ => After.pure_iff.2 h₅

/-! ## Committing -/

/-- Committing a transaction gives up its statements, and keeps its work unless that is refused. -/
theorem commit_settles (hs : d.Sound w.engine.history) (hd : d.Listed) {x : Transaction}
    (hx : d.Ready t x) (ho : d.isOpen) : After (commit t).run (d, w) fun r s' =>
      (∃ rest, (outcome (attemptAll d.link (d.ownReleases t ++ [.kept x.origin])) w.engine).1 =
        rest ++ [.ok ()]) ∧
          Settles d.link (d.ownReleases t ++ [.kept x.origin]) 0 w r s'.2 ∨
      Refuses d.link (d.ownReleases t) (.kept x.origin) w r s'.2 := by
  unfold commit
  refine After.try_bind_iff.2 ((active_of_ready hx).mono ?_)
  rintro _ _ ⟨rfl, rfl⟩
  have hopen : After checkOpen.run (d, w) fun r s' => s' = (d, w) ∧ r = .ok () := by
    unfold checkOpen
    refine After.try_bind_iff.2 (After.try_get_iff.2 ?_)
    simp only [ho]
    exact After.try_pure_iff.2 ⟨rfl, rfl⟩
  refine After.try_bind_iff.2 (hopen.mono ?_)
  rintro _ _ ⟨rfl, rfl⟩
  refine After.try_bind_iff.2 <| After.try_lift_iff.2 <|
    ((closeOwned_after (A := fun _ => True) hs t).and (closeOwned_settles hs hd t)).mono
      fun first s₁ ⟨⟨h₁, _⟩, hfirst, _⟩ => ?_
  have hlink : s₁.1.link = d.link := h₁.path.link
  have attempted : After (keepWork s₁.1.link x.origin).run s₁.2.engine fun next e =>
      Settles d.link [.kept x.origin] 0 s₁.2 next { s₁.2 with engine := e } ∧
        (outcome (attemptAll d.link (d.ownReleases t ++ [.kept x.origin])) w.engine).1 =
          (outcome (attemptAll d.link (d.ownReleases t)) w.engine).1 ++ [next] := by
    have hnext := Settles.single (l := d.link) (w := s₁.2) (.kept x.origin)
    unfold Release.attempt at hnext
    rw [hlink]
    refine hnext.and ?_
    rw [outcome_append, outcome_singleton, ← hfirst.engine]
    exact rfl
  refine After.try_bind_iff.2 <| After.try_get_iff.2 <| After.try_bind_iff.2 <|
    After.op_onEngine_iff.2 <| attempted.mono fun next e ⟨hnext, houtcome⟩ => ?_
  cases next with
  | ok _ =>
    have hboth := hfirst.done hnext
    rw [add_zero] at hboth
    have hlink₂ : (s₁.1.withEnded t x.origin .committed).link = d.link := by
      rw [withEnded_link, hlink]
    exact After.try_bind_iff.2 <| After.try_modify_iff.2 <| After.try_bind_iff.2 <|
      After.try_lift_iff.2 <| (writeLog_settles .debug hlink₂ hboth nofun).mono
        fun _ s₃ ⟨_, h₃⟩ => After.ofResult_iff.2 (.inl ⟨⟨_, houtcome⟩, h₃⟩)
  | error f =>
    obtain ⟨hengine, new, hnew, -, htold⟩ := hfirst
    have engine_eq : e = (outcome (attemptAll d.link
        (d.ownReleases t ++ [.kept x.origin])) w.engine).2 := by
      rw [outcome_append, ← hengine]
      exact hnext.engine
    refine After.try_bind_iff.2 <| After.try_lift_iff.2 <| (writeLog_silent .error nofun).mono
      fun _ s₃ ⟨he, lines, hlines, hsilent⟩ => After.throw_iff.2 <|
        .inr ⟨he.trans engine_eq, ⟨f, rfl, houtcome⟩, lines ++ new, ?_, fun htakes =>
          (htold htakes).append hsilent⟩
    rw [hlines, List.append_assoc, ← hnew]

end SqlAccess.Database
