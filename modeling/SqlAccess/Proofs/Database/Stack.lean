import Mathlib.Data.List.Nodup
import SqlAccess.Proofs.Database.Turn

/-!
# The stack of frames and the chain of transactions

On top of what became of earlier transactions, the frames of the engine are those of the open
transactions. A frame that the engine did not give up or undo is left over, so in general the
savepoints of the open transactions are some of those of the frames, in the same order (`Stacked`).
Where no directive failed there are no others, and every directive is run where it belongs
(`Mirrored`).
-/

namespace SqlAccess

/-- The savepoints of the open frames, the latest first. -/
def Ledger.savepoints (l : Ledger) : List (Option Nat) := l.frames.map (·.savepoint)

namespace Database

variable {A : Database → Prop} {d d' : Database} {h h' : History} {c t n : Nat} {l l' : Ledger}

/-- What every turn keeps is kept by the life of a database, while the library takes calls for what
they are. -/
theorem Life.turns {I : Database → History → Prop} {a b : Database × History} (hl : Life A a b)
    (hs : a.1.Sound a.2) (hc : a.1.link.connection = some c) (hcandid : candid c b.2)
    (hI : ∀ d h d' h', d.Sound h → Kin d d' → Turn A c (d, h) (d', h') → I d h → I d' h')
    (ha : I a.1 a.2) : I b.1 b.2 := by
  refine Life.keeps (I := fun d h => d.link.connection = some c → candid c h → I d h) hl hs
    (fun d h d' h' hd hh ih hc' hcandid' => ?_) (fun _ _ => ha) ?_ hcandid
  · have hlink := hh.link
    dsimp only at hlink
    rw [hlink] at hc'
    have hcandid := candid_of_suffix hh.suffix hcandid'
    exact hI d h d' h' hd (hh.kin hd.linked) (hh.turn hd.linked hc' hcandid') (ih hc' hcandid)
  · rw [Life.link hl]
    exact hc

/-- The frames of the engine contain those of the open transactions. -/
structure Stacked (d : Database) (l : Ledger) : Prop where
  chain : d.savepointChain.Sublist l.savepoints
  nodup : l.savepoints.Nodup
  /-- The frame at the bottom is that of a transaction as a whole. -/
  grounded : ∀ n, l.savepoints.getLast? ≠ some (some n)
  numbered : ∀ n, some n ∈ l.savepoints → n ≤ d.savepoints

/-- The savepoints below one of them. -/
theorem suffix_below (hn : some n ∈ l.savepoints) :
    some n :: (below n l.frames).map (·.savepoint) <:+ l.savepoints := by
  obtain ⟨above, f, hl, hf, -⟩ := exists_above hn
  refine ⟨above.map (·.savepoint), ?_⟩
  conv_rhs => rw [Ledger.savepoints, hl]
  simp [hf]

/-- A root that is ready is the only open transaction. -/
theorem savepointChain_root (hl : d.Linked) {x : Transaction} (how : Ended) (hx : d.Ready t x)
    (ho : x.origin = .root) : (d.withEnded t x.origin how).savepointChain = [] := by
  suffices (d.withEnded t x.origin how).ranks = [] by rw [savepointChain, this]; rfl
  refine ranks_eq_nil fun u z hz hzo => ?_
  have hstate := state?_of_find hz
  rw [state?_withEnded hx.1] at hstate
  split at hstate
  · cases (Prod.mk.inj (Option.some.inj hstate)).2.trans hzo
  · next hne =>
    obtain ⟨y, hy, hyz⟩ := Option.map_eq_some_iff.1 hstate
    have hyo := (Prod.mk.inj hyz).2.trans hzo
    obtain rfl | ⟨v, -, x', hx', hp⟩ := (hl.encloses hx hy hyo).cases_tail
    · exact hne rfl
    · obtain rfl : x = x' := Option.some.inj (hx.1.symm.trans hx')
      rw [ho] at hp
      cases hp

namespace Stacked

theorem below_ne_nil (hs : Stacked d l) (hn : some n ∈ l.savepoints) : below n l.frames ≠ [] := by
  intro hnil
  obtain ⟨pre, hpre⟩ := suffix_below hn
  rw [hnil] at hpre
  refine hs.grounded n ?_
  rw [← hpre]
  exact List.getLast?_concat

/-- Frames are dropped from the top. -/
theorem of_suffix (hs : Stacked d l) (hsuf : l'.savepoints <:+ l.savepoints)
    (hchain : d'.savepointChain.Sublist l'.savepoints) (hle : d.savepoints ≤ d'.savepoints) :
    Stacked d' l' := by
  refine ⟨hchain, hs.nodup.sublist hsuf.sublist, fun n hlast => ?_, fun n hn => ?_⟩
  · obtain ⟨pre, hpre⟩ := hsuf
    refine hs.grounded n ?_
    rw [← hpre, List.getLast?_append, hlast]
    rfl
  · exact Nat.le_trans (hs.numbered n (hsuf.subset hn)) hle

theorem opened {k : Link} : Stacked { link := k } {} :=
  ⟨List.nil_sublist _, List.nodup_nil, nofun, nofun⟩

/-- A transaction begins, on top of nothing or inside of what is left over. -/
theorem start (hs : Stacked d l) (hnone : d.ranks = []) : Stacked d.withRoot (l.control .start) := by
  have hchain : d.withRoot.savepointChain = [none] := by
    rw [savepointChain_withRoot, savepointChain, hnone]
    rfl
  rw [Ledger.control]
  split
  · exact ⟨by rw [hchain]; exact List.Sublist.refl _, List.nodup_singleton _,
      fun _ hn => (by cases hn), fun _ hn => (by cases List.mem_singleton.1 hn)⟩
  · next hne =>
    refine hs.of_suffix (List.suffix_refl _) ?_ (Nat.le_refl _)
    -- what is left over has the frame of a transaction at the bottom
    have hsome : l.savepoints ≠ [] := by
      simpa [Ledger.savepoints] using hne
    rw [hchain, List.singleton_sublist]
    have hlast := List.getLast?_eq_some_getLast hsome
    cases hbottom : l.savepoints.getLast hsome with
    | none => exact hbottom ▸ List.getLast_mem hsome
    | some n => exact absurd (hlast.trans (congrArg some hbottom)) (hs.grounded n)

/-- A savepoint is set, with a number that no other one has. -/
theorem savepoint (hs : Stacked d l) {x : Transaction} (hx : d.Ready t x) :
    Stacked ({ d with savepoints := d.savepoints + 1 }.withNested t (d.savepoints + 1)
      (x.depth + 1)) (l.control (.savepoint (d.savepoints + 1))) := by
  have hsaved : (l.control (.savepoint (d.savepoints + 1))).savepoints =
      some (d.savepoints + 1) :: l.savepoints := rfl
  have hopen : l.savepoints ≠ [] := fun hnil => by
    have hchain := hs.chain
    rw [hnil, List.sublist_nil] at hchain
    exact savepointChain_ne_nil (hx.2.1 ▸ state?_of_find hx.1) hchain
  refine ⟨?_, ?_, fun n => ?_, fun n hn => ?_⟩
  · rw [hsaved, savepointChain_withNested]
    exact List.cons_sublist_cons.2 hs.chain
  · rw [hsaved, List.nodup_cons]
    exact ⟨fun hmem => absurd (hs.numbered _ hmem) (Nat.not_succ_le_self _), hs.nodup⟩
  · rw [hsaved, List.getLast?_cons_of_ne_nil hopen]
    exact hs.grounded n
  · rw [hsaved] at hn
    obtain hn | hn := List.mem_cons.1 hn
    · exact Nat.le_of_eq (Option.some.inj hn)
    · exact Nat.le_succ_of_le (hs.numbered n hn)

/-- A savepoint is given up, of which what is left was the latest. -/
theorem release (hs : Stacked d l) (hn : some n ∈ l.savepoints)
    (hchain : (some n :: d'.savepointChain).Sublist l.savepoints)
    (hle : d.savepoints ≤ d'.savepoints) : Stacked d' (l.release n) := by
  have hsame : (l.release n).savepoints = (below n l.frames).map (·.savepoint) :=
    Ledger.savepoints_release hn (hs.below_ne_nil hn)
  refine hs.of_suffix ?_ (hsame ▸ sublist_below hchain) hle
  rw [hsame]
  exact (List.suffix_cons _ _).trans (suffix_below hn)

/-- The work since a savepoint is undone, of which what is left was the latest. -/
theorem rollbackTo (hs : Stacked d l) (hn : some n ∈ l.savepoints)
    (hchain : (some n :: d'.savepointChain).Sublist l.savepoints)
    (hle : d.savepoints ≤ d'.savepoints) : Stacked d' (l.rollbackTo n) ∧
      (some n :: d'.savepointChain).Sublist (l.rollbackTo n).savepoints := by
  have hsame : (l.rollbackTo n).savepoints = some n :: (below n l.frames).map (·.savepoint) :=
    Ledger.savepoints_rollbackTo hn
  have hbelow : (some n :: d'.savepointChain).Sublist (l.rollbackTo n).savepoints := by
    rw [hsame]
    exact List.cons_sublist_cons.2 (sublist_below hchain)
  refine ⟨hs.of_suffix ?_ ((List.sublist_cons_self _ _).trans hbelow) hle, hbelow⟩
  rw [hsame]
  exact suffix_below hn

theorem turn (hs : Stacked d (ledger c h)) (hd : d.Sound h) (ht : Turn A c (d, h) (d', h')) :
    Stacked d' (ledger c h') := by
  cases ht with
  | rested ha hspent =>
    have hsame : (ledger c h').savepoints = (ledger c h).savepoints := by
      rw [Ledger.savepoints, hspent.ledger, Ledger.runs_savepoints]
      rfl
    refine hs.of_suffix (hsame ▸ List.suffix_refl _) ?_ ha.savepoints
    rw [hsame, ha.savepointChain]
    exact hs.chain
  | refused ha _ he =>
    rw [he.ledger]
    exact hs.of_suffix (List.suffix_refl _) (ha.savepointChain ▸ hs.chain) ha.savepoints
  | began hnone he =>
    rw [he.ledger]
    exact hs.start hnone
  | nested hx he =>
    rw [he.ledger]
    exact hs.savepoint hx
  | @committed _ _ _ t x hx he =>
    have hchain := hs.chain
    rw [savepointChain_withEnded hd.linked .committed hx] at hchain
    have hle : d.savepoints ≤ (d.withEnded t x.origin .committed).savepoints :=
      Nat.le_of_eq withEnded_savepoints.symm
    rw [he.ledger, if_pos rfl]
    cases ho : x.origin with
    | root =>
      have hnil := savepointChain_root hd.linked .committed hx ho
      refine hs.of_suffix List.nil_suffix ?_ (ho ▸ hle)
      rw [← ho, hnil]
      exact List.nil_sublist _
    | nested p n =>
      rw [ho] at hchain hle
      exact hs.release (hchain.subset List.mem_cons_self) hchain hle
  | @rolledBack _ _ _ t x ok hx ho he =>
    have hnil := savepointChain_root hd.linked .rolledBack hx ho
    have hle : d.savepoints ≤ (d.withEnded t x.origin .rolledBack).savepoints :=
      Nat.le_of_eq withEnded_savepoints.symm
    rw [he.ledger]
    cases ok with
    | true => exact hs.of_suffix List.nil_suffix (hnil ▸ List.nil_sublist _) hle
    | false => exact hs.of_suffix (List.suffix_refl _) (hnil ▸ List.nil_sublist _) hle
  | @stuck _ _ _ t p n x hx ho he =>
    have hchain := hs.chain
    rw [savepointChain_withEnded hd.linked .rolledBack hx] at hchain
    rw [he.ledger]
    exact hs.of_suffix (List.suffix_refl _) ((List.sublist_cons_self _ _).trans hchain)
      (Nat.le_of_eq withEnded_savepoints.symm)
  | @undone _ _ h₁ _ t p n x ok hx ho he he' =>
    have hchain := hs.chain
    rw [savepointChain_withEnded hd.linked .rolledBack hx, ho] at hchain
    have hle : d.savepoints ≤ (d.withEnded t (.nested p n) .rolledBack).savepoints :=
      Nat.le_of_eq withEnded_savepoints.symm
    obtain ⟨hs₁, hchain₁⟩ := hs.rollbackTo (hchain.subset List.mem_cons_self) hchain hle
    have hledger : ledger c h₁ = (ledger c h).rollbackTo n := he.ledger
    rw [he'.ledger, hledger, ho]
    cases ok with
    | true => exact hs₁.release (hchain₁.subset List.mem_cons_self) hchain₁ (Nat.le_refl _)
    | false => exact hs₁
  | closed hnone hshut =>
    have hnil : d.savepointChain = [] := by
      rw [savepointChain, hnone]
      rfl
    obtain ⟨hl, -⟩ | ⟨hl, -⟩ := hshut.rest <;> rw [hl]
    · exact hs.of_suffix (List.suffix_refl _) hs.chain (Nat.le_refl _)
    · exact hs.of_suffix List.nil_suffix (hnil.symm ▸ List.nil_sublist _) (Nat.le_refl _)

end Stacked

/-! ## Depths -/

/-- Open transactions are as deep as there are others around them. -/
def Nested (d : Database) : Prop := d.ranks.map (·.2) = List.range d.ranks.length

theorem Nested.of_concat {ranks : List (Origin × Nat)} {o : Origin} {depth : Nat}
    (hr : (ranks ++ [(o, depth)]).map (·.2) = List.range (ranks ++ [(o, depth)]).length) :
    ranks.map (·.2) = List.range ranks.length ∧ depth = ranks.length := by
  simp only [List.map_append, List.map_cons, List.map_nil, List.length_append, List.length_cons,
    List.length_nil, List.range_succ] at hr
  obtain ⟨hranks, hlast⟩ := List.append_inj' hr rfl
  exact ⟨hranks, (List.cons.inj hlast).1⟩

theorem Nested.turn (hr : d.Nested) (hl : d.Linked) (ht : Turn A c (d, h) (d', h')) :
    d'.Nested := by
  have ended {t : Nat} {x : Transaction} (how : Ended) (hx : d.Ready t x) :
      (d.withEnded t x.origin how).Nested := by
    rw [Nested, ranks_withEnded hl how hx] at hr
    exact (of_concat hr).1
  cases ht with
  | rested ha | refused ha =>
    rw [Nested, ha.ranks]
    exact hr
  | began hnone =>
    rw [Nested, ranks_withRoot, hnone]
    rfl
  | @nested _ _ _ parent x hx =>
    -- the parent is the last one, which is as deep as there are others
    have hlast := hr
    rw [Nested, ranks_withEnded hl .rolledBack hx] at hlast
    have hdepth := (of_concat hlast).2
    have hcount := congrArg List.length (ranks_withEnded hl .rolledBack hx)
    rw [List.length_append, List.length_singleton] at hcount
    rw [Nested, ranks_withNested, List.map_append, List.length_append, List.length_singleton,
      List.range_succ]
    refine congrArg₂ _ hr ?_
    exact congrArg (fun n => [n]) ((congrArg (· + 1) hdepth).trans hcount.symm)
  | committed hx | rolledBack hx | stuck hx | undone hx => exact ended _ hx
  | closed => exact hr

/-! ## At birth -/

namespace Born

/-- Nothing was prepared on the connection. -/
theorem made_eq_false (hb : d.Born h) (hc : d.link.connection = some c) {past : History}
    (hs : past <:+ h) (k : Nat) : made c past k = false := by
  refine List.any_eq_false.2 fun e he hm => ?_
  have hprep := (Bool.and_eq_true_iff.1 hm).1
  exact (hb.setup c hc e (hs.subset he) (Call.connection?_of_prepares hprep)).1 c hprep

/-- No directive came to the connection that has to do with transactions. -/
theorem directive (hb : d.Born h) (hc : d.link.connection = some c) {e : Event} (he : e ∈ h)
    {directive : Directive} (hd : e.call.directive? = some (c, directive)) :
    directive.controls = false :=
  (hb.setup c hc e he (Call.connection?_of_directive? hd)).2 c directive hd

theorem ledger_eq (hb : d.Born h) (hc : d.link.connection = some c) : ledger c h = {} := by
  suffices ∀ past, past <:+ h → ledger c past = {} from this h (List.suffix_refl h)
  intro past hpast
  induction past with
  | nil => rfl
  | cons e past ih =>
    have hsuf := (List.suffix_cons e past).trans hpast
    have hmade := hb.made_eq_false hc hsuf
    have hdir {directive : Directive} (hd : e.call.directive? = some (c, directive)) :
        ({} : Ledger).control directive = {} :=
      (Ledger.control_eq_self (hb.directive hc (hpast.subset List.mem_cons_self) hd)).1
    rw [ledger, ih hsuf]
    split
    · rfl
    · cases hcall : e.call <;>
        simp_all [Ledger.call, Call.directive?]

theorem asks_eq_nil (hb : d.Born h) (hc : d.link.connection = some c) {directive : Directive}
    (hd : directive.controls) : asks c directive h = [] := by
  simp only [asks, List.map_eq_nil_iff, List.filter_eq_nil_iff, beq_iff_eq]
  intro e he hdir
  rw [hb.directive hc he hdir] at hd
  cases hd

theorem orderly (hb : d.Born h) (hc : d.link.connection = some c) : orderly c h := by
  suffices ∀ past, past <:+ h → SqlAccess.orderly c past from this h (List.suffix_refl h)
  intro past hpast
  induction past with
  | nil => rfl
  | cons e past ih =>
    refine Bool.and_eq_true_iff.2 ⟨ih ((List.suffix_cons e past).trans hpast), ?_⟩
    rw [Option.all_eq_true]
    rintro ⟨c', directive⟩ hdir
    by_cases hcc : c' = c
    · subst hcc
      have hd := hb.directive hc (hpast.subset List.mem_cons_self) hdir
      exact Bool.or_eq_true_iff.2 (.inr (Ledger.control_eq_self hd).2)
    · simp [hcc]

end Born

/-! ## Where no directive fails -/

/-- The frames of the engine are those of the open transactions, and every directive was run where
it belongs. -/
structure Mirrored (c : Nat) (d : Database) (h : History) : Prop where
  chain : (ledger c h).savepoints = d.savepointChain
  orderly : orderly c h

theorem below_of_eq {ns : List (Option Nat)} (hl : l.savepoints = some n :: ns) :
    (below n l.frames).map (·.savepoint) = ns := by
  cases hf : l.frames with
  | nil => simp [Ledger.savepoints, hf] at hl
  | cons f outer =>
    simp only [Ledger.savepoints, hf, List.map_cons, List.cons.injEq] at hl
    rw [below_cons_self hl.1, hl.2]

/-- The directive that keeps the work of a transaction, or undoes it, is run where it belongs. -/
theorem admits_of_eq {ns : List (Option Nat)} (hl : l.savepoints = some n :: ns) :
    l.admits (.release n) ∧ l.admits (.rollbackTo n) := by
  cases hf : l.frames with
  | nil => simp [Ledger.savepoints, hf] at hl
  | cons f outer =>
    simp only [Ledger.savepoints, hf, List.map_cons, List.cons.injEq] at hl
    simp [Ledger.admits, hf, hl.1]

namespace Mirrored

theorem turn (hm : Mirrored c d h) (hs : Stacked d (ledger c h)) (hd : d.Sound h)
    (ht : Turn A c (d, h) (d', h')) (hu : undisturbed c h') : Mirrored c d' h' := by
  obtain ⟨hchain, horder⟩ := hm
  cases ht with
  | rested ha hspent =>
    refine ⟨?_, hspent.orderly.trans horder⟩
    rw [Ledger.savepoints, hspent.ledger, Ledger.runs_savepoints, ha.savepointChain]
    exact hchain
  | refused _ _ he => cases he.sure hu
  | began hnone he =>
    have hnil : (ledger c h).frames = [] := by
      rw [savepointChain, hnone] at hchain
      exact List.map_eq_nil_iff.1 hchain
    refine ⟨?_, ?_⟩
    · rw [he.ledger, savepointChain_withRoot, savepointChain, hnone]
      simp [Ledger.control, hnil, Ledger.savepoints]
    · rw [he.orderly, horder]
      simp [Ledger.admits, hnil]
  | nested hx he =>
    refine ⟨?_, ?_⟩
    · rw [he.ledger, savepointChain_withNested]
      exact congrArg (some _ :: ·) hchain
    · rw [he.orderly, horder]
      rfl
  | @committed _ _ _ t x hx he =>
    rw [savepointChain_withEnded hd.linked .committed hx] at hchain
    cases ho : x.origin with
    | root =>
      have hnil := savepointChain_root hd.linked .committed hx ho
      rw [hnil, ho] at hchain
      rw [ho] at he hnil
      refine ⟨?_, ?_⟩
      · rw [he.ledger, hnil]
        rfl
      · rw [he.orderly, horder]
        exact beq_iff_eq.2 hchain
    | nested p n =>
      rw [ho] at hchain he
      have hmem : some n ∈ (ledger c h).savepoints := hchain ▸ List.mem_cons_self
      refine ⟨?_, ?_⟩
      · rw [he.ledger, ← below_of_eq hchain]
        exact Ledger.savepoints_release hmem (hs.below_ne_nil hmem)
      · rw [he.orderly, horder]
        exact (admits_of_eq hchain).1
  | rolledBack hx ho he =>
    refine ⟨?_, ?_⟩
    · rw [he.ledger, if_pos (he.sure hu), savepointChain_root hd.linked .rolledBack hx ho]
      rfl
    · rw [he.orderly, horder]
      rfl
  | stuck _ _ he => cases he.sure hu
  | @undone _ _ h₁ _ t p n x ok hx ho he he' =>
    rw [savepointChain_withEnded hd.linked .rolledBack hx, ho] at hchain
    have hmem : some n ∈ (ledger c h).savepoints := hchain ▸ List.mem_cons_self
    have hledger : ledger c h₁ = (ledger c h).rollbackTo n := he.ledger
    have hchain₁ : (ledger c h₁).savepoints =
        some n :: (d.withEnded t x.origin .rolledBack).savepointChain := by
      rw [hledger, ho, ← below_of_eq hchain]
      exact Ledger.savepoints_rollbackTo hmem
    have hmem₁ : some n ∈ (ledger c h₁).savepoints := hchain₁ ▸ List.mem_cons_self
    have hbelow : below n (ledger c h₁).frames ≠ [] := by
      rw [hledger, Ledger.below_rollbackTo_self hmem]
      exact hs.below_ne_nil hmem
    refine ⟨?_, ?_⟩
    · rw [he'.ledger, if_pos (he'.sure hu), ← below_of_eq hchain₁]
      exact Ledger.savepoints_release hmem₁ hbelow
    · rw [he'.orderly, he.orderly, horder, (admits_of_eq hchain).2, (admits_of_eq hchain₁).1]
      rfl
  | closed hnone hshut =>
    have hnil : d.savepointChain = [] := by
      rw [savepointChain, hnone]
      rfl
    have hnil' : ({ d with isOpen := false } : Database).savepointChain = [] := hnil
    refine ⟨?_, hshut.orderly.trans horder⟩
    rw [hnil']
    obtain ⟨hl, -⟩ | ⟨hl, -⟩ := hshut.rest <;> rw [hl]
    · exact hchain.trans hnil
    · rfl

end Mirrored

end Database

end SqlAccess
