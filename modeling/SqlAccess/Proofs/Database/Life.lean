import SqlAccess.Proofs.Database.Sound
import SqlAccess.Proofs.Opening

/-!
# The life of a database

A database shares its engine with others. From where it stands two things happen: it changes
itself, or calls are made that have nothing to do with its connection (`Happens`). Its `Life` is
one such thing after another.
-/

namespace SqlAccess.Database

variable {A : Database → Prop} {d d' : Database} {h h' : History}

theorem Asked.on {c : Option Nat} {directive : Directive} {ok : Bool}
    (ha : Asked c directive h ok h') : Grown (On c) h h' := by
  refine ha.grown.mono fun past e ⟨n, hn, hc⟩ => ?_
  subst hn
  obtain hc | hc | hc := hc <;> simp [On, hc, Call.connection?, Call.runs?]

theorem Undone.on {c : Option Nat} {o : Origin} (hu : Undone c o h h') : Grown (On c) h h' := by
  cases o with
  | root =>
    obtain ⟨ok, ha⟩ := hu
    exact Asked.on ha
  | nested p n =>
    cases hu with
    | refused ha => exact Asked.on ha
    | done ha hb => exact (Asked.on ha).trans (Asked.on hb)

/-- A change of a database is about its connection. -/
theorem Change.on (hc : Change A (d, h) (d', h')) : Grown (On d.link.connection) h h' := by
  cases hc with
  | called hg => exact hg.mono fun _ _ h => h.work.on
  | worked _ _ _ hg => exact hg.mono fun _ _ h => h.on
  | added | unlisted | disowned => exact .refl
  | refused _ ha => exact Asked.on ha
  | began _ _ ha => exact Asked.on ha
  | numbered ha => exact Asked.on ha
  | nested _ _ ha => exact Asked.on ha
  | committed _ _ _ ha => exact Asked.on ha
  | rolledBack _ _ _ hu => exact hu.on
  | closed _ _ hg =>
    refine hg.mono ?_
    rintro past e ⟨n, hn, he⟩
    simp [On, he, hn, Call.connection?, Call.runs?]

theorem Path.on {a b : Database × History} (hp : Path A a b) :
    Grown (On a.1.link.connection) a.2 b.2 := by
  induction hp with
  | refl => exact .refl
  | tail hp hc ih => exact ih.trans (Path.link hp ▸ hc.on)

/-- One thing that happens from where a database stands. -/
inductive Happens (A : Database → Prop) : Database × History → Database × History → Prop
  | change {a b : Database × History} : Change A a b → Happens A a b
  | elsewhere {d : Database} {h h' : History} :
      Grown (Foreign d.link.connection) h h' → Happens A (d, h) (d, h')

/-- What happens from where a database stands, one thing after another. -/
abbrev Life (A : Database → Prop) : Database × History → Database × History → Prop :=
  Relation.ReflTransGen (Happens A)

variable {a b : Database × History}

theorem Path.life (hp : Path A a b) : Life A a b := by
  induction hp with
  | refl => exact .refl
  | tail _ hc ih => exact ih.tail (.change hc)

theorem Happens.suffix (hh : Happens A a b) : a.2 <:+ b.2 := by
  cases hh with
  | change hc => exact hc.suffix
  | elsewhere hg => exact hg.suffix

theorem Happens.link (hh : Happens A a b) : b.1.link = a.1.link := by
  cases hh with
  | change hc => exact hc.link
  | elsewhere => rfl

/-- A sound database stays so while there is work elsewhere. -/
theorem Sound.of_suffix (hs : d.Sound h) (hsuf : h <:+ h') : d.Sound h' :=
  ⟨hs.linked, hs.owned, fun k s hk => (hs.sane k s hk).of_suffix hsuf⟩

theorem Sound.happens (hs : a.1.Sound a.2) (hh : Happens A a b) : b.1.Sound b.2 := by
  cases hh with
  | change hc => exact hs.change hc
  | elsewhere hg => exact hs.of_suffix hg.suffix

namespace Life

theorem suffix (hl : Life A a b) : a.2 <:+ b.2 := by
  induction hl with
  | refl => exact List.suffix_refl _
  | tail _ hh ih => exact ih.trans hh.suffix

theorem link (hl : Life A a b) : b.1.link = a.1.link := by
  induction hl with
  | refl => rfl
  | tail _ hh ih => exact hh.link.trans ih

theorem sound (hl : Life A a b) (hs : a.1.Sound a.2) : b.1.Sound b.2 := by
  induction hl with
  | refl => exact hs
  | tail _ hh ih => exact ih.happens hh

/-- What is kept by all that happens to a sound database is kept by its life. -/
theorem keeps {I : Database → History → Prop} (hl : Life A a b) (hs : a.1.Sound a.2)
    (hI : ∀ d h d' h', d.Sound h → Happens A (d, h) (d', h') → I d h → I d' h')
    (ha : I a.1 a.2) : I b.1 b.2 := by
  induction hl with
  | refl => exact ha
  | tail hl hh ih => exact hI _ _ _ _ (sound hl hs) hh ih

end Life

/-! ## Where statements may be run -/

section Mono

variable {B : Database → Prop}

theorem Change.mono (hAB : ∀ d, A d → B d) (hc : Change A a b) : Change B a b := by
  cases hc with
  | called hg => exact .called hg
  | worked hk hst hs hg hA => exact .worked hk hst hs hg (hA.imp_left (hAB _))
  | added ho howner hm => exact .added ho howner hm
  | unlisted hn => exact .unlisted hn
  | disowned hn => exact .disowned hn
  | refused hd ha => exact .refused hd ha
  | began ho hr ha => exact .began ho hr ha
  | numbered ha => exact .numbered ha
  | nested ho hx ha => exact .nested ho hx ha
  | committed ho hx hn ha => exact .committed ho hx hn ha
  | rolledBack ho hx hn hu => exact .rolledBack ho hx hn hu
  | closed hl hr hg => exact .closed hl hr hg

theorem Life.mono (hAB : ∀ d, A d → B d) (hl : Life A a b) : Life B a b := by
  induction hl with
  | refl => exact .refl
  | tail _ hh ih =>
    refine ih.tail ?_
    cases hh with
    | change hc => exact .change (hc.mono hAB)
    | elsewhere hg => exact .elsewhere hg

end Mono

/-! ## Birth -/

/-- A database when it was opened: it has nothing in it, and its connection was only set up. -/
structure Born (d : Database) (h : History) : Prop where
  link : ∃ l, d = { link := l }
  setup : ∀ c, d.link.connection = some c → ∀ e ∈ h, e.call.connection? = some c →
    (∀ c', ¬ e.call.prepares c') ∧ ∀ c' d, e.call.directive? = some (c', d) → d.controls = false

theorem Born.sound (hb : d.Born h) : d.Sound h := by
  obtain ⟨l, rfl⟩ := hb.link
  exact .opened

end SqlAccess.Database
