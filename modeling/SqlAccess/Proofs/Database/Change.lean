import Mathlib.Logic.Relation
import SqlAccess.Database
import SqlAccess.Proofs.Control
import SqlAccess.Proofs.Statement

/-!
# What can happen to a database

`Change A` lists all that the operations on a database do to it, one thing at a time, each
together with the calls that are made for it: a database and the history of its engine before, and
both after. Statements are run only on databases that satisfy `A`. What holds through every change
holds through every operation (`Path A`).
-/

namespace SqlAccess.Database

/-- A transaction that is open, with no open one nested in it. -/
def Ready (d : Database) (t : Nat) (x : Transaction) : Prop :=
  d.transactions.find? t = some x ∧ x.ended = none ∧ d.openChild? t = none

/-- The directive that keeps the work of a transaction. -/
def keeping : Origin → Directive
  | .root => .commit
  | .nested _ n => .release n

/-- The work of a transaction was to be undone, whether or not that counts as done. -/
def Undone (c : Option Nat) : Origin → History → History → Prop
  | .root => fun h h' => ∃ ok, Asked c .rollback h ok h'
  | .nested _ n => Rewound c n

theorem Undone.suffix {c : Option Nat} {o : Origin} {h h' : History} (hu : Undone c o h h') :
    h <:+ h' := by
  cases o with
  | root => exact hu.elim fun _ ha => ha.suffix
  | nested p n => exact Rewound.suffix hu

/-- A call that closes a connection. -/
def Closing (c : Option Nat) (_ : History) (e : Event) : Prop :=
  ∃ n, c = some n ∧ e.call = .close n

/-- One thing that happens to a database while calls are made. -/
inductive Change (A : Database → Prop) : Database × History → Database × History → Prop
  /-- A statement is prepared, or preparing it fails. -/
  | called {d : Database} {h h' : History} :
      Grown (Making d.link.connection) h h' → Change A (d, h) (d, h')
  /-- There is work on a statement. -/
  | worked {d : Database} {h h' : History} {k : Nat} {s s' : Statement} :
      d.statements.find? k = some s → s.Stays s' → s'.Sane d.link.connection h' →
      Grown (Work d.link.connection) h h' → A d ∨ Grown Idle h h' →
      Change A (d, h) ({ d with statements := d.statements.modify k fun _ => s' }, h')
  /-- A statement is put in. -/
  | added {d : Database} {h : History} {owner : Option Nat} {descriptor : Descriptor}
      {handle : Handle} :
      d.isOpen → (∀ t, owner = some t → ∃ x, d.Ready t x) → handle.MadeOn d.link.connection h →
      Change A (d, h) (d.withStatement { owner, descriptor, handle }, h)
  /-- The statements listed with the database are closed and no more listed. -/
  | unlisted {d : Database} {h : History} : (∀ k ∈ d.listed, d.openStatement? k = none) →
      Change A (d, h) ({ d with listed := [] }, h)
  /-- The statements listed with a transaction are closed and no more listed. -/
  | disowned {d : Database} {h : History} {t : Nat} :
      (∀ x, d.transactions.find? t = some x → ∀ k ∈ x.statements, d.openStatement? k = none) →
      Change A (d, h) ({ d with
        transactions := d.transactions.modify t fun x => { x with statements := [] } }, h)
  /-- The engine refuses to begin a transaction or to keep the work of one. -/
  | refused {d : Database} {h h' : History} {directive : Directive} :
      (directive = .start ∨ directive = .commit ∨ ∃ n, directive = .release n) →
      Asked d.link.connection directive h false h' → Change A (d, h) (d, h')
  | began {d : Database} {h h' : History} :
      d.isOpen → d.root.any d.isActive = false → Asked d.link.connection .start h true h' →
      Change A (d, h) (d.withRoot, h')
  /-- The engine refuses to set a savepoint. -/
  | numbered {d : Database} {h h' : History} :
      Asked d.link.connection (.savepoint (d.savepoints + 1)) h false h' →
      Change A (d, h) ({ d with savepoints := d.savepoints + 1 }, h')
  | nested {d : Database} {h h' : History} {parent : Nat} {x : Transaction} :
      d.isOpen → d.Ready parent x →
      Asked d.link.connection (.savepoint (d.savepoints + 1)) h true h' →
      Change A (d, h) ({ d with savepoints := d.savepoints + 1 }.withNested parent
        (d.savepoints + 1) (x.depth + 1), h')
  | committed {d : Database} {h h' : History} {t : Nat} {x : Transaction} :
      d.isOpen → d.Ready t x → x.statements = [] →
      Asked d.link.connection (keeping x.origin) h true h' →
      Change A (d, h) (d.withEnded t x.origin .committed, h')
  | rolledBack {d : Database} {h h' : History} {t : Nat} {x : Transaction} :
      d.isOpen → d.Ready t x → x.statements = [] → Undone d.link.connection x.origin h h' →
      Change A (d, h) (d.withEnded t x.origin .rolledBack, h')
  | closed {d : Database} {h h' : History} :
      d.listed = [] → d.root.any d.isActive = false → Grown (Closing d.link.connection) h h' →
      Change A (d, h) ({ d with isOpen := false }, h')

/-- Changes one after another. -/
abbrev Path (A : Database → Prop) : Database × History → Database × History → Prop :=
  Relation.ReflTransGen (Change A)

end SqlAccess.Database
