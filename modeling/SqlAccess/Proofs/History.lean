import SqlAccess.Engine.Call

/-!
# Histories

A `History` is the list of calls made to an engine, the latest first. `Grown P h h'` says that
`h'` came of `h` by calls each of which satisfied `P`, together with what had been called before
it.

Three kinds of calls make up most of what the library does. Those that satisfy `Quiet` are asked
of a statement and do not run it; those that satisfy `Making c` may prepare statements on the
connection `c` besides; and those that satisfy `Work c` may also run statements that were made on
`c`. None of them controls a transaction.
-/

namespace SqlAccess

/-- The calls made to an engine, the latest first. -/
abbrev History := List Event

/-- Whether a call failed. -/
def Outcome.isFailure : Outcome → Bool
  | failed _ _ => true
  | _ => false

namespace Call

/-- The connection of which a call is asked. -/
def connection? : Call → Option Nat
  | extendedCodes c | busyTimeout c _ | exec c _ | prepare c _ | connect c _ | charset c
  | query c _ | store c | newStatement c | close c => some c
  | _ => none

/-- The statement of which a call is asked. -/
def statement? : Call → Option Nat
  | bind k _ _ | step k | reset k | finalize k | prepareText k _ | bindParam k | execute k _
  | storeResult k | bindResult k | freeResult k | fetch k | closeStatement k => some k
  | _ => none

/-- The statement that a call runs. -/
def runs? : Call → Option Nat
  | step k | execute k _ => some k
  | _ => none

/-- The statement of which a call fetches a row. -/
def fetches? : Call → Option Nat
  | step k | fetch k => some k
  | _ => none

/-- Whether a call gives a statement its text. -/
def givesText : Call → Bool
  | prepareText _ _ => true
  | _ => false

/-- The statement of which a call gives something up: its rows, or all of it. -/
def releases? : Call → Option Nat
  | reset k | finalize k | freeResult k | closeStatement k => some k
  | _ => none

/-- The connection that a call closes. -/
def closes? : Call → Option Nat
  | close c => some c
  | _ => none

/-- The connection and the directive that a call runs on it. -/
def directive? : Call → Option (Nat × Directive)
  | exec c d | query c d => some (c, d)
  | _ => none

/-- Whether a call prepares a statement on a connection. -/
def prepares (call : Call) (c : Nat) : Bool :=
  match call with
  | prepare c' _ | newStatement c' => c' == c
  | _ => false

theorem connection?_of_statement? {call : Call} {k : Nat} (h : call.statement? = some k) :
    call.connection? = none := by
  cases call <;> simp_all [statement?, connection?]

theorem statement?_of_runs? {call : Call} {k : Nat} (h : call.runs? = some k) :
    call.statement? = some k := by
  cases call <;> simp_all [runs?, statement?]

theorem statement?_of_fetches? {call : Call} {k : Nat} (h : call.fetches? = some k) :
    call.statement? = some k := by
  cases call <;> simp_all [fetches?, statement?]

theorem connection?_of_prepares {call : Call} {c : Nat} (h : call.prepares c) :
    call.connection? = some c := by
  cases call <;> simp_all [prepares, connection?]

theorem connection?_of_directive? {call : Call} {c : Nat} {d : Directive}
    (h : call.directive? = some (c, d)) : call.connection? = some c := by
  cases call <;> simp_all [directive?, connection?]

theorem runs?_of_directive? {call : Call} {c : Nat} {d : Directive}
    (h : call.directive? = some (c, d)) : call.runs? = none := by
  cases call <;> simp_all [directive?, runs?]

end Call

/-- Whether a statement was made on a connection. -/
def made (c : Nat) (h : History) (k : Nat) : Bool :=
  h.any fun e => e.call.prepares c && e.outcome == .created k

theorem made_of_suffix {c k : Nat} {h h' : History} (hs : h <:+ h') (hm : made c h k) :
    made c h' k := by
  obtain ⟨e, he, hek⟩ := List.any_eq_true.1 hm
  exact List.any_eq_true.2 ⟨e, hs.subset he, hek⟩

/-! ## Growth -/

section Growth

variable {P Q : History → Event → Prop} {h h' h'' : History}

/-- Calls were made that satisfied `P`. -/
inductive Grown (P : History → Event → Prop) (h : History) : History → Prop
  | refl : Grown P h h
  | call {past : History} {e : Event} : Grown P h past → P past e → Grown P h (e :: past)

/-- A call satisfies `P` if it is made after the history `h`. -/
def Since (h : History) (P : History → Event → Prop) (past : History) (e : Event) : Prop :=
  h <:+ past → P past e

namespace Grown

theorem trans (h₁ : Grown P h h') (h₂ : Grown P h' h'') : Grown P h h'' := by
  induction h₂ with
  | refl => exact h₁
  | call _ he ih => exact .call ih he

theorem one {e : Event} (he : P h e) : Grown P h (e :: h) := .call .refl he

theorem mono (hPQ : ∀ past e, P past e → Q past e) (hg : Grown P h h') : Grown Q h h' := by
  induction hg with
  | refl => exact .refl
  | call _ he ih => exact .call ih (hPQ _ _ he)

/-- A call was made after those that came before it. -/
theorem of_append {later past : History} {e : Event} (hg : Grown P [] (later ++ e :: past)) :
    Grown P [] past ∧ P past e := by
  induction later with
  | nil => cases hg with | call hg he => exact ⟨hg, he⟩
  | cons _ later ih => cases hg with | call hg _ => exact ih hg

theorem suffix (hg : Grown P h h') : h <:+ h' := by
  induction hg with
  | refl => exact List.suffix_refl h
  | call _ _ ih => exact ih.trans (List.suffix_cons _ _)

/-- The calls that were made. -/
theorem exists_append (hg : Grown P h h') :
    ∃ new, h' = new ++ h ∧ ∀ e ∈ new, ∃ past, P past e := by
  induction hg with
  | refl => exact ⟨[], rfl, nofun⟩
  | @call past e _ hp ih =>
    obtain ⟨new, rfl, hnew⟩ := ih
    refine ⟨e :: new, rfl, fun e' he' => ?_⟩
    obtain rfl | he' := List.mem_cons.1 he'
    · exact ⟨_, hp⟩
    · exact hnew e' he'

theorem mem {e : Event} (hg : Grown P h h') (he : e ∈ h') : e ∈ h ∨ ∃ past, P past e := by
  obtain ⟨new, rfl, hnew⟩ := hg.exists_append
  exact (List.mem_append.1 he).symm.imp_right (hnew e)

/-- Calls may be judged by what is known of the history before all of them. -/
theorem of_since (hg : Grown (Since h P) h h') : Grown P h h' := by
  induction hg with
  | refl => exact .refl
  | call hg he ih => exact .call ih (he hg.suffix)

end Grown

end Growth

/-! ## Kinds of calls -/

/-- A call asked of a statement that does not run it. -/
def Quiet (_ : History) (e : Event) : Prop := e.call.statement?.isSome ∧ e.call.runs? = none

/-- A call that runs no statement. -/
def Idle (_ : History) (e : Event) : Prop := e.call.runs? = none

/-- A call that prepares a statement on a connection or is asked of a statement, and runs none. -/
def Making (c : Option Nat) (_ : History) (e : Event) : Prop :=
  ((∃ c', c = some c' ∧ e.call.prepares c') ∨ e.call.statement?.isSome) ∧ e.call.runs? = none

/-- A call that prepares a statement on a connection or is asked of a statement; what it runs was
made on the connection. -/
def Work (c : Option Nat) (past : History) (e : Event) : Prop :=
  ((∃ c', c = some c' ∧ e.call.prepares c') ∨ e.call.statement?.isSome) ∧
    ∀ k, e.call.runs? = some k → ∃ c', c = some c' ∧ made c' past k

/-- A call on a connection, or of a statement, which was made on the connection if it is run. -/
def On (c : Option Nat) (past : History) (e : Event) : Prop :=
  (∀ c', e.call.connection? = some c' → c = some c') ∧
    ∀ k, e.call.runs? = some k → ∃ c', c = some c' ∧ made c' past k

/-- A call that has nothing to do with a connection. -/
def Foreign (c : Option Nat) (past : History) (e : Event) : Prop :=
  ∀ c', c = some c' → e.call.connection? ≠ some c' ∧
    ∀ k, e.call.runs? = some k → ¬ made c' past k

theorem Quiet.making {c : Option Nat} {past : History} {e : Event} (h : Quiet past e) :
    Making c past e := ⟨.inr h.1, h.2⟩

theorem Making.work {c : Option Nat} {past : History} {e : Event} (h : Making c past e) :
    Work c past e :=
  ⟨h.1, fun k hk => by rw [h.2] at hk; cases hk⟩

theorem Quiet.work {c : Option Nat} {past : History} {e : Event} (h : Quiet past e) :
    Work c past e := h.making.work

theorem Work.connection {c : Option Nat} {past : History} {e : Event} {c' : Nat}
    (h : Work c past e) (hc : e.call.connection? = some c') : c = some c' := by
  obtain ⟨⟨c'', rfl, hp⟩ | hs, -⟩ := h
  · rw [Call.connection?_of_prepares hp] at hc
    exact hc
  · obtain ⟨k, hk⟩ := Option.isSome_iff_exists.1 hs
    rw [Call.connection?_of_statement? hk] at hc
    cases hc

theorem Work.directive {c : Option Nat} {past : History} {e : Event} (h : Work c past e) :
    e.call.directive? = none := by
  obtain ⟨⟨c', -, hp⟩ | hs, -⟩ := h
  · revert hp
    cases e.call <;> simp [Call.prepares, Call.directive?]
  · revert hs
    cases e.call <;> simp [Call.statement?, Call.directive?]

theorem Work.on {c : Option Nat} {past : History} {e : Event} (h : Work c past e) : On c past e :=
  ⟨fun _ hc => h.connection hc, h.2⟩

/-- What is called on a connection has nothing to do with another one, where no statement was made
on both. -/
theorem Grown.foreign {c c' : Option Nat} {h h' : History} (hg : Grown (On c) h h')
    (hc : ∀ n, c' = some n → c ≠ some n)
    (hunique : ∀ n n' k, made n h' k → made n' h' k → n = n') : Grown (Foreign c') h h' := by
  induction hg with
  | refl => exact .refl
  | @call past e hg he ih =>
    have hsuf := List.suffix_cons e past
    refine .call (ih fun n n' k hn hn' => ?_) ?_
    · exact hunique n n' k (made_of_suffix hsuf hn) (made_of_suffix hsuf hn')
    · rintro n rfl
      refine ⟨fun hn => hc n rfl (he.1 n hn), fun k hk hm => ?_⟩
      obtain ⟨n', rfl, hm'⟩ := he.2 k hk
      obtain rfl := hunique n n' k (made_of_suffix hsuf hm) (made_of_suffix hsuf hm')
      exact hc n rfl rfl

end SqlAccess
