import SqlAccess.Proofs.Calls.Backend

/-!
# Running a directive

`Asked c d h ok h'` says how running the directive `d` on the connection `c` goes: with the
history `h` before it and `h'` after it, `ok` tells whether the library counts it as done. It
does not count as done where there is no connection, SQLite's failures count as done if their code
has no kind, and MariaDB may fail to hand over a result that has no columns.
-/

namespace SqlAccess

/-- A directive was run on a connection, and the library counts it as done or not. -/
inductive Asked : Option Nat → Directive → History → Bool → History → Prop
  | nowhere {d : Directive} {h : History} : Asked none d h false h
  | exec {c : Nat} {d : Directive} {h : History} : Asked (some c) d h true (⟨.exec c d, .done⟩ :: h)
  | execFailed {c : Nat} {d : Directive} {h : History} {code : Int32} :
      Asked (some c) d h (Sqlite.kindOf? code).isNone (⟨.exec c d, .failed code none⟩ :: h)
  | queryFailed {c : Nat} {d : Directive} {h : History} {code : Int32} :
      Asked (some c) d h false (⟨.query c d, .failed code none⟩ :: h)
  | query {c : Nat} {d : Directive} {h : History} {columns : Nat} : Asked (some c) d h true
      (⟨.store c, .done⟩ :: ⟨.query c d, .answered columns⟩ :: h)
  /-- Taking the result fails. -/
  | storeFailed {c : Nat} {d : Directive} {h : History} {columns : Nat} {code : Int32} {ok : Bool} :
      (columns = 0 → ok) →
      Asked (some c) d h ok (⟨.store c, .failed code none⟩ :: ⟨.query c d, .answered columns⟩ :: h)

variable {c : Option Nat} {d : Directive} {h h' : History} {ok : Bool}

/-- The work since a savepoint was to be undone, and if that counts as done the savepoint was to
be given up. -/
inductive Rewound (c : Option Nat) (n : Nat) (h : History) : History → Prop
  | refused {h' : History} : Asked c (.rollbackTo n) h false h' → Rewound c n h h'
  | done {h₁ h' : History} {ok : Bool} : Asked c (.rollbackTo n) h true h₁ →
      Asked c (.release n) h₁ ok h' → Rewound c n h h'

/-- A call that runs a directive on a connection, or takes its result. -/
def Controls (c : Nat) (d : Directive) (_ : History) (e : Event) : Prop :=
  e.call = .exec c d ∨ e.call = .query c d ∨ e.call = .store c

theorem Asked.grown (ha : Asked c d h ok h') :
    Grown (fun past e => ∃ n, c = some n ∧ Controls n d past e) h h' := by
  cases ha with
  | nowhere => exact .refl
  | exec | execFailed => exact .one ⟨_, rfl, .inl rfl⟩
  | queryFailed => exact .one ⟨_, rfl, .inr (.inl rfl)⟩
  | query | storeFailed =>
    exact .call (.one ⟨_, rfl, .inr (.inl rfl)⟩) ⟨_, rfl, .inr (.inr rfl)⟩

theorem Asked.suffix (ha : Asked c d h ok h') : h <:+ h' := ha.grown.suffix

theorem Rewound.suffix {n : Nat} (hr : Rewound c n h h') : h <:+ h' := by
  cases hr with
  | refused ha => exact ha.suffix
  | done ha hb => exact ha.suffix.trans hb.suffix

/-! ## The backends -/

theorem Sqlite.failureText_still {code : Int32} (e : Engine) :
    After (failureText c code) e fun _ e' => e.Viewed e' := by
  cases c <;> exact ⟨rfl, rfl, rfl⟩

theorem Engine.exec_after {n : Nat} (e : Engine) : After (exec n d) e fun r e' =>
    e.Keeps e' ∧ ((r.1 = 0 ∧ e'.history = ⟨.exec n d, .done⟩ :: e.history) ∨
      e'.history = ⟨.exec n d, .failed r.1 none⟩ :: e.history) := by
  unfold exec
  refine After.seq (perform_after e) fun r e₁ ⟨hh, hc, hs⟩ => ?_
  have hs := Nat.le_of_eq (congrArg Table.next hs.symm)
  cases r with
  | none => exact After.pure_iff.2 ⟨.of_call (congrArg Table.next hc) hs hh nofun, .inl ⟨rfl, hh⟩⟩
  | some f =>
    exact After.bind_iff.2 <| After.base_modify_iff.2 <| After.pure_iff.2
      ⟨.of_call (congrArg Table.next hc :) hs hh nofun, .inr hh⟩

theorem Sqlite.control_asked (e : Engine) : After (control c d).run e fun r e' =>
    Asked c d e.history r.isOk e'.history ∧ e.Keeps e' := by
  unfold control
  cases c with
  | none =>
    unfold check fault?
    rw [if_pos (by decide)]
    refine After.try_bind_iff.2 <| After.try_lift_iff.2 <| After.seq (failureText_still e) ?_
    intro _ e₁ h₁
    refine After.pure_iff.2 (After.throw_iff.2 ⟨?_, h₁.keeps⟩)
    rw [h₁.history]
    exact .nowhere
  | some n =>
    refine After.try_bind_iff.2 <| After.try_lift_iff.2 <|
      (Engine.exec_after e).mono fun (code, message) e₁ ⟨hn, hh⟩ => ?_
    dsimp only at hh ⊢
    split
    · next hcode =>
      obtain ⟨rfl, -⟩ | hh := hh
      · exact absurd rfl hcode
      refine After.try_call (failureText_still e₁) fun text e₂ h₂ => ?_
      have hn₂ : e.Keeps e₂ := hn.trans h₂.keeps
      have asked : Asked (some n) d e.history (kindOf? code).isNone e₂.history := by
        rw [h₂.history, hh]
        exact .execFailed
      cases hk : kindOf? code with
      | none =>
        rw [hk] at asked
        exact After.try_pure_iff.2 ⟨asked, hn₂⟩
      | some kind =>
        rw [hk] at asked
        exact After.throw_iff.2 ⟨asked, hn₂⟩
    · next hcode =>
      obtain rfl : code = 0 := Decidable.not_not.1 hcode
      obtain ⟨-, hh⟩ | hh := hh
      · exact After.try_pure_iff.2 ⟨hh ▸ .exec, hn⟩
      · have asked : Asked (some n) d e.history (kindOf? 0).isNone
          (⟨.exec n d, .failed 0 none⟩ :: e.history) := .execFailed
        exact After.try_pure_iff.2 ⟨hh ▸ asked, hn⟩

/-- The latest result of a connection has so many columns, if the connection is open. -/
def Engine.HasColumns (e : Engine) (n columns : Nat) : Prop :=
  ∀ s, e.connections.find? n = some s → s.columns = columns

theorem Engine.onConnection_after {n : Nat} {call : Call} (e : Engine) :
    After (onConnection n call) e fun ok e' => e.Keeps e' ∧
      ((ok ∧ e'.history = ⟨call, .done⟩ :: e.history) ∨
        (ok = false ∧ ∃ code, e'.history = ⟨call, .failed code none⟩ :: e.history)) ∧
      ∀ columns, e.HasColumns n columns → e'.HasColumns n columns := by
  unfold onConnection
  refine After.seq (perform_after e) fun r e₁ ⟨hh, hc, hs⟩ => ?_
  have hs := Nat.le_of_eq (congrArg Table.next hs.symm)
  cases r with
  | none =>
    exact After.pure_iff.2 ⟨.of_call (congrArg Table.next hc) hs hh nofun, .inl ⟨rfl, hh⟩,
      fun _ hcol s hs => hcol s (hc ▸ hs)⟩
  | some f =>
    refine After.bind_iff.2 <| After.base_modify_iff.2 <| After.pure_iff.2
      ⟨.of_call (congrArg Table.next hc :) hs hh nofun, .inr ⟨rfl, f.code, hh⟩,
        fun columns hcol s hs => ?_⟩
    obtain ⟨-, s₀, hs₀, rfl⟩ | ⟨hn, -⟩ := Table.find?_modify_eq_some.1 hs
    · exact hcol s₀ (hc ▸ hs₀)
    · exact absurd rfl hn

theorem Engine.query_after {n : Nat} (e : Engine) :
    After (query n d) e fun ok e' => e.Keeps e' ∧
      ((ok ∧ ∃ columns, e'.history = ⟨.query n d, .answered columns⟩ :: e.history ∧
          e'.HasColumns n columns) ∨
        (ok = false ∧ ∃ code, e'.history = ⟨.query n d, .failed code none⟩ :: e.history)) := by
  unfold query
  refine After.bind_iff.2 <| After.bind_iff.2 <| After.base_get_iff.2 <| After.pure_iff.2 <|
    After.seq (perform_after e) fun r e₁ ⟨hh, hc, hs⟩ => ?_
  have hs := Nat.le_of_eq (congrArg Table.next hs.symm)
  cases r with
  | none =>
    refine After.bind_iff.2 <| After.base_modify_iff.2 <| After.pure_iff.2
      ⟨.of_call (congrArg Table.next hc :) hs hh nofun, .inl ⟨rfl, _, hh, fun s hs => ?_⟩⟩
    obtain ⟨-, s₀, -, rfl⟩ | ⟨hn, -⟩ := Table.find?_modify_eq_some.1 hs
    · rfl
    · exact absurd rfl hn
  | some f =>
    exact After.bind_iff.2 <| After.base_modify_iff.2 <| After.pure_iff.2
      ⟨.of_call (congrArg Table.next hc :) hs hh nofun, .inr ⟨rfl, f.code, hh⟩⟩

theorem Maria.checkConnection_after {n : Nat} {ok : Bool} {action : Bytes} (e : Engine) :
    After (checkConnection n ok action).run e fun r e' => r.isOk = ok ∧ e.Viewed e' := by
  unfold checkConnection
  cases ok with
  | true => exact After.try_pure_iff.2 ⟨rfl, rfl, rfl, rfl⟩
  | false => exact After.try_bind_iff.2 (After.try_lift_iff.2 ⟨rfl, rfl, rfl, rfl⟩)

theorem Maria.control_asked (e : Engine) : After (control c d).run e fun r e' =>
    Asked c d e.history r.isOk e'.history ∧ e.Keeps e' := by
  unfold control
  cases c with
  | none => exact After.throw_iff.2 ⟨.nowhere, .refl⟩
  | some n =>
    unfold exec
    refine After.try_bind_iff.2 <| After.try_lift_iff.2 <|
      (Engine.query_after e).mono fun ok e₁ ⟨hn, hq⟩ => ?_
    refine After.try_seq (checkConnection_after e₁) ?_ ?_
    · rintro _ e₂ ⟨hok, h₂⟩
      obtain ⟨-, columns, hq, hcol⟩ | ⟨hfalse, -⟩ := hq
      · refine After.try_call (Engine.onConnection_after e₂) fun stored e₃ ⟨hn₃, hs, hkeep⟩ => ?_
        refine After.try_call (Engine.viewConnection_after e₃) fun s e₄ ⟨hview, h₄⟩ => ?_
        refine (checkConnection_after e₄).mono fun r e₅ ⟨hr, h₅⟩ => ?_
        refine ⟨?_, hn.trans (h₂.keeps.trans (hn₃.trans (h₄.keeps.trans h₅.keeps)))⟩
        rw [h₂.history, hq] at hs
        rw [h₅.history, h₄.history]
        obtain ⟨hs, hh⟩ | ⟨-, code, hh⟩ := hs
        · rw [hr, hs, hh]
          exact .query
        · rw [hh]
          refine .storeFailed fun hzero => ?_
          -- a connection that is not open counts as one without columns
          have hnone : s.columns = 0 := by
            rw [hview]
            cases hf : e₃.connections.find? n with
            | none => rfl
            | some s =>
              refine (hkeep columns (fun s hs => hcol s ?_) s hf).trans hzero
              rwa [h₂.connections] at hs
          rw [hr, hnone]
          simp
      · rw [hfalse] at hok
        cases hok
    · rintro f e₂ ⟨hok, h₂⟩
      obtain ⟨hq, -⟩ | ⟨-, code, hq⟩ := hq
      · rw [hq] at hok
        cases hok
      · refine ⟨?_, hn.trans h₂.keeps⟩
        rw [h₂.history, hq]
        exact .queryFailed

theorem Backend.control_asked (b : Backend) (e : Engine) : After (b.control c d).run e fun r e' =>
    Asked c d e.history r.isOk e'.history ∧ e.Keeps e' := by
  cases b with
  | sqlite | strict => exact Sqlite.control_asked e
  | maria => exact Maria.control_asked e

theorem Backend.rollbackTo_rewound (b : Backend) (n : Nat) (e : Engine) :
    After (b.rollbackTo c n).run e fun _ e' =>
      Rewound c n e.history e'.history ∧ e.Keeps e' := by
  unfold rollbackTo
  refine After.try_seq (b.control_asked e) (fun _ e₁ ⟨h₁, hn⟩ => ?_) fun _ _ ⟨h₁, hn⟩ =>
    ⟨.refused h₁, hn⟩
  exact (b.control_asked e₁).mono fun _ _ ⟨h₂, hn₂⟩ => ⟨.done h₁ h₂, hn.trans hn₂⟩

end SqlAccess
