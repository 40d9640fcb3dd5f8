import SqlAccess.Database
import SqlAccess.Proofs.Control

/-!
# Opening a connection

Opening a database makes one connection at most, whose number is the next one, and what is called
until it is open is called on that connection (`Opens`). No statement is prepared meanwhile and
no transaction controlled.
-/

namespace SqlAccess

/-- Whether a directive has to do with transactions. -/
def Directive.controls : Directive → Bool
  | readOnly | lockWait _ => false
  | _ => true

/-- A call that makes a connection or is asked of it while it is set up. -/
def Setup (c : Nat) (_ : History) (e : Event) : Prop :=
  e.call.statement? = none ∧ (∀ c', e.call.connection? = some c' → c' = c) ∧
    (∀ c', ¬ e.call.prepares c') ∧ ∀ c' d, e.call.directive? = some (c', d) → d.controls = false

/-- Only connections that were made are called. -/
def Engine.Called (e : Engine) : Prop :=
  ∀ ev ∈ e.history, ∀ c, ev.call.connection? = some c → c < e.connections.next

/-- An engine went on to set up a connection. -/
structure Opens (c : Nat) (e e' : Engine) : Prop where
  grown : Grown (Setup c) e.history e'.history
  next : e.connections.next ≤ e'.connections.next
  numbered : e.Numbered → e'.Numbered
  called : e.Called → e'.Called

variable {c : Nat} {e e' e'' : Engine}

namespace Opens

theorem trans (h₁ : Opens c e e') (h₂ : Opens c e' e'') : Opens c e e'' :=
  ⟨h₁.grown.trans h₂.grown, Nat.le_trans h₁.next h₂.next, h₂.numbered ∘ h₁.numbered,
    h₂.called ∘ h₁.called⟩

theorem of_viewed (h : e.Viewed e') : Opens c e e' := by
  refine ⟨h.history ▸ .refl, Nat.le_of_eq h.keeps.next.symm, h.keeps.numbered, fun hc => ?_⟩
  rw [Engine.Called, h.history, h.connections]
  exact hc

/-- A connection that was made is called. -/
theorem of_calls (h : Calls (Setup c) e e') (hlt : c < e.connections.next) : Opens c e e' := by
  refine ⟨h.grown, Nat.le_of_eq h.keeps.next.symm, h.keeps.numbered, fun hc => ?_⟩
  unfold Engine.Called at hc ⊢
  rw [h.keeps.next]
  have hg := h.grown
  generalize e'.history = h' at hg
  induction hg with
  | refl => exact hc
  | call _ he ih =>
    intro ev hev c' hc'
    obtain rfl | hev := List.mem_cons.1 hev
    · exact he.2.1 c' hc' ▸ hlt
    · exact ih ev hev c' hc'

/-- A call was made that makes a connection, or fails to. -/
theorem of_call {ev : Event} (hs : Setup c e.history ev) (hn : ev.call.connection? = none)
    (hh : e'.history = ev :: e.history) (hc : e.connections.next ≤ e'.connections.next)
    (hk : e'.statements.next = e.statements.next) : Opens c e e' := by
  have back {c' k : Nat} (hm : made c' e'.history k) : made c' e.history k := by
    rw [hh, made, List.any_cons, Bool.or_eq_true, Bool.and_eq_true] at hm
    exact hm.resolve_left fun h => hs.2.2.1 c' h.1
  refine ⟨hh ▸ .one hs, hc, fun hn => ⟨fun c' k hm => ?_, fun c₁ c₂ k h₁ h₂ => ?_⟩,
    fun hcalled ev' hev' c' hc' => ?_⟩
  · rw [hk]
    exact hn.below c' k (back hm)
  · exact hn.unique c₁ c₂ k (back h₁) (back h₂)
  · rw [hh] at hev'
    obtain rfl | hev' := List.mem_cons.1 hev'
    · rw [hn] at hc'
      cases hc'
    · exact Nat.lt_of_lt_of_le (hcalled ev' hev' c' hc') hc

end Opens

/-- A call on a connection that only sets it up. -/
theorem allows_setup {call : Call} (hs : call.statement? = none) (hc : call.connection? = some c)
    (hp : ∀ c', ¬ call.prepares c')
    (hd : ∀ c' d, call.directive? = some (c', d) → d.controls = false) :
    Allows (Setup c) call :=
  fun _ _ => ⟨hs, fun c' h => by rw [hc] at h; exact (Option.some.inj h).symm, hp, hd⟩

theorem allows_close : Allows (Setup c) (.close c) := allows_setup rfl rfl nofun nofun

namespace Engine

/-- The connection that was opened is the next one. -/
theorem openFile_opens {path : Bytes} {flags : Nat} (e : Engine) :
    After (openFile path flags) e fun r e' => Opens e.connections.next e e' ∧
      ∀ c, r.2 = some c → c = e.connections.next ∧ c < e'.connections.next := by
  have setup {outcome : Outcome} : Setup e.connections.next e.history
      ⟨.openFile path flags, outcome⟩ :=
    ⟨rfl, fun _ h => (by cases h), fun _ h => (by cases h), fun _ _ h => (by cases h)⟩
  unfold openFile consult record addConnection
  simp only [After.bind_iff, After.base_get_iff, After.base_modifyGet_iff]
  cases (Rule.consult (Call.openFile path flags).line e.rules).1 with
  | none =>
    refine After.bind_iff.2 <| After.base_modify_iff.2 <| After.bind_iff.2 <|
      After.base_modify_iff.2 <| After.pure_iff.2 ⟨.of_call setup rfl rfl (Nat.le_succ _) rfl, ?_⟩
    rintro c ⟨⟩
    exact ⟨rfl, Nat.lt_succ_self _⟩
  | some f =>
    dsimp only
    split
    · exact After.bind_iff.2 <| After.base_modify_iff.2 <| After.pure_iff.2
        ⟨.of_call setup rfl rfl (Nat.le_refl _) rfl, fun _ hc => by cases hc⟩
    · refine After.bind_iff.2 <| After.base_modify_iff.2 <| After.bind_iff.2 <|
        After.base_modify_iff.2 <| After.pure_iff.2 ⟨.of_call setup rfl rfl (Nat.le_succ _) rfl, ?_⟩
      rintro c ⟨⟩
      exact ⟨rfl, Nat.lt_succ_self _⟩

theorem init_opens (e : Engine) : After init e fun r e' => Opens e.connections.next e e' ∧
    ∀ c, r = some c → c = e.connections.next ∧ c < e'.connections.next := by
  have setup {outcome : Outcome} : Setup e.connections.next e.history ⟨.init, outcome⟩ :=
    ⟨rfl, nofun, nofun, nofun⟩
  unfold init
  refine After.bind_iff.2 <| After.base_get_iff.2 <|
    After.seq (perform_after e) fun r e₁ ⟨hh, hc, hs⟩ => ?_
  have hc := congrArg Table.next hc
  have hs := congrArg Table.next hs
  cases r with
  | some f => exact After.pure_iff.2 ⟨.of_call setup rfl hh (Nat.le_of_eq hc.symm) hs, nofun⟩
  | none =>
    refine After.bind_iff.2 <| After.base_modify_iff.2 <| After.pure_iff.2
      ⟨.of_call setup rfl hh (Nat.le_succ_of_le (Nat.le_of_eq hc.symm)) hs, ?_⟩
    rintro c ⟨⟩
    exact ⟨rfl, hc ▸ Nat.lt_succ_self _⟩

end Engine

/-! ## The backends -/

/-- How opening a connection goes: if there is one, it is the next. -/
def Opened (e : Engine) (r : Except Fault (Option Nat)) (e' : Engine) : Prop :=
  Opens e.connections.next e e' ∧
    ∀ c, r = .ok (some c) → c = e.connections.next ∧ c < e'.connections.next

theorem makes_setup {call : Call} (hs : call.statement? = none) (hc : call.connection? = some c)
    (hp : ∀ c', ¬ call.prepares c')
    (hd : ∀ c' d, call.directive? = some (c', d) → d.controls = false) :
    Makes (Setup c) (Engine.performSurely call) :=
  Engine.makes_performSurely (allows_setup hs hc hp hd)

theorem Sqlite.fault?_still {c : Option Nat} {code : Int32} {action : Bytes} (e : Engine) :
    After (fault? c code action) e fun _ e' => e.Viewed e' := by
  cases c <;> exact ⟨rfl, rfl, rfl⟩

theorem Sqlite.connect_opened {path : Bytes} {readOnly : Bool} {timeout : Int32} (e : Engine) :
    After (connect path readOnly timeout).run e (Opened e) := by
  unfold connect
  refine After.try_bind_iff.2 <| After.try_lift_iff.2 <|
    (Engine.openFile_opens e).mono ?_
  rintro ⟨code, c⟩ e₁ ⟨h₁, hc⟩
  dsimp only at hc ⊢
  split
  · cases c with
    | none => exact After.try_pure_iff.2 ⟨h₁, fun _ hc => by cases hc⟩
    | some c =>
      obtain ⟨rfl, hlt⟩ := hc c rfl
      have opened {e₂ : Engine} (h₂ : Calls (Setup e.connections.next) e₁ e₂) :
          Opened e (.ok (some e.connections.next)) e₂ := by
        refine ⟨h₁.trans (.of_calls h₂ hlt), ?_⟩
        rintro _ ⟨⟩
        exact ⟨rfl, h₂.keeps.next ▸ hlt⟩
      have extended : Makes (Setup e.connections.next) (Engine.performSurely
        (.extendedCodes e.connections.next)) :=
        makes_setup rfl rfl (fun _ h => by cases h) (fun _ _ h => by cases h)
      have busy : Makes (Setup e.connections.next) (Engine.performSurely
        (.busyTimeout e.connections.next timeout)) :=
        makes_setup rfl rfl (fun _ h => by cases h) (fun _ _ h => by cases h)
      refine After.try_bind_iff.2 <| After.try_lift_iff.2 <| (extended e₁).mono fun _ e₂ h₂ => ?_
      dsimp only
      split
      · exact After.try_bind_iff.2 <| After.try_lift_iff.2 <| (busy e₂).mono
          fun _ e₃ h₃ => After.try_pure_iff.2 (opened (h₂.trans h₃))
      · exact After.try_pure_iff.2 (opened h₂)
  · -- what was opened is closed again, and there is no connection
    have given {f : Option Fault} {e₃ : Engine} (h₃ : Opens e.connections.next e e₃) :=
      After.try_fault (m := EngineM) (f := f) (a := (none : Option Nat)) (Q := Opened e)
        (fun _ => ⟨h₃, fun _ hc => by cases hc⟩) fun _ _ => ⟨h₃, fun _ hc => by cases hc⟩
    refine After.try_call (fault?_still e₁) fun f e₂ h₂ => ?_
    have hviewed : Opens e.connections.next e e₂ := h₁.trans (.of_viewed h₂)
    cases c with
    | none => exact given hviewed
    | some c =>
      obtain ⟨rfl, hlt⟩ := hc c rfl
      exact After.try_call (Engine.makes_closeFile allows_close e₂) fun _ e₃ h₃ =>
        given (hviewed.trans (.of_calls h₃ (h₂.keeps.next ▸ hlt)))

theorem Maria.makes_setUp {dsn : Dsn} {readOnly : Bool} {timeout : Int32} :
    Makes (Setup c) (setUp c dsn readOnly timeout).run := by
  have store : Allows (Setup c) (.store c) := allows_setup rfl rfl nofun nofun
  have query {d : Directive} (hd : d.controls = false) : Makes (Setup c) (exec c d).run := by
    refine makes_exec (allows_setup rfl rfl nofun ?_) store
    rintro _ _ ⟨⟩
    exact hd
  unfold setUp
  refine makes_try_bind (makes_try_onEngine <| Engine.makes_onConnection <|
    allows_setup rfl rfl nofun nofun) fun _ => makes_try_bind makes_checkConnection fun _ => ?_
  refine makes_try_bind (makes_try_onEngine <| Engine.makes_onConnection <|
    allows_setup rfl rfl nofun nofun) fun _ => makes_try_bind makes_checkConnection fun _ => ?_
  have waits : Makes (Setup c) (if 0 < timeout then
      exec c (.lockWait ((timeout + 999) / 1000).toInt) else pure () : EngineTry Unit).run := by
    split
    · exact query rfl
    · exact makes_try_pure _
  cases readOnly with
  | true => exact makes_try_bind (query (d := .readOnly) rfl) fun _ => waits
  | false => exact waits

theorem Maria.connect_opened {dsn : Bytes} {readOnly : Bool} {timeout : Int32} (e : Engine) :
    After (connect dsn readOnly timeout).run e (Opened e) := by
  unfold connect
  refine After.try_bind_iff.2 <| After.try_lift_iff.2 <|
    (Engine.init_opens e).mono fun c e₁ ⟨h₁, hc⟩ => ?_
  dsimp only
  cases c with
  | none => exact After.throw_iff.2 ⟨h₁, nofun⟩
  | some c =>
    obtain ⟨rfl, hlt⟩ := hc c rfl
    refine After.try_bind_iff.2 <| After.try_lift_iff.2 <| (makes_setUp e₁).mono fun r e₂ h₂ => ?_
    cases r with
    | ok _ =>
      refine After.try_pure_iff.2 ⟨h₁.trans (.of_calls h₂ hlt), ?_⟩
      rintro _ ⟨⟩
      exact ⟨rfl, h₂.keeps.next ▸ hlt⟩
    | error f =>
      exact After.try_bind_iff.2 <| After.try_lift_iff.2 <|
        (Engine.makes_closeConnection allows_close e₂).mono fun _ e₃ h₃ =>
          After.throw_iff.2 ⟨h₁.trans (.of_calls (h₂.trans h₃) hlt), nofun⟩

theorem Backend.connect_opened {b : Backend} {dsn : Bytes} {readOnly : Bool} {timeout : Int32}
    (e : Engine) : After (b.connect dsn readOnly timeout).run e (Opened e) := by
  cases b with
  | sqlite | strict => exact Sqlite.connect_opened e
  | maria => exact Maria.connect_opened e

theorem Backend.info_viewed {b : Backend} {c : Option Nat} (e : Engine) :
    After (b.info c) e fun _ e' => e.Viewed e' := by
  cases b with
  | sqlite | strict => exact ⟨rfl, rfl, rfl⟩
  | maria =>
    cases c with
    | none => exact ⟨rfl, rfl, rfl⟩
    | some c => exact (Engine.viewConnection_after e).mono fun _ _ h => h.2

/-- A database that was opened has nothing in it; its connection, if it has one, is new. -/
theorem Database.connect_opened {b : Backend} {dsn : Bytes} {options : Options} {w : World} :
    After (connect b dsn options) w fun r w' =>
      Opens w.engine.connections.next w.engine w'.engine ∧ ∀ d, r = .ok d → ∃ l, d = { link := l } ∧
        ∀ c, l.connection = some c →
          c = w.engine.connections.next ∧ c < w'.engine.connections.next := by
  unfold connect
  refine After.bind_iff.2 <| After.onEngine_iff.2 <|
    (Backend.connect_opened w.engine).mono fun r e₁ ⟨h₁, hc⟩ => ?_
  cases r with
  | error f => exact ⟨h₁, fun _ hd => by cases hd⟩
  | ok c =>
    refine After.bind_iff.2 <| After.onEngine_iff.2 <| (Backend.info_viewed e₁).mono
      fun info e₂ h₂ => After.bind_iff.2 <| After.writeLog_still.mono fun _ w₂ hw =>
        After.pure_iff.2 ?_
    rw [hw]
    refine ⟨h₁.trans (.of_viewed h₂), ?_⟩
    rintro _ ⟨⟩
    refine ⟨_, rfl, fun c' hc' => ?_⟩
    dsimp only at hc' ⊢
    rw [h₂.connections]
    exact hc c' (by rw [hc'])

end SqlAccess
