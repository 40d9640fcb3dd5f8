import SqlAccess.Proofs.Numeral
import SqlAccess.Proofs.Opening

/-!
# Connecting by a data source name

A data source name is cut at its first four colons. So one that was put together of five fields is
taken apart into these, whether or not the last one holds colons (`Dsn.splitAtMost_encode`), and one
with fewer than four is cut at all of them (`Dsn.splitAtMost_eq_splitOn`).

If the engine makes a connection ready, then right behind that call a server is asked, once, to
connect, and what it is asked is what the fields say (`Maria.fields_dialled`).
-/

namespace SqlAccess

namespace Dsn

variable {sep b : UInt8} {text field rest : Bytes} {cuts : Nat} {port : UInt32}

/-! ## Cutting a name -/

theorem splitAtMost_zero (sep : UInt8) (text : Bytes) : splitAtMost sep 0 text = [text] := by
  cases text <;> rfl

theorem splitAtMost_ne_nil (sep : UInt8) (cuts : Nat) (text : Bytes) :
    splitAtMost sep cuts text ≠ [] := by
  fun_induction splitAtMost sep cuts text <;> simp_all

theorem splitAtMost_cons_of_ne (hb : b ≠ sep) (cuts : Nat) (text : Bytes) :
    splitAtMost sep cuts (b :: text) = (splitAtMost sep cuts text).modifyHead (b :: ·) := by
  cases cuts with
  | zero => simp [splitAtMost_zero]
  | succ cuts =>
    obtain ⟨f, fs, hsplit⟩ := List.exists_cons_of_ne_nil (splitAtMost_ne_nil sep (cuts + 1) text)
    simp [splitAtMost, hb, hsplit]

/-- A field in front of a separator is cut off. -/
theorem splitAtMost_append_cons (h : sep ∉ field) (cuts : Nat) (rest : Bytes) :
    splitAtMost sep (cuts + 1) (field ++ sep :: rest) = field :: splitAtMost sep cuts rest := by
  induction field with
  | nil => simp [splitAtMost]
  | cons b field ih =>
    obtain ⟨hb, hfield⟩ := not_or.1 (mt List.mem_cons.2 h)
    rw [List.cons_append, splitAtMost_cons_of_ne (Ne.symm hb), ih hfield]
    rfl

/-- A text is cut at every separator if there are no more of them than cuts. -/
theorem splitAtMost_eq_splitOn (h : text.count sep ≤ cuts) :
    splitAtMost sep cuts text = text.splitOn sep := by
  induction text generalizing cuts with
  | nil => cases cuts <;> rfl
  | cons b text ih =>
    rw [List.splitOn_cons_eq_if_modifyHead]
    by_cases hb : b = sep
    · subst hb
      rw [List.count_cons_self] at h
      obtain ⟨k, rfl⟩ : ∃ k, cuts = k + 1 := ⟨cuts - 1, by omega⟩
      simp [splitAtMost, ih (Nat.le_of_succ_le_succ h)]
    · rw [List.count_cons_of_ne hb] at h
      simp [splitAtMost_cons_of_ne hb, hb, ih h]

theorem splitAtMost_encode {host port user password : Bytes}
    (h : ∀ field ∈ [host, port, user, password], 0x3A ∉ field) (database : Bytes) :
    splitAtMost 0x3A 4 (encode host port user password database) =
      [host, port, user, password, database] := by
  simp only [List.forall_mem_cons] at h
  obtain ⟨hhost, hport, huser, hpassword, -⟩ := h
  have hencode : encode host port user password database =
      host ++ 0x3A :: (port ++ 0x3A :: (user ++ 0x3A :: (password ++ 0x3A :: database))) := by
    simp [encode, Bytes.joinWith]
  rw [hencode, splitAtMost_append_cons hhost, splitAtMost_append_cons hport,
    splitAtMost_append_cons huser, splitAtMost_append_cons hpassword, splitAtMost_zero]

/-! ## Reading the fields -/

/-- The port that a field stands for: the default one if it is empty, or else the low half of the
number that it starts with, and zero if it starts with none. -/
inductive NamesPort : Bytes → UInt32 → Prop
  | default : NamesPort [] 3306
  | number {field digits : Bytes} {negative : Bool} {port : UInt32} :
      Numeral.Leads field negative digits →
      port.toNat = Numeral.unsigned negative (Numeral.value digits) % 2 ^ 32 → NamesPort field port
  | none {field : Bytes} : field ≠ [] → (∀ negative digits, ¬Numeral.Leads field negative digits) →
      NamesPort field 0

/-- What the fields of a data source name say. -/
structure Says (host port user password database : Bytes) (d : Dsn) : Prop where
  host : d.host = if host = [] then ("localhost" : Bytes) else host
  port : NamesPort port d.port
  user : d.user = if user = [] then ("root" : Bytes) else user
  password : d.password = if password = [] then none else some password
  database : d.database = if database = [] then none else some database

theorem toNat_portOf (h : field ≠ []) : (portOf field).toNat =
    Numeral.unsigned (Numeral.integer field).1 (Numeral.integer field).2 % 2 ^ 32 := by
  rw [portOf, if_neg (by simp [h]), UInt64.toNat_toUInt32, Numeral.toNat_readUnsigned]

theorem portOf_of_not_leads (hne : field ≠ [])
    (h : ∀ negative digits, ¬Numeral.Leads field negative digits) : portOf field = 0 := by
  rw [← UInt32.toNat_inj, toNat_portOf hne, Numeral.integer_of_not_leads h, Numeral.unsigned_zero]
  rfl

theorem namesPort_iff : NamesPort field port ↔ port = portOf field := by
  constructor
  · intro h
    cases h with
    | default => rfl
    | number hleads hport =>
      rw [← UInt32.toNat_inj, hport, toNat_portOf hleads.ne_nil, Numeral.integer_of_leads hleads]
    | none hne hnone => exact (portOf_of_not_leads hne hnone).symm
  · rintro rfl
    by_cases hne : field = []
    · subst hne
      exact .default
    by_cases hleads : ∃ negative digits, Numeral.Leads field negative digits
    · obtain ⟨negative, digits, hleads⟩ := hleads
      refine .number hleads ?_
      rw [toNat_portOf hne, Numeral.integer_of_leads hleads]
    · have hnone : ∀ negative digits, ¬Numeral.Leads field negative digits :=
        fun negative digits h => hleads ⟨negative, digits, h⟩
      rw [portOf_of_not_leads hne hnone]
      exact .none hne hnone

/-- What is read is what the fields say that a name is cut into. -/
theorem says_parse (text : Bytes) :
    Says ((splitAtMost 0x3A 4 text).getD 0 []) ((splitAtMost 0x3A 4 text).getD 1 [])
      ((splitAtMost 0x3A 4 text).getD 2 []) ((splitAtMost 0x3A 4 text).getD 3 [])
      ((splitAtMost 0x3A 4 text).getD 4 []) (parse text) where
  host := by simp [parse, orElse]
  port := namesPort_iff.2 rfl
  user := by simp [parse, orElse]
  password := by simp [parse, nonempty?]
  database := by simp [parse, nonempty?]

theorem Says.eq {host port user password database : Bytes} {d d' : Dsn}
    (h : Says host port user password database d) (h' : Says host port user password database d') :
    d = d' := by
  have hport : d.port = d'.port := (namesPort_iff.1 h.port).trans (namesPort_iff.1 h'.port).symm
  obtain ⟨hhost, -, huser, hpassword, hdatabase⟩ := h
  rw [← h'.host] at hhost
  rw [← h'.user] at huser
  rw [← h'.password] at hpassword
  rw [← h'.database] at hdatabase
  cases d
  cases d'
  simp_all

/-- Fields say one thing. -/
theorem Says.iff_eq {host port user password database : Bytes} {d d' : Dsn}
    (h : Says host port user password database d) :
    Says host port user password database d' ↔ d' = d :=
  ⟨fun h' => h'.eq h, fun h' => h' ▸ h⟩

end Dsn

/-! ## Asking a server -/

/-- Whether a call asks a server to connect. -/
def Call.dials : Call → Bool
  | connect _ _ => true
  | _ => false

/-- A call that asks no server to connect. -/
def NoDial (_ : History) (e : Event) : Prop := e.call.dials = false

/-- The failure in which the rules of an engine let a call end that is made next, if they do. -/
def Engine.failure? (e : Engine) (call : Call) : Option Failure :=
  (Rule.consult call.line e.rules).1

/-- How it ends when a server is to be dialled. An engine whose rules do not let `init` fail makes
the next connection ready and asks it at once to connect; it asks no other, and what comes out is
this connection, and only if it did connect. An engine that cannot make a connection ready asks
none, and that is the fault. -/
inductive Dialled (d : Dsn) (e : Engine) (r : Except Fault (Option Nat)) (e' : Engine) : Prop
  | asked {o : Outcome} (hready : e.failure? .init = none)
      (hasked : Grown NoDial (⟨.connect e.connections.next d, o⟩ ::
        ⟨.init, .created e.connections.next⟩ :: e.history) e'.history)
      (hanswer : ∀ c, r = .ok c → c = some e.connections.next ∧ o = .done)
  | refused {f : Failure} (hrefused : e.failure? .init = some f)
      (hhistory : e'.history = ⟨.init, .failed f.code none⟩ :: e.history)
      (hanswer : r = .error .connectionInit)

/-- A server is asked whenever a connection can be made ready. -/
theorem Dialled.mem_history {d : Dsn} {e e' : Engine} {r : Except Fault (Option Nat)}
    (h : Dialled d e r e') (hready : e.failure? .init = none) :
    ∃ o, ⟨.connect e.connections.next d, o⟩ ∈ e'.history ∧
      ∀ c, r = .ok c → c = some e.connections.next ∧ o = .done := by
  cases h with
  | asked _ hasked hanswer => exact ⟨_, hasked.suffix.subset (List.mem_cons_self ..), hanswer⟩
  | refused hrefused => cases hready.symm.trans hrefused

theorem Engine.init_after (e : Engine) : After init e fun r e' =>
    (e.failure? .init = none ∧ r = some e.connections.next ∧
      e'.history = ⟨.init, .created e.connections.next⟩ :: e.history) ∨
    ∃ f, e.failure? .init = some f ∧ r = none ∧
      e'.history = ⟨.init, .failed f.code none⟩ :: e.history := by
  have answers : After (perform .init (.created e.connections.next)) e fun r _ =>
      r = e.failure? .init := rfl
  unfold init
  refine After.bind_iff.2 <| After.base_get_iff.2 <|
    After.seq ((perform_after e).and answers) ?_
  rintro r e₁ ⟨⟨hh, -⟩, hr⟩
  cases r with
  | some f => exact After.pure_iff.2 (.inr ⟨f, hr.symm, rfl, hh⟩)
  | none =>
    exact After.bind_iff.2 <| After.base_modify_iff.2 <| After.pure_iff.2
      (.inl ⟨hr.symm, rfl, hh⟩)

namespace Maria

variable {c : Nat} {d : Dsn} {readOnly : Bool} {timeout : Int32}

theorem allows_noDial {call : Call} (h : call.dials = false) : Allows NoDial call := fun _ _ => h

theorem makes_exec_noDial {directive : Directive} : Makes NoDial (exec c directive).run :=
  makes_exec (allows_noDial rfl) (allows_noDial rfl)

theorem makes_waiting_noDial : Makes NoDial (if 0 < timeout then
    exec c (.lockWait ((timeout + 999) / 1000).toInt) else pure () : EngineTry Unit).run := by
  split
  · exact makes_exec_noDial
  · exact makes_try_pure _

/-- Setting a connection up starts by asking the server, does so once, and fails if the server
refuses. -/
theorem setUp_asks (e : Engine) : After (setUp c d readOnly timeout).run e fun r e' =>
    ∃ o, Grown NoDial (⟨.connect c d, o⟩ :: e.history) e'.history ∧ (r.isOk → o = .done) := by
  unfold setUp Engine.connect
  refine After.try_call (Engine.onConnection_after e) ?_
  rintro ok e₁ ⟨-, hasked, -⟩
  obtain ⟨o, h₁, ho⟩ : ∃ o, e₁.history = ⟨.connect c d, o⟩ :: e.history ∧ (ok → o = .done) := by
    rcases hasked with ⟨-, h₁⟩ | ⟨hrefused, code, h₁⟩
    · exact ⟨_, h₁, fun _ => rfl⟩
    · exact ⟨_, h₁, fun hok => absurd (hrefused.symm.trans hok) Bool.false_ne_true⟩
  refine After.try_seq (checkConnection_after e₁) ?_ ?_
  · rintro _ e₂ ⟨hok, h₂⟩
    rw [← h₂.history] at h₁
    refine After.mono (P := fun _ e' => Calls NoDial e₂ e') ?_ fun _ e' h =>
      ⟨o, h₁ ▸ h.grown, fun _ => ho hok.symm⟩
    have charset : Makes NoDial (Engine.charset c) := Engine.makes_onConnection (allows_noDial rfl)
    refine (makes_try_bind (makes_try_onEngine charset) fun _ =>
      makes_try_bind makes_checkConnection fun _ => ?_) e₂
    cases readOnly with
    | true => exact makes_try_bind makes_exec_noDial fun _ => makes_waiting_noDial
    | false => exact makes_waiting_noDial
  · rintro f e₂ ⟨-, h₂⟩
    rw [← h₂.history] at h₁
    exact ⟨o, h₁ ▸ .refl, nofun⟩

theorem connect_dials (text : Bytes) (e : Engine) :
    After (connect text readOnly timeout).run e (Dialled (Dsn.parse text) e) := by
  unfold connect
  refine After.try_call (Engine.init_after e) ?_
  rintro r e₁ (⟨hready, rfl, h₁⟩ | ⟨f, hrefused, rfl, h₁⟩)
  · refine After.try_call (setUp_asks e₁) ?_
    rintro r e₂ ⟨o, h₂, ho⟩
    rw [h₁] at h₂
    cases r with
    | ok _ =>
      refine After.try_pure_iff.2 (.asked hready h₂ ?_)
      rintro _ ⟨⟩
      exact ⟨rfl, ho rfl⟩
    | error f =>
      have closes : Makes NoDial (Engine.closeConnection e.connections.next) :=
        Engine.makes_closeConnection (allows_noDial rfl)
      exact After.try_call (closes e₂) fun _ e₃ h₃ =>
        After.throw_iff.2 (.asked hready (h₂.trans h₃.grown) nofun)
  · exact After.throw_iff.2 (.refused hrefused h₁ rfl)

/-- Five fields, of which the last one alone may hold colons, say one thing to which a server can be
asked to connect, and by the name that is put together of them it is asked for just that. The same
holds of a name with fewer than four colons and the fields between them, where those that are missing
count as empty. -/
theorem fields_dialled (readOnly : Bool) (timeout : Int32) (e : Engine) :
    (∀ host port user password database : Bytes,
      (∀ field ∈ [host, port, user, password], 0x3A ∉ field) →
      ∃ d, (∀ d', Dsn.Says host port user password database d' ↔ d' = d) ∧
        After (connect (Dsn.encode host port user password database) readOnly timeout).run e
          (Dialled d e)) ∧
    ∀ text : Bytes, text.count 0x3A < 4 →
      let field (i : Nat) : Bytes := (text.splitOn 0x3A).getD i []
      ∃ d, (∀ d', Dsn.Says (field 0) (field 1) (field 2) (field 3) (field 4) d' ↔ d' = d) ∧
        After (connect text readOnly timeout).run e (Dialled d e) := by
  constructor
  · intro host port user password database h
    have hread := Dsn.says_parse (Dsn.encode host port user password database)
    rw [Dsn.splitAtMost_encode h] at hread
    exact ⟨_, fun _ => hread.iff_eq, connect_dials _ e⟩
  · intro text h field
    have hread := Dsn.says_parse text
    rw [Dsn.splitAtMost_eq_splitOn (by omega)] at hread
    exact ⟨_, fun _ => hread.iff_eq, connect_dials _ e⟩

/-- A database has a colon in its name, and the user is the default one; where only a host is named,
the rest is. An engine that was not used before asks for either by its first connection. -/
theorem colon_in_database_dialled :
    (∀ field ∈ ([Bytes.ofString "db", "3307", "", "pw"] : List Bytes), 0x3A ∉ field) ∧
    Dsn.encode "db" "3307" "" "pw" "a:b" = "db:3307::pw:a:b" ∧
    (After (connect "db:3307::pw:a:b" false 0).run {} fun r e => r = .ok (some 1) ∧
      ⟨.connect 1 ⟨"db", 3307, "root", some "pw", some "a:b"⟩, .done⟩ ∈ e.history) ∧
    List.count 0x3A (Bytes.ofString "db") < 4 ∧
    After (connect "db" false 0).run {} fun r e => r = .ok (some 1) ∧
      ⟨.connect 1 ⟨"db", 3306, "root", none, none⟩, .done⟩ ∈ e.history := by
  have hfields : ∀ field ∈ ([Bytes.ofString "db", "3307", "", "pw"] : List Bytes),
      0x3A ∉ field := by decide
  have hencode : Dsn.encode "db" "3307" "" "pw" "a:b" = "db:3307::pw:a:b" := by decide
  have hcount : List.count 0x3A (Bytes.ofString "db") < 4 := by decide
  have shown {text : Bytes} {d : Dsn}
      (hdialled : After (connect text false 0).run {} (Dialled d {}))
      (hr : (outcome (connect text false 0).run {}).1 = .ok (some 1)) :
      After (connect text false 0).run {} fun r e => r = .ok (some 1) ∧
        ⟨.connect 1 d, .done⟩ ∈ e.history := by
    obtain ⟨o, hmem, ho⟩ := hdialled.mem_history rfl
    obtain ⟨-, rfl⟩ := ho _ hr
    exact ⟨hr, hmem⟩
  obtain ⟨hfive, hfewer⟩ := fields_dialled false 0 {}
  refine ⟨hfields, hencode, ?_, hcount, ?_⟩
  · obtain ⟨d, hread, hdialled⟩ := hfive "db" "3307" "" "pw" "a:b" hfields
    have hport : Dsn.NamesPort "3307" 3307 := .number (Numeral.leads_ofNat 3307) rfl
    obtain rfl := (hread ⟨"db", 3307, "root", some "pw", some "a:b"⟩).1 ⟨rfl, hport, rfl, rfl, rfl⟩
    rw [hencode] at hdialled
    exact shown hdialled rfl
  · obtain ⟨d, hread, hdialled⟩ := hfewer "db" hcount
    obtain rfl := (hread ⟨"db", 3306, "root", none, none⟩).1 ⟨rfl, .default, rfl, rfl, rfl⟩
    exact shown hdialled rfl

end Maria

end SqlAccess
