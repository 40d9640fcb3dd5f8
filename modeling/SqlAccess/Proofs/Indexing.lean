import SqlAccess.Proofs.Session.Cursors

/-!
# Cursors as indices into their results

A cursor is moved by some rows at a time, while anything else is done in between (`Session.Moves`).
As long as no attempt to fetch a row fails, it stands where the moves add up to, and what is read
there is the row of the result at that index (`Session.cursor_indexes_result`). A move that leads
out of the result closes the cursor for good.
-/

namespace SqlAccess

namespace Session

variable {s s₁ : Session × World} {r : CursorRef} {k : Nat} {result : List (List Cell)}
  {offsets : List Int64}

/-- Steps are carried out, and those of them that move a cursor move it by some rows one after
another. -/
inductive Moves (r : CursorRef) (s : Session × World) : List Int64 → Session × World → Prop
  | refl : Moves r s [] s
  | seek {offsets : List Int64} {s' : Session × World} {name : Bytes} {offset : Int64} :
      Moves r s offsets s' → s'.1.cursors.find? name = some r →
      Moves r s (offsets ++ [offset]) (after (.seek name offset) s')
  | other {offsets : List Int64} {s' : Session × World} {x : Step} : Moves r s offsets s' →
      (∀ name offset, x = .seek name offset → s'.1.cursors.find? name ≠ some r) →
      Moves r s offsets (after x s')

theorem Moves.later (hm : Moves r s offsets s₁) : Later s s₁ := by
  induction hm with
  | refl => exact .refl
  | seek _ _ ih | other _ _ ih => exact ih.step _

theorem Later.suffix (hl : Later s s₁) : s.2.engine.history <:+ s₁.2.engine.history := by
  induction hl with
  | refl => exact List.suffix_refl _
  | step x _ ih => exact ih.trans (after_tasks x _).runs.calls.suffix

variable {base failed : Nat} {p : Int}

/-- What a cursor reads it has for itself. -/
theorem Shown.owns (hs : Shown r k result base failed p s) (hr : Reachable s) :
    Owns r.database r.statement k s := by
  obtain ⟨d, z, hd, hz, hcurrent, ⟨x, hx, hstands⟩, -⟩ := hs
  refine hr.owns (statement?_eq_some.2 ⟨d, hd, hz⟩) ?_
  have hk := hstands.reads.number
  cases ho : x.own with
  | none => exact .inl ⟨hcurrent.isOpen, by rwa [ho] at hk⟩
  | some own => exact .inr ⟨r.number, x, own, hx, ho, by rwa [ho] at hk⟩

/-- The moves of a cursor add up, until it is closed for good, unless an attempt to fetch a row
fails. -/
theorem Moves.shown (hm : Moves r s offsets s₁) (hr : Reachable s)
    (hs : Shown r k result base failed p s) :
    failed < fetchesFailed k s₁.2.engine.history ∨
      Shown r k result base failed (p + (offsets.map Int64.toInt).sum) s₁ ∨ Lost r s₁ := by
  induction hm with
  | refl => exact .inr (.inl (by simpa using hs))
  | @seek offsets s' name offset hm hname ih =>
    obtain hfailed | hshown | hlost := ih
    · exact .inl (Nat.lt_of_lt_of_le hfailed (fetchesFailed_mono (Later.refl.step _).suffix))
    · have hsum : p + ((offsets ++ [offset]).map Int64.toInt).sum =
          p + (offsets.map Int64.toInt).sum + offset.toInt := by simp [Int.add_assoc]
      rw [hsum]
      have moved : After (carryOut (.seek name offset)) s' fun _ s'' =>
          failed < fetchesFailed k s''.2.engine.history ∨
            Shown r k result base failed (p + (offsets.map Int64.toInt).sum + offset.toInt) s'' ∨
            Lost r s'' :=
        (hshown.sought hname).mono fun _ _ h => h.imp id (.imp (·.2.2) (·.2.2.1))
      exact step_iff.2 moved
    · exact .inr (.inr (hlost.later (Later.refl.step _)))
  | @other offsets s' x hm hother ih =>
    obtain hfailed | hshown | hlost := ih
    · exact .inl (Nat.lt_of_lt_of_le hfailed (fetchesFailed_mono (Later.refl.step _).suffix))
    · have hr' := hm.later.reachable hr
      refine .inr ((after_tasks x s').shown (fun d offset hrun => ?_) (hshown.owns hr') hshown)
      obtain ⟨name, rfl, hname⟩ := hrun
      exact hother name offset rfl hname
    · exact .inr (.inr (hlost.later (Later.refl.step _)))

/-- What is shown of a cursor holds of it. -/
theorem Shown.stands {c : Cursor} (hs : Shown r k result base failed p s)
    (hc : s.1.cursor? r = some c) : ∃ h, c.Stands h k result base p s.2.engine := by
  obtain ⟨d, z, hd, hz, hshows⟩ := hs
  obtain ⟨x, hx, hstands⟩ := hshows.cursor
  have hfound : s.1.cursor? r = some x := by simp [cursor?, statement?, hd, hz, hx]
  obtain rfl : x = c := Option.some.inj (hfound.symm.trans hc)
  exact ⟨_, hstands⟩

theorem Shown.cursor? (hs : Shown r k result base failed p s) : ∃ c, s.1.cursor? r = some c := by
  obtain ⟨d, z, hd, hz, hshows⟩ := hs
  obtain ⟨x, hx, -⟩ := hshows.cursor
  exact ⟨x, by simp [Session.cursor?, statement?, hd, hz, hx]⟩

/-- A move leads to a row of the result or closes the cursor, unless it fails to fetch a row. -/
theorem Shown.moved {name : Bytes} {offset : Int64} (hs : Shown r k result base failed p s)
    (hname : s.1.cursors.find? name = some r) :
    After (step (.seek name offset)) s fun report s₂ =>
      fetchesFailed k s₂.2.engine.history = failed →
        report.fault = none ∧
        rowsFetched k s₂.2.engine.history ≤ base + result.length ∧
        if 0 ≤ p + offset.toInt ∧ p + offset.toInt < result.length ∧
            p + offset.toInt ≤ Int64.maxValue.toInt then
          report.answer = .moved true ∧
            ∃ c₂, s₂.1.cursor? r = some c₂ ∧ c₂.position = p + offset.toInt
        else report.answer = .moved false ∧ ∀ s₃, Later s₂ s₃ → s₃.1.cursor? r = none := by
  have moved : After (carryOut (.seek name offset)) s fun reply s₂ =>
      fetchesFailed k s₂.2.engine.history = failed →
        reply.fault = none ∧
        rowsFetched k s₂.2.engine.history ≤ base + result.length ∧
        if 0 ≤ p + offset.toInt ∧ p + offset.toInt < result.length ∧
            p + offset.toInt ≤ Int64.maxValue.toInt then
          reply.answer = .moved true ∧
            ∃ c₂, s₂.1.cursor? r = some c₂ ∧ c₂.position = p + offset.toInt
        else reply.answer = .moved false ∧ ∀ s₃, Later s₂ s₃ → s₃.1.cursor? r = none := by
    refine (hs.sought hname).mono fun reply s₂ h hsame => ?_
    obtain hfailed | ⟨rfl, hrow, hshown⟩ | ⟨rfl, hrow, hlost, hrows⟩ := h
    · omega
    · obtain ⟨c₂, hc₂⟩ := hshown.cursor?
      obtain ⟨h, hstands⟩ := hshown.stands hc₂
      rw [if_pos hrow, hstands.reads.fetched]
      exact ⟨rfl, Nat.add_le_add_left hstands.reads.rows_prefix.length_le _, rfl, c₂, hc₂,
        hstands.position⟩
    · rw [if_neg hrow]
      exact ⟨rfl, hrows, rfl, fun s₃ hl => (hlost.later hl).cursor?⟩
  exact step_reply_iff.2 moved

/-- What is read at a row of a cursor is the result's row at the index. -/
theorem Shown.read {c : Cursor} {col : Column} {name column : Bytes} {type : Option ValueType}
    {ifNull : Option Value} (hs : Shown r k result base failed p s)
    (hc : s.1.cursor? r = some c) (hname : s.1.cursors.find? name = some r) (hp : 0 ≤ p)
    (hcol : c.columns.find? (Name.toLower column) = some col) :
    ∃ row cell, result[p.toNat]? = some row ∧ row[col.index]? = some cell ∧
      s.1.read name (some column) type ifNull =
        { answer := .value ((s.1.backend.value col.accessor cell).readAs type ifNull) } := by
  obtain ⟨h, hstands⟩ := hs.stands hc
  have hlt : p.toNat < c.rows.length := by
    have := hstands.high
    omega
  have hrow : result[p.toNat]? = some c.rows[p.toNat] := by
    obtain ⟨rest, hrest⟩ := hstands.reads.rows_prefix
    rw [← hrest, List.getElem?_append_left hlt, List.getElem?_eq_getElem hlt]
  have hindex : col.index < c.rows[p.toNat].length :=
    hstands.columns _ col hcol _ (List.mem_of_getElem? hrow)
  have hcell : (c.rows.getD p.toNat [])[col.index]? = some c.rows[p.toNat][col.index] := by
    simp [hlt]
  refine ⟨_, _, hrow, List.getElem?_eq_getElem hindex, ?_⟩
  have hopen : s.1.openCursor? name = some c := by simp [openCursor?, hname, hc]
  unfold Session.read Cursor.read
  simp only [hopen, hstands.position, Int.not_lt.2 hp, if_false, hcol, hcell]
  rfl

/-- A cursor is an index into the result of the statement that was run for it. As long as no attempt
to fetch a row fails, it stands where its moves add up to, has fetched a first part of the result,
and each row of that once. The next move leads to the row at the index, if the result has one there,
and closes the cursor for good otherwise. A column is read from the row of the result. -/
theorem cursor_indexes_result {x : Step} {target : Bytes} {h : Handle} {c : Cursor}
    (hr : Reachable s) (hx : x.Produces target) (hc : (after x s).1.cursors.find? target = some r)
    (hh : (after x s).1.source? r = some h) (hk : h.number? = some k)
    (hresult : h.result? (after x s).2.engine = some result)
    (hm : Moves r (after x s) offsets s₁)
    (hf : fetchesFailed k s₁.2.engine.history = fetchesFailed k s.2.engine.history)
    (ho : s₁.1.cursor? r = some c) :
    (c.position = (offsets.map Int64.toInt).sum - 1 ∧ -1 ≤ c.position ∧
      c.position < c.rows.length ∧ c.rows <+: result ∧
      rowsFetched k s₁.2.engine.history = rowsFetched k s.2.engine.history + c.rows.length) ∧
    (∀ name offset, s₁.1.cursors.find? name = some r →
      After (step (.seek name offset)) s₁ fun report s₂ =>
        fetchesFailed k s₂.2.engine.history = fetchesFailed k s₁.2.engine.history →
          report.fault = none ∧
          rowsFetched k s₂.2.engine.history ≤ rowsFetched k s.2.engine.history + result.length ∧
          if 0 ≤ c.position + offset.toInt ∧ c.position + offset.toInt < result.length ∧
              c.position + offset.toInt ≤ Int64.maxValue.toInt then
            report.answer = .moved true ∧
              ∃ c₂, s₂.1.cursor? r = some c₂ ∧ c₂.position = c.position + offset.toInt
          else report.answer = .moved false ∧ ∀ s₃, Later s₂ s₃ → s₃.1.cursor? r = none) ∧
    ∀ name column type ifNull col, s₁.1.cursors.find? name = some r → 0 ≤ c.position →
      c.columns.find? (Name.toLower column) = some col →
        ∃ row cell, result[c.position.toNat]? = some row ∧ row[col.index]? = some cell ∧
          After (step (.read name (some column) type ifNull)) s₁ fun report s₂ => s₂ = s₁ ∧
            report.toReply =
              { answer := .value ((s₁.1.backend.value col.accessor cell).readAs type ifNull) } := by
  obtain hfailed | hshown := hr.produced hx hc hh hk hresult
  · have := fetchesFailed_mono (k := k) hm.later.suffix
    omega
  obtain hfailed | hshown | hlost := hm.shown (hr.step x) hshown
  · omega
  · obtain ⟨h', hstands⟩ := hshown.stands ho
    have hposition := hstands.position
    rw [← hposition] at hshown
    refine ⟨⟨by omega, hposition ▸ hstands.low, hposition ▸ hstands.high,
      hstands.reads.rows_prefix, hstands.reads.fetched⟩, fun name offset hname => ?_,
      fun name column type ifNull col hname hp hcol => ?_⟩
    · rw [hf]
      exact hshown.moved hname
    · obtain ⟨row, cell, hrow, hcell, hread⟩ := hshown.read ho hname hp hcol
      exact ⟨row, cell, hrow, hcell, rfl, hread⟩
  · cases ho.symm.trans hlost.cursor?

/-- A cursor goes to the second row of two and back to the first one. -/
theorem first_of_two_rows :
    let declarations : Declarations := { columns := .ofList [("empno", .int64)] }
    let query : Query := { source := .text [] (some "SELECT empno FROM emp"), declarations }
    let script : Script := {
      sql := "SELECT empno FROM emp"
      columns := [some "empno"]
      rows := [[some (.int 7)], [some (.int 8)]] }
    let s := (outcome (run [.connect "d" (some "file") {}, .prepare "d" (some query) "k"])
      (start .sqlite "3.40.0" [] [script])).2
    let s₁ := after (.seek "c" (-1)) (after (.seek "c" 2) (after (.query "k" "c") s))
    ∃ result c, result.length = 2 ∧ s₁.1.cursor? ⟨0, 0, 0⟩ = some c ∧ c.position = 0 ∧
      c.rows = result ∧ rowsFetched 1 s₁.2.engine.history = 2 ∧
      (∃ row cell, result[0]? = some row ∧ row[0]? = some cell ∧
        After (step (.read "c" (some "EmpNo") none none)) s₁ fun report _ =>
          report.toReply = { answer := .value (s₁.1.backend.value .int64 cell) }) ∧
      After (step (.seek "c" (-1))) s₁ fun report s₂ =>
        report.answer = .moved false ∧ s₂.1.cursor? ⟨0, 0, 0⟩ = none := by
  intro declarations query script s s₁
  have hr : Reachable s := (run_later _).reachable (.start .sqlite "3.40.0" [] [script])
  have found {q : Option CursorRef} (hq : q.map (fun r => (r.database, r.statement, r.number)) =
      some (0, 0, 0)) : q = some ⟨0, 0, 0⟩ := by
    obtain ⟨⟨_, _, _⟩, rfl, hr⟩ := Option.map_eq_some_iff.1 hq
    cases hr
    rfl
  have hc : (after (.query "k" "c") s).1.cursors.find? "c" = some ⟨0, 0, 0⟩ :=
    found (by decide +kernel)
  have hname : s₁.1.cursors.find? "c" = some ⟨0, 0, 0⟩ := found (by decide +kernel)
  have hsource : ((after (.query "k" "c") s).1.source? ⟨0, 0, 0⟩).map (fun h => (h.number?,
      (h.result? (after (.query "k" "c") s).2.engine).map List.length)) =
      some (some 1, some 2) := by decide +kernel
  obtain ⟨h, hh, hstate⟩ := Option.map_eq_some_iff.1 hsource
  obtain ⟨hk, hlength⟩ := Prod.mk.inj hstate
  obtain ⟨result, hresult, hlength⟩ := Option.map_eq_some_iff.1 hlength
  have hcursor : (s₁.1.cursor? ⟨0, 0, 0⟩).map (fun c => (c.rows.length,
      c.columns.find? (Name.toLower "EmpNo"))) = some (2, some ⟨.int64, 0⟩) := by decide +kernel
  obtain ⟨c, ho, hstate⟩ := Option.map_eq_some_iff.1 hcursor
  obtain ⟨hrows, hcol⟩ := Prod.mk.inj hstate
  have hm : Moves ⟨0, 0, 0⟩ (after (.query "k" "c") s) [2, -1] s₁ :=
    .seek (.seek .refl hc) (found (by decide +kernel))
  obtain ⟨⟨hposition, -, -, hprefix, -⟩, hseek, hread⟩ :=
    cursor_indexes_result hr ⟨"k", .inl rfl⟩ hc hh hk hresult hm (by decide +kernel) ho
  have hzero : c.position = 0 := by rw [hposition]; decide
  obtain ⟨row, cell, hrow, hcell, hreply⟩ := hread "c" "EmpNo" none none _ hname hzero.ge hcol
  rw [hzero] at hrow
  have plain (v : Value) : v.readAs none none = v := rfl
  have hsame : After (step (.seek "c" (-1))) s₁ fun _ s₂ =>
      fetchesFailed 1 s₂.2.engine.history = fetchesFailed 1 s₁.2.engine.history := by
    unfold After
    decide +kernel
  have hout : ¬ 0 ≤ (0 : Int) + (-1 : Int64).toInt := by decide
  refine ⟨result, c, hlength, ho, hzero, hprefix.eq_of_length (by rw [hrows, hlength]),
    by decide +kernel, ⟨row, cell, hrow, hcell, hreply.mono fun _ _ h => by rw [h.2, plain]⟩,
    ((hseek "c" (-1) hname).and hsame).mono fun report s₂ ⟨h, hsame⟩ => ?_⟩
  have hleft := (h hsame).2.2
  rw [hzero, if_neg fun h => hout h.1] at hleft
  exact ⟨hleft.1, hleft.2 _ .refl⟩

end Session

end SqlAccess
