import SqlAccess.Proofs.Query

/-!
# The tokens of composed texts

The texts of a query are scanned when it is built, each on its own. A composed text is scanned when
the query is resolved. It should consist of the tokens of the texts that were built
(`Source.tokensFor`), but a token can go across the place where two of them meet: a quote that ends
one text and a literal that starts the next one make an empty literal and leave the rest of the
second bare. Only there can a composed query be refused by the scanner (`Query.refused_at_seams`).
-/

namespace SqlAccess

open Template

namespace Template

/-- Tokens of which none is refused. -/
def Accepted (ts : List Token) : Prop := ∀ t ∈ ts, ¬t.IsRefused

theorem Accepted.append {ts us : List Token} (ht : Accepted ts) (hu : Accepted us) :
    Accepted (ts ++ us) := fun t h => (List.mem_append.1 h).elim (ht t) (hu t)

theorem accepted_cons {t : Token} {ts : List Token} :
    Accepted (t :: ts) ↔ ¬t.IsRefused ∧ Accepted ts := List.forall_mem_cons

theorem kind_of_expandText {sizes : ListSizes} {text : Bytes} {f : Fault}
    (h : expandText sizes text = .error f) : f.kind = .parse := by
  by_cases hrefused : ∃ t ∈ cut text, t.IsRefused
  · obtain ⟨before, t, after, hcut, hbefore, ht⟩ := exists_first_refused hrefused
    have hresult : expandFor (some {}) sizes text = _ := expandFor_of_refused hcut hbefore ht
    obtain rfl := Except.error.inj (hresult.symm.trans h)
    exact ht.kind_refusal _ _
  · obtain ⟨e, he⟩ := exists_expandText_iff.2 fun t ht hr => hrefused ⟨t, ht, hr⟩
    cases he.symm.trans h

end Template

namespace Source

variable {info : DatabaseInfo} {f : Fault}

/-! ## Tokens of the parts -/

/-- The number of arguments that a format takes. -/
def holes : Bytes → Nat
  | 0x25 :: 0x25 :: rest => holes rest
  | 0x25 :: 0x73 :: rest => holes rest + 1
  | _ :: rest => holes rest
  | [] => 0

/-- Fill the tokens of the arguments into those of a format. Inside a range an argument is no more
than its bytes. -/
def fillTokens : List Token → List (Except Fault (List Token)) → Except Fault (List Token)
  | .other 0x25 :: .other 0x25 :: rest, args => (fillTokens rest args).map (.other 0x25 :: ·)
  | .other 0x25 :: .other 0x73 :: _, [] => .error .missingArgument
  | .other 0x25 :: .other 0x73 :: rest, arg :: args => do return (← arg) ++ (← fillTokens rest args)
  | .range bytes :: rest, args => do
    let filled ← fill bytes (args.map (·.map (·.flatMap Token.source)))
    return .range filled :: (← fillTokens rest (args.drop (holes bytes)))
  | t :: rest, args => (fillTokens rest args).map (t :: ·)
  | [], _ => .ok []

/-- Put tokens one after another, up to the first text that failed. -/
def joinTokens : List (Except Fault (List Token)) → Except Fault (List Token)
  | [] => .ok []
  | part :: rest => do return (← part) ++ (← joinTokens rest)

mutual

/-- The tokens of the chosen texts, put together as the texts are. -/
def tokensFor (info : DatabaseInfo) : Source → Except Fault (List Token)
  | text variants fallback => (select info variants fallback).map cut
  | concat parts => joinTokens (tokenListsFor info parts)
  | format template args => do fillTokens (← tokensFor info template) (tokenListsFor info args)

/-- The tokens of several sources. -/
def tokenListsFor (info : DatabaseInfo) : List Source → List (Except Fault (List Token))
  | [] => []
  | s :: rest => tokensFor info s :: tokenListsFor info rest

end

theorem tokenListsFor_eq_map (sources : List Source) :
    tokenListsFor info sources = sources.map (tokensFor info) := by
  induction sources with
  | nil => rfl
  | cons s rest ih => rw [tokenListsFor, ih, List.map_cons]

theorem accepted_joinTokens {parts : List (Except Fault (List Token))} {ts : List Token}
    (h : joinTokens parts = .ok ts) (hparts : ∀ us, .ok us ∈ parts → Accepted us) :
    Accepted ts := by
  induction parts generalizing ts with
  | nil =>
    obtain rfl := Except.ok.inj h
    exact fun _ => nofun
  | cons part parts ih =>
    obtain ⟨us, hus, h⟩ := bind_eq_ok_iff.1 h
    obtain ⟨vs, hvs, h⟩ := bind_eq_ok_iff.1 h
    obtain rfl := Except.ok.inj h
    subst hus
    exact (hparts us List.mem_cons_self).append
      (ih hvs fun us hus => hparts us (List.mem_cons_of_mem _ hus))

theorem accepted_fillTokens {ts us : List Token} {args : List (Except Fault (List Token))}
    (h : fillTokens ts args = .ok us) (hts : Accepted ts)
    (hargs : ∀ vs, .ok vs ∈ args → Accepted vs) : Accepted us := by
  fun_induction fillTokens ts args generalizing us with
  | case1 rest args ih =>
    obtain ⟨vs, hvs, rfl⟩ := map_eq_ok_iff.1 h
    obtain ⟨hpercent, hrest⟩ := accepted_cons.1 hts
    exact accepted_cons.2 ⟨hpercent, ih hvs (accepted_cons.1 hrest).2 hargs⟩
  | case2 rest => cases h
  | case3 rest arg args ih =>
    obtain ⟨vs, hvs, h⟩ := bind_eq_ok_iff.1 h
    obtain ⟨ws, hws, h⟩ := bind_eq_ok_iff.1 h
    obtain rfl := Except.ok.inj h
    have hrest := (accepted_cons.1 (accepted_cons.1 hts).2).2
    exact (hargs vs (hvs ▸ List.mem_cons_self)).append
      (ih hws hrest fun xs hxs => hargs xs (List.mem_cons_of_mem _ hxs))
  | case4 bytes rest args ih =>
    obtain ⟨filled, -, h⟩ := bind_eq_ok_iff.1 h
    obtain ⟨vs, hvs, h⟩ := bind_eq_ok_iff.1 h
    obtain rfl := Except.ok.inj h
    exact accepted_cons.2 ⟨nofun, ih hvs (accepted_cons.1 hts).2 fun xs hxs =>
      hargs xs (List.mem_of_mem_drop hxs)⟩
  | case5 t rest args _ _ _ _ ih =>
    obtain ⟨vs, hvs, rfl⟩ := map_eq_ok_iff.1 h
    exact accepted_cons.2 ⟨(accepted_cons.1 hts).1, ih hvs (accepted_cons.1 hts).2 hargs⟩
  | case6 args =>
    obtain rfl := Except.ok.inj h
    exact hts

/-! ## Choosing and filling texts -/

theorem mem_of_select {variants : List Variant} {fallback : Option Bytes} {sql : Bytes}
    (h : select info variants fallback = .ok sql) :
    sql ∈ variants.map (·.sql) ++ fallback.toList := by
  unfold select at h
  split at h
  · next v hv =>
    obtain rfl := Except.ok.inj h
    exact List.mem_append_left _ (List.mem_map_of_mem (List.mem_of_find?_eq_some hv))
  · obtain rfl := Except.ok.inj h
    exact List.mem_append_right _ (Option.mem_toList.2 rfl)
  · cases h

theorem kind_of_select {variants : List Variant} {fallback : Option Bytes}
    (h : select info variants fallback = .error f) : f.kind = .noVariant := by
  unfold select at h
  split at h
  · cases h
  · cases h
  · obtain rfl := Except.error.inj h
    rfl

theorem mem_of_join_error {parts : List (Except Fault Bytes)} (h : join parts = .error f) :
    .error f ∈ parts := by
  induction parts with
  | nil => cases h
  | cons part parts ih =>
    obtain rfl | ⟨_, -, h⟩ := bind_eq_error_iff.1 h
    · exact List.mem_cons_self
    · obtain h | ⟨_, -, h⟩ := bind_eq_error_iff.1 h
      · exact List.mem_cons_of_mem _ (ih h)
      · cases h

/-- A format fails where it takes an argument that failed, or one that is not there. -/
theorem eq_or_mem_of_fill_error {bytes : Bytes} {args : List (Except Fault Bytes)}
    (h : fill bytes args = .error f) : f = .missingArgument ∨ .error f ∈ args := by
  fun_induction fill bytes args with
  | case1 rest args ih => exact ih (map_eq_error_iff.1 h)
  | case2 rest => exact .inl (Except.error.inj h).symm
  | case3 rest arg args ih =>
    obtain rfl | ⟨_, -, h⟩ := bind_eq_error_iff.1 h
    · exact .inr List.mem_cons_self
    · obtain h | ⟨_, -, h⟩ := bind_eq_error_iff.1 h
      · exact (ih h).imp_right (List.mem_cons_of_mem _)
      · cases h
  | case4 b rest args _ _ _ ih => exact ih (map_eq_error_iff.1 h)
  | case5 args => cases h

mutual

/-- Choosing and putting together texts never fails as scanning does. -/
theorem kind_of_textFor : (s : Source) → (f : Fault) → textFor info s = .error f → f.kind ≠ .parse
  | .text _ _, f, h => by
    rw [kind_of_select h]
    decide
  | .concat parts, f, h => kind_of_textsFor parts f (mem_of_join_error h)
  | .format template args, f, h => by
    obtain h | ⟨_, -, h⟩ := bind_eq_error_iff.1 h
    · exact kind_of_textFor template f h
    · obtain rfl | h := eq_or_mem_of_fill_error h
      · decide
      · exact kind_of_textsFor args f h

theorem kind_of_textsFor : (sources : List Source) → (f : Fault) →
    .error f ∈ textsFor info sources → f.kind ≠ .parse
  | [], _, h => nomatch h
  | s :: rest, f, h => by
    obtain h | h := List.mem_cons.1 h
    · exact kind_of_textFor s f h.symm
    · exact kind_of_textsFor rest f h

end

end Source

/-! ## Where scanning fails -/

namespace Descriptor

variable {text : Bytes} {declarations : Declarations}

theorem exists_create_iff :
    (∃ d, create text declarations = .ok d) ↔ ∀ t ∈ cut text, ¬t.IsRefused := by
  have hexpand : (∃ e, expandText declarations.lists text = .ok e) ↔
      ∀ t ∈ cut text, ¬t.IsRefused := exists_expandText_iff
  rw [← hexpand]
  constructor
  · rintro ⟨d, hd⟩
    obtain ⟨e, he, -⟩ := create_eq_ok hd
    exact ⟨e, he⟩
  · rintro ⟨e, he⟩
    exact ⟨_, bind_eq_ok_iff.2 ⟨e, he, rfl⟩⟩

theorem kind_of_create {f : Fault} (h : create text declarations = .error f) : f.kind = .parse := by
  obtain h | ⟨_, -, h⟩ := bind_eq_error_iff.1 h
  · exact kind_of_expandText h
  · cases h

end Descriptor

namespace Query

open Source

variable {steps : List BuildStep} {q : Query} {info : DatabaseInfo} {ts : List Token} {f : Fault}

/-- The tokens of the texts of which a query is composed have all been accepted. -/
theorem MadeBy.accepted (hq : MadeBy steps q) (h : q.source.tokensFor info = .ok ts) :
    Accepted ts := by
  have parts {qs : List Query}
      (ih : ∀ q ∈ qs, ∀ ts, q.source.tokensFor info = .ok ts → Accepted ts) :
      ∀ us, .ok us ∈ tokenListsFor info (qs.map (·.source)) → Accepted us := by
    intro us hus
    rw [tokenListsFor_eq_map, List.map_map] at hus
    obtain ⟨p, hp, hus⟩ := List.mem_map.1 hus
    exact ih p hp us hus
  induction hq generalizing ts with
  | built hbuild =>
    obtain ⟨b, -, hb⟩ := bind_eq_ok_iff.1 hbuild
    obtain ⟨-, hscanned, rfl⟩ := Builder.finish_eq_ok_iff.1 hb
    obtain ⟨sql, hsql, rfl⟩ := map_eq_ok_iff.1 h
    exact exists_expandText_iff.1 (hscanned sql (mem_of_select hsql))
  | concat _ hconcat ih =>
    rw [(concat_eq_ok_iff.1 hconcat).1] at h
    refine accepted_joinTokens h (parts fun p hp => ?_)
    obtain ⟨part, hpart, rfl⟩ := List.mem_map.1 hp
    exact fun ts => ih part hpart
  | format _ hformat ih =>
    rw [(format_eq_ok_iff.1 hformat).1] at h
    obtain ⟨us, hus, h⟩ := bind_eq_ok_iff.1 h
    refine accepted_fillTokens h (ih _ List.mem_cons_self hus) (parts fun p hp => ?_)
    obtain ⟨part, hpart, rfl⟩ := List.mem_map.1 hp
    exact fun ts => ih part (List.mem_cons_of_mem _ hpart)

/-- Resolving a query fails as scanning does where the text has a token that is refused. -/
theorem exists_parse_iff : (∃ f, q.resolve info = .error f ∧ f.kind = .parse) ↔
    ∃ text, q.source.textFor info = .ok text ∧ ∃ t ∈ cut text, t.IsRefused := by
  constructor
  · rintro ⟨f, h, hkind⟩
    obtain h | ⟨text, htext, h⟩ := bind_eq_error_iff.1 h
    · exact absurd hkind (kind_of_textFor _ _ h)
    · refine ⟨text, htext, ?_⟩
      by_contra hnone
      obtain ⟨d, hd⟩ := Descriptor.exists_create_iff.2 fun t ht hr => hnone ⟨t, ht, hr⟩
      cases hd.symm.trans h
  · rintro ⟨text, htext, t, ht, hr⟩
    cases hcreate : Descriptor.create text q.declarations with
    | error f =>
      exact ⟨f, bind_eq_error_iff.2 (.inr ⟨text, htext, hcreate⟩),
        Descriptor.kind_of_create hcreate⟩
    | ok d => exact absurd hr (Descriptor.exists_create_iff.1 ⟨d, hcreate⟩ t ht)

theorem exists_resolve {text : Bytes} (htext : q.source.textFor info = .ok text)
    (h : Accepted (cut text)) : ∃ d, q.resolve info = .ok d := by
  obtain ⟨d, hd⟩ := Descriptor.exists_create_iff.2 h
  exact ⟨d, resolve_eq_ok_iff.2 ⟨text, htext, hd⟩⟩

/-- However a query was made, resolving it fails as scanning does exactly where its text has a token
that is refused, and such a token goes across a place where texts meet. So a query that was built,
and not composed, never fails like that. -/
theorem refused_at_seams (hq : MadeBy steps q) (info : DatabaseInfo) :
    ((∃ f, q.resolve info = .error f ∧ f.kind = .parse) ↔
      ∃ text, q.source.textFor info = .ok text ∧ (∃ t ∈ cut text, t.IsRefused) ∧
        q.source.tokensFor info ≠ .ok (cut text)) ∧
    (∀ text, q.source.textFor info = .ok text → q.source.tokensFor info = .ok (cut text) →
      ∃ d, q.resolve info = .ok d) ∧
    ∀ text, Builder.build steps = .ok q → q.source.textFor info = .ok text →
      ∃ d, q.resolve info = .ok d := by
  have whole {text : Bytes} (htokens : q.source.tokensFor info = .ok (cut text)) :
      Accepted (cut text) := hq.accepted htokens
  refine ⟨?_, fun text htext htokens => exists_resolve htext (whole htokens), ?_⟩
  · rw [exists_parse_iff]
    refine exists_congr fun text => and_congr_right fun _ => ?_
    refine ⟨fun hrefused => ⟨hrefused, fun htokens => ?_⟩, And.left⟩
    obtain ⟨t, ht, hr⟩ := hrefused
    exact whole htokens t ht hr
  · intro text hbuild htext
    obtain ⟨b, -, hb⟩ := bind_eq_ok_iff.1 hbuild
    obtain ⟨-, -, rfl⟩ := Builder.finish_eq_ok_iff.1 hb
    exact exists_resolve htext (whole (map_eq_ok_iff.2 ⟨text, htext, rfl⟩))

/-- An open literal and a text that starts with a quote: the quote closes the literal, and what the
second text has quoted is bare. -/
theorem refused_at_quote :
    ∃ q, MadeBy [.fallback (some "SELECT 'it"), .fallback (some "'s ok?'")] q ∧
      ∃ f, q.resolve { type := "sqlite" } = .error f ∧ f.kind = .parse := by
  have hopen : MadeBy [.fallback (some "SELECT 'it")]
      { source := .text [] (some "SELECT 'it"), declarations := {} } := .built rfl
  have hquote : MadeBy [.fallback (some "'s ok?'")]
      { source := .text [] (some "'s ok?'"), declarations := {} } := .built rfl
  have hjoined := @MadeBy.concat [(_, _), (_, _)] _
    (List.forall_mem_cons.2 ⟨hopen, List.forall_mem_singleton.2 hquote⟩) rfl
  refine ⟨_, hjoined, (refused_at_seams hjoined _).1.2 ⟨"SELECT 'it's ok?'", rfl, ?_⟩⟩
  exact ⟨⟨.other 0x3F, by decide +kernel, .inl rfl⟩, by decide +kernel⟩

example :
    (Source.format (.text [] (some "a LIKE '%s%%' OR b = %s"))
      [.text [] (some "x"), .text [] (some ":n")]).tokensFor {} =
        .ok (cut "a LIKE 'x%' OR b = :n") := by
  decide +kernel

end Query

end SqlAccess
