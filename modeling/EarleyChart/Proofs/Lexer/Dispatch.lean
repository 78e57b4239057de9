import EarleyChart.Proofs.Lexer.Alternatives

/-!
The search for first bytes hides no definition whose alternatives it takes for what they are:
where such a definition matches, it is tried. This is so in every dialect that finds only
what an expression spans. Of other patterns it is not so, and a definition can be passed over
that matches.
-/

namespace EarleyChart
open FirstBytes LexRule

theorem exists_of_bind_eq_ok {ε α β : Type} {e : Except ε α} {f : α → Except ε β} {y : β}
    (h : e >>= f = .ok y) : ∃ x, e = .ok x ∧ f x = .ok y := by
  cases e with
  | error => contradiction
  | ok x => exact ⟨x, rfl, h⟩

namespace DispatchTable

theorem getElem_enter (index : Nat) (table : Vector (List Nat) 256) (b c : UInt8) :
    (enter index table b)[c.toFin] =
      if b = c then table[c.toFin] ++ [index] else table[c.toFin] := by
  have hindex : b.toNat = c.toFin ↔ b = c := UInt8.toNat_inj
  simp only [enter, Fin.getElem_fin, Vector.getElem_set, hindex]
  split
  · next h => simp only [h]
  · rfl

theorem mem_foldl_enter (index i : Nat) (bytes : List UInt8) (table : Vector (List Nat) 256)
    (b : UInt8) : i ∈ (bytes.foldl (enter index) table)[b.toFin] ↔
      i ∈ table[b.toFin] ∨ i = index ∧ b ∈ bytes := by
  induction bytes generalizing table with
  | nil => simp
  | cons c bytes ih =>
      rw [List.foldl_cons, ih, getElem_enter, List.mem_cons]
      by_cases hc : c = b
      · simp only [hc, if_true, List.mem_append, List.mem_singleton, true_or, and_true]
        exact or_iff_left_of_imp fun h => .inr h.1
      · simp only [if_neg hc, Ne.symm hc, false_or]

/-- A definition is tried at its first bytes, as it was added. -/
theorem mem_candidates_add (t : DispatchTable) (index i : Nat) (first : FirstBytes) (b : UInt8) :
    i ∈ (t.add index first).candidates b ↔
      i ∈ t.candidates b ∨ i = index ∧ first.allows b = true := by
  cases first with
  | any => simp [add, candidates, allows, or_assoc]
  | among bytes =>
      rw [add, candidates, candidates, List.mem_append, List.mem_append, mem_foldl_enter,
        List.mem_eraseDups, allows, List.contains_iff_mem]
      exact or_right_comm

theorem mem_candidates_foldl (rules : List (LexRule × Nat)) (t : DispatchTable) (i : Nat)
    (b : UInt8) :
    i ∈ (rules.foldl (fun t (rule, index) => t.add index rule.first) t).candidates b ↔
      i ∈ t.candidates b ∨ ∃ rule, (rule, i) ∈ rules ∧ rule.first.allows b = true := by
  induction rules generalizing t with
  | nil => simp
  | cons entry rules ih =>
      obtain ⟨rule, index⟩ := entry
      rw [List.foldl_cons, ih, mem_candidates_add, or_assoc]
      refine or_congr_right ⟨?_, ?_⟩
      · rintro (⟨rfl, h⟩ | ⟨other, hmem, h⟩)
        · exact ⟨rule, List.mem_cons_self, h⟩
        · exact ⟨other, List.mem_cons_of_mem _ hmem, h⟩
      · rintro ⟨other, hmem, h⟩
        cases hmem with
        | head => exact .inl ⟨rfl, h⟩
        | tail _ hmem => exact .inr ⟨other, hmem, h⟩

theorem mem_candidates_ofRules (rules : List LexRule) (i : Nat) (b : UInt8) :
    i ∈ (ofRules rules).candidates b ↔
      ∃ rule, rules[i]? = some rule ∧ rule.first.allows b = true := by
  have hempty : i ∉ empty.candidates b := by simp [empty, candidates]
  simp only [ofRules, mem_candidates_foldl, hempty, false_or, List.mk_mem_zipIdx_iff_getElem?]

end DispatchTable

namespace FirstBytes

variable {b : UInt8} {bytes : List UInt8}

theorem allows_foldl_union (sets : List FirstBytes) (first : FirstBytes) :
    (sets.foldl union first).allows b = (first.allows b || sets.any (·.allows b)) := by
  induction sets generalizing first with
  | nil => simp
  | cons set sets ih =>
      rw [List.foldl_cons, ih, List.any_cons, ← Bool.or_assoc]
      congr 1
      cases first with
      | any => rfl
      | among a =>
          cases set with
          | any => exact (Bool.or_true _).symm
          | among c => simp [union, allows]

/-- A pattern begins with what one of its alternatives begins with. -/
theorem ofAlternative_allows_eq_false (h : (ofPattern bytes).allows b = false) :
    ∀ piece ∈ alternatives bytes, (ofAlternative piece).allows b = false := by
  intro piece hpiece
  unfold ofPattern at h
  split at h
  · cases h
  · rename_i first others heq
    rw [allows_foldl_union, Bool.or_eq_false_iff, List.any_eq_false] at h
    have hmem := List.mem_map_of_mem (f := ofAlternative) hpiece
    rw [heq] at hmem
    cases hmem with
    | head => exact h.1
    | tail _ hmem => simpa using h.2 _ hmem

end FirstBytes

namespace Regex

/-- Whether the parentheses that are put around a pattern hold its first alternatives, and
these are plain. If they are closed within the pattern, then more of it follows them. -/
def PlainAnchored (r : Regex .choice) : Prop :=
  ∃ start body rest,
    r = .one (.cons (.place ['^'] start) (.cons (.group (.flagged [] []) body) rest)) ∧
      body.Plain .standard (')' :: rest.text).dropLast

variable {pattern : String} {r : Regex .choice} {input : List Char} {i n : Nat} {b : UInt8}
  {x : Char}

/-- Under these conditions a pattern spans no text that begins with a byte that it cannot begin
with. -/
theorem not_spans_anchored (htext : r.text = anchoredText pattern) (hwritten : r.Written .standard)
    (hplain : r.PlainAnchored) (hb : (ofPattern (bytesOf pattern.toList)).allows b = false)
    (hleads : Leads b x) : ¬ r.Spans (x :: input) i n := by
  obtain ⟨start, body, rest, rfl, hbody⟩ := hplain
  rintro ⟨m, ⟨rfl, hstart⟩, k, hspans, -⟩
  obtain ⟨hplace, hgroup, -⟩ := hwritten
  obtain rfl : m = 0 := by
    cases hplace with
    | start h => exact h rfl _ _ hstart
  have hpattern : body.text ++ (')' :: rest.text).dropLast = pattern.toList := by
    have hwhole : body.text ++ ')' :: rest.text = pattern.toList ++ [')'] := by
      simpa [text, RegexOpening.text, anchoredText] using htext
    rw [← List.dropLast_append_of_ne_nil (List.cons_ne_nil _ _), hwhole, List.dropLast_concat]
  have hends : Ends (')' :: rest.text).dropLast := by
    generalize rest.text = more
    cases more with
    | nil =>
        intro c hc
        contradiction
    | cons => exact fun c hc => .inl (Option.some.inj hc).symm
  refine not_spans_choice hleads hends hgroup hbody (fun piece hpiece => ?_) hspans
  rw [hpattern] at hpiece
  exact hides_of_allows (ofAlternative_allows_eq_false hb piece hpiece)

end Regex

namespace LexRule

/-- What a definition is made ready to: the bytes come from the text of the pattern, the
matcher from the dialect. -/
theorem exists_of_ofDef {dialect : Dialect} {s : Symbols} {d : TokenDef} {rule : LexRule}
    (h : ofDef dialect s d = .ok rule) :
    dialect.compile (anchoredText d.pattern) = .ok rule.matcher ∧
      rule.first = .ofPattern (bytesOf d.pattern.toList) := by
  obtain ⟨matcher, hmatcher, h⟩ := exists_of_bind_eq_ok h
  obtain ⟨kind, rfl⟩ : ∃ kind, rule =
      ⟨d.name, .ofPattern (bytesOf d.pattern.toList), matcher, d.priority, kind⟩ := by
    dsimp only at h
    split at h
    · cases h
      exact ⟨_, rfl⟩
    · obtain ⟨kind, -, h⟩ := exists_of_bind_eq_ok h
      cases h
      exact ⟨_, rfl⟩
  refine ⟨?_, rfl⟩
  cases hcompile : dialect.compile (anchoredText d.pattern) with
  | error message =>
      rw [hcompile] at hmatcher
      contradiction
  | ok =>
      rw [hcompile] at hmatcher
      cases hmatcher
      rfl

end LexRule

namespace RegexLexer

variable {dialect : Dialect} {s : Symbols} {d : TokenDef} {defs : List TokenDef}
  {rules : List LexRule} {lexer : RegexLexer} {rule : LexRule} {i n : Nat} {b : UInt8}
  {text : List Char}

theorem ofDef_of_rulesOf (h : rulesOf dialect s defs = .ok rules) (hd : defs[i]? = some d)
    (hr : rules[i]? = some rule) : LexRule.ofDef dialect s d = .ok rule := by
  induction defs generalizing rules i with
  | nil => contradiction
  | cons first defs ih =>
      obtain ⟨ready, hfirst, h⟩ := exists_of_bind_eq_ok h
      obtain ⟨rest, hrest, h⟩ := exists_of_bind_eq_ok h
      cases h
      cases i with
      | zero =>
          cases hd
          cases hr
          exact hfirst
      | succ i => exact ih hrest hd hr

/-- Each definition is made ready at its place. -/
theorem ofDef_of_getElem? (accepted : ofDefsIn dialect s defs = .ok lexer)
    (hd : defs[i]? = some d) (hr : lexer.rules[i]? = some rule) :
    LexRule.ofDef dialect s d = .ok rule := by
  cases hrules : rulesOf dialect s defs with
  | error =>
      rw [ofDefsIn, hrules] at accepted
      contradiction
  | ok rules =>
      rw [ofDefsIn, hrules] at accepted
      cases accepted
      exact ofDef_of_rulesOf hrules hd hr

/-- The definitions that are tried are those whose first bytes allow the byte. -/
theorem mem_candidates_iff :
    (rule, i) ∈ lexer.candidates b ↔ lexer.rules[i]? = some rule ∧ rule.first.allows b = true := by
  rw [candidates, lexer.dispatch_eq, List.mem_filterMap]
  constructor
  · rintro ⟨index, hmem, h⟩
    obtain ⟨other, hrule, heq⟩ := Option.map_eq_some_iff.mp h
    cases heq
    obtain ⟨found, hfound, hallows⟩ := (DispatchTable.mem_candidates_ofRules _ _ _).mp hmem
    obtain rfl := Option.some.inj (hrule.symm.trans hfound)
    exact ⟨hrule, hallows⟩
  · rintro ⟨hrule, hallows⟩
    refine ⟨i, (DispatchTable.mem_candidates_ofRules _ _ _).mpr ⟨rule, hrule, hallows⟩, ?_⟩
    rw [hrule]
    rfl

/-- A definition that matches is tried, if its first bytes are not known or it is read as
alternatives that the search takes for what they are. -/
theorem mem_candidates_of_match {read : List Char → Option (Regex .choice)}
    (documented : dialect.Documented read) (accepted : ofDefsIn dialect s defs = .ok lexer)
    (hd : defs[i]? = some d) (hr : lexer.rules[i]? = some rule)
    (plain : rule.first ≠ .any → ∀ r, read (anchoredText d.pattern) = some r → r.PlainAnchored)
    (hb : (bytesOf text).head? = some b) (hmatch : rule.matchLength? text = some n) :
    (rule, i) ∈ lexer.candidates b := by
  obtain ⟨hcompile, hfirst⟩ := exists_of_ofDef (ofDef_of_getElem? accepted hd hr)
  obtain ⟨r, hread, hspans⟩ := documented.compiled _ _ hcompile
  obtain ⟨htext, hwritten⟩ := documented.written _ r hread
  rw [mem_candidates_iff]
  refine ⟨hr, ?_⟩
  by_contra hrefused
  rw [Bool.not_eq_true] at hrefused
  have hknown : rule.first ≠ .any := by
    intro hany
    rw [hany] at hrefused
    contradiction
  cases text with
  | nil => contradiction
  | cons x text =>
      obtain ⟨i, -, h⟩ := hspans _ n (Option.filter_eq_some_iff.mp hmatch).1
      rw [hfirst] at hrefused
      exact Regex.not_spans_anchored htext hwritten (plain hknown r hread) hrefused
        (leads_of_head? hb) h

end RegexLexer

namespace Dialect

variable {pattern : List Char} {matcher : Matcher} {r : Regex .choice}

/-- A dialect of one pattern, and how it is read. -/
def only (pattern : List Char) (matcher : Matcher) : Dialect where
  compile text := if text = pattern then .ok matcher else .error "unknown"

def readOnly (pattern : List Char) (r : Regex .choice) (text : List Char) :
    Option (Regex .choice) :=
  if text = pattern then some r else none

theorem compile_only : (only pattern matcher).compile pattern = .ok matcher := if_pos rfl

theorem eq_of_readOnly {r' : Regex .choice} (h : readOnly pattern r pattern = some r') : r' = r :=
  (Option.some.inj ((if_pos rfl).symm.trans h)).symm

theorem documented_only (htext : r.text = pattern) (hwritten : r.Written .standard)
    (hspans : ∀ input n, matcher.matchEnd input = some n → r.Spans input 0 n) :
    (only pattern matcher).Documented (readOnly pattern r) where
  written text r' h := by
    obtain ⟨rfl, heq⟩ := Option.ite_none_right_eq_some.mp h
    cases heq
    exact ⟨htext, hwritten⟩
  compiled text matcher' h := by
    obtain ⟨rfl, heq⟩ | ⟨-, heq⟩ := ite_eq_iff.mp h
    · cases heq
      exact ⟨r, if_pos rfl, fun input n h => ⟨0, Nat.zero_le n, hspans input n h⟩⟩
    · contradiction

end Dialect

namespace RegexLexer

open Dialect

variable {dialect : Dialect} {s : Symbols} {n : Nat} {text : List Char}

theorem ofDefsIn_singleton {name pattern : String} {priority : Int} {matcher : Matcher}
    {kind : TokenKind} (hcompile : dialect.compile (anchoredText pattern) = .ok matcher)
    (hkind : s.kindNamed name = .ok kind) :
    ofDefsIn dialect s [⟨name, pattern, priority, false⟩] = .ok { rules :=
      [⟨name, .ofPattern (bytesOf pattern.toList), matcher, priority, some kind⟩] } := by
  simp only [ofDefsIn, rulesOf, ofDef, hcompile, hkind]
  rfl

/-- A letter with or without a digit behind it, a closing bracket or a hyphen. -/
def signPattern : String := "x(?P<d>[0-9])?|[]-]"

def signRegex : Regex .choice :=
  .one (.cons (.place ['^'] fun _ i => i = 0) (.cons (.group (.flagged [] [])
    (.bar
      (.cons (.char ['x'] {'x'}) (.cons (.repeated (.group (.named [] ['P'] ['d'])
        (.one (.cons (.char ['[', '0', '-', '9', ']'] (∅ ∪ {c | '0' ≤ c ∧ c ≤ '9'})) .nil)))
        [] ['?'] 0 (some 1)) .nil))
      (.one (.cons (.char ['[', ']', '-', ']'] ({']'} ∪ {'-'})) .nil)))) .nil))

def signMatcher : Matcher where
  matchEnd
    | 'x' :: c :: _ => some (if c.isDigit then 2 else 1)
    | ['x'] | ']' :: _ | '-' :: _ => some 1
    | _ => none
  matchEnd_le := by
    intro text n h
    split at h
    · cases h
      split <;> simp
    · cases h
      simp
    · cases h
      simp
    · cases h
      simp
    · contradiction

theorem signRegex_written : signRegex.Written .standard := by
  refine ⟨.start fun _ _ _ h => h, ⟨⟨.literal (by decide) fun x hx => .inl hx, ⟨⟨?_, trivial⟩,
    by simp, .question (.inl rfl)⟩, trivial⟩, ?_, trivial⟩, trivial⟩
  · exact .bracket fun _ _ tail => .members (by simp)
      (.item (by simp) (by simp) (.ofRange (by decide) (by decide) (by decide)) .close)
  · exact .bracket fun _ _ tail => .plain (by simp) (.bracket
      (.item (by simp) (by simp) (.ofChar (by decide) (by simp)) .close))

theorem signRegex_spans (h : signMatcher.matchEnd text = some n) : signRegex.Spans text 0 n := by
  refine ⟨0, ⟨rfl, rfl⟩, n, ?_, rfl⟩
  unfold signMatcher at h
  dsimp only at h
  split at h
  · next c rest =>
    cases h
    refine .inl ⟨1, ⟨rfl, 'x', rfl, rfl⟩, ?_⟩
    split
    · next hdigit =>
      have hc : '0' ≤ c ∧ c ≤ '9' := by
        rw [Char.isDigit, Bool.and_eq_true, decide_eq_true_eq, decide_eq_true_eq] at hdigit
        exact hdigit
      exact ⟨2, ⟨1, Nat.zero_le 1, by simp, 2, ⟨2, ⟨rfl, c, .inr hc, rfl⟩, rfl⟩, rfl⟩, rfl⟩
    · exact ⟨1, ⟨0, Nat.le_refl 0, by simp, rfl⟩, rfl⟩
  · cases h
    exact .inl ⟨1, ⟨rfl, 'x', rfl, rfl⟩, 1, ⟨0, Nat.le_refl 0, by simp, rfl⟩, rfl⟩
  · cases h
    exact .inr ⟨1, ⟨rfl, ']', .inl rfl, rfl⟩, rfl⟩
  · cases h
    exact .inr ⟨1, ⟨rfl, '-', .inr rfl, rfl⟩, rfl⟩
  · contradiction

theorem signRegex_plain : signRegex.PlainAnchored := by
  refine ⟨_, _, _, rfl, ⟨fun _ _ => by simp [RegexFlags.standard], fun _ => by simp⟩,
    Regex.Passed.passedOver ⟨rfl, ⟨⟨rfl, rfl, trivial⟩, rfl⟩, trivial⟩, fun _ h => by simp at h,
    fun members h => ?_⟩
  cases h
  exact ⟨rfl, by simp [RegexFlags.standard, Regex.after], by decide +kernel⟩

theorem mem_candidates_of_match_sign :
    ∃ dialect read lexer rule, dialect.Documented read ∧
      ofDefsIn dialect { terminals := [⟨"t", 0⟩], nonterminals := [] }
        [⟨"t", signPattern, 0, false⟩] = .ok lexer ∧
      lexer.rules[0]? = some rule ∧ rule.first ≠ .any ∧
      rule.matchLength? ['x', '5', '5'] = some 2 ∧ (rule, 0) ∈ lexer.candidates (byte 'x') := by
  let rule : LexRule := ⟨"t", .ofPattern (bytesOf signPattern.toList), signMatcher, 0, some 0⟩
  have documented : (only (anchoredText signPattern) signMatcher).Documented
      (readOnly (anchoredText signPattern) signRegex) :=
    documented_only (by decide) signRegex_written fun _ _ => signRegex_spans
  have accepted : ofDefsIn (.only (anchoredText signPattern) signMatcher)
      { terminals := [⟨"t", 0⟩], nonterminals := [] } [⟨"t", signPattern, 0, false⟩] =
        .ok { rules := [rule] } := ofDefsIn_singleton compile_only rfl
  have hknown : rule.first ≠ .any := by decide +kernel
  have hmatch : rule.matchLength? ['x', '5', '5'] = some 2 := by decide +kernel
  refine ⟨_, _, _, rule, documented, accepted, rfl, hknown, hmatch, ?_⟩
  refine mem_candidates_of_match documented accepted rfl rfl (fun _ r h => ?_) ?_ hmatch
  · rw [eq_of_readOnly h]
    exact signRegex_plain
  · exact congrArg List.head? (bytesOf_cons_ascii (by decide) _)

def blankRegex : Regex .choice :=
  .one (.cons (.place ['^'] fun _ i => i = 0) (.cons (.group (.flagged [] []) (.one (.cons
    (.char ['[', '\\', 't', '-', '\\', 'r', ']'] (∅ ∪ {c | '\t' ≤ c ∧ c ≤ '\r'})) .nil))) .nil))

def blankMatcher : Matcher where
  matchEnd text := if text.head?.any fun c => '\t' ≤ c ∧ c ≤ '\r' then some 1 else none
  matchEnd_le := by
    intro text n h
    obtain ⟨hhead, h⟩ := Option.ite_none_right_eq_some.mp h
    cases h
    cases text with
    | nil => contradiction
    | cons => simp

theorem blankRegex_written : blankRegex.Written .standard := by
  refine ⟨.start fun _ _ _ h => h, ⟨.bracket fun _ _ tail => ?_, trivial⟩, trivial⟩
  exact .members (by simp) (.item (by simp) (by simp) (.range (by simp) (.escape .tab) (by simp)
    (by simp) (.escape .carriageReturn) (by decide)) .close)

theorem blankRegex_spans (h : blankMatcher.matchEnd text = some n) :
    blankRegex.Spans text 0 n := by
  obtain ⟨hhead, h⟩ := Option.ite_none_right_eq_some.mp h
  cases h
  cases text with
  | nil => contradiction
  | cons c text =>
      have hc : c ∈ ∅ ∪ {c | '\t' ≤ c ∧ c ≤ '\r'} := .inr (of_decide_eq_true hhead)
      exact ⟨0, ⟨rfl, rfl⟩, 1, ⟨1, ⟨rfl, c, hc, rfl⟩, rfl⟩, rfl⟩

/-- The hyphen of a range that begins with an escape is taken for a member: the definition
matches a character within the range and is not tried. -/
theorem match_without_candidate :
    ∃ dialect read lexer rule, dialect.Documented read ∧
      ofDefsIn dialect { terminals := [⟨"ws", 0⟩], nonterminals := [] }
        [⟨"ws", "[\\t-\\r]", 0, false⟩] = .ok lexer ∧
      lexer.rules[0]? = some rule ∧ rule.matchLength? ['\n'] = some 1 ∧
      (bytesOf ['\n']).head? = some (byte '\n') ∧ (rule, 0) ∉ lexer.candidates (byte '\n') := by
  let rule : LexRule :=
    ⟨"ws", .ofPattern (bytesOf "[\\t-\\r]".toList), blankMatcher, 0, some 0⟩
  have documented : (only (anchoredText "[\\t-\\r]") blankMatcher).Documented
      (readOnly (anchoredText "[\\t-\\r]") blankRegex) :=
    documented_only (by decide) blankRegex_written fun _ _ => blankRegex_spans
  have accepted : ofDefsIn (.only (anchoredText "[\\t-\\r]") blankMatcher)
      { terminals := [⟨"ws", 0⟩], nonterminals := [] } [⟨"ws", "[\\t-\\r]", 0, false⟩] =
        .ok { rules := [rule] } := ofDefsIn_singleton compile_only rfl
  have hrefused : rule.first.allows (byte '\n') = false := by decide +kernel
  refine ⟨_, _, _, rule, documented, accepted, rfl, by decide +kernel, by decide +kernel,
    fun hmem => ?_⟩
  rw [(mem_candidates_iff.mp hmem).2] at hrefused
  contradiction

end RegexLexer
end EarleyChart
