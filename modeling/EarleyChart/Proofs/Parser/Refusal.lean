import EarleyChart.Proofs.Parser.Viability

/-!
Where a run without repair stops. It goes on as long as the tokens begin a
sentential form of the start symbol, so that a rejection comes at the first token
that cannot be right, and names exactly the terminals that could.
-/

namespace EarleyChart
namespace Parser

/-- Why a run without repair stops with a number of tokens read. -/
inductive Stops (tokens : List Token) (n : Nat) (p : Parser) : Verdict → Prop
  | accepted (hn : n = tokens.length) : Stops tokens n p .accepted
  | unexpectedEnd (hn : n = tokens.length) (location : Location) :
      Stops tokens n p (.rejected (.unexpectedEnd p.chart.current location p.expectedTerminals))
  | unexpectedToken (token : Token) (htoken : tokens[n]? = some token)
      (hnone : p.chart.scans p.grammar token = []) :
      Stops tokens n p
        (.rejected (.unexpectedToken p.chart.current token p.expectedTerminals))

/-- Without repair a token is scanned, or it is rejected with what was expected. -/
theorem feedToken_disabled {p : Parser} (hmode : p.config.recovery = .disabled) (token : Token)
    (progress : Progress) (h : (p.feedToken token).1 = .ok progress) :
    progress = .more ∧ p.chart.scans p.grammar token ≠ [] ∨
      progress = .done
        (.rejected (.unexpectedToken p.chart.current token p.expectedTerminals)) ∧
      p.chart.scans p.grammar token = [] := by
  rw [feedToken] at h
  split at h
  · contradiction
  simp only [readings, hmode] at h
  by_cases hscans : p.chart.scans p.grammar token = []
  · refine .inr ⟨?_, hscans⟩
    simp only [hscans, List.isEmpty_nil, if_true] at h
    exact (Except.ok.inj h).symm
  · refine .inl ⟨?_, hscans⟩
    rw [if_neg (by simpa using hscans)] at h
    simp only at h
    generalize (closeColumn _).1 = closed at h
    cases closed with
    | error e => contradiction
    | ok => exact (Except.ok.inj h).symm

section read

variable {g : Grammar} (hg : g.Numbered) {config : Config} (hmode : config.recovery = .disabled)
  {costs : CostProvider} {tokens : List Token} {n : Nat} {p : Parser}

/-- A run that is over stopped where all tokens that were read begin a sentential form. -/
def Ceased (g : Grammar) (config : Config) (costs : CostProvider) (tokens : List Token)
    (verdict : Verdict) : Prop :=
  ∃ (m : Nat) (last : Parser), last.Reads g config costs .none tokens m ∧
    g.Viable (tokens.take m) ∧ last.Stops tokens m verdict

include hg hmode in
/-- Every token that is read goes on to begin a sentential form. -/
theorem courses_viable : Courses config tokens
    (fun n p => p.Reads g config costs .none tokens n ∧ g.Viable (tokens.take n))
    (fun verdict _ => Ceased g config costs tokens verdict) where
  feed := by
    rintro n p token ⟨h, hviable⟩ htoken
    have hdisabled : p.config.recovery = .disabled := by rw [h.config_eq, hmode]
    have hprogress := feedToken_disabled hdisabled token
    rcases feedToken_spec hg (.disabled hmode) h htoken with
      ⟨p', heq, hreads⟩ | ⟨verdict, p', heq, -⟩ | hlimit
    · rw [heq] at hprogress
      rcases hprogress .more rfl with ⟨-, hscans⟩ | ⟨hdone, -⟩
      · rw [h.grammar_eq] at hscans
        exact .inl ⟨p', heq, hreads, h.chart.viable_of_scans hg htoken hscans⟩
      · contradiction
    · rw [heq] at hprogress
      rcases hprogress (.done verdict) rfl with ⟨hmore, -⟩ | ⟨hdone, hscans⟩
      · contradiction
      · obtain rfl := Progress.done.inj hdone
        exact .inr (.inl ⟨_, p', heq, n, p, h, hviable, .unexpectedToken token htoken hscans⟩)
    · exact .inr (.inr hlimit)
  finish := by
    rintro n p ⟨h, hviable⟩ hn
    refine ⟨n, p, h, hviable, ?_⟩
    have hn := Nat.le_antisymm h.chart.length hn
    rw [finish]
    split
    · exact .accepted hn
    · exact .unexpectedEnd hn _

end read

section parse

variable {g : Grammar} (hg : g.Numbered) {config : Config} (hmode : config.recovery = .disabled)
  (costs : CostProvider) (tokens : List Token)

include hg hmode in
theorem parse_stops (hrules : g.rulesFor g.start ≠ []) :
    let result := ((fresh g config costs).parse (TokenStream.ofList tokens)).result
    (∃ verdict, result = .ok verdict ∧ Ceased g config costs tokens verdict) ∨
      Stopped config result := by
  apply (courses_viable hg hmode).parse
  rcases seed_spec hg config costs tokens .none hrules with ⟨p, hseed, hreads⟩ | hlimit
  · exact .inl ⟨p, hseed, hreads, by simpa using g.viable_nil⟩
  · exact .inr hlimit

variable {tokens costs} {n : Nat} {last : Parser}
  (h : last.Reads g config costs .none tokens n)

include hg h in
/-- A run stops only where no reading of the next token is left out. -/
theorem Stops.readings {verdict : Verdict} (hstops : last.Stops tokens n verdict) (token : Token)
    (htoken : tokens[n]? = some token) :
    last.chart.Readings g .none config.maxErrorValue token [] := by
  cases hstops with
  | accepted hn | unexpectedEnd hn =>
      rw [hn, List.getElem?_length] at htoken
      contradiction
  | unexpectedToken found hfound hnone =>
      obtain rfl := Option.some.inj (hfound.symm.trans htoken)
      have hscans := h.chart.readings_scans hg found
      rw [h.grammar_eq] at hnone
      rwa [hnone] at hscans

include hg h in
/-- Where a run stops, it expects exactly the terminals that may follow. -/
theorem Stops.expected {verdict : Verdict} (hstops : last.Stops tokens n verdict) (t : SymbolId) :
    t ∈ last.expectedTerminals ↔
      g.isTerminal t = true ∧ g.MayFollow (tokens.take n) t := by
  rw [expectedTerminals, h.grammar_eq, Chart.mem_expectedTerminals h.chart.valid.filed]
  exact and_congr_right fun ht => h.chart.awaits_iff hg (hstops.readings hg h) ht

theorem pairwise_expectedTerminals (p : Parser) : p.expectedTerminals.Pairwise (· < ·) := by
  rw [expectedTerminals]
  cases p.chart.newest? with
  | none => exact .nil
  | some column => exact (List.pairwise_lt_range' (s := 1)).sublist List.filter_sublist

include hg h in
/-- A token is rejected where it cannot go on, and no later. -/
theorem Stops.earliest {verdict : Verdict} (hstops : last.Stops tokens n verdict)
    (hviable : g.Viable (tokens.take n)) (j : Nat) :
    (∃ token expected, verdict = .rejected (.unexpectedToken j token expected)) ↔
      j < tokens.length ∧ ¬ g.Viable (tokens.take (j + 1)) ∧
        ∀ i < j, g.Viable (tokens.take (i + 1)) := by
  have hcurrent := h.chart.current
  have hearlier : ∀ i < n, g.Viable (tokens.take (i + 1)) :=
    fun i hi => Grammar.viable_take (Nat.succ_le_of_lt hi) hviable
  cases hstops with
  | accepted hn | unexpectedEnd hn =>
      simp only [reduceCtorEq, Verdict.rejected.injEq, exists_false, false_iff]
      rintro ⟨hj, hnot, -⟩
      exact hnot (hearlier j (by omega))
  | unexpectedToken token htoken hnone =>
      rw [h.grammar_eq] at hnone
      have hlt := (List.getElem?_eq_some_iff.mp htoken).1
      have hnot := h.chart.not_viable_of_scans hg
        (Stops.readings hg h (.unexpectedToken token htoken (by rwa [h.grammar_eq]))) htoken hnone
      rw [hcurrent]
      constructor
      · rintro ⟨_, _, heq⟩
        obtain ⟨rfl, -⟩ := Rejection.unexpectedToken.inj (Verdict.rejected.inj heq)
        exact ⟨hlt, hnot, hearlier⟩
      · rintro ⟨hj, hnot', hearlier'⟩
        rcases Nat.lt_trichotomy j n with hless | rfl | hmore
        · exact absurd (hearlier j hless) hnot'
        · exact ⟨token, _, rfl⟩
        · exact absurd (hearlier' n hmore) hnot

end parse

/-- Without repair a run rejects a token exactly where the tokens up to it begin no
sentential form any more, and every rejection names the terminals that may follow,
in ascending order. -/
theorem parse_disabled_rejects_earliest (d : GrammarDef) (g : Grammar) (hd : d.toGrammar = .ok g)
    (hrules : g.rulesFor g.start ≠ []) (config : Config) (hmode : config.recovery = .disabled)
    (costs : CostProvider) (tokens : List Token) :
    let result := ((fresh g config costs).parse (TokenStream.ofList tokens)).result
    Stopped config result ∨
      (∃ verdict, result = .ok verdict) ∧
      (∀ j, (∃ token expected, result = .ok (.rejected (.unexpectedToken j token expected))) ↔
        j < tokens.length ∧ ¬ g.Viable (tokens.take (j + 1)) ∧
          ∀ i < j, g.Viable (tokens.take (i + 1))) ∧
      ∀ why, result = .ok (.rejected why) →
        ((∃ token, why = .unexpectedToken why.column token why.expected) ∨
          ∃ location, why = .unexpectedEnd why.column location why.expected) ∧
        why.expected.Pairwise (· < ·) ∧
        ∀ t, t ∈ why.expected ↔
          g.isTerminal t = true ∧ g.MayFollow (tokens.take why.column) t := by
  have hg := d.toGrammar_numbered g hd
  rcases parse_stops hg hmode costs tokens hrules with
    ⟨verdict, hresult, n, last, hreads, hviable, hstops⟩ | hstopped
  · intro result
    rw [show result = .ok verdict from hresult]
    simp only [Except.ok.injEq]
    refine .inr ⟨⟨verdict, rfl⟩, hstops.earliest hg hreads hviable, ?_⟩
    have hexpected := hstops.expected hg hreads
    have hcurrent := hreads.chart.current
    intro why hwhy
    cases hstops with
    | accepted => contradiction
    | unexpectedEnd hn location =>
        obtain rfl := Verdict.rejected.inj hwhy
        refine ⟨.inr ⟨location, rfl⟩, last.pairwise_expectedTerminals, ?_⟩
        rwa [← hcurrent] at hexpected
    | unexpectedToken token =>
        obtain rfl := Verdict.rejected.inj hwhy
        refine ⟨.inl ⟨token, rfl⟩, last.pairwise_expectedTerminals, ?_⟩
        rwa [← hcurrent] at hexpected
  · exact .inl hstopped

/-- A run of `pair` over `a a` rejects the second token, where only `b` could stand. -/
theorem parse_disabled_rejects_earliest_pair :
    let tokens : List Token := [⟨0, "a", .start⟩, ⟨0, "a", .start⟩]
    let result := ((fresh pair ⟨.disabled, 0, 0, 0, 0, 0⟩ .standard).parse
      (TokenStream.ofList tokens)).result
    result = .ok (.rejected (.unexpectedToken 1 ⟨0, "a", .start⟩ [2])) ∧
      ¬ pair.Viable tokens ∧ pair.Viable (tokens.take 1) ∧ pair.MayFollow (tokens.take 1) 2 := by
  intro tokens result
  have hresult : result = .ok (.rejected (.unexpectedToken 1 ⟨0, "a", .start⟩ [2])) := by
    decide +kernel
  rcases parse_disabled_rejects_earliest pairDef pair rfl (by decide)
    ⟨.disabled, 0, 0, 0, 0, 0⟩ rfl .standard tokens with
    ⟨e, -, hlimit⟩ | ⟨-, hearliest, hwhy⟩
  · exact absurd hlimit (Config.not_limits rfl rfl e)
  · obtain ⟨-, hnot, hbefore⟩ := (hearliest 1).mp ⟨_, _, hresult⟩
    obtain ⟨-, -, hexpected⟩ := hwhy _ hresult
    exact ⟨hresult, hnot, hbefore 0 (by decide), ((hexpected 2).mp (by decide)).2⟩

end Parser
end EarleyChart
