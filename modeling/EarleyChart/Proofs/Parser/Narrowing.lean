import EarleyChart.Proofs.Parser.Lasting
import EarleyChart.Proofs.Parser.Settings

/-!
The limit on columns. It is looked at when a token is taken, before the token is read.
Every token that leads on opens one column, so that the run under the limit is the run
without one, up to the first token for which there is no column.
-/

namespace EarleyChart

structure Config.Narrows (base config : Config) : Prop where
  recovery : config.recovery = base.recovery
  ceiling : config.maxErrorValue = base.maxErrorValue
  items : config.maxItems = base.maxItems
  free : base.maxColumns = 0
  limit : 0 < config.maxColumns

namespace Parser

variable {g : Grammar} {p : Parser} {base config : Config} {costs : CostProvider}

/-- A token that leads on is in a column of its own. -/
theorem feedToken_columnCount (hg : g.Numbered) (hp : p.Scanning g) (token : Token)
    (hmore : (p.feedToken token).1 = .ok .more) :
    (p.feedToken token).2.columnCount = p.columnCount + 1 := by
  have hfeeds := hp.feeds hg token
  generalize p.feedToken token = outcome at hfeeds hmore
  cases hfeeds with
  | failed | rejected | stopped => simp at hmore
  | closed news requests tally hread next hclose =>
      have hready := hp.opened_closable hg hread requests tally
      have hextends := hp.opened_extends hg hread requests tally
      obtain rfl := hp.grammar_eq
      obtain ⟨hsize, -⟩ := closeColumn_frame (p := p.opened token news requests tally) hg hready
      rw [hclose] at hsize
      rw [columnCount, hsize, hextends.progresses.size,
        (p.chart.current_openColumn p.grammar (some token)).1]
      rfl

/-- A run that begins opens one column. -/
theorem begin_columnCount (hg : g.Numbered) (hp : p.Healthy g) (hstart : p.state = .start)
    (hblank : p.chart.columns = #[]) (hok : p.begin.1 = .ok ()) : p.begin.2.columnCount = 1 := by
  rcases begin_cases p with ⟨e, -, heq⟩ | ⟨herror, -, heq⟩ | ⟨-, hother, -⟩
  · rw [heq] at hok
    contradiction
  · rw [heq] at hok ⊢
    rcases seed_cases p with ⟨reason, hseed⟩ | ⟨tally, hseed⟩
    · rw [hseed] at hok
      contradiction
    · have hready := hp.seeded_closable hg herror tally
      obtain ⟨-, hprogress⟩ := hp.seeded_progresses hg herror tally
      obtain rfl := hp.grammar_eq
      obtain ⟨hsize, -⟩ := closeColumn_frame (p := p.seeded tally) hg hready
      rw [hseed, columnCount, hsize, hprogress.size, (p.chart.current_openColumn p.grammar none).1,
        hblank]
      rfl
  · exact absurd hstart hother

/-- The first answer that is asked for is the next one of the source. -/
theorem parseTokens_asked {σ : Type} [TokenSource σ] {source rest : σ} {answer : TokenAnswer}
    (hnext : TokenSource.next source = (answer, rest)) {answers asked : List TokenAnswer}
    (hasked : (p.parseTokens (⟨source, answers⟩ : Recorded σ)).source.answers =
      answers ++ asked) : ∃ more, asked = answer :: more := by
  rw [parseTokens_next (Recorded.next_eq hnext answers)] at hasked
  generalize p.feed answer = fed at hasked
  obtain ⟨result, next⟩ := fed
  cases result with
  | error e => exact ⟨[], (List.append_cancel_left hasked).symm⟩
  | ok progress =>
      cases progress with
      | done verdict => exact ⟨[], (List.append_cancel_left hasked).symm⟩
      | more =>
          obtain ⟨more, heq⟩ := next.parseTokens_recorded rest (answers ++ [answer])
          simp only [heq, List.append_assoc] at hasked
          exact ⟨more, (List.append_cancel_left hasked).symm⟩

section side

variable (h : base.Narrows config) (hset : p.HasSettings base costs)

include h hset

/-- A token is read as without the limit, or there is no column for it. -/
theorem feedToken_narrowed (hg : g.Numbered) (hp : p.Scanning g) (token : Token) :
    p.columnCount < config.maxColumns ∧ (p.withSettings config costs).feedToken token =
        ((p.feedToken token).1, (p.feedToken token).2.withSettings config costs) ∨
    config.maxColumns ≤ p.columnCount ∧ ((p.withSettings config costs).feedToken token).1 =
        .error (.inputTooLarge (p.columnCount + 1) config.maxColumns) := by
  have hcount : (p.withSettings config costs).columnCount = p.columnCount := rfl
  have hmax : (p.withSettings config costs).config.maxColumns = config.maxColumns := rfl
  rw [feedToken, hcount, hmax]
  rcases Nat.lt_or_ge p.columnCount config.maxColumns with hroom | hover
  · refine .inl ⟨hroom, ?_⟩
    obtain ⟨hconfig, hcosts⟩ := hset
    have hfree : ¬ (p.config.maxColumns > 0 ∧ p.columnCount ≥ p.config.maxColumns) := by
      rw [hconfig, h.free]
      exact fun hfull => Nat.lt_irrefl 0 hfull.1
    rw [feedToken, if_neg fun hfull => Nat.not_lt_of_le hfull.2 hroom, if_neg hfree,
      readings_withSettings p config costs (hconfig ▸ h.ceiling) token hcosts
        (hconfig ▸ h.recovery)]
    obtain ⟨hconfig', -⟩ : (p.readings token).2.HasSettings base costs := by
      obtain ⟨result, requests, tally, heq, -⟩ :=
        readings_read (hp.grammar_eq ▸ hg) (hp.grammar_eq ▸ hp.valid).filed token
      rw [heq]
      exact ⟨hconfig, hcosts⟩
    generalize p.readings token = read at hconfig'
    obtain ⟨result, q⟩ := read
    cases result with
    | error e => rfl
    | ok result =>
        cases result with
        | error why => rfl
        | ok news =>
            obtain ⟨hopened, -⟩ := openColumn_hasSettings (p := q) ⟨hconfig', rfl⟩ token news
            simp only
            rw [openColumn_withSettings, closeColumn_withSettings _ config costs
              (hopened ▸ h.ceiling) (hopened ▸ h.items)]
  · rw [if_pos ⟨h.limit, hover⟩]
    exact .inr ⟨hover, rfl⟩

variable {σ : Type} [TokenSource σ] (source : σ)

/-- A run over the tokens of a source is the same under the limit, as long as there is a
column for each token that it takes. -/
theorem parseTokens_narrowed (hg : g.Numbered) (hp : p.Scanning g)
    (hroom : p.columnCount ≤ config.maxColumns) (answers asked : List TokenAnswer)
    (hasked : (p.parseTokens (⟨source, answers⟩ : Recorded σ)).source.answers = answers ++ asked) :
    p.columnCount + (tokensOf asked).length ≤ config.maxColumns ∧
      (p.withSettings config costs).parseTokens source =
        (p.parseTokens source).withSettings config costs ∨
    config.maxColumns < p.columnCount + (tokensOf asked).length ∧
      ((p.withSettings config costs).parseTokens source).result =
        .error (.inputTooLarge (config.maxColumns + 1) config.maxColumns) := by
  induction hn : TokenSource.size source using Nat.strong_induction_on
    generalizing p source answers asked with
  | _ n ih =>
  cases hnext : TokenSource.next source with
  | mk answer rest =>
      obtain ⟨more, rfl⟩ := parseTokens_asked hnext hasked
      rw [parseTokens_next (Recorded.next_eq hnext answers)] at hasked
      rw [parseTokens_next hnext, parseTokens_next hnext]
      rcases answer with cause | ⟨⟩ | token
      · obtain rfl : more = [] := by simpa [feed] using hasked
        exact .inl ⟨hroom, rfl⟩
      · obtain rfl : more = [] := by simpa [feed] using hasked
        simp only [feed, finish_withSettings]
        exact .inl ⟨hroom, rfl⟩
      · have hnarrowed := feedToken_narrowed h hset hg hp token
        have hscanning := (feedToken_healthy hg hp token).1
        have hcolumns := feedToken_columnCount hg hp token
        have hset' := (hasSettings_carried hg base costs).fed (.ok (some token)) hp hset
        have htaken : (tokensOf (.ok (some token) :: more)).length = (tokensOf more).length + 1 :=
          rfl
        simp only [feed] at hasked hset' ⊢
        generalize (p.withSettings config costs).feedToken token = bounded at hnarrowed ⊢
        generalize p.feedToken token = fed at hasked hnarrowed hscanning hcolumns hset'
        obtain ⟨result, next⟩ := fed
        rw [htaken]
        rcases hnarrowed with ⟨hlt, rfl⟩ | ⟨hover, hstop⟩
        · cases result with
          | error e =>
              obtain rfl : more = [] := by simpa using hasked
              exact .inl ⟨hlt, rfl⟩
          | ok progress =>
              cases progress with
              | done verdict =>
                  obtain rfl : more = [] := by simpa using hasked
                  exact .inl ⟨hlt, rfl⟩
              | more =>
                  have hsize : TokenSource.size rest < n := hn ▸ TokenSource.size_next hnext
                  have hcount : next.columnCount = p.columnCount + 1 := hcolumns rfl
                  have hrest := ih _ hsize hset' rest (hscanning rfl) (hcount ▸ hlt)
                    (answers ++ [.ok (some token)]) more (by simpa using hasked) rfl
                  rw [hcount, Nat.add_right_comm, Nat.add_assoc] at hrest
                  exact hrest
        · obtain ⟨result', next'⟩ := bounded
          obtain rfl : result' = _ := hstop
          have hfull : p.columnCount = config.maxColumns := Nat.le_antisymm hroom hover
          exact .inr ⟨by omega, by rw [hfull]⟩

/-- A whole run is the same under the limit, as long as it takes fewer tokens. -/
theorem parse_narrowed (hg : g.Numbered) (hp : p.Healthy g) (hnew : p.settled? = none)
    (hstart : p.state = .start) (hblank : p.chart.columns = #[]) :
    (p.taken (.parse source)).length < config.maxColumns ∧
      (p.withSettings config costs).parse source =
        (p.parse source).withSettings config costs ∨
    config.maxColumns ≤ (p.taken (.parse source)).length ∧
      ((p.withSettings config costs).parse source).result =
        .error (.inputTooLarge (config.maxColumns + 1) config.maxColumns) := by
  obtain ⟨hconfig, hcosts⟩ := hset
  have hsettled : (p.withSettings config costs).settled? = none := hnew
  have hbegun := p.begin_withSettings config costs (hconfig ▸ h.ceiling) (hconfig ▸ h.items)
  have hscanning := begin_scanning hg hp hnew
  have hset' := begin_hasSettings (p := p) ⟨hconfig, hcosts⟩
  have hcolumns := begin_columnCount hg hp hstart hblank
  simp only [taken, asked, parse, hsettled, hnew, hbegun]
  generalize p.begin = begun at hscanning hset' hcolumns
  obtain ⟨result, next⟩ := begun
  cases result with
  | error e => exact .inl ⟨h.limit, rfl⟩
  | ok =>
      have hcount : next.columnCount = 1 := hcolumns rfl
      have hrun := parseTokens_narrowed h hset' source hg (hscanning rfl)
        (hcount ▸ h.limit) [] _ (List.nil_append _).symm
      rw [hcount, Nat.add_comm, Nat.lt_succ_iff] at hrun
      exact hrun

end side

end Parser
end EarleyChart
