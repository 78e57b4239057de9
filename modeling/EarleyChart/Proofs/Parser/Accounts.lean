import EarleyChart.Proofs.Parser.Requests
import EarleyChart.Proofs.Parser.Turns

/-!
The account of a run. The columns behind the first one hold the tokens taken, in
order, but for a last one that was turned away; state, verdict and forest tell the
same story. Every step keeps the account, so that it holds between two resets whatever
the steps and the sources are.
-/

namespace EarleyChart

/-- Whether a verdict turns a token away. -/
def Verdict.turnsAway : Verdict → Bool
  | .accepted => false
  | .rejected why => why.token?.isSome

namespace Chart

/-- The columns hold tokens in order, behind a first one that holds none. -/
structure Records (c : Chart) (tokens : List Token) : Prop where
  size : c.columns.size = tokens.length + 1
  first : c.token? 0 = none
  token : ∀ k, c.token? (k + 1) = tokens[k]?

variable {g : Grammar} {c c' : Chart} {tokens : List Token}

theorem Records.congr (h : c.Records tokens) (hsize : c'.columns.size = c.columns.size)
    (htoken : ∀ i, c'.token? i = c.token? i) : c'.Records tokens where
  size := hsize.trans h.size
  first := (htoken 0).trans h.first
  token k := (htoken (k + 1)).trans (h.token k)

theorem Records.openColumn (h : c.Records tokens) (g : Grammar) (token : Token) :
    (c.openColumn g (some token)).Records (tokens ++ [token]) := by
  constructor
  case size =>
    rw [(c.current_openColumn g (some token)).1, h.size, List.length_append]
    rfl
  case first =>
    rw [token?_openColumn, if_neg, h.first]
    rw [h.size]
    exact Nat.succ_ne_zero _ ∘ Eq.symm
  case token =>
    intro k
    rw [token?_openColumn, h.token k, h.size]
    split
    · next hk =>
        obtain rfl := Nat.succ.inj hk
        rw [List.getElem?_concat_length]
    · next hk =>
        by_cases hlt : k < tokens.length
        · rw [List.getElem?_append_left hlt]
        · rw [List.getElem?_eq_none (Nat.le_of_not_lt hlt), List.getElem?_eq_none]
          rw [List.length_append, List.length_singleton]
          omega

end Chart

namespace Parser

/-- Whether the last token taken was turned away: it was rejected, it was one too many
for the limit on columns, or the cost provider did not answer as it should. -/
def turnedAway (p : Parser) : Bool := p.error.any (·.turnsAway) || p.verdict.any (·.turnsAway)

structure Accounted (p : Parser) (taken : List Token) : Prop where
  blank : p.columnCount = 0 ↔ p.state = .start
  untaken : p.columnCount = 0 → taken = []
  first : p.chart.token? 0 = none
  column : ∀ k, k + 1 < p.columnCount → p.chart.token? (k + 1) = taken[k]?
  count : 0 < p.columnCount → p.columnCount + p.turnedAway.toNat = 1 + taken.length
  last : ∀ why token, p.verdict = some (.rejected why) → why.token? = some token →
    taken.getLast? = some token
  accepted : p.state = .accepted ↔ p.verdict = some .accepted
  rejected : p.state = .rejected ↔ ∃ why, p.verdict = some (.rejected why)

variable {g : Grammar} {p : Parser} {taken : List Token}

theorem Accounted.verdict_eq (h : p.Accounted taken) (hstate : p.state.isFinal = false) :
    p.verdict = none := by
  cases hverdict : p.verdict with
  | none => rfl
  | some verdict =>
      cases verdict with
      | accepted =>
          rw [h.accepted.mpr hverdict] at hstate
          contradiction
      | rejected why =>
          rw [h.rejected.mpr ⟨why, hverdict⟩] at hstate
          contradiction

/-- A run that waits for a token has turned none away. -/
theorem Accounted.records (h : p.Accounted taken) (hp : p.Scanning g) :
    p.verdict = none ∧ p.chart.Records taken := by
  have hverdict := h.verdict_eq (by rw [hp.state_eq]; rfl)
  have hcount := h.count hp.nonempty
  have hsize : p.chart.columns.size = taken.length + 1 := by
    simp only [turnedAway, hp.error_eq, hverdict, Option.any_none, Bool.or_self,
      Bool.toNat_false, columnCount] at hcount
    omega
  refine ⟨hverdict, hsize, h.first, fun k => ?_⟩
  by_cases hlt : k < taken.length
  · apply h.column k
    rw [columnCount, hsize]
    omega
  · rw [List.getElem?_eq_none (Nat.le_of_not_lt hlt), Chart.token?, Array.getElem?_eq_none]
    · rfl
    · omega

/-- The columns hold the tokens taken, but for one at most that was turned away. -/
theorem accounted_of_records {kept more : List Token} (htaken : taken = kept ++ more)
    (hrecords : p.chart.Records kept) (hstate : p.state ≠ .start)
    (hmore : more.length = p.turnedAway.toNat)
    (hlast : ∀ why, p.verdict = some (.rejected why) → ∀ token, why.token? = some token →
      more.getLast? = some token)
    (haccepted : p.state = .accepted ↔ p.verdict = some .accepted)
    (hrejected : p.state = .rejected ↔ ∃ why, p.verdict = some (.rejected why)) :
    p.Accounted taken := by
  have hsize : p.columnCount = kept.length + 1 := hrecords.size
  subst htaken
  constructor
  case blank =>
    rw [hsize]
    exact ⟨fun h => absurd h (Nat.succ_ne_zero _), fun h => absurd h hstate⟩
  case untaken =>
    intro h
    rw [hsize] at h
    contradiction
  case first => exact hrecords.first
  case column =>
    intro k hk
    rw [hsize] at hk
    rw [hrecords.token k, List.getElem?_append_left (Nat.lt_of_succ_lt_succ hk)]
  case count =>
    intro _
    rw [hsize, List.length_append, hmore]
    omega
  case last =>
    intro why token hverdict htoken
    rw [List.getLast?_append, hlast why hverdict token htoken]
    rfl
  case accepted => exact haccepted
  case rejected => exact hrejected

/-- Closing a column keeps the columns and their tokens, and fails only at the limit on
items. -/
theorem closeColumn_frame (hg : p.grammar.Numbered) (hc : p.chart.Closable p.grammar) :
    p.closeColumn.2.chart.columns.size = p.chart.columns.size ∧
      (∀ i, p.closeColumn.2.chart.token? i = p.chart.token? i) ∧
      p.closeColumn.2.verdict = p.verdict ∧
      (p.closeColumn.2.state = .scanning ∧ p.closeColumn.2.error = p.error ∨
        p.closeColumn.2.state = .closing ∧
          ∃ n limit, p.closeColumn.2.error = some (.itemLimitExceeded n limit)) := by
  obtain ⟨chart, tally, error, heq, hcloses⟩ := close_spec { p with state := .closing } hg hc
  rw [closeColumn, heq]
  cases error with
  | none =>
      obtain ⟨hall, -⟩ := hcloses.done rfl
      obtain ⟨-, hprogress⟩ := hall.closable hg hc
      exact ⟨hprogress.size, hprogress.token, rfl, .inl ⟨rfl, rfl⟩⟩
  | some e =>
      obtain ⟨-, ⟨n, rfl⟩, before, id, hall, -, rfl⟩ := hcloses.limit e rfl
      obtain ⟨-, hprogress⟩ := hall.closable hg hc
      exact ⟨hprogress.size, hprogress.token, rfl, .inr ⟨rfl, n, _, rfl⟩⟩

theorem accounted_closeColumn (hg : p.grammar.Numbered) (hc : p.chart.Closable p.grammar)
    (hrecords : p.chart.Records taken) (herror : p.error = none) (hverdict : p.verdict = none) :
    p.closeColumn.2.Accounted taken := by
  obtain ⟨hsize, htoken, hsame, hend⟩ := closeColumn_frame hg hc
  rw [hverdict] at hsame
  apply accounted_of_records (List.append_nil taken).symm (hrecords.congr hsize htoken)
  all_goals
    cases hend with
    | inl hdone => simp [turnedAway, hdone, hsame, herror]
    | inr hlimit =>
        obtain ⟨hstate, n, limit, hlimit⟩ := hlimit
        simp [turnedAway, hstate, hlimit, hsame, ParseError.turnsAway]

/-- So does a closure that the clock breaks off. -/
theorem accounted_timedOut (hg : p.grammar.Numbered) (hc : p.chart.Closable p.grammar)
    (hrecords : p.chart.Records taken) (hstate : p.state = .closing) (hverdict : p.verdict = none)
    (steps elapsed : Nat) : (p.timedOut steps elapsed).Accounted taken := by
  obtain ⟨-, -, -, -, hprogress⟩ := closeFor_continues hg hc steps
  have hsame : (p.timedOut steps elapsed).state = .closing := (p.closeFor_state steps).trans hstate
  have hnone : (p.timedOut steps elapsed).verdict = none := by
    apply (closeFor_kept fun q => q.verdict = none) _ _ steps hverdict
    · exact id
    · intro q item h
      obtain ⟨tally, heq⟩ := process_eq q item
      rwa [heq]
  have herror : (p.timedOut steps elapsed).error =
      some (.timeoutExceeded elapsed p.config.timeoutMs) := rfl
  apply accounted_of_records (List.append_nil taken).symm
  case hrecords => exact hrecords.congr hprogress.size hprogress.token
  all_goals simp [hsame, hnone, herror, turnedAway, ParseError.turnsAway]

variable (hg : g.Numbered)

include hg in
theorem Healthy.seeded_records (h : p.Healthy g) (herror : p.error = none)
    (hempty : p.chart.columns = #[]) (tally : Tally) : (p.seeded tally).chart.Records [] := by
  have hrecords : (p.chart.openColumn g none).Records [] := by
    constructor
    case size => rw [(p.chart.current_openColumn g none).1, hempty]; rfl
    case first => rw [Chart.token?_openColumn, Chart.token?, hempty]; rfl
    case token =>
      intro k
      rw [Chart.token?_openColumn, Chart.token?, hempty]
      rfl
  obtain ⟨-, hprogress⟩ := h.seeded_progresses hg herror tally
  exact hrecords.congr hprogress.size hprogress.token

include hg in
theorem Accounted.begin (h : p.Accounted taken) (hp : p.Healthy g) (hblank : p.Unbegun) :
    p.begin.2.Accounted taken := by
  rcases begin_cases p with ⟨e, -, heq⟩ | ⟨herror, hstart, heq⟩ | ⟨-, -, heq⟩
  · rwa [heq]
  · have hempty := hblank hstart
    have hcount : p.columnCount = 0 := by rw [columnCount, hempty]; rfl
    obtain rfl := h.untaken hcount
    have hverdict := h.verdict_eq (by rw [hstart]; rfl)
    rw [heq]
    rcases seed_cases p with ⟨reason, heq⟩ | ⟨tally, heq⟩
    · rw [heq]
      exact ⟨h.blank, h.untaken, h.first, h.column,
        fun hpos => absurd hcount (Nat.ne_of_gt hpos), h.last, h.accepted, h.rejected⟩
    · rw [heq]
      have hclosable := hp.seeded_closable hg herror tally
      have hrecords := hp.seeded_records hg herror hempty tally
      obtain rfl := hp.grammar_eq
      exact accounted_closeColumn (p := p.seeded tally) hg hclosable hrecords herror hverdict
  · rwa [heq]

include hg in
theorem Scanning.opened_records (hp : p.Scanning g) (hrecords : p.chart.Records taken)
    {token : Token} {news : List Candidate} {price : ItemId → Option CorrectionCost}
    (hread : ∀ new ∈ news, p.Read price token new) (requests : List CostRequest)
    (tally : Tally) : (p.opened token news requests tally).chart.Records (taken ++ [token]) := by
  have hframe := (hp.opened_extends hg hread requests tally).frame
  exact (hrecords.openColumn g token).congr hframe.size hframe.token

include hg in
/-- The clock breaks off the first step, which takes no token. -/
theorem Accounted.first_timedOut (h : p.Accounted taken) (hp : p.Healthy g)
    (hblank : p.Unbegun) (hstart : p.state = .start) {q : Parser} (hfills : p.Fills q)
    (steps elapsed : Nat) : (q.timedOut steps elapsed).Accounted taken := by
  have hempty := hblank hstart
  have hcount : p.columnCount = 0 := by rw [columnCount, hempty]; rfl
  obtain rfl := h.untaken hcount
  have hverdict := h.verdict_eq (by rw [hstart]; rfl)
  rcases fills_cases hg hp hfills with ⟨-, herror, tally, rfl⟩ | ⟨hscanning, -⟩
  · have hclosable := hp.seeded_closable hg herror tally
    have hrecords := hp.seeded_records hg herror hempty tally
    obtain rfl := hp.grammar_eq
    exact accounted_timedOut (p := { p.seeded tally with state := .closing }) hg hclosable
      hrecords rfl hverdict steps elapsed
  · rw [hscanning.state_eq] at hstart
    contradiction

include hg in
/-- The clock breaks off a step that has taken a token, which a column holds. -/
theorem Accounted.next_timedOut (h : p.Accounted taken) (hp : p.Healthy g) {token : Token}
    {q : Parser} (hfills : p.FillsFor token q) (steps elapsed : Nat) :
    (q.timedOut steps elapsed).Accounted (taken ++ [token]) := by
  obtain ⟨hscanning, news, price, requests, tally, -, hread, rfl⟩ := hfills.opened hg hp
  obtain ⟨hverdict, hrecords⟩ := h.records hscanning
  have hclosable := hscanning.opened_closable hg hread requests tally
  have hopened := hscanning.opened_records hg hrecords hread requests tally
  obtain rfl := hp.grammar_eq
  exact accounted_timedOut (p := { p.opened token news requests tally with state := .closing })
    hg hclosable hopened rfl hverdict steps elapsed

include hg in
theorem Accounted.feedToken (h : p.Accounted taken) (hp : p.Scanning g) (token : Token) :
    (p.feedToken token).2.Accounted (taken ++ [token]) := by
  obtain ⟨hverdict, hrecords⟩ := h.records hp
  have hfeeds := hp.feeds hg token
  generalize p.feedToken token = outcome at hfeeds
  -- The token is turned away, or a column holds it, even if its closure is broken off.
  cases hfeeds with
  | failed e requests tally hcause =>
      apply accounted_of_records (p := fail { p with requests := requests, tally := tally } e)
        rfl hrecords
      all_goals simp [fail, turnedAway, hp.state_eq, hverdict, hcause]
  | rejected why requests tally htoken =>
      apply accounted_of_records
        (p := (reject { p with requests := requests, tally := tally } why).2) rfl hrecords
      all_goals simp [reject, turnedAway, Verdict.turnsAway, htoken]
  | stopped news requests tally hread e next hclose
  | closed news requests tally hread next hclose =>
      have hclosable := hp.opened_closable hg hread requests tally
      have hopened := hp.opened_records hg hrecords hread requests tally
      obtain ⟨rfl, -, -, -, -, herror⟩ := hp
      have hclosed := accounted_closeColumn (p := p.opened token news requests tally) hg hclosable
        hopened herror hverdict
      rwa [hclose] at hclosed

theorem Accounted.finish (h : p.Accounted taken) (hp : p.Scanning g) :
    p.finish.2.Accounted taken := by
  obtain ⟨hverdict, hrecords⟩ := h.records hp
  rw [Parser.finish]
  split
  · apply accounted_of_records (p := p.accept.2) (List.append_nil taken).symm hrecords
    all_goals simp [accept, turnedAway, hp.error_eq, Verdict.turnsAway]
  · apply accounted_of_records (p := (p.reject _).2) (List.append_nil taken).symm hrecords
    all_goals simp [reject, turnedAway, hp.error_eq, Verdict.turnsAway, Rejection.token?]

include hg in
theorem Accounted.feed (h : p.Accounted taken) (hp : p.Scanning g) (answer : TokenAnswer) :
    (p.feed answer).2.Accounted (taken ++ tokensOf [answer]) := by
  cases answer with
  | error cause =>
      obtain ⟨hverdict, hrecords⟩ := h.records hp
      apply accounted_of_records (p := p.fail _) rfl hrecords
      all_goals simp [fail, tokensOf, turnedAway, ParseError.turnsAway, hp.state_eq, hverdict]
  | ok token? =>
      cases token? with
      | none =>
          change p.finish.2.Accounted (taken ++ [])
          rw [List.append_nil]
          exact h.finish hp
      | some token => exact h.feedToken hg hp token

end Parser
end EarleyChart
