import EarleyChart.Proofs.Parser.Accounts
import Mathlib.Data.List.Induction

/-!
Where a run that rejects its input stops. The columns behind the first one hold the
tokens that the source gave, so that the column of a rejection is the number of the
request that was answered by the token it names, or by the end of the input. In the
latter case it tells the position just past the last token.
-/

namespace EarleyChart

namespace TokenSource

variable {σ : Type} [TokenSource σ]

def after (source : σ) : Nat → σ
  | 0 => source
  | n + 1 => (next (after source n)).2

def answer (source : σ) (n : Nat) : TokenAnswer := (next (after source n)).1

theorem next_after (source : σ) (n : Nat) :
    next (after source n) = (answer source n, after source (n + 1)) := rfl

def Gives (source : σ) (taken : List Token) : Prop :=
  ∀ k token, taken[k]? = some token → answer source k = .ok (some token)

theorem gives_nil (source : σ) : Gives source [] := fun _ _ h => by
  rw [List.getElem?_nil] at h
  contradiction

theorem Gives.concat {source : σ} {taken : List Token} {token : Token} (h : Gives source taken)
    (hanswer : answer source taken.length = .ok (some token)) :
    Gives source (taken ++ [token]) := by
  intro k given hk
  rcases Nat.lt_trichotomy k taken.length with hlt | rfl | hgt
  · rw [List.getElem?_append_left hlt] at hk
    exact h k given hk
  · rw [List.getElem?_concat_length] at hk
    cases hk
    exact hanswer
  · rw [List.getElem?_eq_none (by rwa [List.length_append])] at hk
    contradiction

end TokenSource

/-- A rejection comes from the answers to the requests of a run: a token stands in the way, or
the input ends, at its beginning or just past the last token. -/
inductive Rejection.Answers (answer : Nat → TokenAnswer) : Rejection → Prop
  | token {why : Rejection} {token : Token} (hanswer : answer why.column = .ok (some token))
      (htoken : why.token? = some token) : Answers answer why
  | ended {k : Nat} {last : Token} (hlast : answer k = .ok (some last))
      (hend : answer (k + 1) = .ok none) (expected : List SymbolId) :
      Answers answer (.unexpectedEnd (k + 1) last.endLocation expected)
  | empty (hend : answer 0 = .ok none) (expected : List SymbolId) :
      Answers answer (.unexpectedEnd 0 .start expected)

namespace Parser

variable {g : Grammar} {p : Parser} {taken : List Token} {why : Rejection}

/-- The newest column is the one behind the last token. -/
theorem records_current (h : p.chart.Records taken) : p.chart.current = taken.length ∧
    p.endLocation = (taken.getLast?.map Token.endLocation).getD .start := by
  have hcurrent : p.chart.current = taken.length := by
    rw [Chart.current, h.size, Nat.add_sub_cancel]
  have hlast : p.chart.newest?.bind (·.token) = taken.getLast? := by
    change p.chart.token? p.chart.current = _
    rw [hcurrent, List.getLast?_eq_getElem?]
    cases taken with
    | nil => exact h.first
    | cons first more => exact h.token more.length
  refine ⟨hcurrent, ?_⟩
  rw [endLocation, hlast]
  cases taken.getLast? <;> rfl

/-- A token that is rejected is the one that was read, behind the newest column. -/
theorem feedToken_rejected {token : Token} {next : Parser}
    (h : p.feedToken token = (.ok (.done (.rejected why)), next)) :
    why.column = p.chart.current ∧ why.token? = some token := by
  rw [feedToken] at h
  split at h
  · cases h
  · have hinterprets := p.readings_interprets token
    generalize p.readings token = read at hinterprets h
    cases hinterprets with
    | refused | exhausted | overBudget =>
        cases h
        exact ⟨rfl, rfl⟩
    | unpriced => cases h
    | scanned | scannedAsking | corrected =>
        -- the closure of a column comes to no verdict
        have hclosed := congrArg Prod.fst h
        simp only at hclosed
        generalize (Parser.openColumn _ token _).closeColumn.1 = closed at hclosed
        cases closed <;> cases hclosed

theorem finish_rejected (h : p.finish.1 = .rejected why) :
    why = .unexpectedEnd p.chart.current p.endLocation p.expectedTerminals := by
  rw [finish] at h
  split at h
  · contradiction
  · exact (Verdict.rejected.inj h).symm

/-- The end of the input is met just past the last token. -/
theorem ended_answers {σ : Type} [TokenSource σ] {source : σ} (hrecords : p.chart.Records taken)
    (hgives : TokenSource.Gives source taken)
    (hend : TokenSource.answer source taken.length = .ok none) (h : p.finish.1 = .rejected why) :
    why.Answers (TokenSource.answer source) := by
  obtain ⟨hcurrent, hlocation⟩ := records_current hrecords
  rw [finish_rejected h, hcurrent, hlocation]
  cases taken using List.reverseRecOn with
  | nil => exact .empty hend _
  | append_singleton front last =>
      rw [List.getLast?_concat, List.length_append]
      rw [List.length_append] at hend
      exact .ended (hgives front.length last List.getElem?_concat_length) hend _

variable (hg : g.Numbered)

include hg in
theorem Scanning.feedToken_records (hp : p.Scanning g) (h : p.chart.Records taken) {token : Token}
    {next : Parser} (hmore : p.feedToken token = (.ok .more, next)) :
    next.chart.Records (taken ++ [token]) := by
  have hfeeds := hp.feeds hg token
  rw [hmore] at hfeeds
  cases hfeeds with
  | closed news requests tally hread next hclose =>
      have hclosable := hp.opened_closable hg hread requests tally
      have hopened := hp.opened_records hg h hread requests tally
      obtain ⟨rfl, -⟩ := hp
      obtain ⟨hsize, htoken, -⟩ :=
        closeColumn_frame (p := p.opened token news requests tally) hg hclosable
      rw [hclose] at hsize htoken
      exact hopened.congr hsize htoken

include hg in
theorem Healthy.begin_records (hp : p.Healthy g) (hstart : p.state = .start) (hblank : p.Unbegun)
    (hok : p.begin.1 = .ok ()) : p.begin.2.chart.Records [] := by
  rcases begin_cases p with ⟨e, -, heq⟩ | ⟨herror, -, heq⟩ | ⟨-, hlater, -⟩
  · rw [heq] at hok
    contradiction
  · rw [heq] at hok ⊢
    rcases seed_cases p with ⟨reason, heq⟩ | ⟨tally, heq⟩
    · rw [heq] at hok
      contradiction
    · have hclosable := hp.seeded_closable hg herror tally
      have hrecords := hp.seeded_records hg herror (hblank hstart) tally
      obtain rfl := hp.grammar_eq
      obtain ⟨hsize, htoken, -⟩ := closeColumn_frame (p := p.seeded tally) hg hclosable
      rw [heq]
      exact hrecords.congr hsize htoken
  · exact absurd hstart hlater

variable {σ : Type} [TokenSource σ] {source : σ}

include hg in
/-- The run has taken the first answers of the source, and goes on with the next. -/
theorem Scanning.parseTokens_rejected (hp : p.Scanning g) (hrecords : p.chart.Records taken)
    (hgives : TokenSource.Gives source taken)
    (h : (p.parseTokens (TokenSource.after source taken.length)).result = .ok (.rejected why)) :
    why.Answers (TokenSource.answer source) := by
  induction hn : TokenSource.size (TokenSource.after source taken.length)
    using Nat.strong_induction_on generalizing p taken with
  | _ n ih =>
  have hnext := TokenSource.next_after source taken.length
  rw [parseTokens_next hnext] at h
  cases hanswer : TokenSource.answer source taken.length with
  | error cause =>
      rw [hanswer] at h
      cases h
  | ok token? =>
      rw [hanswer] at h hnext
      cases token? with
      | none => exact ended_answers hrecords hgives hanswer (Except.ok.inj h)
      | some token =>
          have hscanning := (feedToken_healthy hg hp token).1
          rw [show p.feed (.ok (some token)) = p.feedToken token from rfl] at h
          cases hfed : p.feedToken token with
          | mk result next =>
              rw [hfed] at h hscanning
              cases result with
              | error e => cases h
              | ok progress =>
                  cases progress with
                  | done verdict =>
                      obtain rfl : verdict = .rejected why := Except.ok.inj h
                      obtain ⟨hcolumn, htoken⟩ := feedToken_rejected hfed
                      rw [(records_current hrecords).1] at hcolumn
                      exact .token (hcolumn ▸ hanswer) htoken
                  | more =>
                      have hlength : (taken ++ [token]).length = taken.length + 1 := by simp
                      refine ih _ ?_ (hscanning rfl) (hp.feedToken_records hg hrecords hfed)
                        (hgives.concat hanswer) (by rwa [hlength]) rfl
                      rw [hlength]
                      exact hn ▸ TokenSource.size_next hnext

include hg in
/-- A rejection comes from the answers of the source, whatever the settings and the costs. -/
theorem parse_rejected (hp : Reached g p) (hstart : p.state = .start) (source : σ)
    (h : (p.parse source).result = .ok (.rejected why)) :
    why.Answers (TokenSource.answer source) := by
  have hhealthy := hp.healthy hg
  rw [parse] at h
  cases hsettled : p.settled? with
  | some result =>
      rw [hsettled] at h
      rw [settled?] at hsettled
      split at hsettled
      · cases hsettled
        contradiction
      · rw [hstart] at hsettled
        contradiction
  | none =>
      have hscanning := begin_scanning hg hhealthy hsettled
      have hrecords := hhealthy.begin_records hg hstart (hp.unbegun hg)
      rw [hsettled] at h
      generalize p.begin = begun at h hscanning hrecords
      obtain ⟨result, next⟩ := begun
      cases result with
      | error e => contradiction
      | ok =>
          have hgives := TokenSource.gives_nil source
          exact (hscanning rfl).parseTokens_rejected hg (hrecords rfl) hgives h

end Parser
end EarleyChart
