import EarleyChart.Proofs.Parser.Checked
import EarleyChart.Proofs.Parser.Lasting
import EarleyChart.Proofs.Parser.Recognition

/-!
No lookup of the engine is out of range. Whatever was done with a parser, and also where
the clock broke off the closure of a column, the engine with its lookups checked does what
the engine does. The links and the queue name items of the chart, and no operation answers
with an internal error.
-/

namespace EarleyChart

/-- Whatever a link leads to and whatever is queued is an item of the chart. -/
structure Chart.Resolves (c : Chart) : Prop where
  left : ∀ id item, c.item? id = some item → ∀ link ∈ item.links,
    (c.item? link.left).isSome = true
  right : ∀ id item, c.item? id = some item → ∀ link ∈ item.links, ∀ other,
    link.right = some other → (c.item? other).isSome = true
  queued : ∀ id ∈ c.worklist.toList, (c.item? id).isSome = true

theorem Chart.Valid.resolves {g : Grammar} {c : Chart} (h : c.Valid g) : c.Resolves := by
  constructor
  case left =>
    intro id item hitem link hlink
    exact Option.isSome_iff_exists.mpr ((h.item id item hitem).shape link hlink).ends.1
  case right =>
    intro id item hitem link hlink other hother
    exact Option.isSome_iff_exists.mpr
      (((h.item id item hitem).shape link hlink).ends.2 other hother)
  case queued =>
    intro id hid
    exact Option.isSome_iff_exists.mpr (h.filed.queued id hid).2

namespace Parser

/-- A parser of a grammar after any operations. The clock is looked at after an item is
taken, and may break off any closure there, however far it got. A whole run is made of
steps, and is broken off in one of them. -/
inductive Attained (g : Grammar) : Parser → Prop
  | created (config : Config) : Attained g (withConfig g config)
  | performed {p : Parser} (h : Attained g p) (operation : Operation) :
      Attained g (p.perform operation).2
  | timedOut {p q : Parser} (h : Attained g p) (hfills : p.Fills q) (steps elapsed : Nat) :
      Attained g (q.timedOut steps elapsed)

/-- The run is not over with an internal error. -/
def Unbroken (p : Parser) : Prop := ∀ reason, p.settled? ≠ some (.error (.internal reason))

structure Intact (g : Grammar) (p : Parser) : Prop where
  healthy : p.Healthy g
  owns : p.chart.Owns
  unbroken : p.Unbroken

variable {g : Grammar} {p q : Parser}

theorem unbroken_of_settled {result : Except ParseError Verdict}
    (h : p.settled? = some result) (hresult : ∀ reason, result ≠ .error (.internal reason)) :
    p.Unbroken := by
  intro reason hinternal
  rw [h] at hinternal
  exact hresult reason (Option.some.inj hinternal)

theorem unbroken_of_unsettled (h : p.settled? = none) : p.Unbroken := by
  intro reason hinternal
  rw [h] at hinternal
  contradiction

/-- A closure stops at the limit on items, and for no other reason. -/
theorem closeColumn_limit (hg : p.grammar.Numbered) (hc : p.chart.Closable p.grammar)
    (herror : p.error = none) {e : ParseError} (h : p.closeColumn.1 = .error e) :
    ∃ items limit, e = .itemLimitExceeded items limit := by
  have hstored := closeColumn_error p e h
  obtain ⟨-, -, -, hend⟩ := closeColumn_frame hg hc
  rcases hend with ⟨-, hsame⟩ | ⟨-, items, limit, hlimit⟩
  · rw [hsame, herror] at hstored
    contradiction
  · exact ⟨items, limit, Option.some.inj (hstored.symm.trans hlimit)⟩

section run

variable (hg : g.Numbered)

include hg in
theorem begin_error_external (h : p.Healthy g) (hnone : p.error = none) {e : ParseError}
    (herror : p.begin.1 = .error e) (reason : String) : e ≠ .internal reason := by
  rcases begin_cases p with ⟨cause, hcause, -⟩ | ⟨-, -, heq⟩ | ⟨-, -, heq⟩
  · rw [hnone] at hcause
    contradiction
  · rw [heq] at herror
    rcases seed_cases p with ⟨cause, hseed⟩ | ⟨tally, hseed⟩
    · rw [hseed] at herror
      cases herror
      exact ParseError.noConfusion
    · rw [hseed] at herror
      obtain rfl := h.grammar_eq
      obtain ⟨items, limit, rfl⟩ := closeColumn_limit (p := p.seeded tally) hg
        (h.seeded_closable hg hnone tally) hnone herror
      exact ParseError.noConfusion
  · rw [heq] at herror
    contradiction

include hg in
theorem begin_unbroken (h : p.Healthy g) (hunbroken : p.Unbroken) : p.begin.2.Unbroken := by
  rcases begin_cases p with ⟨e, -, heq⟩ | ⟨hnone, hstart, -⟩ | ⟨-, -, heq⟩
  · rwa [heq]
  · cases hbegun : p.begin.1 with
    | ok => exact unbroken_of_unsettled ((begin_healthy hg h).1 hbegun hstart).unsettled
    | error e =>
        apply unbroken_of_settled (settled_of_error (begin_error hbegun))
        intro reason heq
        exact begin_error_external hg h hnone hbegun reason (Except.error.inj heq)
  · rwa [heq]

include hg in
theorem feed_error_external (h : p.Scanning g) (answer : TokenAnswer) {e : ParseError}
    (herror : (p.feed answer).1 = .error e) (reason : String) : e ≠ .internal reason := by
  rcases answer with cause | ⟨⟩ | token
  · cases herror
    exact ParseError.noConfusion
  · contradiction
  · have hfeeds := h.feeds hg token
    obtain rfl := h.grammar_eq
    simp only [feed] at herror
    generalize p.feedToken token = outcome at hfeeds herror
    cases hfeeds with
    | failed cause requests tally hcause =>
        cases herror
        rintro rfl
        contradiction
    | stopped news requests tally hread cause next hclose =>
        cases herror
        obtain ⟨items, limit, rfl⟩ := closeColumn_limit (p := p.opened token news requests tally)
          hg (h.opened_closable hg hread requests tally) h.error_eq (by rw [hclose])
        exact ParseError.noConfusion
    | rejected | closed => contradiction

include hg in
theorem feed_unbroken (h : p.Scanning g) (answer : TokenAnswer) : (p.feed answer).2.Unbroken := by
  cases hfed : (p.feed answer).1 with
  | error e =>
      apply unbroken_of_settled (settled_of_error (feed_error hg h answer e hfed))
      intro reason heq
      exact feed_error_external hg h answer hfed reason (Except.error.inj heq)
  | ok progress =>
      cases progress with
      | more => exact unbroken_of_unsettled ((feed_healthy hg h answer).1 hfed).unsettled
      | done verdict =>
          exact unbroken_of_settled (h.feed_done hg answer verdict hfed) (by simp)

include hg in
theorem unbroken_carried : Carried g Unbroken where
  begun hp h := begin_unbroken hg hp h
  fed answer hp _ := feed_unbroken hg hp answer

theorem Attained.reached (h : Attained g p) : Reached g p := by
  induction h with
  | created config => exact .created config
  | performed _ operation ih => exact ih.perform operation
  | timedOut _ hfills steps elapsed ih => exact ih.timedOut hfills steps elapsed

include hg in
/-- No run is over with an internal error, and where the clock broke off a closure it is over
with an error of its own. -/
theorem Attained.unbroken (h : Attained g p) : p.Unbroken := by
  have hcarried := unbroken_carried hg
  induction h with
  | created => exact unbroken_of_unsettled rfl
  | performed h operation ih =>
      have hhealthy := h.reached.healthy hg
      cases operation with
      | setConfig | setCosts => exact ih
      | reset => exact unbroken_of_unsettled rfl
      | begin => exact hcarried.begun hhealthy ih
      | advance source => exact hcarried.advance hhealthy ih source
      | parse source => exact hcarried.parse hg hhealthy ih source
  | timedOut => exact unbroken_of_settled rfl (by simp)

include hg in
theorem Attained.intact (h : Attained g p) : p.Intact g :=
  ⟨h.reached.healthy hg, h.reached.owns hg, h.unbroken hg⟩

end run

/-- In every state of a parser, whatever was done before and wherever the clock broke off
a closure, the links and the queue name items of the chart. From there on no lookup is out
of range: a closure finds all that it looks up, as far as it goes, and so does every
operation, whatever its source answers. No operation answers with an internal error. -/
theorem attained_in_range (d : GrammarDef) (g : Grammar) (hd : d.toGrammar = .ok g)
    (p : Parser) (hp : Attained g p) :
    p.chart.Resolves ∧
      (∀ q, p.Fills q → ∀ steps,
        q.checkedCloseFor steps = some (q.closeFor steps) ∧
          (q.closeFor steps).1.chart.Resolves) ∧
      ∀ operation, p.checkedPerform operation = some (p.perform operation) ∧
        ∀ reason, (p.perform operation).1.final? ≠ some (.error (.internal reason)) := by
  have hg := d.toGrammar_numbered g hd
  have hintact := hp.intact hg
  refine ⟨hintact.healthy.valid.resolves, ?_, ?_⟩
  · intro q hfills steps
    obtain ⟨rfl, hc⟩ := hfills.closable hg hintact.healthy
    have hcontinues := closeFor_continues hg hc steps
    exact ⟨checkedCloseFor_eq hg hc steps, hcontinues.closable.valid.resolves⟩
  · intro operation
    refine ⟨checkedPerform_eq hg hintact.healthy hintact.owns operation, ?_⟩
    intro reason hfinal
    have hsettled := hintact.healthy.perform_final hg operation hfinal
    exact (hp.performed operation).unbroken hg reason hsettled

def primed : Parser :=
  let p := withConfig repetition ⟨.disabled, 3, 0, 0, 5, 0⟩
  { ({ p with state := .seeding, chart := p.chart.openColumn p.grammar none } : Parser).predict
      p.grammar.start with state := .closing }

def overtime : Parser := (primed.closeFor 3).1.popped.fail (.timeoutExceeded 6 5)

/-- The links and the queue are left in order, and the parser is used again. -/
theorem attained_in_range_overtime :
    let source := TokenStream.ofList [⟨0, "a", .start⟩]
    overtime.error = some (.timeoutExceeded 6 5) ∧
      overtime.chart.worklist.toList = [⟨0, 4⟩] ∧
      overtime.item? ⟨0, 4⟩ =
        some ⟨1, 1, 0, 0, 0, 4, [⟨.completed, ⟨0, 1⟩, some ⟨0, 2⟩⟩]⟩ ∧
      overtime.chart.Resolves ∧
      overtime.checkedPerform .reset = some (.silent, overtime.reset) ∧
      overtime.reset.checkedPerform (.parse source) =
        some (overtime.reset.perform (.parse source)) ∧
      (overtime.reset.parse source).result = .ok .accepted := by
  intro source
  have hfills : (withConfig repetition ⟨.disabled, 3, 0, 0, 5, 0⟩).Fills primed :=
    .first rfl rfl (by decide +kernel)
  have hattained : Attained repetition overtime := .timedOut (.created _) hfills 3 6
  obtain ⟨hresolves, -, hperform⟩ :=
    attained_in_range repetitionDef repetition rfl overtime hattained
  obtain ⟨-, -, hagain⟩ :=
    attained_in_range repetitionDef repetition rfl overtime.reset (hattained.performed .reset)
  exact ⟨rfl, by decide +kernel, by decide +kernel, hresolves, (hperform .reset).1,
    (hagain (.parse source)).1, by decide +kernel⟩

end Parser
end EarleyChart
