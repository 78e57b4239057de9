import EarleyChart.Proofs.Lexer.Tracking
import EarleyChart.Proofs.Parser.Rejected
import Mathlib.Data.List.TakeWhile

/-!
The excerpt of a rejection: the whole line of the source around the place that the
rejection refers to, and a caret below. The offset, the line and the column are tracked
by the lexer, the line that is shown is looked up in the source; they belong together
whatever characters the source holds.
-/

namespace EarleyChart

/-- A text cut around an offset: the lines above, the line up to the offset and from there on,
and what comes below. -/
structure LineCut (source : List Char) (offset : Nat) where
  above : List Char
  front : List Char
  back : List Char
  below : List Char
  source_eq : source = above ++ front ++ (back ++ below)
  offset_eq : byteLength (above ++ front) = offset
  above_last : ∀ c, above.getLast? = some c → c = '\n'
  below_head : ∀ c, below.head? = some c → c = '\n'
  front_unbroken : '\n' ∉ front
  back_unbroken : '\n' ∉ back

namespace LineCut

variable {source : List Char} {offset : Nat}

def line (cut : LineCut source offset) : Nat := 1 + cut.above.count '\n'

def column (cut : LineCut source offset) : Nat := 1 + cut.front.length

def excerpt (cut : LineCut source offset) : String :=
  s!"Error at line {cut.line}, column {cut.column}:\n" ++
    String.ofList (cut.front ++ cut.back) ++ "\n" ++
    String.ofList (List.replicate cut.front.length ' ' ++ ['^']) ++ "\n"

end LineCut

def linesAbove (text : List Char) : List Char :=
  (text.reverse.dropWhile (· != '\n')).reverse

def linesBelow (text : List Char) : List Char :=
  text.dropWhile (· != '\n')

theorem linesAbove_append_lastLine (text : List Char) :
    linesAbove text ++ lastLine text = text := by
  rw [linesAbove, lastLine, ← List.reverse_append, List.takeWhile_append_dropWhile,
    List.reverse_reverse]

theorem firstLine_append_linesBelow (text : List Char) :
    firstLine text ++ linesBelow text = text := List.takeWhile_append_dropWhile

theorem head?_linesBelow {text : List Char} {c : Char} (h : (linesBelow text).head? = some c) :
    c = '\n' := by
  have hc := List.head?_dropWhile_not (· != '\n') text
  rw [show text.dropWhile (· != '\n') = linesBelow text from rfl, h] at hc
  simpa using hc

theorem not_mem_firstLine (text : List Char) : '\n' ∉ firstLine text := fun h => by
  simpa using List.mem_takeWhile_imp h

namespace LineCut

def ofSplit (before after : List Char) : LineCut (before ++ after) (byteLength before) where
  above := linesAbove before
  front := lastLine before
  back := firstLine after
  below := linesBelow after
  source_eq := by rw [linesAbove_append_lastLine, firstLine_append_linesBelow]
  offset_eq := by rw [linesAbove_append_lastLine]
  above_last _ h := by
    rw [linesAbove, List.getLast?_reverse] at h
    exact head?_linesBelow h
  below_head _ h := head?_linesBelow h
  front_unbroken h := not_mem_firstLine before.reverse (List.mem_reverse.mp h)
  back_unbroken := not_mem_firstLine after

/-- The tracked line and column of a place are the numbers of its line and its character. -/
theorem advance_start_eq (before after : List Char) : Location.start.advance before =
    ⟨(ofSplit before after).line, (ofSplit before after).column, byteLength before⟩ := by
  have hcount : before.count '\n' = (linesAbove before).count '\n' := by
    have hlast := List.count_eq_zero_of_not_mem (ofSplit before after).front_unbroken
    rw [← linesAbove_append_lastLine before, List.count_append, linesAbove_append_lastLine]
    exact congrArg (_ + ·) hlast
  rw [Location.advance_start, hcount]
  rfl

end LineCut

/-- An error whose place was tracked is shown below the line of that place. -/
theorem RichError.withSource?_tracked {e : RichError} {before after : List Char}
    (h : e.span = .ofLocation (.advance .start before)) :
    e.withSource? (before ++ after) =
      some ((LineCut.ofSplit before after).excerpt ++ e.outline) := by
  have hspaces : (LineCut.ofSplit before after).column - 1 = (lastLine before).length :=
    Nat.add_sub_cancel_left _ _
  rw [LineCut.advance_start_eq before after] at h
  rw [withSource?, h]
  simp only [Span.ofLocation, Span.point, cutAt_append, if_true, hspaces]
  rfl

theorem Rejection.location_of_token {why : Rejection} {token : Token}
    (h : why.token? = some token) : why.location = token.location := by
  cases why <;> cases h <;> rfl

/-- A rejection belongs to the place between two parts of a text. The rejected token is the answer
to the request behind the columns that were read, and it begins at this place. Where that request
is answered by the end of the input, the last token ends at this place, or the text begins. -/
inductive Rejection.PointsBetween (answer : Nat → TokenAnswer) (before after : List Char) :
    Rejection → Prop
  | token {why : Rejection} {token : Token} (hanswer : answer why.column = .ok (some token))
      (htoken : why.token? = some token) (hplace : byteLength before = token.location.offset)
      (hnonempty : token.text.toList ≠ []) {rest : List Char}
      (htext : after = token.text.toList ++ rest) : PointsBetween answer before after why
  | ended {k : Nat} {last : Token} (hlast : answer k = .ok (some last))
      (hend : answer (k + 1) = .ok none) {front : List Char}
      (hplace : byteLength front = last.location.offset)
      (htext : before = front ++ last.text.toList) (location : Location)
      (expected : List SymbolId) :
      PointsBetween answer before after (.unexpectedEnd (k + 1) location expected)
  | empty (hend : answer 0 = .ok none) (htext : before = []) (location : Location)
      (expected : List SymbolId) :
      PointsBetween answer before after (.unexpectedEnd 0 location expected)

theorem RegexTokens.source_after (source : RegexTokens) (n : Nat) :
    TokenSource.after source n = source.after n := by
  induction n with
  | zero => rfl
  | succ n ih =>
      rw [TokenSource.after, ih]
      rfl

section

variable {lexer : RegexLexer} {input : String}

theorem RegexLexer.tracks_of_answer {n : Nat} {token : Token}
    (h : TokenSource.answer (lexer.tokens input) n = .ok (some token)) :
    token.location.Tracks input.toList token.text.toList ∧ token.text.toList ≠ [] := by
  rw [TokenSource.answer, RegexTokens.source_after] at h
  exact tracks_of_token h

/-- The location of a rejection is that of the place where it belongs. -/
theorem Rejection.Answers.pointsBetween {why : Rejection}
    (hsize : byteLength input.toList < textLimit)
    (h : why.Answers (TokenSource.answer (lexer.tokens input))) :
    ∃ before after, input.toList = before ++ after ∧ why.location = .advance .start before ∧
      why.PointsBetween (TokenSource.answer (lexer.tokens input)) before after := by
  cases h with
  | @token _ token hanswer htoken =>
      obtain ⟨⟨before, rest, hinput, hlocation⟩, hnonempty⟩ :=
        RegexLexer.tracks_of_answer hanswer
      have hplace : byteLength before = token.location.offset := by
        rw [hlocation, Location.offset_advance_start]
      exact ⟨before, token.text.toList ++ rest, hinput,
        (location_of_token htoken).trans hlocation, .token hanswer htoken hplace hnonempty rfl⟩
  | @ended k last hlast hend expected =>
      obtain ⟨⟨front, rest, hinput, hlocation⟩, -⟩ := RegexLexer.tracks_of_answer hlast
      have hplace : byteLength front = last.location.offset := by
        rw [hlocation, Location.offset_advance_start]
      rw [← List.append_assoc] at hinput
      rw [hinput, byteLength_append] at hsize
      have hstop := Token.endLocation_of_tracks hlocation
        (Nat.lt_of_le_of_lt (Nat.le_add_right _ _) hsize)
      exact ⟨front ++ last.text.toList, rest, hinput, hstop, .ended hlast hend hplace rfl _ _⟩
  | empty hend expected => exact ⟨[], input.toList, rfl, rfl, .empty hend rfl _ _⟩

end

namespace Parser

/-- A rejection of a text is shown with the whole line of the text on which the rejected token
begins or, at the end of the input, the last token ends, and with a caret under that place. -/
theorem rejection_excerpt (d : GrammarDef) (g : Grammar) (hd : d.toGrammar = .ok g) {p : Parser}
    (hp : Reached g p) (hstart : p.state = .start) (lexer : RegexLexer) (input : String)
    (hsize : byteLength input.toList < textLimit) (why : Rejection)
    (h : (p.parse (lexer.tokens input)).result = .ok (.rejected why)) :
    ∃ cut : LineCut input.toList why.location.offset,
      (why.toRichError g.toSymbols).withSource? input.toList =
        some (cut.excerpt ++ (why.toRichError g.toSymbols).outline) ∧
      why.PointsBetween (TokenSource.answer (lexer.tokens input)) (cut.above ++ cut.front)
        (cut.back ++ cut.below) := by
  have hanswers := parse_rejected (d.toGrammar_numbered g hd) hp hstart _ h
  obtain ⟨before, after, hinput, hlocation, hpoints⟩ := hanswers.pointsBetween hsize
  have hspan : (why.toRichError g.toSymbols).span = .ofLocation (.advance .start before) := by
    rw [← hlocation]
    rfl
  rw [hlocation, Location.offset_advance_start, hinput]
  refine ⟨.ofSplit before after, RichError.withSource?_tracked hspan, ?_⟩
  rwa [LineCut.ofSplit, linesAbove_append_lastLine, firstLine_append_linesBelow]

def spreadDef : GrammarDef :=
  ⟨[.named "spread", .withKind "letter" 2], [], [⟨"S", ["spread", "letter"]⟩], none⟩

def spread : Grammar where
  terminals := [⟨"spread", 0⟩, ⟨"letter", 2⟩]
  nonterminals := ["S"]
  rules := #[⟨3, [1, 2]⟩]
  start := 3

/-- A second token is rejected where it begins, on the line on which the first one ends. A text
that ends after the first token is rejected at the end of this token, before the gap. -/
theorem rejection_excerpt_spread :
    let run (input : String) :=
      ((fresh spread ⟨.disabled, 0, 0, 0, 0, 0⟩ .standard).parse (spreadLexer.tokens input)).result
    let shown (why : Rejection) (input : String) :=
      (why.toRichError spread.toSymbols).withSource? input.toList
    let shownAt (why : Rejection) (input : String) :=
      ∃ cut : LineCut input.toList why.location.offset,
        shown why input = some (cut.excerpt ++ (why.toRichError spread.toSymbols).outline) ∧
        why.PointsBetween (TokenSource.answer (spreadLexer.tokens input)) (cut.above ++ cut.front)
          (cut.back ++ cut.below)
    let token : Rejection := .unexpectedToken 1 ⟨0, "é\nb", ⟨2, 3, 5⟩⟩ [2]
    let ended : Rejection := .unexpectedEnd 1 ⟨2, 2, 4⟩ [2]
    (run "é\nb é\nb" = .ok (.rejected token) ∧ shownAt token "é\nb é\nb" ∧
      shown token "é\nb é\nb" = some ("Error at line 2, column 3:\nb é\n  ^\n" ++
        "`- Unexpected 'é\nb' (in column 1)\n   `- Expected 'letter'\n")) ∧
    run "é\nb " = .ok (.rejected ended) ∧ shownAt ended "é\nb " ∧
      shown ended "é\nb " = some ("Error at line 2, column 2:\nb \n ^\n" ++
        "`- Unexpected end of input (in column 1)\n   `- Expected 'letter'\n") := by
  intro run shown shownAt token ended
  have hreached : Reached spread (fresh spread ⟨.disabled, 0, 0, 0, 0, 0⟩ .standard) :=
    .setCosts (.created _) _
  have htoken : run "é\nb é\nb" = .ok (.rejected token) := by decide +kernel
  have hended : run "é\nb " = .ok (.rejected ended) := by decide +kernel
  have htokenShown : shownAt token "é\nb é\nb" := rejection_excerpt spreadDef spread rfl hreached
    rfl spreadLexer "é\nb é\nb" (by decide +kernel) token htoken
  have hendedShown : shownAt ended "é\nb " := rejection_excerpt spreadDef spread rfl hreached
    rfl spreadLexer "é\nb " (by decide +kernel) ended hended
  exact ⟨⟨htoken, htokenShown, by decide +kernel⟩, hended, hendedShown, by decide +kernel⟩

end Parser
end EarleyChart
