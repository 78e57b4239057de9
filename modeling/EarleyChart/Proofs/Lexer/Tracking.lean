import EarleyChart.Parser.Rejection
import EarleyChart.Proofs.Lexer.Tiling
import EarleyChart.Proofs.Token.Tracking

/-!
The positions that a lexer tracks. A segment of the tiling of a text begins where the
segments before it end, ignored ones included, so that its token and the character that
no definition matches stand in the text where their locations say.
-/

namespace EarleyChart
namespace RegexLexer

variable {lexer : RegexLexer} {text : List Char} {segments : List Segment}
  {stop : Option (Char × Location)}

theorem Tiles.tracks_of_mem (h : lexer.Tiles .start text segments stop) {segment : Segment}
    (hmem : segment ∈ segments) : segment.location.Tracks text segment.text := by
  obtain ⟨front, back, hsegments⟩ := List.append_of_mem hmem
  obtain ⟨rest, htext, -⟩ := h.text_eq
  refine ⟨front.flatMap (·.text), back.flatMap (·.text) ++ rest, ?_, h.location_eq hsegments⟩
  rw [htext, hsegments]
  simp

/-- A match takes at least one character. -/
theorem Tiles.text_ne_nil {location : Location} (h : lexer.Tiles location text segments stop)
    {segment : Segment} (hmem : segment ∈ segments) : segment.text ≠ [] := by
  induction h with
  | ended | stuck => contradiction
  | segment hmatch hlength _ ih =>
      rcases List.mem_cons.mp hmem with rfl | hmem
      · rintro rfl
        exact absurd (length_longestMatch_pos hmatch) (by simp [hlength])
      · exact ih hmem

theorem Tiles.token {token : Token} (h : lexer.Tiles .start text segments stop)
    (hmem : token ∈ Segment.tokensOf segments) :
    token.location.Tracks text token.text.toList ∧ token.text.toList ≠ [] := by
  obtain ⟨segment, hsegment, htoken⟩ := List.mem_filterMap.mp hmem
  obtain ⟨kind, -, rfl⟩ := Option.map_eq_some_iff.mp htoken
  rw [String.toList_ofList]
  exact ⟨h.tracks_of_mem hsegment, h.text_ne_nil hsegment⟩

theorem Tiles.tracks_of_stop {c : Char} {location : Location}
    (h : lexer.Tiles .start text segments (some (c, location))) :
    location.Tracks text [c] := by
  obtain ⟨rest, htext, -, hstop⟩ := h.text_eq
  obtain ⟨c', hhead, hc⟩ := Option.map_eq_some_iff.mp hstop.symm
  obtain ⟨rfl, rfl⟩ := Prod.mk.inj hc
  obtain ⟨after, rfl⟩ := List.head?_eq_some_iff.mp hhead
  exact ⟨_, after, htext, rfl⟩

/-- After any number of requests the source stands in the one tiling of the text, as many tokens
further on. -/
theorem exists_faces (lexer : RegexLexer) (input : String) (n : Nat) :
    ∃ segments stop left, lexer.Tiles .start input.toList segments stop ∧
      ((lexer.tokens input).after n).Faces left stop ∧
      Segment.tokensOf left = (Segment.tokensOf segments).drop n := by
  obtain ⟨segments, stop, htiles⟩ := lexer.exists_tiles .start input.toList
  have hfaces : (lexer.tokens input).Faces (segments.dropWhile (·.kind.isNone)) stop :=
    RegexTokens.faces_skipIgnored rfl htiles
  obtain ⟨left, hleft, hdrop⟩ := hfaces.after n
  rw [RegexTokens.tokensOf_dropWhile] at hdrop
  exact ⟨segments, stop, left, htiles, hleft, hdrop⟩

/-- A token stands in the text where its location says, with at least one character. -/
theorem tracks_of_token {lexer : RegexLexer} {input : String} {n : Nat} {token : Token}
    (h : ((lexer.tokens input).after n).next.1 = .ok (some token)) :
    token.location.Tracks input.toList token.text.toList ∧ token.text.toList ≠ [] := by
  obtain ⟨segments, stop, left, htiles, hleft, hdrop⟩ := lexer.exists_faces input n
  rw [hleft.next_eq, hdrop] at h
  cases htokens : (Segment.tokensOf segments).drop n with
  | nil =>
      rw [htokens] at h
      cases stop <;> cases h
  | cons first more =>
      rw [htokens] at h
      cases h
      exact htiles.token (List.mem_of_mem_drop (htokens ▸ List.mem_cons_self))

/-- The character of an error stands in the text where its location says. -/
theorem tracks_of_error {lexer : RegexLexer} {input : String} {error : LexError}
    (h : (∃ n, ((lexer.tokens input).after n).next.1 = .error error) ∨
      lexer.tokenize input = .error error) :
    ∃ c location, error = .unrecognizedInput c location ∧ location.Tracks input.toList [c] := by
  obtain ⟨segments, stop, htiles, hstop⟩ : ∃ segments stop,
      lexer.Tiles .start input.toList segments stop ∧
        RegexTokens.answerAt stop = .error error := by
    rcases h with ⟨n, h⟩ | h
    · obtain ⟨segments, stop, left, htiles, hleft, hdrop⟩ := lexer.exists_faces input n
      refine ⟨segments, stop, htiles, ?_⟩
      rw [hleft.next_eq] at h
      cases htokens : Segment.tokensOf left with
      | nil => rwa [htokens] at h
      | cons first more =>
          rw [htokens] at h
          contradiction
    · obtain ⟨segments, stop, left, htiles, hleft, hdrop⟩ := lexer.exists_faces input 0
      refine ⟨segments, stop, htiles, ?_⟩
      have hsteps : (Segment.tokensOf left).length < input.length + 1 := by
        rw [hdrop, List.drop_zero, ← String.length_toList]
        exact Nat.lt_succ_of_le htiles.length_tokens_le
      have hcollect : (lexer.tokens input).collect (input.length + 1) =
          RegexTokens.listAnswer (Segment.tokensOf left) stop := hleft.collect_eq hsteps
      rw [tokenize, hcollect] at h
      cases stop with
      | none => contradiction
      | some place =>
          cases h
          rfl
  cases stop with
  | none => contradiction
  | some place =>
      cases hstop
      exact ⟨place.1, place.2, rfl, htiles.tracks_of_stop⟩

end RegexLexer

/-- Unrecognized input is reported at the place where its character stands, and in words with
the line, the column and the offset that the report carries. -/
structure Location.Reports (location : Location) (source : List Char) (c : Char) : Prop extends
    location.Marks source [c] where
  words : ParseError.messageIn source (.lex (.unrecognizedInput c location)) =
    s!"Unrecognized input {quotedChar c} at line {location.line}, column {location.column}" ++
      s!" (byte offset {location.offset})"

theorem Location.Tracks.reports {location : Location} {source : List Char} {c : Char}
    (h : location.Tracks source [c]) : location.Reports source c := by
  refine ⟨h.marks, ?_⟩
  unfold ParseError.messageIn
  simp only [h.marks.place, String.append_assoc]

/-- Positions are tracked by moving over one piece of a text after the other, and they are looked
up by counting in the text before a byte offset. Both agree for every token that is cut from a
text, at white space, one to a character or by a lexer, and where a lexer meets a character
that it does not recognize. -/
theorem tracked_positions_agree (s : Symbols) (lexer : RegexLexer) (input : String) :
    (∀ stream, TokenStream.ofNames s input = .ok stream →
      ∀ token ∈ stream.all, token.Placed input.toList) ∧
    (∀ stream, TokenStream.ofChars s input = .ok stream →
      ∀ token ∈ stream.all, token.Placed input.toList) ∧
    (∀ n token, ((lexer.tokens input).after n).next.1 = .ok (some token) →
      token.Placed input.toList) ∧
    ∀ error, (∃ n, ((lexer.tokens input).after n).next.1 = .error error) ∨
        lexer.tokenize input = .error error →
      ∃ c location, error = .unrecognizedInput c location ∧
        location.Reports input.toList c := by
  refine ⟨fun stream h token => TokenStream.placed_ofNames h,
    fun stream h token => TokenStream.placed_ofChars h,
    fun n token h => Token.placed_of_tracks (RegexLexer.tracks_of_token h).1, fun error h => ?_⟩
  obtain ⟨c, location, herror, htracks⟩ := RegexLexer.tracks_of_error h
  exact ⟨c, location, herror, htracks.reports⟩

def spreadSymbols : Symbols where
  terminals := [⟨"é", 0⟩, ⟨"b", 1⟩, ⟨"ü!", 2⟩]
  nonterminals := []

def spreadLexer : RegexLexer where
  rules := [
    ⟨"spread", .any, Pattern.matcher (.seq (.look .textStart) (.literal ['é', '\n', 'b'])), 0,
      some 0⟩,
    ⟨"gap", .any, Pattern.matcher (.seq (.look .textStart) (.literal [' '])), 0, none⟩,
    ⟨"letter", .any, Pattern.matcher (.seq (.look .textStart) (.literal ['ü'])), 0, some 2⟩]

theorem tracked_positions_agree_spread :
    let input := "é\nb ü!"
    let letter : Token := ⟨2, "ü", ⟨2, 3, 5⟩⟩
    let word : Token := ⟨2, "ü!", ⟨2, 3, 5⟩⟩
    (((spreadLexer.tokens input).after 1).next.1 = .ok (some letter) ∧
      letter.Placed input.toList) ∧
    (((spreadLexer.tokens input).after 2).next.1 = .error (.unrecognizedInput '!' ⟨2, 4, 7⟩) ∧
      Location.Reports ⟨2, 4, 7⟩ input.toList '!') ∧
    TokenStream.ofNames spreadSymbols input =
      .ok (.ofList [⟨0, "é", ⟨1, 1, 0⟩⟩, ⟨1, "b", ⟨2, 1, 3⟩⟩, word]) ∧
    word.Placed input.toList ∧
    TokenStream.ofChars spreadSymbols "é\n b" =
      .ok (.ofList [⟨0, "é", ⟨1, 1, 0⟩⟩, ⟨1, "b", ⟨2, 2, 4⟩⟩]) ∧
    Token.Placed ⟨1, "b", ⟨2, 2, 4⟩⟩ "é\n b".toList := by
  have hwords : TokenStream.ofNames spreadSymbols "é\nb ü!" =
      .ok (.ofList [⟨0, "é", ⟨1, 1, 0⟩⟩, ⟨1, "b", ⟨2, 1, 3⟩⟩, ⟨2, "ü!", ⟨2, 3, 5⟩⟩]) := by rfl
  have hchars : TokenStream.ofChars spreadSymbols "é\n b" =
      .ok (.ofList [⟨0, "é", ⟨1, 1, 0⟩⟩, ⟨1, "b", ⟨2, 2, 4⟩⟩]) := by rfl
  obtain ⟨-, hplaced, -⟩ := tracked_positions_agree spreadSymbols spreadLexer "é\n b"
  intro input letter word
  obtain ⟨hnames, -, htoken, herror⟩ := tracked_positions_agree spreadSymbols spreadLexer input
  have hletter : ((spreadLexer.tokens input).after 1).next.1 = .ok (some letter) := by
    decide +kernel
  have hmark : ((spreadLexer.tokens input).after 2).next.1 =
      .error (.unrecognizedInput '!' ⟨2, 4, 7⟩) := by decide +kernel
  obtain ⟨c, location, heq, hreports⟩ := herror _ (.inl ⟨2, hmark⟩)
  cases heq
  exact ⟨⟨hletter, htoken 1 _ hletter⟩, ⟨hmark, hreports⟩, hwords,
    hnames _ hwords word (List.mem_of_getLast? rfl), hchars,
    hplaced _ hchars _ (List.mem_of_getLast? rfl)⟩

end EarleyChart
