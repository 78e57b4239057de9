import EarleyChart.Lexer.Standard

/-!
The tokens of a text. The longest matches tile the text from its beginning, up to
its end or to the first place where no definition matches. A source gives the
tokens of this tiling one after the other, passing over ignored matches, and then
answers every request with the end or with the error at that place.
-/

namespace EarleyChart

theorem RegexLexer.length_longestMatch_le {lexer : RegexLexer} {text : List Char}
    {found : LexMatch} (h : lexer.longestMatch text = some found) :
    found.length ≤ text.length := by
  obtain ⟨-, b, -, hmatch⟩ := match_of_longestMatch h
  exact found.rule.matcher.matchEnd_le (Option.filter_eq_some_iff.mp hmatch).1

/-- A stretch of a text that a match takes: where it begins, its characters, and the kind
of its token; no kind means that it is passed over. -/
structure Segment where
  location : Location
  text : List Char
  kind : Option TokenKind
  deriving DecidableEq, Repr

namespace Segment

def token? (segment : Segment) : Option Token :=
  segment.kind.map fun kind => ⟨kind, String.ofList segment.text, segment.location⟩

def tokensOf (segments : List Segment) : List Token := segments.filterMap token?

end Segment

namespace RegexLexer

/-- A text from a location on is made of the segments of the longest matches, one after
the other, up to its end or to a character with its location where nothing matches. -/
inductive Tiles (lexer : RegexLexer) :
    Location → List Char → List Segment → Option (Char × Location) → Prop where
  | ended (location) : Tiles lexer location [] [] none
  | stuck {location c rest} (h : lexer.longestMatch (c :: rest) = none) :
      Tiles lexer location (c :: rest) [] (some (c, location))
  | segment {location text rest found segments stop}
      (hmatch : lexer.longestMatch (text ++ rest) = some found)
      (hlength : found.length = text.length)
      (hrest : Tiles lexer (location.advance text) rest segments stop) :
      Tiles lexer location (text ++ rest) (⟨location, text, found.rule.kind⟩ :: segments) stop

variable {lexer : RegexLexer} {location : Location} {text : List Char} {segments : List Segment}
  {stop : Option (Char × Location)}

/-- A match and the tiling of the rest make a tiling. -/
theorem Tiles.cons {found : LexMatch} (h : lexer.longestMatch text = some found)
    (hrest : Tiles lexer (location.advance (text.take found.length)) (text.drop found.length)
      segments stop) :
    Tiles lexer location text (⟨location, text.take found.length, found.rule.kind⟩ :: segments)
      stop := by
  have htext := List.take_append_drop found.length text
  have hlength : found.length = (text.take found.length).length :=
    (List.length_take_of_le (length_longestMatch_le h)).symm
  have htiles := Tiles.segment (by rwa [htext]) hlength hrest
  rwa [htext] at htiles

theorem Tiles.of_map {rest : List Char} {kind : Option TokenKind}
    (h : (lexer.longestMatch (text ++ rest)).map (fun m => (m.length, m.rule.kind)) =
      some (text.length, kind))
    (hrest : lexer.Tiles (location.advance text) rest segments stop) :
    lexer.Tiles location (text ++ rest) (⟨location, text, kind⟩ :: segments) stop := by
  obtain ⟨found, hfound, heq⟩ := Option.map_eq_some_iff.mp h
  obtain ⟨hlength, rfl⟩ := Prod.mk.inj heq
  exact .segment hfound hlength hrest

theorem exists_tiles (lexer : RegexLexer) (location : Location) (text : List Char) :
    ∃ segments stop, Tiles lexer location text segments stop := by
  induction hlength : text.length using Nat.strongRecOn generalizing location text with
  | ind length ih =>
  cases hfound : lexer.longestMatch text with
  | none =>
      cases text with
      | nil => exact ⟨_, _, .ended location⟩
      | cons c rest => exact ⟨_, _, .stuck hfound⟩
  | some found =>
      have hpos := length_longestMatch_pos hfound
      have hle := length_longestMatch_le hfound
      have hless : (text.drop found.length).length < length := by
        rw [List.length_drop]
        omega
      obtain ⟨segments, stop, hrest⟩ :=
        ih _ hless (location.advance (text.take found.length)) _ rfl
      exact ⟨_, _, .cons hfound hrest⟩

theorem Tiles.of_nil (h : Tiles lexer location [] segments stop) : segments = [] ∧ stop = none := by
  generalize htext : ([] : List Char) = text at h
  cases h with
  | ended => exact ⟨rfl, rfl⟩
  | stuck => contradiction
  | segment hmatch => exact absurd htext.symm (ne_nil_of_longestMatch hmatch)

theorem Tiles.of_none {c : Char} {rest : List Char} (hnone : lexer.longestMatch (c :: rest) = none)
    (h : Tiles lexer location (c :: rest) segments stop) :
    segments = [] ∧ stop = some (c, location) := by
  generalize htext : c :: rest = text at h
  cases h with
  | ended => contradiction
  | stuck =>
      obtain ⟨rfl, rfl⟩ := List.cons.inj htext
      exact ⟨rfl, rfl⟩
  | segment hmatch =>
      rw [← htext, hnone] at hmatch
      contradiction

theorem Tiles.of_match {found : LexMatch} (hfound : lexer.longestMatch text = some found)
    (h : Tiles lexer location text segments stop) :
    ∃ more, segments = ⟨location, text.take found.length, found.rule.kind⟩ :: more ∧
      Tiles lexer (location.advance (text.take found.length)) (text.drop found.length) more
        stop := by
  cases h with
  | ended => exact absurd rfl (ne_nil_of_longestMatch hfound)
  | stuck h =>
      rw [h] at hfound
      contradiction
  | segment hmatch hlength hrest =>
      obtain rfl := Option.some.inj (hmatch.symm.trans hfound)
      rw [hlength, List.take_left, List.drop_left]
      exact ⟨_, rfl, hrest⟩

/-- A text has one tiling. -/
theorem Tiles.unique (h : Tiles lexer location text segments stop) {segments' : List Segment}
    {stop' : Option (Char × Location)} (h' : Tiles lexer location text segments' stop') :
    segments' = segments ∧ stop' = stop := by
  induction h generalizing segments' stop' with
  | ended => exact h'.of_nil
  | stuck h => exact h'.of_none h
  | segment hmatch hlength _ ih =>
      obtain ⟨more, rfl, hmore⟩ := h'.of_match hmatch
      rw [hlength, List.take_left, List.drop_left] at hmore
      obtain ⟨rfl, rfl⟩ := ih hmore
      rw [hlength, List.take_left]
      exact ⟨rfl, rfl⟩

/-- The segments are the text up to the place where the tiling stops. -/
theorem Tiles.text_eq (h : Tiles lexer location text segments stop) :
    ∃ rest, text = segments.flatMap (·.text) ++ rest ∧ lexer.longestMatch rest = none ∧
      stop = rest.head?.map (·, location.advance (segments.flatMap (·.text))) := by
  induction h with
  | ended => exact ⟨[], rfl, rfl, rfl⟩
  | @stuck _ c rest h => exact ⟨c :: rest, rfl, h, rfl⟩
  | segment _ _ _ ih =>
      obtain ⟨last, rfl, hnone, rfl⟩ := ih
      refine ⟨last, ?_, hnone, ?_⟩
      · rw [List.flatMap_cons, List.append_assoc]
      · rw [List.flatMap_cons, Location.advance_append]

/-- A segment begins after the segments before it. -/
theorem Tiles.location_eq (h : Tiles lexer location text segments stop)
    {front back : List Segment} {segment : Segment} (heq : segments = front ++ segment :: back) :
    segment.location = location.advance (front.flatMap (·.text)) := by
  induction h generalizing front with
  | ended | stuck => simp at heq
  | segment _ _ _ ih =>
      cases front with
      | nil =>
          obtain ⟨rfl, -⟩ := List.cons.inj heq
          rfl
      | cons first front =>
          obtain ⟨rfl, hmore⟩ := List.cons.inj heq
          rw [ih hmore, List.flatMap_cons, Location.advance_append]

end RegexLexer

namespace RegexTokens

variable {source : RegexTokens} {segments : List Segment} {stop : Option (Char × Location)}

/-- What a source answers where a tiling stops. -/
def answerAt : Option (Char × Location) → TokenAnswer
  | none => .ok none
  | some (c, location) => .error (.unrecognizedInput c location)

/-- A source stands in front of the segments of a tiling, the first of which is not passed
over. An error that is kept is the one where the tiling stops, and no segment comes before
it. -/
structure Faces (source : RegexTokens) (segments : List Segment)
    (stop : Option (Char × Location)) : Prop where
  tiles : source.lexer.Tiles source.location source.rest segments stop
  head : ∀ segment, segments.head? = some segment → segment.kind ≠ none
  pending : ∀ error, source.pending = some error →
    segments = [] ∧ answerAt stop = .error error

/-- Segments that are passed over hold no token. -/
theorem tokensOf_dropWhile (segments : List Segment) :
    Segment.tokensOf (segments.dropWhile (·.kind.isNone)) = Segment.tokensOf segments := by
  induction segments with
  | nil => rfl
  | cons segment segments ih =>
      rw [List.dropWhile_cons]
      split
      · next hnone =>
          rw [ih, Segment.tokensOf, Segment.tokensOf, List.filterMap_cons_none]
          rw [Segment.token?, Option.isNone_iff_eq_none.mp hnone]
          rfl
      · rfl

/-- Ignored matches are passed over up to a match that is not ignored, to the end, or to the
error, which is then kept. -/
theorem faces_skipIgnored (hpending : source.pending = none)
    (h : source.lexer.Tiles source.location source.rest segments stop) :
    source.skipIgnored.Faces (segments.dropWhile (·.kind.isNone)) stop := by
  fun_induction skipIgnored source generalizing segments with
  | case1 source hrest =>
      have htiles := h
      rw [hrest] at htiles
      obtain ⟨rfl, rfl⟩ := htiles.of_nil
      exact ⟨h, by simp, by simp [hpending]⟩
  | case2 source c rest hrest hnone =>
      have htiles := h
      rw [hrest] at htiles hnone
      obtain ⟨rfl, rfl⟩ := htiles.of_none hnone
      refine ⟨h, by simp, fun error herror => ⟨rfl, ?_⟩⟩
      rw [← Option.some.inj herror]
      rfl
  | case3 source c rest _ found hfound hignored ih =>
      obtain ⟨more, rfl, hmore⟩ := h.of_match hfound
      rw [List.dropWhile_cons_of_pos (by simp [hignored])]
      exact ih hpending hmore
  | case4 source c rest _ found hfound kind hkind =>
      obtain ⟨more, rfl, -⟩ := h.of_match hfound
      rw [List.dropWhile_cons_of_neg (by simp [hkind])]
      exact ⟨h, by simp [hkind], by simp [hpending]⟩

/-- Where no segment is left, a request is answered by the end or the error, and the source
stays there. -/
theorem Faces.next_nil (h : source.Faces [] stop) :
    source.next.1 = answerAt stop ∧ source.next.2.Faces [] stop := by
  have htiles := h.tiles
  rw [next]
  split
  · next error herror => exact ⟨(h.pending error herror).2.symm, h.tiles, by simp, by simp⟩
  next hpending =>
  split
  · next hrest =>
      rw [hrest] at htiles
      rw [htiles.of_nil.2]
      exact ⟨rfl, htiles.of_nil.2 ▸ h⟩
  · next c rest hrest =>
      split
      · next hnone =>
          rw [hrest] at htiles hnone
          rw [(htiles.of_none hnone).2]
          exact ⟨rfl, (htiles.of_none hnone).2 ▸ h⟩
      · next found hfound =>
          obtain ⟨more, hcons, -⟩ := h.tiles.of_match hfound
          contradiction

/-- The first of the segments that are left is the next token. -/
theorem Faces.next_cons {segment : Segment} (h : source.Faces (segment :: segments) stop) :
    ∃ token, segment.token? = some token ∧ source.next.1 = .ok (some token) ∧
      source.next.2.Faces (segments.dropWhile (·.kind.isNone)) stop := by
  have htiles := h.tiles
  rw [next]
  split
  · next error herror =>
      have hnil := (h.pending error herror).1
      contradiction
  next hpending =>
  split
  · next hrest =>
      rw [hrest] at htiles
      have hnil := htiles.of_nil.1
      contradiction
  · next c rest hrest =>
      split
      · next hnone =>
          rw [hrest] at htiles hnone
          have hnil := (htiles.of_none hnone).1
          contradiction
      · next found hfound =>
          obtain ⟨more, hcons, hmore⟩ := htiles.of_match hfound
          obtain ⟨rfl, rfl⟩ := List.cons.inj hcons
          split
          · next hignored => exact absurd hignored (h.head _ rfl)
          · next kind hkind =>
              refine ⟨_, ?_, rfl, faces_skipIgnored hpending hmore⟩
              rw [Segment.token?, hkind]
              rfl

/-- A source is at its end where no segment is left and the whole text is tiled. -/
theorem Faces.atEnd_iff (h : source.Faces segments stop) :
    source.atEnd = true ↔ segments = [] ∧ stop = none := by
  rw [atEnd, Bool.and_eq_true, Option.isNone_iff_eq_none, List.isEmpty_iff]
  constructor
  · rintro ⟨-, hrest⟩
    have htiles := h.tiles
    rw [hrest] at htiles
    exact htiles.of_nil
  · rintro ⟨rfl, rfl⟩
    constructor
    · cases hpending : source.pending with
      | none => rfl
      | some error =>
          have hanswer := (h.pending error hpending).2
          contradiction
    · obtain ⟨rest, heq, hnone, hstop⟩ := h.tiles.text_eq
      rw [heq]
      simpa using hstop.symm

def after (source : RegexTokens) : Nat → RegexTokens
  | 0 => source
  | n + 1 => (source.after n).next.2

/-- Every request for which a token is left takes that token. -/
theorem Faces.after (h : source.Faces segments stop) (n : Nat) :
    ∃ left, (source.after n).Faces left stop ∧
      Segment.tokensOf left = (Segment.tokensOf segments).drop n := by
  induction n with
  | zero => exact ⟨segments, h, rfl⟩
  | succ n ih =>
      obtain ⟨left, hleft, htokens⟩ := ih
      cases left with
      | nil =>
          refine ⟨[], hleft.next_nil.2, ?_⟩
          rw [← List.drop_drop, ← htokens]
          rfl
      | cons segment left =>
          obtain ⟨token, htoken, -, hnext⟩ := hleft.next_cons
          refine ⟨_, hnext, ?_⟩
          rw [tokensOf_dropWhile, ← List.drop_drop, ← htokens, Segment.tokensOf, Segment.tokensOf,
            List.filterMap_cons_some htoken, List.drop_one, List.tail_cons]

/-- A request is answered by the first token that is left. -/
theorem Faces.next_eq (h : source.Faces segments stop) :
    source.next.1 = match Segment.tokensOf segments with
      | [] => answerAt stop
      | token :: _ => .ok (some token) := by
  cases segments with
  | nil => exact h.next_nil.1
  | cons segment segments =>
      obtain ⟨token, htoken, hnext, -⟩ := h.next_cons
      rw [hnext, Segment.tokensOf, List.filterMap_cons_some htoken]

theorem collect_succ (steps : Nat) (source : RegexTokens) :
    source.collect (steps + 1) = match source.next.1 with
      | .error error => .error error
      | .ok none => .ok []
      | .ok (some token) => (source.next.2.collect steps).map (token :: ·) := by
  rw [collect]
  rcases source.next with ⟨_ | _ | _, _⟩ <;> rfl

def listAnswer (tokens : List Token) : Option (Char × Location) → Except LexError (List Token)
  | none => .ok tokens
  | some (c, location) => .error (.unrecognizedInput c location)

/-- All tokens are collected, or the error is found. -/
theorem Faces.collect_eq {steps : Nat} (h : source.Faces segments stop)
    (hsteps : (Segment.tokensOf segments).length < steps) :
    source.collect steps = listAnswer (Segment.tokensOf segments) stop := by
  induction steps generalizing source segments with
  | zero => contradiction
  | succ steps ih =>
      rw [collect_succ]
      cases segments with
      | nil =>
          rw [h.next_nil.1]
          cases stop <;> rfl
      | cons segment segments =>
          obtain ⟨token, htoken, hanswer, hnext⟩ := h.next_cons
          have htokens : Segment.tokensOf (segment :: segments) =
              token :: Segment.tokensOf segments := List.filterMap_cons_some htoken
          rw [htokens, List.length_cons] at hsteps
          have hrest := ih hnext (by rw [tokensOf_dropWhile]; omega)
          rw [hanswer, htokens]
          simp only [hrest, tokensOf_dropWhile]
          cases stop <;> rfl

end RegexTokens

namespace RegexLexer

/-- Every segment takes a character, so that there are at most as many tokens as
characters. -/
theorem Tiles.length_tokens_le {lexer : RegexLexer} {location : Location} {text : List Char}
    {segments : List Segment} {stop : Option (Char × Location)}
    (h : lexer.Tiles location text segments stop) :
    (Segment.tokensOf segments).length ≤ text.length := by
  refine Nat.le_trans (List.length_filterMap_le _ _) ?_
  induction h with
  | ended => exact Nat.le_refl _
  | stuck => exact Nat.zero_le _
  | segment hmatch hlength _ ih =>
      have hpos := length_longestMatch_pos hmatch
      rw [List.length_cons, List.length_append]
      omega

/-- The longest matches tile a text from its beginning, up to its end or to the first place
where nothing matches. The requests to the source of its tokens are answered with the
tokens of the segments that are not ignored, one after the other, and then with the end or
the error at that place again and again; the list of the tokens is the same or fails with
the same error. After any number of requests the source is at its end exactly if the next
answer says so. -/
theorem tokens_tile (lexer : RegexLexer) (input : String) :
    ∃ segments stop, lexer.Tiles .start input.toList segments stop ∧
      (∀ segments' stop', lexer.Tiles .start input.toList segments' stop' →
        segments' = segments ∧ stop' = stop) ∧
      (∃ rest, input.toList = segments.flatMap (·.text) ++ rest ∧
        lexer.longestMatch rest = none ∧
        stop = rest.head?.map (·, Location.start.advance (segments.flatMap (·.text)))) ∧
      (∀ front segment back, segments = front ++ segment :: back →
        segment.location = Location.start.advance (front.flatMap (·.text)) ∧
        segment.location.offset = byteLength (front.flatMap (·.text))) ∧
      (∀ n, ((lexer.tokens input).after n).next.1 =
        match (Segment.tokensOf segments)[n]? with
        | some token => .ok (some token)
        | none => match stop with
          | none => .ok none
          | some (c, location) => .error (.unrecognizedInput c location)) ∧
      (lexer.tokenize input = match stop with
        | none => .ok (Segment.tokensOf segments)
        | some (c, location) => .error (.unrecognizedInput c location)) ∧
      ∀ n, ((lexer.tokens input).after n).atEnd = true ↔
        ((lexer.tokens input).after n).next.1 = .ok none := by
  obtain ⟨segments, stop, htiles⟩ := lexer.exists_tiles .start input.toList
  have hfaces : (lexer.tokens input).Faces (segments.dropWhile (·.kind.isNone)) stop :=
    RegexTokens.faces_skipIgnored rfl htiles
  have htokens := RegexTokens.tokensOf_dropWhile segments
  refine ⟨segments, stop, htiles, fun _ _ => htiles.unique, htiles.text_eq, ?_, ?_, ?_, ?_⟩
  · intro front segment back heq
    have hlocation := htiles.location_eq heq
    refine ⟨hlocation, ?_⟩
    rw [hlocation, Location.offset_advance]
    exact Nat.zero_add _
  · intro n
    obtain ⟨left, hleft, hdrop⟩ := hfaces.after n
    rw [hleft.next_eq, hdrop, htokens, ← List.head?_drop]
    cases (Segment.tokensOf segments).drop n with
    | nil => cases stop <;> rfl
    | cons token more => rfl
  · have hsteps : (Segment.tokensOf (segments.dropWhile (·.kind.isNone))).length <
        input.length + 1 := by
      rw [htokens, ← String.length_toList]
      exact Nat.lt_succ_of_le htiles.length_tokens_le
    rw [tokenize, hfaces.collect_eq hsteps, htokens]
    cases stop <;> rfl
  · intro n
    obtain ⟨left, hleft, -⟩ := hfaces.after n
    rw [hleft.atEnd_iff]
    cases left with
    | nil =>
        rw [hleft.next_nil.1]
        cases stop <;> simp [RegexTokens.answerAt]
    | cons segment left =>
        obtain ⟨token, -, hanswer, -⟩ := hleft.next_cons
        simp [hanswer]

def gapLexer : RegexLexer where
  rules := [
    ⟨"word", .any, Pattern.matcher (.seq (.look .textStart) (.rep 1 none true
      (.chars (.range 'a' 'z') true))), 0, some 0⟩,
    ⟨"gap", .any, Pattern.matcher (.seq (.look .textStart) (.literal [' '])), 0, none⟩]

theorem tokens_tile_gaps :
    let segments : List Segment := [⟨⟨1, 1, 0⟩, ['a', 'b'], some 0⟩, ⟨⟨1, 3, 2⟩, [' '], none⟩,
      ⟨⟨1, 4, 3⟩, ['c'], some 0⟩]
    let error : LexError := .unrecognizedInput '!' ⟨1, 5, 4⟩
    gapLexer.Tiles .start "ab c!".toList segments (some ('!', ⟨1, 5, 4⟩)) ∧
      ((gapLexer.tokens "ab c!").after 1).next.1 = .ok (some ⟨0, "c", ⟨1, 4, 3⟩⟩) ∧
      (∀ n, 2 ≤ n → ((gapLexer.tokens "ab c!").after n).next.1 = .error error) ∧
      gapLexer.tokenize "ab c!" = .error error := by
  intro segments error
  have htiles : gapLexer.Tiles .start (['a', 'b'] ++ ([' '] ++ (['c'] ++ ['!']))) segments
      (some ('!', ⟨1, 5, 4⟩)) :=
    .of_map (by decide +kernel) (.of_map (by decide +kernel) (.of_map (by decide +kernel)
      (.stuck (by decide +kernel))))
  obtain ⟨segments', stop, -, hunique, -, -, hanswers, htokens, -⟩ :=
    tokens_tile gapLexer "ab c!"
  obtain ⟨rfl, rfl⟩ := hunique segments _ htiles
  refine ⟨htiles, hanswers 1, fun n hn => ?_, htokens⟩
  rw [hanswers n, List.getElem?_eq_none hn]

end RegexLexer
end EarleyChart
