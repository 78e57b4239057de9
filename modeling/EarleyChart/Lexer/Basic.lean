import EarleyChart.Lexer.FirstBytes
import EarleyChart.Token.Stream

/-!
Lexers made of token definitions. At each place the definition with the longest
match wins; of equal lengths the higher priority wins, and of equal priorities
the definition that comes first. Matches of ignored definitions are passed over.
How patterns are compiled and searched for is left to a dialect of regular
expressions.
-/

namespace EarleyChart

/-- A token definition: the terminal it stands for, its pattern, its priority
among matches of one length, and whether its matches are passed over. -/
structure TokenDef where
  name : String
  pattern : String
  priority : Int
  ignore : Bool
  deriving DecidableEq, Repr

/-- A compiled pattern: the number of characters up to the end of the match that a search
finds in a text. It lies within the text. -/
structure Matcher where
  matchEnd : List Char → Option Nat
  matchEnd_le : ∀ {text n}, matchEnd text = some n → n ≤ text.length

/-- A dialect of regular expressions compiles a pattern, or tells what is wrong with it. -/
structure Dialect where
  compile : List Char → Except String Matcher

/-- A definition made ready: no kind means that its matches are passed over. -/
structure LexRule where
  name : String
  first : FirstBytes
  matcher : Matcher
  priority : Int
  kind : Option TokenKind

namespace LexRule

def anchoredText (pattern : String) : List Char :=
  ['^', '(', '?', ':'] ++ pattern.toList ++ [')']

/-- Makes a definition ready. The pattern is compiled first, then the terminal is
looked up. -/
def ofDef (dialect : Dialect) (s : Symbols) (d : TokenDef) : Except LexError LexRule := do
  let matcher ← (dialect.compile (anchoredText d.pattern)).mapError (.invalidPattern d.name)
  let kind ← if d.ignore then pure none else (s.kindNamed d.name).map some
  return ⟨d.name, .ofPattern (FirstBytes.bytesOf d.pattern.toList), matcher, d.priority, kind⟩

def matchLength? (rule : LexRule) (text : List Char) : Option Nat :=
  (rule.matcher.matchEnd text).filter (· > 0)

end LexRule

/-- The positions of the definitions to be tried, the first ones first: those that are
tried at a byte, and those that are tried at every byte. -/
structure DispatchTable where
  table : Vector (List Nat) 256
  always : List Nat
  deriving Repr

namespace DispatchTable

def empty : DispatchTable := ⟨Vector.replicate 256 [], []⟩

def enter (index : Nat) (table : Vector (List Nat) 256) (b : UInt8) : Vector (List Nat) 256 :=
  table.set b.toNat (table[b.toFin] ++ [index]) b.toNat_lt

/-- Adds a definition, at each of its first bytes once. -/
def add (t : DispatchTable) (index : Nat) : FirstBytes → DispatchTable
  | .any => { t with always := t.always ++ [index] }
  | .among bytes => { t with table := bytes.eraseDups.foldl (enter index) t.table }

def candidates (t : DispatchTable) (b : UInt8) : List Nat :=
  t.table[b.toFin] ++ t.always

def ofRules (rules : List LexRule) : DispatchTable :=
  rules.zipIdx.foldl (fun t (rule, index) => t.add index rule.first) empty

end DispatchTable

structure RegexLexer where
  rules : List LexRule
  dispatch : DispatchTable := .ofRules rules
  dispatch_eq : dispatch = .ofRules rules := by rfl

/-- A definition that matches: its position and the length of the match. -/
structure LexMatch where
  index : Nat
  rule : LexRule
  length : Nat

namespace LexMatch

/-- Whether one match is preferred to another. -/
def better (a b : LexMatch) : Bool :=
  a.length > b.length ||
    (a.length == b.length && (a.rule.priority > b.rule.priority ||
      (a.rule.priority == b.rule.priority && a.index < b.index)))

def best (so : Option LexMatch) (new : LexMatch) : Option LexMatch :=
  match so with
  | none => some new
  | some old => if new.better old then some new else some old

end LexMatch

namespace RegexLexer

def rulesOf (dialect : Dialect) (s : Symbols) : List TokenDef → Except LexError (List LexRule)
  | [] => .ok []
  | d :: rest => do
      let rule ← LexRule.ofDef dialect s d
      let rules ← rulesOf dialect s rest
      return rule :: rules

/-- A lexer of definitions whose patterns are written in a dialect. -/
def ofDefsIn (dialect : Dialect) (s : Symbols) (defs : List TokenDef) :
    Except LexError RegexLexer :=
  (rulesOf dialect s defs).map fun rules => { rules := rules }

def size (lexer : RegexLexer) : Nat := lexer.rules.length

def names (lexer : RegexLexer) : List String := lexer.rules.map (·.name)

def candidates (lexer : RegexLexer) (b : UInt8) : List (LexRule × Nat) :=
  (lexer.dispatch.candidates b).filterMap fun index =>
    lexer.rules[index]?.map fun rule => (rule, index)

def longestMatch (lexer : RegexLexer) (text : List Char) : Option LexMatch :=
  match FirstBytes.bytesOf (text.take 1) with
  | [] => none
  | b :: _ =>
      ((lexer.candidates b).filterMap fun (rule, index) =>
        (rule.matchLength? text).map fun length => ⟨index, rule, length⟩).foldl LexMatch.best none

theorem mem_of_foldl_best {candidates : List LexMatch} {so : Option LexMatch}
    {found : LexMatch} (h : candidates.foldl LexMatch.best so = some found) :
    so = some found ∨ found ∈ candidates := by
  induction candidates generalizing so with
  | nil => exact .inl h
  | cons new rest ih =>
      rcases ih h with hbest | hrest
      · cases so with
        | none => simp [Option.some.inj hbest]
        | some old =>
            simp only [LexMatch.best] at hbest
            split at hbest
            · simp [Option.some.inj hbest]
            · exact .inl hbest
      · exact .inr (List.mem_cons_of_mem new hrest)

/-- What is found is a match of a definition that is tried. -/
theorem match_of_longestMatch {lexer : RegexLexer} {text : List Char} {found : LexMatch}
    (h : lexer.longestMatch text = some found) :
    text ≠ [] ∧ ∃ b, (found.rule, found.index) ∈ lexer.candidates b ∧
      found.rule.matchLength? text = some found.length := by
  rw [longestMatch] at h
  split at h
  · contradiction
  next b more hbytes =>
  refine ⟨?_, b, ?_⟩
  · rintro rfl
    contradiction
  · obtain ⟨⟨rule, index⟩, hmem, hmatch⟩ :=
      List.mem_filterMap.mp ((mem_of_foldl_best h).resolve_left (by simp))
    obtain ⟨length, hlength, rfl⟩ := Option.map_eq_some_iff.mp hmatch
    exact ⟨hmem, hlength⟩

theorem ne_nil_of_longestMatch {lexer : RegexLexer} {text : List Char} {found : LexMatch}
    (h : lexer.longestMatch text = some found) : text ≠ [] := (match_of_longestMatch h).1

theorem length_longestMatch_pos {lexer : RegexLexer} {text : List Char} {found : LexMatch}
    (h : lexer.longestMatch text = some found) : 0 < found.length := by
  obtain ⟨-, b, -, hmatch⟩ := match_of_longestMatch h
  simpa using (Option.filter_eq_some_iff.mp hmatch).2

end RegexLexer

/-- A source of the tokens of a text: the place where it stands, the text from there
on, and an error that was found when ignored matches were passed over and that the
next request is answered with. -/
structure RegexTokens where
  lexer : RegexLexer
  location : Location
  rest : List Char
  pending : Option LexError

namespace RegexTokens

def moveOver (source : RegexTokens) (count : Nat) : RegexTokens :=
  { source with
    location := source.location.advance (source.rest.take count)
    rest := source.rest.drop count }

theorem length_moveOver_lt {source : RegexTokens} {found : LexMatch}
    (h : source.lexer.longestMatch source.rest = some found) :
    (source.moveOver found.length).rest.length < source.rest.length := by
  have hlength := RegexLexer.length_longestMatch_pos h
  have hrest := List.length_pos_iff.mpr (RegexLexer.ne_nil_of_longestMatch h)
  simp only [moveOver, List.length_drop]
  omega

/-- Passes over matches of ignored definitions. An error that is found there is kept
for the next request. -/
def skipIgnored (source : RegexTokens) : RegexTokens :=
  match source.rest with
  | [] => source
  | c :: _ =>
      match _hfound : source.lexer.longestMatch source.rest with
      | none => { source with pending := some (.unrecognizedInput c source.location) }
      | some found =>
          match found.rule.kind with
          | none => skipIgnored (source.moveOver found.length)
          | some _ => source
termination_by source.rest.length
decreasing_by exact length_moveOver_lt _hfound

theorem length_skipIgnored_le (source : RegexTokens) :
    source.skipIgnored.rest.length ≤ source.rest.length := by
  fun_induction skipIgnored source with
  | case1 | case2 | case4 => exact Nat.le_refl _
  | case3 source c _ _ found hfound _ ih =>
      exact Nat.le_trans ih (Nat.le_of_lt (length_moveOver_lt hfound))

/-- The next token and what follows it. Ignored matches after a token are passed over
at once; one that is met before a token is passed over too. -/
def next (source : RegexTokens) : TokenAnswer × RegexTokens :=
  match source.pending with
  | some error => (.error error, { source with pending := none })
  | none =>
      match source.rest with
      | [] => (.ok none, source)
      | c :: _ =>
          match _hfound : source.lexer.longestMatch source.rest with
          | none => (.error (.unrecognizedInput c source.location), source)
          | some found =>
              match found.rule.kind with
              | none => next (source.moveOver found.length).skipIgnored
              | some kind =>
                  (.ok (some ⟨kind, String.ofList (source.rest.take found.length),
                    source.location⟩), (source.moveOver found.length).skipIgnored)
termination_by source.rest.length
decreasing_by
  exact Nat.lt_of_le_of_lt (length_skipIgnored_le _) (length_moveOver_lt _hfound)

def atEnd (source : RegexTokens) : Bool :=
  source.pending.isNone && source.rest.isEmpty

theorem length_next_lt {source rest : RegexTokens} {token : Token}
    (h : source.next = (.ok (some token), rest)) : rest.rest.length < source.rest.length := by
  fun_induction next source with
  | case1 | case2 | case3 => simp at h
  | case4 source _ c _ _ found hfound _ ih =>
      exact Nat.lt_trans (ih h)
        (Nat.lt_of_le_of_lt (length_skipIgnored_le _) (length_moveOver_lt hfound))
  | case5 source _ c _ _ found hfound kind =>
      obtain ⟨-, rfl⟩ := Prod.mk.inj h
      exact Nat.lt_of_le_of_lt (length_skipIgnored_le _) (length_moveOver_lt hfound)

instance : TokenSource RegexTokens where
  next := next
  atEnd := atEnd
  size source := source.rest.length
  size_next := length_next_lt

/-- The tokens that remain, or the first error. The first argument bounds their
number. -/
def collect : Nat → RegexTokens → Except LexError (List Token)
  | 0, _ => .ok []
  | steps + 1, source =>
      match source.next with
      | (.error error, _) => .error error
      | (.ok none, _) => .ok []
      | (.ok (some token), source) => (collect steps source).map (token :: ·)

end RegexTokens

namespace RegexLexer

def tokens (lexer : RegexLexer) (input : String) : RegexTokens :=
  RegexTokens.skipIgnored ⟨lexer, .start, input.toList, none⟩

def tokenize (lexer : RegexLexer) (input : String) : Except LexError (List Token) :=
  (lexer.tokens input).collect (input.length + 1)

end RegexLexer
end EarleyChart
