import EarleyChart.Grammar.Basic
import EarleyChart.Text.Quoted

/-!
Parse trees. A node applies a rule; its children are nodes and tokens in the
order of the rule's right-hand side, with the tokens dropped by repair where
they were dropped.
-/

namespace EarleyChart

inductive ParseTree where
  /-- A rule applied. -/
  | node (rule : RuleId) (lhs : SymbolId) (children : List ParseTree)
  /-- A token read as its terminal. -/
  | leaf (terminal : SymbolId) (token : Token)
  /-- A token read as another terminal. -/
  | substituted (expected : SymbolId) (found : Token)
  /-- A token dropped. -/
  | skipped (token : Token)
  deriving Repr

namespace ParseTree

mutual

def tokens : ParseTree → List Token
  | .node _ _ children => tokensOfAll children
  | .leaf _ token => [token]
  | .substituted _ found => [found]
  | .skipped token => [token]

def tokensOfAll : List ParseTree → List Token
  | [] => []
  | child :: rest => tokens child ++ tokensOfAll rest

end

mutual

/-- The tree as an s-expression. A token is shown by its text, or by the name of
its terminal where it has none; a substitution as `<expected:found>`, a dropped
token as `~text`. -/
def sexpr (s : Symbols) : ParseTree → String
  | .node _ lhs children => "(" ++ s.symbolName lhs ++ sexprs s children ++ ")"
  | .leaf terminal token => if token.text.isEmpty then s.symbolName terminal else token.text
  | .substituted expected found => "<" ++ s.symbolName expected ++ ":" ++ found.text ++ ">"
  | .skipped token => "~" ++ token.text

def sexprs (s : Symbols) : List ParseTree → String
  | [] => ""
  | child :: rest => " " ++ sexpr s child ++ sexprs s rest

end

/-- How an outline is drawn: the text that a level is indented by, and the
greatest depth that is shown. -/
structure OutlineStyle where
  indent : String
  maxDepth : Nat
  deriving DecidableEq, Repr

namespace OutlineStyle

/-- Two spaces a level, a hundred levels. -/
def standard : OutlineStyle := ⟨"  ", 100⟩

instance : Inhabited OutlineStyle := ⟨standard⟩

def margin (style : OutlineStyle) (depth : Nat) : String :=
  String.join (List.replicate depth style.indent)

end OutlineStyle

mutual

/-- The outline of a tree at a depth, one line for each node. Below the greatest
depth there are only dots. -/
def outlineAt (s : Symbols) (style : OutlineStyle) (depth : Nat) (tree : ParseTree) : String :=
  let margin := style.margin depth
  if depth > style.maxDepth then margin ++ "...\n"
  else
    match tree with
    | .node _ lhs children =>
        margin ++ s.symbolName lhs ++ "\n" ++ outlinesAt s style (depth + 1) children
    | .leaf terminal token =>
        margin ++ s!"{s.symbolName terminal} {quoted token.text} @ {token.location.line}:{token.location.column}\n"
    | .substituted expected found =>
        margin ++ s!"{s.symbolName expected} <- {quoted found.text} (substituted)\n"
    | .skipped token => margin ++ s!"{quoted token.text} (skipped)\n"

def outlinesAt (s : Symbols) (style : OutlineStyle) (depth : Nat) : List ParseTree → String
  | [] => ""
  | child :: rest => outlineAt s style depth child ++ outlinesAt s style depth rest

end

def outline (s : Symbols) (style : OutlineStyle) (tree : ParseTree) : String :=
  outlineAt s style 0 tree

end ParseTree
end EarleyChart
