import EarleyChart.Token.Basic

/-!
Errors in the form of a tree: each has a message, the place it refers to, and
the errors that explain it. They are shown as an outline, alone or below the
source line with a caret under the place.
-/

namespace EarleyChart

inductive RichError where
  | node (message : String) (span : Span) (context : Option String) (children : List RichError)
  deriving Repr

namespace RichError

def message : RichError → String
  | .node message _ _ _ => message

def span : RichError → Span
  | .node _ span _ _ => span

def context : RichError → Option String
  | .node _ _ context _ => context

def children : RichError → List RichError
  | .node _ _ _ children => children

def point (message : String) (span : Span) : RichError := .node message span none []

def expected (what : String) (span : Span) : RichError :=
  point s!"Expected {what}" span

def withSpan (e : RichError) (span : Span) : RichError :=
  match e with
  | .node message _ context children => .node message span context children

def withContext (e : RichError) (context : String) : RichError :=
  match e with
  | .node message span _ children => .node message span (some context) children

def addChild (e child : RichError) : RichError :=
  match e with
  | .node message span context children => .node message span context (children ++ [child])

def summary (e : RichError) : String :=
  s!"Error at line {e.span.line}, column {e.span.column}: {e.message}"

mutual

/-- The outline of an error. The last of several errors has a corner, the
others have a branch, and what is below a branch is drawn beside its line. -/
def outlineAt (margin : String) (last : Bool) : RichError → String
  | .node message _ context children =>
      margin ++ (if last then "`- " else "|- ") ++ message ++
        context.elim "" (fun c => s!" (in {c})") ++ "\n" ++
        outlinesAt (margin ++ if last then "   " else "|  ") children

def outlinesAt (margin : String) : List RichError → String
  | [] => ""
  | child :: rest => outlineAt margin rest.isEmpty child ++ outlinesAt margin rest

end

def outline (e : RichError) : String := outlineAt "" true e

/-- The outline below the source line of the error, with a caret under the
column. There is none where the place falls inside a character. -/
def withSource? (e : RichError) (source : List Char) : Option String :=
  let cut := cutAt source e.span.start
  if cut.inside = 0 then
    let line := lastLine cut.before ++ firstLine cut.after
    let caret := List.replicate (e.span.column - 1) ' ' ++ ['^']
    some <| s!"Error at line {e.span.line}, column {e.span.column}:\n" ++
      String.ofList line ++ "\n" ++ String.ofList caret ++ "\n" ++ e.outline
  else none

end RichError
end EarleyChart
