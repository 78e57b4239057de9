import EarleyChart.Grammar.Basic
import EarleyChart.Report.RichError
import EarleyChart.Text.Quoted
import EarleyChart.Token.Source

/-!
How a run ends without an answer or with a negative one. A rejection says that
the input is not in the language; a parse error says that the run could not go
on.
-/

namespace EarleyChart

/-- Why an input is rejected, with the last column that was built. -/
inductive Rejection where
  /-- No item waits for the token. -/
  | unexpectedToken (column : Nat) (token : Token) (expected : List SymbolId)
  /-- The input ends before the start symbol is complete. -/
  | unexpectedEnd (column : Nat) (location : Location) (expected : List SymbolId)
  /-- Every correction costs more than the ceiling. -/
  | budgetExceeded (column : Nat) (token : Token)
  /-- No item waits for a terminal, so that there is no correction. -/
  | recoveryExhausted (column : Nat) (token : Token)
  deriving DecidableEq, Repr

namespace Rejection

def column : Rejection → Nat
  | .unexpectedToken column _ _ | .unexpectedEnd column _ _ | .budgetExceeded column _
  | .recoveryExhausted column _ => column

def token? : Rejection → Option Token
  | .unexpectedToken _ token _ | .budgetExceeded _ token | .recoveryExhausted _ token =>
      some token
  | .unexpectedEnd _ _ _ => none

def expected : Rejection → List SymbolId
  | .unexpectedToken _ _ expected | .unexpectedEnd _ _ expected => expected
  | .budgetExceeded _ _ | .recoveryExhausted _ _ => []

def location : Rejection → Location
  | .unexpectedEnd _ location _ => location
  | .unexpectedToken _ token _ | .budgetExceeded _ token | .recoveryExhausted _ token =>
      token.location

def message : Rejection → String
  | .unexpectedToken column token _ =>
      s!"Unexpected token {quoted token.text} after column {column}"
  | .unexpectedEnd column _ _ => s!"Unexpected end of input at column {column}"
  | .budgetExceeded column token =>
      s!"Error budget exceeded at token {quoted token.text} after column {column}"
  | .recoveryExhausted column token =>
      s!"No recovery possible at token {quoted token.text} after column {column}"

def headline : Rejection → String
  | .unexpectedToken _ token _ => s!"Unexpected '{token.text}'"
  | .unexpectedEnd _ _ _ => "Unexpected end of input"
  | .budgetExceeded _ token => s!"No correction for '{token.text}' within the error budget"
  | .recoveryExhausted _ token => s!"No correction possible at '{token.text}'"

def describe (s : Symbols) : List SymbolId → String
  | [symbol] => s!"'{s.symbolName symbol}'"
  | symbols =>
      let names := ", ".intercalate (symbols.map s.symbolName)
      s!"one of [{names}]"

/-- What the report says was expected. A token after which nothing is expected
stands where the input should have ended. -/
def expectation? (s : Symbols) (r : Rejection) : Option String :=
  match r.expected, r with
  | [], .unexpectedToken _ _ _ => some "end of input"
  | [], _ => none
  | symbols, _ => some (describe s symbols)

def toRichError (s : Symbols) (r : Rejection) : RichError :=
  let span := Span.ofLocation r.location
  .node r.headline span (some s!"column {r.column}")
    ((r.expectation? s).toList.map fun what => .expected what span)

end Rejection

inductive ParseError where
  | invalidGrammar (reason : String)
  | lex (cause : LexError)
  | collaborator (reason : String)
  | internal (reason : String)
  | inputTooLarge (columns maxColumns : Nat)
  | itemLimitExceeded (items maxItems : Nat)
  | timeoutExceeded (elapsedMs timeoutMs : Nat)
  deriving DecidableEq, Repr

namespace ParseError

def message : ParseError → String
  | .invalidGrammar reason => s!"Invalid grammar: {reason}"
  | .lex cause => s!"Lexer error: {cause.message}"
  | .collaborator reason => s!"Collaborator contract violated: {reason}"
  | .internal reason => s!"Internal error: {reason}"
  | .inputTooLarge columns maxColumns =>
      s!"Input too large: {columns} columns exceeds limit of {maxColumns}"
  | .itemLimitExceeded items maxItems =>
      s!"Item limit exceeded: {items} live items exceeds limit of {maxItems}"
  | .timeoutExceeded elapsedMs timeoutMs =>
      s!"Timeout exceeded: {elapsedMs}ms elapsed exceeds limit of {timeoutMs}ms"

def cause? : ParseError → Option LexError
  | .lex cause => some cause
  | _ => none

/-- The error in words, with the position of unrecognized input looked up in
the source. -/
def messageIn (source : List Char) : ParseError → String
  | .lex (.unrecognizedInput found location) =>
      let (line, column) := lineColumn source location.offset
      s!"Unrecognized input {quotedChar found} at line {line}, column {column} (byte offset {location.offset})"
  | e => e.message

end ParseError
end EarleyChart
