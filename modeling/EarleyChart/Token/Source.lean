import EarleyChart.Token.Basic
import EarleyChart.Text.Quoted

/-!
Sources of tokens, read strictly from left to right. A source answers a request
with a token, with its end, or with an error; every token it gives leaves less
to read, so that a source is exhausted after finitely many tokens.
-/

namespace EarleyChart

inductive LexError where
  | invalidPattern (name reason : String)
  | unknownTerminal (name : String)
  | unrecognizedInput (found : Char) (location : Location)
  deriving DecidableEq, Repr

namespace LexError

def message : LexError → String
  | .invalidPattern name reason => s!"Invalid pattern for token '{name}': {reason}"
  | .unknownTerminal name => s!"Token '{name}' is not a terminal of the grammar"
  | .unrecognizedInput found location =>
      s!"Unrecognized input {quotedChar found} at line {location.line}, column {location.column}"

end LexError

abbrev TokenAnswer := Except LexError (Option Token)

/-- A source of tokens. -/
class TokenSource (σ : Type) where
  /-- The next token and the source after it. -/
  next : σ → TokenAnswer × σ
  /-- Whether no token remains. -/
  atEnd : σ → Bool
  /-- A bound on the tokens that remain. -/
  size : σ → Nat
  size_next : ∀ {source rest : σ} {token : Token},
    next source = (.ok (some token), rest) → size rest < size source

/-- A source of one of two types. -/
instance {σ τ : Type} [TokenSource σ] [TokenSource τ] : TokenSource (σ ⊕ τ) where
  next
    | .inl source => (TokenSource.next source).map id .inl
    | .inr source => (TokenSource.next source).map id .inr
  atEnd
    | .inl source => TokenSource.atEnd source
    | .inr source => TokenSource.atEnd source
  size
    | .inl source => TokenSource.size source
    | .inr source => TokenSource.size source
  size_next := by
    intro source rest token h
    cases source with
    | inl source | inr source =>
        rcases hn : TokenSource.next source with ⟨answer, after⟩
        simp only [hn, Prod.map, id_eq, Prod.mk.injEq] at h
        obtain ⟨rfl, rfl⟩ := h
        exact TokenSource.size_next hn

end EarleyChart
