import EarleyChart.Grammar.Basic
import EarleyChart.Text.Blank
import EarleyChart.Token.Source

/-!
Sources that hold all their tokens. They are made from a list of tokens, from
token kinds, from names of terminals parted by white space, or from single
characters that name terminals.
-/

namespace EarleyChart

def Symbols.kindNamed (s : Symbols) (name : String) : Except LexError TokenKind :=
  match (s.symbol? name).bind s.kindOf? with
  | some kind => .ok kind
  | none => .error (.unknownTerminal name)

/-- Tokens in order, and those of them not yet read. -/
structure TokenStream where
  all : List Token
  rest : List Token
  deriving Repr

namespace TokenStream

def ofList (tokens : List Token) : TokenStream := ⟨tokens, tokens⟩

def empty : TokenStream := ofList []

def ofKinds (kinds : List TokenKind) : TokenStream :=
  ofList <| kinds.zipIdx.map fun (kind, index) => ⟨kind, "", ⟨1, index + 1, index⟩⟩

/-- Cuts a text into words parted by white space. The word read so far is kept
in reverse, with the position where it began. -/
def wordsFrom (location : Location) (begun : Location) (word : List Char) :
    List Char → List (String × Location)
  | [] => if word.isEmpty then [] else [(String.ofList word.reverse, begun)]
  | c :: rest =>
      if isBlank c then
        if word.isEmpty then wordsFrom (location.step c) begun [] rest
        else
          (String.ofList word.reverse, begun) :: wordsFrom (location.step c) begun [] rest
      else
        let begun := if word.isEmpty then location else begun
        wordsFrom (location.step c) begun (c :: word) rest

/-- Tokens whose texts name terminals. The first word that names none is an error. -/
def tokensNamed (s : Symbols) : List (String × Location) → Except LexError (List Token)
  | [] => .ok []
  | (name, location) :: rest => do
      let kind ← s.kindNamed name
      let tokens ← tokensNamed s rest
      return ⟨kind, name, location⟩ :: tokens

/-- Names of terminals parted by white space. -/
def ofNames (s : Symbols) (input : String) : Except LexError TokenStream :=
  (tokensNamed s (wordsFrom .start .start [] input.toList)).map ofList

def charsFrom (location : Location) : List Char → List (String × Location)
  | [] => []
  | c :: rest =>
      if isBlank c then charsFrom (location.step c) rest
      else (String.singleton c, location) :: charsFrom (location.step c) rest

/-- Single characters that name terminals; white space is passed over. -/
def ofChars (s : Symbols) (input : String) : Except LexError TokenStream :=
  (tokensNamed s (charsFrom .start input.toList)).map ofList

def size (stream : TokenStream) : Nat := stream.all.length

def isEmpty (stream : TokenStream) : Bool := stream.all.isEmpty

def rewind (stream : TokenStream) : TokenStream := ofList stream.all

def next (stream : TokenStream) : TokenAnswer × TokenStream :=
  match stream with
  | ⟨all, token :: rest⟩ => (.ok (some token), ⟨all, rest⟩)
  | ⟨all, []⟩ => (.ok none, ⟨all, []⟩)

instance : TokenSource TokenStream where
  next := next
  atEnd stream := stream.rest.isEmpty
  size stream := stream.rest.length
  size_next := by
    intro source rest token h
    obtain ⟨all, tokens⟩ := source
    cases tokens with
    | nil => simp [next] at h
    | cons first tokens =>
        simp only [next, Prod.mk.injEq] at h
        obtain ⟨-, rfl⟩ := h
        simp

end TokenStream
end EarleyChart
