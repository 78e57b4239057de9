import EarleyChart.Pattern.Flags
import EarleyChart.Pattern.Look
import EarleyChart.Pattern.Named

/-!
Escapes in patterns: characters by their code point or by a letter, punctuation
taken as itself, named classes of characters, and conditions on places.
-/

namespace EarleyChart

inductive Atom where
  | literal (c : Char)
  | set (set : CharSet)
  | look (condition : Look)
  deriving DecidableEq, Repr

namespace Atom

def readHexDigits (flags : PatternFlags) : Nat → Nat → List Char → Option (Nat × List Char)
  | 0, value, text => some (value, text)
  | count + 1, value, text =>
      match flags.skip text with
      | [] => none
      | c :: rest => do
          let digit ← hexValue? c
          readHexDigits flags count (value * 16 + digit) rest

/-- A character by its code point, between braces or with a number of digits. Two
digits alone stand for a byte, which without Unicode must be of ASCII. -/
def readCode (flags : PatternFlags) (digits : Nat) (text : List Char) :
    Option (Atom × List Char) :=
  match flags.skip text with
  | '\x7b' :: rest =>
      match flags.span (fun c => (hexValue? c).isSome) false rest with
      | (taken, '\x7d' :: rest) =>
          if taken.isEmpty then none
          else do
            let value := taken.foldl (fun n c => n * 16 + (hexValue? c).getD 0) 0
            return (.literal (← charOfCode? value), rest)
      | _ => none
  | text => do
      let (value, rest) ← readHexDigits flags digits 0 text
      let c ← charOfCode? value
      if digits = 2 ∧ flags.allows c = false then none else return (.literal c, rest)

def namedEdge? (name : List Char) : Option WordEdge :=
  if name = "start".toList then some .beginning
  else if name = "end".toList then some .ending
  else if name = "start-half".toList then some .noneBefore
  else if name = "end-half".toList then some .noneAfter
  else none

def edge (flags : PatternFlags) (edge : WordEdge) : Atom := .look (.word edge flags.unicode)

def isLookNameChar (c : Char) : Bool := c.isAlpha || c == '-'

/-- A word boundary, or the condition named between braces after it. Braces that
do not begin with a name are left to be read as a count. -/
def readBoundary (flags : PatternFlags) (text : List Char) : Option (Atom × List Char) :=
  match text with
  | '\x7b' :: inner =>
      match flags.skip inner with
      | [] => none
      | c :: rest =>
          if isLookNameChar c then
            match flags.span isLookNameChar false (c :: rest) with
            | (name, '\x7d' :: rest) => do
                return (edge flags (← namedEdge? name), rest)
            | _ => none
          else some (edge flags .either, text)
  | _ => some (edge flags .either, text)

def ofClass (flags : PatternFlags) (negated : Bool) (set : CharSet) (rest : List Char) :
    Option (Atom × List Char) := do
  return (.set (← flags.negateIf negated set), rest)

/-- A set by the name of a property, a category or a script: a single letter, or
the text between braces. Such sets are not allowed without Unicode. -/
def readNamedSet (flags : PatternFlags) (negated : Bool) (text : List Char) :
    Option (Atom × List Char) :=
  if flags.unicode then
    match flags.skip text with
    | [] | '\\' :: _ => none
    | '\x7b' :: rest =>
        let inName (c : Char) : Bool := c != '\x7d' && !(flags.spacious && (isBlank c || c == '#'))
        match flags.span inName false rest with
        | (name, '\x7d' :: rest) => do
            ofClass flags negated (flags.fold (← CharSet.described? name)) rest
        | _ => none
    | c :: rest => do
        ofClass flags negated (flags.fold (← CharSet.named? [c])) rest
  else none

/-- Whether an escaped character stands for itself: all of ASCII but letters,
digits and angle brackets. -/
def isSelfEscaped (c : Char) : Bool :=
  c.toNat < 0x80 && !c.isAlphanum && c != '<' && c != '>'

def readEscape (flags : PatternFlags) : List Char → Option (Atom × List Char)
  | [] => none
  | c :: rest =>
      match c with
      | 'x' => readCode flags 2 rest
      | 'u' => readCode flags 4 rest
      | 'U' => readCode flags 8 rest
      | 'p' => readNamedSet flags false rest
      | 'P' => readNamedSet flags true rest
      | 'd' => ofClass flags false (.digit flags.unicode) rest
      | 'D' => ofClass flags true (.digit flags.unicode) rest
      | 's' => ofClass flags false (.blank flags.unicode) rest
      | 'S' => ofClass flags true (.blank flags.unicode) rest
      | 'w' => ofClass flags false (.word flags.unicode) rest
      | 'W' => ofClass flags true (.word flags.unicode) rest
      | 'a' => some (.literal '\x07', rest)
      | 'f' => some (.literal '\x0c', rest)
      | 't' => some (.literal '\t', rest)
      | 'n' => some (.literal '\n', rest)
      | 'r' => some (.literal '\r', rest)
      | 'v' => some (.literal '\x0b', rest)
      | 'A' => some (.look .textStart, rest)
      | 'z' => some (.look .textEnd, rest)
      | 'b' => readBoundary flags rest
      | 'B' => some (edge flags .neither, rest)
      | '<' => some (edge flags .beginning, rest)
      | '>' => some (edge flags .ending, rest)
      | _ => if isSelfEscaped c then some (.literal c, rest) else none

end Atom
end EarleyChart
