import EarleyChart.Pattern.Class
import EarleyChart.Pattern.Footprint

/-!
Reading patterns. A pattern is made of alternatives, these of parts in a row,
and each part may be repeated. A group may set flags for what it holds, and
flags set on their own hold up to the end of the group around them. There is no
looking around and no reference to what a group matched.
-/

namespace EarleyChart

/-- A part of a pattern with the depth of its groups, classes, repetitions,
rows and alternatives. Flags set on their own cannot be repeated. -/
structure PatternPart where
  pattern : Pattern
  depth : Nat
  repeatable : Bool
  deriving DecidableEq, Repr

namespace PatternPart

def leaf (pattern : Pattern) : PatternPart := ⟨pattern, 0, true⟩

/-- Several parts put together, the last one first. -/
def gather (together : List Pattern → Pattern) : List PatternPart → PatternPart
  | [] => leaf .empty
  | [part] => part
  | parts =>
      ⟨together (parts.reverse.map (·.pattern)), 1 + (parts.map (·.depth)).foldl max 0, true⟩

def row (parts : List PatternPart) : PatternPart := gather .row parts

def choice (parts : List PatternPart) : PatternPart := gather .choice parts

def group (index : Option Nat) (part : PatternPart) : PatternPart :=
  let pattern :=
    match index with
    | some index => .group index part.pattern
    | none => part.pattern
  ⟨pattern, part.depth + 1, true⟩

def repeated (flags : PatternFlags) (least : Nat) (most : Option Nat) (lazy : Bool)
    (part : PatternPart) : PatternPart :=
  ⟨.repeated least most (lazy == flags.swapGreed) part.pattern, part.depth + 1, true⟩

def ofChar (flags : PatternFlags) (c : Char) : Pattern :=
  if flags.ignoreCase then .ofSet flags.unicode (flags.fold (.single c)) else .literal [c]

def ofAtom (flags : PatternFlags) : Atom → PatternPart
  | .literal c => leaf (ofChar flags c)
  | .set set => leaf (.ofSet flags.unicode set)
  | .look l => leaf (.look l)

/-- The point: any character, but without a flag no line break. Without Unicode it
is not allowed. -/
def dot (flags : PatternFlags) : Option Pattern :=
  if flags.unicode then
    let breaks :=
      if flags.dotAll then []
      else if flags.crlf then ['\n', '\r']
      else ['\n']
    some (.ofSet true (CharSet.ofChars breaks).compl)
  else none

def caret (flags : PatternFlags) : Look :=
  if flags.multiLine then if flags.crlf then .lineStartCRLF else .lineStart else .textStart

def dollar (flags : PatternFlags) : Look :=
  if flags.multiLine then if flags.crlf then .lineEndCRLF else .lineEnd else .textEnd

/-- A whole number of a count, below 2 ^ 32. White space around it is passed
over. -/
def readDecimal (flags : PatternFlags) (text : List Char) : Option (Nat × List Char) :=
  let (digits, rest) := flags.span Char.isDigit false (text.dropWhile isBlank)
  let value := digits.foldl (fun n d => n * 10 + (d.toNat - '0'.toNat)) 0
  if digits.isEmpty || UInt32.size ≤ value then none else some (value, rest.dropWhile isBlank)

def readCount (flags : PatternFlags) (text : List Char) :
    Option (Nat × Option Nat × List Char) := do
  let (least, rest) ← readDecimal flags (flags.skip text)
  match rest with
  | '\x7d' :: rest => return (least, some least, rest)
  | ',' :: rest =>
      match flags.skip rest with
      | '\x7d' :: rest => return (least, none, rest)
      | rest => do
          let (most, rest) ← readDecimal flags rest
          match rest with
          | '\x7d' :: rest => if least ≤ most then return (least, some most, rest) else none
          | _ => none
  | _ => none

/-- Whether a question mark makes a repetition lazy. -/
def readLazy : List Char → Bool × List Char
  | '?' :: rest => (true, rest)
  | rest => (false, rest)

def repeatLast (flags : PatternFlags) (least : Nat) (most : Option Nat) (lazy : Bool) :
    List PatternPart → Option (List PatternPart)
  | [] => none
  | part :: parts =>
      if part.repeatable then some (repeated flags least most lazy part :: parts) else none

/-- Flag letters up to a colon or a closing parenthesis, which tells whether a
group begins. A letter and the minus sign may stand once, and the sign not at
the end. -/
def readFlags (flags : PatternFlags) (clearing lastSign : Bool) (seen : List Char) :
    List Char → Option (PatternFlags × Bool × List Char)
  | [] => none
  | c :: rest =>
      if c = ':' then if lastSign then none else some (flags, true, rest)
      else if c = ')' then
        if lastSign || seen.isEmpty then none else some (flags, false, rest)
      else if seen.contains c then none
      else if c = '-' then readFlags flags true true (c :: seen) rest
      else
        match flags.set? c !clearing with
        | none => none
        | some flags => readFlags flags clearing false (c :: seen) rest

def isNameChar (first : Bool) (c : Char) : Bool :=
  c == '_' || isAlphabetic c ||
    (!first && (isNumeric c || c == '.' || c == '[' || c == ']'))

def readName (text : List Char) : Option (String × List Char) :=
  let name := text.takeWhile (· != '>')
  match name, text.dropWhile (· != '>') with
  | first :: others, '>' :: rest =>
      if isNameChar true first && others.all (isNameChar false) then
        some (String.ofList name, rest)
      else none
  | _, _ => none

inductive Opening where
  /-- Flags on their own. -/
  | flags (flags : PatternFlags)
  /-- A group that captures nothing, with its flags. -/
  | plain (flags : PatternFlags)
  /-- A group that captures, and its name if it has one. -/
  | capture (name : Option String)
  deriving DecidableEq, Repr

def readOpening (flags : PatternFlags) (text : List Char) : Option (Opening × List Char) :=
  match flags.skip text with
  | '?' :: '=' :: _ | '?' :: '!' :: _ | '?' :: '<' :: '=' :: _ | '?' :: '<' :: '!' :: _ => none
  | '?' :: 'P' :: '<' :: rest | '?' :: '<' :: rest => do
      let (name, rest) ← readName rest
      return (.capture (some name), rest)
  | '?' :: rest => do
      let (inner, begins, rest) ← readFlags flags false false [] rest
      return (if begins then .plain inner else .flags inner, rest)
  | rest => some (.capture none, rest)

structure Captures where
  count : Nat
  names : List String
  deriving DecidableEq, Repr

def Captures.add (captures : Captures) : Option String → Option Captures
  | none => some { captures with count := captures.count + 1 }
  | some name =>
      if captures.names.contains name then none
      else some ⟨captures.count + 1, name :: captures.names⟩

/-- The contents of a group up to its closing parenthesis or the end of the text:
`branches` are the alternatives read and `parts` the parts of the next one, the
last ones first. The first argument bounds the depth of the recursion. -/
def readBody : Nat → PatternFlags → Captures → List PatternPart → List PatternPart →
    List Char → Option (PatternPart × Captures × List Char)
  | 0, _, _, _, _, _ => none
  | fuel + 1, flags, captures, branches, parts, text =>
      match flags.skip text with
      | [] => some (choice (row parts :: branches), captures, [])
      | ')' :: rest => some (choice (row parts :: branches), captures, ')' :: rest)
      | '|' :: rest => readBody fuel flags captures (row parts :: branches) [] rest
      | '(' :: rest => do
          let (opening, rest) ← readOpening flags rest
          match opening with
          | .flags inner =>
              readBody fuel inner captures branches (⟨.empty, 0, false⟩ :: parts) rest
          | .plain inner =>
              match ← readBody fuel inner captures [] [] rest with
              | (body, captures, ')' :: rest) =>
                  readBody fuel flags captures branches (group none body :: parts) rest
              | _ => none
          | .capture name =>
              let captures ← captures.add name
              let index := captures.count
              match ← readBody fuel flags captures [] [] rest with
              | (body, captures, ')' :: rest) =>
                  readBody fuel flags captures branches (group (some index) body :: parts) rest
              | _ => none
      | '[' :: rest => do
          let (part, rest) ← ClassPart.read flags rest
          readBody fuel flags captures branches
            (⟨.ofSet flags.unicode part.set, part.depth, true⟩ :: parts) rest
      | '?' :: rest => do
          let (lazy, rest) := readLazy rest
          readBody fuel flags captures branches (← repeatLast flags 0 (some 1) lazy parts) rest
      | '*' :: rest => do
          let (lazy, rest) := readLazy rest
          readBody fuel flags captures branches (← repeatLast flags 0 none lazy parts) rest
      | '+' :: rest => do
          let (lazy, rest) := readLazy rest
          readBody fuel flags captures branches (← repeatLast flags 1 none lazy parts) rest
      | '\x7b' :: rest => do
          let (least, most, rest) ← readCount flags rest
          let (lazy, rest) := readLazy (flags.skip rest)
          readBody fuel flags captures branches (← repeatLast flags least most lazy parts) rest
      | '\\' :: rest => do
          let (atom, rest) ← Atom.readEscape flags rest
          readBody fuel flags captures branches (ofAtom flags atom :: parts) rest
      | '.' :: rest => do
          readBody fuel flags captures branches (leaf (← dot flags) :: parts) rest
      | '^' :: rest =>
          readBody fuel flags captures branches (leaf (.look (caret flags)) :: parts) rest
      | '$' :: rest =>
          readBody fuel flags captures branches (leaf (.look (dollar flags)) :: parts) rest
      | c :: rest =>
          readBody fuel flags captures branches (leaf (ofChar flags c) :: parts) rest

end PatternPart

namespace Pattern

def maxDepth : Nat := 250

/-- The pattern that a text writes. It must not be too deep, and its automata must
not be too large. -/
def parse? (text : List Char) : Option Pattern :=
  match PatternPart.readBody (text.length + 1) .standard ⟨0, []⟩ [] [] text with
  | some (part, _, []) =>
      if part.depth ≤ maxDepth && part.pattern.fits then some part.pattern else none
  | _ => none

end Pattern
end EarleyChart
