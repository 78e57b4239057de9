import EarleyChart.Pattern.Escape

/-!
Bracketed classes of characters. A class lists characters, ranges, named
classes and nested classes; the lists may be joined by `&&` (both), `--` (the
first but not the second) and `~~` (just one of them), from the left. A closing
bracket that comes first, and hyphens at the beginning, stand for themselves.
-/

namespace EarleyChart

/-- A set with the depth of the brackets and operators it is written with. -/
structure ClassPart where
  set : CharSet
  depth : Nat
  deriving DecidableEq, Repr

inductive ClassOp where
  | inter
  | diff
  | symmDiff
  deriving DecidableEq, Repr

namespace ClassPart

def leaf (set : CharSet) : ClassPart := ⟨set, 0⟩

def union : List ClassPart → ClassPart
  | [] => leaf .empty
  | [part] => part
  | parts =>
      ⟨parts.foldl (fun set part => set.union part.set) .empty,
        1 + (parts.map (·.depth)).foldl max 0⟩

def join (flags : PatternFlags) (op : ClassOp) (a b : ClassPart) : ClassPart :=
  let first := flags.fold a.set
  let second := flags.fold b.set
  let set :=
    match op with
    | .inter => .inter first second
    | .diff => .diff first second
    | .symmDiff => .symmDiff first second
  ⟨set, 1 + max a.depth b.depth⟩

/-- What stands before an operator joined with what stands after it. -/
def joinPending (flags : PatternFlags) (pending : Option (ClassOp × ClassPart))
    (last : ClassPart) : ClassPart :=
  match pending with
  | none => last
  | some (op, first) => join flags op first last

def bracket (flags : PatternFlags) (negated : Bool) (part : ClassPart) : Option ClassPart := do
  return ⟨← flags.negateIf negated (flags.fold part.set), part.depth + 1⟩

def namedRanges? (name : String) : Option (List (Char × Char)) :=
  match name with
  | "alnum" => some [('0', '9'), ('A', 'Z'), ('a', 'z')]
  | "alpha" => some [('A', 'Z'), ('a', 'z')]
  | "ascii" => some [('\x00', '\x7f')]
  | "blank" => some [('\t', '\t'), (' ', ' ')]
  | "cntrl" => some [('\x00', '\x1f'), ('\x7f', '\x7f')]
  | "digit" => some [('0', '9')]
  | "graph" => some [('!', '~')]
  | "lower" => some [('a', 'z')]
  | "print" => some [(' ', '~')]
  | "punct" => some [('!', '/'), (':', '@'), ('[', '\x60'), ('\x7b', '~')]
  | "space" => some [('\t', '\r'), (' ', ' ')]
  | "upper" => some [('A', 'Z')]
  | "word" => some [('0', '9'), ('A', 'Z'), ('_', '_'), ('a', 'z')]
  | "xdigit" => some [('0', '9'), ('A', 'F'), ('a', 'f')]
  | _ => none

/-- A class of ASCII characters by its name, after the bracket: whether it is
negated, and its ranges. -/
def readNamed? : List Char → Option (Bool × List (Char × Char) × List Char)
  | ':' :: text =>
      let (negated, text) :=
        match text with
        | '^' :: rest => (true, rest)
        | rest => (false, rest)
      match text.dropWhile (· != ':') with
      | ':' :: ']' :: rest => do
          return (negated, ← namedRanges? (String.ofList (text.takeWhile (· != ':'))), rest)
      | _ => none
  | _ => none

def readAtom (flags : PatternFlags) : List Char → Option (Atom × List Char)
  | [] => none
  | '\\' :: rest => Atom.readEscape flags rest
  | c :: rest => some (.literal c, rest)

def ofAtom? (flags : PatternFlags) : Atom → Option CharSet
  | .literal c => if flags.allows c then some (.single c) else none
  | .set set => some set
  | .look _ => none

def range? (flags : PatternFlags) : Atom → Atom → Option CharSet
  | .literal lo, .literal hi =>
      if lo ≤ hi ∧ flags.allows hi then some (.range lo hi) else none
  | _, _ => none

/-- A character, a range or an escaped class. A hyphen makes no range before a
closing bracket or another hyphen. -/
def readRange (flags : PatternFlags) (text : List Char) : Option (CharSet × List Char) := do
  let (first, rest) ← readAtom flags text
  match flags.skip rest with
  | [] => none
  | '-' :: more =>
      if flags.peek more == some ']' || flags.peek more == some '-' then
        return (← ofAtom? flags first, '-' :: more)
      else
        let (last, rest) ← readAtom flags (flags.skip more)
        return (← range? flags first last, rest)
  | rest => return (← ofAtom? flags first, rest)

/-- What stands at the beginning of a class: whether it is negated, and the
characters that stand for themselves there. -/
def readOpening (flags : PatternFlags) (text : List Char) :
    Option (Bool × List ClassPart × List Char) :=
  let (negated, text) :=
    match flags.skip text with
    | '^' :: rest => (true, flags.skip rest)
    | rest => (false, rest)
  match flags.span (· == '-') false text with
  | (_, []) => none
  | ([], ']' :: rest) => some (negated, [leaf (.single ']')], rest)
  | (hyphens, rest) => some (negated, hyphens.map fun c => leaf (.single c), rest)

/-- A class up to its closing bracket: `pending` is what stands before the last
operator, `parts` the list read after it, the last part first. The first
argument bounds the depth of the recursion. -/
def readBody (flags : PatternFlags) :
    Nat → Option (ClassOp × ClassPart) → List ClassPart → List Char →
      Option (ClassPart × List Char)
  | 0, _, _, _ => none
  | fuel + 1, pending, parts, text =>
      match flags.skip text with
      | [] => none
      | '[' :: rest =>
          match readNamed? rest with
          | some (negated, ranges, rest) => do
              let set ← flags.negateIf negated (flags.fold (.ofRanges ranges))
              readBody flags fuel pending (leaf set :: parts) rest
          | none => do
              let (negated, opening, rest) ← readOpening flags rest
              let (inner, rest) ← readBody flags fuel none opening rest
              readBody flags fuel pending ((← bracket flags negated inner) :: parts) rest
      | ']' :: rest => some (joinPending flags pending (union parts), rest)
      | '&' :: '&' :: rest =>
          readBody flags fuel (some (.inter, joinPending flags pending (union parts))) [] rest
      | '-' :: '-' :: rest =>
          readBody flags fuel (some (.diff, joinPending flags pending (union parts))) [] rest
      | '~' :: '~' :: rest =>
          readBody flags fuel (some (.symmDiff, joinPending flags pending (union parts))) [] rest
      | text => do
          let (set, rest) ← readRange flags text
          readBody flags fuel pending (leaf set :: parts) rest

def read (flags : PatternFlags) (text : List Char) : Option (ClassPart × List Char) := do
  let (negated, opening, rest) ← readOpening flags text
  let (inner, rest) ← readBody flags (rest.length + 1) none opening rest
  return (← bracket flags negated inner, rest)

end ClassPart
end EarleyChart
