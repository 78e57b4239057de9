import EarleyChart.Pattern.CharSet
import EarleyChart.Pattern.Look

/-!
Patterns in their plain form. A pattern prefers some of its matches to others:
an alternative to those after it, and a repetition more turns to fewer, or fewer
to more where it is lazy.

A plain pattern is written as simply as its parts allow. A row holds no rows, no
empty parts and no two texts side by side; alternatives that are single
characters or sets are one set, and what all alternatives begin with stands in
front of them; parts that match no character are not repeated more than once.
-/

namespace EarleyChart

/-- A pattern. A row or a choice of several parts is nested to the right. -/
inductive Pattern where
  | empty
  | literal (text : List Char)
  /-- A character of a set that was written with or without the flag for Unicode. -/
  | chars (set : CharSet) (unicode : Bool)
  | look (condition : Look)
  /-- A group that captures what it matches, with its number. -/
  | group (index : Nat) (body : Pattern)
  | seq (first second : Pattern)
  | alt (first second : Pattern)
  /-- At least `least` turns, and at most `most` if there is such a bound. -/
  | rep (least : Nat) (most : Option Nat) (greedy : Bool) (body : Pattern)
  deriving DecidableEq, Repr

namespace Pattern

def fail : Pattern := .chars .empty false

/-- The least number of characters of a match; none if some part never matches. -/
def minLength? : Pattern → Option Nat
  | .empty | .look _ => some 0
  | .literal text => some text.length
  | .chars set _ => if set.isEmpty then none else some 1
  | .group _ body => minLength? body
  | .seq first second =>
      match minLength? first, minLength? second with
      | some m, some n => some (m + n)
      | _, _ => none
  | .alt first second =>
      match minLength? first, minLength? second with
      | some m, some n => some (min m n)
      | _, _ => none
  | .rep least _ _ body => (minLength? body).map (least * ·)

/-- The greatest number of characters of a match; none if it is not bounded or
some part never matches. -/
def maxLength? : Pattern → Option Nat
  | .empty | .look _ => some 0
  | .literal text => some text.length
  | .chars set _ => if set.isEmpty then none else some 1
  | .group _ body => maxLength? body
  | .seq first second =>
      match maxLength? first, maxLength? second with
      | some m, some n => some (m + n)
      | _, _ => none
  | .alt first second =>
      match maxLength? first, maxLength? second with
      | some m, some n => some (max m n)
      | _, _ => none
  | .rep _ (some most) _ body => (maxLength? body).map (most * ·)
  | .rep _ none _ _ => none

def anchored : Pattern → Bool
  | .look l => l == .textStart
  | .empty | .literal _ | .chars _ _ => false
  | .group _ body => anchored body
  | .seq first second => anchored first || (maxLength? first == some 0 && anchored second)
  | .alt first second => anchored first && anchored second
  | .rep least _ _ body => 0 < least && anchored body

def anchoredAtEnd : Pattern → Bool
  | .look l => l == .textEnd
  | .empty | .literal _ | .chars _ _ => false
  | .group _ body => anchoredAtEnd body
  | .seq first second =>
      anchoredAtEnd second || (maxLength? second == some 0 && anchoredAtEnd first)
  | .alt first second => anchoredAtEnd first && anchoredAtEnd second
  | .rep least _ _ body => 0 < least && anchoredAtEnd body

def size : Pattern → Nat
  | .empty | .literal _ | .chars _ _ | .look _ => 1
  | .group _ body | .rep _ _ _ body => size body + 1
  | .seq first second | .alt first second => size first + size second + 1

def ofSet (unicode : Bool) (set : CharSet) : Pattern :=
  match set.char? with
  | some c => .literal [c]
  | none => if set.isEmpty then fail else .chars set unicode

def parts : Pattern → List Pattern
  | .empty => []
  | .seq first second => parts first ++ parts second
  | p => [p]

def consPart : Pattern → List Pattern → List Pattern
  | .literal text, .literal more :: rest => .literal (text ++ more) :: rest
  | p, rest => p :: rest

/-- A row of parts that are as plain as they can be. -/
def ofParts : List Pattern → Pattern
  | [] => .empty
  | [p] => p
  | p :: rest => .seq p (ofParts rest)

def row (patterns : List Pattern) : Pattern :=
  ofParts ((patterns.flatMap parts).foldr consPart [])

def branches : Pattern → List Pattern
  | .alt first second => branches first ++ branches second
  | p => [p]

/-- A choice between alternatives that are as plain as they can be. -/
def ofBranches : List Pattern → Pattern
  | [] => fail
  | [p] => p
  | p :: rest => .alt p (ofBranches rest)

def char? : Pattern → Option Char
  | .literal [c] => some c
  | _ => none

def set? : Pattern → Option CharSet
  | .chars set _ => some set
  | _ => none

def isRow : Pattern → Bool
  | .seq _ _ => true
  | _ => false

/-- The parts that two rows begin with. -/
def commonParts : List Pattern → List Pattern → List Pattern
  | p :: ps, q :: qs => if p = q then p :: commonParts ps qs else []
  | _, _ => []

def sharedParts : List Pattern → List Pattern
  | [] => []
  | first :: others =>
      if (first :: others).all isRow then
        others.foldl (fun shared p => commonParts shared (parts p)) (parts first)
      else []

/-- A choice between patterns. What they all begin with is taken out in front of
the choice between their ends; the first argument bounds how often. -/
def choiceWithin : Nat → List Pattern → Pattern
  | rounds, patterns =>
      let alternatives := patterns.flatMap branches
      if alternatives.length ≤ 1 then ofBranches alternatives
      else
        match alternatives.mapM char? with
        | some letters => ofSet true (.ofChars letters)
        | none =>
            match alternatives.mapM set? with
            | some sets => ofSet true (sets.foldl .union .empty)
            | none =>
                match rounds, sharedParts alternatives with
                | 0, _ | _, [] => ofBranches alternatives
                | rounds + 1, shared =>
                    let ends := alternatives.map fun p => row ((parts p).drop shared.length)
                    row (shared ++ [choiceWithin rounds ends])

/-- A choice between patterns. Each round of taking parts out leaves less of each
of them. -/
def choice (patterns : List Pattern) : Pattern :=
  choiceWithin ((patterns.map size).foldl (· + ·) 0) patterns

/-- A pattern repeated. One that matches no character has one turn at most. -/
def repeated (least : Nat) (most : Option Nat) (greedy : Bool) (body : Pattern) : Pattern :=
  let (least, most) :=
    if maxLength? body = some 0 then (min least 1, some (min (most.getD 1) 1)) else (least, most)
  if least = 0 ∧ most = some 0 then .empty
  else if least = 1 ∧ most = some 1 then body
  else .rep least most greedy body

end Pattern
end EarleyChart
