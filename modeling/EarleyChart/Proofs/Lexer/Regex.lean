import EarleyChart.Lexer.Basic
import EarleyChart.Proofs.Lexer.ClassSyntax

/-!
Regular expressions as they are documented: how they are written, and which stretches of a
text they span. A dialect compiles what can be read as one of them, and finds only what it
spans. Nothing is said about which of several matches is found.
-/

namespace EarleyChart

structure RegexFlags where
  ignoreCase : Bool
  multiLine : Bool
  spacious : Bool
  deriving DecidableEq, Repr

namespace RegexFlags

def standard : RegexFlags := ⟨false, false, false⟩

/-- Sets flags by their letters, and clears those behind a minus sign. -/
def apply (flags : RegexFlags) (value : Bool) : List Char → RegexFlags
  | [] => flags
  | '-' :: letters => flags.apply false letters
  | 'i' :: letters => { flags with ignoreCase := value }.apply value letters
  | 'm' :: letters => { flags with multiLine := value }.apply value letters
  | 'x' :: letters => { flags with spacious := value }.apply value letters
  | _ :: letters => flags.apply value letters

end RegexFlags

/-- How a group begins: it captures what it matches, with or without a name, or it sets
flags for what it holds. There may be space in front of the question mark. -/
inductive RegexOpening where
  | capture
  | named (space sign name : List Char)
  | flagged (space letters : List Char)

namespace RegexOpening

def text : RegexOpening → List Char
  | capture => ['(']
  | named space sign name => '(' :: space ++ '?' :: sign ++ '<' :: name ++ ['>']
  | flagged space letters => '(' :: space ++ '?' :: letters ++ [':']

def flags (now : RegexFlags) : RegexOpening → RegexFlags
  | flagged _ letters => now.apply true letters
  | _ => now

end RegexOpening

inductive RegexLevel where
  | choice
  | row
  | part

/-- A regular expression: alternatives, the parts of one of them, or a part. A part stands for
one character or for a place, is a gap between others, sets flags, or is a group or a
repetition. -/
inductive Regex : RegexLevel → Type where
  | one (row : Regex .row) : Regex .choice
  | bar (row : Regex .row) (rest : Regex .choice) : Regex .choice
  | nil : Regex .row
  | cons (part : Regex .part) (rest : Regex .row) : Regex .row
  | char (text : List Char) (chars : Set Char) : Regex .part
  | place (text : List Char) (holds : List Char → Nat → Prop) : Regex .part
  | gap (text : List Char) : Regex .part
  | flags (space letters : List Char) : Regex .part
  | group (opening : RegexOpening) (body : Regex .choice) : Regex .part
  | repeated (body : Regex .part) (space sign : List Char) (least : Nat) (most : Option Nat) :
      Regex .part

namespace Regex

variable {level : RegexLevel}

def text {level : RegexLevel} : Regex level → List Char
  | one row => row.text
  | bar row rest => row.text ++ '|' :: rest.text
  | nil => []
  | cons part rest => part.text ++ rest.text
  | char text _ => text
  | place text _ => text
  | gap text => text
  | flags space letters => '(' :: space ++ '?' :: letters ++ [')']
  | group opening body => opening.text ++ body.text ++ [')']
  | repeated body space sign _ _ => body.text ++ space ++ sign

/-- The flags behind an expression. Flags that are set on their own hold up to the end of the
group around them. -/
def after {level : RegexLevel} (now : RegexFlags) : Regex level → RegexFlags
  | one row => row.after now
  | bar row rest => rest.after (row.after now)
  | nil => now
  | cons part rest => rest.after (part.after now)
  | flags _ letters => now.apply true letters
  | _ => now

/-- Whether a step can be repeated from one place to another. -/
def Iterates (step : Nat → Nat → Prop) : Nat → Nat → Nat → Prop
  | 0, i, j => i = j
  | n + 1, i, j => ∃ k, step i k ∧ Iterates step n k j

def Spans {level : RegexLevel} (input : List Char) : Regex level → Nat → Nat → Prop
  | one row, i, j => row.Spans input i j
  | bar row rest, i, j => row.Spans input i j ∨ rest.Spans input i j
  | nil, i, j => i = j
  | cons part rest, i, j => ∃ k, part.Spans input i k ∧ rest.Spans input k j
  | char _ chars, i, j => j = i + 1 ∧ ∃ c ∈ chars, input[i]? = some c
  | place _ holds, i, j => j = i ∧ holds input i
  | gap _, i, j => j = i
  | flags _ _, i, j => j = i
  | group _ body, i, j => body.Spans input i j
  | repeated body _ _ least most, i, j => ∃ n, least ≤ n ∧ (∀ m ∈ most, n ≤ m) ∧
      Iterates (fun i j => body.Spans input i j) n i j

end Regex

/-- Only letters have cases. -/
def HasCase (c : Char) : Prop := c.isAlpha = true ∨ 0x80 ≤ c.toNat

def isGap (c : Char) : Bool := isBlank c || c == '#'

/-- How one character of a text is written: by itself, as any character, by an escape or by
a class. Where case is ignored, a letter or a class may stand for other characters. -/
inductive CharReads (now : RegexFlags) : List Char → Set Char → Prop
  | any {chars : Set Char} : CharReads now ['.'] chars
  | literal {c : Char} {chars : Set Char}
      (hc : c ∉ ['\\', '.', '+', '*', '?', '(', ')', '|', '[', '\x7b', '^', '$'])
      (h : ∀ x ∈ chars, x = c ∨ now.ignoreCase = true ∧ HasCase c) : CharReads now [c] chars
  | escape {text : List Char} {chars : Set Char} (h : EscapeReads text chars []) :
      CharReads now ('\\' :: text) chars
  | bracket {text : List Char} {chars : Set Char}
      (h : now.ignoreCase = false → (now.spacious = true → ∀ c ∈ text, isGap c = false) →
        ∀ tail, ClassReads (text ++ tail) chars tail) : CharReads now ('[' :: text) chars

/-- How a place of a text is written: the beginning or the end of the text or of a line, or
an edge of a word. -/
inductive PlaceReads (now : RegexFlags) : List Char → (List Char → Nat → Prop) → Prop
  | start {holds : List Char → Nat → Prop}
      (h : now.multiLine = false → ∀ input i, holds input i → i = 0) : PlaceReads now ['^'] holds
  | finish {holds : List Char → Nat → Prop} : PlaceReads now ['$'] holds
  | escape {c : Char} {text : List Char} {holds : List Char → Nat → Prop}
      (hc : c ∈ ['A', 'z', 'b', 'B', '<', '>']) : PlaceReads now ('\\' :: c :: text) holds

inductive SignReads : List Char → Nat → Option Nat → Prop
  | question {lazy : List Char} (h : lazy = [] ∨ lazy = ['?']) : SignReads ('?' :: lazy) 0 (some 1)
  | star {lazy : List Char} (h : lazy = [] ∨ lazy = ['?']) : SignReads ('*' :: lazy) 0 none
  | plus {lazy : List Char} (h : lazy = [] ∨ lazy = ['?']) : SignReads ('+' :: lazy) 1 none
  | count {text : List Char} {least : Nat} {most : Option Nat} :
      SignReads ('\x7b' :: text) least most

/-- Whether an expression is written with the text that it has, under flags. -/
def Regex.Written {level : RegexLevel} (now : RegexFlags) : Regex level → Prop
  | one row => row.Written now
  | bar row rest => row.Written now ∧ rest.Written (row.after now)
  | nil => True
  | cons part rest => part.Written now ∧ rest.Written (part.after now)
  | char text chars => CharReads now text chars
  | place text holds => PlaceReads now text holds
  | gap text => now.spacious = true ∧ text.head?.any isGap = true
  | flags _ letters => ∀ c ∈ letters, c ∈ "imsUuxR-".toList
  | group opening body => body.Written (opening.flags now)
  | repeated body space sign least most =>
      body.Written now ∧ (space ≠ [] → now.spacious = true) ∧ SignReads sign least most

/-- A dialect compiles what it can read as a regular expression, and where it finds a match,
the expression spans the text up to its end. -/
structure Dialect.Documented (dialect : Dialect) (read : List Char → Option (Regex .choice)) :
    Prop where
  written : ∀ text r, read text = some r → r.text = text ∧ r.Written .standard
  compiled : ∀ text matcher, dialect.compile text = .ok matcher →
    ∃ r, read text = some r ∧
      ∀ input n, matcher.matchEnd input = some n → ∃ i ≤ n, r.Spans input i n

end EarleyChart
