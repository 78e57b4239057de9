import EarleyChart.Json.Basic
import EarleyChart.Text.Hex

/-!
Reading JSON texts. The reader takes any text of the grammar, with any depth of
nesting; what a value is good for is decided afterwards.
-/

namespace EarleyChart
namespace Json

def isSpace (c : Char) : Bool := c == ' ' || c == '\n' || c == '\t' || c == '\r'

def skipSpace (text : List Char) : List Char := text.dropWhile isSpace

def hexQuad? (a b c d : Char) : Option Nat := do
  return (((← hexValue? a) * 16 + (← hexValue? b)) * 16 + (← hexValue? c)) * 16 + (← hexValue? d)

def simpleEscape? : Char → Option Char
  | '"' => some '"'
  | '\\' => some '\\'
  | '/' => some '/'
  | 'b' => some '\x08'
  | 'f' => some '\x0c'
  | 'n' => some '\n'
  | 'r' => some '\r'
  | 't' => some '\t'
  | _ => none

/-- The code units of a string after its opening quote, and what follows the
closing one. -/
def readUnits : List Char → Option (List Nat × List Char)
  | [] => none
  | '"' :: rest => some ([], rest)
  | '\\' :: 'u' :: a :: b :: c :: d :: rest => do
      let unit ← hexQuad? a b c d
      let (units, rest) ← readUnits rest
      return (unit :: units, rest)
  | '\\' :: e :: rest => do
      let c ← simpleEscape? e
      let (units, rest) ← readUnits rest
      return (c.toNat :: units, rest)
  | c :: rest =>
      if c.toNat < 0x20 || c == '\\' then none
      else do
        let (units, rest) ← readUnits rest
        return (c.toNat :: units, rest)

/-- The characters of code units: a high surrogate must be followed by a low one
and a low surrogate must follow a high one. -/
def charsOfUnits : List Nat → Option (List Char)
  | [] => some []
  | [unit] => if 0xd800 ≤ unit ∧ unit < 0xe000 then none else some [Char.ofNat unit]
  | high :: low :: rest =>
      if 0xd800 ≤ high ∧ high < 0xdc00 then
        if 0xdc00 ≤ low ∧ low < 0xe000 then
          let code := 0x10000 + (high - 0xd800) * 0x400 + (low - 0xdc00)
          (charsOfUnits rest).map (Char.ofNat code :: ·)
        else none
      else if 0xdc00 ≤ high ∧ high < 0xe000 then none
      else (charsOfUnits (low :: rest)).map (Char.ofNat high :: ·)

/-- A string after its opening quote; none for its text where a surrogate is
alone. -/
def readString (text : List Char) : Option (Option String × List Char) := do
  let (units, rest) ← readUnits text
  return ((charsOfUnits units).map String.ofList, rest)

def takeDigits (text : List Char) : List Char × List Char := text.span Char.isDigit

def digitsValue (digits : List Char) : Nat :=
  digits.foldl (fun n d => n * 10 + (d.toNat - '0'.toNat)) 0

def readFraction (text : List Char) : Option (Option (List Char) × List Char) :=
  match text with
  | '.' :: rest =>
      let (digits, rest) := takeDigits rest
      if digits.isEmpty then none else some (some digits, rest)
  | _ => some (none, text)

def readSign : List Char → Bool × List Char
  | '-' :: rest => (true, rest)
  | '+' :: rest => (false, rest)
  | rest => (false, rest)

def readExponent (text : List Char) : Option (Option Int × List Char) :=
  match text with
  | [] => some (none, [])
  | e :: rest =>
      if e = 'e' ∨ e = 'E' then
        let (negative, rest) := readSign rest
        let (digits, rest) := takeDigits rest
        if digits.isEmpty then none
        else
          let n : Int := digitsValue digits
          some (some (if negative then -n else n), rest)
      else some (none, text)

/-- A number after its sign. A zero is not followed by a digit. -/
def readNumber (negative : Bool) (text : List Char) : Option (JsonNumber × List Char) := do
  let (whole, rest) := takeDigits text
  if whole.isEmpty || (whole.head? == some '0' && whole.length > 1) then none
  else
    let (fraction, rest) ← readFraction rest
    let (exponent, rest) ← readExponent rest
    let places := (fraction.getD []).length
    let digits := digitsValue (whole ++ fraction.getD [])
    return (⟨negative, digits, places, exponent.getD 0, fraction.isNone && exponent.isNone⟩, rest)

mutual

/-- A value, after white space. The first argument bounds the depth of the
recursion; two for each character are enough. -/
def readValue : Nat → List Char → Option (Json × List Char)
  | 0, _ => none
  | fuel + 1, text =>
      match skipSpace text with
      | 'n' :: 'u' :: 'l' :: 'l' :: rest => some (.null, rest)
      | 't' :: 'r' :: 'u' :: 'e' :: rest => some (.bool true, rest)
      | 'f' :: 'a' :: 'l' :: 's' :: 'e' :: rest => some (.bool false, rest)
      | '"' :: rest => do
          let (text, rest) ← readString rest
          return (text.elim .brokenString .string, rest)
      | '-' :: rest => do
          let (n, rest) ← readNumber true rest
          return (.number n, rest)
      | '[' :: rest =>
          match skipSpace rest with
          | ']' :: rest => some (.array [], rest)
          | rest => do
              let (items, rest) ← readItems fuel rest
              return (.array items, rest)
      | '\x7b' :: rest =>
          match skipSpace rest with
          | '\x7d' :: rest => some (.object [], rest)
          | rest => do
              let (members, rest) ← readMembers fuel rest
              return (.object members, rest)
      | rest => do
          let (n, rest) ← readNumber false rest
          return (.number n, rest)

def readItems : Nat → List Char → Option (List Json × List Char)
  | 0, _ => none
  | fuel + 1, text => do
      let (item, rest) ← readValue fuel text
      match skipSpace rest with
      | ',' :: rest =>
          let (items, rest) ← readItems fuel rest
          return (item :: items, rest)
      | ']' :: rest => return ([item], rest)
      | _ => none

def readMembers : Nat → List Char → Option (List (Option String × Json) × List Char)
  | 0, _ => none
  | fuel + 1, text =>
      match skipSpace text with
      | '"' :: rest => do
          let (name, rest) ← readString rest
          match skipSpace rest with
          | ':' :: rest =>
              let (value, rest) ← readValue fuel rest
              match skipSpace rest with
              | ',' :: rest =>
                  let (members, rest) ← readMembers fuel rest
                  return ((name, value) :: members, rest)
              | '\x7d' :: rest => return ([(name, value)], rest)
              | _ => none
          | _ => none
      | _ => none

end

def parse? (text : String) : Option Json :=
  match readValue (2 * text.length + 2) text.toList with
  | some (value, rest) => if (skipSpace rest).isEmpty then some value else none
  | none => none

end Json
end EarleyChart
