/-!
JSON values, and their texts without any spaces. A value keeps what its text
says about a number, so that a reader can tell `1` from `1.0`, and it keeps the
members of an object in order, also those of one name.
-/

namespace EarleyChart

/-- A number as it is written: its digits without the point, how many of them
stand behind the point, and the exponent. A plain number has neither point nor
exponent. -/
structure JsonNumber where
  negative : Bool
  digits : Nat
  places : Nat
  exponent : Int
  plain : Bool
  deriving DecidableEq, Repr

namespace JsonNumber

/-- The whole number that is written, unless there is a point or an exponent.
The negative zero is no whole number. -/
def int? (n : JsonNumber) : Option Int :=
  if n.plain then
    if n.negative then if n.digits = 0 then none else some (-n.digits)
    else some n.digits
  else none

def ofInt (n : Int) : JsonNumber := ⟨n < 0, n.natAbs, 0, 0, true⟩

/-- The whole number of 53 binary places that is nearest to a number; of two
that are equally near the even one. -/
def nearestDouble (n : Nat) : Nat :=
  let unit := Nat.pow 2 (n.log2 + 1 - 53)
  let quotient := n / unit
  let twice := 2 * (n % unit)
  if twice > unit || (twice == unit && quotient % 2 == 1) then (quotient + 1) * unit
  else quotient * unit

/-- Takes digits as long as the number stays below `2 ^ 64`: the number, and how
many digits were taken. -/
def takeDigits (value taken : Nat) : List Nat → Nat × Nat
  | [] => (value, taken)
  | digit :: rest =>
      if value * 10 + digit < UInt64.size then takeDigits (value * 10 + digit) (taken + 1) rest
      else (value, taken)

/-- The decimal digits of a number, with zeros in front up to a least number of
digits. -/
def digitsOf (least n : Nat) : List Nat :=
  let digits := (Nat.toDigits 10 n).map fun c => c.toNat - '0'.toNat
  List.replicate (least - digits.length) 0 ++ digits

/-- The leading digits that make a number below `2 ^ 64`, and the power of ten
that they are to be multiplied by. Digits left over before the point count for
the power; those behind the point are dropped. -/
def leading (n : JsonNumber) : Nat × Int :=
  let whole := digitsOf 1 (n.digits / Nat.pow 10 n.places)
  let (value, taken) := takeDigits 0 0 whole
  let (value, behind) :=
    if n.places = 0 then (value, 0)
    else takeDigits value 0 (digitsOf n.places (n.digits % Nat.pow 10 n.places))
  (value, n.exponent + (whole.length - taken : Nat) - behind)

/-- Whether the number is read as one beyond the doubles. Its leading digits and
the power of ten are doubles each; their product must round to a double, hence
stay below `2 ^ 1024 - 2 ^ 970`. -/
def isHuge (n : JsonNumber) : Bool :=
  let (value, power) := n.leading
  if value = 0 || power < 0 then false
  else if power > 308 then true
  else
    Nat.pow 2 1024 - Nat.pow 2 970 ≤ nearestDouble value * nearestDouble (Nat.pow 10 power.toNat)

def render (n : JsonNumber) : String :=
  (if n.negative then "-" else "") ++ toString n.digits ++
    if n.plain then "" else s!"e{n.exponent - n.places}"

end JsonNumber

/-- A JSON value. A string or a name that holds half a character by an escape
stands for no text; its place is kept. -/
inductive Json where
  | null
  | bool (b : Bool)
  | number (n : JsonNumber)
  | string (text : String)
  | brokenString
  | array (items : List Json)
  | object (members : List (Option String × Json))
  deriving Repr

namespace Json

def int (n : Int) : Json := .number (.ofInt n)

def nat (n : Nat) : Json := int n

def ofMembers (members : List (String × Json)) : Json :=
  .object (members.map fun (name, value) => (some name, value))

def hexDigit (n : Nat) : Char := (Nat.toDigits 16 n).headD '0'

def escape (c : Char) : List Char :=
  if c = '"' then ['\\', '"']
  else if c = '\\' then ['\\', '\\']
  else if c = '\x08' then ['\\', 'b']
  else if c = '\x0c' then ['\\', 'f']
  else if c = '\n' then ['\\', 'n']
  else if c = '\r' then ['\\', 'r']
  else if c = '\t' then ['\\', 't']
  else if c.toNat < 0x20 then
    ['\\', 'u', '0', '0', hexDigit (c.toNat / 16), hexDigit (c.toNat % 16)]
  else [c]

def quote (text : String) : String :=
  String.ofList ('"' :: text.toList.flatMap escape ++ ['"'])

mutual

def render : Json → String
  | .null => "null"
  | .bool b => if b then "true" else "false"
  | .number n => n.render
  | .string text => quote text
  | .brokenString => quote ""
  | .array items => "[" ++ renderItems items ++ "]"
  | .object members => "\x7b" ++ renderMembers members ++ "\x7d"

def renderItems : List Json → String
  | [] => ""
  | [item] => render item
  | item :: rest => render item ++ "," ++ renderItems rest

def renderMembers : List (Option String × Json) → String
  | [] => ""
  | [(name, value)] => quote (name.getD "") ++ ":" ++ render value
  | (name, value) :: rest =>
      quote (name.getD "") ++ ":" ++ render value ++ "," ++ renderMembers rest

end

end Json
end EarleyChart
