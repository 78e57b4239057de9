import EarleyChart.Text.Offset

/-!
Which bytes a match of a pattern can begin with, as far as a look at the text
of the pattern tells. The look is at the first character or class of each
alternative; where that is not plain enough, any byte is possible.
-/

namespace EarleyChart

/-- The bytes that a match can begin with. -/
inductive FirstBytes where
  | any
  | among (bytes : List UInt8)
  deriving DecidableEq, Repr

namespace FirstBytes

def allows : FirstBytes → UInt8 → Bool
  | .any, _ => true
  | .among bytes, b => bytes.contains b

def union : FirstBytes → FirstBytes → FirstBytes
  | .among a, .among b => .among (a ++ b)
  | _, _ => .any

def bytesOf (text : List Char) : List UInt8 := text.flatMap String.utf8EncodeChar

def byte (c : Char) : UInt8 := c.toNat.toUInt8

def span (lo hi : UInt8) : List UInt8 :=
  (List.range' lo.toNat (hi.toNat + 1 - lo.toNat)).map Nat.toUInt8

/-- The bytes that begin or continue a character beyond ASCII. -/
def beyondAscii : List UInt8 := span 0x80 0xff

def isAscii (kind : Char → Bool) (b : UInt8) : Bool := b < 0x80 && kind (Char.ofNat b.toNat)

def isPunctuation (c : Char) : Bool :=
  ('!' ≤ c && c ≤ '/') || (':' ≤ c && c ≤ '@') || ('[' ≤ c && c ≤ '\x60') ||
    ('\x7b' ≤ c && c ≤ '~')

/-- What the escape of a letter or of punctuation can begin with. A class of
characters of every script can begin with any byte beyond ASCII. -/
def ofEscape? (b : UInt8) : Option (List UInt8) :=
  if b = byte 'd' then some (span (byte '0') (byte '9') ++ beyondAscii)
  else if b = byte 'w' then
    some (span (byte 'a') (byte 'z') ++ span (byte 'A') (byte 'Z') ++ span (byte '0') (byte '9') ++
      [byte '_'] ++ beyondAscii)
  else if b = byte 's' then some ((" \t\n\r\x0b\x0c".toList.map byte) ++ beyondAscii)
  else if b = byte 'n' then some [byte '\n']
  else if b = byte 'r' then some [byte '\r']
  else if b = byte 't' then some [byte '\t']
  else if isAscii isPunctuation b then some [b]
  else none

/-- The members of a class after its opening bracket, and the number of bytes up
to and with the closing one. Only ASCII members without nested brackets are
understood; `first` tells that no member was read yet. -/
def ofMembers? (first : Bool) : List UInt8 → Option (List UInt8 × Nat)
  | [] => none
  | b :: rest =>
      if b = byte ']' ∧ first = false then some ([], 1)
      else if b ≥ 0x80 ∨ b = byte '[' then none
      else if b = byte '\\' then
        match rest with
        | [] => none
        | e :: rest => do
            let bytes ← ofEscape? e
            let (set, length) ← ofMembers? false rest
            return (bytes ++ set, length + 2)
      else
        match rest with
        | dash :: hi :: more =>
            if dash = byte '-' ∧ hi ≠ byte ']' then
              if hi ≥ 0x80 ∨ hi < b then none
              else do
                let (set, length) ← ofMembers? false more
                return (span b hi ++ set, length + 3)
            else do
              let (set, length) ← ofMembers? false (dash :: hi :: more)
              return (b :: set, length + 1)
        | rest => do
            let (set, length) ← ofMembers? false rest
            return (b :: set, length + 1)

/-- What a class can begin with, and its length in bytes. A negated class is not
understood. -/
def ofClass? : List UInt8 → Option (List UInt8 × Nat)
  | bracket :: rest =>
      if bracket ≠ byte '[' ∨ rest.head? = some (byte '^') then none
      else do
        let (set, length) ← ofMembers? true rest
        return (set, length + 1)
  | [] => none

/-- Cuts a pattern at the bars that stand in no group, in no class and after no
backslash. `depth` counts the open groups, `current` is the alternative read so
far, in reverse. -/
def splitFrom (depth : Nat) (inClass : Bool) (current : List UInt8) :
    List UInt8 → List (List UInt8)
  | [] => [current.reverse]
  | b :: rest =>
      if b = byte '\\' then
        match rest with
        | [] => [(b :: current).reverse]
        | e :: rest => splitFrom depth inClass (e :: b :: current) rest
      else if b = byte '[' ∧ inClass = false then splitFrom depth true (b :: current) rest
      else if b = byte ']' ∧ inClass = true then splitFrom depth false (b :: current) rest
      else if b = byte '(' ∧ inClass = false then
        splitFrom (depth + 1) inClass (b :: current) rest
      else if b = byte ')' ∧ inClass = false then
        splitFrom (depth - 1) inClass (b :: current) rest
      else if b = byte '|' ∧ inClass = false ∧ depth = 0 then
        current.reverse :: splitFrom depth inClass [] rest
      else splitFrom depth inClass (b :: current) rest

def alternatives (pattern : List UInt8) : List (List UInt8) := splitFrom 0 false [] pattern

/-- Whether a byte stands for itself at the beginning of a pattern. -/
def isPlain (b : UInt8) : Bool :=
  isAscii Char.isAlphanum b || (" _-,;:=<>!@#%&'\"/~\x60".toList.map byte).contains b

/-- The first character or class of an alternative, with its length in bytes. -/
def ofFirst? : List UInt8 → Option (List UInt8 × Nat)
  | [] => none
  | b :: rest =>
      if b = byte '\\' then do
        let set ← ofEscape? (← rest.head?)
        return (set, 2)
      else if b = byte '[' then ofClass? (b :: rest)
      else if isPlain b then some ([b], 1)
      else none

/-- What a match of an alternative can begin with. A repetition that may have no
turn lets what follows begin the match. -/
def ofAlternative (pattern : List UInt8) : FirstBytes :=
  match ofFirst? pattern with
  | none => .any
  | some (set, length) =>
      match pattern[length]? with
      | some b =>
          if b = byte '?' ∨ b = byte '*' ∨ b = byte '\x7b' then .any else .among set
      | none => .among set

def ofPattern (pattern : List UInt8) : FirstBytes :=
  match (alternatives pattern).map ofAlternative with
  | [] => .any
  | first :: others => others.foldl union first

end FirstBytes
end EarleyChart
