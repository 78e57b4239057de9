import EarleyChart.Pattern.CharSet

/-!
The flags under which a pattern is read. With the flag for spacious patterns,
white space and comments between the parts of a pattern are passed over. Without
the flag for Unicode, classes, words and case are those of ASCII, and no set is
allowed that has other characters.
-/

namespace EarleyChart

structure PatternFlags where
  ignoreCase : Bool
  multiLine : Bool
  dotAll : Bool
  swapGreed : Bool
  spacious : Bool
  crlf : Bool
  unicode : Bool
  deriving DecidableEq, Repr

namespace PatternFlags

def standard : PatternFlags := ⟨false, false, false, false, false, false, true⟩

instance : Inhabited PatternFlags := ⟨standard⟩

def set? (flags : PatternFlags) (letter : Char) (value : Bool) : Option PatternFlags :=
  match letter with
  | 'i' => some { flags with ignoreCase := value }
  | 'm' => some { flags with multiLine := value }
  | 's' => some { flags with dotAll := value }
  | 'U' => some { flags with swapGreed := value }
  | 'x' => some { flags with spacious := value }
  | 'R' => some { flags with crlf := value }
  | 'u' => some { flags with unicode := value }
  | _ => none

def fold (flags : PatternFlags) (set : CharSet) : CharSet :=
  if flags.ignoreCase then if flags.unicode then set.anyCase else set.anyAsciiCase else set

/-- The set, or its complement, which without Unicode is not allowed. -/
def negateIf (flags : PatternFlags) (negated : Bool) (set : CharSet) : Option CharSet :=
  if negated then if flags.unicode then some set.compl else none else some set

def allows (flags : PatternFlags) (c : Char) : Bool := flags.unicode || c.toNat < 0x80

def skipBlanks (inComment : Bool) : List Char → List Char
  | [] => []
  | c :: rest =>
      if inComment then skipBlanks (c != '\n') rest
      else if isBlank c then skipBlanks false rest
      else if c = '#' then skipBlanks true rest
      else c :: rest

/-- Passes over what a spacious pattern may hold between its parts. -/
def skip (flags : PatternFlags) (text : List Char) : List Char :=
  if flags.spacious then skipBlanks false text else text

def span (flags : PatternFlags) (ok : Char → Bool) (inComment : Bool) :
    List Char → List Char × List Char
  | [] => ([], [])
  | c :: rest =>
      if inComment then span flags ok (c != '\n') rest
      else if ok c then
        let (taken, rest) := span flags ok false rest
        (c :: taken, rest)
      else if flags.spacious && isBlank c then span flags ok false rest
      else if flags.spacious && c == '#' then span flags ok true rest
      else ([], c :: rest)

/-- The character that comes next, after white space in a spacious pattern. The
sign of a comment is passed over there too, but not the comment. -/
def peek (flags : PatternFlags) (text : List Char) : Option Char :=
  if flags.spacious then
    match text.dropWhile isBlank with
    | '#' :: rest => (rest.dropWhile isBlank).head?
    | rest => rest.head?
  else text.head?

end PatternFlags
end EarleyChart
