import EarleyChart.Text.Property

/-!
Word characters and decimal digits, as patterns know them, and letters and
numbers, as names know them.
-/

namespace EarleyChart

/-- Decimal digits of every script; those of ASCII are written out. -/
def digitCodes : CodeRanges := (0x30, 0x39) :: (Category.codes ["nd"]).beyondAscii

/-- Characters that may occur in a word: alphabetic ones, marks, decimal digits,
connecting punctuation and joiners. Those of ASCII are written out. -/
def wordCodes : CodeRanges :=
  [(0x30, 0x39), (0x41, 0x5a), (0x5f, 0x5f), (0x61, 0x7a)] ++
    (CodeRanges.unions [Property.alphabetic, Category.codes ["mn", "mc", "me", "nd", "pc"],
      Property.listed "joincontrol"]).beyondAscii

def isAsciiWordChar (c : Char) : Bool := c.isAlphanum || c == '_'

def isWordChar (c : Char) : Bool :=
  if c.toNat < 0x80 then isAsciiWordChar c else wordCodes.contains c.toNat

def alphabeticCodes : CodeRanges :=
  .unions [Property.alphabetic, Category.added.unionOf ["lu", "ll", "lm", "lo", "nl"],
    Category.addedAlphabeticMarks]

def numericCodes : CodeRanges := Category.latestCodes ["nd", "nl", "no"]

def isAlphabetic (c : Char) : Bool :=
  if c.toNat < 0x80 then c.isAlpha else alphabeticCodes.contains c.toNat

def isNumeric (c : Char) : Bool :=
  if c.toNat < 0x80 then c.isDigit else numericCodes.contains c.toNat

end EarleyChart
