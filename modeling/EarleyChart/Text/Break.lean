import EarleyChart.Text.Property
import EarleyChart.Text.Script

/-!
The classes of characters by which a text is broken into what a reader takes for
one character, into words and into sentences. Most classes follow from the
category, the script and other properties; single characters are listed.
-/

namespace EarleyChart
namespace Break

/-- The carriage return and the line end, each a class of its own. -/
def singles : List (List String × CodeRanges) := [
  (["cr"], [(0xd, 0xd)]),
  (["lf"], [(0xa, 0xa)])]

def joiner : CodeRanges := [(0x200d, 0x200d)]

def unspaced : CodeRanges :=
  .unions (["thai", "lao", "mymr", "khmr", "tale", "talu", "lana", "tavt", "ahom"].filterMap
    Script.named?)

/-- Signs that span the digits behind them. -/
def numberSigns : CodeRanges :=
  (Property.listed "prependedconcatenationmark").diff [(0x70f, 0x70f)]

def extending : CodeRanges := Property.graphemeExtend.union (Category.codes ["mc"])

namespace Grapheme

def prepended : CodeRanges :=
  (Property.listed "prependedconcatenationmark").union [
    (0xd4e, 0xd4e), (0x111c2, 0x111c3), (0x113d1, 0x113d1), (0x1193f, 0x1193f),
    (0x11941, 0x11941), (0x11a3a, 0x11a3a), (0x11a84, 0x11a89), (0x11d46, 0x11d46),
    (0x11f02, 0x11f02)]

def spacingMarks : CodeRanges :=
  ((Category.codes ["mc"]).diff (Property.graphemeExtend.union [
    (0x102b, 0x102c), (0x1038, 0x1038), (0x1062, 0x1064), (0x1067, 0x106d), (0x1083, 0x1083),
    (0x1087, 0x108c), (0x108f, 0x108f), (0x109a, 0x109c), (0x1a61, 0x1a61), (0x1a63, 0x1a64),
    (0xaa7b, 0xaa7b), (0xaa7d, 0xaa7d), (0x11720, 0x11721)])).union
    [(0xe33, 0xe33), (0xeb3, 0xeb3)]

def controls : CodeRanges :=
  (CodeRanges.unions [Category.codes ["cc", "cf", "zl", "zp"],
    Property.defaultIgnorable.inter Category.unassigned]).diff
    (.unions [Property.graphemeExtend, Property.listed "prependedconcatenationmark", joiner,
      [(0xa, 0xa), (0xd, 0xd)]])

/-- Syllables without a final consonant: every twenty-eighth one. -/
def openSyllables : CodeRanges := (List.range' 0xac00 399 28).map fun n => (n, n)

def classes : List (List String × CodeRanges) := singles ++ [
  (["control", "cn"], controls),
  (["extend", "ex"], Property.graphemeExtend.union (Property.listed "emojimodifier")),
  (["l"], [(0x1100, 0x115f), (0xa960, 0xa97c)]),
  (["lv"], openSyllables),
  (["lvt"], CodeRanges.diff [(0xac00, 0xd7a3)] openSyllables),
  (["prepend", "pp"], prepended),
  (["regionalindicator", "ri"], Property.listed "regionalindicator"),
  (["spacingmark", "sm"], spacingMarks),
  (["t"], [(0x11a8, 0x11ff), (0xd7cb, 0xd7fb)]),
  (["v"], [(0x1160, 0x11a7), (0xd7b0, 0xd7c6), (0x16d63, 0x16d63), (0x16d67, 0x16d6a)]),
  (["zwj"], joiner)]

end Grapheme

namespace Word

def katakana : CodeRanges :=
  ((Script.named? "kana").getD []).union [
    (0x3031, 0x3035), (0x309b, 0x309c), (0x30a0, 0x30a0), (0x30fc, 0x30fc), (0xff70, 0xff70)]

def hebrewLetters : CodeRanges :=
  ((Script.named? "hebr").getD []).inter (Category.codes ["lo"])

def extenders : CodeRanges := extending.union (Property.listed "emojimodifier")

def letterLike : CodeRanges := [
  (0xb8, 0xb8), (0x2c2, 0x2c5), (0x2d2, 0x2d7), (0x2de, 0x2df), (0x2e5, 0x2eb), (0x2ed, 0x2ed),
  (0x2ef, 0x2ff), (0x55a, 0x55c), (0x55e, 0x55e), (0x58a, 0x58a), (0x5f3, 0x5f3), (0x70f, 0x70f),
  (0xa708, 0xa716), (0xa720, 0xa721), (0xa789, 0xa78a), (0xab5b, 0xab5b)]

def letters : CodeRanges :=
  (Property.alphabetic.union letterLike).diff
    (.unions [Property.listed "ideographic", (Script.named? "hira").getD [], katakana,
      hebrewLetters, extenders, unspaced])

def classes : List (List String × CodeRanges) := singles ++ [
  (["aletter", "le"], letters),
  (["doublequote", "dq"], [(0x22, 0x22)]),
  (["extend"], extenders),
  (["extendnumlet", "ex"], (Category.codes ["pc"]).union [(0x202f, 0x202f)]),
  (["format", "fo"], (Category.codes ["cf"]).diff
    (.unions [Property.graphemeExtend, Property.listed "prependedconcatenationmark", joiner,
      [(0x200b, 0x200b)]])),
  (["hebrewletter", "hl"], hebrewLetters),
  (["katakana", "ka"], katakana),
  (["midletter", "ml"], [
    (0x3a, 0x3a), (0xb7, 0xb7), (0x387, 0x387), (0x55f, 0x55f), (0x5f4, 0x5f4), (0x2027, 0x2027),
    (0xfe13, 0xfe13), (0xfe55, 0xfe55), (0xff1a, 0xff1a)]),
  (["midnum", "mn"], [
    (0x2c, 0x2c), (0x3b, 0x3b), (0x37e, 0x37e), (0x589, 0x589), (0x60c, 0x60d), (0x66c, 0x66c),
    (0x7f8, 0x7f8), (0x2044, 0x2044), (0xfe10, 0xfe10), (0xfe14, 0xfe14), (0xfe50, 0xfe50),
    (0xfe54, 0xfe54), (0xff0c, 0xff0c), (0xff1b, 0xff1b)]),
  (["midnumlet", "mb"], [
    (0x2e, 0x2e), (0x2018, 0x2019), (0x2024, 0x2024), (0xfe52, 0xfe52), (0xff07, 0xff07),
    (0xff0e, 0xff0e)]),
  (["newline", "nl"], [(0xb, 0xc), (0x85, 0x85), (0x2028, 0x2029)]),
  (["numeric", "nu"], .unions [Category.codes ["nd"], [(0x66b, 0x66b)], numberSigns]),
  (["regionalindicator", "ri"], Property.listed "regionalindicator"),
  (["singlequote", "sq"], [(0x27, 0x27)]),
  (["wsegspace"], (Category.codes ["zs"]).diff
    [(0xa0, 0xa0), (0x2007, 0x2007), (0x202f, 0x202f)]),
  (["zwj"], joiner)]

end Word

namespace Sentence

def separators : CodeRanges := [(0x85, 0x85), (0x2028, 0x2029)]

def extenders : CodeRanges := extending.union joiner

def stops : CodeRanges := [(0x2e, 0x2e), (0x2024, 0x2024), (0xfe52, 0xfe52), (0xff0e, 0xff0e)]

def lowercase : CodeRanges :=
  Property.lowercase.diff (Property.graphemeExtend.union [(0x10d0, 0x10fa), (0x10fd, 0x10ff)])

def uppercase : CodeRanges :=
  (Property.uppercase.union (Category.codes ["lt"])).diff [(0x1c90, 0x1cba), (0x1cbd, 0x1cbf)]

def numerals : CodeRanges := .unions [Category.codes ["nd"], [(0x66b, 0x66c)], numberSigns]

def classes : List (List String × CodeRanges) := singles ++ [
  (["aterm", "at"], stops),
  (["close", "cl"], (Category.codes ["ps", "pe", "pi", "pf"]).union [
    (0x22, 0x22), (0x27, 0x27), (0x275b, 0x2760), (0x2e00, 0x2e01), (0x2e06, 0x2e08),
    (0x2e0b, 0x2e0b), (0x1f676, 0x1f678)]),
  (["extend", "ex"], extenders),
  (["format", "fo"], (Category.codes ["cf"]).diff
    (.unions [Property.graphemeExtend, numberSigns, joiner])),
  (["lower", "lo"], lowercase),
  (["numeric", "nu"], numerals),
  (["oletter", "le"], (Property.alphabetic.union [(0x5f3, 0x5f3)]).diff
    (.unions [lowercase, uppercase, extenders])),
  (["scontinue", "sc"], [
    (0x2c, 0x2d), (0x3a, 0x3b), (0x37e, 0x37e), (0x55d, 0x55d), (0x60c, 0x60d), (0x7f8, 0x7f8),
    (0x1802, 0x1802), (0x1808, 0x1808), (0x2013, 0x2014), (0x3001, 0x3001), (0xfe10, 0xfe11),
    (0xfe13, 0xfe14), (0xfe31, 0xfe32), (0xfe50, 0xfe51), (0xfe54, 0xfe55), (0xfe58, 0xfe58),
    (0xfe63, 0xfe63), (0xff0c, 0xff0d), (0xff1a, 0xff1b), (0xff64, 0xff64)]),
  (["sep", "se"], separators),
  (["sp"], blankRanges.diff (separators.union [(0xa, 0xa), (0xd, 0xd)])),
  (["sterm", "st"], (Property.listed "sentenceterminal").diff stops),
  (["upper", "up"], uppercase)]

end Sentence

def named? (classes : List (List String × CodeRanges)) (name : String) : Option CodeRanges :=
  (classes.find? (·.1.contains name)).map (·.2)

end Break
end EarleyChart
