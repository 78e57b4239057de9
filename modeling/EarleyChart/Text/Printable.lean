import EarleyChart.Text.Property

/-!
Characters that a quoted text shows by their code point: those without a shape
of their own (controls, format characters, separators other than the space,
private and unassigned code points, fillers of syllables) and those that extend
the character before them. The voicing marks of half width extend a character
too, but are shown.
-/

namespace EarleyChart

def shapelessCodes : CodeRanges :=
  (Category.unassigned.diff (.unions (Category.added.map (·.codes)))).union
    (.unions [Category.codes ["cc", "cf", "cs", "co", "zs", "zl", "zp"],
      [(0x115f, 0x1160), (0x3164, 0x3164), (0xffa0, 0xffa0)]])

def extendingCodes : CodeRanges :=
  .diff (Property.graphemeExtend.union (Category.added.unionOf ["mn", "me"]))
    [(0xff9e, 0xff9f)]

/-- Whether a character can be shown as itself between quotes. The characters of
ASCII are shown but for the controls. -/
def isPrintable (c : Char) : Bool :=
  if c.toNat < 0x7f then 0x20 ≤ c.toNat
  else !shapelessCodes.contains c.toNat && !extendingCodes.contains c.toNat

end EarleyChart
