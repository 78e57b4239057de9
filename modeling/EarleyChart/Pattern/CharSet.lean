import EarleyChart.Text.Blank
import EarleyChart.Text.CaseFold
import EarleyChart.Text.Hex
import EarleyChart.Text.Word

/-!
Sets of characters as patterns write them, and their closure under case. Where a
pattern is not over Unicode, digits, words, white space and case are those of
ASCII.
-/

namespace EarleyChart

structure CharSet where
  ranges : CodeRanges
  deriving DecidableEq, Repr

namespace CharSet

def contains (set : CharSet) (c : Char) : Bool := set.ranges.contains c.toNat

def empty : CharSet := ⟨[]⟩

def range (lo hi : Char) : CharSet := ⟨[(lo.toNat, hi.toNat)]⟩

def single (c : Char) : CharSet := range c c

def union (a b : CharSet) : CharSet := ⟨a.ranges.union b.ranges⟩

def inter (a b : CharSet) : CharSet := ⟨a.ranges.inter b.ranges⟩

def diff (a b : CharSet) : CharSet := ⟨a.ranges.diff b.ranges⟩

def symmDiff (a b : CharSet) : CharSet := ⟨a.ranges.symmDiff b.ranges⟩

def compl (a : CharSet) : CharSet := ⟨a.ranges.compl⟩

def ofRanges (ranges : List (Char × Char)) : CharSet :=
  ranges.foldl (fun set (lo, hi) => set.union (range lo hi)) empty

def ofChars (chars : List Char) : CharSet :=
  chars.foldl (fun set c => set.union (single c)) empty

def isEmpty (set : CharSet) : Bool := set.ranges.isEmpty

def isAscii (set : CharSet) : Bool := set.ranges.all fun (_, hi) => hi < 0x80

def char? (set : CharSet) : Option Char :=
  match set.ranges with
  | [(lo, hi)] => if lo = hi then charOfCode? lo else none
  | _ => none

/-- Adds the classes that have a member in the set. -/
def close (classes : List (List Nat)) (set : CharSet) : CharSet :=
  ⟨classes.foldl (fun ranges codes =>
    if codes.any set.ranges.contains then codes.foldl (fun ranges n => ranges.insert n n) ranges
    else ranges) set.ranges⟩

/-- With a character all that differ from it by case alone. -/
def anyCase (set : CharSet) : CharSet := set.close allCaseClasses

def anyAsciiCase (set : CharSet) : CharSet :=
  set.close ((List.range' 0x41 26).map fun n => [n, n + 32])

def digit (unicode : Bool) : CharSet := if unicode then ⟨digitCodes⟩ else range '0' '9'

def word (unicode : Bool) : CharSet :=
  if unicode then ⟨wordCodes⟩ else ofRanges [('0', '9'), ('A', 'Z'), ('_', '_'), ('a', 'z')]

def blank (unicode : Bool) : CharSet :=
  if unicode then ⟨blankRanges⟩ else ofRanges [('\t', '\r'), (' ', ' ')]

end CharSet
end EarleyChart
