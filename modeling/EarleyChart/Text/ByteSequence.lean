import EarleyChart.Text.CodeRanges

/-!
The encoded forms of the characters of a range of code points, as sequences of
ranges of bytes. A range is cut where the length of the encoding changes and
where a byte in front of others changes, so that each piece is one sequence.
-/

namespace EarleyChart

abbrev ByteSequence := List (Nat × Nat)

namespace ByteSequence

def encode (n : Nat) : List Nat := (String.utf8EncodeChar (Char.ofNat n)).map UInt8.toNat

/-- Where a range is cut because of its last `bits` bits: these must take all
values, unless the bits before them are the same at both ends. -/
def cutAtBits (bits lo hi : Nat) : Option (Nat × Nat) :=
  let unit := Nat.pow 2 bits
  if lo / unit = hi / unit then none
  else if lo % unit ≠ 0 then some ((lo / unit + 1) * unit - 1, (lo / unit + 1) * unit)
  else if hi % unit ≠ unit - 1 then some (hi / unit * unit - 1, hi / unit * unit)
  else none

/-- Where a range is cut because its ends have encodings of different lengths. -/
def cutAtLength (greatest lo hi : Nat) : Option (Nat × Nat) :=
  if lo ≤ greatest ∧ greatest < hi then some (greatest, greatest + 1) else none

/-- The end of the first piece of a range and the beginning of the second, if it
has to be cut. -/
def cut? (lo hi : Nat) : Option (Nat × Nat) :=
  if lo < 0xe000 ∧ 0xd7ff < hi then some (0xd7ff, 0xe000)
  else
    ((((cutAtLength 0x7f lo hi).or (cutAtLength 0x7ff lo hi)).or (cutAtLength 0xffff lo hi)).or
      (if hi ≤ 0x7f then none
      else ((cutAtBits 6 lo hi).or (cutAtBits 12 lo hi)).or (cutAtBits 18 lo hi)))

/-- The sequences of a range, in order. A range is cut once at surrogates, three
times at most because of lengths, and twice because of each group of bits; the
first argument bounds these cuts. -/
def ofRangeWithin : Nat → Nat → Nat → List ByteSequence
  | 0, _, _ => []
  | cuts + 1, lo, hi =>
      if hi < lo then []
      else
        match cut? lo hi with
        | some (last, next) => ofRangeWithin cuts lo last ++ ofRangeWithin cuts next hi
        | none => [(encode lo).zip (encode hi)]

/-- The sequences of a range of code points. -/
def ofRange (lo hi : Nat) : List ByteSequence := ofRangeWithin 16 lo hi

def ofRanges (ranges : CodeRanges) : List ByteSequence :=
  ranges.flatMap fun (lo, hi) => ofRange lo hi

end ByteSequence
end EarleyChart
