/-!
Sets of code points given as ascending, disjoint, inclusive ranges: the form in
which the character tables of this library are kept. The codes from 0xd800 to
0xdfff stand for no character; 0xe000 is taken to follow 0xd7ff.
-/

namespace EarleyChart

/-- Ascending, disjoint, inclusive ranges of code points. -/
abbrev CodeRanges := List (Nat × Nat)

def lastCode : Nat := 0x10ffff

/-- The code after that of a character. -/
def codeAfter (n : Nat) : Nat := if n = 0xd7ff then 0xe000 else n + 1

def codeBefore (n : Nat) : Nat := if n = 0xe000 then 0xd7ff else n - 1

namespace CodeRanges

/-- Whether a code point lies in one of the ranges; the search stops at the
first range that begins above it. -/
def contains : CodeRanges → Nat → Bool
  | [], _ => false
  | (lo, hi) :: rest, n =>
      if n < lo then false else if n ≤ hi then true else contains rest n

def insert (lo hi : Nat) : CodeRanges → CodeRanges
  | [] => [(lo, hi)]
  | (lo', hi') :: rest =>
      if hi + 1 < lo' then (lo, hi) :: (lo', hi') :: rest
      else if hi' + 1 < lo then (lo', hi') :: insert lo hi rest
      else insert (min lo lo') (max hi hi') rest

def union (a b : CodeRanges) : CodeRanges :=
  b.foldl (fun set (lo, hi) => insert lo hi set) a

def clip (lo hi : Nat) : CodeRanges → CodeRanges
  | [] => []
  | (lo', hi') :: rest =>
      if hi < lo' then []
      else if hi' < lo then clip lo hi rest
      else (max lo lo', min hi hi') :: clip lo hi rest

def beyondAscii (ranges : CodeRanges) : CodeRanges := clip 0x80 lastCode ranges

def inter (a b : CodeRanges) : CodeRanges := a.flatMap fun (lo, hi) => clip lo hi b

def cut (lo hi : Nat) : CodeRanges → CodeRanges
  | [] => [(lo, hi)]
  | (lo', hi') :: rest =>
      if hi < lo' then [(lo, hi)]
      else if hi' < lo then cut lo hi rest
      else
        (if lo < lo' then [(lo, codeBefore lo')] else []) ++
          (if hi' < hi then cut (codeAfter hi') hi rest else [])

def diff (a b : CodeRanges) : CodeRanges := a.flatMap fun (lo, hi) => cut lo hi b

def symmDiff (a b : CodeRanges) : CodeRanges := diff (union a b) (inter a b)

/-- The gaps behind a code and between ranges. Ranges that end at 0xd7ff and
begin at 0xe000 have no code between them; their gap is the pair of these two. -/
def gapsAfter (last : Nat) : CodeRanges → CodeRanges
  | [] => if last < lastCode then [(codeAfter last, lastCode)] else []
  | (lo, hi) :: rest =>
      let first := codeAfter last
      let final := codeBefore lo
      (min first final, max first final) :: gapsAfter hi rest

def compl : CodeRanges → CodeRanges
  | [] => [(0, lastCode)]
  | (lo, hi) :: rest =>
      (if 0 < lo then [(0, codeBefore lo)] else []) ++ gapsAfter hi rest

/-- Joins a range with those that follow it and meet it, in order of their
beginnings. -/
def joinFrom (lo hi : Nat) : CodeRanges → CodeRanges
  | [] => [(lo, hi)]
  | (lo', hi') :: rest =>
      if hi + 1 < lo' then (lo, hi) :: joinFrom lo' hi' rest
      else joinFrom lo (max hi hi') rest

def unions (sets : List CodeRanges) : CodeRanges :=
  match sets.flatten.mergeSort fun a b => a.1 ≤ b.1 with
  | [] => []
  | (lo, hi) :: rest => joinFrom lo hi rest

end CodeRanges
end EarleyChart
