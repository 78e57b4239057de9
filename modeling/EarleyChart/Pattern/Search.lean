import EarleyChart.Pattern.Program

/-!
Searching for a pattern. A search runs along the text with a list of threads,
the preferred ones first. Before each character a thread is followed to the
instructions that read a character; of two threads at one instruction the first
is kept. A thread that accepts ends all threads after it, and the last match
found is the preferred one.
-/

namespace EarleyChart
namespace Program

/-- The threads before a character: instructions that read one, the preferred
first, and whether a thread accepts after them. Each instruction is marked with
the place at which it was visited last. -/
structure Threads where
  readers : List Nat
  accepted : Bool
  marks : Array Nat
  deriving Repr

/-- Follows threads, the first on the stack before the others, to instructions
that read a character. Each instruction is visited once at a place; the first
argument bounds the steps. -/
def follow (program : Program) (before after : Option Char) (place : Nat) :
    Nat → List Nat → Array Nat → List Nat → Threads
  | 0, _, marks, readers => ⟨readers.reverse, false, marks⟩
  | _, [], marks, readers => ⟨readers.reverse, false, marks⟩
  | steps + 1, address :: stack, marks, readers =>
      if marks[address]? == some place then
        follow program before after place steps stack marks readers
      else
        let marks := marks.setIfInBounds address place
        match program.code[address]? with
        | none => follow program before after place steps stack marks readers
        | some (.char _ _) | some (.chars _ _) =>
            follow program before after place steps stack marks (address :: readers)
        | some (.look l next) =>
            if l.holds before after then
              follow program before after place steps (next :: stack) marks readers
            else follow program before after place steps stack marks readers
        | some (.split first second) =>
            follow program before after place steps (first :: second :: stack) marks readers
        | some .accept => ⟨readers.reverse, true, marks⟩

/-- The threads of a list of addresses. An instruction puts at most two
addresses on the stack, so that the steps are bounded. -/
def threads (program : Program) (before after : Option Char) (place : Nat)
    (addresses : List Nat) (marks : Array Nat) : Threads :=
  follow program before after place (addresses.length + 2 * program.code.size + 1) addresses
    marks []

def readAt (program : Program) (c : Char) (address : Nat) : Option Nat :=
  match program.code[address]? with
  | some (.char d next) => if c = d then some next else none
  | some (.chars set next) => if set.contains c then some next else none
  | _ => none

def readChar (program : Program) (c : Char) (readers : List Nat) : List Nat :=
  readers.filterMap (readAt program c)

/-- The length of the preferred match, in characters, of threads that begin
after `count` characters; `best` is the match found so far. -/
def run (program : Program) (before : Option Char) (count : Nat) (best : Option Nat)
    (addresses : List Nat) (marks : Array Nat) : List Char → Option Nat
  | [] =>
      if (program.threads before none (count + 1) addresses marks).accepted then some count
      else best
  | c :: rest =>
      let ⟨readers, accepted, marks⟩ :=
        program.threads before (some c) (count + 1) addresses marks
      let best := if accepted then some count else best
      match program.readChar c readers with
      | [] => best
      | next => run program (some c) (count + 1) best next marks rest

/-- The end of the preferred match that begins at a place of the text. Marks count
places from one. -/
def matchAt (program : Program) (before : Option Char) (text : List Char) : Option Nat :=
  program.run before 0 none [program.entry] (Array.replicate program.code.size 0) text

/-- The end of the preferred match among those that begin first. -/
def find (program : Program) (before : Option Char) (skipped : Nat) :
    List Char → Option Nat
  | [] => (program.matchAt before []).map (skipped + ·)
  | c :: rest =>
      match program.matchAt before (c :: rest) with
      | some n => some (skipped + n)
      | none => find program (some c) (skipped + 1) rest

/-- A match ends within the text. -/
theorem run_le {program : Program} {before : Option Char} {count limit : Nat}
    {best : Option Nat} {addresses : List Nat} {marks : Array Nat} {text : List Char} {n : Nat}
    (hbest : ∀ m, best = some m → m ≤ limit) (hlimit : count + text.length ≤ limit)
    (h : program.run before count best addresses marks text = some n) : n ≤ limit := by
  induction text generalizing before count best addresses marks with
  | nil =>
      rw [run] at h
      split at h
      · obtain rfl := Option.some.inj h
        simpa using hlimit
      · exact hbest n h
  | cons c text ih =>
      have hcount : count + 1 + text.length ≤ limit := by
        rw [List.length_cons] at hlimit
        omega
      simp only [run] at h
      have hkept : ∀ m, (if (program.threads before (some c) (count + 1) addresses marks).accepted
          then some count else best) = some m → m ≤ limit := by
        intro m hm
        split at hm
        · obtain rfl := Option.some.inj hm
          omega
        · exact hbest m hm
      split at h
      · exact hkept n h
      · exact ih hkept hcount h

theorem matchAt_le {program : Program} {before : Option Char} {text : List Char} {n : Nat}
    (h : program.matchAt before text = some n) : n ≤ text.length :=
  run_le (by simp) (by simp) h

theorem find_le {program : Program} {before : Option Char} {skipped : Nat} {text : List Char}
    {n : Nat} (h : program.find before skipped text = some n) : n ≤ skipped + text.length := by
  induction text generalizing before skipped with
  | nil =>
      obtain ⟨m, hm, rfl⟩ := Option.map_eq_some_iff.mp h
      exact Nat.add_le_add_left (matchAt_le hm) skipped
  | cons c text ih =>
      rw [find] at h
      split at h
      · next m hm =>
          obtain rfl := Option.some.inj h
          exact Nat.add_le_add_left (matchAt_le hm) skipped
      · have hlater := ih h
        rw [List.length_cons]
        omega

end Program

structure PatternSearch where
  program : Program
  anchored : Bool
  deriving Repr

namespace PatternSearch

def ofPattern (p : Pattern) : PatternSearch := ⟨p.program, p.anchored⟩

/-- The number of characters up to the end of the preferred match. A pattern
whose matches all begin with the text is not looked for elsewhere. -/
def matchEnd (search : PatternSearch) (text : List Char) : Option Nat :=
  if search.anchored then search.program.matchAt none text else search.program.find none 0 text

theorem matchEnd_le {search : PatternSearch} {text : List Char} {n : Nat}
    (h : search.matchEnd text = some n) : n ≤ text.length := by
  rw [matchEnd] at h
  split at h
  · exact Program.matchAt_le h
  · simpa using Program.find_le h

end PatternSearch
end EarleyChart
