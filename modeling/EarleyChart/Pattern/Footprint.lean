import EarleyChart.Pattern.Basic
import EarleyChart.Text.ByteSequence
import Std.Data.HashMap

/-!
The memory that a pattern takes as an automaton over bytes, which bounds the
patterns that are accepted. Every state takes room, and so does each transition
of a state with several ranges of bytes and each target of a state that branches.
There is one automaton for each direction of reading; groups have states in the
forward one alone.
-/

namespace EarleyChart

/-- The states of an automaton so far, and the bytes that they take for their
transitions and targets. -/
structure Footprint where
  states : Nat
  extra : Nat
  deriving DecidableEq, Repr

namespace Footprint

def stateBytes : Nat := 32

def transitionBytes : Nat := 8

def targetBytes : Nat := 4

def limit : Nat := 10 * 1024 * 1024

def bytes (f : Footprint) : Nat := stateBytes * f.states + f.extra

/-- Adds states and what they take besides, if that leaves the limit. -/
def add (states extra : Nat) (f : Footprint) : Option Footprint :=
  let f := ⟨f.states + states, f.extra + extra⟩
  if f.bytes ≤ limit then some f else none

end Footprint

/-- States that were made not long ago, by what they are made of. The hash of a
state names its slot, where it takes the place of what was there. -/
structure RecentStates where
  slots : Nat
  entries : Std.HashMap Nat (List Nat × Nat)

namespace RecentStates

def empty (slots : Nat) : RecentStates := ⟨slots, {}⟩

/-- The slot of a state: its numbers are mixed one by one into a word. -/
def slot (recent : RecentStates) (key : List Nat) : Nat :=
  (key.foldl (fun (h : UInt64) n => (h ^^^ n.toUInt64) * 1099511628211)
    14695981039346656037).toNat % recent.slots

def state? (recent : RecentStates) (slot : Nat) (key : List Nat) : Option Nat :=
  match recent.entries[slot]? with
  | some (old, state) => if old = key then some state else none
  | none => none

/-- A state like the given one if it was made not long ago, else a new one with
the given number of transitions. -/
def share (recent : RecentStates) (key : List Nat) (transitions : Nat) (f : Footprint) :
    Option (Nat × RecentStates × Footprint) :=
  let slot := recent.slot key
  match recent.state? slot key with
  | some state => some (state, recent, f)
  | none =>
      match f.add 1 (transitions * Footprint.transitionBytes) with
      | none => none
      | some g => some (f.states, ⟨recent.slots, recent.entries.insert slot (key, f.states)⟩, g)

end RecentStates

/-- The states of a part of a pattern, in the order in which they are made. -/
inductive Layout where
  /-- States that take a known number of bytes besides. -/
  | fixed (states extra : Nat)
  /-- The states that read the characters of a set forward, by their encodings. -/
  | forwardSet (sequences : List ByteSequence)
  | backwardSet (sequences : List ByteSequence)
  | both (first second : Layout)
  | times (count : Nat) (body : Layout)
  deriving Repr

namespace Layout

/-- The states that follow a list of sequences which share their first bytes, as
a tree whose equal branches are shared. The first argument bounds the length of
the sequences; the end of each is the state `target`. -/
def tree : Nat → Nat → List ByteSequence → RecentStates → Footprint →
    Option (Nat × RecentStates × Footprint)
  | 0, target, _, recent, f => some (target, recent, f)
  | length + 1, target, sequences, recent, f =>
      let groups := sequences.splitBy fun a b => a.head? == b.head?
      let step (acc : Option (List Nat × RecentStates × Footprint)) (group : List ByteSequence) :
          Option (List Nat × RecentStates × Footprint) := do
        let (key, recent, f) ← acc
        let (lo, hi) := (group.head?.bind List.head?).getD (0, 0)
        let ends := group.map List.tail
        if ends.all List.isEmpty then some (target :: hi :: lo :: key, recent, f)
        else
          let (next, recent, f) ← tree length target ends recent f
          some (next :: hi :: lo :: key, recent, f)
      match groups.foldl step (some ([], recent, f)) with
      | none => none
      | some (key, recent, f) => recent.share key.reverse groups.length f

/-- The states that read one sequence backward, from the state behind it on. -/
def chain : ByteSequence → Nat → RecentStates → Footprint →
    Option (Nat × RecentStates × Footprint)
  | [], target, recent, f => some (target, recent, f)
  | (lo, hi) :: rest, target, recent, f =>
      match recent.share [target, lo, hi] 0 f with
      | none => none
      | some (state, recent, f) => chain rest state recent f

/-- The states of chains; each is a target of a state that branches. -/
def chains (target : Nat) : List ByteSequence → RecentStates → Footprint → Option Footprint
  | [], _, f => some f
  | sequence :: rest, recent, f =>
      match chain sequence target recent f with
      | none => none
      | some (_, recent, f) =>
          match f.add 0 Footprint.targetBytes with
          | none => none
          | some f => chains target rest recent f

/-- A step made a number of times, as long as it leaves the limit. -/
def repeatStep (step : Footprint → Option Footprint) : Nat → Footprint → Option Footprint
  | 0, f => some f
  | count + 1, f =>
      match step f with
      | none => none
      | some f => repeatStep step count f

def addTo : Layout → Footprint → Option Footprint
  | .fixed states extra, f => f.add states extra
  | .forwardSet sequences, f => do
      let g ← f.add 1 0
      let (_, _, g) ← tree 4 f.states sequences (.empty 10000) g
      return g
  | .backwardSet sequences, f => do
      let g ← f.add 2 0
      chains (f.states + 1) sequences (.empty 1000) g
  | .both first second, f => (addTo first f).bind (addTo second)
  | .times count body, f => repeatStep (addTo body) count f

def row (layouts : List Layout) : Layout := layouts.foldr .both (.fixed 0 0)

def branch : Layout := .fixed 1 (2 * Footprint.targetBytes)

def pass : Layout := .fixed 1 0

end Layout

inductive Direction where
  | forward
  | backward
  deriving DecidableEq, Repr

namespace Direction

def order (direction : Direction) (first second : Layout) : Layout :=
  match direction with
  | .forward => .both first second
  | .backward => .both second first

end Direction

namespace CharSet

def layout (direction : Direction) (set : CharSet) : Layout :=
  if set.isAscii then .fixed 2 (set.ranges.length * Footprint.transitionBytes)
  else
    match direction with
    | .forward => .forwardSet (ByteSequence.ofRanges set.ranges)
    | .backward => .backwardSet (ByteSequence.ofRanges set.ranges)

end CharSet

namespace Pattern

def bytesOf (direction : Direction) (text : List Char) : List UInt8 :=
  let bytes := text.flatMap String.utf8EncodeChar
  match direction with
  | .forward => bytes
  | .backward => bytes.reverse

/-- The texts between those that are empty, which stand for ends. Ends in front of
all other texts count once. -/
def chunks (texts : List (List UInt8)) : List (List (List UInt8)) :=
  let split := (texts.foldr (fun text (chunk, chunks) =>
      if text.isEmpty then ([], chunk :: chunks) else (text :: chunk, chunks))
    ([], []) : List (List UInt8) × List (List (List UInt8)))
  let (first, others) := split
  if first.isEmpty then first :: others.dropWhile List.isEmpty else first :: others

/-- The states, and the bytes besides, of a choice between texts: a tree in which
texts that begin alike share states as far as no text between them ends there.
The first argument bounds the length of the texts. -/
def choiceOfTexts : Nat → List (List UInt8) → Nat × Nat
  | 0, _ => (0, 0)
  | length + 1, texts =>
      if texts.all List.isEmpty then (0, 0)
      else
        let chunks := chunks texts
        let cost (chunk : List (List UInt8)) : Nat × Nat :=
          let heads := (chunk.filterMap List.head?).eraseDups
          let own := if heads.length ≤ 1 then 0 else heads.length * Footprint.transitionBytes
          heads.foldl (fun (states, extra) head =>
              let ends := (chunk.filter fun text => text.head? == some head).map List.tail
              let (s, e) := choiceOfTexts length ends
              (states + s, extra + e))
            (if heads.isEmpty then 0 else 1, own)
        let targets := (chunks.filter (!·.isEmpty)).length + (chunks.length - 1)
        let (states, extra) := chunks.foldl (fun (states, extra) chunk =>
          let (s, e) := cost chunk
          (states + s, extra + e)) (0, 0)
        if targets = 1 then (states, extra)
        else (states + 1, extra + targets * Footprint.targetBytes)

def text? : Pattern → Option (List Char)
  | .literal text => some text
  | _ => none

/-- A place among alternatives. The state that branches to the first two of them
is made behind the second, together with the one where all of them meet. -/
inductive Place where
  | alone
  | second
  | later
  deriving DecidableEq, Repr

/-- What is made behind an alternative. -/
def Place.closing : Place → Layout
  | .alone => .fixed 0 0
  | .second => .fixed 2 (2 * Footprint.targetBytes)
  | .later => .fixed 0 Footprint.targetBytes

def layoutAt (direction : Direction) : Place → Pattern → Layout
  | place, .empty => .both .pass place.closing
  | place, .literal text =>
      .both (.fixed (bytesOf direction text).length 0) place.closing
  | place, .chars set _ => .both (set.layout direction) place.closing
  | place, .look _ => .both .pass place.closing
  | place, .group _ body =>
      let body := layoutAt direction .alone body
      match direction with
      | .forward => .row [.pass, body, .pass, place.closing]
      | .backward => .both body place.closing
  | place, .seq first second =>
      .both (direction.order (layoutAt direction .alone first) (layoutAt direction .alone second))
        place.closing
  | .alone, .alt first second =>
      match (branches (.alt first second)).mapM text? with
      | some texts =>
          let texts := texts.map (bytesOf direction)
          let (states, extra) := choiceOfTexts ((texts.map List.length).foldl max 0) texts
          .fixed (states + 1) extra
      | none => .both (layoutAt direction .alone first) (layoutAt direction .second second)
  | place, .alt first second =>
      .row [layoutAt direction .alone first, place.closing, layoutAt direction .later second]
  | place, .rep least most _ body =>
      let turn := layoutAt direction .alone body
      let layout :=
        match least, most with
        | 0, some 1 => .row [.branch, turn, .pass]
        | least, some most =>
            let needed := if least = 0 then .pass else .times least turn
            if least = most then needed
            else .row [needed, .pass, .times (most - least) (.both .branch turn)]
        | 0, none =>
            if (minLength? body).any (0 < ·) then .both .branch turn
            else .row [turn, .branch, .branch, .pass]
        | least, none => .both (.times least turn) .branch
      .both layout place.closing

/-- The layout of the whole automaton. Unless every match begins where reading
begins, characters in front of a match are passed over. -/
def layout (direction : Direction) (p : Pattern) : Layout :=
  let body := layoutAt direction .alone p
  match direction with
  | .forward =>
      .row [if anchored p then .pass else .both .branch (.fixed 2 Footprint.transitionBytes),
        .pass, body, .pass, .pass]
  | .backward =>
      .row [if anchoredAtEnd p then .pass else .both .branch (.fixed 2 Footprint.transitionBytes),
        body, .pass]

def fits (p : Pattern) : Bool :=
  ((layout .forward p).addTo ⟨0, 0⟩).isSome && ((layout .backward p).addTo ⟨0, 0⟩).isSome

end Pattern
end EarleyChart
