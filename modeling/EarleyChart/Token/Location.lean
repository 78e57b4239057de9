import EarleyChart.Text.Offset

/-!
Positions in a source text. A position is tracked in two ways: piece by piece,
by moving over each text that is read (`Location.advance`), and from the byte
offset alone, by one look at the text before it (`lineColumn`).
-/

namespace EarleyChart

/-- A position: line and column count from one, the column in characters, and
the offset counts bytes from zero. -/
structure Location where
  line : Nat
  column : Nat
  offset : Nat
  deriving DecidableEq, Repr

namespace Location

def start : Location := ⟨1, 1, 0⟩

instance : Inhabited Location := ⟨start⟩

/-- The position after one more character. -/
def step (location : Location) (c : Char) : Location :=
  if c = '\n' then
    ⟨location.line + 1, 1, location.offset + c.utf8Size⟩
  else
    ⟨location.line, location.column + 1, location.offset + c.utf8Size⟩

def advance (location : Location) (text : List Char) : Location :=
  text.foldl step location

@[simp] theorem advance_nil (location : Location) : location.advance [] = location := rfl

@[simp] theorem advance_cons (location : Location) (c : Char) (text : List Char) :
    location.advance (c :: text) = (location.step c).advance text := rfl

theorem advance_append (location : Location) (a b : List Char) :
    location.advance (a ++ b) = (location.advance a).advance b := by
  simp [advance]

@[simp] theorem offset_step (location : Location) (c : Char) :
    (location.step c).offset = location.offset + c.utf8Size := by
  simp only [step]
  split <;> rfl

theorem offset_advance (location : Location) (text : List Char) :
    (location.advance text).offset = location.offset + byteLength text := by
  induction text generalizing location with
  | nil => rfl
  | cons c text ih => simp [ih, Nat.add_assoc]

/-- Line, column and offset are kept as words of 64 bits. -/
def wrap (location : Location) : Location :=
  ⟨location.line % UInt64.size, location.column % UInt64.size, location.offset % UInt64.size⟩

end Location

/-- Line and column of a byte offset, both from one. An offset past the end
stands for the end. The column counts characters, or bytes where the offset
falls inside a character. -/
def lineColumn (source : List Char) (offset : Nat) : Nat × Nat :=
  let cut := cutAt source offset
  let line := lastLine cut.before
  (1 + cut.before.count '\n',
    1 + if cut.inside = 0 then line.length else byteLength line + cut.inside)

end EarleyChart
