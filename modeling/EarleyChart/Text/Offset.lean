/-!
Byte offsets into a text. A text is a list of characters, and a character takes
as many bytes as its UTF-8 form; an offset may fall between two characters or
inside one.
-/

namespace EarleyChart

def byteLength (text : List Char) : Nat :=
  text.foldr (fun c n => c.utf8Size + n) 0

@[simp] theorem byteLength_nil : byteLength [] = 0 := rfl

@[simp] theorem byteLength_cons (c : Char) (text : List Char) :
    byteLength (c :: text) = c.utf8Size + byteLength text := by
  simp [byteLength]

@[simp] theorem byteLength_append (a b : List Char) :
    byteLength (a ++ b) = byteLength a + byteLength b := by
  induction a with
  | nil => simp
  | cons c a ih => simp [ih, Nat.add_assoc]

theorem length_le_byteLength (text : List Char) : text.length ≤ byteLength text := by
  induction text with
  | nil => simp
  | cons c text ih =>
      have h := c.utf8Size_pos
      simp only [List.length_cons, byteLength_cons]
      omega

/-- A text cut at a byte offset: the characters that end at or before it, the
bytes of the offset that fall into the next character, and what follows. -/
structure Cut where
  before : List Char
  inside : Nat
  after : List Char

/-- Cuts a text at a byte offset; an offset past the end cuts at the end. -/
def cutAt : List Char → Nat → Cut
  | [], _ => ⟨[], 0, []⟩
  | c :: rest, offset =>
      if c.utf8Size ≤ offset then
        let cut := cutAt rest (offset - c.utf8Size)
        { cut with before := c :: cut.before }
      else
        ⟨[], offset, c :: rest⟩

theorem cutAt_append (a b : List Char) :
    cutAt (a ++ b) (byteLength a) = ⟨a, 0, b⟩ := by
  induction a with
  | nil =>
      cases b with
      | nil => rfl
      | cons c rest =>
          have h := c.utf8Size_pos
          simp [cutAt, show ¬ c.utf8Size ≤ 0 by omega]
  | cons c rest ih => simp [cutAt, ih]

/-- The part of a text after its last line break. -/
def lastLine (text : List Char) : List Char :=
  (text.reverse.takeWhile (· != '\n')).reverse

def firstLine (text : List Char) : List Char :=
  text.takeWhile (· != '\n')

end EarleyChart
