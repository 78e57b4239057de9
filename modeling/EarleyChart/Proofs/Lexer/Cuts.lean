import EarleyChart.Proofs.Lexer.Leading
import EarleyChart.Proofs.Lexer.Regex

/-!
The cuts of a pattern. The search for bars passes over an expression if it passes over what
its parts are written with: brackets that it counts, and classes and names that it does not
take for more. Then each bar behind the expression is a cut.
-/

namespace EarleyChart
namespace FirstBytes

/-- How many groups are open, and whether a class is, for the search for bars when it has
passed over some bytes. No answer means that they end with a backslash. -/
def passOver (depth : Nat) (inClass : Bool) : List UInt8 → Option (Nat × Bool)
  | [] => some (depth, inClass)
  | b :: rest =>
      if b = byte '\\' then
        match rest with
        | [] => none
        | _ :: rest => passOver depth inClass rest
      else if b = byte '[' ∧ inClass = false then passOver depth true rest
      else if b = byte ']' ∧ inClass = true then passOver depth false rest
      else if b = byte '(' ∧ inClass = false then passOver (depth + 1) inClass rest
      else if b = byte ')' ∧ inClass = false then passOver (depth - 1) inClass rest
      else passOver depth inClass rest

variable {depth depth' : Nat} {inClass inClass' : Bool} {used bytes current : List UInt8}

theorem passOver_cons {b : UInt8} (hb : b ≠ byte '\\') : passOver depth inClass (b :: bytes) =
    if b = byte '[' ∧ inClass = false then passOver depth true bytes
    else if b = byte ']' ∧ inClass = true then passOver depth false bytes
    else if b = byte '(' ∧ inClass = false then passOver (depth + 1) inClass bytes
    else if b = byte ')' ∧ inClass = false then passOver (depth - 1) inClass bytes
    else passOver depth inClass bytes := by
  rw [passOver.eq_def]
  exact if_neg hb

theorem splitFrom_escape (e : UInt8) :
    splitFrom depth inClass current (byte '\\' :: e :: bytes) =
      splitFrom depth inClass (e :: byte '\\' :: current) bytes := by
  rw [splitFrom.eq_def]
  rfl

theorem splitFrom_cons {b : UInt8} (hb : b ≠ byte '\\') :
    splitFrom depth inClass current (b :: bytes) =
      if b = byte '[' ∧ inClass = false then splitFrom depth true (b :: current) bytes
      else if b = byte ']' ∧ inClass = true then splitFrom depth false (b :: current) bytes
      else if b = byte '(' ∧ inClass = false then
        splitFrom (depth + 1) inClass (b :: current) bytes
      else if b = byte ')' ∧ inClass = false then
        splitFrom (depth - 1) inClass (b :: current) bytes
      else if b = byte '|' ∧ inClass = false ∧ depth = 0 then
        current.reverse :: splitFrom depth inClass [] bytes
      else splitFrom depth inClass (b :: current) bytes := by
  rw [splitFrom.eq_def]
  exact if_neg hb

theorem splitFrom_bar :
    splitFrom 0 false current (byte '|' :: bytes) =
      current.reverse :: splitFrom 0 false [] bytes := by
  rw [splitFrom_cons (by decide)]
  rfl

/-- What is cut off behind some bytes does not depend on them but for where they lead. -/
theorem splitFrom_passOver (h : passOver depth inClass used = some (depth', inClass'))
    (current : List UInt8) : ∃ current', ∀ piece ∈ splitFrom depth' inClass' current' bytes,
      piece ∈ splitFrom depth inClass current (used ++ bytes) := by
  fun_induction passOver depth inClass used generalizing current
  case case1 =>
    cases h
    exact ⟨current, fun _ hpiece => hpiece⟩
  case case2 => contradiction
  case case3 ih =>
    rw [List.cons_append, List.cons_append, splitFrom_escape]
    exact ih h _
  case case8 b rest hb _ _ _ _ ih =>
    rw [List.cons_append, splitFrom_cons hb]
    simp (disch := assumption) only [if_neg]
    split
    · obtain ⟨current', hpieces⟩ := ih h []
      exact ⟨current', fun piece hpiece => List.mem_cons_of_mem _ (hpieces piece hpiece)⟩
    · exact ih h _
  -- the other bytes lead to the same state
  all_goals
    rename_i ih
    rw [List.cons_append, splitFrom_cons ‹_›]
    simp (disch := assumption) only [if_pos, if_neg]
    exact ih h _

theorem passOver_append (h : passOver depth inClass used = some (depth', inClass')) :
    passOver depth inClass (used ++ bytes) = passOver depth' inClass' bytes := by
  fun_induction passOver depth inClass used
  case case1 =>
    cases h
    rfl
  case case2 => contradiction
  case case3 ih =>
    rw [List.cons_append, List.cons_append, passOver.eq_def]
    exact ih h
  all_goals
    rename_i ih
    rw [List.cons_append, passOver_cons ‹_›]
    simp (disch := assumption) only [if_pos, if_neg]
    exact ih h

theorem bytesOf_append (text more : List Char) :
    bytesOf (text ++ more) = bytesOf text ++ bytesOf more := List.flatMap_append

end FirstBytes

open FirstBytes

/-- Whether the search for bars, outside of classes and with some groups open, comes out of a
text as it went in. -/
def PassedOver (depth : Nat) (text : List Char) : Prop :=
  passOver depth false (bytesOf text) = some (depth, false)

/-- Whether the search for bars passes over what the parts of an expression are written with:
it takes each opening of a group for one, and nothing else for more than it is. -/
def Regex.Passed {level : RegexLevel} (depth : Nat) : Regex level → Prop
  | one row => row.Passed depth
  | bar row rest => row.Passed depth ∧ rest.Passed depth
  | nil => True
  | cons part rest => part.Passed depth ∧ rest.Passed depth
  | char text _ | place text _ | gap text => PassedOver depth text
  | flags space letters => PassedOver depth ('(' :: space ++ '?' :: letters ++ [')'])
  | group opening body => passOver depth false (bytesOf opening.text) = some (depth + 1, false) ∧
      body.Passed (depth + 1)
  | repeated body space sign _ _ => body.Passed depth ∧ PassedOver depth (space ++ sign)

theorem PassedOver.append {depth : Nat} {text more : List Char} (h : PassedOver depth text)
    (hmore : PassedOver depth more) : PassedOver depth (text ++ more) := by
  rw [PassedOver, bytesOf_append, passOver_append h]
  exact hmore

/-- An expression whose parts are passed over is passed over. -/
theorem Regex.Passed.passedOver {level : RegexLevel} {r : Regex level} {depth : Nat}
    (h : r.Passed depth) : PassedOver depth r.text := by
  induction r generalizing depth with
  | one row ih => exact ih h
  | bar row rest ihrow ihrest =>
      have hbar : PassedOver depth ['|'] := rfl
      rw [text, List.append_cons]
      exact ((ihrow h.1).append hbar).append (ihrest h.2)
  | nil => rfl
  | cons part rest ihpart ihrest => exact (ihpart h.1).append (ihrest h.2)
  | char | place | gap | flags => exact h
  | group opening body ih =>
      rw [PassedOver, text, bytesOf_append, bytesOf_append, List.append_assoc, passOver_append h.1,
        passOver_append (ih h.2)]
      rfl
  | repeated body space sign least most ih =>
      rw [text, List.append_assoc]
      exact (ih h.1).append h.2

/-- A bar behind an expression that is passed over is a cut. -/
theorem splitFrom_bar_of_passedOver {text more : List Char} (h : PassedOver 0 text)
    {piece : List UInt8} (hpiece : piece ∈ alternatives (bytesOf more)) :
    piece ∈ alternatives (bytesOf (text ++ '|' :: more)) := by
  rw [bytesOf_append]
  obtain ⟨current, hpieces⟩ := splitFrom_passOver h []
  apply hpieces
  rw [bytesOf_cons_ascii (by decide), splitFrom_bar]
  exact List.mem_cons_of_mem _ hpiece

end EarleyChart
