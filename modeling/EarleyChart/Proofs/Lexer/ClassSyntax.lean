import EarleyChart.Lexer.FirstBytes
import Mathlib.Data.Set.Basic

/-!
How classes are written, and which characters they stand for, as far as the dialect is
documented. Escapes and named classes of which the search for first bytes understands
nothing may stand for any characters.
-/

namespace EarleyChart
open FirstBytes

/-- An escape, behind its backslash: digits, letters or blanks of every script, a control
character, or punctuation that stands for itself. -/
inductive EscapeReads : List Char → Set Char → List Char → Prop
  | digit {chars : Set Char} {rest : List Char}
      (h : ∀ c ∈ chars, c.toNat < 0x80 → '0' ≤ c ∧ c ≤ '9') : EscapeReads ('d' :: rest) chars rest
  | word {chars : Set Char} {rest : List Char}
      (h : ∀ c ∈ chars, c.toNat < 0x80 →
        'a' ≤ c ∧ c ≤ 'z' ∨ 'A' ≤ c ∧ c ≤ 'Z' ∨ '0' ≤ c ∧ c ≤ '9' ∨ c = '_') :
      EscapeReads ('w' :: rest) chars rest
  | blank {chars : Set Char} {rest : List Char}
      (h : ∀ c ∈ chars, c.toNat < 0x80 → c ∈ " \t\n\r\x0b\x0c".toList) :
      EscapeReads ('s' :: rest) chars rest
  | lineFeed {rest : List Char} : EscapeReads ('n' :: rest) {'\n'} rest
  | carriageReturn {rest : List Char} : EscapeReads ('r' :: rest) {'\r'} rest
  | tab {rest : List Char} : EscapeReads ('t' :: rest) {'\t'} rest
  | punctuation {c : Char} {rest : List Char} (hc : isPunctuation c = true)
      (hedge : c ∉ ['<', '>']) : EscapeReads (c :: rest) {c} rest
  | other {c : Char} {text rest : List Char} {chars : Set Char}
      (hc : c ∉ ['d', 'w', 's', 'n', 'r', 't']) (hpunct : isPunctuation c = false) :
      EscapeReads (c :: text) chars rest

inductive ClassAtom : List Char → Set Char → List Char → Prop
  | char {c : Char} {rest : List Char} (hc : c ≠ '\\') : ClassAtom (c :: rest) {c} rest
  | escape {text rest : List Char} {chars : Set Char} (h : EscapeReads text chars rest) :
      ClassAtom ('\\' :: text) chars rest

mutual

/-- A member of a class. A hyphen makes a range unless the class ends behind it or it is
half of an operator. -/
inductive ClassItem : List Char → Set Char → List Char → Prop
  | alone {text rest : List Char} {chars : Set Char} (hopen : text.head? ≠ some '[')
      (h : ClassAtom text chars rest)
      (hrange : rest.head? = some '-' →
        rest.tail.head? = some ']' ∨ rest.tail.head? = some '-') :
      ClassItem text chars rest
  | range {text more rest : List Char} {lo hi : Char} (hopen : text.head? ≠ some '[')
      (hlo : ClassAtom text {lo} ('-' :: more)) (hclose : more.head? ≠ some ']')
      (hdash : more.head? ≠ some '-') (hhi : ClassAtom more {hi} rest) (hle : lo ≤ hi) :
      ClassItem text {c | lo ≤ c ∧ c ≤ hi} rest
  /-- A class that is known by a name stands for any characters. -/
  | named {name rest : List Char} {chars : Set Char} (hname : ':' ∉ name) :
      ClassItem (['[', ':'] ++ name ++ [':', ']'] ++ rest) chars rest
  | nested {text rest : List Char} {chars : Set Char} (h : ClassReads text chars rest) :
      ClassItem ('[' :: text) chars rest

/-- The members of a class up to its closing bracket. `seen` are the characters of the
members since the last operator, and `join` is what the operators make of them. -/
inductive ClassMembers :
    (Set Char → Set Char) → Set Char → List Char → Set Char → List Char → Prop
  | close {join : Set Char → Set Char} {seen : Set Char} {rest : List Char} :
      ClassMembers join seen (']' :: rest) (join seen) rest
  | item {join : Set Char → Set Char} {seen own chars : Set Char} {text more rest : List Char}
      (hclose : text.head? ≠ some ']') (hop : ∀ c ∈ ['&', '-', '~'], ¬ [c, c] <+: text)
      (h : ClassItem text own more) (hrest : ClassMembers join (seen ∪ own) more chars rest) :
      ClassMembers join seen text chars rest
  | inter {join : Set Char → Set Char} {seen chars : Set Char} {text rest : List Char}
      (hrest : ClassMembers (join seen ∩ ·) ∅ text chars rest) :
      ClassMembers join seen ('&' :: '&' :: text) chars rest
  | diff {join : Set Char → Set Char} {seen chars : Set Char} {text rest : List Char}
      (hrest : ClassMembers (join seen \ ·) ∅ text chars rest) :
      ClassMembers join seen ('-' :: '-' :: text) chars rest
  | symmDiff {join : Set Char → Set Char} {seen chars : Set Char} {text rest : List Char}
      (hrest : ClassMembers (fun own => join seen \ own ∪ own \ join seen) ∅ text chars rest) :
      ClassMembers join seen ('~' :: '~' :: text) chars rest

/-- A class behind its sign. Hyphens in front are members, and so is a closing bracket. -/
inductive ClassOpened : List Char → Set Char → List Char → Prop
  | members {text rest : List Char} {chars : Set Char} (hdash : text.head? ≠ some '-')
      (hclose : text.head? ≠ some ']') (h : ClassMembers id ∅ text chars rest) :
      ClassOpened text chars rest
  | hyphens {text rest : List Char} {chars : Set Char} (n : Nat) (hdash : text.head? ≠ some '-')
      (h : ClassMembers id {'-'} text chars rest) :
      ClassOpened (List.replicate (n + 1) '-' ++ text) chars rest
  | bracket {text rest : List Char} {chars : Set Char} (h : ClassMembers id {']'} text chars rest) :
      ClassOpened (']' :: text) chars rest

/-- A class behind its opening bracket, with the characters that it stands for and what
follows it. -/
inductive ClassReads : List Char → Set Char → List Char → Prop
  | plain {text rest : List Char} {chars : Set Char} (hsign : text.head? ≠ some '^')
      (h : ClassOpened text chars rest) : ClassReads text chars rest
  | negated {text rest : List Char} {chars : Set Char} (h : ClassOpened text chars rest) :
      ClassReads ('^' :: text) charsᶜ rest

end

section

variable {text more rest : List Char} {join : Set Char → Set Char} {seen chars : Set Char}
  {c lo hi : Char}

theorem ClassItem.ofChar (hc : c ∉ ['[', '\\'])
    (hrange : rest.head? = some '-' → rest.tail.head? = some ']' ∨ rest.tail.head? = some '-') :
    ClassItem (c :: rest) {c} rest := by
  simp only [List.mem_cons, List.not_mem_nil, or_false, not_or] at hc
  exact .alone (fun h => hc.1 (Option.some.inj h)) (.char hc.2) hrange

/-- A range between characters that are not escaped. -/
theorem ClassItem.ofRange (hlo : lo ∉ ['[', '\\']) (hhi : hi ∉ [']', '-', '\\']) (hle : lo ≤ hi) :
    ClassItem (lo :: '-' :: hi :: rest) {c | lo ≤ c ∧ c ≤ hi} rest := by
  simp only [List.mem_cons, List.not_mem_nil, or_false, not_or] at hlo hhi
  exact .range (fun h => hlo.1 (Option.some.inj h)) (.char hlo.2)
    (fun h => hhi.1 (Option.some.inj h)) (fun h => hhi.2.1 (Option.some.inj h)) (.char hhi.2.2) hle

theorem ClassReads.members (hhead : text.head? ∉ [some '^', some '-', some ']'])
    (h : ClassMembers id ∅ text chars rest) : ClassReads text chars rest := by
  simp only [List.mem_cons, List.not_mem_nil, or_false, not_or] at hhead
  exact .plain hhead.1 (.members hhead.2.1 hhead.2.2 h)

end

end EarleyChart
