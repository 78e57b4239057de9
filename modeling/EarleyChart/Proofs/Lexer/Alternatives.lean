import EarleyChart.Proofs.Lexer.ClassBytes
import EarleyChart.Proofs.Lexer.Cuts

/-!
Patterns of which every alternative hides a byte: what it begins with is understood, and it
is not the byte. If the search takes these beginnings as they are documented and cuts at the
bars between them, then the pattern spans no text that begins with a character of the byte.
-/

namespace EarleyChart
open FirstBytes

namespace FirstBytes

/-- What an alternative begins with is understood, and it does not begin with the byte. -/
def Hides (b : UInt8) (bytes : List UInt8) : Prop :=
  ∃ set length, ofFirst? bytes = some (set, length) ∧ b ∉ set

variable {b : UInt8} {c : Char} {text : List Char} {set bytes tail : List UInt8} {length : Nat}

theorem hides_of_allows (h : (ofAlternative bytes).allows b = false) : Hides b bytes := by
  unfold ofAlternative at h
  split at h
  · contradiction
  · next set length hfirst =>
      refine ⟨set, length, hfirst, ?_⟩
      split at h
      · split at h
        · contradiction
        · simpa [allows] using h
      · simpa [allows] using h

theorem ofFirst?_append (h : ofFirst? bytes = some (set, length)) (tail : List UInt8) :
    ofFirst? (bytes ++ tail) = some (set, length) := by
  cases bytes with
  | nil => contradiction
  | cons c rest =>
      rw [List.cons_append]
      unfold ofFirst? at h ⊢
      dsimp only at h ⊢
      split at h
      · next hescape =>
        obtain ⟨e, he, h⟩ := Option.bind_eq_some_iff.mp h
        obtain ⟨rest, rfl⟩ := List.head?_eq_some_iff.mp he
        rw [if_pos hescape]
        exact h
      · next hescape =>
        rw [if_neg hescape]
        split at h
        · next hopen =>
          rw [if_pos hopen]
          exact ofClass?_append h tail
        · next hopen => rwa [if_neg hopen]

theorem Hides.append (h : Hides b bytes) (tail : List UInt8) : Hides b (bytes ++ tail) := by
  obtain ⟨set, length, hfirst, hb⟩ := h
  exact ⟨set, length, ofFirst?_append hfirst tail, hb⟩

/-- The first alternative that is cut off is what the text begins with. -/
theorem exists_first_splitFrom (depth : Nat) (inClass : Bool) (current bytes : List UInt8) :
    ∃ piece ∈ splitFrom depth inClass current bytes, piece <+: current.reverse ++ bytes := by
  fun_induction splitFrom depth inClass current bytes
  case case1 current => exact ⟨current.reverse, by simp, by simp⟩
  case case2 current => exact ⟨(byte '\\' :: current).reverse, by simp, by simp⟩
  case case8 current b rest _ _ _ _ _ _ _ =>
    exact ⟨current.reverse, by simp, List.prefix_append _ _⟩
  -- the other bytes are added to the first alternative
  all_goals
    rename_i ih
    simpa using ih

/-- A text hides a byte that all its alternatives hide. -/
theorem hides_of_alternatives (h : ∀ piece ∈ alternatives bytes, Hides b piece) :
    Hides b bytes := by
  obtain ⟨piece, hpiece, tail, htail⟩ := exists_first_splitFrom 0 false [] bytes
  have hhides := (h piece hpiece).append tail
  rwa [htail] at hhides

theorem isPlain_ascii (h : isPlain b = true) : b < 0x80 := by
  have hlisted : (" _-,;:=<>!@#%&'\"/~\x60".toList.map byte).all (· < 0x80) = true := by
    decide
  rw [isPlain, Bool.or_eq_true] at h
  obtain h | h := h
  · rw [isAscii, Bool.and_eq_true, decide_eq_true_eq] at h
    exact h.1
  · exact of_decide_eq_true (List.all_eq_true.mp hlisted b (List.contains_iff_mem.mp h))

theorem not_hides_nil : ¬ Hides b [] := by
  rintro ⟨set, length, hfirst, -⟩
  contradiction

/-- A character that begins neither an escape nor a class stands for itself. -/
theorem Hides.of_cons (hescape : c ≠ '\\') (hopen : c ≠ '[') (h : Hides b (bytesOf (c :: text))) :
    c.toNat < 0x80 ∧ isPlain (byte c) = true ∧ b ≠ byte c := by
  obtain ⟨set, length, hfirst, hb⟩ := h
  generalize hbytes : bytesOf (c :: text) = bytes at hfirst
  cases bytes with
  | nil => contradiction
  | cons first rest =>
      have hne : ∀ {d : Char}, d.toNat < 0x80 → c ≠ d → first ≠ byte d := by
        rintro d hd hcd rfl
        obtain ⟨more, heq, -⟩ := exists_of_bytesOf_eq_byte hd hbytes
        exact hcd (List.cons.inj heq).1
      rw [ofFirst?, if_neg (hne (by decide) hescape), if_neg (hne (by decide) hopen)] at hfirst
      obtain ⟨hplain, hfirst⟩ := Option.ite_none_right_eq_some.mp hfirst
      cases hfirst
      obtain ⟨d, more, heq, hd, rfl, -⟩ := exists_of_bytesOf_eq (isPlain_ascii hplain) hbytes
      cases heq
      exact ⟨hd, hplain, List.ne_of_not_mem_cons hb⟩

/-- Nothing is understood that begins with a group, an end, a place or any character. -/
theorem not_hides_of_mem (hc : c ∈ ['(', ')', '|', '.', '^', '$']) :
    ¬ Hides b (bytesOf (c :: text)) := by
  intro h
  have hspecial : ['(', ')', '|', '.', '^', '$'].all
      (fun c => c != '\\' && c != '[' && !isPlain (byte c)) = true := by
    decide
  have hc := List.all_eq_true.mp hspecial c hc
  simp only [Bool.and_eq_true, bne_iff_ne, Bool.not_eq_true'] at hc
  have hplain := (h.of_cons hc.1.1 hc.1.2).2.1
  rw [hc.2] at hplain
  contradiction

theorem Hides.of_escape (h : Hides b (bytesOf ('\\' :: c :: text))) :
    c.toNat < 0x80 ∧ ∃ own, ofEscape? (byte c) = some own ∧ b ∉ own := by
  obtain ⟨set, length, hfirst, hb⟩ := h
  rw [bytesOf_cons_ascii (by decide), ofFirst?, if_pos rfl] at hfirst
  obtain ⟨e, he, hfirst⟩ := Option.bind_eq_some_iff.mp hfirst
  obtain ⟨own, hown, hfirst⟩ := Option.bind_eq_some_iff.mp hfirst
  cases hfirst
  obtain ⟨rest, hbytes⟩ := List.head?_eq_some_iff.mp he
  obtain ⟨d, more, heq, hd, rfl, -⟩ := exists_of_bytesOf_eq (lt_of_ofEscape? hown) hbytes
  cases heq
  exact ⟨hd, set, hown, hb⟩

theorem Hides.of_bracket (h : Hides b (bytesOf ('[' :: text))) :
    ∃ set length, ofClass? (bytesOf ('[' :: text)) = some (set, length) ∧ b ∉ set := by
  obtain ⟨set, length, hfirst, hb⟩ := h
  rw [bytesOf_cons_ascii (by decide), ofFirst?, if_neg (by decide), if_pos rfl] at hfirst
  rw [bytesOf_cons_ascii (by decide)]
  exact ⟨set, length, hfirst, hb⟩

end FirstBytes

namespace Regex

/-- Whether the search takes what each alternative begins with for what it is: there is
no gap and no edge of a word, a class is taken alike, case is not ignored where that matters,
and no repetition has no turn. In front of a bar the search passes over the alternative. -/
def Plain {level : RegexLevel} (now : RegexFlags) (tail : List Char) : Regex level → Prop
  | one row => row.Plain now tail
  | bar row rest => row.Plain now ('|' :: rest.text ++ tail) ∧ PassedOver 0 row.text ∧
      rest.Plain (row.after now) tail
  | nil => True
  | cons part rest => part.Plain now (rest.text ++ tail)
  | char text _ => (∀ c, text = [c] → now.ignoreCase = true → ¬ HasCase c) ∧
      ∀ members, text = '[' :: members → now.ignoreCase = false ∧
        (now.spacious = true → ∀ c ∈ members, isGap c = false) ∧
        agreedClass (bytesOf (members ++ tail)) = true
  | place text _ => text.tail.head? ≠ some '<' ∧ text.tail.head? ≠ some '>'
  | gap _ => False
  | flags _ _ | group _ _ => True
  | repeated body space sign least _ => 0 < least ∧ body.Plain now (space ++ sign ++ tail)

variable {now : RegexFlags} {b : UInt8} {x : Char} {text tail more : List Char} {chars : Set Char}
  {j : Nat}

theorem spans_char (h : (char text chars).Spans (x :: more) 0 j) : x ∈ chars := by
  obtain ⟨-, c, hc, hinput⟩ := h
  cases hinput
  exact hc

/-- A character that is taken for what it is is none of the byte that the text hides. -/
theorem not_mem_of_hides (hleads : Leads b x) (hwritten : CharReads now text chars)
    (hplain : (char text chars).Plain now tail) (hhides : Hides b (bytesOf (text ++ tail))) :
    x ∉ chars := by
  intro hx
  cases hwritten with
  | any => exact not_hides_of_mem (by decide) hhides
  | @literal c _ hc h =>
      have hescape : c ≠ '\\' := by
        rintro rfl
        exact hc (by decide)
      have hopen : c ≠ '[' := by
        rintro rfl
        exact hc (by decide)
      obtain ⟨hascii, -, hb⟩ := hhides.of_cons hescape hopen
      obtain rfl | ⟨hcase, hletter⟩ := h x hx
      · exact hb (hleads.eq_byte hascii)
      · exact hplain.1 c rfl hcase hletter
  | @escape text _ h =>
      cases text with
      | nil => cases h
      | cons e text =>
          obtain ⟨hascii, own, hown, hb⟩ := hhides.of_escape
          exact hb ((h.within hascii hown).2 x hx b hleads)
  | @bracket text _ h =>
      obtain ⟨hcase, hgap, hagreed⟩ := hplain.2 text rfl
      obtain ⟨set, length, hclass, hb⟩ := hhides.of_bracket
      exact hb ((within_of_ofClass? (h hcase hgap tail) hagreed hclass).1 x hx b hleads)

theorem not_hides_place {holds : List Char → Nat → Prop} (hwritten : PlaceReads now text holds)
    (hplain : (place text holds).Plain now tail) : ¬ Hides b (bytesOf (text ++ tail)) := by
  cases hwritten with
  | start | finish => exact not_hides_of_mem (by decide)
  | @escape c _ _ hc =>
      intro hhides
      obtain ⟨-, own, hown, -⟩ := hhides.of_escape
      have hless : c ≠ '<' := fun heq => hplain.1 (congrArg some heq)
      have hgreater : c ≠ '>' := fun heq => hplain.2 (congrArg some heq)
      have hedge : c ∈ ['A', 'z', 'b', 'B'] := by simpa [hless, hgreater] using hc
      have hnone : ['A', 'z', 'b', 'B'].all (fun c => (ofEscape? (byte c)).isNone) = true := by
        decide
      rw [Option.isNone_iff_eq_none.mp (List.all_eq_true.mp hnone c hedge)] at hown
      contradiction

/-- A part that is taken for what it is spans no text that begins with a character of the
byte that it hides. -/
theorem not_spans_part (hleads : Leads b x) : {part : Regex .part} → {tail : List Char} →
    part.Written now → part.Plain now tail → Hides b (bytesOf (part.text ++ tail)) →
      ∀ j, ¬ part.Spans (x :: more) 0 j
  | char .., _, hwritten, hplain, hhides => fun _ hspans =>
      not_mem_of_hides hleads hwritten hplain hhides (spans_char hspans)
  | place .., _, hwritten, hplain, hhides => (not_hides_place hwritten hplain hhides).elim
  | gap _, _, _, hplain, _ => hplain.elim
  | flags .., _, _, _, hhides => (not_hides_of_mem (by decide) hhides).elim
  | group opening body, tail, _, _, hhides => by
      cases opening <;> exact (not_hides_of_mem (by decide) hhides).elim
  | repeated body space sign least most, tail, hwritten, hplain, hhides => by
      rintro j ⟨n, hleast, -, hturns⟩
      rw [text, List.append_assoc, List.append_assoc, ← List.append_assoc space] at hhides
      cases n with
      | zero => exact absurd hplain.1 (Nat.not_lt.mpr hleast)
      | succ n =>
          obtain ⟨k, hturn, -⟩ := hturns
          exact not_spans_part hleads hwritten.1 hplain.2 hhides k hturn

def Ends (tail : List Char) : Prop := ∀ c ∈ tail.head?, c = ')' ∨ c = '|'

theorem not_spans_row {row : Regex .row} (hleads : Leads b x) (hwritten : row.Written now)
    (hplain : row.Plain now tail) (htail : Ends tail)
    (hhides : Hides b (bytesOf (row.text ++ tail))) : ¬ row.Spans (x :: more) 0 j := by
  cases row with
  | nil =>
      cases tail with
      | nil => exact (not_hides_nil hhides).elim
      | cons c tail =>
          have hc : c ∈ ['(', ')', '|', '.', '^', '$'] := by
            obtain rfl | rfl := htail c rfl <;> decide
          exact (not_hides_of_mem hc hhides).elim
  | cons part rest =>
      rintro ⟨k, hpart, -⟩
      rw [text, List.append_assoc] at hhides
      exact not_spans_part hleads hwritten.1 hplain hhides k hpart

/-- An expression spans no text that begins with a character of a byte that all its
alternatives hide. -/
theorem not_spans_choice (hleads : Leads b x) (htail : Ends tail) :
    {now : RegexFlags} → {r : Regex .choice} → r.Written now → r.Plain now tail →
      (∀ piece ∈ alternatives (bytesOf (r.text ++ tail)), Hides b piece) →
        ¬ r.Spans (x :: more) 0 j
  | _, one row, hwritten, hplain, hpieces =>
      not_spans_row hleads hwritten hplain htail (hides_of_alternatives hpieces)
  | _, bar row rest, hwritten, hplain, hpieces => by
      obtain ⟨hrow, hpassed, hrest⟩ := hplain
      rw [text, List.append_assoc] at hpieces
      rintro (hspans | hspans)
      · exact not_spans_row hleads hwritten.1 hrow (fun c hc => .inr (Option.some.inj hc).symm)
          (hides_of_alternatives hpieces) hspans
      · exact not_spans_choice hleads htail hwritten.2 hrest (fun piece hpiece =>
          hpieces piece (splitFrom_bar_of_passedOver hpassed hpiece)) hspans

end Regex
end EarleyChart
