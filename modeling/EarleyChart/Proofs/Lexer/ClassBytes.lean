import EarleyChart.Proofs.Lexer.Classes

/-!
The search for first bytes against a class as it is documented. Where the members are taken
alike, the search finds the end of the class and, of each of its characters, the first byte.
-/

namespace EarleyChart
namespace FirstBytes

/-- Whether a class, after its opening bracket, is taken alike. A closing bracket in
front stands for itself, and begins no range. -/
def agreedClass : List UInt8 → Bool
  | [] => true
  | b :: rest =>
      if b = byte ']' then decide (NoRange rest) && agreedMembers rest
      else agreedMembers (b :: rest)

variable {bytes set : List UInt8} {length : Nat}

theorem ofMembers?_bracket (hrange : NoRange bytes) :
    ofMembers? true (byte ']' :: bytes) =
      (ofMembers? false bytes).map fun (set, length) => (byte ']' :: set, length + 1) := by
  have hplain : ¬(byte ']' ≥ 0x80 ∨ byte ']' = byte '[') ∧ byte ']' ≠ byte '\\' := by decide
  rw [ofMembers?.eq_def]
  simp only [hplain, Bool.true_eq_false, and_false, if_false]
  split
  · next dash hi more =>
    have hdash : ¬(dash = byte '-' ∧ hi ≠ byte ']') := by
      rintro ⟨rfl, hhi⟩
      exact hhi (Option.some.inj (hrange rfl))
    rw [if_neg hdash]
    cases ofMembers? false (dash :: hi :: more) <;> rfl
  · cases ofMembers? false bytes <;> rfl

/-- A class is a closing bracket or none, and members that are taken alike. -/
theorem lists_of_ofClass? (h : ofClass? (byte '[' :: bytes) = some (set, length))
    (hagreed : agreedClass bytes = true) :
    bytes.head? ≠ some (byte '^') ∧
      ((bytes.head? ≠ some (byte ']') ∧ ∃ n, length = n + 1 ∧ Lists bytes set n) ∨
        ∃ rest others n, bytes = byte ']' :: rest ∧ set = byte ']' :: others ∧ length = n + 2 ∧
          Lists rest others n) := by
  unfold ofClass? at h
  simp only [ne_eq, not_true_eq_false, false_or] at h
  split at h
  · cases h
  · next hsign =>
    obtain ⟨⟨own, n⟩, hmembers, h⟩ := Option.bind_eq_some_iff.mp h
    cases h
    refine ⟨hsign, ?_⟩
    cases bytes with
    | nil => cases hmembers
    | cons b rest =>
        rw [agreedClass] at hagreed
        split at hagreed
        · next hclose =>
          subst hclose
          rw [Bool.and_eq_true, decide_eq_true_eq] at hagreed
          rw [ofMembers?_bracket hagreed.1, Option.map_eq_some_iff] at hmembers
          obtain ⟨⟨others, n⟩, hrest, heq⟩ := hmembers
          cases heq
          exact .inr ⟨rest, others, n, rfl, rfl, rfl, lists_of_ofMembers? hrest hagreed.2⟩
        · next hclose =>
          have hhead : (b :: rest).head? ≠ some (byte ']') := fun h => hclose (Option.some.inj h)
          rw [ofMembers?_first hhead] at hmembers
          exact .inl ⟨hhead, n, rfl, lists_of_ofMembers? hmembers hagreed⟩

/-- A class that is taken alike ends where the search finds its end, and its characters begin
with the bytes that are listed. -/
theorem within_of_ofClass? {text rest : List Char} {chars : Set Char} {set : List UInt8}
    {length : Nat} (hread : ClassReads text chars rest)
    (hagreed : agreedClass (bytesOf text) = true)
    (h : ofClass? (bytesOf ('[' :: text)) = some (set, length)) :
    Within chars set ∧ length ≤ (bytesOf ('[' :: text)).length ∧
      (bytesOf ('[' :: text)).drop length = bytesOf rest := by
  rw [bytesOf_cons_ascii (by decide)] at h ⊢
  obtain ⟨hsign, hmembers⟩ := lists_of_ofClass? h hagreed
  cases hread with
  | negated =>
      exact absurd (congrArg List.head? (bytesOf_cons_ascii (c := '^') (by decide) _)) hsign
  | plain _ hopened =>
      obtain ⟨hclose, n, rfl, hlists⟩ | ⟨bytes, others, n, hbytes, rfl, rfl, hlists⟩ := hmembers
      · have hhead : text.head? ≠ some ']' := by
          intro hhead
          obtain ⟨text, rfl⟩ := List.head?_eq_some_iff.mp hhead
          exact hclose (congrArg List.head? (bytesOf_cons_ascii (c := ']') (by decide) _))
        have hlength := hlists.length_le
        obtain ⟨hwithin, hends⟩ := hopened.within_of_lists hhead hlists
        exact ⟨hwithin, by simpa using hlength, hends⟩
      · obtain ⟨text, rfl, rfl⟩ := exists_of_bytesOf_eq_byte (by decide) hbytes
        have hlength := hlists.length_le
        obtain ⟨hwithin, hends⟩ := hopened.within_of_bracket hlists
        rw [hbytes]
        exact ⟨hwithin, by simpa using hlength, hends⟩

/-- Whatever reads classes as they are documented: where a class is understood and its members
are taken alike, the bytes up to its end are counted, and the first byte of each of its
characters is listed. -/
theorem class_agrees {read : List Char → Option (Set Char × List Char)}
    (documented : ∀ text chars rest, read text = some (chars, rest) → ClassReads text chars rest)
    {text rest : List Char} {chars : Set Char} (hread : read text = some (chars, rest))
    (hagreed : ofClass? (bytesOf ('[' :: text)) ≠ none → agreedClass (bytesOf text) = true) :
    ofClass? (bytesOf ('[' :: text)) = none ∨
      ∃ set length, ofClass? (bytesOf ('[' :: text)) = some (set, length) ∧
        (∃ own, own.length = length ∧ bytesOf ('[' :: text) = own ++ bytesOf rest) ∧
        ∀ c ∈ chars, ∀ b, (bytesOf [c]).head? = some b → b ∈ set := by
  cases hclass : ofClass? (bytesOf ('[' :: text)) with
  | none => exact .inl rfl
  | some found =>
      obtain ⟨set, length⟩ := found
      have hagreed := hagreed (by simp [hclass])
      obtain ⟨hwithin, hlength, hrest⟩ :=
        within_of_ofClass? (documented text chars rest hread) hagreed hclass
      refine .inr ⟨set, length, rfl, ⟨(bytesOf ('[' :: text)).take length, ?_, ?_⟩, ?_⟩
      · exact List.length_take_of_le hlength
      · rw [← hrest, List.take_append_drop]
      · exact fun c hc b hb => hwithin c hc b (leads_of_head? hb)

/-- A class with a bracket in front, a range, an escape, an operator and a hyphen at its
end. -/
def mixed : List Char := [']', 'a', '-', 'f', '\\', 'd', '&', '&', 'c', '5', '_', '-', ']', '+']

def mixedChars : Set Char :=
  ({']'} ∪ {c | 'a' ≤ c ∧ c ≤ 'f'} ∪ {c | '0' ≤ c ∧ c ≤ '9'}) ∩
    (∅ ∪ {'c'} ∪ {'5'} ∪ {'_'} ∪ {'-'})

theorem reads_mixed : ClassReads mixed mixedChars ['+'] := by
  refine .plain (by decide) (.bracket ?_)
  refine .item (by decide) (by simp) (.ofRange (by decide) (by decide) (by decide)) ?_
  refine .item (by decide) (by simp) (.alone (by decide)
    (.escape (.digit fun c hc _ => hc)) (by decide)) (.inter ?_)
  refine .item (by decide) (by simp) (.ofChar (by decide) (by decide)) ?_
  refine .item (by decide) (by simp) (.ofChar (by decide) (by decide)) ?_
  refine .item (by decide) (by simp) (.ofChar (by decide) (by decide)) ?_
  exact .item (by decide) (by simp) (.ofChar (by decide) (by decide)) .close

theorem class_agrees_mixed :
    ∃ (read : List Char → Option (Set Char × List Char)) (set : List UInt8),
    (∀ text chars rest, read text = some (chars, rest) → ClassReads text chars rest) ∧
      read mixed = some (mixedChars, ['+']) ∧ 'c' ∈ mixedChars ∧ '5' ∈ mixedChars ∧
      agreedClass (bytesOf mixed) = true ∧ ofClass? (bytesOf ('[' :: mixed)) = some (set, 14) ∧
      ∀ c ∈ mixedChars, ∀ b, (bytesOf [c]).head? = some b → b ∈ set := by
  let read : List Char → Option (Set Char × List Char) := fun text =>
    if text = mixed then some (mixedChars, ['+']) else none
  have documented : ∀ text chars rest, read text = some (chars, rest) →
      ClassReads text chars rest := by
    intro text chars rest h
    obtain ⟨rfl, h⟩ := Option.ite_none_right_eq_some.mp h
    cases h
    exact reads_mixed
  have hread : read mixed = some (mixedChars, ['+']) := if_pos rfl
  have hagreed : agreedClass (bytesOf mixed) = true := by decide +kernel
  have hlength : (ofClass? (bytesOf ('[' :: mixed))).map Prod.snd = some 14 := by
    decide +kernel
  obtain ⟨⟨set, length⟩, hclass, rfl⟩ := Option.map_eq_some_iff.mp hlength
  refine ⟨read, set, documented, hread, ?_, ?_, hagreed, hclass, ?_⟩
  · exact ⟨.inl (.inr (by decide)), by simp⟩
  · exact ⟨.inr (by decide), by simp⟩
  · obtain hnone | ⟨set', length', hclass', -, hwithin⟩ :=
      class_agrees documented hread fun _ => hagreed
    · exact absurd (hclass.symm.trans hnone) (by simp)
    · cases hclass.symm.trans hclass'
      exact hwithin

/-- A class goes from a tab to a carriage return, takes an escaped bracket for the end of a
range, and has a class removed from it. The search lists a hyphen for what is between the
first two, and stops at the first closing bracket of the others, which is not their last
byte. -/
theorem class_disagrees :
    (∃ chars, ClassReads ['\\', 't', '-', '\\', 'r', ']'] chars [] ∧ '\n' ∈ chars ∧
      ofClass? (bytesOf "[\\t-\\r]".toList) = some ([byte '\t', byte '-', byte '\r'], 7) ∧
      byte '\n' ∉ [byte '\t', byte '-', byte '\r']) ∧
    (∃ chars, ClassReads ['+', '-', '\\', ']', ']'] chars [] ∧
      ofClass? (bytesOf "[+-\\]]".toList) = some (span (byte '+') (byte '\\'), 5) ∧
      (bytesOf "[+-\\]]".toList).length = 6) ∧
    ∃ chars, ClassReads ['a', '-', 'c', '-', '-', '[', 'a', ']', ']'] chars [] ∧
      ofClass? (bytesOf "[a-c--[a]]".toList) =
        some (span (byte 'a') (byte 'c') ++ (span (byte '-') (byte '[') ++ [byte 'a']), 9) ∧
      (bytesOf "[a-c--[a]]".toList).length = 10 := by
  have htabs : ClassReads ['\\', 't', '-', '\\', 'r', ']'] (∅ ∪ {c | '\t' ≤ c ∧ c ≤ '\r'}) [] :=
    .members (by decide) (.item (by decide) (by simp) (.range (by decide) (.escape .tab)
      (by decide) (by decide) (.escape .carriageReturn) (by decide)) .close)
  have hbracket : ClassReads ['+', '-', '\\', ']', ']'] (∅ ∪ {c | '+' ≤ c ∧ c ≤ ']'}) [] :=
    .members (by decide) (.item (by decide) (by simp) (.range (by decide) (.char (by decide))
      (by decide) (by decide) (.escape (.punctuation (by decide) (by decide))) (by decide)) .close)
  have hinner : ClassReads ['a', ']', ']'] (∅ ∪ {'a'}) [']'] :=
    .members (by decide) (.item (by decide) (by simp) (.ofChar (by decide) (by decide)) .close)
  have hnested : ClassReads ['a', '-', 'c', '-', '-', '[', 'a', ']', ']']
      ((∅ ∪ {c | 'a' ≤ c ∧ c ≤ 'c'}) \ (∅ ∪ (∅ ∪ {'a'}))) [] :=
    .members (by decide) (.item (by decide) (by simp)
      (.ofRange (by decide) (by decide) (by decide))
      (.diff (.item (by decide) (by simp) (.nested hinner) .close)))
  exact ⟨⟨_, htabs, .inr (by decide), by decide +kernel, by decide⟩,
    ⟨_, hbracket, by decide +kernel, by decide +kernel⟩,
    ⟨_, hnested, by decide +kernel, by decide +kernel⟩⟩

end FirstBytes
end EarleyChart
