import EarleyChart.Proofs.Lexer.Dispatch
import EarleyChart.Proofs.Lexer.Tiling

/-!
Which match a lexer takes. Of the definitions that match at the beginning of a text one
is preferred to all others: the longest match, of these the highest priority, and of
these the first definition. The definitions are visited in another order, but the best
match so far does not depend on it.
-/

namespace EarleyChart
open FirstBytes

namespace LexMatch

variable {a b c : LexMatch}

/-- One match is preferred to another: it is longer, or as long and of higher priority, or
as long and of the same priority, and its definition comes first. -/
def Preferred (a b : LexMatch) : Prop :=
  b.length < a.length ∨ a.length = b.length ∧
    (b.rule.priority < a.rule.priority ∨
      a.rule.priority = b.rule.priority ∧ a.index < b.index)

theorem better_iff : a.better b = true ↔ a.Preferred b := by
  simp [better, Preferred]

theorem Preferred.asymm (h : a.Preferred b) : ¬ b.Preferred a := by
  simp only [Preferred] at h ⊢
  omega

theorem not_preferred_trans (h : ¬ a.Preferred b) (h' : ¬ b.Preferred c) :
    ¬ a.Preferred c := by
  simp only [Preferred] at h h' ⊢
  omega

/-- Of matches of two definitions one is preferred. -/
theorem preferred_of_not (hindex : b.index ≠ a.index) (h : ¬ b.Preferred a) :
    a.Preferred b := by
  simp only [Preferred] at h ⊢
  omega

/-- The better of two matches is not worse than either. -/
theorem best_some (old new : LexMatch) : ∃ kept, best (some old) new = some kept ∧
    (kept = old ∨ kept = new) ∧ ¬ old.Preferred kept ∧ ¬ new.Preferred kept := by
  have hself : ∀ m : LexMatch, ¬ m.Preferred m := fun m h => h.asymm h
  simp only [best]
  split
  · next hbetter => exact ⟨new, rfl, .inr rfl, (better_iff.mp hbetter).asymm, hself new⟩
  · next hbetter => exact ⟨old, rfl, .inl rfl, hself old, mt better_iff.mpr hbetter⟩

/-- The best of a match and of those visited after it is one of them, and no other one is
preferred to it. -/
theorem foldl_best_some (visited : List LexMatch) (first : LexMatch) :
    ∃ found, visited.foldl best (some first) = some found ∧ found ∈ first :: visited ∧
      ∀ m ∈ first :: visited, ¬ m.Preferred found := by
  induction visited generalizing first with
  | nil => exact ⟨first, rfl, List.mem_singleton_self first, by simpa using fun h => h.asymm h⟩
  | cons next visited ih =>
      obtain ⟨kept, hkept, hone, hold, hnew⟩ := best_some first next
      obtain ⟨found, hfound, hmem, hbest⟩ := ih kept
      have hbeaten := hbest kept List.mem_cons_self
      refine ⟨found, by rw [List.foldl_cons, hkept, hfound], ?_, fun m hm => ?_⟩
      · rcases List.mem_cons.mp hmem with rfl | hmem
        · rcases hone with rfl | rfl <;> simp
        · simp [hmem]
      · rcases List.mem_cons.mp hm with rfl | hm
        · exact not_preferred_trans hold hbeaten
        · rcases List.mem_cons.mp hm with rfl | hm
          · exact not_preferred_trans hnew hbeaten
          · exact hbest m (List.mem_cons_of_mem kept hm)

end LexMatch

namespace RegexLexer

variable {lexer : RegexLexer} {text : List Char} {m found : LexMatch}

/-- A definition of a lexer matches at the beginning of a text, and at least one character. -/
structure Matches (lexer : RegexLexer) (text : List Char) (m : LexMatch) : Prop where
  rule : lexer.rules[m.index]? = some m.rule
  length : m.rule.matchLength? text = some m.length

/-- A match that is preferred to the matches of all other definitions. -/
structure IsBest (lexer : RegexLexer) (text : List Char) (m : LexMatch) : Prop extends
    lexer.Matches text m where
  preferred : ∀ other, lexer.Matches text other → other.index ≠ m.index → m.Preferred other

/-- Every definition that matches is tried at the first byte of the text. -/
def Dispatches (lexer : RegexLexer) (text : List Char) : Prop :=
  ∀ b m, (bytesOf text).head? = some b → lexer.Matches text m →
    (m.rule, m.index) ∈ lexer.candidates b

/-- A definition has one match at most. -/
theorem Matches.eq_of_index (h : lexer.Matches text m) (h' : lexer.Matches text found)
    (hindex : m.index = found.index) : m = found := by
  obtain ⟨index, rule, length⟩ := m
  obtain ⟨index', rule', length'⟩ := found
  obtain rfl : index = index' := hindex
  obtain rfl := Option.some.inj (h.rule.symm.trans h'.rule)
  obtain rfl := Option.some.inj (h.length.symm.trans h'.length)
  rfl

theorem IsBest.unique (h : lexer.IsBest text m) (h' : lexer.IsBest text found) : m = found := by
  by_contra hne
  have hindex : m.index ≠ found.index := fun heq => hne (h.toMatches.eq_of_index h'.toMatches heq)
  exact (h.preferred found h'.toMatches hindex.symm).asymm (h'.preferred m h.toMatches hindex)

/-- Matches take at least one character. -/
theorem Matches.ne_nil (h : lexer.Matches text m) : text ≠ [] := by
  rintro rfl
  obtain ⟨hend, hpos⟩ := Option.filter_eq_some_iff.mp h.length
  have hle := m.rule.matcher.matchEnd_le hend
  exact absurd (of_decide_eq_true hpos) (Nat.not_lt_of_le hle)

def matchesAmong (text : List Char) (visited : List (LexRule × Nat)) : List LexMatch :=
  visited.filterMap fun (rule, index) =>
    (rule.matchLength? text).map fun length => ⟨index, rule, length⟩

def bestAmong (text : List Char) (visited : List (LexRule × Nat)) : Option LexMatch :=
  (matchesAmong text visited).foldl LexMatch.best none

theorem mem_matchesAmong (visited : List (LexRule × Nat)) : m ∈ matchesAmong text visited ↔
    (m.rule, m.index) ∈ visited ∧ m.rule.matchLength? text = some m.length := by
  simp only [matchesAmong, List.mem_filterMap, Option.map_eq_some_iff]
  constructor
  · rintro ⟨⟨rule, index⟩, hmem, length, hlength, rfl⟩
    exact ⟨hmem, hlength⟩
  · exact fun ⟨hmem, hlength⟩ => ⟨_, hmem, m.length, hlength, rfl⟩

theorem longestMatch_nil (lexer : RegexLexer) : lexer.longestMatch [] = none := rfl

theorem longestMatch_eq {b : UInt8} (h : (bytesOf text).head? = some b) :
    lexer.longestMatch text = bestAmong text (lexer.candidates b) := by
  cases text with
  | nil => contradiction
  | cons x text =>
      obtain ⟨first, more, hencode⟩ := List.exists_cons_of_ne_nil (encode_ne_nil x)
      rw [bytesOf_cons, hencode] at h
      obtain rfl := Option.some.inj h
      have hfirst : bytesOf ((x :: text).take 1) = first :: more := by
        rw [List.take_succ_cons, List.take_zero, bytesOf_cons, hencode]
        exact List.append_nil _
      rw [longestMatch, hfirst]
      rfl

theorem exists_head?_bytesOf (h : text ≠ []) : ∃ b, (bytesOf text).head? = some b := by
  obtain ⟨x, rest, rfl⟩ := List.exists_cons_of_ne_nil h
  obtain ⟨first, more, hencode⟩ := List.exists_cons_of_ne_nil (encode_ne_nil x)
  exact ⟨first, by rw [bytesOf_cons, hencode]; rfl⟩

/-- The order of the visits does not matter: nothing is found if no definition that is visited
matches, and else the match that is preferred to those of all others. -/
theorem bestAmong_spec {visited : List (LexRule × Nat)}
    (hvisited : ∀ m, m ∈ matchesAmong text visited ↔ lexer.Matches text m) :
    (bestAmong text visited = none ↔ ∀ m, ¬ lexer.Matches text m) ∧
      ∀ found, bestAmong text visited = some found ↔ lexer.IsBest text found := by
  simp only [bestAmong]
  cases hmatches : matchesAmong text visited with
  | nil =>
      have hnone : ∀ m, ¬ lexer.Matches text m := fun m hm => by
        have hmem := (hvisited m).mpr hm
        rw [hmatches] at hmem
        contradiction
      exact ⟨⟨fun _ => hnone, fun _ => rfl⟩,
        fun found => ⟨fun h => by contradiction, fun h => absurd h.toMatches (hnone found)⟩⟩
  | cons first more =>
      simp only [hmatches] at hvisited
      obtain ⟨best, hbest, hmem, hpreferred⟩ := LexMatch.foldl_best_some more first
      have hfold : (first :: more).foldl LexMatch.best none = some best := hbest
      have hisBest : lexer.IsBest text best :=
        ⟨(hvisited best).mp hmem, fun other hother hindex =>
          LexMatch.preferred_of_not hindex (hpreferred other ((hvisited other).mpr hother))⟩
      rw [hfold]
      refine ⟨⟨fun h => by contradiction, fun h => absurd hisBest.toMatches (h best)⟩,
        fun found => ⟨?_, fun h => congrArg some (hisBest.unique h)⟩⟩
      rintro ⟨⟩
      exact hisBest

/-- Where every definition that matches is tried, the matches of those that are tried are all
the matches, in whatever order they are visited. -/
theorem Dispatches.mem_matchesAmong_iff (h : lexer.Dispatches text) {b : UInt8}
    (hb : (bytesOf text).head? = some b) {visited : List (LexRule × Nat)}
    (hvisited : ∀ tried, tried ∈ visited ↔ tried ∈ lexer.candidates b) (m : LexMatch) :
    m ∈ matchesAmong text visited ↔ lexer.Matches text m := by
  rw [mem_matchesAmong, hvisited]
  constructor
  · exact fun ⟨hmem, hlength⟩ => ⟨(mem_candidates_iff.mp hmem).1, hlength⟩
  · exact fun hm => ⟨h b m hb hm, hm.length⟩

/-- A lexer that tries every definition that matches takes no match if there is none, and else
the one that is preferred to all others: the longest, of these the one of the highest priority,
and of these that of the first definition. It would take the same in any other order of the
definitions it tries. -/
theorem longestMatch_spec (lexer : RegexLexer) (text : List Char) (h : lexer.Dispatches text) :
    (lexer.longestMatch text = none ↔ ∀ m, ¬ lexer.Matches text m) ∧
      (∀ found, lexer.longestMatch text = some found ↔ lexer.IsBest text found) ∧
      ∀ b visited, (bytesOf text).head? = some b →
        (∀ tried, tried ∈ visited ↔ tried ∈ lexer.candidates b) →
        bestAmong text visited = lexer.longestMatch text := by
  by_cases hnil : text = []
  · subst hnil
    rw [longestMatch_nil]
    exact ⟨⟨fun _ m hm => hm.ne_nil rfl, fun _ => rfl⟩,
      fun found => ⟨fun hfound => by contradiction, fun hbest => absurd rfl hbest.ne_nil⟩,
      fun b visited hb => by contradiction⟩
  · obtain ⟨b, hb⟩ := exists_head?_bytesOf hnil
    have hspec := bestAmong_spec (h.mem_matchesAmong_iff hb fun tried => Iff.rfl)
    rw [← longestMatch_eq hb] at hspec
    refine ⟨hspec.1, hspec.2, fun b' visited hb' hvisited => ?_⟩
    have hany := bestAmong_spec (h.mem_matchesAmong_iff hb' hvisited)
    cases hfound : lexer.longestMatch text with
    | none => exact hany.1.mpr (hspec.1.mp hfound)
    | some found => exact (hany.2 found).mpr ((hspec.2 found).mp hfound)

/-- Any character, a word, and a keyword of higher priority. The first definition is tried last,
whatever the text begins with. -/
def wordLexer : RegexLexer where
  rules := [
    ⟨"other", .any, Pattern.matcher (.seq (.look .textStart)
      (.chars (.range '\x00' '\x7f') true)), 0, some 2⟩,
    ⟨"word", .among (span (byte 'a') (byte 'z')),
      Pattern.matcher (.seq (.look .textStart) (.rep 1 none true
        (.chars (.range 'a' 'z') true))), 0, some 0⟩,
    ⟨"if", .among [byte 'i'], Pattern.matcher (.seq (.look .textStart) (.literal ['i', 'f'])), 1,
      some 1⟩]

theorem longestMatch_spec_keyword : wordLexer.Dispatches ['i', 'f', ' '] ∧
    ∃ found, wordLexer.longestMatch ['i', 'f', ' '] = some found ∧
      (found.index, found.length) = (2, 2) ∧ wordLexer.IsBest ['i', 'f', ' '] found := by
  have hdispatches : wordLexer.Dispatches ['i', 'f', ' '] := by
    intro b m hb hm
    obtain rfl : byte 'i' = b := Option.some.inj hb
    have hallows : ∀ rule ∈ wordLexer.rules, rule.first.allows (byte 'i') = true := by decide
    exact mem_candidates_iff.mpr ⟨hm.rule, hallows m.rule (List.mem_of_getElem? hm.rule)⟩
  have hfound : (wordLexer.longestMatch ['i', 'f', ' ']).map (fun m => (m.index, m.length)) =
      some (2, 2) := by decide +kernel
  obtain ⟨found, heq, hplace⟩ := Option.map_eq_some_iff.mp hfound
  exact ⟨hdispatches, found, heq, hplace,
    ((longestMatch_spec wordLexer _ hdispatches).2.1 found).mp heq⟩

end RegexLexer
end EarleyChart
