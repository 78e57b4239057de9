import EarleyChart.Token.Stream
import Mathlib.Data.List.Induction
import Mathlib.Data.List.TakeWhile

/-!
Tracked positions are the positions of byte offsets. Moving over a text piece by piece
comes to the line, the column and the offset that one look at the text before the place
gives, whatever the pieces are. The tokens cut from a text at white space, or one to a
character, carry such positions.
-/

namespace EarleyChart

theorem lastLine_concat (text : List Char) (c : Char) :
    lastLine (text ++ [c]) = if c = '\n' then [] else lastLine text ++ [c] := by
  rw [lastLine, List.reverse_append, List.reverse_singleton, List.singleton_append,
    List.takeWhile_cons]
  by_cases hc : c = '\n'
  · simp [hc]
  · simp [hc, lastLine]

/-- The size of a text is below this number, as it fits into a word with a sign. -/
def textLimit : Nat := 0x8000000000000000

namespace Location

/-- The position of a byte offset, by one look at the text before it. -/
def ofOffset (source : List Char) (offset : Nat) : Location :=
  ⟨(lineColumn source offset).1, (lineColumn source offset).2, offset⟩

theorem advance_concat (location : Location) (text : List Char) (c : Char) :
    location.advance (text ++ [c]) = (location.advance text).step c := by
  rw [advance_append, advance_cons, advance_nil]

/-- Moving over a text counts its line breaks. The column counts the characters after the last
one, or goes on if there is none. -/
theorem advance_eq (location : Location) (text : List Char) : location.advance text =
    ⟨location.line + text.count '\n',
      if '\n' ∈ text then 1 + (lastLine text).length else location.column + text.length,
      location.offset + byteLength text⟩ := by
  induction text using List.reverseRecOn with
  | nil => rfl
  | append_singleton text c ih =>
      rw [advance_concat, ih, step, lastLine_concat]
      by_cases hc : c = '\n'
      · simp [hc, Nat.add_assoc]
      · by_cases hmem : '\n' ∈ text
        · simp [hc, Ne.symm hc, hmem, Nat.add_assoc]
        · simp [hc, Ne.symm hc, hmem, Nat.add_assoc]

theorem advance_start (text : List Char) : start.advance text =
    ⟨1 + text.count '\n', 1 + (lastLine text).length, byteLength text⟩ := by
  have hline : '\n' ∉ text → lastLine text = text := fun h => by
    rw [lastLine, List.takeWhile_eq_self_iff.mpr, List.reverse_reverse]
    exact fun c hc => bne_iff_ne.mpr fun heq => h (heq ▸ List.mem_reverse.mp hc)
  rw [advance_eq]
  split
  · simp [start]
  · next h => simp [start, hline h]

@[simp] theorem offset_advance_start (text : List Char) :
    (start.advance text).offset = byteLength text := by
  rw [advance_start]

/-- Tracking and one look at the text agree at every place of a text. -/
theorem ofOffset_append (before after : List Char) :
    ofOffset (before ++ after) (byteLength before) = start.advance before := by
  rw [advance_start, ofOffset, lineColumn, cutAt_append]
  rfl

theorem wrap_advance_start {text : List Char} (h : byteLength text < textLimit) :
    (start.advance text).wrap = start.advance text := by
  have hlength := length_le_byteLength text
  have hcount := List.count_le_length (a := '\n') (l := text)
  have hline : (lastLine text).length ≤ text.length := by
    rw [lastLine, List.length_reverse]
    exact le_of_le_of_eq (List.takeWhile_prefix _).length_le List.length_reverse
  have hsize : UInt64.size = 2 * textLimit := rfl
  have hlimit : 0 < textLimit := Nat.lt_of_le_of_lt (Nat.zero_le _) h
  rw [advance_start]
  simp only [wrap, mk.injEq]
  exact ⟨Nat.mod_eq_of_lt (by omega), Nat.mod_eq_of_lt (by omega), Nat.mod_eq_of_lt (by omega)⟩

/-- A location comes from moving over the source up to a place where it goes on with a text. -/
def Tracks (location : Location) (source text : List Char) : Prop :=
  ∃ before after, source = before ++ (text ++ after) ∧ location = start.advance before

/-- The source goes on with a text at the byte offset of a location, and the line and the
column are those that are looked up for this offset. -/
structure Marks (location : Location) (source text : List Char) : Prop where
  text : ∃ before after, source = before ++ (text ++ after) ∧
    byteLength before = location.offset
  place : lineColumn source location.offset = (location.line, location.column)

theorem Tracks.marks {location : Location} {source text : List Char}
    (h : location.Tracks source text) : location.Marks source text := by
  obtain ⟨before, after, rfl, rfl⟩ := h
  refine ⟨⟨before, after, rfl, (offset_advance_start before).symm⟩, ?_⟩
  have hplace := ofOffset_append before (text ++ after)
  rw [offset_advance_start, ← hplace]
  rfl

end Location

structure Token.Placed (token : Token) (source : List Char) : Prop extends
    token.location.Marks source token.text.toList where
  stop : byteLength source < textLimit → token.endLocation =
    .ofOffset source (token.location.offset + byteLength token.text.toList)

theorem Token.endLocation_of_tracks {token : Token} {before : List Char}
    (h : token.location = .advance .start before)
    (hsize : byteLength (before ++ token.text.toList) < textLimit) :
    token.endLocation = .advance .start (before ++ token.text.toList) := by
  rw [Token.endLocation, h, ← Location.advance_append, Location.wrap_advance_start hsize]

theorem Token.placed_of_tracks {token : Token} {source : List Char}
    (h : token.location.Tracks source token.text.toList) : token.Placed source := by
  refine ⟨h.marks, fun hsize => ?_⟩
  obtain ⟨before, after, rfl, hlocation⟩ := h
  rw [← List.append_assoc, byteLength_append] at hsize
  rw [Token.endLocation_of_tracks hlocation (Nat.lt_of_le_of_lt (Nat.le_add_right _ _) hsize),
    hlocation, Location.offset_advance_start, ← byteLength_append, ← List.append_assoc,
    Location.ofOffset_append]

namespace TokenStream

variable {s : Symbols} {name : String} {location begun : Location}

theorem mem_of_tokensNamed {pieces : List (String × Location)} {tokens : List Token}
    {token : Token} (h : tokensNamed s pieces = .ok tokens) (htoken : token ∈ tokens) :
    (token.text, token.location) ∈ pieces := by
  induction pieces generalizing tokens with
  | nil =>
      cases h
      contradiction
  | cons piece pieces ih =>
      obtain ⟨name, location⟩ := piece
      rw [tokensNamed] at h
      cases hkind : s.kindNamed name with
      | error error =>
          rw [hkind] at h
          contradiction
      | ok kind =>
          cases hrest : tokensNamed s pieces with
          | error error =>
              rw [hkind, hrest] at h
              contradiction
          | ok rest =>
              rw [hkind, hrest] at h
              cases h
              rcases List.mem_cons.mp htoken with rfl | hmem
              · exact List.mem_cons_self
              · exact List.mem_cons_of_mem _ (ih hrest hmem)

/-- The location runs along with the text that is left. -/
theorem tracks_of_mem_charsFrom {front rest : List Char}
    (h : (name, location) ∈ charsFrom (Location.start.advance front) rest) :
    location.Tracks (front ++ rest) name.toList := by
  induction rest generalizing front with
  | nil => contradiction
  | cons c rest ih =>
      have hsource : front ++ c :: rest = front ++ [c] ++ rest := List.append_cons front c rest
      rw [charsFrom, ← Location.advance_concat] at h
      split at h
      · rw [hsource]
        exact ih h
      · rcases List.mem_cons.mp h with heq | h
        · obtain ⟨rfl, rfl⟩ := Prod.mk.inj heq
          exact ⟨front, rest, by simp, rfl⟩
        · rw [hsource]
          exact ih h

/-- The words of a text with their positions. Each of them is found by a search for its first
character and a search for the next blank. -/
def wordsOf (location : Location) (text : List Char) : List (String × Location) :=
  match _hrest : text.dropWhile isBlank with
  | [] => []
  | c :: rest =>
      let location := location.advance (text.takeWhile isBlank)
      let word := c :: rest.takeWhile (!isBlank ·)
      (String.ofList word, location) ::
        wordsOf (location.advance word) (rest.dropWhile (!isBlank ·))
termination_by text.length
decreasing_by
  have hle := (List.dropWhile_suffix (l := text) isBlank).length_le
  have hle' := (List.dropWhile_suffix (l := rest) (!isBlank ·)).length_le
  rw [_hrest, List.length_cons] at hle
  omega

variable {word text : List Char}

theorem wordsFrom_blanks (h : ∀ c ∈ word, isBlank c = true) :
    wordsFrom location begun [] (word ++ text) = wordsFrom (location.advance word) begun [] text := by
  induction word generalizing location with
  | nil => rfl
  | cons c word ih =>
      rw [List.cons_append, wordsFrom, if_pos (h c List.mem_cons_self), if_pos List.isEmpty_nil,
        ih fun d hd => h d (.tail _ hd)]
      rfl

/-- A word that is begun ends in front of the next blank. -/
theorem wordsFrom_begun (hword : word ≠ []) :
    wordsFrom location begun word text =
      (String.ofList (word.reverse ++ text.takeWhile (!isBlank ·)), begun) ::
        wordsFrom (location.advance (text.takeWhile (!isBlank ·))) begun []
          (text.dropWhile (!isBlank ·)) := by
  have hempty : ∀ {word : List Char}, word ≠ [] → ¬ word.isEmpty = true := fun h heq =>
    h (List.isEmpty_iff.mp heq)
  induction text generalizing location word with
  | nil => simp [wordsFrom, hword]
  | cons c text ih =>
      rw [wordsFrom]
      by_cases hc : isBlank c = true
      · rw [if_pos hc, if_neg (hempty hword)]
        simp [hc, wordsFrom]
      · rw [if_neg hc, if_neg (hempty hword), ih (List.cons_ne_nil _ _)]
        simp [hc]

/-- Reading a text character by character cuts it into the words that the searches find. -/
theorem wordsFrom_eq (location begun : Location) (text : List Char) :
    wordsFrom location begun [] text = wordsOf location text := by
  fun_induction wordsOf location text generalizing begun with
  | case1 location text hrest =>
      have hblank : ∀ c ∈ text, isBlank c = true := List.dropWhile_eq_nil_iff.mp hrest
      rw [← List.append_nil text, wordsFrom_blanks hblank]
      rfl
  | case2 location text c rest hrest location' word ih =>
      have hblank : ∀ d ∈ text.takeWhile isBlank, isBlank d = true :=
        fun d => List.mem_takeWhile_imp
      have hhead := List.head?_dropWhile_not isBlank text
      rw [hrest] at hhead
      have hc : ¬ isBlank c = true := Bool.not_eq_true _ ▸ hhead
      have htext : text.takeWhile isBlank ++ text.dropWhile isBlank = text :=
        List.takeWhile_append_dropWhile
      rw [← ih location', ← htext, wordsFrom_blanks hblank, hrest, wordsFrom, if_neg hc,
        if_pos List.isEmpty_nil, wordsFrom_begun (List.cons_ne_nil _ _)]
      rfl

/-- The word that is being read ends where the rest of the text begins, and it was begun after
the text before it. -/
theorem tracks_of_mem_wordsFrom {front word rest : List Char}
    (h : (name, location) ∈
      wordsFrom (Location.start.advance (front ++ word.reverse)) begun word rest)
    (hbegun : word ≠ [] → begun = Location.start.advance front) :
    location.Tracks (front ++ (word.reverse ++ rest)) name.toList := by
  induction rest generalizing front word begun with
  | nil =>
      rw [wordsFrom] at h
      split at h
      · contradiction
      · next hword =>
          obtain ⟨rfl, rfl⟩ := Prod.mk.inj (List.mem_singleton.mp h)
          rw [List.isEmpty_iff] at hword
          exact ⟨front, [], by simp, hbegun hword⟩
  | cons c rest ih =>
      rw [wordsFrom, ← Location.advance_concat] at h
      split at h
      · -- a blank character ends the word
        have hpassed (h : (name, location) ∈
            wordsFrom (.advance .start (front ++ word.reverse ++ [c])) begun [] rest) :
            location.Tracks (front ++ (word.reverse ++ c :: rest)) name.toList := by
          have hrest : location.Tracks (front ++ word.reverse ++ [c] ++ ([].reverse ++ rest))
              name.toList :=
            ih (by rwa [List.reverse_nil, List.append_nil]) (fun hword => absurd rfl hword)
          simpa using hrest
        split at h
        · exact hpassed h
        · next hword =>
            rcases List.mem_cons.mp h with heq | h
            · obtain ⟨rfl, rfl⟩ := Prod.mk.inj heq
              rw [List.isEmpty_iff] at hword
              exact ⟨front, c :: rest, by simp, hbegun hword⟩
            · exact hpassed h
      · have hword : front ++ word.reverse ++ [c] = front ++ (c :: word).reverse := by simp
        rw [hword] at h
        have hrest := ih h fun _ => ?_
        · simpa using hrest
        · split
          · next hnil => rw [List.isEmpty_iff.mp hnil, List.reverse_nil, List.append_nil]
          · next hnil => exact hbegun (mt List.isEmpty_iff.mpr hnil)

/-- Tokens made of pieces of a source stand in it where they say. -/
theorem placed_of_tokensNamed {source : List Char} {pieces : List (String × Location)}
    (hpieces : ∀ name location, (name, location) ∈ pieces → location.Tracks source name.toList)
    {stream : TokenStream} (h : (tokensNamed s pieces).map ofList = .ok stream) {token : Token}
    (htoken : token ∈ stream.all) : token.Placed source := by
  cases htokens : tokensNamed s pieces with
  | error error =>
      rw [htokens] at h
      contradiction
  | ok tokens =>
      rw [htokens] at h
      cases h
      exact Token.placed_of_tracks (hpieces _ _ (mem_of_tokensNamed htokens htoken))

theorem placed_ofNames {input : String} {stream : TokenStream}
    (h : ofNames s input = .ok stream) {token : Token} (htoken : token ∈ stream.all) :
    token.Placed input.toList := by
  refine placed_of_tokensNamed (fun name location hmem => ?_) h htoken
  have htracks : location.Tracks ([] ++ ([].reverse ++ input.toList)) name.toList :=
    tracks_of_mem_wordsFrom hmem fun hword => absurd rfl hword
  exact htracks

theorem placed_ofChars {input : String} {stream : TokenStream}
    (h : ofChars s input = .ok stream) {token : Token} (htoken : token ∈ stream.all) :
    token.Placed input.toList := by
  refine placed_of_tokensNamed (fun name location hmem => ?_) h htoken
  have htracks : location.Tracks ([] ++ input.toList) name.toList := tracks_of_mem_charsFrom hmem
  exact htracks

end TokenStream
end EarleyChart
