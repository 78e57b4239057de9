import Mathlib.Tactic.SplitIfs
import EarleyChart.Text.Quoted

/-!
The quoted strings of a diagram. Inside of a string a backslash takes the next
character with it, and any other quote ends the string. A text that was put
together from plain texts and strings is read back as these strings exactly where
each of them has no quote that ends it early and no backslash that keeps it open.
-/

namespace EarleyChart
namespace Dot

/-- Reads inside of a string: whether the last character takes the next one with it,
or none where a quote ends the string. -/
def scan : Bool → List Char → Option Bool
  | escaped, [] => some escaped
  | escaped, c :: rest =>
      if !escaped && c = '"' then none else scan (!escaped && c = '\\') rest

def Closed (text : String) : Prop := scan false text.toList = some false

/-- A text that does not end the string it is written into. -/
def Quotable (text : String) : Prop := scan false text.toList ≠ none

instance (text : String) : Decidable (Closed text) := inferInstanceAs (Decidable (_ = _))

instance (text : String) : Decidable (Quotable text) := inferInstanceAs (Decidable (_ ≠ _))

/-- The strings of a text from outside of a string, or from inside of one of which a
part was read. -/
def read : Option (Bool × List Char) → List Char → Option (List String)
  | none, [] => some []
  | some _, [] => none
  | none, c :: rest => read (if c = '"' then some (false, []) else none) rest
  | some (escaped, part), c :: rest =>
      if !escaped && c = '"' then (read none rest).map (String.ofList part :: ·)
      else read (some (!escaped && c = '\\', part ++ [c])) rest

/-- The quoted strings of a text in order; none where the last is left open. -/
def strings (text : String) : Option (List String) := read none text.toList

def Inert (text : String) : Prop := ∀ c ∈ text.toList, c ≠ '"' ∧ c ≠ '\\'

instance (text : String) : Decidable (Inert text) :=
  List.decidableBAll _ text.toList

theorem scan_append (escaped : Bool) (a b : List Char) :
    scan escaped (a ++ b) = (scan escaped a).bind (scan · b) := by
  induction a generalizing escaped with
  | nil => rfl
  | cons c a ih =>
      rw [List.cons_append, scan, scan]
      split
      · rfl
      · exact ih _

theorem Inert.append {a b : String} (ha : Inert a) (hb : Inert b) : Inert (a ++ b) := by
  intro c hc
  rw [String.toList_append, List.mem_append] at hc
  exact hc.elim (ha c) (hb c)

theorem scan_of_inert {text : List Char} (h : ∀ c ∈ text, c ≠ '"' ∧ c ≠ '\\') :
    scan false text = some false := by
  induction text with
  | nil => rfl
  | cons c text ih =>
      obtain ⟨hquote, hslash⟩ := h c List.mem_cons_self
      have hnext : (!false && decide (c = '\\')) = false := by simp [hslash]
      rw [scan, if_neg (by simp [hquote]), hnext]
      exact ih fun c hc => h c (List.mem_cons_of_mem _ hc)

theorem Inert.closed {text : String} (h : Inert text) : Closed text := scan_of_inert h

/-- What is read from inside of a string: the rest of its body, up to the quote that
ends it, and then the strings behind it. -/
theorem read_inside_iff (escaped : Bool) (part text : List Char) (all : List String) :
    read (some (escaped, part)) text = some all ↔
      ∃ body rest others, text = body ++ '"' :: rest ∧ scan escaped body = some false ∧
        read none rest = some others ∧ all = String.ofList (part ++ body) :: others := by
  induction text generalizing escaped part with
  | nil => simp [read]
  | cons c text ih =>
      rw [read]
      by_cases hend : (!escaped && decide (c = '"')) = true
      · rw [if_pos hend, Option.map_eq_some_iff]
        obtain ⟨hfresh, rfl⟩ : escaped = false ∧ c = '"' := by simpa using hend
        constructor
        · rintro ⟨others, hread, rfl⟩
          exact ⟨[], text, others, rfl, congrArg some hfresh, hread, by rw [List.append_nil]⟩
        · rintro ⟨body, rest, others, htext, hscan, hread, rfl⟩
          cases body with
          | nil =>
              obtain rfl := (List.cons.inj htext).2
              exact ⟨others, hread, by rw [List.append_nil]⟩
          | cons first body =>
              obtain rfl := (List.cons.inj htext).1
              rw [scan, if_pos hend] at hscan
              contradiction
      · rw [if_neg hend, ih]
        constructor
        · rintro ⟨body, rest, others, rfl, hscan, hread, rfl⟩
          refine ⟨c :: body, rest, others, rfl, ?_, hread, by rw [List.append_cons part c body]⟩
          rw [scan, if_neg hend, hscan]
        · rintro ⟨body, rest, others, htext, hscan, hread, rfl⟩
          cases body with
          | nil =>
              obtain rfl := (List.cons.inj htext).1
              obtain rfl : escaped = true := by simpa using hend
              contradiction
          | cons first body =>
              obtain ⟨rfl, rfl⟩ := List.cons.inj htext
              rw [scan, if_neg hend] at hscan
              exact ⟨body, rest, others, rfl, hscan, hread, by rw [List.append_cons part c body]⟩

/-- Wherever the text stands outside of a string, it is read back as these strings
just where each of them is closed. -/
def Shows (text : String) (shown : List String) : Prop :=
  ∀ rest others, read none (text.toList ++ rest) = some (shown ++ others) ↔
    (∀ body ∈ shown, Closed body) ∧ read none rest = some others

theorem Shows.strings_iff {text : String} {shown : List String} (h : Shows text shown) :
    strings text = some shown ↔ ∀ body ∈ shown, Closed body := by
  simpa [strings, read] using h [] []

theorem Shows.append {a b : String} {shown more : List String} (ha : Shows a shown)
    (hb : Shows b more) : Shows (a ++ b) (shown ++ more) := by
  intro rest others
  rw [String.toList_append, List.append_assoc, List.append_assoc, ha, hb, List.forall_mem_append,
    and_assoc]

theorem Shows.join {α : Type} {items : List α} {text : α → String} {shown : α → List String}
    (h : ∀ item ∈ items, Shows (text item) (shown item)) :
    Shows (String.join (items.map text)) (items.flatMap shown) := by
  induction items with
  | nil => exact fun rest others => by simp
  | cons item items ih =>
      rw [List.map_cons, String.join_cons, List.flatMap_cons]
      exact (h item List.mem_cons_self).append (ih fun other hother =>
        h other (List.mem_cons_of_mem _ hother))

theorem Shows.join_map {α : Type} {items : List α} {text body : α → String}
    (h : ∀ item ∈ items, Shows (text item) [body item]) :
    Shows (String.join (items.map text)) (items.map body) := by
  rw [List.map_eq_flatMap (f := body)]
  exact Shows.join h

theorem read_of_inert {text : List Char} (h : ∀ c ∈ text, c ≠ '"' ∧ c ≠ '\\') (rest : List Char) :
    read none (text ++ rest) = read none rest := by
  induction text with
  | nil => rfl
  | cons c text ih =>
      rw [List.cons_append, read, if_neg (h c List.mem_cons_self).1]
      exact ih fun c hc => h c (List.mem_cons_of_mem _ hc)

theorem Inert.shows {text : String} (h : Inert text) : Shows text [] := by
  intro rest others
  rw [read_of_inert h, List.nil_append]
  simp

theorem Shows.append_inert {a b : String} {shown : List String} (ha : Shows a shown)
    (hb : Inert b) : Shows (a ++ b) shown := by
  simpa using ha.append hb.shows

theorem Inert.append_shows {a b : String} {shown : List String} (ha : Inert a)
    (hb : Shows b shown) : Shows (a ++ b) shown := ha.shows.append hb

/-- A text between quotes. -/
theorem shows_quotes (body : String) : Shows ("\"" ++ body ++ "\"") [body] := by
  intro rest others
  have hlist : ("\"" ++ body ++ "\"").toList ++ rest = '"' :: (body.toList ++ '"' :: rest) := by
    simp [String.toList_append]
  rw [hlist, read, if_pos rfl, read_inside_iff]
  simp only [List.nil_append, List.cons.injEq, List.cons_append, List.mem_singleton, forall_eq]
  constructor
  · rintro ⟨body', rest', others', htext, hscan, hread, hbody, rfl⟩
    obtain rfl : body' = body.toList := by rw [hbody, String.toList_ofList]
    obtain rfl := (List.cons.inj (List.append_cancel_left htext)).2
    exact ⟨hscan, hread⟩
  · rintro ⟨hclosed, hread⟩
    exact ⟨body.toList, rest, others, rfl, hclosed, hread, String.ofList_toList.symm, rfl⟩

/-- What reads the same after a backslash. -/
def Resets (text : String) : Prop := scan true text.toList = scan false text.toList

instance (text : String) : Decidable (Resets text) := inferInstanceAs (Decidable (_ = _))

theorem Resets.append {text : String} (h : Resets text) (rest : String) :
    Resets (text ++ rest) := by
  rw [Resets, String.toList_append, scan_append, scan_append, show scan true text.toList = _ from h]

theorem Inert.closed_append_iff {text : String} (h : Inert text) (rest : String) :
    Closed (text ++ rest) ↔ Closed rest := by
  rw [Closed, Closed, String.toList_append, scan_append, scan_of_inert h, Option.bind_some]

/-- A backslash at the end of the text takes a character of the rest with it, and is
of no consequence there. -/
theorem Resets.closed_append_iff {rest : String} (h : Resets rest) (text : String) :
    Closed (text ++ rest) ↔ Quotable text ∧ Closed rest := by
  rw [Closed, Closed, Quotable, String.toList_append, scan_append]
  cases scan false text.toList with
  | none => simp
  | some escaped => cases escaped <;> simp [show scan true rest.toList = _ from h]

theorem digitChar_inert : ∀ n < 16, n.digitChar ≠ '"' ∧ n.digitChar ≠ '\\' := by decide

theorem toDigits_inert {base : Nat} (hbase : 1 < base) (hle : base ≤ 16) (n : Nat) :
    ∀ c ∈ Nat.toDigits base n, c ≠ '"' ∧ c ≠ '\\' := by
  have hdigit (m : Nat) : (m % base).digitChar ≠ '"' ∧ (m % base).digitChar ≠ '\\' :=
    digitChar_inert _ (Nat.lt_of_lt_of_le (Nat.mod_lt m (by omega)) hle)
  induction n using Nat.strongRecOn with
  | ind n ih =>
      intro c hc
      rw [Nat.toDigits_eq_if hbase] at hc
      split at hc
      · next hlt =>
        rw [← Nat.mod_eq_of_lt hlt] at hc
        exact List.mem_singleton.mp hc ▸ hdigit n
      · next hlt =>
        rcases List.mem_append.mp hc with hc | hc
        · exact ih _ (Nat.div_lt_self (by omega) hbase) c hc
        · exact List.mem_singleton.mp hc ▸ hdigit n

theorem inert_toString (n : Nat) : Inert (toString n) := by
  rw [Inert, Nat.toString_eq_ofList_toDigits, String.toList_ofList]
  exact toDigits_inert (by decide) (by decide) n

def escaped (text : String) : String := String.ofList (text.toList.flatMap (escapeChar '"'))

theorem quoted_eq (text : String) : quoted text = "\"" ++ escaped text ++ "\"" := by
  rw [← String.toList_inj, quoted, quoteWith, escaped]
  simp [String.toList_append]

theorem scan_escapeChar (c : Char) : scan false (escapeChar '"' c) = some false := by
  rw [escapeChar]
  split
  · rfl
  split
  · rfl
  split
  · rfl
  split
  · rfl
  split
  · next hself => rcases hself with rfl | rfl <;> rfl
  · next hself =>
    split
    · exact scan_of_inert (by simpa [not_or, and_comm] using hself)
    · rw [scan_append, scan_append, show scan false ['\\', 'u', '\x7b'] = some false by rfl,
        Option.bind_some, hexCode, scan_of_inert (toDigits_inert (by decide) (by decide) _)]
      rfl

theorem escaped_closed (text : String) : Closed (escaped text) := by
  rw [Closed, escaped, String.toList_ofList]
  induction text.toList with
  | nil => rfl
  | cons c text ih =>
      rw [List.flatMap_cons, scan_append, scan_escapeChar, Option.bind_some, ih]

end Dot
end EarleyChart
