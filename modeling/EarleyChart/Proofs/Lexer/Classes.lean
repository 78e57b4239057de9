import EarleyChart.Proofs.Lexer.ClassSyntax
import EarleyChart.Proofs.Lexer.Members
import Mathlib.Data.Set.Insert

/-!
Classes whose members the search for first bytes takes as they are documented. There is an
escape, a range or a character wherever the search lists one, and an operator where the
search lists its two characters or takes one of them into a range. So the class has no
character whose first byte is not listed.
-/

namespace EarleyChart
namespace FirstBytes

/-- Each of the characters begins with one of the bytes. -/
def Within (chars : Set Char) (set : List UInt8) : Prop :=
  ∀ c ∈ chars, ∀ b, Leads b c → b ∈ set

variable {chars own seen : Set Char} {set more : List UInt8}

theorem Within.mono (h : Within chars set) (hset : ∀ b ∈ set, b ∈ more) : Within chars more :=
  fun c hc b hb => hset b (h c hc b hb)

theorem Within.subset (h : Within chars set) (hchars : own ⊆ chars) : Within own set :=
  fun c hc => h c (hchars hc)

theorem Within.union (h : Within chars set) (h' : Within own set) : Within (chars ∪ own) set :=
  fun c hc => hc.elim (h c) (h' c)

theorem within_empty : Within ∅ set := fun _ hc => hc.elim

theorem within_singleton {c : Char} (hc : c.toNat < 0x80) (hset : byte c ∈ set) :
    Within {c} set := by
  rintro _ rfl b hb
  rwa [hb.eq_byte hc]

theorem within_range {lo hi : Char} (hhi : hi.toNat < 0x80) :
    Within {c | lo ≤ c ∧ c ≤ hi} (span (byte lo) (byte hi)) :=
  fun _ hc _ hb => hb.mem_span hhi hc.1 hc.2

/-- A class that has every byte beyond ASCII begins with these bytes if its characters of
ASCII do. -/
theorem within_of_ascii (hbeyond : ∀ b ∈ beyondAscii, b ∈ set)
    (h : ∀ c ∈ chars, c.toNat < 0x80 → byte c ∈ set) : Within chars set := by
  intro c hc b hb
  cases Nat.lt_or_ge c.toNat 0x80 with
  | inl hlt =>
      rw [hb.eq_byte hlt]
      exact h c hc hlt
  | inr hge => exact hbeyond b (hb.mem_beyondAscii hge)

end FirstBytes

open FirstBytes

theorem lt_of_ofEscape? {b : UInt8} {own : List UInt8} (h : ofEscape? b = some own) :
    b < 0x80 := by
  unfold ofEscape? at h
  iterate 6
    split at h
    · rename_i heq
      rw [heq]
      decide
  split at h
  · rename_i hpunct
    rw [isAscii, Bool.and_eq_true, decide_eq_true_eq] at hpunct
    exact hpunct.1
  · cases h

theorem isAscii_byte {c : Char} (hc : c.toNat < 0x80) (kind : Char → Bool) :
    isAscii kind (byte c) = kind c := by
  have hlt : byte c < 0x80 := by
    rw [UInt8.lt_iff_toNat_lt, toNat_byte hc]
    exact hc
  simp only [isAscii, hlt, decide_true, Bool.true_and, toNat_byte hc, Char.ofNat_toNat]

theorem ofEscape?_of_not_mem {e : Char} (he : e.toNat < 0x80)
    (hletter : e ∉ ['d', 'w', 's', 'n', 'r', 't']) :
    ofEscape? (byte e) = if isPunctuation e then some [byte e] else none := by
  have hne : ∀ {c : Char}, c.toNat < 0x80 → e ≠ c → byte e ≠ byte c :=
    fun hc hne heq => hne (byte_injective he hc heq)
  simp only [List.mem_cons, List.not_mem_nil, or_false, not_or] at hletter
  obtain ⟨hd, hw, hs, hn, hr, ht⟩ := hletter
  rw [ofEscape?, if_neg (hne (by decide) hd), if_neg (hne (by decide) hw),
    if_neg (hne (by decide) hs), if_neg (hne (by decide) hn), if_neg (hne (by decide) hr),
    if_neg (hne (by decide) ht), isAscii_byte he]

/-- An escape that is understood ends behind its letter, and stands for characters that begin
with what is listed for it. -/
theorem EscapeReads.within {e : Char} {text rest : List Char} {chars : Set Char}
    {own : List UInt8} (h : EscapeReads (e :: text) chars rest) (he : e.toNat < 0x80)
    (hown : ofEscape? (byte e) = some own) : rest = text ∧ Within chars own := by
  have hspan : ∀ {c lo hi : Char}, lo ≤ c → c ≤ hi → hi.toNat < 0x80 → c.toNat < 0x80 →
      byte c ∈ span (byte lo) (byte hi) := fun hlo hhi hascii hc =>
    within_range hascii _ ⟨hlo, hhi⟩ _ (.inl ⟨hc, rfl⟩)
  cases h with
  | digit h =>
      cases hown
      refine ⟨rfl, within_of_ascii (fun b => List.mem_append_right _) fun c hc hlt => ?_⟩
      obtain ⟨hlo, hhi⟩ := h c hc hlt
      exact List.mem_append_left _ (hspan hlo hhi (by decide) hlt)
  | word h =>
      cases hown
      refine ⟨rfl, within_of_ascii (fun b => List.mem_append_right _) fun c hc hlt => ?_⟩
      simp only [List.mem_append]
      obtain ⟨hlo, hhi⟩ | ⟨hlo, hhi⟩ | ⟨hlo, hhi⟩ | rfl := h c hc hlt
      · exact .inl (.inl (.inl (.inl (hspan hlo hhi (by decide) hlt))))
      · exact .inl (.inl (.inl (.inr (hspan hlo hhi (by decide) hlt))))
      · exact .inl (.inl (.inr (hspan hlo hhi (by decide) hlt)))
      · exact .inl (.inr (List.mem_singleton_self _))
  | blank h =>
      cases hown
      exact ⟨rfl, within_of_ascii (fun b => List.mem_append_right _) fun c hc hlt =>
        List.mem_append_left _ (List.mem_map_of_mem (h c hc hlt))⟩
  | lineFeed | carriageReturn | tab =>
      cases hown
      exact ⟨rfl, within_singleton (by decide) (List.mem_singleton_self _)⟩
  | punctuation hc hedge =>
      have hletter : e ∉ ['d', 'w', 's', 'n', 'r', 't'] := by
        intro hmem
        have hplain : ['d', 'w', 's', 'n', 'r', 't'].all (!isPunctuation ·) = true := by decide
        have hnot := List.all_eq_true.mp hplain e hmem
        simp [hc] at hnot
      rw [ofEscape?_of_not_mem he hletter, if_pos hc] at hown
      cases hown
      exact ⟨rfl, within_singleton he (List.mem_singleton_self _)⟩
  | other hletter hpunct =>
      rw [ofEscape?_of_not_mem he hletter, if_neg (Bool.not_eq_true _ ▸ hpunct)] at hown
      contradiction

/-- Of a hyphen that makes no range, in characters. -/
theorem head?_of_apart {text : List Char} (h : Apart (bytesOf text))
    (hhead : text.head? = some '-') :
    text.tail.head? = some ']' ∨ text.tail.head? = some '-' := by
  obtain ⟨text, rfl⟩ := List.head?_eq_some_iff.mp hhead
  rw [bytesOf_cons_ascii (by decide)] at h
  refine (h rfl).imp (fun hnext => ?_) fun hnext => ?_
  all_goals
    obtain ⟨bytes, hbytes⟩ := List.head?_eq_some_iff.mp hnext
    obtain ⟨more, rfl, -⟩ := exists_of_bytesOf_eq_byte (by decide) hbytes
    rfl

namespace ClassAtom

variable {c : Char} {text rest : List Char} {chars : Set Char}

theorem of_char (hc : c ≠ '\\') (h : ClassAtom (c :: text) chars rest) :
    rest = text ∧ chars = {c} := by
  cases h with
  | char => exact ⟨rfl, rfl⟩
  | escape => exact absurd rfl hc

theorem of_escape {own : List UInt8} (hc : c.toNat < 0x80) (hown : ofEscape? (byte c) = some own)
    (h : ClassAtom ('\\' :: c :: text) chars rest) : rest = text ∧ Within chars own := by
  cases h with
  | char hescape => exact absurd rfl hescape
  | escape h => exact h.within hc hown

end ClassAtom

namespace ClassItem

variable {text more rest : List Char} {chars : Set Char} {c hi : Char}

/-- What no hyphen follows as in a range is read alone. -/
theorem of_apart (hends : ∀ {own more'}, ClassAtom text own more' → more' = more)
    (hopen : text.head? ≠ some '[') (hapart : Apart (bytesOf more))
    (h : ClassItem text chars rest) : ClassAtom text chars more ∧ rest = more := by
  cases h with
  | alone _ h =>
      obtain rfl := hends h
      exact ⟨h, rfl⟩
  | range _ hlo hclose hdash =>
      obtain rfl := hends hlo
      exact ((head?_of_apart hapart rfl).elim hclose hdash).elim
  | named | nested => exact absurd rfl hopen

theorem of_char (hopen : c ≠ '[') (hescape : c ≠ '\\') (hapart : Apart (bytesOf text))
    (h : ClassItem (c :: text) chars rest) : rest = text ∧ chars = {c} := by
  obtain ⟨hatom, rfl⟩ := h.of_apart (fun h => (h.of_char hescape).1)
    (fun heq => hopen (Option.some.inj heq)) hapart
  exact ⟨rfl, (hatom.of_char hescape).2⟩

theorem of_escape {own : List UInt8} (hc : c.toNat < 0x80) (hown : ofEscape? (byte c) = some own)
    (hapart : Apart (bytesOf text)) (h : ClassItem ('\\' :: c :: text) chars rest) :
    rest = text ∧ Within chars own := by
  obtain ⟨hatom, rfl⟩ := h.of_apart (fun h => (h.of_escape hc hown).1) (by simp) hapart
  exact hatom.of_escape hc hown

theorem of_range (hopen : c ≠ '[') (hescape : c ≠ '\\') (hhi : hi ∉ [']', '-', '\\'])
    (h : ClassItem (c :: '-' :: hi :: text) chars rest) :
    rest = text ∧ chars = {x | c ≤ x ∧ x ≤ hi} := by
  simp only [List.mem_cons, List.not_mem_nil, or_false, not_or] at hhi
  cases h with
  | alone _ h hrange =>
      obtain ⟨rfl, -⟩ := h.of_char hescape
      have hnext := hrange rfl
      simp [hhi] at hnext
  | range _ hlo _ _ hlast =>
      obtain ⟨heq, hfirst⟩ := hlo.of_char hescape
      obtain rfl := (List.cons.inj heq).2
      obtain ⟨rfl, hend⟩ := hlast.of_char hhi.2.2
      rw [Set.singleton_injective hfirst, Set.singleton_injective hend]
      exact ⟨rfl, rfl⟩
  | nested => exact absurd rfl hopen

end ClassItem

/-- What was read of a class so far begins with some bytes, and the operators add no other
characters to it. -/
structure GatheredMembers (join : Set Char → Set Char) (seen : Set Char) (set : List UInt8) :
    Prop where
  join : ∃ before, Within before set ∧ ∀ own, join own ⊆ before ∪ own
  seen : Within seen set

namespace GatheredMembers

variable {join : Set Char → Set Char} {seen own : Set Char} {set more : List UInt8}

theorem mono (h : GatheredMembers join seen set) (hset : ∀ b ∈ set, b ∈ more) :
    GatheredMembers join seen more := by
  obtain ⟨⟨before, hbefore, hjoin⟩, hseen⟩ := h
  exact ⟨⟨before, hbefore.mono hset, hjoin⟩, hseen.mono hset⟩

theorem joined (h : GatheredMembers join seen set) : Within (join seen) set := by
  obtain ⟨⟨before, hbefore, hjoin⟩, hseen⟩ := h
  exact (hbefore.union hseen).subset (hjoin seen)

/-- A further member begins with further bytes. -/
theorem member (h : GatheredMembers join seen set) (hown : Within own more) :
    GatheredMembers join (seen ∪ own) (set ++ more) := by
  have hboth := h.mono fun b => List.mem_append_left more
  exact ⟨hboth.join, hboth.seen.union (hown.mono fun b => List.mem_append_right set)⟩

/-- Behind an operator there is nothing to be joined yet. -/
theorem operator (h : GatheredMembers join seen set) {join' : Set Char → Set Char}
    (hjoin : ∀ own, join' own ⊆ join seen ∪ own) : GatheredMembers join' ∅ set :=
  ⟨⟨join seen, h.joined, hjoin⟩, within_empty⟩

theorem opening (h : Within seen set) : GatheredMembers id seen set :=
  ⟨⟨∅, within_empty, fun _ => Set.subset_union_right⟩, h⟩

end GatheredMembers

namespace ClassMembers

variable {join : Set Char → Set Char} {seen chars own : Set Char} {text rest more : List Char}

/-- A closing bracket ends the class. -/
theorem of_close (h : ClassMembers join seen (']' :: text) chars rest) :
    chars = join seen ∧ rest = text := by
  cases h with
  | close => exact ⟨rfl, rfl⟩
  | item hclose => exact absurd rfl hclose

/-- Behind an operator a new list is read. -/
theorem of_operator {c : Char} (hc : c ∈ ['&', '-', '~'])
    (h : ClassMembers join seen (c :: c :: text) chars rest) :
    ∃ join', ClassMembers join' ∅ text chars rest ∧ ∀ own, join' own ⊆ join seen ∪ own := by
  cases h with
  | close => exact absurd hc (by decide)
  | item hclose hop => exact absurd (List.prefix_append [c, c] text) (hop c hc)
  | inter h | diff h => exact ⟨_, h, fun own c hc => .inl hc.1⟩
  | symmDiff h => exact ⟨_, h, fun own c hc => hc.imp And.left And.left⟩

/-- Without an operator or a bracket there is a member. -/
theorem of_member {c : Char} (hopen : c ≠ '[') (hclose : c ≠ ']')
    (hop : text.head? = some c → c ∉ ['&', '-', '~'])
    (h : ClassMembers join seen (c :: text) chars rest) :
    ∃ own more, ClassItem (c :: text) own more ∧
      ClassMembers join (seen ∪ own) more chars rest := by
  cases h with
  | close => exact absurd rfl hclose
  | item _ _ hitem hrest => exact ⟨_, _, hitem, hrest⟩
  | inter | diff | symmDiff => exact absurd (by decide) (hop rfl)

theorem ne_of_byte_ne {c d : Char} (h : byte c ≠ byte d) : c ≠ d := fun heq => h (heq ▸ rfl)

/-- A character that stands for itself is read alone. -/
theorem of_alone {c : Char} (hc : IsMember (byte c)) (hapart : Apart (bytesOf text))
    (hop : text.head? = some c → c ∉ ['&', '-', '~'])
    (h : ClassMembers join seen (c :: text) chars rest) :
    ClassMembers join (seen ∪ {c}) text chars rest := by
  obtain ⟨hclose, hopen, hescape, -⟩ := hc
  obtain ⟨own, more, hitem, hrest⟩ := h.of_member (ne_of_byte_ne hopen) (ne_of_byte_ne hclose) hop
  obtain ⟨rfl, rfl⟩ := hitem.of_char (ne_of_byte_ne hopen) (ne_of_byte_ne hescape) hapart
  exact hrest

/-- A class whose members are taken alike ends where the list does, and its characters begin
with what was listed. -/
theorem within_of_lists {bytes set before : List UInt8} {length : Nat}
    (hlists : Lists bytes set length) (hbytes : bytesOf text = bytes)
    (hgathered : GatheredMembers join seen before) (h : ClassMembers join seen text chars rest) :
    Within chars (before ++ set) ∧ bytes.drop length = bytesOf rest := by
  induction hlists generalizing text join seen before with
  | close =>
      obtain ⟨more, rfl, rfl⟩ := exists_of_bytesOf_eq_byte (by decide) hbytes
      obtain ⟨rfl, rfl⟩ := h.of_close
      rw [List.append_nil]
      exact ⟨hgathered.joined, rfl⟩
  | escape he hdash _ ih =>
      obtain ⟨more, rfl, hmore⟩ := exists_of_bytesOf_eq_byte (by decide) hbytes
      obtain ⟨e, more, rfl, hascii, rfl, rfl⟩ :=
        exists_of_bytesOf_eq (lt_of_ofEscape? he) hmore.symm
      obtain ⟨own, text, hitem, hrest⟩ := h.of_member (by decide) (by decide) fun _ => by decide
      obtain ⟨rfl, hown⟩ := hitem.of_escape hascii he hdash
      rw [← List.append_assoc]
      exact ih rfl (hgathered.member hown) hrest
  | range hmember hdash hhi hend hle _ ih =>
      obtain ⟨c, more, rfl, hc, rfl, hnext⟩ := exists_of_bytesOf_eq hmember.2.2.2 hbytes
      obtain ⟨more, rfl, hmore⟩ := exists_of_bytesOf_eq_byte (by decide) hnext.symm
      obtain ⟨hi, more, rfl, hascii, rfl, rfl⟩ := exists_of_bytesOf_eq hhi hmore.symm
      obtain ⟨hclose, hopen, hescape, -⟩ := hmember
      obtain ⟨own, text, hitem, hrest⟩ := h.of_member (ne_of_byte_ne hopen) (ne_of_byte_ne hclose)
        fun heq => absurd (Option.some.inj heq.symm) (ne_of_byte_ne hdash)
      obtain ⟨rfl, rfl⟩ := hitem.of_range (ne_of_byte_ne hopen) (ne_of_byte_ne hescape)
        fun hmem => hend (List.mem_map_of_mem hmem)
      rw [← List.append_assoc]
      exact ih rfl (hgathered.member (within_range hascii)) hrest
  | single hmember hrange htwice _ ih =>
      obtain ⟨c, more, rfl, hc, rfl, rfl⟩ := exists_of_bytesOf_eq hmember.2.2.2 hbytes
      have hop : more.head? = some c → c ∉ ['&', '-', '~'] := by
        intro hhead hmem
        obtain ⟨more, rfl⟩ := List.head?_eq_some_iff.mp hhead
        rw [bytesOf_cons_ascii hc] at htwice
        exact htwice rfl (List.mem_map_of_mem hmem)
      have hown := within_singleton hc (List.mem_singleton_self (byte c))
      rw [List.append_cons]
      exact ih rfl (hgathered.member hown) (h.of_alone hmember hrange.apart hop)
  | @operator _ _ set _ hops _ _ _ ih =>
      obtain ⟨c, hc, rfl⟩ : ∃ c ∈ ['&', '-', '~'], byte c = _ := List.mem_map.mp hops
      have hascii : c.toNat < 0x80 := by
        simp only [List.mem_cons, List.not_mem_nil, or_false] at hc
        obtain rfl | rfl | rfl := hc <;> decide
      obtain ⟨more, rfl, hmore⟩ := exists_of_bytesOf_eq_byte hascii hbytes
      obtain ⟨more, rfl, rfl⟩ := exists_of_bytesOf_eq_byte hascii hmore.symm
      obtain ⟨join', hrest, hjoin⟩ := h.of_operator hc
      obtain ⟨hwithin, hends⟩ := ih rfl (hgathered.operator hjoin) hrest
      refine ⟨hwithin.mono fun b hb => ?_, hends⟩
      simp only [List.mem_append, List.mem_cons] at hb ⊢
      exact hb.imp_right fun hb => .inr (.inr hb)
  | @before b _ set _ hmember hdash hle _ ih =>
      obtain ⟨c, more, rfl, hc, rfl, hnext⟩ := exists_of_bytesOf_eq hmember.2.2.2 hbytes
      obtain ⟨more, rfl, hmore⟩ := exists_of_bytesOf_eq_byte (by decide) hnext.symm
      obtain ⟨more, rfl, rfl⟩ := exists_of_bytesOf_eq_byte (by decide) hmore.symm
      have hapart : Apart (bytesOf ('-' :: '-' :: more)) := by
        rw [bytesOf_cons_ascii (by decide), bytesOf_cons_ascii (by decide)]
        exact fun _ => .inr rfl
      have halone := h.of_alone hmember hapart
        fun heq => absurd (Option.some.inj heq.symm) (ne_of_byte_ne hdash)
      have hown : Within {c} (span (byte c) (byte '-')) :=
        within_singleton hc (mem_span (UInt8.le_refl _) hle)
      obtain ⟨join', hrest, hjoin⟩ := halone.of_operator (by decide)
      rw [← List.append_assoc]
      exact ih rfl ((hgathered.member hown).operator hjoin) hrest
  | @behind hi _ set _ hle _ ih =>
      obtain ⟨more, rfl, hnext⟩ := exists_of_bytesOf_eq_byte (by decide) hbytes
      obtain ⟨more, rfl, hmore⟩ := exists_of_bytesOf_eq_byte (by decide) hnext.symm
      obtain ⟨join', hrest, hjoin⟩ := h.of_operator (by decide)
      obtain ⟨hwithin, hends⟩ := ih hmore.symm (hgathered.operator hjoin) hrest
      refine ⟨hwithin.mono fun b hb => ?_, hends⟩
      have hhi : hi ∈ span (byte '-') hi := mem_span hle (UInt8.le_refl hi)
      simp only [List.mem_append, List.mem_cons] at hb ⊢
      obtain hb | rfl | hb := hb
      · exact .inl hb
      · exact .inr (.inl hhi)
      · exact .inr (.inr hb)

end ClassMembers

namespace FirstBytes

theorem replicate_append_inj {α : Type} {a : α} {n k : Nat} {xs ys : List α}
    (hxs : xs.head? ≠ some a) (hys : ys.head? ≠ some a)
    (h : List.replicate n a ++ xs = List.replicate k a ++ ys) : n = k ∧ xs = ys := by
  induction n generalizing k with
  | zero =>
      cases k with
      | zero => exact ⟨rfl, h⟩
      | succ k =>
          obtain rfl : xs = _ := h
          exact absurd rfl hxs
  | succ n ih =>
      cases k with
      | zero =>
          obtain rfl : _ = ys := h
          exact absurd rfl hys
      | succ k =>
          obtain ⟨rfl, heq⟩ := ih (List.cons.inj h).2
          exact ⟨rfl, heq⟩

/-- The hyphens in front of a class are members, and its other members are listed alike. -/
theorem Lists.of_hyphens {bytes set : List UInt8} {length n : Nat}
    (h : Lists (List.replicate (n + 1) (byte '-') ++ bytes) set length)
    (hhead : bytes.head? ≠ some (byte '-')) :
    ∃ others m, Lists bytes others m ∧ length = n + 1 + m ∧ ∀ b ∈ byte '-' :: others, b ∈ set := by
  obtain ⟨hyphens, rest, others, m, hbytes, hall, hrest, hlists, rfl, hset⟩ := h.fronted
  rw [List.eq_replicate_of_mem hall] at hbytes
  obtain ⟨hlength, rfl⟩ := replicate_append_inj hhead hrest hbytes
  refine ⟨others, m, hlists, by rw [hlength], fun b hb => hset b ?_⟩
  rw [List.eq_replicate_of_mem hall, ← hlength]
  simp only [List.mem_append, List.mem_replicate, List.mem_cons] at hb ⊢
  exact hb.imp_left fun hb => ⟨Nat.succ_ne_zero n, hb⟩

theorem bytesOf_replicate {c : Char} (hc : c.toNat < 0x80) (n : Nat) (text : List Char) :
    bytesOf (List.replicate n c ++ text) = List.replicate n (byte c) ++ bytesOf text := by
  induction n with
  | zero => rfl
  | succ n ih =>
      rw [List.replicate_succ, List.cons_append, bytesOf_cons_ascii hc, ih]
      rfl

theorem head?_bytesOf {text : List Char} {c : Char} (hc : c.toNat < 0x80)
    (h : (bytesOf text).head? = some (byte c)) : text.head? = some c := by
  obtain ⟨bytes, hbytes⟩ := List.head?_eq_some_iff.mp h
  obtain ⟨more, rfl, -⟩ := exists_of_bytesOf_eq_byte hc hbytes
  rfl

end FirstBytes

namespace ClassOpened

variable {text rest : List Char} {chars : Set Char} {set : List UInt8} {length : Nat}

/-- A class without a bracket in front. -/
theorem within_of_lists (h : ClassOpened text chars rest) (hclose : text.head? ≠ some ']')
    (hlists : Lists (bytesOf text) set length) :
    Within chars set ∧ (bytesOf text).drop length = bytesOf rest := by
  cases h with
  | members _ _ h =>
      have hgathered : GatheredMembers id ∅ [] := .opening within_empty
      exact h.within_of_lists hlists rfl hgathered
  | @hyphens text _ _ n hdash h =>
      rw [bytesOf_replicate (by decide)] at hlists ⊢
      obtain ⟨others, m, hothers, rfl, hset⟩ :=
        hlists.of_hyphens fun heq => hdash (head?_bytesOf (by decide) heq)
      have hseen : Within {'-'} [byte '-'] :=
        within_singleton (by decide) (List.mem_singleton_self _)
      obtain ⟨hwithin, hends⟩ := h.within_of_lists hothers rfl (.opening hseen)
      refine ⟨hwithin.mono hset, ?_⟩
      rw [← hends, ← List.drop_drop, List.drop_left' List.length_replicate]
  | bracket => exact absurd rfl hclose

theorem within_of_bracket (h : ClassOpened (']' :: text) chars rest)
    (hlists : Lists (bytesOf text) set length) :
    Within chars (byte ']' :: set) ∧ (bytesOf text).drop length = bytesOf rest := by
  have hseen : Within {']'} [byte ']'] :=
    within_singleton (by decide) (List.mem_singleton_self _)
  generalize htext : ']' :: text = whole at h
  cases h with
  | members _ hclose => exact absurd (htext ▸ rfl) hclose
  | hyphens => exact absurd (List.cons.inj htext).1 (by decide)
  | bracket h =>
      obtain rfl := (List.cons.inj htext).2
      exact h.within_of_lists hlists rfl (.opening hseen)

end ClassOpened

end EarleyChart
