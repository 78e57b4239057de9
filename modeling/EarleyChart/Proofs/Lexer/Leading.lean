import EarleyChart.Lexer.FirstBytes

/-!
The bytes of a text and its characters. A byte of ASCII is a character; the bytes of all
other characters are beyond ASCII.
-/

namespace EarleyChart
namespace FirstBytes

theorem bytesOf_cons (c : Char) (text : List Char) :
    bytesOf (c :: text) = String.utf8EncodeChar c ++ bytesOf text := List.flatMap_cons

theorem encode_ascii {c : Char} (h : c.toNat < 0x80) : String.utf8EncodeChar c = [byte c] :=
  if_pos (Nat.le_of_lt_succ h)

theorem bytesOf_cons_ascii {c : Char} (h : c.toNat < 0x80) (text : List Char) :
    bytesOf (c :: text) = byte c :: bytesOf text := by
  rw [bytesOf_cons, encode_ascii h]
  rfl

theorem le_ofNat {n : Nat} (hlo : 0x80 ≤ n) (hhi : n < 0x100) : 0x80 ≤ UInt8.ofNat n := by
  rw [UInt8.le_iff_toNat_le, UInt8.toNat_ofNat', Nat.mod_eq_of_lt hhi]
  exact hlo

/-- The bytes of a character beyond ASCII are all beyond ASCII. -/
theorem le_of_mem_encode {c : Char} (h : 0x80 ≤ c.toNat) {b : UInt8}
    (hb : b ∈ String.utf8EncodeChar c) : 0x80 ≤ b := by
  change 0x80 ≤ c.val.toNat at h
  unfold String.utf8EncodeChar at hb
  extract_lets v at hb
  rw [if_neg (by omega)] at hb
  split at hb
  · simp only [List.mem_cons, List.not_mem_nil, or_false] at hb
    rcases hb with rfl | rfl <;> exact le_ofNat (by omega) (by omega)
  · split at hb
    · simp only [List.mem_cons, List.not_mem_nil, or_false] at hb
      rcases hb with rfl | rfl | rfl <;> exact le_ofNat (by omega) (by omega)
    · simp only [List.mem_cons, List.not_mem_nil, or_false] at hb
      rcases hb with rfl | rfl | rfl | rfl <;> exact le_ofNat (by omega) (by omega)

theorem encode_ne_nil (c : Char) : String.utf8EncodeChar c ≠ [] := by
  unfold String.utf8EncodeChar
  extract_lets v
  split
  · simp
  · split
    · simp
    · split <;> simp

theorem toNat_byte {c : Char} (h : c.toNat < 0x80) : (byte c).toNat = c.toNat :=
  UInt8.toNat_ofNat_of_lt (Nat.lt_trans h (by decide))

theorem byte_injective {c d : Char} (hc : c.toNat < 0x80) (hd : d.toNat < 0x80)
    (h : byte c = byte d) : c = d := by
  apply Char.ext
  apply UInt32.toNat.inj
  change c.toNat = d.toNat
  rw [← toNat_byte hc, ← toNat_byte hd, h]

theorem mem_span {b lo hi : UInt8} (hlo : lo ≤ b) (hhi : b ≤ hi) : b ∈ span lo hi := by
  refine List.mem_map.mpr ⟨b.toNat, ?_, UInt8.ofNat_toNat⟩
  rw [List.mem_range'_1]
  rw [UInt8.le_iff_toNat_le] at hlo hhi
  omega

theorem mem_beyondAscii {b : UInt8} (h : 0x80 ≤ b) : b ∈ beyondAscii := by
  refine mem_span h ?_
  rw [UInt8.le_iff_toNat_le]
  exact Nat.le_of_lt_succ b.toNat_lt

/-- A byte is the first of a character, as far as it is of ASCII. -/
def Leads (b : UInt8) (x : Char) : Prop :=
  (x.toNat < 0x80 ∧ b = byte x) ∨ (0x80 ≤ x.toNat ∧ 0x80 ≤ b)

variable {b : UInt8} {x : Char}

theorem leads_of_head? {text : List Char} (h : (bytesOf (x :: text)).head? = some b) :
    Leads b x := by
  cases Nat.lt_or_ge x.toNat 0x80 with
  | inl hlt =>
      rw [bytesOf_cons_ascii hlt] at h
      exact .inl ⟨hlt, (Option.some.inj h).symm⟩
  | inr hge =>
      refine .inr ⟨hge, le_of_mem_encode hge ?_⟩
      obtain ⟨first, more, hencode⟩ := List.exists_cons_of_ne_nil (encode_ne_nil x)
      rw [bytesOf_cons, hencode] at h
      rw [hencode, ← Option.some.inj h]
      exact List.mem_cons_self

theorem Leads.eq_byte (h : Leads b x) (hx : x.toNat < 0x80) : b = byte x := by
  obtain h | h := h
  · exact h.2
  · omega

theorem Leads.mem_beyondAscii (h : Leads b x) (hx : 0x80 ≤ x.toNat) : b ∈ beyondAscii := by
  obtain h | h := h
  · omega
  · exact FirstBytes.mem_beyondAscii h.2

/-- The first bytes of the characters of a range of ASCII are in the range of their bytes. -/
theorem Leads.mem_span (h : Leads b x) {lo hi : Char} (hhi : hi.toNat < 0x80) (hle : lo ≤ x)
    (hle' : x ≤ hi) : b ∈ span (byte lo) (byte hi) := by
  change lo.toNat ≤ x.toNat at hle
  change x.toNat ≤ hi.toNat at hle'
  rw [h.eq_byte (by omega)]
  apply FirstBytes.mem_span
  · rw [UInt8.le_iff_toNat_le, toNat_byte (by omega), toNat_byte (by omega)]
    exact hle
  · rw [UInt8.le_iff_toNat_le, toNat_byte (by omega), toNat_byte hhi]
    exact hle'

/-- A byte of ASCII at the beginning of a text is its first character. -/
theorem exists_of_bytesOf_eq {text : List Char} {rest : List UInt8} (hb : b < 0x80)
    (h : bytesOf text = b :: rest) :
    ∃ c more, text = c :: more ∧ c.toNat < 0x80 ∧ b = byte c ∧ rest = bytesOf more := by
  cases text with
  | nil => cases h
  | cons c more =>
      have hleads := leads_of_head? (congrArg List.head? h)
      obtain ⟨hc, rfl⟩ | ⟨-, hge⟩ := hleads
      · rw [bytesOf_cons_ascii hc] at h
        exact ⟨c, more, rfl, hc, rfl, (List.cons.inj h).2.symm⟩
      · exact absurd hb (UInt8.not_lt.mpr hge)

/-- A known byte of ASCII is its character. -/
theorem exists_of_bytesOf_eq_byte {text : List Char} {rest : List UInt8} {c : Char}
    (hc : c.toNat < 0x80) (h : bytesOf text = byte c :: rest) :
    ∃ more, text = c :: more ∧ rest = bytesOf more := by
  have hbyte : byte c < 0x80 := by
    rw [UInt8.lt_iff_toNat_lt, toNat_byte hc]
    exact hc
  obtain ⟨d, more, rfl, hd, heq, rfl⟩ := exists_of_bytesOf_eq hbyte h
  exact ⟨more, congrArg (· :: more) (byte_injective hd hc heq.symm), rfl⟩

end FirstBytes
end EarleyChart
