import EarleyChart.Proofs.Lexer.Leading

/-!
The members of a class as the search for first bytes lists them: an escape, a
range or a single byte at a time, up to the closing bracket. It knows no operators.
An operator that it takes for members leads to a place that a reader of classes
comes to as well, unless a hyphen that begins no range there is taken into one.
-/

namespace EarleyChart
namespace FirstBytes

def IsMember (b : UInt8) : Prop :=
  b ≠ byte ']' ∧ b ≠ byte '[' ∧ b ≠ byte '\\' ∧ b < 0x80

instance (b : UInt8) : Decidable (IsMember b) :=
  inferInstanceAs (Decidable (_ ∧ _ ∧ _ ∧ _))

def NoRange (rest : List UInt8) : Prop :=
  rest.head? = some (byte '-') → rest.tail.head? = some (byte ']')

instance (rest : List UInt8) : Decidable (NoRange rest) := inferInstanceAs (Decidable (_ → _))

/-- No hyphen that comes next makes a range with what is before it: it is the last
member, or half of an operator. -/
def Apart (rest : List UInt8) : Prop :=
  rest.head? = some (byte '-') →
    rest.tail.head? = some (byte ']') ∨ rest.tail.head? = some (byte '-')

instance (rest : List UInt8) : Decidable (Apart rest) := inferInstanceAs (Decidable (_ → _))

theorem NoRange.apart {rest : List UInt8} (h : NoRange rest) : Apart rest :=
  fun hhead => .inl (h hhead)

/-- Where a byte is not half of an operator. -/
def Undoubled (b : UInt8) (rest : List UInt8) : Prop :=
  rest.head? = some b → b ∉ [byte '&', byte '-', byte '~']

instance (b : UInt8) (rest : List UInt8) : Decidable (Undoubled b rest) :=
  inferInstanceAs (Decidable (_ → _))

/-- Whether the members of a class, after its opening bracket, are taken alike by the
search for first bytes and by a reader of classes. No hyphen behind an escape or an
operator begins a range, and no range ends in an escape; where a range seems to begin
with a hyphen, it is an operator with a single byte behind it. -/
def agreedMembers : List UInt8 → Bool
  | [] => true
  | b :: rest =>
      if b = byte ']' then true
      else if b = byte '\\' then
        match rest with
        | [] => true
        | _ :: rest => decide (Apart rest) && agreedMembers rest
      else
        match rest with
        | next :: hi :: more =>
            if next = byte '-' ∧ hi ≠ byte ']' then
              (if b = byte '-' then decide (IsMember hi ∧ NoRange more ∧ Undoubled hi more)
                else hi != byte '\\') && agreedMembers more
            else if next = b ∧ b ∈ [byte '&', byte '-', byte '~'] then
              decide (NoRange (hi :: more)) && agreedMembers (hi :: more)
            else agreedMembers (next :: hi :: more)
        | rest => agreedMembers rest

/-- The members of a class that are taken alike, after its opening bracket, and the
number of bytes up to and with the closing one. -/
inductive Lists : List UInt8 → List UInt8 → Nat → Prop where
  | close {rest : List UInt8} : Lists (byte ']' :: rest) [] 1
  | escape {e : UInt8} {own rest set : List UInt8} {length : Nat} (he : ofEscape? e = some own)
      (hdash : Apart rest) (hrest : Lists rest set length) :
      Lists (byte '\\' :: e :: rest) (own ++ set) (length + 2)
  | range {b hi : UInt8} {more set : List UInt8} {length : Nat} (hb : IsMember b)
      (hdash : b ≠ byte '-') (hhi : hi < 0x80) (hend : hi ∉ [byte ']', byte '-', byte '\\'])
      (hle : b ≤ hi) (hmore : Lists more set length) :
      Lists (b :: byte '-' :: hi :: more) (span b hi ++ set) (length + 3)
  | single {b : UInt8} {rest set : List UInt8} {length : Nat} (hb : IsMember b)
      (hrange : NoRange rest) (htwice : Undoubled b rest) (hrest : Lists rest set length) :
      Lists (b :: rest) (b :: set) (length + 1)
  /-- An operator, taken for two bytes. -/
  | operator {b : UInt8} {rest set : List UInt8} {length : Nat}
      (hb : b ∈ [byte '&', byte '-', byte '~']) (hrange : NoRange rest)
      (hdash : b = byte '-' → rest.head? = some (byte ']')) (hrest : Lists rest set length) :
      Lists (b :: b :: rest) (b :: b :: set) (length + 2)
  /-- A byte and an operator, taken for a range up to the second hyphen. -/
  | before {b : UInt8} {more set : List UInt8} {length : Nat} (hb : IsMember b)
      (hdash : b ≠ byte '-') (hle : b ≤ byte '-') (hmore : Lists more set length) :
      Lists (b :: byte '-' :: byte '-' :: more) (span b (byte '-') ++ set) (length + 3)
  /-- An operator and a byte, taken for a range from the first hyphen. -/
  | behind {hi : UInt8} {more set : List UInt8} {length : Nat} (hle : byte '-' ≤ hi)
      (hrest : Lists (hi :: more) (hi :: set) (length + 1)) :
      Lists (byte '-' :: byte '-' :: hi :: more) (span (byte '-') hi ++ set) (length + 3)

variable {bytes set tail : List UInt8} {length : Nat}

/-- What the search takes of a class at once, and what comes of it. -/
inductive Takes : List UInt8 → List UInt8 → Nat → Prop where
  | close {rest : List UInt8} : Takes (byte ']' :: rest) [] 1
  | escape {e : UInt8} {own rest set : List UInt8} {length : Nat} (he : ofEscape? e = some own)
      (h : ofMembers? false rest = some (set, length)) :
      Takes (byte '\\' :: e :: rest) (own ++ set) (length + 2)
  | range {b hi : UInt8} {more set : List UInt8} {length : Nat} (hb : IsMember b)
      (hend : hi ≠ byte ']') (hhi : hi < 0x80) (hle : b ≤ hi)
      (h : ofMembers? false more = some (set, length)) :
      Takes (b :: byte '-' :: hi :: more) (span b hi ++ set) (length + 3)
  | single {b : UInt8} {rest set : List UInt8} {length : Nat} (hb : IsMember b)
      (hrange : NoRange rest) (h : ofMembers? false rest = some (set, length)) :
      Takes (b :: rest) (b :: set) (length + 1)

theorem takes_of_ofMembers? (h : ofMembers? false bytes = some (set, length)) :
    Takes bytes set length := by
  have hmember : ∀ {b : UInt8}, ¬(b = byte ']' ∧ false = false) → ¬(b ≥ 0x80 ∨ b = byte '[') →
      b ≠ byte '\\' → IsMember b := by
    intro b hclose hb hescape
    rw [not_or, UInt8.not_le] at hb
    exact ⟨fun h => hclose ⟨h, rfl⟩, hb.2, hescape, hb.1⟩
  rw [ofMembers?.eq_def] at h
  split at h
  · cases h
  split at h
  · next hclose =>
    cases h
    rw [hclose.1]
    exact .close
  split at h
  · cases h
  split at h
  · next hescape =>
    subst hescape
    split at h
    · cases h
    · obtain ⟨own, he, h⟩ := Option.bind_eq_some_iff.mp h
      obtain ⟨⟨others, n⟩, hrest, h⟩ := Option.bind_eq_some_iff.mp h
      cases h
      exact .escape he hrest
  · next hclose hb hescape =>
    have hb := hmember hclose hb hescape
    split at h
    · next dash hi more =>
      split at h
      · next hdash =>
        split at h
        · cases h
        · next hhi =>
          obtain ⟨⟨others, n⟩, hmore, h⟩ := Option.bind_eq_some_iff.mp h
          cases h
          rw [not_or, UInt8.not_le, UInt8.not_lt] at hhi
          rw [hdash.1]
          exact .range hb hdash.2 hhi.1 hhi.2 hmore
      · next hdash =>
        obtain ⟨⟨others, n⟩, hrest, h⟩ := Option.bind_eq_some_iff.mp h
        cases h
        refine .single hb (fun hhead => ?_) hrest
        rw [not_and, Classical.not_not] at hdash
        exact congrArg some (hdash (Option.some.inj hhead))
    · next rest hshort =>
      obtain ⟨⟨others, n⟩, hrest, h⟩ := Option.bind_eq_some_iff.mp h
      cases h
      refine .single hb (fun hhead => ?_) hrest
      -- a hyphen alone is no class
      obtain ⟨more, rfl⟩ := List.head?_eq_some_iff.mp hhead
      cases more with
      | nil => cases hrest
      | cons hi more => exact (hshort _ _ _ rfl).elim

theorem closes_or_cons_of_ofMembers? (h : ofMembers? false bytes = some (set, length)) :
    bytes.head? = some (byte ']') ∨ ∃ b next more, bytes = b :: next :: more := by
  cases takes_of_ofMembers? h with
  | close => exact .inl rfl
  | escape | range => exact .inr ⟨_, _, _, rfl⟩
  | @single b rest set n _ _ hrest =>
      cases rest with
      | nil => cases hrest
      | cons => exact .inr ⟨_, _, _, rfl⟩

theorem eq_close_of_ofMembers? (hshort : ∀ dash hi more, bytes ≠ dash :: hi :: more)
    (h : ofMembers? false bytes = some (set, length)) : bytes = [byte ']'] := by
  obtain hclose | ⟨b, next, more, rfl⟩ := closes_or_cons_of_ofMembers? h
  · obtain ⟨rest, rfl⟩ := List.head?_eq_some_iff.mp hclose
    cases rest with
    | nil => rfl
    | cons next more => exact (hshort _ _ _ rfl).elim
  · exact (hshort _ _ _ rfl).elim

/-- What follows a class is not looked at. -/
theorem ofMembers?_append {first : Bool} (h : ofMembers? first bytes = some (set, length))
    (tail : List UInt8) : ofMembers? first (bytes ++ tail) = some (set, length) := by
  fun_induction ofMembers? first bytes generalizing set length
  case case1 | case3 | case4 | case6 => contradiction
  case case2 hclose =>
    rw [List.cons_append, ofMembers?.eq_def]
    simpa only [if_pos hclose] using h
  case case5 hclose hplain ih =>
    obtain ⟨own, hown, h⟩ := Option.bind_eq_some_iff.mp h
    obtain ⟨⟨others, n⟩, hrest, h⟩ := Option.bind_eq_some_iff.mp h
    rw [List.cons_append, List.cons_append, ofMembers?.eq_def]
    simp only [if_neg hclose, if_neg hplain, if_true, hown, ih hrest]
    exact h
  case case7 hclose hplain hescape _ _ _ hrange hascii ih =>
    obtain ⟨⟨others, n⟩, hrest, h⟩ := Option.bind_eq_some_iff.mp h
    rw [List.cons_append, List.cons_append, List.cons_append, ofMembers?.eq_def]
    simp only [if_neg hclose, if_neg hplain, if_neg hescape, if_pos hrange, if_neg hascii, ih hrest]
    exact h
  case case8 hclose hplain hescape _ _ _ hrange ih =>
    obtain ⟨⟨others, n⟩, hrest, h⟩ := Option.bind_eq_some_iff.mp h
    have ih := ih hrest
    rw [List.cons_append, List.cons_append] at ih
    rw [List.cons_append, List.cons_append, List.cons_append, ofMembers?.eq_def]
    simp only [if_neg hclose, if_neg hplain, if_neg hescape, if_neg hrange, ih]
    exact h
  case case9 hclose hplain hescape _ hshort ih =>
    obtain ⟨⟨others, n⟩, hrest, heq⟩ := Option.bind_eq_some_iff.mp h
    have ih := ih hrest
    obtain rfl := eq_close_of_ofMembers? (fun dash hi more heq => hshort dash hi more heq) hrest
    rw [List.cons_append, List.nil_append] at ih
    rw [List.cons_append, List.cons_append, List.nil_append, ofMembers?.eq_def]
    simp only [if_neg hclose, if_neg hplain, if_neg hescape]
    cases tail with
    | nil =>
        simp only [ih]
        exact heq
    | cons c tail =>
        have hdash : ¬(byte ']' = byte '-' ∧ c ≠ byte ']') := by
          rintro ⟨h, -⟩
          exact absurd h (by decide)
        simp only [if_neg hdash, ih]
        exact heq

theorem ofClass?_append (h : ofClass? bytes = some (set, length)) (tail : List UInt8) :
    ofClass? (bytes ++ tail) = some (set, length) := by
  cases bytes with
  | nil => contradiction
  | cons bracket rest =>
      rw [List.cons_append]
      unfold ofClass? at h ⊢
      dsimp only at h ⊢
      split at h
      · contradiction
      · next hsign =>
        obtain ⟨⟨others, n⟩, hrest, h⟩ := Option.bind_eq_some_iff.mp h
        have hhead : (rest ++ tail).head? = rest.head? := by
          cases rest with
          | nil => contradiction
          | cons => rfl
        rw [hhead, if_neg hsign, ofMembers?_append hrest]
        exact h

theorem agreedMembers_close {rest : List UInt8} : agreedMembers (byte ']' :: rest) = true := by
  rw [agreedMembers.eq_def]
  rfl

theorem agreedMembers_escape {e : UInt8} {rest : List UInt8} :
    agreedMembers (byte '\\' :: e :: rest) = (decide (Apart rest) && agreedMembers rest) := by
  rw [agreedMembers.eq_def]
  rfl

theorem agreedMembers_cons {b next hi : UInt8} {more : List UInt8} (hb : IsMember b) :
    agreedMembers (b :: next :: hi :: more) =
      if next = byte '-' ∧ hi ≠ byte ']' then
        (if b = byte '-' then decide (IsMember hi ∧ NoRange more ∧ Undoubled hi more)
          else hi != byte '\\') && agreedMembers more
      else if next = b ∧ b ∈ [byte '&', byte '-', byte '~'] then
        decide (NoRange (hi :: more)) && agreedMembers (hi :: more)
      else agreedMembers (next :: hi :: more) := by
  rw [agreedMembers.eq_def]
  simp only [hb.1, hb.2.2.1, if_false]

/-- Only in front of a class does a closing bracket stand for itself. -/
theorem ofMembers?_first (h : bytes.head? ≠ some (byte ']')) :
    ofMembers? true bytes = ofMembers? false bytes := by
  cases bytes with
  | nil => rfl
  | cons b rest =>
      have hb : b ≠ byte ']' := fun hb => h (congrArg some hb)
      rw [ofMembers?.eq_def, ofMembers?.eq_def]
      simp only [hb, false_and, if_false]

theorem lists_of_ofMembers? (h : ofMembers? false bytes = some (set, length))
    (hagreed : agreedMembers bytes = true) : Lists bytes set length := by
  induction hn : bytes.length using Nat.strongRecOn generalizing bytes set length with
  | ind n ih =>
      subst hn
      cases takes_of_ofMembers? h with
      | close => exact .close
      | escape he hrest =>
          rw [agreedMembers_escape, Bool.and_eq_true, decide_eq_true_eq] at hagreed
          exact .escape he hagreed.1 (ih _ (by simp +arith) hrest hagreed.2 rfl)
      | @range b hi more set n hb hend hhi hle hmore =>
          rw [agreedMembers_cons hb, if_pos ⟨rfl, hend⟩, Bool.and_eq_true] at hagreed
          have hmore := ih _ (by simp +arith) hmore hagreed.2 rfl
          by_cases hdash : b = byte '-'
          · subst hdash
            rw [if_pos rfl, decide_eq_true_eq] at hagreed
            obtain ⟨⟨hhi, hrange, htwice⟩, -⟩ := hagreed
            exact .behind hle (.single hhi hrange htwice hmore)
          · rw [if_neg hdash, bne_iff_ne] at hagreed
            by_cases htwice : hi = byte '-'
            · subst htwice
              exact .before hb hdash hle hmore
            · exact .range hb hdash hhi (by simp [hend, htwice, hagreed.1]) hle hmore
      | @single b rest set n hb hrange hrest =>
          -- the search goes on at the next byte, and a reader behind an operator
          obtain hclose | ⟨next, hi, more, rfl⟩ := closes_or_cons_of_ofMembers? hrest
          · obtain ⟨more, rfl⟩ := List.head?_eq_some_iff.mp hclose
            refine .single hb hrange (fun hhead => ?_)
              (ih _ (by simp) hrest agreedMembers_close rfl)
            exact absurd (Option.some.inj hhead).symm hb.1
          · rw [agreedMembers_cons hb, if_neg (fun hdash => ?_)] at hagreed
            · split at hagreed
              · next htwice =>
                obtain ⟨rfl, hops⟩ := htwice
                rw [Bool.and_eq_true, decide_eq_true_eq] at hagreed
                cases takes_of_ofMembers? hrest with
                | close => exact absurd rfl hb.1
                | escape => exact absurd rfl hb.2.2.1
                | range _ hend => exact absurd (Option.some.inj (hagreed.1 rfl)) hend
                | single _ _ hmore =>
                    exact .operator hops hagreed.1 (fun hdash => hrange (congrArg some hdash))
                      (ih _ (by simp +arith) hmore hagreed.2 rfl)
              · next htwice =>
                refine .single hb hrange (fun hhead hops => htwice ⟨?_, hops⟩)
                  (ih _ (by simp) hrest hagreed rfl)
                exact Option.some.inj hhead
            · exact hdash.2 (Option.some.inj (hrange (congrArg some hdash.1)))

theorem Lists.length_le (h : Lists bytes set length) : length ≤ bytes.length := by
  induction h <;> simp_all

def Fronted (bytes set : List UInt8) (length : Nat) : Prop :=
  ∃ hyphens rest others n, bytes = hyphens ++ rest ∧ (∀ x ∈ hyphens, x = byte '-') ∧
    rest.head? ≠ some (byte '-') ∧ Lists rest others n ∧ length = hyphens.length + n ∧
    ∀ b ∈ hyphens ++ others, b ∈ set

theorem Lists.fronted_of_head? (h : Lists bytes set length)
    (hhead : bytes.head? ≠ some (byte '-')) : Fronted bytes set length :=
  ⟨[], _, _, _, rfl, by simp, hhead, h, by simp, by simp⟩

theorem Lists.fronted (h : Lists bytes set length) : Fronted bytes set length := by
  have hhead : ∀ {b : UInt8} {rest : List UInt8}, b ≠ byte '-' →
      (b :: rest).head? ≠ some (byte '-') := fun hb h => hb (Option.some.inj h)
  induction h with
  | close => exact Lists.close.fronted_of_head? (hhead (by decide))
  | escape he hdash hrest =>
      exact (Lists.escape he hdash hrest).fronted_of_head? (hhead (by decide))
  | range hb hdash hhi hend hle hmore =>
      exact (Lists.range hb hdash hhi hend hle hmore).fronted_of_head? (hhead hdash)
  | before hb hdash hle hmore =>
      exact (Lists.before hb hdash hle hmore).fronted_of_head? (hhead hdash)
  | @single b rest set n hb hrange htwice hrest =>
      by_cases hdash : b = byte '-'
      · subst hdash
        exact ⟨[byte '-'], rest, set, n, rfl, by simp, fun h => htwice h (by decide), hrest,
          by simp; omega, by simp⟩
      · exact (Lists.single hb hrange htwice hrest).fronted_of_head? (hhead hdash)
  | @operator b rest set n hb hrange hclose hrest =>
      by_cases hdash : b = byte '-'
      · subst hdash
        refine ⟨[byte '-', byte '-'], rest, set, n, rfl, by simp, ?_, hrest, by simp; omega,
          by simp⟩
        rw [hclose rfl]
        decide
      · exact (Lists.operator hb hrange hclose hrest).fronted_of_head? (hhead hdash)
  | @behind hi more set n hle _ ih =>
      obtain ⟨hyphens, rest, others, m, hbytes, hall, hhead, hrest, hlength, hset⟩ := ih
      refine ⟨byte '-' :: byte '-' :: hyphens, rest, others, m, by rw [hbytes]; rfl, ?_, hhead,
        hrest, by simp; omega, fun b hb => ?_⟩
      · simpa using hall
      · have hfirst : byte '-' ∈ span (byte '-') hi := mem_span (UInt8.le_refl _) hle
        have hlast : hi ∈ span (byte '-') hi := mem_span hle (UInt8.le_refl hi)
        simp only [List.cons_append, List.mem_cons, ← or_assoc, or_self] at hb
        rw [List.mem_append]
        obtain rfl | hb := hb
        · exact .inl hfirst
        · obtain rfl | hb := List.mem_cons.mp (hset b hb)
          · exact .inl hlast
          · exact .inr hb

end FirstBytes
end EarleyChart
