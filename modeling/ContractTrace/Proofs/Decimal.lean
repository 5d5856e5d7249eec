import ContractTrace.Text.Decimal

/-! Decimal text. The readers accept exactly the numerals: digits by their place values, behind
a sign where one is allowed. What is written for a number is the shortest numeral that it has,
so every reader gives the number again. -/

namespace ContractTrace.Decimal

/-! ### Numerals -/

/-- What digits stand for: each counts a power of ten for every digit behind it. -/
def placeValue : List Char → Nat
  | [] => 0
  | c :: cs => (c.toNat - '0'.toNat) * Nat.pow 10 cs.length + placeValue cs

/-- One or more ASCII digits and their value. Zeros may lead. -/
structure Digits (cs : List Char) (n : Nat) : Prop where
  ne_nil : cs ≠ []
  ascii : ∀ c ∈ cs, '0' ≤ c ∧ c ≤ '9'
  value : placeValue cs = n

/-- A plus sign may stand in front of the digits. -/
inductive Unsigned : List Char → Nat → Prop
  | bare {cs : List Char} {n : Nat} (h : Digits cs n) : Unsigned cs n
  | plus {cs : List Char} {n : Nat} (h : Digits cs n) : Unsigned ('+' :: cs) n

/-- A plus or a minus sign may stand in front of the digits. -/
inductive Signed : List Char → Int → Prop
  | bare {cs : List Char} {n : Nat} (h : Digits cs n) : Signed cs n
  | plus {cs : List Char} {n : Nat} (h : Digits cs n) : Signed ('+' :: cs) n
  | minus {cs : List Char} {n : Nat} (h : Digits cs n) : Signed ('-' :: cs) (-n)

/-- The numerals that cannot be shortened: no plus sign, no zero in front of other digits, and
a minus sign only in front of a number that is not zero. -/
inductive Shortest : List Char → Int → Prop
  | natural {c : Char} {cs : List Char} {n : Nat} (h : Digits (c :: cs) n)
      (lead : c = '0' → cs = []) : Shortest (c :: cs) n
  | negative {c : Char} {cs : List Char} {n : Nat} (h : Digits (c :: cs) n) (lead : c ≠ '0') :
      Shortest ('-' :: c :: cs) (-n)

theorem Shortest.signed {cs : List Char} {v : Int} (h : Shortest cs v) : Signed cs v := by
  cases h with
  | natural h _ => exact .bare h
  | negative h _ => exact .minus h

/-! ### Readers -/

theorem isDigit_iff (c : Char) : c.isDigit = true ↔ '0' ≤ c ∧ c ≤ '9' := by
  simp only [Char.isDigit, Bool.and_eq_true, decide_eq_true_eq]
  rfl

/-- Place values from the left: what stands in front moves up once for every digit read. -/
theorem ofDigitChars_eq_placeValue (cs : List Char) : Nat.ofDigitChars 10 cs 0 = placeValue cs := by
  induction cs with
  | nil => rfl
  | cons c cs ih =>
    rw [Nat.ofDigitChars_cons, Nat.ofDigitChars_eq_ofDigitChars_zero, ih, placeValue, Nat.mul_zero,
      Nat.zero_add, Nat.mul_comm]
    rfl

theorem digits?_eq_some_iff {cs : List Char} {n : Nat} : digits? cs = some n ↔ Digits cs n := by
  have hall : cs.all Char.isDigit = true ↔ ∀ c ∈ cs, '0' ≤ c ∧ c ≤ '9' := by
    simp only [List.all_eq_true, isDigit_iff]
  rw [digits?, ofDigitChars_eq_placeValue]
  constructor
  · intro h
    split at h
    · cases h
    next hne =>
      split at h
      next hdigits =>
        exact ⟨fun hnil => hne (by rw [hnil]; rfl), hall.1 hdigits, Option.some.inj h⟩
      · cases h
  · rintro ⟨hne, hascii, rfl⟩
    rw [if_neg (by simpa using hne), if_pos (hall.2 hascii)]

/-- No sign is a digit. -/
theorem Digits.not_sign {c : Char} {cs : List Char} {n : Nat} (h : Digits (c :: cs) n) :
    c ≠ '+' ∧ c ≠ '-' := by
  have hc := (isDigit_iff c).2 (h.ascii c List.mem_cons_self)
  constructor <;> rintro rfl <;> exact absurd hc (by decide)

theorem unsigned?_eq_some_iff {cs : List Char} {n : Nat} :
    unsigned? cs = some n ↔ Unsigned cs n := by
  constructor
  · intro h
    unfold unsigned? at h
    split at h
    · exact .plus (digits?_eq_some_iff.1 h)
    · exact .bare (digits?_eq_some_iff.1 h)
  · rintro (h | h)
    · rw [unsigned?]
      · exact digits?_eq_some_iff.2 h
      · rintro rest rfl
        exact h.not_sign.1 rfl
    · exact digits?_eq_some_iff.2 h

theorem signed?_eq_some_iff {cs : List Char} {v : Int} : signed? cs = some v ↔ Signed cs v := by
  constructor
  · intro h
    unfold signed? at h
    split at h <;> obtain ⟨m, hm, rfl⟩ := Option.map_eq_some_iff.1 h <;>
      obtain ⟨n, hn, ⟨⟩⟩ := Option.bind_eq_some_iff.1 hm
    · exact .minus (digits?_eq_some_iff.1 hn)
    · exact .plus (digits?_eq_some_iff.1 hn)
    · exact .bare (digits?_eq_some_iff.1 hn)
  · rintro (h | h | h)
    · rw [signed?, digits?_eq_some_iff.2 h]
      · rfl
      · rintro rest rfl
        exact h.not_sign.2 rfl
      · rintro rest rfl
        exact h.not_sign.1 rfl
    · rw [signed?, digits?_eq_some_iff.2 h]
      rfl
    · rw [signed?, digits?_eq_some_iff.2 h]
      rfl

/-! ### Natural numbers -/

theorem natChars_ne_nil (n : Nat) : natChars n ≠ [] := Nat.toDigits_ne_nil

theorem isDigit_of_mem_natChars {n : Nat} {c : Char} (h : c ∈ natChars n) : c.isDigit = true :=
  Nat.isDigit_of_mem_toDigits (by decide) (by decide) h

theorem ofDigitChars_natChars (n : Nat) : Nat.ofDigitChars 10 (natChars n) 0 = n :=
  Nat.ofDigitChars_ten_toDigits

theorem digits_natChars (n : Nat) : Digits (natChars n) n where
  ne_nil := natChars_ne_nil n
  ascii c hc := (isDigit_iff c).1 (isDigit_of_mem_natChars hc)
  value := by rw [← ofDigitChars_eq_placeValue, ofDigitChars_natChars]

/-- The first digit; it is zero only where it is the whole number. -/
theorem natChars_eq_cons (n : Nat) :
    ∃ c cs, natChars n = c :: cs ∧ c.isDigit = true ∧ (c = '0' → cs = []) := by
  induction n using Nat.strongRecOn with
  | ind n ih =>
    by_cases hn : n < 10
    · refine ⟨n.digitChar, [], Nat.toDigits_of_lt_base hn, ?_, fun _ => rfl⟩
      exact isDigit_of_mem_natChars (n := n) (by simp [natChars, Nat.toDigits_of_lt_base hn])
    · have hsplit : natChars n = natChars (n / 10) ++ [(n % 10).digitChar] :=
        Nat.toDigits_of_base_le (by decide) (by omega)
      obtain ⟨c, cs, hc, hdigit, hzero⟩ := ih (n / 10) (by omega)
      refine ⟨c, cs ++ [(n % 10).digitChar], by rw [hsplit, hc, List.cons_append], hdigit, ?_⟩
      -- a quotient that is written as zero is zero, and `n` would be a single digit
      intro h0
      have hquotient := ofDigitChars_natChars (n / 10)
      rw [hc, h0, hzero h0] at hquotient
      have : n / 10 = 0 := hquotient.symm
      omega

theorem shortest_natChars (n : Nat) : Shortest (natChars n) n := by
  have h := digits_natChars n
  obtain ⟨c, cs, hc, -, hlead⟩ := natChars_eq_cons n
  rw [hc] at h ⊢
  exact .natural h hlead

/-! ### Integers -/

theorem shortest_intChars (v : Int) : Shortest (intChars v) v := by
  cases v with
  | ofNat n => exact shortest_natChars n
  | negSucc n =>
    have h := digits_natChars (n + 1)
    obtain ⟨c, cs, hc, -, hlead⟩ := natChars_eq_cons (n + 1)
    rw [intChars, hc]
    rw [hc] at h
    refine .negative h fun h0 => ?_
    -- a leading zero would be the whole numeral, and the number zero
    obtain rfl := hlead h0
    have hvalue := h.value
    rw [h0] at hvalue
    exact Nat.succ_ne_zero n hvalue.symm

theorem signed?_intChars (v : Int) : signed? (intChars v) = some v :=
  signed?_eq_some_iff.2 (shortest_intChars v).signed

theorem ofInt_injective {v w : Int} (h : ofInt v = ofInt w) : v = w := by
  have hchars : intChars v = intChars w := String.ofList_injective h
  have := signed?_intChars v
  rw [hchars, signed?_intChars] at this
  exact (Option.some.inj this).symm

theorem ofNat_injective {m n : Nat} (h : ofNat m = ofNat n) : m = n :=
  Int.ofNat.inj (ofInt_injective (v := .ofNat m) (w := .ofNat n) h)

end ContractTrace.Decimal
