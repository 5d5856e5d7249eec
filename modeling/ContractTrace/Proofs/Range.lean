import ContractTrace.Proofs.Evaluation
import Mathlib.Algebra.Group.Nat.Even
import Mathlib.Algebra.Ring.Parity
import Mathlib.Algebra.Order.Ring.Int

/-! The whole range of an integer type, of which evaluation sees the part that the carrier
holds. Values in range give values in range. -/

namespace ContractTrace

open ContractTrace.Task (Yields)

/-! ### Powers of two -/

theorem twoPow_le {m n : Nat} (h : m ≤ n) : twoPow m ≤ twoPow n :=
  Nat.pow_le_pow_right Nat.two_pos h

/-! ### The carrier -/

namespace Carrier

/-- The carrier holds a value. -/
def Holds (v : Int) : Prop := least ≤ v ∧ v ≤ greatest

instance (v : Int) : Decidable (Holds v) := inferInstanceAs (Decidable (_ ∧ _))

theorem hold_of_holds {v : Int} (h : Holds v) : hold v = some v := if_pos h

theorem hold_of_not_holds {v : Int} (h : ¬ Holds v) : hold v = none := if_neg h

theorem hold_eq_some_iff {v w : Int} : hold v = some w ↔ v = w ∧ Holds w := by
  by_cases h : Holds v
  · rw [hold_of_holds h, Option.some.injEq]
    exact ⟨fun hvw => ⟨hvw, hvw ▸ h⟩, And.left⟩
  · rw [hold_of_not_holds h]
    refine ⟨nofun, ?_⟩
    rintro ⟨rfl, hv⟩
    exact absurd hv h

theorem not_holds_of_natAbs {v : Int} (h : twoPow 128 ≤ v.natAbs) : ¬ Holds v := by
  have hdouble : twoPow 128 = twoPow 127 * 2 := twoPow_succ 127
  have hpos := twoPow_pos 127
  rintro ⟨hl, hg⟩
  unfold least at hl
  unfold greatest at hg
  omega

/-- Large exponents take all but three bases out of the carrier. -/
theorem not_holds_pow {a : Int} (ha : 2 ≤ a.natAbs) {n : Nat} (hn : 128 ≤ n) :
    ¬ Holds (a ^ n) := by
  refine not_holds_of_natAbs ?_
  rw [Int.natAbs_pow]
  calc twoPow 128 ≤ twoPow n := twoPow_le hn
    _ ≤ a.natAbs ^ n := Nat.pow_le_pow_left ha n

theorem neg_one_pow {b : Int} (hb : 0 ≤ b) :
    (-1 : Int) ^ b.toNat = if b % 2 = 0 then 1 else -1 := by
  split_ifs with h
  · exact Even.neg_one_pow (Nat.even_iff.2 (by omega))
  · exact Odd.neg_one_pow (Nat.odd_iff.2 (by omega))

/-- The carrier's power is the exact one. -/
theorem power_eq (a : Int) {b : Int} (hb : 0 ≤ b) : power a b = hold (a ^ b.toNat) := by
  have hunit : ∀ v : Int, -1 ≤ v → v ≤ 1 → hold v = some v := by
    intro v hl hg
    have hone : 1 < twoPow 127 := by decide
    exact hold_of_holds ⟨by unfold least; omega, by unfold greatest; omega⟩
  unfold power
  split_ifs with h0 h1 h2 h3 h4
  · subst h0
    rw [Int.toNat_zero, pow_zero, hunit 1 (by decide) (by decide)]
  · have hb' : b.toNat ≠ 0 := by omega
    rcases h1 with rfl | rfl
    · rw [zero_pow hb', hunit 0 (by decide) (by decide)]
    · rw [one_pow, hunit 1 (by decide) (by decide)]
  · subst h2
    rw [neg_one_pow hb, if_pos h3, hunit 1 (by decide) (by decide)]
  · subst h2
    rw [neg_one_pow hb, if_neg h3, hunit (-1) (by decide) (by decide)]
  · rfl
  · rw [hold_of_not_holds (not_holds_pow (by omega) (by omega))]

end Carrier

/-! ### Integer types -/

namespace IntegerType

/-- The least value of a type of any width. -/
def lowest (ty : IntegerType) : Int := if ty.signed then -twoPow (ty.bits - 1) else 0

/-- The greatest value of a type of any width. -/
def highest (ty : IntegerType) : Int :=
  if ty.signed then twoPow (ty.bits - 1) - 1 else twoPow ty.bits - 1

/-- The whole range of the type has a value. -/
def Covers (ty : IntegerType) (v : Int) : Prop := ty.lowest ≤ v ∧ v ≤ ty.highest

instance (ty : IntegerType) (v : Int) : Decidable (ty.Covers v) :=
  inferInstanceAs (Decidable (_ ∧ _))

/-- The carrier does not hold the whole range of the type. -/
def Wide (ty : IntegerType) : Prop := ¬ (Carrier.Holds ty.lowest ∧ Carrier.Holds ty.highest)

instance (ty : IntegerType) : Decidable ty.Wide := inferInstanceAs (Decidable (¬ (_ ∧ _)))

variable {ty : IntegerType}

theorem Valid.bits_pos (h : ty.Valid) : 0 < ty.bits := by
  have := h.1
  omega

/-- The range that evaluation sees is what the carrier holds of the whole range. -/
theorem contains_iff (v : Int) :
    ty.contains v = true ↔ ty.Covers v ∧ Carrier.Holds v := by
  have hpos := twoPow_pos 127
  simp only [contains, Bool.and_eq_true, decide_eq_true_eq, Covers, Carrier.Holds]
  unfold IntegerType.min IntegerType.max lowest highest Carrier.least Carrier.greatest
  -- the cut begins one bit earlier for unsigned types, which have no sign bit
  by_cases hs : ty.signed = true
  · simp only [hs, if_true]
    split_ifs with hw
    · have := twoPow_le (show 127 ≤ ty.bits - 1 by omega)
      omega
    · have := twoPow_le (show ty.bits - 1 ≤ 127 by omega)
      omega
  · simp only [hs, if_false, Bool.false_eq_true]
    split_ifs with hw
    · have := twoPow_le hw
      omega
    · have := twoPow_le (show ty.bits ≤ 127 by omega)
      omega

theorem wide_iff (h : ty.Valid) : ty.Wide ↔ ty.representable = false := by
  obtain ⟨h8, -, hmod⟩ := h
  have hpos := twoPow_pos 127
  have hdouble : twoPow 128 = twoPow 127 * 2 := twoPow_succ 127
  unfold Wide Carrier.Holds lowest highest representable Carrier.least Carrier.greatest
  by_cases hs : ty.signed = true
  · simp only [hs, if_true, decide_eq_false_iff_not]
    by_cases hw : ty.bits ≤ 128
    · have := twoPow_le (show ty.bits - 1 ≤ 127 by omega)
      have := twoPow_pos (ty.bits - 1)
      omega
    · have := twoPow_le (show 128 ≤ ty.bits - 1 by omega)
      omega
  · simp only [hs, if_false, Bool.false_eq_true, decide_eq_false_iff_not]
    -- widths are multiples of 8, so that the next one is 128
    by_cases hw : ty.bits ≤ 120
    · have := twoPow_le (show ty.bits ≤ 127 by omega)
      have := twoPow_pos ty.bits
      omega
    · have := twoPow_le (show 128 ≤ ty.bits by omega)
      omega

/-- The carrier holds every value of a type that is not wide. -/
theorem Covers.holds {v : Int} (hv : ty.Covers v) (h : ¬ ty.Wide) : Carrier.Holds v := by
  obtain ⟨⟨hl, -⟩, -, hg⟩ := Classical.not_not.1 h
  exact ⟨hl.trans hv.1, hv.2.trans hg⟩

end IntegerType

/-! ### Values in range -/

/-- The current value of every variable in view is in range. -/
def View.InRange (view : View) : Prop :=
  ∀ name declaration b v, view.lookup name declaration = some b → b.current? = some v → v.InRange

/-- Every literal in the expression is in range. -/
def Expression.LiteralsInRange (e : Expression) : Prop :=
  ∀ id v, .literal id v ∈ e.subexpressions → v.InRange

theorem Expression.LiteralsInRange.mono {e part : Expression} (h : e.LiteralsInRange)
    (hpart : part.subexpressions ⊆ e.subexpressions) : part.LiteralsInRange :=
  fun id v hv => h id v (hpart hv)

theorem Value.allInRange_iff (vs : List Value) : AllInRange vs ↔ ∀ v ∈ vs, v.InRange := by
  induction vs with
  | nil => simp [AllInRange]
  | cons v vs ih => simp [AllInRange, ih]

namespace Evaluation

theorem resolve_inRange (policy : ErrorPolicy) (error : EvaluationError) (operator : String)
    {ty : IntegerType} (hty : ty.Valid) :
    Yields Value.InRange (resolve policy error operator ty) := by
  cases policy with
  | fail => exact .fail error
  | substitute =>
    intro state v h
    simp only [resolve, substitute, Value.make?] at h
    split_ifs at h with hc
    cases h
    exact ⟨hty, hc⟩

theorem Decides.inRange (policy : ErrorPolicy) {operand : Value}
    {x : ErrorPolicy → Evaluation Value} (h : Decides operand x) (hoperand : operand.InRange) :
    Yields Value.InRange (x policy) := by
  cases h with
  | value hx hv =>
    rw [hx]
    exact .pure (hv hoperand)
  | failure hx =>
    rw [hx]
    exact .fail _
  | fault hx _ hty =>
    rw [hx]
    exact resolve_inRange _ _ _ (hty hoperand)

theorem checked_closed (policy : ErrorPolicy) : (checked policy).Closed Value.InRange where
  bool _ := trivial
  tuple vs h := (Value.allInRange_iff vs).2 h
  binary operator a b ha _ := (binary_decides operator a b).inRange policy ha
  unary operator a ha := (unary_decides operator a).inRange policy ha

/-- Literals and variables in range give values in range. -/
theorem evaluate_inRange (policy : ErrorPolicy) {view : View} (hview : view.InRange)
    {e : Expression} (he : e.LiteralsInRange) :
    Yields Value.InRange (evaluate policy view e) := by
  rw [← checked_evaluate]
  exact Arithmetic.evaluate_yields (checked_closed policy) hview e he

end Evaluation

end ContractTrace
