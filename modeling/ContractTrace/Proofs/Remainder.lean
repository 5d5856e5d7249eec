import ContractTrace.Proofs.Draws

/-! Remainders. A remainder lies between zero and the dividend, so that it never leaves the
type of its operands. But it is formed together with the quotient, and is lost in the one case
in which the carrier does not hold that one: the least value of the carrier, divided by `-1`.
In every other case evaluation gives the remainder and draws nothing. -/

namespace ContractTrace

open ContractTrace.Task (bind_of_ok)

/-! ### The carrier -/

namespace Carrier

variable {a b : Int}

theorem natAbs_tdiv_le_half (a : Int) (hb : 2 ≤ b.natAbs) :
    2 * (a.tdiv b).natAbs ≤ a.natAbs := by
  have hquotient : (a.tdiv b).natAbs = a.natAbs / b.natAbs := Int.natAbs_tdiv a b
  have hhalf : a.natAbs / b.natAbs ≤ a.natAbs / 2 := Nat.div_le_div_left hb Nat.two_pos
  omega

/-- Of all quotients of held values one is not held: two's complement has no counterpart to its
least value. -/
theorem holds_tdiv_iff (ha : Holds a) (hb : b ≠ 0) :
    Holds (a.tdiv b) ↔ ¬ (a = least ∧ b = -1) := by
  unfold Holds least greatest at *
  by_cases hone : b = 1
  · subst hone
    rw [Int.tdiv_one]
    omega
  · by_cases hminus : b = -1
    · subst hminus
      rw [Int.tdiv_neg, Int.tdiv_one]
      omega
    · have hhalf := natAbs_tdiv_le_half a (show 2 ≤ b.natAbs by omega)
      omega

theorem remainder_of_held (ha : Holds a) (hb : b ≠ 0) (h : ¬ (a = least ∧ b = -1)) :
    remainder a b = some (a.tmod b) := by
  have hheld := hold_of_holds ((holds_tdiv_iff ha hb).2 h)
  rw [remainder, quotient, hheld, Option.map_some]

theorem remainder_least : remainder least (-1) = none := by
  have hleast : Holds least := ⟨Int.le_refl _, by decide⟩
  have hlost : ¬ Holds (least.tdiv (-1)) := by
    rw [holds_tdiv_iff hleast (by decide)]
    exact not_not_intro ⟨rfl, rfl⟩
  rw [remainder, quotient, hold_of_not_holds hlost, Option.map_none]

end Carrier

/-! ### Integer types -/

namespace IntegerType

variable {ty : IntegerType} {a : Int}

/-- The remainder has the sign of the dividend and is nowhere farther from zero. -/
theorem tmod_between (a b : Int) :
    0 ≤ a.tmod b ∧ a.tmod b ≤ a ∨ a ≤ a.tmod b ∧ a.tmod b ≤ 0 := by
  have hsize : (a.tmod b).natAbs ≤ a.natAbs := by
    rw [Int.natAbs_tmod]
    exact Nat.mod_le _ _
  rcases Int.le_total 0 a with hpos | hneg
  · have hsign := Int.tmod_nonneg b hpos
    omega
  · have hsign := Int.tmod_nonneg b (Int.neg_nonneg_of_nonpos hneg)
    rw [Int.neg_tmod] at hsign
    omega

theorem contains_tmod (ha : ty.contains a = true) (b : Int) : ty.contains (a.tmod b) = true := by
  have hzero := ty.contains_zero
  have hbetween := tmod_between a b
  simp only [contains, Bool.and_eq_true, decide_eq_true_eq] at ha hzero ⊢
  omega

/-- The least value of the carrier is a value of the signed types from 128 bits on. -/
theorem signed_of_contains_least (h : ty.contains Carrier.least = true) :
    ty.signed = true ∧ 128 ≤ ty.bits := by
  have hcovers := ((contains_iff _).1 h).1.1
  have hcarrier := twoPow_pos 127
  unfold lowest Carrier.least at hcovers
  split_ifs at hcovers with hs
  · refine ⟨hs, ?_⟩
    by_contra hnarrow
    have hless : twoPow (ty.bits - 1) ≤ twoPow 126 := twoPow_le (by omega)
    have hdouble : twoPow 127 = twoPow 126 * 2 := twoPow_succ 126
    omega
  · omega

end IntegerType

/-! ### Evaluation -/

namespace Evaluation

variable {policy : ErrorPolicy} {ty : IntegerType} {a b : Int}

theorem binary_mod (hb : b ≠ 0) :
    binary policy .mod (.integer a ty) (.integer b ty) =
      settle policy "%" (Carrier.remainder a b) ty := by
  simp only [binary, integerBinary, typesAgree, reduceCtorEq, if_false, decide_true, if_true, hb,
    BinaryOperator.symbol]

theorem binary_mod_of_held (ha : ty.contains a = true) (hb : b ≠ 0)
    (h : ¬ (a = Carrier.least ∧ b = -1)) :
    binary policy .mod (.integer a ty) (.integer b ty) = pure (.integer (a.tmod b) ty) := by
  have hheld := ((IntegerType.contains_iff a).1 ha).2
  rw [binary_mod hb, Carrier.remainder_of_held hheld hb h, settle,
    if_pos (IntegerType.contains_tmod ha b)]

/-- A lost remainder is an overflow if the carrier is just as wide as the type. -/
theorem binary_mod_least (h : ty.contains Carrier.least = true) :
    binary policy .mod (.integer Carrier.least ty) (.integer (-1) ty) =
      if ty.bits = 128 then resolve policy (.overflow "%" ty) "%" ty
      else Task.fail (.unrepresentable "%" ty) := by
  obtain ⟨hs, hwide⟩ := IntegerType.signed_of_contains_least h
  have hrepresentable : ty.representable = true ↔ ty.bits = 128 := by
    simp only [IntegerType.representable, hs, if_true, decide_eq_true_eq]
    omega
  rw [binary_mod (by decide), Carrier.remainder_least, settle]
  simp only [hrepresentable]

/-- Neither policy keeps the state and gives a value where there is a fault. -/
theorem resolve_ne_ok (error : EvaluationError) (operator : String) (state : EvaluationState)
    (v : Value) : resolve policy error operator ty state ≠ (.ok v, state) := by
  intro h
  cases policy with
  | fail => cases h
  | substitute =>
    have hlog := congrArg (fun outcome => outcome.2.log.size) h
    simp only [resolve, substitute, Array.size_push] at hlog
    omega

end Evaluation

open Evaluation

/-- Where the operands of `%` have values of one type and the divisor is not zero, evaluation
gives the remainder of the truncated quotient, under either policy and without a draw, exactly
if the operands are not the least value of the carrier and `-1`. These are of a signed type of
at least 128 bits, for which the operation is an overflow if it has 128 bits, and not
representable if it has more. -/
theorem evaluate_mod_eq_iff {policy : ErrorPolicy} {view : View} {left right : Expression}
    {s s₁ s₂ : EvaluationState} {a b : Int} {ty : IntegerType} (id : NodeId)
    (hleft : evaluate policy view left s = (.ok (.integer a ty), s₁))
    (hright : evaluate policy view right s₁ = (.ok (.integer b ty), s₂))
    (ha : ty.contains a = true) (hb : b ≠ 0) :
    let outcome := evaluate policy view (.binary id .mod left right) s
    (outcome = (.ok (.integer (a.tmod b) ty), s₂) ↔ ¬ (a = Carrier.least ∧ b = -1)) ∧
      (a = Carrier.least ∧ b = -1 → ty.signed = true ∧ 128 ≤ ty.bits ∧ a.tmod b = 0 ∧
        outcome = if ty.bits = 128 then resolve policy (.overflow "%" ty) "%" ty s₂
          else (.error (.unrepresentable "%" ty), s₂)) := by
  intro outcome
  have houtcome : outcome = binary policy .mod (.integer a ty) (.integer b ty) s₂ := by
    show evaluate policy view (.binary id .mod left right) s = _
    rw [evaluate, bind_of_ok hleft, bind_of_ok hright]
    · exact BinaryOperator.noConfusion
    · exact BinaryOperator.noConfusion
  have hlost : a = Carrier.least ∧ b = -1 → outcome =
      if ty.bits = 128 then resolve policy (.overflow "%" ty) "%" ty s₂
      else (.error (.unrepresentable "%" ty), s₂) := by
    rintro ⟨rfl, rfl⟩
    rw [houtcome, binary_mod_least ha]
    split_ifs <;> rfl
  refine ⟨⟨fun hok hleast => ?_, fun h => ?_⟩, fun hleast => ?_⟩
  · rw [hlost hleast] at hok
    split_ifs at hok
    · exact resolve_ne_ok _ _ _ _ hok
    · cases hok
  · rw [houtcome, binary_mod_of_held ha hb h]
    rfl
  · obtain ⟨hs, hwide⟩ := IntegerType.signed_of_contains_least (hleast.1 ▸ ha)
    refine ⟨hs, hwide, ?_, hlost hleast⟩
    rw [hleast.2, Int.tmod_neg, Int.tmod_one]

/-- The least value of the carrier, in a signed type of the given width, modulo `b`. -/
def leastModulo (bits : Nat) (b : Int) : Expression :=
  .binary 1 .mod (.literal 2 (.integer Carrier.least ⟨true, bits⟩))
    (.literal 3 (.integer b ⟨true, bits⟩))

theorem evaluate_mod_eq_iff_leastModulo :
    let ty : IntegerType := ⟨true, 256⟩
    (ty.contains Carrier.least = true ∧ (3 : Int) ≠ 0) ∧
      ∀ policy view state, evaluate policy view (leastModulo 256 3) state =
        (.ok (.integer (-2) ty), state) := by
  intro ty
  have hleast : ty.contains Carrier.least = true := by decide
  refine ⟨⟨hleast, by decide⟩, fun policy view state => ?_⟩
  have hliteral : ∀ id v, evaluate policy view (.literal id v) state = (.ok v, state) := by
    intro id v
    rw [evaluate]
    rfl
  have hmod := evaluate_mod_eq_iff 1 (hliteral 2 (.integer Carrier.least ty))
    (hliteral 3 (.integer 3 ty)) hleast (by decide)
  exact hmod.1.2 (by decide)

/-- In `int128` the least value modulo `-1` is an overflow, although the remainder is zero. -/
theorem evaluate_leastModulo_neg_one :
    let ty : IntegerType := ⟨true, 128⟩
    (ty.Valid ∧ ty.contains Carrier.least = true ∧ ty.contains (-1) = true) ∧
      Carrier.least.tmod (-1) = 0 ∧
      ∀ view state, evaluate .fail view (leastModulo 128 (-1)) state =
        (.error (.overflow "%" ty), state) :=
  ⟨by decide, by decide, fun _ _ => rfl⟩

end ContractTrace
