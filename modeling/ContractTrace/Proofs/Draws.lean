import ContractTrace.Proofs.Words

/-! Drawn values. A draw has 128 bits, a number below a bound is below it whatever the stream
gives, and a value drawn for an integer type is one of that type. -/

namespace ContractTrace

namespace Generator

/-! ### The stream -/

theorem quarter_lt (s : Block) (i : Nat) : quarter s i < twoPow 128 := by
  have hword : ∀ k, (s.toArray.getD (4 * i + k) 0).toNat < twoPow 32 :=
    fun k => UInt32.toNat_lt _
  have h32 : twoPow 32 = 4294967296 := rfl
  have h64 : twoPow 64 = 18446744073709551616 := rfl
  have h96 : twoPow 96 = 79228162514264337593543950336 := rfl
  have h128 : twoPow 128 = 340282366920938463463374607431768211456 := rfl
  have h0 := hword 0
  have h1 := hword 1
  have h2 := hword 2
  have h3 := hword 3
  simp only [quarter, h32, h64, h96, h128] at h0 h1 h2 h3 ⊢
  omega

theorem draw_lt (g : Generator) : g.draw.1 < twoPow 128 := quarter_lt _ _

/-! ### Values in a range -/

/-- The high half of a product with a draw is below the other factor. -/
theorem below_lt {span : Nat} (hspan : 0 < span) (tries : Nat) (g : Generator) :
    (below span tries g).1 < span := by
  induction tries generalizing g with
  | zero => exact hspan
  | succ tries ih =>
    rw [below]
    dsimp only
    split_ifs
    · have hproduct : g.draw.1 * span < twoPow 128 * span :=
        Nat.mul_lt_mul_of_pos_right (draw_lt g) hspan
      exact Nat.div_lt_of_lt_mul hproduct
    · exact ih _

/-- A range that the carrier holds has the values that are drawn for it. -/
theorem between_mem {least greatest : Int} (h : least ≤ greatest) (hl : Carrier.least ≤ least)
    (hg : greatest ≤ Carrier.greatest) (g : Generator) :
    least ≤ (between least greatest g).1 ∧ (between least greatest g).1 ≤ greatest := by
  have hdouble : twoPow 128 = twoPow 127 * 2 := twoPow_succ 127
  have hbelow := below_lt (show 0 < (greatest - least + 1).toNat by omega) period g
  rcases hdraw : g.draw with ⟨v, drawn⟩
  rcases hn : below (greatest - least + 1).toNat period g with ⟨n, searched⟩
  rw [hn] at hbelow
  rw [between, hdraw, hn]
  split_ifs with hspan
  · -- only the whole carrier has that many values
    have hv := Carrier.holds_toInt (BitVec.ofNat 128 v)
    unfold Carrier.Holds at hv
    unfold Carrier.least at hl hv
    unfold Carrier.greatest at hg hv
    dsimp only
    omega
  · dsimp only at hbelow ⊢
    omega

end Generator

/-! ### Values of a type -/

namespace IntegerType

variable (ty : IntegerType)

theorem contains_zero : ty.contains 0 = true := by
  rw [contains_iff]
  have hbits := twoPow_pos ty.bits
  have hlower := twoPow_pos (ty.bits - 1)
  have hcarrier := twoPow_pos 127
  unfold Covers lowest highest Carrier.Holds Carrier.least Carrier.greatest
  split_ifs <;> omega

theorem least_le_min : Carrier.least ≤ ty.min := by
  have hpos := twoPow_pos 127
  unfold IntegerType.min Carrier.least
  split_ifs with hs hw
  · exact le_rfl
  · have := twoPow_le (show ty.bits - 1 ≤ 127 by omega)
    omega
  · omega

theorem max_le_greatest : ty.max ≤ Carrier.greatest := by
  unfold IntegerType.max Carrier.greatest
  split_ifs with hs hw hw
  · exact le_rfl
  · have := twoPow_le (show ty.bits - 1 ≤ 127 by omega)
    omega
  · exact le_rfl
  · have := twoPow_le (show ty.bits ≤ 127 by omega)
    omega

/-- A value drawn for a type is in its range. -/
theorem contains_between (g : Generator) : ty.contains (g.between ty.min ty.max).1 = true := by
  have hzero := ty.contains_zero
  simp only [contains, Bool.and_eq_true, decide_eq_true_eq] at hzero ⊢
  exact g.between_mem (hzero.1.trans hzero.2) ty.least_le_min ty.max_le_greatest

end IntegerType

/-- Substitution does not fail. -/
theorem Evaluation.substitute_eq_ok (operator : String) (ty : IntegerType)
    (state : EvaluationState) : ∃ v, (substitute operator ty state).1 = .ok v := by
  have hdrawn := ty.contains_between state.generator
  refine ⟨.integer (state.generator.between ty.min ty.max).1 ty, ?_⟩
  simp only [substitute, Value.make?, hdrawn, if_true]

end ContractTrace
