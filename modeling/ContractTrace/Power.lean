/-! Powers of two, which bound the words of every width. -/

namespace ContractTrace

/-- The number of values of `n` bits. -/
def twoPow (n : Nat) : Nat := Nat.pow 2 n

@[simp] theorem twoPow_zero : twoPow 0 = 1 := rfl

theorem twoPow_succ (n : Nat) : twoPow (n + 1) = twoPow n * 2 := rfl

theorem twoPow_pos (n : Nat) : 0 < twoPow n := by
  induction n with
  | zero => exact Nat.one_pos
  | succ n ih =>
    rw [twoPow_succ]
    exact Nat.mul_pos ih Nat.two_pos

end ContractTrace
