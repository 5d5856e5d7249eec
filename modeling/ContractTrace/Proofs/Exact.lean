import ContractTrace.Proofs.Words

/-! Evaluation is exact. An ideal arithmetic works on the unbounded integers and reports an
overflow where a result lies outside the whole range of its type. Evaluation under the policy
that fails gives the same, except that it gives up on results of wide types that the carrier
does not hold. -/

namespace ContractTrace

open ContractTrace.Task (Simulates Yields never)

/-! ### Ideal arithmetic -/

namespace Exact

/-- What becomes of the exact result of an operation on a type. -/
abbrev Report := String → IntegerType → Int → Task Unit EvaluationError Value

/-- A result outside the range of its type is a fault. -/
def unlimited : Report := fun operator ty v =>
  if ty.Covers v then pure (.integer v ty) else Task.fail (.overflow operator ty)

/-- A result of a wide type is lost where the carrier does not hold it. -/
def limited : Report := fun operator ty v =>
  if ty.Wide ∧ ¬ Carrier.Holds v then Task.fail (.unrepresentable operator ty)
  else unlimited operator ty v

/-- The operators on two integers of a type; an exponent is an integer of its own type. -/
def integerBinary (report : Report) (operator : BinaryOperator) (ty : IntegerType) (a b : Int) :
    Task Unit EvaluationError Value :=
  match operator with
  | .eq => pure (.bool (a = b))
  | .ne => pure (.bool (a ≠ b))
  | .lt => pure (.bool (a < b))
  | .le => pure (.bool (a ≤ b))
  | .gt => pure (.bool (a > b))
  | .ge => pure (.bool (a ≥ b))
  | .add => report operator.symbol ty (a + b)
  | .sub => report operator.symbol ty (a - b)
  | .mul => report operator.symbol ty (a * b)
  | .div =>
    if b = 0 then Task.fail (.divisionByZero operator)
    else report operator.symbol ty (a.tdiv b)
  | .mod =>
    if b = 0 then Task.fail (.divisionByZero operator)
    else report operator.symbol ty (a.tmod b)
  | .exp => report operator.symbol ty (a ^ b.toNat)
  | .bitAnd => report operator.symbol ty (ty.value (ty.word a &&& ty.word b))
  | .bitOr => report operator.symbol ty (ty.value (ty.word a ||| ty.word b))
  | .bitXor => report operator.symbol ty (ty.value (ty.word a ^^^ ty.word b))
  | .shl => Task.fail (.unsupportedOperator operator)
  | .shr => Task.fail (.unsupportedOperator operator)
  | .and => Task.fail (.invalidBinaryOperand operator ty.text)
  | .or => Task.fail (.invalidBinaryOperand operator ty.text)

def binary (report : Report) (operator : BinaryOperator) :
    Value → Value → Task Unit EvaluationError Value
  | .integer a ty, .integer b tyRight =>
    if Evaluation.typesAgree operator ty tyRight then integerBinary report operator ty a b
    else Task.fail (.typeMismatch operator ty.text tyRight.text)
  | .bool a, .bool b =>
    match operator with
    | .eq => pure (.bool (a == b))
    | .ne => pure (.bool (a != b))
    | _ => Task.fail (.invalidBinaryOperand operator "bool")
  | left, right => Task.fail (.typeMismatch operator left.label right.label)

def unary (report : Report) (operator : UnaryOperator) (operand : Value) :
    Task Unit EvaluationError Value :=
  match operator, operand with
  | .not, .bool b => pure (.bool !b)
  | .neg, .integer v ty =>
    if ty.signed then report "-" ty (-v)
    else Task.fail (.invalidUnaryOperand operator operand.label)
  | .bitNot, .integer v ty => report "~" ty (ty.value (~~~ ty.word v))
  | _, _ => Task.fail (.invalidUnaryOperand operator operand.label)

def arithmetic (report : Report) : Arithmetic Unit := ⟨binary report, unary report⟩

/-- The value of an expression in exact arithmetic. -/
def evaluate (report : Report) (view : View) (e : Expression) : Except EvaluationError Value :=
  ((arithmetic report).evaluate view e ()).1

end Exact

/-- The failure that unlimited arithmetic does not have. -/
def EvaluationError.IsLoss : EvaluationError → Prop
  | .unrepresentable _ _ => True
  | _ => False

theorem EvaluationError.IsFault.not_isLoss {e : EvaluationError} (h : e.IsFault) :
    ¬ e.IsLoss := by
  cases e with
  | overflow | divisionByZero => exact id
  | _ => exact h.elim

namespace Exact

/-! ### Limited and unlimited -/

section Reports

variable {Rel : Unit → Unit → Prop}

theorem limited_simulates (operator : String) (ty : IntegerType) (v : Int) :
    Simulates Rel EvaluationError.IsLoss (limited operator ty v) (unlimited operator ty v) := by
  unfold limited
  split_ifs
  · exact .excuse trivial _
  · unfold unlimited
    split_ifs
    · exact .pure _
    · exact .fail _

theorem integerBinary_simulates (operator : BinaryOperator) (ty : IntegerType) (a b : Int) :
    Simulates Rel EvaluationError.IsLoss (integerBinary limited operator ty a b)
      (integerBinary unlimited operator ty a b) := by
  cases operator with
  | eq | ne | lt | le | gt | ge => exact .pure _
  | shl | shr | and | or => exact .fail _
  | div | mod =>
    simp only [integerBinary]
    split_ifs
    · exact .fail _
    · exact limited_simulates _ _ _
  | _ => exact limited_simulates _ _ _

theorem binary_simulates (operator : BinaryOperator) (a b : Value) :
    Simulates Rel EvaluationError.IsLoss (binary limited operator a b)
      (binary unlimited operator a b) := by
  unfold binary
  split
  · split_ifs
    · exact integerBinary_simulates _ _ _ _
    · exact .fail _
  · split
    · exact .pure _
    · exact .pure _
    · exact .fail _
  · exact .fail _

theorem unary_simulates (operator : UnaryOperator) (a : Value) :
    Simulates Rel EvaluationError.IsLoss (unary limited operator a)
      (unary unlimited operator a) := by
  unfold unary
  split
  · exact .pure _
  · split_ifs
    · exact limited_simulates _ _ _
    · exact .fail _
  · exact limited_simulates _ _ _
  · exact .fail _

/-- Unless a result is lost, limited arithmetic gives what unlimited arithmetic does. -/
theorem evaluate_limited (view : View) (e : Expression) :
    evaluate limited view e = evaluate unlimited view e ∨
      ∃ loss, evaluate limited view e = .error loss ∧ loss.IsLoss := by
  have h : Simulates (fun _ _ => True) EvaluationError.IsLoss
      ((arithmetic limited).evaluate view e) ((arithmetic unlimited).evaluate view e) := by
    refine Arithmetic.evaluate_simulates (P := fun _ => True) e (fun _ _ => .any _)
      fun part _ => ?_
    cases part with
    | identifier id name declaration => exact Arithmetic.read_simulates view name declaration
    | binary id operator left right => exact fun a b _ _ => binary_simulates operator a b
    | unary id operator operand => exact fun a _ => unary_simulates operator a
    | _ => trivial
  exact (h () () trivial).imp And.left id

theorem evaluate_unlimited {view : View} {e : Expression} {result : Except EvaluationError Value}
    (h : evaluate limited view e = result)
    (hresult : ∀ loss, result = .error loss → ¬ loss.IsLoss) :
    evaluate unlimited view e = result := by
  rcases evaluate_limited view e with heq | ⟨loss, hloss, hl⟩
  · exact heq.symm.trans h
  · exact absurd hl (hresult loss (h.symm.trans hloss))

end Reports

/-! ### Evaluation and limited arithmetic -/

section Agreement

variable {state : EvaluationState} {ty : IntegerType}

/-- A carrier result is settled as the exact result is reported. -/
theorem settle_simulates (hty : ty.Valid) (operator : String) {raw : Option Int} {v : Int}
    (hraw : raw = Carrier.hold v) :
    Simulates (fun s (_ : Unit) => s = state) never (Evaluation.settle .fail operator raw ty)
      (limited operator ty v) := by
  unfold limited unlimited
  by_cases hv : Carrier.Holds v
  · rw [hraw, Carrier.hold_of_holds hv, if_neg fun h => h.2 hv]
    simp only [Evaluation.settle, IntegerType.contains_iff, hv, and_true]
    split_ifs
    · exact .pure _
    · exact .fail _
  · rw [hraw, Carrier.hold_of_not_holds hv]
    by_cases hw : ty.Wide
    · rw [if_pos ⟨hw, hv⟩]
      simp only [Evaluation.settle, (IntegerType.wide_iff hty).1 hw, Bool.false_eq_true, if_false]
      exact .fail _
    · -- the carrier holds all of the type, so that the result is outside the type as well
      have hr : ty.representable = true := by
        rw [IntegerType.wide_iff hty, Bool.not_eq_false] at hw
        exact hw
      rw [if_neg fun h => hw h.1, if_neg fun h => hv (h.holds hw)]
      simp only [Evaluation.settle, hr, if_true]
      exact .fail _

/-- A bit operation leaves the carrier with its exact result. -/
theorem bitwise_hold {f : (w : Nat) → BitVec w → BitVec w → BitVec w} (hf : Bitwise f)
    (hty : ty.Valid) {a b : Int} (ha : ty.contains a = true) (hb : ty.contains b = true) :
    some (f 128 (Carrier.bits a) (Carrier.bits b)).toInt =
      Carrier.hold (ty.value (f ty.bits (ty.word a) (ty.word b))) := by
  rw [← hf.carrier_eq hty ha hb]
  exact (Carrier.hold_of_holds (Carrier.holds_toInt _)).symm

theorem integerBinary_exact {operator : BinaryOperator} (hop : operator ≠ .mod) {a b : Int}
    {tyRight : IntegerType} (ha : (Value.integer a ty).InRange)
    (hb : (Value.integer b tyRight).InRange) (hagree : Evaluation.typesAgree operator ty tyRight) :
    Simulates (fun s (_ : Unit) => s = state) never
      (Evaluation.integerBinary .fail operator a ty b tyRight)
      (integerBinary limited operator ty a b) := by
  obtain ⟨hty, ha⟩ := ha
  unfold Evaluation.integerBinary
  rw [if_pos hagree]
  cases operator with
  | eq | ne | lt | le | gt | ge => exact .pure _
  | shl | shr | and | or => exact .fail _
  | add | sub | mul => exact settle_simulates hty _ rfl
  | div =>
    simp only [integerBinary]
    split_ifs
    · exact .fail _
    · exact settle_simulates hty _ rfl
  | mod => exact absurd rfl hop
  | exp =>
    have hunsigned : ¬ tyRight.signed = true := by simpa [Evaluation.typesAgree] using hagree
    have hb := (IntegerType.unsignedWords hunsigned hb.2).1
    exact settle_simulates hty _ (Carrier.power_eq a hb.1)
  | bitAnd =>
    obtain rfl : tyRight = ty := by simpa [Evaluation.typesAgree] using hagree
    exact settle_simulates hty _ (bitwise_hold .and hty ha hb.2)
  | bitOr =>
    obtain rfl : tyRight = ty := by simpa [Evaluation.typesAgree] using hagree
    exact settle_simulates hty _ (bitwise_hold .or hty ha hb.2)
  | bitXor =>
    obtain rfl : tyRight = ty := by simpa [Evaluation.typesAgree] using hagree
    exact settle_simulates hty _ (bitwise_hold .xor hty ha hb.2)

theorem binary_exact {operator : BinaryOperator} (hop : operator ≠ .mod) {a b : Value}
    (ha : a.InRange) (hb : b.InRange) :
    Simulates (fun s (_ : Unit) => s = state) never (Evaluation.binary .fail operator a b)
      (binary limited operator a b) := by
  cases a with
  | integer a ty =>
    cases b with
    | integer b tyRight =>
      simp only [binary]
      split_ifs with h
      · exact integerBinary_exact hop ha hb h
      · simp only [Evaluation.binary, Evaluation.integerBinary, h, Bool.false_eq_true, if_false]
        exact .fail _
    | bool | tuple => exact .fail _
  | bool a =>
    cases b with
    | bool b =>
      cases operator with
      | eq | ne => exact .pure _
      | _ => exact .fail _
    | integer | tuple => exact .fail _
  | tuple => exact .fail _

/-- The carrier holds the complement of a value unless the type is unsigned and wide. -/
theorem complement_hold (hty : ty.Valid) {v : Int} (hv : ty.contains v = true) :
    (if ty.signed then some (Carrier.complement v)
      else if ty.representable then some (ty.max - v) else none) =
      Carrier.hold (ty.value (~~~ ty.word v)) := by
  obtain ⟨hc, hh⟩ := (IntegerType.contains_iff v).1 hv
  unfold Carrier.Holds Carrier.least Carrier.greatest at hh
  split_ifs with hs hr
  · rw [IntegerType.value_not_of_signed hty hs hv, Carrier.hold_of_holds]
    unfold Carrier.complement Carrier.Holds Carrier.least Carrier.greatest
    omega
  · have hnarrow : ¬ ty.Wide := by simp [IntegerType.wide_iff hty, hr]
    have hcovers : ty.Covers (ty.value (~~~ ty.word v)) := IntegerType.covers_value _
    rw [Carrier.hold_of_holds (hcovers.holds hnarrow), IntegerType.value_not_of_unsigned hs hv,
      IntegerType.max_eq_highest hs hr]
  · -- the top bit is set in the complement of every value that the carrier holds
    rw [IntegerType.value_not_of_unsigned hs hv, Carrier.hold_of_not_holds]
    simp only [IntegerType.representable, hs, Bool.false_eq_true, if_false, decide_eq_true_eq] at hr
    have hmod := hty.2.2
    have hwide := twoPow_le (show 128 ≤ ty.bits by omega)
    have hdouble : twoPow 128 = twoPow 127 * 2 := twoPow_succ 127
    simp only [Carrier.Holds, Carrier.greatest, IntegerType.highest, hs, Bool.false_eq_true,
      if_false]
    omega

theorem unary_exact (operator : UnaryOperator) {a : Value} (ha : a.InRange) :
    Simulates (fun s (_ : Unit) => s = state) never (Evaluation.unary .fail operator a)
      (unary limited operator a) := by
  cases a with
  | integer v ty =>
    obtain ⟨hty, hv⟩ := ha
    cases operator with
    | not => exact .fail _
    | neg =>
      simp only [Evaluation.unary, unary]
      split_ifs
      · exact settle_simulates hty _ rfl
      · exact .fail _
    | bitNot =>
      have h : Simulates (fun s (_ : Unit) => s = state) never _ _ :=
        settle_simulates hty "~" (complement_hold hty hv)
      simp only [Evaluation.unary, unary]
      split_ifs at h ⊢ with hs hr
      · exact h
      · exact h
      · simp only [Evaluation.settle, hr, if_false, Bool.false_eq_true] at h
        exact h
  | bool b =>
    cases operator with
    | not => exact .pure _
    | neg | bitNot => exact .fail _
  | tuple => cases operator <;> exact .fail _

/-- Evaluation without remainders is evaluation in limited arithmetic. -/
theorem evaluate_eq {view : View} (hview : view.InRange) {e : Expression}
    (he : e.LiteralsInRange)
    (hmod : ∀ id left right, .binary id .mod left right ∉ e.subexpressions)
    (state : EvaluationState) :
    ContractTrace.evaluate .fail view e state = (evaluate limited view e, state) := by
  have h : Simulates (fun s (_ : Unit) => s = state) never
      ((Evaluation.checked .fail).evaluate view e) ((arithmetic limited).evaluate view e) := by
    refine Arithmetic.evaluate_simulates (P := Value.InRange) e ?_ ?_
    · intro part hpart
      exact Arithmetic.evaluate_yields (Evaluation.checked_closed .fail) hview part
        fun id v hv => he id v (Expression.subexpressions_subset e hpart hv)
    · intro part hpart
      cases part with
      | identifier id name declaration => exact Arithmetic.read_simulates view name declaration
      | binary id operator left right =>
        have hop : operator ≠ .mod := by
          rintro rfl
          exact hmod id left right hpart
        exact fun a b ha hb => binary_exact hop ha hb
      | unary id operator operand => exact fun a ha => unary_exact operator ha
      | _ => trivial
  have hexact := (h state () rfl).exact
  rw [Evaluation.checked_evaluate] at hexact
  exact Prod.ext hexact.1 hexact.2

/-! ### Bit operations -/

theorem limited_bitwise {f : (w : Nat) → BitVec w → BitVec w → BitVec w} (hf : Bitwise f)
    (hty : ty.Valid) {a b : Int} (ha : ty.contains a = true) (hb : ty.contains b = true)
    (operator : String) :
    limited operator ty (ty.value (f ty.bits (ty.word a) (ty.word b))) =
      pure (.integer (ty.value (f ty.bits (ty.word a) (ty.word b))) ty) := by
  have hholds : Carrier.Holds (ty.value (f ty.bits (ty.word a) (ty.word b))) := by
    rw [← hf.carrier_eq hty ha hb]
    exact Carrier.holds_toInt _
  rw [limited, if_neg fun h => h.2 hholds, unlimited, if_pos (IntegerType.covers_value _)]

/-- A bit operation on operands of one type has a result. -/
theorem binary_bitwise {operator : BinaryOperator}
    (hop : operator = .bitAnd ∨ operator = .bitOr ∨ operator = .bitXor) {a b : Int}
    (ha : (Value.integer a ty).InRange) (hb : (Value.integer b ty).InRange)
    (state : EvaluationState) :
    ∃ c, Evaluation.binary .fail operator (.integer a ty) (.integer b ty) state =
      (.ok (.integer c ty), state) := by
  have hresult : ∃ c, binary limited operator (.integer a ty) (.integer b ty) =
      pure (.integer c ty) := by
    rcases hop with rfl | rfl | rfl <;>
      simp only [binary, Evaluation.typesAgree, reduceCtorEq, if_false, decide_true, if_true,
        integerBinary]
    · exact ⟨_, limited_bitwise .and ha.1 ha.2 hb.2 _⟩
    · exact ⟨_, limited_bitwise .or ha.1 ha.2 hb.2 _⟩
    · exact ⟨_, limited_bitwise .xor ha.1 ha.2 hb.2 _⟩
  obtain ⟨c, hc⟩ := hresult
  have hne : operator ≠ .mod := by
    rintro rfl
    simp at hop
  have h : Simulates (fun s (_ : Unit) => s = state) never _ _ := binary_exact hne ha hb
  obtain ⟨hresult, hstate⟩ := (h state () rfl).exact
  rw [hc] at hresult
  exact ⟨c, Prod.ext hresult hstate⟩

/-- A bit operation whose operands evaluate to integers of one type has a value. -/
theorem evaluate_bitwise {view : View} (hview : view.InRange) {id : NodeId}
    {operator : BinaryOperator} {left right : Expression}
    (hop : operator = .bitAnd ∨ operator = .bitOr ∨ operator = .bitXor)
    (he : (Expression.binary id operator left right).LiteralsInRange) {a b : Int}
    (hleft : ContractTrace.evaluate .fail view left state = (.ok (.integer a ty), state))
    (hright : ContractTrace.evaluate .fail view right state = (.ok (.integer b ty), state)) :
    ∃ c, ContractTrace.evaluate .fail view (.binary id operator left right) state =
      (.ok (.integer c ty), state) := by
  have ha : (Value.integer a ty).InRange :=
    Evaluation.evaluate_inRange .fail hview (he.mono (Expression.left_subset _ _ _ _)) state _
      (congrArg Prod.fst hleft)
  have hb : (Value.integer b ty).InRange :=
    Evaluation.evaluate_inRange .fail hview (he.mono (Expression.right_subset _ _ _ _)) state _
      (congrArg Prod.fst hright)
  obtain ⟨c, hc⟩ := binary_bitwise hop ha hb state
  have hand : operator ≠ .and := by
    rintro rfl
    simp at hop
  have hor : operator ≠ .or := by
    rintro rfl
    simp at hop
  refine ⟨c, ?_⟩
  rw [ContractTrace.evaluate, Task.bind_of_ok hleft, Task.bind_of_ok hright, hc]
  · exact hand
  · exact hor

end Agreement

/-! ### Exactness -/

/-- Evaluation without remainders, of literals and variables in range, is evaluation in limited
arithmetic. So its values are those of unlimited arithmetic, and so are its faults; and bit
operations on operands of one type have a value. -/
theorem evaluate_exact {view : View} (hview : view.InRange) {e : Expression}
    (he : e.LiteralsInRange)
    (hmod : ∀ id left right, .binary id .mod left right ∉ e.subexpressions)
    (state : EvaluationState) :
    ContractTrace.evaluate .fail view e state = (evaluate limited view e, state) ∧
    (∀ v, (ContractTrace.evaluate .fail view e state).1 = .ok v →
      evaluate unlimited view e = .ok v) ∧
    (∀ fault, fault.IsFault → (ContractTrace.evaluate .fail view e state).1 = .error fault →
      evaluate unlimited view e = .error fault) ∧
    (∀ id operator left right a b ty,
      operator = .bitAnd ∨ operator = .bitOr ∨ operator = .bitXor →
      e = .binary id operator left right →
      (ContractTrace.evaluate .fail view left state).1 = .ok (.integer a ty) →
      (ContractTrace.evaluate .fail view right state).1 = .ok (.integer b ty) →
      ∃ c, (ContractTrace.evaluate .fail view e state).1 = .ok (.integer c ty)) := by
  have heq := evaluate_eq hview he hmod state
  refine ⟨heq, fun v hv => ?_, fun fault hfault herror => ?_, ?_⟩
  · rw [heq] at hv
    exact evaluate_unlimited hv fun loss h => by cases h
  · rw [heq] at herror
    refine evaluate_unlimited herror fun loss h => ?_
    cases h
    exact hfault.not_isLoss
  · rintro id operator left right a b ty hop rfl hleft hright
    have hl := evaluate_eq hview (he.mono (Expression.left_subset _ _ _ _))
      (fun i l r h => hmod i l r (Expression.left_subset _ _ _ _ h)) state
    have hr := evaluate_eq hview (he.mono (Expression.right_subset _ _ _ _))
      (fun i l r h => hmod i l r (Expression.right_subset _ _ _ _ h)) state
    rw [hl] at hleft
    rw [hr] at hright
    obtain ⟨c, hc⟩ := evaluate_bitwise hview hop he (hl.trans (Prod.ext hleft rfl))
      (hr.trans (Prod.ext hright rfl))
    exact ⟨c, congrArg Prod.fst hc⟩

/-- The least value of `int128` as a power, divided by `-1`. -/
def leastQuotient : Expression :=
  .binary 1 .div
    (.binary 2 .exp (.literal 3 (.integer (-2) ⟨true, 128⟩)) (.literal 4 (.integer 127 ⟨false, 8⟩)))
    (.literal 5 (.integer (-1) ⟨true, 128⟩))

theorem evaluate_exact_leastQuotient :
    let view : View := .single .storage
    (view.InRange ∧ leastQuotient.LiteralsInRange ∧
      ∀ id left right, .binary id .mod left right ∉ leastQuotient.subexpressions) ∧
    ∀ state, ContractTrace.evaluate .fail view leastQuotient state =
        (.error (.overflow "/" ⟨true, 128⟩), state) ∧
      evaluate unlimited view leastQuotient = .error (.overflow "/" ⟨true, 128⟩) := by
  intro view
  have hview : view.InRange := by
    intro name declaration b v hb
    cases declaration <;> cases hb
  have he : leastQuotient.LiteralsInRange := by
    intro id v hv
    simp only [leastQuotient, Expression.subexpressions, List.cons_append, List.nil_append,
      List.mem_cons, reduceCtorEq, Expression.literal.injEq, List.not_mem_nil, or_false,
      false_or] at hv
    rcases hv with ⟨-, rfl⟩ | ⟨-, rfl⟩ | ⟨-, rfl⟩ <;>
      exact ⟨by decide, by decide⟩
  have hmod : ∀ id left right, .binary id .mod left right ∉ leastQuotient.subexpressions := by
    intro id left right h
    simp [leastQuotient, Expression.subexpressions] at h
  have hlimited : evaluate limited view leastQuotient = .error (.overflow "/" ⟨true, 128⟩) := by
    rfl
  refine ⟨⟨hview, he, hmod⟩, fun state => ?_⟩
  obtain ⟨heq, -, hfault, -⟩ := evaluate_exact hview he hmod state
  rw [hlimited] at heq
  exact ⟨heq, hfault _ trivial (congrArg Prod.fst heq)⟩

end Exact

end ContractTrace
