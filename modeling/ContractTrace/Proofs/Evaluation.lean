import ContractTrace.Proofs.Arithmetic

/-! What evaluation does under a policy. An operator gives a value, fails, or meets an
arithmetic fault, and only the last is left to the policy. Evaluations under two policies run in
lockstep along any relation of their states, as soon as the resolutions of faults do. -/

namespace ContractTrace

open ContractTrace.Task Evaluation

/-- The faults that a policy resolves. -/
def EvaluationError.IsFault : EvaluationError → Prop
  | .overflow _ _ => True
  | .divisionByZero _ => True
  | _ => False

/-- The failures that would contradict what evaluation is given: a variable without value, an
integer that was made outside of its range, or no value at all. -/
def EvaluationError.IsInternal : EvaluationError → Prop
  | .uninitializedVariable _ => True
  | .outOfRange _ _ => True
  | .emptyResult => True
  | _ => False

namespace Evaluation

/-! ### Operators -/

/-- What an operator makes of its operands. The types of values and faults are sound if the
first operand is. -/
inductive Decides (operand : Value) (x : ErrorPolicy → Evaluation Value) : Prop
  | value {v : Value} (hx : ∀ policy, x policy = pure v) (hv : operand.InRange → v.InRange)
  | failure {error : EvaluationError} (hx : ∀ policy, x policy = Task.fail error)
      (herror : ¬ error.IsFault ∧ ¬ error.IsInternal)
  | fault {error : EvaluationError} {operator : String} {ty : IntegerType}
      (hx : ∀ policy, x policy = resolve policy error operator ty) (herror : error.IsFault)
      (hty : operand.InRange → ty.Valid)

theorem settle_decides (a : Int) (ty : IntegerType) (operator : String) (raw : Option Int) :
    Decides (.integer a ty) fun policy => settle policy operator raw ty := by
  cases raw with
  | none =>
    by_cases h : ty.representable = true
    · exact .fault (fun _ => if_pos h) trivial fun ha => ha.1
    · exact .failure (fun _ => if_neg h) ⟨id, id⟩
  | some v =>
    by_cases h : ty.contains v = true
    · exact .value (fun _ => if_pos h) fun ha => ⟨ha.1, h⟩
    · exact .fault (fun _ => if_neg h) trivial fun ha => ha.1

theorem integerBinary_decides (operator : BinaryOperator) (a : Int) (ty : IntegerType) (b : Int)
    (tyRight : IntegerType) :
    Decides (.integer a ty) fun policy => integerBinary policy operator a ty b tyRight := by
  by_cases h : typesAgree operator ty tyRight = true
  · simp only [integerBinary, h, if_true]
    cases operator with
    | eq | ne | lt | le | gt | ge => exact .value (fun _ => rfl) fun _ => trivial
    | shl | shr | and | or => exact .failure (fun _ => rfl) ⟨id, id⟩
    | div | mod =>
      by_cases hb : b = 0
      · exact .fault (fun _ => if_pos hb) trivial fun ha => ha.1
      · simp only [hb, if_false]
        exact settle_decides a ty _ _
    | _ => exact settle_decides a ty _ _
  · simp only [integerBinary, h, if_false, Bool.false_eq_true]
    exact .failure (fun _ => rfl) ⟨id, id⟩

theorem binary_decides (operator : BinaryOperator) (left right : Value) :
    Decides left fun policy => binary policy operator left right := by
  cases left with
  | integer a ty =>
    cases right with
    | integer b tyRight => exact integerBinary_decides operator a ty b tyRight
    | _ => exact .failure (fun _ => rfl) ⟨id, id⟩
  | bool a =>
    cases right with
    | bool b =>
      cases operator with
      | eq | ne => exact .value (fun _ => rfl) fun _ => trivial
      | _ => exact .failure (fun _ => rfl) ⟨id, id⟩
    | _ => exact .failure (fun _ => rfl) ⟨id, id⟩
  | tuple items => exact .failure (fun _ => rfl) ⟨id, id⟩

theorem unary_decides (operator : UnaryOperator) (operand : Value) :
    Decides operand fun policy => unary policy operator operand := by
  cases operator with
  | not =>
    cases operand with
    | bool b => exact .value (fun _ => rfl) fun _ => trivial
    | _ => exact .failure (fun _ => rfl) ⟨id, id⟩
  | neg =>
    cases operand with
    | integer v ty =>
      by_cases hs : ty.signed = true
      · simp only [unary, hs, if_true]
        exact settle_decides v ty _ _
      · exact .failure (fun _ => if_neg hs) ⟨id, id⟩
    | _ => exact .failure (fun _ => rfl) ⟨id, id⟩
  | bitNot =>
    cases operand with
    | integer v ty =>
      simp only [unary]
      split_ifs
      · exact settle_decides v ty _ _
      · exact settle_decides v ty _ _
      · exact .failure (fun _ => rfl) ⟨id, id⟩
    | _ => exact .failure (fun _ => rfl) ⟨id, id⟩

section Lockstep

variable {Rel : EvaluationState → EvaluationState → Prop} {Excused : EvaluationError → Prop}
  {p q : ErrorPolicy}

/-- Faults are resolved in lockstep. -/
def Resolves (Rel : EvaluationState → EvaluationState → Prop) (Excused : EvaluationError → Prop)
    (p q : ErrorPolicy) : Prop :=
  ∀ error operator ty, error.IsFault →
    Simulates Rel Excused (resolve p error operator ty) (resolve q error operator ty)

theorem Decides.simulates {operand : Value} {x : ErrorPolicy → Evaluation Value}
    (h : Resolves Rel Excused p q) (hx : Decides operand x) :
    Simulates Rel Excused (x p) (x q) := by
  cases hx with
  | value hx =>
    rw [hx, hx]
    exact .pure _
  | failure hx =>
    rw [hx, hx]
    exact .fail _
  | fault hx herror =>
    rw [hx, hx]
    exact h _ _ _ herror

/-! ### Expressions -/

/-- The arithmetic of a policy. -/
def checked (policy : ErrorPolicy) : Arithmetic EvaluationState := ⟨binary policy, unary policy⟩

theorem arithmetic_truth : (Arithmetic.truth : Value → Evaluation Bool) = truth := by
  funext v
  cases v <;> rfl

theorem arithmetic_read (view : View) (name : String) (declaration : Option NodeId) :
    (Arithmetic.read view name declaration : Evaluation Value) =
      readVariable name (view.lookup name declaration) := by
  rw [Arithmetic.read, readVariable.eq_def]
  cases view.lookup name declaration with
  | none => rfl
  | some b => cases h : b.current? <;> simp only [h] <;> rfl

mutual

/-- Evaluation is the walk over the arithmetic of the policy. -/
theorem checked_evaluate (policy : ErrorPolicy) (view : View) : ∀ e : Expression,
    (checked policy).evaluate view e = evaluate policy view e
  | .literal _ _ => by simp only [Arithmetic.evaluate, evaluate]
  | .identifier _ name declaration => by
    simp only [Arithmetic.evaluate, evaluate, arithmetic_read]
  | .binary _ operator left right => by
    have hl := checked_evaluate policy view left
    have hr := checked_evaluate policy view right
    cases operator <;>
      simp only [Arithmetic.evaluate, evaluate, hl, hr, arithmetic_truth] <;> rfl
  | .unary _ operator operand => by
    simp only [Arithmetic.evaluate, evaluate, checked_evaluate policy view operand]
    rfl
  | .conditional _ condition whenTrue whenFalse => by
    simp only [Arithmetic.evaluate, evaluate, arithmetic_truth,
      checked_evaluate policy view condition, checked_evaluate policy view whenTrue,
      checked_evaluate policy view whenFalse]
  | .tuple _ [] => by
    simp only [Arithmetic.evaluate, evaluate, Arithmetic.evaluateEach, evaluateEach]
  | .tuple _ [component] => by
    simp only [Arithmetic.evaluate, evaluate, checked_evaluate policy view component]
  | .tuple _ (c :: d :: components) => by
    simp only [Arithmetic.evaluate, evaluate,
      checked_evaluateEach policy view (c :: d :: components)]
  | .call .. | .member .. | .index .. | .assignment .. => by
    simp only [Arithmetic.evaluate, evaluate]

theorem checked_evaluateEach (policy : ErrorPolicy) (view : View) : ∀ es : List Expression,
    (checked policy).evaluateEach view es = evaluateEach policy view es
  | [] => by simp only [Arithmetic.evaluateEach, evaluateEach]
  | e :: es => by
    simp only [Arithmetic.evaluateEach, evaluateEach, checked_evaluate policy view e,
      checked_evaluateEach policy view es]

end

theorem evaluate_simulates (h : Resolves Rel Excused p q) (view : View) (e : Expression) :
    Simulates Rel Excused (evaluate p view e) (evaluate q view e) := by
  rw [← checked_evaluate, ← checked_evaluate]
  refine Arithmetic.evaluate_simulates (P := fun _ => True) e (fun _ _ => .any _) fun part _ => ?_
  cases part with
  | identifier id name declaration => exact Arithmetic.read_simulates view name declaration
  | binary id operator left right => exact fun a b _ _ => (binary_decides operator a b).simulates h
  | unary id operator operand => exact fun a _ => (unary_decides operator a).simulates h
  | _ => trivial

end Lockstep

/-! ### The log -/

theorem substitute_logFree (operator : String) (ty : IntegerType) :
    Simulates (fun s t : EvaluationState => s.generator = t.generator) never
      (substitute operator ty) (substitute operator ty) := by
  intro s t h
  simp only [substitute, h]
  exact .inl ⟨rfl, rfl⟩

/-- Results and draws do not depend on the log. -/
theorem evaluate_logFree (policy : ErrorPolicy) (view : View) (e : Expression) :
    Simulates (fun s t : EvaluationState => s.generator = t.generator) never
      (evaluate policy view e) (evaluate policy view e) := by
  refine evaluate_simulates (fun error operator ty _ => ?_) view e
  cases policy with
  | fail => exact .fail error
  | substitute => exact substitute_logFree operator ty

/-! ### The two policies -/

/-- Up to the first fault both policies do the same, and neither draws. -/
theorem evaluate_conservative (g : Generator) (view : View) (e : Expression) :
    Simulates (fun s t : EvaluationState => s.generator = g ∧ t.generator = g)
      EvaluationError.IsFault (evaluate .fail view e) (evaluate .substitute view e) :=
  evaluate_simulates (fun _ _ _ hfault => .excuse hfault _) view e

end Evaluation

end ContractTrace
