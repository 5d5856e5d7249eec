import ContractTrace.Evaluation
import ContractTrace.Proofs.Simulation
import Mathlib.Tactic.SplitIfs

/-! Evaluation over any arithmetic. The walk over an expression is the same whatever the
operators do, so the inductions over expressions are made here, once: what all values satisfy,
what all failures satisfy, and what two evaluations have in common. -/

namespace ContractTrace

open ContractTrace.Task (Simulates Yields Raises)

/-! ### Subexpressions -/

namespace Expression

mutual

/-- The expression itself and all that it contains. -/
def subexpressions : Expression → List Expression
  | .literal id value => [.literal id value]
  | .identifier id name declaration => [.identifier id name declaration]
  | .binary id operator left right =>
    .binary id operator left right :: (left.subexpressions ++ right.subexpressions)
  | .unary id operator operand => .unary id operator operand :: operand.subexpressions
  | .conditional id condition whenTrue whenFalse =>
    .conditional id condition whenTrue whenFalse ::
      (condition.subexpressions ++ (whenTrue.subexpressions ++ whenFalse.subexpressions))
  | .tuple id components => .tuple id components :: subexpressionsOf components
  | .call id callee arguments =>
    .call id callee arguments :: (callee.subexpressions ++ subexpressionsOf arguments)
  | .member id base name => .member id base name :: base.subexpressions
  | .index id base position =>
    .index id base position :: (base.subexpressions ++ position.subexpressions)
  | .assignment id operator target source =>
    .assignment id operator target source :: (target.subexpressions ++ source.subexpressions)

def subexpressionsOf : List Expression → List Expression
  | [] => []
  | e :: es => e.subexpressions ++ subexpressionsOf es

end

theorem self_mem_subexpressions (e : Expression) : e ∈ e.subexpressions := by
  cases e <;> simp [subexpressions]

mutual

theorem subexpressions_subset : ∀ (e : Expression) {part : Expression},
    part ∈ e.subexpressions → part.subexpressions ⊆ e.subexpressions
  | .literal .., part, h | .identifier .., part, h => by
    rw [subexpressions, List.mem_singleton] at h
    rw [h]
    exact List.Subset.refl _
  | .binary _ _ left right, part, h | .index _ left right, part, h
  | .assignment _ _ left right, part, h => by
    rw [subexpressions, List.mem_cons, List.mem_append] at h
    rcases h with rfl | h | h
    · exact List.Subset.refl _
    · exact fun x hx => .tail _ (List.mem_append_left _ (subexpressions_subset left h hx))
    · exact fun x hx => .tail _ (List.mem_append_right _ (subexpressions_subset right h hx))
  | .unary _ _ operand, part, h | .member _ operand _, part, h => by
    rw [subexpressions, List.mem_cons] at h
    rcases h with rfl | h
    · exact List.Subset.refl _
    · exact fun x hx => .tail _ (subexpressions_subset operand h hx)
  | .conditional _ condition whenTrue whenFalse, part, h => by
    rw [subexpressions, List.mem_cons, List.mem_append, List.mem_append] at h
    rcases h with rfl | h | h | h
    · exact List.Subset.refl _
    · exact fun x hx => .tail _ (List.mem_append_left _ (subexpressions_subset condition h hx))
    · exact fun x hx => .tail _ (List.mem_append_right _
        (List.mem_append_left _ (subexpressions_subset whenTrue h hx)))
    · exact fun x hx => .tail _ (List.mem_append_right _
        (List.mem_append_right _ (subexpressions_subset whenFalse h hx)))
  | .tuple _ components, part, h => by
    rw [subexpressions, List.mem_cons] at h
    rcases h with rfl | h
    · exact List.Subset.refl _
    · exact fun x hx => .tail _ (subexpressionsOf_subset components h hx)
  | .call _ callee arguments, part, h => by
    rw [subexpressions, List.mem_cons, List.mem_append] at h
    rcases h with rfl | h | h
    · exact List.Subset.refl _
    · exact fun x hx => .tail _ (List.mem_append_left _ (subexpressions_subset callee h hx))
    · exact fun x hx => .tail _ (List.mem_append_right _ (subexpressionsOf_subset arguments h hx))

theorem subexpressionsOf_subset : ∀ (es : List Expression) {part : Expression},
    part ∈ subexpressionsOf es → part.subexpressions ⊆ subexpressionsOf es
  | [], part, h => by cases h
  | e :: es, part, h => by
    rw [subexpressionsOf, List.mem_append] at h
    rcases h with h | h
    · exact fun x hx => List.mem_append_left _ (subexpressions_subset e h hx)
    · exact fun x hx => List.mem_append_right _ (subexpressionsOf_subset es h hx)

end

theorem left_subset (id : NodeId) (operator : BinaryOperator) (left right : Expression) :
    left.subexpressions ⊆ (binary id operator left right).subexpressions :=
  fun _ hx => .tail _ (List.mem_append_left _ hx)

theorem right_subset (id : NodeId) (operator : BinaryOperator) (left right : Expression) :
    right.subexpressions ⊆ (binary id operator left right).subexpressions :=
  fun _ hx => .tail _ (List.mem_append_right _ hx)

end Expression

open Expression (subexpressions subexpressionsOf self_mem_subexpressions)

/-! ### Arithmetics -/

/-- What operators do to values. -/
structure Arithmetic (σ : Type) where
  binary : BinaryOperator → Value → Value → Task σ EvaluationError Value
  unary : UnaryOperator → Value → Task σ EvaluationError Value

namespace Arithmetic

variable {σ τ : Type}

def truth : Value → Task σ EvaluationError Bool
  | .bool b => pure b
  | v => Task.fail (.nonBooleanCondition v.text)

def read (view : View) (name : String) (declaration : Option NodeId) :
    Task σ EvaluationError Value :=
  match view.lookup name declaration with
  | none => Task.fail (.undeclaredIdentifier name)
  | some b => Task.require (.uninitializedVariable name) b.current?

mutual

/-- The value of an expression. -/
def evaluate (m : Arithmetic σ) (view : View) : Expression → Task σ EvaluationError Value
  | .literal _ value => pure value
  | .identifier _ name declaration => read view name declaration
  | .binary _ .and left right => do
    if ← truth (← m.evaluate view left) then
      return .bool (← truth (← m.evaluate view right))
    else return .bool false
  | .binary _ .or left right => do
    if ← truth (← m.evaluate view left) then return .bool true
    else return .bool (← truth (← m.evaluate view right))
  | .binary _ operator left right => do
    let a ← m.evaluate view left
    let b ← m.evaluate view right
    m.binary operator a b
  | .unary _ operator operand => do m.unary operator (← m.evaluate view operand)
  | .conditional _ condition whenTrue whenFalse => do
    if ← truth (← m.evaluate view condition) then m.evaluate view whenTrue
    else m.evaluate view whenFalse
  | .tuple _ [component] => m.evaluate view component
  | .tuple _ components => do return .tuple (← m.evaluateEach view components)
  | .call id _ _ => Task.fail (.unsupportedExpression .functionCall id)
  | .member id _ _ => Task.fail (.unsupportedExpression .memberAccess id)
  | .index id _ _ => Task.fail (.unsupportedExpression .indexAccess id)
  | .assignment id _ _ _ => Task.fail (.unsupportedExpression .assignment id)

def evaluateEach (m : Arithmetic σ) (view : View) :
    List Expression → Task σ EvaluationError (List Value)
  | [] => pure []
  | e :: es => do
    let v ← m.evaluate view e
    let vs ← m.evaluateEach view es
    return v :: vs

end

/-! ### What all values satisfy -/

/-- A property of values that no operator leaves. -/
structure Closed (P : Value → Prop) (m : Arithmetic σ) : Prop where
  bool : ∀ b, P (.bool b)
  tuple : ∀ vs, (∀ v ∈ vs, P v) → P (.tuple vs)
  binary : ∀ operator a b, P a → P b → Yields P (m.binary operator a b)
  unary : ∀ operator a, P a → Yields P (m.unary operator a)

section Closed

variable {P : Value → Prop} {m : Arithmetic σ} {view : View}

theorem read_yields {name : String} {declaration : Option NodeId}
    (h : ∀ b v, view.lookup name declaration = some b → b.current? = some v → P v) :
    Yields P (read view name declaration : Task σ EvaluationError Value) := by
  rw [read]
  split
  · exact .fail _
  next b hb =>
    cases hv : b.current? with
    | none => exact .fail _
    | some v => exact .pure (h b v hb hv)

mutual

/-- Literals and variables that satisfy a closed property give values that do. -/
theorem evaluate_yields (hm : m.Closed P)
    (hview : ∀ name declaration b v, view.lookup name declaration = some b →
      b.current? = some v → P v) :
    ∀ e : Expression, (∀ id v, .literal id v ∈ e.subexpressions → P v) →
      Yields P (m.evaluate view e)
  | .literal id value, h => by
    simp only [evaluate]
    exact .pure (h id value (self_mem_subexpressions _))
  | .identifier _ name declaration, _ => by
    simp only [evaluate]
    exact read_yields (hview name declaration)
  | .binary _ operator left right, h => by
    simp only [subexpressions, List.mem_cons, List.mem_append, reduceCtorEq, false_or] at h
    have hl := evaluate_yields hm hview left fun id v hv => h id v (.inl hv)
    have hr := evaluate_yields hm hview right fun id v hv => h id v (.inr hv)
    cases operator with
    | and =>
      simp only [evaluate]
      refine hl.bind fun _ _ => (Yields.any _).bind fun b _ => ?_
      split_ifs
      · exact hr.bind fun _ _ => (Yields.any _).bind fun c _ => .pure (hm.bool c)
      · exact .pure (hm.bool false)
    | or =>
      simp only [evaluate]
      refine hl.bind fun _ _ => (Yields.any _).bind fun b _ => ?_
      split_ifs
      · exact .pure (hm.bool true)
      · exact hr.bind fun _ _ => (Yields.any _).bind fun c _ => .pure (hm.bool c)
    | _ =>
      simp only [evaluate]
      exact hl.bind fun a ha => hr.bind fun b hb => hm.binary _ a b ha hb
  | .unary _ operator operand, h => by
    simp only [subexpressions, List.mem_cons, reduceCtorEq, false_or] at h
    simp only [evaluate]
    exact (evaluate_yields hm hview operand h).bind fun a ha => hm.unary operator a ha
  | .conditional _ condition whenTrue whenFalse, h => by
    simp only [subexpressions, List.mem_cons, List.mem_append, reduceCtorEq, false_or] at h
    simp only [evaluate]
    refine (Yields.any _).bind fun _ _ => (Yields.any _).bind fun b _ => ?_
    split_ifs
    · exact evaluate_yields hm hview whenTrue fun id v hv => h id v (.inr (.inl hv))
    · exact evaluate_yields hm hview whenFalse fun id v hv => h id v (.inr (.inr hv))
  | .tuple _ [], _ => by
    simp only [evaluate, evaluateEach]
    exact (Yields.pure (Q := (· = [])) rfl).bind fun vs hvs => .pure (hm.tuple vs (by simp [hvs]))
  | .tuple _ [component], h => by
    simp only [subexpressions, subexpressionsOf, List.append_nil, List.mem_cons, reduceCtorEq,
      false_or] at h
    simp only [evaluate]
    exact evaluate_yields hm hview component h
  | .tuple _ (c :: d :: components), h => by
    simp only [subexpressions, List.mem_cons, reduceCtorEq, false_or] at h
    simp only [evaluate]
    exact (evaluateEach_yields hm hview (c :: d :: components) h).bind fun vs hvs =>
      .pure (hm.tuple vs hvs)
  | .call id _ _, _ => by
    simp only [evaluate]
    exact .fail _
  | .member id _ _, _ => by
    simp only [evaluate]
    exact .fail _
  | .index id _ _, _ => by
    simp only [evaluate]
    exact .fail _
  | .assignment id _ _ _, _ => by
    simp only [evaluate]
    exact .fail _

theorem evaluateEach_yields (hm : m.Closed P)
    (hview : ∀ name declaration b v, view.lookup name declaration = some b →
      b.current? = some v → P v) :
    ∀ es : List Expression, (∀ id v, .literal id v ∈ subexpressionsOf es → P v) →
      Yields (fun vs => ∀ v ∈ vs, P v) (m.evaluateEach view es)
  | [], _ => by
    simp only [evaluateEach]
    exact .pure (by simp)
  | e :: es, h => by
    simp only [subexpressionsOf, List.mem_append] at h
    simp only [evaluateEach]
    refine (evaluate_yields hm hview e fun id v hv => h id v (.inl hv)).bind fun v hv => ?_
    refine (evaluateEach_yields hm hview es fun id v hv => h id v (.inr hv)).bind fun vs hvs => ?_
    exact .pure (List.forall_mem_cons.2 ⟨hv, hvs⟩)

end

end Closed

/-! ### What all failures satisfy -/

/-- A property of the failures of the operators and of those that the walk adds. -/
structure Confined (F : EvaluationError → Prop) (m : Arithmetic σ) : Prop where
  undeclared : ∀ name, F (.undeclaredIdentifier name)
  nonBoolean : ∀ text, F (.nonBooleanCondition text)
  unsupported : ∀ kind id, F (.unsupportedExpression kind id)
  binary : ∀ operator a b, Raises F (m.binary operator a b)
  unary : ∀ operator a, Raises F (m.unary operator a)

section Confined

variable {F : EvaluationError → Prop} {m : Arithmetic σ} {view : View}

theorem Confined.truth_raises (hm : m.Confined F) (v : Value) :
    Raises F (truth v : Task σ EvaluationError Bool) := by
  cases v with
  | bool b => exact .pure b
  | _ => exact .fail (hm.nonBoolean _)

theorem Confined.read_raises (hm : m.Confined F) {name : String} {declaration : Option NodeId}
    (h : ∀ b, view.lookup name declaration = some b → ∃ v, b.current? = some v) :
    Raises F (read view name declaration : Task σ EvaluationError Value) := by
  rw [read]
  split
  · exact .fail (hm.undeclared name)
  next b hb =>
    obtain ⟨v, hv⟩ := h b hb
    rw [hv]
    exact .pure v

mutual

/-- Where every variable in view has a value, a variable that is read has one. -/
theorem evaluate_raises (hm : m.Confined F)
    (hview : ∀ name declaration b, view.lookup name declaration = some b →
      ∃ v, b.current? = some v) :
    ∀ e : Expression, Raises F (m.evaluate view e)
  | .literal _ value => by
    simp only [evaluate]
    exact .pure value
  | .identifier _ name declaration => by
    simp only [evaluate]
    exact hm.read_raises (hview name declaration)
  | .binary _ operator left right => by
    have hl := evaluate_raises hm hview left
    have hr := evaluate_raises hm hview right
    have htruth : Raises F (do
        let v ← m.evaluate view right
        return .bool (← truth v) : Task σ EvaluationError Value) :=
      hr.bind fun v => (hm.truth_raises v).bind fun b => .pure _
    cases operator with
    | and =>
      simp only [evaluate]
      refine hl.bind fun a => (hm.truth_raises a).bind fun b => ?_
      split_ifs
      · exact htruth
      · exact .pure _
    | or =>
      simp only [evaluate]
      refine hl.bind fun a => (hm.truth_raises a).bind fun b => ?_
      split_ifs
      · exact .pure _
      · exact htruth
    | _ =>
      simp only [evaluate]
      exact hl.bind fun a => hr.bind fun b => hm.binary _ a b
  | .unary _ operator operand => by
    simp only [evaluate]
    exact (evaluate_raises hm hview operand).bind fun a => hm.unary operator a
  | .conditional _ condition whenTrue whenFalse => by
    simp only [evaluate]
    refine (evaluate_raises hm hview condition).bind fun a => (hm.truth_raises a).bind fun b => ?_
    split_ifs
    · exact evaluate_raises hm hview whenTrue
    · exact evaluate_raises hm hview whenFalse
  | .tuple _ [] => by
    simp only [evaluate, evaluateEach]
    exact (Raises.pure _).bind fun _ => .pure _
  | .tuple _ [component] => by
    simp only [evaluate]
    exact evaluate_raises hm hview component
  | .tuple _ (c :: d :: components) => by
    simp only [evaluate]
    exact (evaluateEach_raises hm hview (c :: d :: components)).bind fun _ => .pure _
  | .call .. | .member .. | .index .. | .assignment .. => by
    simp only [evaluate]
    exact .fail (hm.unsupported _ _)

theorem evaluateEach_raises (hm : m.Confined F)
    (hview : ∀ name declaration b, view.lookup name declaration = some b →
      ∃ v, b.current? = some v) :
    ∀ es : List Expression, Raises F (m.evaluateEach view es)
  | [] => by
    simp only [evaluateEach]
    exact .pure []
  | e :: es => by
    simp only [evaluateEach]
    exact (evaluate_raises hm hview e).bind fun _ =>
      (evaluateEach_raises hm hview es).bind fun _ => .pure _

end

end Confined

/-! ### Two evaluations -/

section Lockstep

variable {P : Value → Prop} {Rel : σ → τ → Prop} {Excused : EvaluationError → Prop}
  {m : Arithmetic σ} {n : Arithmetic τ} {view view' : View}

theorem truth_simulates (v : Value) :
    Simulates Rel Excused (truth v : Task σ EvaluationError Bool) (truth v) := by
  cases v with
  | bool b => exact .pure b
  | _ => exact .fail _

theorem read_simulates (view : View) (name : String) (declaration : Option NodeId) :
    Simulates Rel Excused (read view name declaration) (read view name declaration) := by
  rw [read, read]
  split
  · exact .fail _
  · exact .require _ _

/-- Two arithmetics agree at one node of an expression, on operands that satisfy `P`. -/
def AgreeAt (P : Value → Prop) (Rel : σ → τ → Prop) (Excused : EvaluationError → Prop)
    (m : Arithmetic σ) (n : Arithmetic τ) (view view' : View) : Expression → Prop
  | .identifier _ name declaration =>
    Simulates Rel Excused (read view name declaration) (read view' name declaration)
  | .binary _ operator _ _ =>
    ∀ a b, P a → P b → Simulates Rel Excused (m.binary operator a b) (n.binary operator a b)
  | .unary _ operator _ =>
    ∀ a, P a → Simulates Rel Excused (m.unary operator a) (n.unary operator a)
  | _ => True

mutual

/-- Evaluations that agree at every node run in lockstep. -/
theorem evaluate_simulates : ∀ e : Expression,
    (∀ part ∈ e.subexpressions, Yields P (m.evaluate view part)) →
    (∀ part ∈ e.subexpressions, AgreeAt P Rel Excused m n view view' part) →
    Simulates Rel Excused (m.evaluate view e) (n.evaluate view' e)
  | .literal _ value, _, _ => by
    simp only [evaluate]
    exact .pure value
  | .identifier _ name declaration, _, h => by
    simp only [evaluate]
    exact h _ (self_mem_subexpressions _)
  | .binary id operator left right, hy, h => by
    have hop := h _ (self_mem_subexpressions _)
    simp only [subexpressions, List.forall_mem_cons, List.forall_mem_append] at hy h
    have hl := evaluate_simulates left hy.2.1 h.2.1
    have hr := evaluate_simulates right hy.2.2 h.2.2
    -- conjunction and disjunction never reach the arithmetic
    cases operator with
    | and =>
      simp only [evaluate]
      refine hl.bind fun a => (truth_simulates a).bind fun b => ?_
      split_ifs
      · exact hr.bind fun c => (truth_simulates c).bind fun d => .pure _
      · exact .pure _
    | or =>
      simp only [evaluate]
      refine hl.bind fun a => (truth_simulates a).bind fun b => ?_
      split_ifs
      · exact .pure _
      · exact hr.bind fun c => (truth_simulates c).bind fun d => .pure _
    | _ =>
      simp only [evaluate]
      exact hl.bind_yields (hy.2.1 left (self_mem_subexpressions _)) fun a ha =>
        hr.bind_yields (hy.2.2 right (self_mem_subexpressions _)) fun b hb => hop a b ha hb
  | .unary _ operator operand, hy, h => by
    have hop := h _ (self_mem_subexpressions _)
    simp only [subexpressions, List.forall_mem_cons] at hy h
    simp only [evaluate]
    exact (evaluate_simulates operand hy.2 h.2).bind_yields
      (hy.2 operand (self_mem_subexpressions _)) hop
  | .conditional _ condition whenTrue whenFalse, hy, h => by
    simp only [subexpressions, List.forall_mem_cons, List.forall_mem_append] at hy h
    simp only [evaluate]
    refine (evaluate_simulates condition hy.2.1 h.2.1).bind fun a =>
      (truth_simulates a).bind fun b => ?_
    split_ifs
    · exact evaluate_simulates whenTrue hy.2.2.1 h.2.2.1
    · exact evaluate_simulates whenFalse hy.2.2.2 h.2.2.2
  | .tuple _ [], _, _ => by
    simp only [evaluate, evaluateEach]
    exact (Simulates.pure _).bind fun _ => .pure _
  | .tuple _ [component], hy, h => by
    simp only [subexpressions, subexpressionsOf, List.append_nil, List.forall_mem_cons] at hy h
    simp only [evaluate]
    exact evaluate_simulates component hy.2 h.2
  | .tuple _ (c :: d :: components), hy, h => by
    rw [subexpressions, List.forall_mem_cons] at hy h
    simp only [evaluate]
    exact (evaluateEach_simulates (c :: d :: components) hy.2 h.2).bind fun _ => .pure _
  | .call id _ _, _, _ => by
    simp only [evaluate]
    exact .fail _
  | .member id _ _, _, _ => by
    simp only [evaluate]
    exact .fail _
  | .index id _ _, _, _ => by
    simp only [evaluate]
    exact .fail _
  | .assignment id _ _ _, _, _ => by
    simp only [evaluate]
    exact .fail _

theorem evaluateEach_simulates : ∀ es : List Expression,
    (∀ part ∈ subexpressionsOf es, Yields P (m.evaluate view part)) →
    (∀ part ∈ subexpressionsOf es, AgreeAt P Rel Excused m n view view' part) →
    Simulates Rel Excused (m.evaluateEach view es) (n.evaluateEach view' es)
  | [], _, _ => by
    simp only [evaluateEach]
    exact .pure []
  | e :: es, hy, h => by
    rw [subexpressionsOf, List.forall_mem_append] at hy h
    simp only [evaluateEach]
    exact (evaluate_simulates e hy.1 h.1).bind fun _ =>
      (evaluateEach_simulates es hy.2 h.2).bind fun _ => .pure _

end

end Lockstep

end Arithmetic

end ContractTrace
