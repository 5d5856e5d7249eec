import ContractTrace.Proofs.Arithmetic
import ContractTrace.Proofs.Counterpart

/-! Expressions in normal form. Conjunctions and disjunctions are written with conditionals and
parentheses are dropped. An expression evaluates as its normal form does, draws included, so that
a program may be normalised before it is run. -/

namespace ContractTrace

/-! ### Normal forms -/

namespace Expression

/-- The truth of a condition as a value: `e ? true : false`. -/
def asBool (id : NodeId) (e : Expression) : Expression :=
  .conditional id e (.literal id (.bool true)) (.literal id (.bool false))

mutual

/-- The expression with `l ? (r ? true : false) : false` for every `l && r`, with
`l ? true : (r ? true : false)` for every `l || r`, and with the component of every tuple that has
one in its place. -/
def normalized : Expression → Expression
  | .literal id value => .literal id value
  | .identifier id name declaration => .identifier id name declaration
  | .binary id .and left right =>
    .conditional id left.normalized (asBool id right.normalized) (.literal id (.bool false))
  | .binary id .or left right =>
    .conditional id left.normalized (.literal id (.bool true)) (asBool id right.normalized)
  | .binary id operator left right => .binary id operator left.normalized right.normalized
  | .unary id operator operand => .unary id operator operand.normalized
  | .conditional id condition whenTrue whenFalse =>
    .conditional id condition.normalized whenTrue.normalized whenFalse.normalized
  | .tuple _ [component] => component.normalized
  | .tuple id components => .tuple id (normalizedAll components)
  | .call id callee arguments => .call id callee.normalized (normalizedAll arguments)
  | .member id base name => .member id base.normalized name
  | .index id base position => .index id base.normalized position.normalized
  | .assignment id operator target source =>
    .assignment id operator target.normalized source.normalized

def normalizedAll : List Expression → List Expression
  | [] => []
  | e :: es => e.normalized :: normalizedAll es

end

example (x y : Expression) : (binary 1 .or (tuple 2 [x]) (binary 3 .and x y)).normalized =
    conditional 1 x.normalized (literal 1 (.bool true))
      (asBool 1 (conditional 3 x.normalized (asBool 3 y.normalized)
        (literal 3 (.bool false)))) := rfl

/-- What does not stand in a normal form. -/
def IsReplaced : Expression → Prop
  | .binary _ .and _ _ | .binary _ .or _ _ | .tuple _ [_] => True
  | _ => False

/-- Nothing in the expression is there to be replaced. -/
def IsNormal (e : Expression) : Prop := ∀ part ∈ e.subexpressions, ¬ part.IsReplaced

theorem normalizedAll_eq_map (es : List Expression) : normalizedAll es = es.map normalized := by
  induction es with
  | nil => rfl
  | cons e es ih => rw [normalizedAll, ih, List.map_cons]

theorem isNormal_conditional {id : NodeId} {condition whenTrue whenFalse : Expression} :
    (conditional id condition whenTrue whenFalse).IsNormal ↔
      condition.IsNormal ∧ whenTrue.IsNormal ∧ whenFalse.IsNormal := by
  rw [IsNormal, subexpressions, List.forall_mem_cons, List.forall_mem_append,
    List.forall_mem_append]
  exact and_iff_right not_false

theorem isNormal_literal (id : NodeId) (value : Value) : (literal id value).IsNormal := by
  simp [IsNormal, subexpressions, IsReplaced]

theorem isNormal_asBool {id : NodeId} {e : Expression} (h : e.IsNormal) :
    (asBool id e).IsNormal :=
  isNormal_conditional.2 ⟨h, isNormal_literal _ _, isNormal_literal _ _⟩

mutual

theorem isNormal_normalized : ∀ e : Expression, e.normalized.IsNormal
  | .literal .. | .identifier .. => by
    simp [normalized, IsNormal, subexpressions, IsReplaced]
  | .binary id operator left right => by
    have hleft := isNormal_normalized left
    have hright := isNormal_normalized right
    cases operator with
    | and =>
      exact isNormal_conditional.2 ⟨hleft, isNormal_asBool hright, isNormal_literal _ _⟩
    | or =>
      exact isNormal_conditional.2 ⟨hleft, isNormal_literal _ _, isNormal_asBool hright⟩
    | _ =>
      refine List.forall_mem_cons.2 ⟨not_false, List.forall_mem_append.2 ⟨hleft, hright⟩⟩
  | .unary _ _ operand => List.forall_mem_cons.2 ⟨not_false, isNormal_normalized operand⟩
  | .conditional _ condition whenTrue whenFalse =>
    isNormal_conditional.2 ⟨isNormal_normalized condition, isNormal_normalized whenTrue,
      isNormal_normalized whenFalse⟩
  | .tuple _ [] => List.forall_mem_cons.2 ⟨not_false, isNormal_normalizedAll []⟩
  | .tuple _ [component] => isNormal_normalized component
  | .tuple _ (c :: d :: components) =>
    List.forall_mem_cons.2 ⟨not_false, isNormal_normalizedAll (c :: d :: components)⟩
  | .call _ callee arguments =>
    List.forall_mem_cons.2 ⟨not_false, List.forall_mem_append.2
      ⟨isNormal_normalized callee, isNormal_normalizedAll arguments⟩⟩
  | .member _ base _ => List.forall_mem_cons.2 ⟨not_false, isNormal_normalized base⟩
  | .index _ base position =>
    List.forall_mem_cons.2 ⟨not_false, List.forall_mem_append.2
      ⟨isNormal_normalized base, isNormal_normalized position⟩⟩
  | .assignment _ _ target source =>
    List.forall_mem_cons.2 ⟨not_false, List.forall_mem_append.2
      ⟨isNormal_normalized target, isNormal_normalized source⟩⟩

theorem isNormal_normalizedAll : ∀ es : List Expression,
    ∀ part ∈ subexpressionsOf (normalizedAll es), ¬ part.IsReplaced
  | [] => List.forall_mem_nil _
  | e :: es => List.forall_mem_append.2 ⟨isNormal_normalized e, isNormal_normalizedAll es⟩

end

end Expression

/-! ### Evaluation -/

open Evaluation

theorem evaluate_asBool (policy : ErrorPolicy) (view : View) (id : NodeId) (e : Expression) :
    evaluate policy view (.asBool id e) =
      do return .bool (← truth (← evaluate policy view e)) := by
  simp only [Expression.asBool, evaluate]
  congr 1
  funext v
  congr 1
  funext b
  cases b <;> rfl

mutual

/-- An expression and its normal form have the same value or failure, draws and notes. -/
theorem evaluate_normalized (policy : ErrorPolicy) (view : View) : ∀ e : Expression,
    evaluate policy view e.normalized = evaluate policy view e
  | .literal .. | .identifier .. => by rw [Expression.normalized]
  | .binary _ operator left right => by
    have hleft := evaluate_normalized policy view left
    have hright := evaluate_normalized policy view right
    cases operator <;>
      simp only [Expression.normalized, evaluate, evaluate_asBool, hleft, hright]
  | .unary _ _ operand => by
    simp only [Expression.normalized, evaluate, evaluate_normalized policy view operand]
  | .conditional _ condition whenTrue whenFalse => by
    simp only [Expression.normalized, evaluate, evaluate_normalized policy view condition,
      evaluate_normalized policy view whenTrue, evaluate_normalized policy view whenFalse]
  | .tuple _ [] => rfl
  | .tuple _ [component] => by
    rw [Expression.normalized, evaluate, evaluate_normalized policy view component]
  | .tuple _ (c :: d :: components) => by
    have heach := evaluateEach_normalized policy view (c :: d :: components)
    simp only [Expression.normalizedAll] at heach
    simp only [Expression.normalized, Expression.normalizedAll, evaluate, heach]
  | .call .. | .member .. | .index .. | .assignment .. => by
    simp only [Expression.normalized, evaluate]

theorem evaluateEach_normalized (policy : ErrorPolicy) (view : View) : ∀ es : List Expression,
    evaluateEach policy view (Expression.normalizedAll es) = evaluateEach policy view es
  | [] => by rw [Expression.normalizedAll]
  | e :: es => by
    simp only [Expression.normalizedAll, evaluateEach, evaluate_normalized policy view e,
      evaluateEach_normalized policy view es]

end

/-! ### Programs -/

namespace Statement

mutual

/-- The statement with the arguments of every emit and the expression of every return in normal
form. -/
def normalized : Statement → Statement
  | .block id statements => .block id (normalizedAll statements)
  | .emit id call => .emit id { call with arguments := Expression.normalizedAll call.arguments }
  | .ret id expression => .ret id (expression.map Expression.normalized)
  | .conditional id condition whenTrue whenFalse =>
    .conditional id condition whenTrue.normalized (normalizedOption whenFalse)
  | .whileLoop id condition body => .whileLoop id condition body.normalized
  | .doWhileLoop id condition body => .doWhileLoop id condition body.normalized
  | .forLoop id initial condition advance body =>
    .forLoop id (normalizedOption initial) condition (normalizedOption advance) body.normalized
  | s => s

def normalizedAll : List Statement → List Statement
  | [] => []
  | s :: ss => s.normalized :: normalizedAll ss

def normalizedOption : Option Statement → Option Statement
  | none => none
  | some s => some s.normalized

end

end Statement

def Function.normalized (f : Function) : Function :=
  { f with body := { f.body with statements := Statement.normalizedAll f.body.statements } }

def Contract.normalized (c : Contract) : Contract :=
  { c with functions := c.functions.map Function.normalized }

/-- The program with all that it evaluates in normal form. -/
def Program.normalized (p : Program) : Program :=
  { p with source := ⟨p.source.contracts.map Contract.normalized⟩ }

/-! ### Runs -/

namespace Flat

/-- A value in a context is that of the normal form. -/
theorem Context.value_normalized (c c' : Context) (hpolicy : c'.policy = c.policy)
    (hlocals : c'.locals = c.locals) (hstorage : c'.storage = c.storage) (e : Expression) :
    Context.SameValue c c' e e.normalized := by
  rw [Context.SameValue]
  funext p
  rw [Context.value, Context.value, hpolicy, hlocals, hstorage, evaluate_normalized]

variable {V : Expression → Expression → Prop} (hV : ∀ e, V e e.normalized)

include hV

theorem alike_emit (id : NodeId) (call : Call) :
    Alike V (.emit id call) (Statement.emit id call).normalized := by
  refine .emit id rfl ?_
  rw [Expression.normalizedAll_eq_map, List.forall₂_map_right_iff, List.forall₂_same]
  exact fun e _ => hV e

theorem alike_ret (id : NodeId) (expression : Option Expression) :
    Alike V (.ret id expression) (Statement.ret id expression).normalized := by
  refine .ret id ?_
  cases expression with
  | none => exact .none
  | some e => exact .some (hV e)

omit hV

mutual

/-- Blocks are spliced alike before and after. -/
theorem splice_normalized (hV : ∀ e, V e e.normalized) : ∀ s : Statement,
    List.Forall₂ (Alike V) (splice s) (splice s.normalized)
  | .block _ statements => spliceAll_normalized hV statements
  | .emit id call => .cons (alike_emit hV id call) .nil
  | .ret id expression => .cons (alike_ret hV id expression) .nil
  | .effect .. | .declaration .. | .conditional .. | .whileLoop .. | .doWhileLoop ..
  | .forLoop .. | .breakLoop .. | .continueLoop .. | .placeholder .. | .revert .. =>
    .cons (.refused rfl rfl rfl rfl) .nil

theorem spliceAll_normalized (hV : ∀ e, V e e.normalized) : ∀ ss : List Statement,
    List.Forall₂ (Alike V) (spliceAll ss) (spliceAll (Statement.normalizedAll ss))
  | [] => .nil
  | s :: ss => List.rel_append (splice_normalized hV s) (spliceAll_normalized hV ss)

end

end Flat

variable {Called : Contract → Function → Prop}

theorem Function.matches_normalized (f : Function) (c : Contract) :
    f.Matches (Called c) Eq c c.normalized f.normalized := by
  refine ⟨rfl, rfl, fun _ policy locals storage storage' hstorage => ?_⟩
  have hvalue := Flat.Context.value_normalized ⟨policy, c, locals, storage⟩
    ⟨policy, c.normalized, locals, storage'⟩ rfl rfl hstorage.symm
  refine Flat.Context.walk_congr ?_ (Flat.spliceAll_normalized hvalue f.body.statements)
  rfl

theorem Contract.matches_normalized (c : Contract) :
    c.Matches Called (fun _ => Eq) c.normalized := by
  refine ⟨rfl, ?_, fun name => ?_⟩
  · rw [Contract.normalized]
    cases Flat.seed c.storage with
    | error e => exact .error e
    | ok storage => exact .ok rfl
  · refine rel_find? (fun f f' hm => ?_) (List.forall₂_map_right_iff.2
      (List.forall₂_same.2 fun f _ => f.matches_normalized c))
    rw [hm.name_eq]

/-- Normalising an expression keeps what it evaluates to, with all draws, and leaves nothing in it
to be replaced; and a program that is normalised answers every sequence of runs and transactions
with the same results and the same traces. -/
theorem normalized_preserves :
    (∀ (policy : ErrorPolicy) (view : View) (e : Expression),
      evaluate policy view e.normalized = evaluate policy view e ∧ e.normalized.IsNormal) ∧
    ∀ (program : Program) (configuration : Configuration) (requests : List Session.Request),
      Session.answers requests (.start program.normalized configuration) =
        Session.answers requests (.start program configuration) := by
  refine ⟨fun policy view e => ⟨evaluate_normalized policy view e, e.isNormal_normalized⟩, ?_⟩
  intro program configuration requests
  refine Session.answers_of_matches (R := fun _ => Eq) (SourceUnit.matches_of_forall₂ ?_) rfl
  exact List.forall₂_map_right_iff.2 (List.forall₂_same.2 fun c _ => c.matches_normalized)

end ContractTrace
