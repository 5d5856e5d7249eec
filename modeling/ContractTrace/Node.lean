import ContractTrace.Program

/-! Positions in the syntax tree: functions, blocks and statements, with their children in
the order of declaration. -/

namespace ContractTrace

inductive NodeKind
  | function
  | statement (kind : StatementKind)
deriving DecidableEq, Repr

def NodeKind.name : NodeKind → String
  | .function => "FunctionDefinition"
  | .statement kind => kind.name

inductive Node
  | function (f : Function)
  | block (b : Block)
  | statement (s : Statement)
deriving Repr, Inhabited

namespace Node

/-- The position at a statement; a block statement is a block. -/
def ofStatement : Statement → Node
  | .block id statements => .block ⟨id, statements⟩
  | s => .statement s

def id : Node → NodeId
  | .function f => f.id
  | .block b => b.id
  | .statement s => s.id

def kind : Node → NodeKind
  | .function _ => .function
  | .block _ => .statement .block
  | .statement s => .statement s.kind

/-- The statements directly below a statement. -/
def below : Statement → List Statement
  | .block _ statements => statements
  | .conditional _ _ whenTrue whenFalse => whenTrue :: whenFalse.toList
  | .whileLoop _ _ body => [body]
  | .doWhileLoop _ _ body => [body]
  | .forLoop _ initial _ advance body => initial.toList ++ advance.toList ++ [body]
  | _ => []

def children : Node → List Node
  | .function f => [.block f.body]
  | .block b => b.statements.map ofStatement
  | .statement s => (below s).map ofStatement

/-- The size of the syntax below a position, which falls from a node to its children. -/
noncomputable def size : Node → Nat
  | .function f => sizeOf f.body.statements + 2
  | .block b => sizeOf b.statements + 1
  | .statement s => sizeOf s

theorem size_ofStatement_le (s : Statement) : (ofStatement s).size ≤ sizeOf s := by
  cases s with
  | block id statements =>
    simp only [ofStatement, size, Statement.block.sizeOf_spec]
    omega
  | _ => exact Nat.le_refl _

theorem sizeOf_lt_of_mem_below {s t : Statement} (h : t ∈ below s) : sizeOf t < sizeOf s := by
  cases s with
  | block id statements =>
    have := List.sizeOf_lt_of_mem (show t ∈ statements from h)
    simp only [Statement.block.sizeOf_spec]
    omega
  | conditional id condition whenTrue whenFalse =>
    cases whenFalse <;> simp [below] at h <;> grind
  | whileLoop id condition body => simp [below] at h; grind
  | doWhileLoop id condition body => simp [below] at h; grind
  | forLoop id initial condition advance body =>
    cases initial <;> cases advance <;> simp [below] at h <;> grind
  | _ => simp [below] at h

theorem size_lt_of_mem_children {n child : Node} (h : child ∈ n.children) :
    child.size < n.size := by
  cases n with
  | function f => simp [children] at h; subst h; simp [size]
  | block b =>
    obtain ⟨t, ht, rfl⟩ := List.mem_map.1 h
    have := size_ofStatement_le t
    have := List.sizeOf_lt_of_mem ht
    show (ofStatement t).size < sizeOf b.statements + 1
    omega
  | statement s =>
    obtain ⟨t, ht, rfl⟩ := List.mem_map.1 h
    have := size_ofStatement_le t
    have := sizeOf_lt_of_mem_below ht
    show (ofStatement t).size < sizeOf s
    omega

/-- The node and everything below it, outer before inner. -/
def walk (n : Node) : List Node :=
  n :: n.children.attach.flatMap fun ⟨child, _⟩ => child.walk
termination_by n.size
decreasing_by exact size_lt_of_mem_children (by assumption)

end Node

end ContractTrace
