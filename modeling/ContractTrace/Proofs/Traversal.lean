import ContractTrace.Document.Statement
import ContractTrace.Json.Writer
import ContractTrace.Node

/-! The walk from a statement is complete. It meets the statement and every statement inside it
once, in the order of the document: the objects of the document that are tagged as statements are
those of the nodes met, one after the other, and they begin in the text in that order. -/

namespace ContractTrace

/-! ### Statements inside statements -/

namespace Statement

mutual

/-- The statement and all statements inside it, outer before inner and in the order of fields. -/
def nested : Statement → List Statement
  | .block id statements => .block id statements :: nestedAll statements
  | .conditional id condition whenTrue whenFalse =>
    .conditional id condition whenTrue whenFalse :: (nested whenTrue ++ nestedOption whenFalse)
  | .whileLoop id condition body => .whileLoop id condition body :: nested body
  | .doWhileLoop id condition body => .doWhileLoop id condition body :: nested body
  | .forLoop id initial condition advance body =>
    .forLoop id initial condition advance body ::
      (nestedOption initial ++ nestedOption advance ++ nested body)
  | s => [s]

def nestedAll : List Statement → List Statement
  | [] => []
  | s :: ss => nested s ++ nestedAll ss

def nestedOption : Option Statement → List Statement
  | none => []
  | some s => nested s

end

end Statement

/-! ### The walk -/

namespace Node

theorem walk_eq (n : Node) : n.walk = n :: n.children.flatMap walk := by
  rw [walk]
  simp

/-- Statements and all that is below them, in the order of the text. -/
def walkAll (ss : List Statement) : List Node := (ss.map ofStatement).flatMap walk

theorem walk_block (b : Block) : (Node.block b).walk = .block b :: walkAll b.statements :=
  walk_eq _

theorem walkAll_cons (s : Statement) (ss : List Statement) :
    walkAll (s :: ss) = (ofStatement s).walk ++ walkAll ss := rfl

theorem walkAll_append (ss ts : List Statement) : walkAll (ss ++ ts) = walkAll ss ++ walkAll ts := by
  simp [walkAll]

@[simp] theorem id_ofStatement (s : Statement) : (ofStatement s).id = s.id := by
  cases s <;> rfl

@[simp] theorem kind_ofStatement (s : Statement) : (ofStatement s).kind = .statement s.kind := by
  cases s <;> rfl

/-- The walk meets the statement and what is below it. -/
theorem walk_ofStatement_eq (s : Statement) :
    (ofStatement s).walk = ofStatement s :: walkAll (below s) := by
  rw [walk_eq]
  cases s <;> rfl

mutual

theorem walk_ofStatement : ∀ s : Statement, (ofStatement s).walk = s.nested.map ofStatement
  | .block id ss => by
    rw [walk_ofStatement_eq, below, walkAll_nested ss, Statement.nested, List.map_cons]
  | .conditional id condition whenTrue whenFalse => by
    rw [walk_ofStatement_eq, below, walkAll_cons, walk_ofStatement whenTrue,
      walkAll_option whenFalse, Statement.nested, List.map_cons, List.map_append]
  | .whileLoop id condition body | .doWhileLoop id condition body => by
    rw [walk_ofStatement_eq, below, walkAll_cons, walk_ofStatement body, Statement.nested,
      List.map_cons]
    exact congrArg _ (List.append_nil _)
  | .forLoop id initial condition advance body => by
    rw [walk_ofStatement_eq, below, walkAll_append, walkAll_append, walkAll_option initial,
      walkAll_option advance, walkAll_cons, walk_ofStatement body, Statement.nested, List.map_cons,
      List.map_append, List.map_append]
    exact congrArg _ (congrArg _ (List.append_nil _))
  | .emit .. | .ret .. | .effect .. | .declaration .. | .breakLoop .. | .continueLoop ..
  | .placeholder .. | .revert .. => by
    rw [walk_ofStatement_eq]
    rfl

theorem walkAll_nested : ∀ ss : List Statement,
    walkAll ss = (Statement.nestedAll ss).map ofStatement
  | [] => rfl
  | s :: ss => by
    rw [walkAll_cons, walk_ofStatement s, walkAll_nested ss, Statement.nestedAll, List.map_append]

theorem walkAll_option : ∀ o : Option Statement,
    walkAll o.toList = (Statement.nestedOption o).map ofStatement
  | none => rfl
  | some s => (List.append_nil _).trans (walk_ofStatement s)

end

end Node

/-! ### Objects of a document -/

namespace Json

mutual

/-- The objects of a tree, in the order in which they begin. -/
def objects : Json → List Json
  | .array items => objectsAll items
  | .object members => .object members :: objectsMembers members
  | _ => []

def objectsAll : List Json → List Json
  | [] => []
  | j :: js => objects j ++ objectsAll js

def objectsMembers : List (String × Json) → List Json
  | [] => []
  | (_, j) :: ms => objects j ++ objectsMembers ms

end

/-- The trees begin in the text in this order, each behind the beginning of the one before. -/
inductive InOrder : List Char → List Json → Prop
  | done (text : List Char) : InOrder text []
  | skip (c : Char) {text : List Char} {js : List Json} (h : InOrder text js) :
      InOrder (c :: text) js
  | begins {c : Char} {text : List Char} {j : Json} {js : List Json}
      (hj : compactChars j <+: c :: text) (h : InOrder text js) : InOrder (c :: text) (j :: js)

namespace InOrder

variable {text : List Char} {js : List Json}

theorem append_left (h : InOrder text js) (before : List Char) : InOrder (before ++ text) js := by
  induction before with
  | nil => exact h
  | cons c before ih => exact .skip c ih

theorem filter (h : InOrder text js) (p : Json → Bool) : InOrder text (js.filter p) := by
  induction h with
  | done text => exact .done text
  | skip c _ ih => exact .skip c ih
  | @begins c text j js hj _ ih =>
    rw [List.filter_cons]
    split
    · exact .begins hj ih
    · exact .skip c ih

end InOrder

mutual

/-- The objects of a tree begin in its text in their order, and before what stands behind. -/
theorem objects_inOrder : ∀ (j : Json) {rest : List Char} {js : List Json}, InOrder rest js →
    InOrder (compactChars j ++ rest) (objects j ++ js)
  | .array items, rest, js, h => by
    rw [compactChars, objects, List.cons_append]
    exact .skip _ (objectsAll_inOrder items true h)
  | .object members, rest, js, h => by
    rw [objects, List.cons_append, compactChars, List.cons_append]
    -- the object begins at its brace, and its members begin behind that
    refine .begins ?_ (objectsMembers_inOrder members true h)
    rw [compactChars, ← List.cons_append]
    exact List.prefix_append _ _
  | .null, _, _, h | .bool _, _, _, h | .integer _, _, _, h | .real _, _, _, h
  | .string _, _, _, h | .invalid, _, _, h | .cut, _, _, h => by
    simp only [objects, List.nil_append]
    exact h.append_left _

theorem objectsAll_inOrder : ∀ (items : List Json) (first : Bool) {rest : List Char}
    {js : List Json}, InOrder rest js →
    InOrder (compactItems first items ++ rest) (objectsAll items ++ js)
  | [], first, rest, js, h => by
    rw [compactItems, objectsAll]
    exact h.append_left _
  | j :: items, first, rest, js, h => by
    rw [compactItems, objectsAll, List.append_assoc, List.append_assoc, List.append_assoc]
    exact (objects_inOrder j (objectsAll_inOrder items false h)).append_left _

theorem objectsMembers_inOrder : ∀ (members : List (String × Json)) (first : Bool)
    {rest : List Char} {js : List Json}, InOrder rest js →
    InOrder (compactMembers first members ++ rest) (objectsMembers members ++ js)
  | [], first, rest, js, h => by
    rw [compactMembers, objectsMembers]
    exact h.append_left _
  | (key, j) :: members, first, rest, js, h => by
    have hj := objects_inOrder j (objectsMembers_inOrder members false h)
    rw [compactMembers, objectsMembers]
    simp only [List.append_assoc, List.cons_append]
    exact ((hj.skip ':').append_left _).append_left _

end

/-! ### Statements of a document -/

/-- Whether an object is tagged as a statement. -/
def isStatement : Json → Bool
  | .object members =>
    match members.lookup Document.tagName with
    | some (.string name) => StatementKind.all.any (·.name = name)
    | _ => false
  | _ => false

/-- The statements of a document, in the order in which they begin. -/
def statements (j : Json) : List Json := j.objects.filter isStatement

theorem objectsAll_eq (items : List Json) : objectsAll items = items.flatMap objects := by
  induction items with
  | nil => rw [objectsAll, List.flatMap_nil]
  | cons j items ih => rw [objectsAll, ih, List.flatMap_cons]

theorem objectsMembers_eq (members : List (String × Json)) :
    objectsMembers members = members.flatMap fun m => m.2.objects := by
  induction members with
  | nil => rw [objectsMembers, List.flatMap_nil]
  | cons m members ih => rw [objectsMembers, ih, List.flatMap_cons]

@[simp] theorem statements_null : statements .null = [] := rfl

@[simp] theorem statements_bool (b : Bool) : statements (.bool b) = [] := rfl

@[simp] theorem statements_integer (n : Int) : statements (.integer n) = [] := rfl

@[simp] theorem statements_string (s : String) : statements (.string s) = [] := rfl

@[simp] theorem statements_array (items : List Json) :
    statements (.array items) = items.flatMap statements := by
  rw [statements, objects, objectsAll_eq, List.filter_flatMap]
  rfl

theorem statements_object (members : List (String × Json)) :
    statements (.object members) =
      [.object members].filter isStatement ++ members.flatMap fun m => m.2.statements := by
  rw [statements, objects, objectsMembers_eq, ← List.singleton_append, List.filter_append,
    List.filter_flatMap]
  rfl

/-- A record without a tag is no statement. -/
theorem statements_record {members : List (String × Json)}
    (h : members.lookup Document.tagName = none) :
    statements (.object members) = members.flatMap fun m => m.2.statements := by
  rw [statements_object]
  simp [isStatement, h]

/-- A tagged node is a statement if its tag is that of one. -/
theorem statements_node (kind : String) (id : NodeId) (fields : List (String × Json)) :
    statements (.object (nodeMembers kind id ++ fields)) =
      (if StatementKind.all.any (·.name = kind) then [.object (nodeMembers kind id ++ fields)]
        else []) ++ fields.flatMap fun m => m.2.statements := by
  rw [statements_object, List.flatMap_append, List.filter_cons, List.filter_nil]
  simp [isStatement, nodeMembers, Document.idJson]

end Json

open Document Json

theorem Document.statements_optionJson {α : Type} {toJson : α → Json}
    (h : ∀ a, (toJson a).statements = []) (o : Option α) : (optionJson toJson o).statements = [] := by
  cases o with
  | none => rfl
  | some a => exact h a

namespace Value

mutual

theorem statements_toJson : ∀ v : Value, v.toJson.statements = []
  | .integer v ty => by
    have hliteral : (literalJson v).statements = [] := by
      rw [literalJson]
      split <;> rfl
    have hfields : (Json.object [("value", literalJson v), ("type", .string ty.text)]).statements
        = [] := by
      rw [statements_record rfl]
      simp [hliteral]
    rw [toJson, statements_record rfl]
    simp [hfields]
  | .bool b => by
    rw [toJson, statements_record rfl]
    simp
  | .tuple items => by
    rw [toJson, statements_record rfl]
    simpa using statements_toJsons items

theorem statements_toJsons : ∀ vs : List Value, ∀ j ∈ toJsons vs, j.statements = []
  | [] => by simp [toJsons]
  | v :: vs => by simpa [toJsons] using ⟨statements_toJson v, statements_toJsons vs⟩

end

end Value

namespace Expression

mutual

/-- No statement is inside an expression. -/
theorem statements_toJson : ∀ e : Expression, e.toJson.statements = []
  | .literal id v => by
    rw [toJson, statements_node, if_neg (by decide)]
    simpa using v.statements_toJson
  | .identifier id name declaration => by
    rw [toJson, statements_node, if_neg (by decide)]
    simpa using statements_optionJson (fun _ => rfl) declaration
  | .binary id operator left right => by
    rw [toJson, statements_node, if_neg (by decide)]
    simpa using ⟨statements_toJson left, statements_toJson right⟩
  | .unary id operator operand => by
    rw [toJson, statements_node, if_neg (by decide)]
    simpa using statements_toJson operand
  | .conditional id condition whenTrue whenFalse => by
    rw [toJson, statements_node, if_neg (by decide)]
    simpa using
      ⟨statements_toJson condition, statements_toJson whenTrue, statements_toJson whenFalse⟩
  | .tuple id components => by
    rw [toJson, statements_node, if_neg (by decide)]
    simpa using statements_toJsons components
  | .call id callee arguments => by
    rw [toJson, statements_node, if_neg (by decide)]
    simpa using ⟨statements_toJson callee, statements_toJsons arguments⟩
  | .member id base name => by
    rw [toJson, statements_node, if_neg (by decide)]
    simpa using statements_toJson base
  | .index id base position => by
    rw [toJson, statements_node, if_neg (by decide)]
    simpa using ⟨statements_toJson base, statements_toJson position⟩
  | .assignment id operator target source => by
    rw [toJson, statements_node, if_neg (by decide)]
    simpa using ⟨statements_toJson target, statements_toJson source⟩

theorem statements_toJsons : ∀ es : List Expression, ∀ j ∈ toJsons es, j.statements = []
  | [] => by simp [toJsons]
  | e :: es => by simpa [toJsons] using ⟨statements_toJson e, statements_toJsons es⟩

end

end Expression

theorem Call.statements_toJson (call : Call) : call.toJson.statements = [] := by
  rw [Call.toJson, statements_record rfl]
  simpa [idJson] using
    ⟨call.callee.statements_toJson, Expression.statements_toJsons call.arguments⟩

theorem Parameter.statements_toJson (p : Parameter) : p.toJson.statements = [] := by
  rw [Parameter.toJson, statements_record rfl]
  simp [idJson]

namespace Statement

mutual

/-- The statements of a document are those inside the statement that it describes. -/
theorem statements_toJson : ∀ s : Statement, s.toJson.statements = s.nested.map toJson
  | .block id ss => by
    rw [toJson, statements_node, if_pos (by decide), nested, List.map_cons, ← statements_toJsons ss]
    simp [toJson]
  | .emit id call | .revert id call => by
    rw [toJson, statements_node, if_pos (by decide)]
    simp [nested, toJson, call.statements_toJson]
  | .ret id expression => by
    rw [toJson, statements_node, if_pos (by decide)]
    simp [nested, toJson, statements_optionJson Expression.statements_toJson expression]
  | .effect id expression => by
    rw [toJson, statements_node, if_pos (by decide)]
    simp [nested, toJson, expression.statements_toJson]
  | .declaration id declared initial => by
    rw [toJson, statements_node, if_pos (by decide)]
    simp [nested, toJson, statements_optionJson Expression.statements_toJson initial,
      Parameter.statements_toJson]
  | .conditional id condition whenTrue whenFalse => by
    rw [toJson, statements_node, if_pos (by decide), nested, List.map_cons, List.map_append,
      ← statements_toJson whenTrue, ← statements_optionToJson whenFalse]
    simp [toJson, condition.statements_toJson]
  | .whileLoop id condition body | .doWhileLoop id condition body => by
    rw [toJson, statements_node, if_pos (by decide), nested, List.map_cons,
      ← statements_toJson body]
    simp [toJson, condition.statements_toJson]
  | .forLoop id initial condition advance body => by
    rw [toJson, statements_node, if_pos (by decide), nested, List.map_cons, List.map_append,
      List.map_append, ← statements_optionToJson initial, ← statements_optionToJson advance,
      ← statements_toJson body]
    simp [toJson, statements_optionJson Expression.statements_toJson condition]
  | .breakLoop id | .continueLoop id | .placeholder id => by
    rw [toJson, ← List.append_nil (nodeMembers _ id), statements_node, if_pos (by decide)]
    simp [nested, toJson]

theorem statements_toJsons : ∀ ss : List Statement,
    (toJsons ss).flatMap statements = (nestedAll ss).map toJson
  | [] => by simp [toJsons, nestedAll]
  | s :: ss => by
    rw [toJsons, List.flatMap_cons, nestedAll, List.map_append, statements_toJson s,
      statements_toJsons ss]

theorem statements_optionToJson : ∀ o : Option Statement,
    (optionToJson o).statements = (nestedOption o).map toJson
  | none => by simp [optionToJson, nestedOption]
  | some s => by rw [optionToJson, nestedOption, statements_toJson s]

end

/-- The walk from a statement meets each statement inside it once, in the order of the document,
as a node with the id and the kind of the statement: the statements in the document are those of
the nodes met and no others, and they begin in its text in this order. A block is met in the same
way as a block and as a statement. -/
theorem walk_complete :
    (∀ s : Statement,
      (Node.ofStatement s).walk = s.nested.map Node.ofStatement ∧
      (Node.ofStatement s).walk.map (fun n => (n.id, n.kind)) =
        s.nested.map (fun t => (t.id, .statement t.kind)) ∧
      s.toJson.statements = s.nested.map toJson ∧
      InOrder s.toJson.compact.toList (s.nested.map toJson)) ∧
    ∀ b : Block,
      (Node.statement (.block b.id b.statements)).id = (Node.block b).id ∧
      (Node.statement (.block b.id b.statements)).kind = (Node.block b).kind ∧
      (Node.statement (.block b.id b.statements)).children = (Node.block b).children := by
  refine ⟨fun s => ⟨Node.walk_ofStatement s, ?_, statements_toJson s, ?_⟩,
    fun b => ⟨rfl, rfl, rfl⟩⟩
  · rw [Node.walk_ofStatement, List.map_map]
    exact List.map_congr_left fun t _ => by simp
  · have hobjects := objects_inOrder s.toJson (InOrder.done [])
    rw [List.append_nil, List.append_nil] at hobjects
    rw [← statements_toJson s, compact, String.toList_ofList]
    exact hobjects.filter isStatement

end Statement

end ContractTrace
