import ContractTrace.Proofs.Literals
import ContractTrace.Proofs.WellFormed

/-! Programs survive being written and read. Every reader gives back what was written for a
well-formed value, node by node, and the compact text of a document is read to the document,
so a program is the same after the way through its text. -/

namespace ContractTrace

/-! ### Plain documents -/

theorem Document.plain_idJson (id : NodeId) : (idJson id).Plain := by
  have hid : id.toNat < twoPow 32 := id.toNat_lt
  have hbound : twoPow 32 < twoPow 64 := by decide
  show Json.isShort id.toNat = true
  simp only [Json.isShort, Bool.and_eq_true, decide_eq_true_eq]
  omega

theorem Document.plain_optionJson {α : Type} {toJson : α → Json} (h : ∀ a, (toJson a).Plain)
    (o : Option α) : (optionJson toJson o).Plain := by
  cases o with
  | none => trivial
  | some a => exact h a

open Document

theorem Json.allPlain_map {α : Type} {toJson : α → Json} (h : ∀ a, (toJson a).Plain)
    (as : List α) : Json.AllPlain (as.map toJson) := by
  rw [Json.allPlain_iff]
  intro j hj
  obtain ⟨a, -, rfl⟩ := List.mem_map.1 hj
  exact h a

namespace Value

theorem toJsons_eq_map (vs : List Value) : toJsons vs = vs.map toJson := by
  induction vs with
  | nil => rfl
  | cons v vs ih => rw [toJsons, ih, List.map_cons]

theorem plain_literalJson (v : Int) : (literalJson v).Plain :=
  (encodes_literalJson v).plain le_rfl (by decide)

mutual

theorem plain_toJson : ∀ v : Value, v.toJson.Plain
  | .integer v _ => ⟨⟨plain_literalJson v, trivial, trivial⟩, trivial⟩
  | .bool _ => ⟨trivial, trivial⟩
  | .tuple items => ⟨plain_toJsons items, trivial⟩

theorem plain_toJsons : ∀ vs : List Value, Json.AllPlain (toJsons vs)
  | [] => trivial
  | v :: vs => ⟨plain_toJson v, plain_toJsons vs⟩

end

theorem toJson_ne_null (v : Value) : v.toJson ≠ .null := by
  cases v <;> exact Json.noConfusion

end Value

namespace Expression

theorem toJsons_eq_map (es : List Expression) : toJsons es = es.map toJson := by
  induction es with
  | nil => rfl
  | cons e es ih => rw [toJsons, ih, List.map_cons]

mutual

theorem plain_toJson : ∀ e : Expression, e.toJson.Plain
  | .literal id v => ⟨trivial, plain_idJson id, v.plain_toJson, trivial⟩
  | .identifier id _ declaration =>
    ⟨trivial, plain_idJson id, trivial, plain_optionJson plain_idJson declaration, trivial⟩
  | .binary id _ left right =>
    ⟨trivial, plain_idJson id, trivial, plain_toJson left, plain_toJson right, trivial⟩
  | .unary id _ operand => ⟨trivial, plain_idJson id, trivial, plain_toJson operand, trivial⟩
  | .conditional id condition whenTrue whenFalse =>
    ⟨trivial, plain_idJson id, plain_toJson condition, plain_toJson whenTrue,
      plain_toJson whenFalse, trivial⟩
  | .tuple id components => ⟨trivial, plain_idJson id, plain_toJsons components, trivial⟩
  | .call id callee arguments =>
    ⟨trivial, plain_idJson id, plain_toJson callee, plain_toJsons arguments, trivial⟩
  | .member id base _ => ⟨trivial, plain_idJson id, plain_toJson base, trivial, trivial⟩
  | .index id base position =>
    ⟨trivial, plain_idJson id, plain_toJson base, plain_toJson position, trivial⟩
  | .assignment id _ target source =>
    ⟨trivial, plain_idJson id, trivial, plain_toJson target, plain_toJson source, trivial⟩

theorem plain_toJsons : ∀ es : List Expression, Json.AllPlain (toJsons es)
  | [] => trivial
  | e :: es => ⟨plain_toJson e, plain_toJsons es⟩

end

theorem toJson_ne_null (e : Expression) : e.toJson ≠ .null := by
  cases e <;> exact Json.noConfusion

end Expression

theorem Call.plain_toJson (call : Call) : call.toJson.Plain :=
  ⟨plain_idJson call.id, call.callee.plain_toJson, Expression.plain_toJsons call.arguments, trivial⟩

theorem Parameter.plain_toJson (p : Parameter) : p.toJson.Plain :=
  ⟨plain_idJson p.id, trivial, trivial, trivial⟩

namespace Statement

theorem toJsons_eq_map (ss : List Statement) : toJsons ss = ss.map toJson := by
  induction ss with
  | nil => rfl
  | cons s ss ih => rw [toJsons, ih, List.map_cons]

theorem optionToJson_eq (o : Option Statement) : optionToJson o = optionJson toJson o := by
  cases o <;> rfl

mutual

theorem plain_toJson : ∀ s : Statement, s.toJson.Plain
  | .block id statements => ⟨trivial, plain_idJson id, plain_toJsons statements, trivial⟩
  | .emit id call | .revert id call => ⟨trivial, plain_idJson id, call.plain_toJson, trivial⟩
  | .ret id expression =>
    ⟨trivial, plain_idJson id, plain_optionJson Expression.plain_toJson expression, trivial⟩
  | .effect id expression => ⟨trivial, plain_idJson id, expression.plain_toJson, trivial⟩
  | .declaration id declared initial =>
    ⟨trivial, plain_idJson id, Json.allPlain_map Parameter.plain_toJson declared,
      plain_optionJson Expression.plain_toJson initial, trivial⟩
  | .conditional id condition whenTrue whenFalse =>
    ⟨trivial, plain_idJson id, condition.plain_toJson, plain_toJson whenTrue,
      plain_optionToJson whenFalse, trivial⟩
  | .whileLoop id condition body | .doWhileLoop id condition body =>
    ⟨trivial, plain_idJson id, condition.plain_toJson, plain_toJson body, trivial⟩
  | .forLoop id initial condition advance body =>
    ⟨trivial, plain_idJson id, plain_optionToJson initial,
      plain_optionJson Expression.plain_toJson condition, plain_optionToJson advance,
      plain_toJson body, trivial⟩
  | .breakLoop id | .continueLoop id | .placeholder id => ⟨trivial, plain_idJson id, trivial⟩

theorem plain_toJsons : ∀ ss : List Statement, Json.AllPlain (toJsons ss)
  | [] => trivial
  | s :: ss => ⟨plain_toJson s, plain_toJsons ss⟩

theorem plain_optionToJson : ∀ o : Option Statement, (optionToJson o).Plain
  | none => trivial
  | some s => plain_toJson s

end

theorem toJson_ne_null (s : Statement) : s.toJson ≠ .null := by
  cases s <;> exact Json.noConfusion

end Statement

theorem Block.plain_toJson (b : Block) : b.toJson.Plain :=
  ⟨plain_idJson b.id, Statement.plain_toJsons b.statements, trivial⟩

theorem StorageVariable.plain_toJson (v : StorageVariable) : v.toJson.Plain :=
  ⟨plain_idJson v.id, trivial, trivial, plain_optionJson Value.plain_toJson v.initial, trivial⟩

theorem EventDeclaration.plain_toJson (e : EventDeclaration) : e.toJson.Plain :=
  ⟨plain_idJson e.id, trivial, Json.allPlain_map Parameter.plain_toJson e.parameters, trivial⟩

theorem Function.plain_toJson (f : Function) : f.toJson.Plain :=
  ⟨plain_idJson f.id, trivial, Json.allPlain_map Parameter.plain_toJson f.parameters,
    f.body.plain_toJson, trivial⟩

theorem Contract.plain_toJson (c : Contract) : c.toJson.Plain :=
  ⟨plain_idJson c.id, trivial, Json.allPlain_map StorageVariable.plain_toJson c.storage,
    Json.allPlain_map EventDeclaration.plain_toJson c.events,
    Json.allPlain_map Function.plain_toJson c.functions, trivial⟩

theorem SourceUnit.plain_toJson (u : SourceUnit) : u.toJson.Plain :=
  ⟨Json.allPlain_map Contract.plain_toJson u.contracts, trivial⟩

theorem Transaction.plain_toJson (t : Transaction) : t.toJson.Plain :=
  ⟨trivial, trivial, Value.plain_toJsons t.arguments, trivial⟩

theorem Program.plain_toJson (p : Program) : p.toJson.Plain :=
  ⟨p.source.plain_toJson, Json.allPlain_map Transaction.plain_toJson p.transactions, trivial⟩

/-! ### Depth -/

namespace Json

theorem depth_lt_of_item {j : Json} {items : List Json} (h : j ∈ items) :
    j.depth < (Json.array items).depth := by
  have hle : j.depth ≤ depthAll items := by
    induction items with
    | nil => cases h
    | cons i items ih =>
      rw [depthAll]
      rcases List.mem_cons.1 h with rfl | h
      · exact Nat.le_max_left _ _
      · exact (ih h).trans (Nat.le_max_right _ _)
  rw [depth]
  omega

theorem depth_lt_of_member {key : String} {j : Json} {members : List (String × Json)}
    (h : (key, j) ∈ members) : j.depth < (Json.object members).depth := by
  have hle : j.depth ≤ depthMembers members := by
    induction members with
    | nil => cases h
    | cons m members ih =>
      rw [depthMembers]
      rcases List.mem_cons.1 h with rfl | h
      · exact Nat.le_max_left _ _
      · exact (ih h).trans (Nat.le_max_right _ _)
  rw [depth]
  omega

end Json

/-! ### Readers that restore what was written -/

namespace Document

variable {α κ : Type} {d : Nat}

/-- What is written of a value with the property is read back, if it is less than `d` deep. -/
def Restores (reader : Reader α) (toJson : α → Json) (P : α → Prop) (d : Nat) : Prop :=
  ∀ a, P a → (toJson a).depth < d → reader (toJson a) = .ok a

/-- The members of an object that is at most `d` deep and has no key twice. -/
structure Legible (members : Members) (d : Nat) : Prop where
  distinct : Distinct members
  depth : (Json.object members).depth ≤ d

section Restores

variable {reader : Reader α} {toJson : α → Json} {P : α → Prop}

theorem Restores.field (h : Restores reader toJson P d) {members : Members}
    (hm : Legible members d) {name : String} {a : α} (hj : (name, toJson a) ∈ members)
    (ha : P a) {missing : Option α} : (fieldOr name reader missing).Gives members a :=
  fieldOr_gives hm.distinct hj (h a ha ((Json.depth_lt_of_member hj).trans_le hm.depth))

theorem Restores.list (h : Restores reader toJson P d) :
    Restores (list reader) (fun as => .array (as.map toJson)) (fun as => ∀ a ∈ as, P a) d := by
  intro as has hd
  exact list_map fun a ha =>
    h a (has a ha) ((Json.depth_lt_of_item (List.mem_map_of_mem ha)).trans hd)

theorem Restores.optional (h : Restores reader toJson P d) (hnull : ∀ a, toJson a ≠ .null) :
    Restores (optional reader) (optionJson toJson) (fun o => ∀ a ∈ o, P a) d := by
  intro o ho hd
  cases o with
  | none => rfl
  | some a =>
    rw [optionJson, Document.optional, h a (ho a rfl) hd]
    · rfl
    · exact hnull a

/-- A record is restored if its fields are. -/
theorem record_restored {fields : Fields α} {members : Members} {a : α}
    (hdistinct : Distinct members) (hp : (Json.object members).Plain)
    (hd : (Json.object members).depth < d) (h : Legible members d → fields.Gives members a) :
    record fields (.object members) = .ok a :=
  record_of_gives (h ⟨hdistinct, hd.le⟩) hp

end Restores

/-! ### Values -/

theorem restores_nodeId : Restores nodeId idJson (fun _ => True) d := by
  intro id _ _
  have hid : id.toNat < twoPow 32 := id.toNat_lt
  have hrange : (0 : Int) ≤ id.toNat ∧ (id.toNat : Int) < twoPow 32 := by omega
  have hnatural : natural (twoPow 32) (idJson id) = .ok id.toNat := by
    rw [idJson, natural, if_pos hrange, Int.toNat_natCast]
  rw [nodeId, hnatural]
  exact congrArg Except.ok UInt32.ofNat_toNat

theorem restores_string : Restores string .string (fun _ => True) d := fun _ _ _ => rfl

theorem restores_typeName : Restores typeName (fun t => .string t.text) TypeName.Canonical d :=
  fun _ ht _ => congrArg Except.ok (TypeName.ofText_text ht)

theorem restores_integerType :
    Restores integerType (fun ty => .string ty.text) IntegerType.Valid d := by
  intro ty hty _
  simp only [integerType, IntegerType.parse_text hty]

theorem restores_integerLiteral :
    Restores integerLiteral Value.literalJson Carrier.Holds d := by
  intro v hv _
  exact integerLiteral_of_encodes (Value.encodes_literalJson v) le_rfl (by decide) hv

/-- An integer in range is read back. -/
theorem integer_toJson {v : Int} {ty : IntegerType} (hty : ty.Valid)
    (hv : ty.contains v = true) :
    integer (.object [("value", Value.literalJson v), ("type", .string ty.text)]) =
      .ok (.integer v ty) := by
  have hrecord : record integerFields
      (.object [("value", Value.literalJson v), ("type", .string ty.text)]) = .ok (v, ty) := by
    refine record_restored (by simp [Distinct]) ⟨Value.plain_literalJson v, trivial, trivial⟩
      (Nat.lt_succ_self _) fun hm => ?_
    exact .seq (.map (restores_integerLiteral.field hm (by simp)
      ((IntegerType.contains_iff v).1 hv).2) _) (restores_integerType.field hm (by simp) hty)
  simp only [integer, hrecord]
  simp [bind, Except.bind, Value.make?, hv]

mutual

/-- A value in range is read back, in a complete tree as in running text. -/
theorem value_toJson (complete : Bool) : ∀ {v : Value}, v.InRange →
    value complete v.toJson = .ok v
  | .integer v ty, h => by
    simp [Value.toJson, value, content, integer_toJson h.1 h.2, bind, Except.bind]
  | .bool b, _ => by
    simp [Value.toJson, value, content, bind, Except.bind]
  | .tuple items, h => by
    simp [Value.toJson, value, content, values_toJsons complete h, bind, Except.bind, Except.map]

theorem values_toJsons (complete : Bool) : ∀ {vs : List Value}, Value.AllInRange vs →
    values complete (Value.toJsons vs) = .ok vs
  | [], _ => rfl
  | v :: vs, h => by
    simp [Value.toJsons, values, value_toJson complete h.1, values_toJsons complete h.2, bind,
      Except.bind]

end

theorem restores_value (complete : Bool) :
    Restores (value complete) Value.toJson Value.InRange d :=
  fun _ hv _ => value_toJson complete hv

theorem Restores.values {reader : Reader Value} {P : Value → Prop}
    (h : Restores reader Value.toJson P d) :
    Restores (Document.list reader) (fun vs => .array (Value.toJsons vs))
      (fun vs => ∀ v ∈ vs, P v) d := by
  simpa only [Value.toJsons_eq_map] using h.list

/-! ### Expressions -/

theorem restores_binaryOperator (complete : Bool) :
    Restores (binaryOperator complete) (fun o => .string o.symbol) (fun _ => True) d := by
  intro operator _ _
  cases operator <;>
    simp [binaryOperator, choice, BinaryOperator.all, BinaryOperator.symbol, List.lookup_cons]

theorem restores_unaryOperator (complete : Bool) :
    Restores (unaryOperator complete) (fun o => .string o.symbol) (fun _ => True) d := by
  intro operator _ _
  cases operator <;>
    simp [unaryOperator, choice, UnaryOperator.all, UnaryOperator.symbol, List.lookup_cons]

theorem lookup_expressionKinds (kind : ExpressionKind) :
    expressionKinds.lookup kind.name = some kind := by
  cases kind <;> simp [expressionKinds, ExpressionKind.all, ExpressionKind.name, List.lookup_cons]

theorem lookup_statementKinds (kind : StatementKind) :
    statementKinds.lookup kind.name = some kind := by
  cases kind <;> simp [statementKinds, StatementKind.all, StatementKind.name, List.lookup_cons]

/-- A node is restored if its fields are. -/
theorem node_restored {ordinals : Bool} {kinds : List (String × κ)} {fields : κ → Fields α}
    {name : String} {kind : κ} {id : NodeId} {members : Members} {a : α}
    (hk : kinds.lookup name = some kind) (hdistinct : Distinct (nodeMembers name id ++ members))
    (hp : (Json.object (nodeMembers name id ++ members)).Plain)
    (h : Legible (("id", idJson id) :: members)
        (Json.object (nodeMembers name id ++ members)).depth →
      (field "id" nodeId).Gives (("id", idJson id) :: members) id →
      (fields kind).Gives (("id", idJson id) :: members) a) :
    node ordinals kinds fields (.object (nodeMembers name id ++ members)) = .ok a := by
  have hm : Legible (("id", idJson id) :: members)
      (Json.object (nodeMembers name id ++ members)).depth := by
    refine ⟨(List.nodup_cons.1 hdistinct).2, ?_⟩
    simp [nodeMembers, Json.depth, Json.depthMembers]
  exact node_of_gives hk hdistinct hp.2
    (h hm (restores_nodeId.field hm List.mem_cons_self trivial))

theorem Restores.expressions {reader : Reader Expression} {P : Expression → Prop}
    (h : Restores reader Expression.toJson P d) :
    Restores (Document.list reader) (fun es => .array (Expression.toJsons es))
      (fun es => ∀ e ∈ es, P e) d := by
  simpa only [Expression.toJsons_eq_map] using h.list

theorem callFields_gives {reader : Reader Expression} {members : Members} {call : Call}
    (h : Restores reader Expression.toJson Expression.LiteralsInRange d)
    (hm : Legible members d) (hid : ("id", idJson call.id) ∈ members)
    (hcallee : ("expression", call.callee.toJson) ∈ members)
    (harguments : ("arguments", .array (Expression.toJsons call.arguments)) ∈ members)
    (hcall : call.WellFormed) : (callFields reader).Gives members call :=
  .seq (.seq (.map (restores_nodeId.field hm hid trivial) _)
    (h.field hm hcallee hcall.callee)) (h.expressions.field hm harguments hcall.arguments)

/-- One level of an expression is restored if the expressions inside are. -/
theorem node_expression (ordinals : Bool) {reader : Reader Expression} {e : Expression}
    (he : e.LiteralsInRange)
    (h : Restores reader Expression.toJson Expression.LiteralsInRange e.toJson.depth) :
    node ordinals expressionKinds (expressionFields reader) e.toJson = .ok e := by
  have hplain := e.plain_toJson
  cases e with
  | literal id v =>
    rw [Expression.literalsInRange_literal] at he
    refine node_restored (lookup_expressionKinds .literal)
      (by simp [Distinct, nodeMembers, tagName]) hplain fun hm hid => ?_
    exact (hid.map _).seq ((restores_value true).field hm (by simp) he)
  | identifier id name declaration =>
    refine node_restored (lookup_expressionKinds .identifier)
      (by simp [Distinct, nodeMembers, tagName]) hplain fun hm hid => ?_
    exact ((hid.map _).seq (restores_string.field hm (by simp) trivial)).seq
      ((restores_nodeId.optional fun _ => Json.noConfusion).field hm (by simp) (by simp))
  | binary id operator left right =>
    rw [Expression.literalsInRange_binary] at he
    refine node_restored (lookup_expressionKinds .binaryOperation)
      (by simp [Distinct, nodeMembers, tagName]) hplain fun hm hid => ?_
    exact (((hid.map _).seq ((restores_binaryOperator true).field hm (by simp) trivial)).seq
      (h.field hm (by simp) he.1)).seq (h.field hm (by simp) he.2)
  | unary id operator operand =>
    rw [Expression.literalsInRange_unary] at he
    refine node_restored (lookup_expressionKinds .unaryOperation)
      (by simp [Distinct, nodeMembers, tagName]) hplain fun hm hid => ?_
    exact ((hid.map _).seq ((restores_unaryOperator true).field hm (by simp) trivial)).seq
      (h.field hm (by simp) he)
  | conditional id condition whenTrue whenFalse =>
    rw [Expression.literalsInRange_conditional] at he
    refine node_restored (lookup_expressionKinds .conditional)
      (by simp [Distinct, nodeMembers, tagName]) hplain fun hm hid => ?_
    exact (((hid.map _).seq (h.field hm (by simp) he.1)).seq
      (h.field hm (by simp) he.2.1)).seq (h.field hm (by simp) he.2.2)
  | tuple id components =>
    rw [Expression.literalsInRange_tuple] at he
    refine node_restored (lookup_expressionKinds .tupleExpression)
      (by simp [Distinct, nodeMembers, tagName]) hplain fun hm hid => ?_
    exact (hid.map _).seq (h.expressions.field hm (by simp) he)
  | call id callee arguments =>
    rw [Expression.literalsInRange_call] at he
    refine node_restored (lookup_expressionKinds .functionCall)
      (by simp [Distinct, nodeMembers, tagName]) hplain fun hm _ => ?_
    have hcall : (callFields reader).Gives _ ⟨id, callee, arguments⟩ :=
      callFields_gives h hm (by simp) (by simp) (by simp) ⟨he.1, he.2⟩
    exact hcall.map _
  | member id base name =>
    rw [Expression.literalsInRange_member] at he
    refine node_restored (lookup_expressionKinds .memberAccess)
      (by simp [Distinct, nodeMembers, tagName]) hplain fun hm hid => ?_
    exact ((hid.map _).seq (h.field hm (by simp) he)).seq
      (restores_string.field hm (by simp) trivial)
  | index id base position =>
    rw [Expression.literalsInRange_index] at he
    refine node_restored (lookup_expressionKinds .indexAccess)
      (by simp [Distinct, nodeMembers, tagName]) hplain fun hm hid => ?_
    exact ((hid.map _).seq (h.field hm (by simp) he.1)).seq (h.field hm (by simp) he.2)
  | assignment id operator target source =>
    rw [Expression.literalsInRange_assignment] at he
    refine node_restored (lookup_expressionKinds .assignment)
      (by simp [Distinct, nodeMembers, tagName]) hplain fun hm hid => ?_
    exact (((hid.map _).seq (restores_string.field hm (by simp) trivial)).seq
      (h.field hm (by simp) he.1)).seq (h.field hm (by simp) he.2)

theorem restores_innerExpression (levels : Nat) :
    Restores (innerExpression levels) Expression.toJson Expression.LiteralsInRange
      (levels + 1) := by
  induction levels with
  | zero =>
    intro e _ hd
    cases e <;> simp [Expression.toJson, Json.depth] at hd
  | succ levels ih =>
    intro e he hd
    exact node_expression true he fun part hpart hlt => ih part hpart (by omega)

/-! ### Statements -/

theorem restores_parameter :
    Restores parameter Parameter.toJson (fun p => p.typeName.Canonical) d := by
  intro p hp hd
  refine record_restored (by simp [Distinct]) p.plain_toJson hd fun hm => ?_
  exact .seq (.seq (.map (restores_nodeId.field hm (by simp) trivial) _)
    (restores_string.field hm (by simp) trivial)) (restores_typeName.field hm (by simp) hp)

theorem restores_call {reader : Reader Expression}
    (h : Restores reader Expression.toJson Expression.LiteralsInRange d) :
    Restores (record (callFields reader)) Call.toJson Call.WellFormed d := by
  intro call hcall hd
  refine record_restored (by simp [Distinct]) call.plain_toJson hd fun hm => ?_
  exact callFields_gives h hm (by simp) (by simp) (by simp) hcall

theorem Restores.statements {reader : Reader Statement} {P : Statement → Prop}
    (h : Restores reader Statement.toJson P d) :
    Restores (Document.list reader) (fun ss => .array (Statement.toJsons ss))
      (fun ss => ∀ s ∈ ss, P s) d := by
  simpa only [Statement.toJsons_eq_map] using h.list

theorem Restores.optionStatement {reader : Reader Statement} {P : Statement → Prop}
    (h : Restores reader Statement.toJson P d) :
    Restores (Document.optional reader) Statement.optionToJson (fun o => ∀ s ∈ o, P s) d := by
  rw [funext Statement.optionToJson_eq]
  exact h.optional Statement.toJson_ne_null

/-- One level of a statement is restored if what is inside is. -/
theorem node_statement (ordinals : Bool) {expression : Reader Expression}
    {reader : Reader Statement} {s : Statement} (hs : s.WellFormed)
    (he : Restores expression Expression.toJson Expression.LiteralsInRange s.toJson.depth)
    (h : Restores reader Statement.toJson Statement.WellFormed s.toJson.depth) :
    node ordinals statementKinds (statementFields expression reader) s.toJson = .ok s := by
  have hplain := s.plain_toJson
  have hoption := he.optional Expression.toJson_ne_null
  cases s with
  | block id statements =>
    rw [Statement.WellFormed, Statement.allWellFormed_iff] at hs
    refine node_restored (lookup_statementKinds .block)
      (by simp [Distinct, nodeMembers, tagName]) hplain fun hm hid => ?_
    exact (hid.map _).seq (h.statements.field hm (by simp) hs)
  | emit id call =>
    rw [Statement.WellFormed] at hs
    refine node_restored (lookup_statementKinds .emitStatement)
      (by simp [Distinct, nodeMembers, tagName]) hplain fun hm hid => ?_
    exact (hid.map _).seq ((restores_call he).field hm (by simp) hs)
  | ret id expression =>
    rw [Statement.WellFormed] at hs
    refine node_restored (lookup_statementKinds .return)
      (by simp [Distinct, nodeMembers, tagName]) hplain fun hm hid => ?_
    exact (hid.map _).seq (hoption.field hm (by simp) hs)
  | effect id expression =>
    rw [Statement.WellFormed] at hs
    refine node_restored (lookup_statementKinds .expressionStatement)
      (by simp [Distinct, nodeMembers, tagName]) hplain fun hm hid => ?_
    exact (hid.map _).seq (he.field hm (by simp) hs)
  | declaration id declared initial =>
    rw [Statement.WellFormed] at hs
    refine node_restored (lookup_statementKinds .variableDeclarationStatement)
      (by simp [Distinct, nodeMembers, tagName]) hplain fun hm hid => ?_
    exact ((hid.map _).seq (restores_parameter.list.field hm (by simp) hs.1)).seq
      (hoption.field hm (by simp) hs.2)
  | conditional id condition whenTrue whenFalse =>
    rw [Statement.WellFormed, Statement.optionWellFormed_iff] at hs
    refine node_restored (lookup_statementKinds .ifStatement)
      (by simp [Distinct, nodeMembers, tagName]) hplain fun hm hid => ?_
    exact (((hid.map _).seq (he.field hm (by simp) hs.1)).seq
      (h.field hm (by simp) hs.2.1)).seq (h.optionStatement.field hm (by simp) hs.2.2)
  | whileLoop id condition body =>
    rw [Statement.WellFormed] at hs
    refine node_restored (lookup_statementKinds .whileStatement)
      (by simp [Distinct, nodeMembers, tagName]) hplain fun hm hid => ?_
    exact ((hid.map _).seq (he.field hm (by simp) hs.1)).seq (h.field hm (by simp) hs.2)
  | doWhileLoop id condition body =>
    rw [Statement.WellFormed] at hs
    refine node_restored (lookup_statementKinds .doWhileStatement)
      (by simp [Distinct, nodeMembers, tagName]) hplain fun hm hid => ?_
    exact ((hid.map _).seq (he.field hm (by simp) hs.1)).seq (h.field hm (by simp) hs.2)
  | forLoop id initial condition advance body =>
    rw [Statement.WellFormed, Statement.optionWellFormed_iff, Statement.optionWellFormed_iff] at hs
    refine node_restored (lookup_statementKinds .forStatement)
      (by simp [Distinct, nodeMembers, tagName]) hplain fun hm hid => ?_
    exact ((((hid.map _).seq (h.optionStatement.field hm (by simp) hs.1)).seq
      (hoption.field hm (by simp) hs.2.1)).seq
      (h.optionStatement.field hm (by simp) hs.2.2.1)).seq (h.field hm (by simp) hs.2.2.2)
  | breakLoop id =>
    exact node_restored (lookup_statementKinds .break)
      (by simp [Distinct, nodeMembers, tagName]) hplain fun _ hid => hid.map _
  | continueLoop id =>
    exact node_restored (lookup_statementKinds .continue)
      (by simp [Distinct, nodeMembers, tagName]) hplain fun _ hid => hid.map _
  | placeholder id =>
    exact node_restored (lookup_statementKinds .placeholderStatement)
      (by simp [Distinct, nodeMembers, tagName]) hplain fun _ hid => hid.map _
  | revert id call =>
    rw [Statement.WellFormed] at hs
    refine node_restored (lookup_statementKinds .revertStatement)
      (by simp [Distinct, nodeMembers, tagName]) hplain fun hm hid => ?_
    exact (hid.map _).seq ((restores_call he).field hm (by simp) hs)

theorem restores_innerStatement (levels : Nat) (hlevels : levels ≤ Json.depthLimit) :
    Restores (innerStatement levels) Statement.toJson Statement.WellFormed (levels + 1) := by
  induction levels with
  | zero =>
    intro s _ hd
    cases s <;> simp [Statement.toJson, Json.depth] at hd
  | succ levels ih =>
    intro s hs hd
    -- what is inside is less deep, so the levels left are enough for it
    refine node_statement true hs (fun e he hlt => ?_) fun part hpart hlt => ?_
    · exact restores_innerExpression _ e he (by omega)
    · exact ih (by omega) part hpart (by omega)

theorem restores_statement :
    Restores statement Statement.toJson Statement.WellFormed Json.depthLimit := by
  intro s hs hd
  rw [statement, if_pos s.plain_toJson.isWhole]
  refine node_statement false hs (fun e he hlt => ?_) fun part hpart hlt => ?_
  · exact restores_innerExpression _ e he (by omega)
  · exact restores_innerStatement _ le_rfl part hpart (by omega)

/-! ### Programs -/

theorem restores_block :
    Restores block Block.toJson (fun b => ∀ s ∈ b.statements, s.WellFormed) Json.depthLimit := by
  intro b hb hd
  refine record_restored (by simp [Distinct]) b.plain_toJson hd fun hm => ?_
  exact .seq (.map (restores_nodeId.field hm (by simp) trivial) _)
    (restores_statement.statements.field hm (by simp) hb)

theorem restores_storageVariable :
    Restores storageVariable StorageVariable.toJson StorageVariable.WellFormed d := by
  intro v hv hd
  refine record_restored (by simp [Distinct]) v.plain_toJson hd fun hm => ?_
  exact .seq (.seq (.seq (.map (restores_nodeId.field hm (by simp) trivial) _)
    (restores_string.field hm (by simp) trivial))
    (restores_typeName.field hm (by simp) hv.typeName))
    (((restores_value false).optional Value.toJson_ne_null).field hm (by simp) hv.initial)

theorem restores_eventDeclaration :
    Restores eventDeclaration EventDeclaration.toJson
      (fun e => ∀ p ∈ e.parameters, p.typeName.Canonical) d := by
  intro e he hd
  refine record_restored (by simp [Distinct]) e.plain_toJson hd fun hm => ?_
  exact .seq (.seq (.map (restores_nodeId.field hm (by simp) trivial) _)
    (restores_string.field hm (by simp) trivial))
    (restores_parameter.list.field hm (by simp) he)

theorem restores_function :
    Restores function Function.toJson Function.WellFormed Json.depthLimit := by
  intro f hf hd
  refine record_restored (by simp [Distinct]) f.plain_toJson hd fun hm => ?_
  exact .seq (.seq (.seq (.map (restores_nodeId.field hm (by simp) trivial) _)
    (restores_string.field hm (by simp) trivial))
    (restores_parameter.list.field hm (by simp) hf.parameters))
    (restores_block.field hm (by simp) hf.body)

theorem restores_contract :
    Restores contract Contract.toJson Contract.WellFormed Json.depthLimit := by
  intro c hc hd
  refine record_restored (by simp [Distinct]) c.plain_toJson hd fun hm => ?_
  exact .seq (.seq (.seq (.seq (.map (restores_nodeId.field hm (by simp) trivial) _)
    (restores_string.field hm (by simp) trivial))
    (restores_storageVariable.list.field hm (by simp) hc.storage))
    (restores_eventDeclaration.list.field hm (by simp) hc.events))
    (restores_function.list.field hm (by simp) hc.functions)

theorem restores_sourceUnit :
    Restores sourceUnit SourceUnit.toJson (fun u => ∀ c ∈ u.contracts, c.WellFormed)
      Json.depthLimit := by
  intro u hu hd
  refine record_restored (by simp [Distinct]) u.plain_toJson hd fun hm => ?_
  exact .map (restores_contract.list.field hm (by simp) hu) _

theorem restores_transaction :
    Restores transaction Transaction.toJson (fun t => ∀ v ∈ t.arguments, v.InRange) d := by
  intro t ht hd
  refine record_restored (by simp [Distinct]) t.plain_toJson hd fun hm => ?_
  exact .seq (.seq (.map (restores_string.field hm (by simp) trivial) _)
    (restores_string.field hm (by simp) trivial))
    ((restores_value false).values.field hm (by simp) ht)

theorem restores_program :
    Restores program Program.toJson Program.WellFormed Json.depthLimit := by
  intro p hp hd
  refine record_restored (by simp [Distinct]) p.plain_toJson hd fun hm => ?_
  exact .seq (.map (restores_sourceUnit.field hm (by simp) hp.contracts) _)
    (restores_transaction.list.field hm (by simp) hp.arguments)

theorem ofText_compact {reader : Reader α} {j : Json} {a : α} (hp : j.Plain)
    (hd : j.depth < Json.depthLimit) (h : reader j = .ok a) : ofText reader j.compact = .ok a :=
  (ofText_compact_eq reader hp hd).trans h

end Document

namespace Program

/-- A well-formed program whose document is not too deep is read back from its text. -/
theorem ofText_compact_toJson {p : Program} (hp : p.WellFormed)
    (hd : p.toJson.depth < Json.depthLimit) : Program.ofText p.toJson.compact = .ok p :=
  Document.ofText_compact p.plain_toJson hd (restores_program p hp hd)

/-- A program with a name that is escaped, types that are spelled out, and integers on both
sides of the bounds up to which they are written as numbers. -/
def mixedForms : Program :=
  let wide (v : Int) : Value := .integer v ⟨true, 256⟩
  let condition : Expression :=
    .binary 9 .lt (.literal 10 (wide (-twoPow 127))) (.literal 11 (wide (twoPow 63 - 1)))
  ⟨⟨[⟨1, "\"C\"\n☃", [⟨2, "x", .other "mapping", some (wide (twoPow 64))⟩],
      [⟨3, "E", [⟨4, "", .bool⟩]⟩],
      [⟨5, "f", [⟨6, "y", .integer ⟨false, 8⟩⟩],
        ⟨7, [.conditional 8 condition (.block 12 [.breakLoop 13]) (some (.ret 14 none))]⟩⟩]⟩]⟩,
    [⟨"C", "f", [.tuple [.bool true, .integer 255 ⟨false, 8⟩]]⟩]⟩

theorem ofText_compact_toJson_mixedForms :
    mixedForms.WellFormed ∧ mixedForms.toJson.depth < Json.depthLimit ∧
      Program.ofText mixedForms.toJson.compact = .ok mixedForms := by
  have hwide : ∀ v : Int, IntegerType.contains ⟨true, 256⟩ v = true →
      (Value.integer v ⟨true, 256⟩).InRange := fun v hv => ⟨by decide, hv⟩
  have hwell : mixedForms.WellFormed := by
    refine ⟨?_, ?_⟩
    · simp only [mixedForms, List.forall_mem_singleton]
      refine ⟨?_, ?_, ?_⟩
      · simp only [List.forall_mem_singleton]
        exact ⟨⟨"mapping", by decide⟩, by simpa using hwide _ (by decide)⟩
      · simp only [List.forall_mem_singleton]
        exact ⟨"bool", by decide⟩
      · simp only [List.forall_mem_singleton]
        refine ⟨by simpa using ⟨"uint8", by decide⟩, ?_⟩
        simp only [List.forall_mem_singleton]
        refine ⟨?_, ⟨trivial, trivial⟩, nofun⟩
        simpa using ⟨hwide _ (by decide), hwide _ (by decide)⟩
    · simp only [mixedForms, List.forall_mem_singleton]
      exact ⟨trivial, ⟨by decide, by decide⟩, trivial⟩
  have hdepth : mixedForms.toJson.depth < Json.depthLimit := by decide
  exact ⟨hwell, hdepth, ofText_compact_toJson hwell hdepth⟩

end Program

end ContractTrace
