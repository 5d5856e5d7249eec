import ContractTrace.Document.Program
import ContractTrace.Proofs.Range
import ContractTrace.Proofs.Records
import ContractTrace.Proofs.Spelling

/-! Well-formed programs: every integer in them, at any depth, is in the range of a valid type,
and every declared type has its canonical form. All programs that are read from documents are
well formed. -/

namespace ContractTrace

/-! ### Expressions -/

namespace Expression

theorem mem_subexpressionsOf {part : Expression} {es : List Expression} :
    part ∈ subexpressionsOf es ↔ ∃ e ∈ es, part ∈ e.subexpressions := by
  induction es with
  | nil => simp [subexpressionsOf]
  | cons e es ih => simp [subexpressionsOf, ih]

variable {id : NodeId}

@[simp] theorem literalsInRange_literal {v : Value} :
    (literal id v).LiteralsInRange ↔ v.InRange := by
  simp [LiteralsInRange, subexpressions]

@[simp] theorem literalsInRange_identifier {name : String} {declaration : Option NodeId} :
    (identifier id name declaration).LiteralsInRange := by
  simp [LiteralsInRange, subexpressions]

@[simp] theorem literalsInRange_binary {operator : BinaryOperator} {left right : Expression} :
    (binary id operator left right).LiteralsInRange ↔
      left.LiteralsInRange ∧ right.LiteralsInRange := by
  simp [LiteralsInRange, subexpressions, or_imp, forall_and]

@[simp] theorem literalsInRange_unary {operator : UnaryOperator} {operand : Expression} :
    (unary id operator operand).LiteralsInRange ↔ operand.LiteralsInRange := by
  simp [LiteralsInRange, subexpressions]

@[simp] theorem literalsInRange_conditional {condition whenTrue whenFalse : Expression} :
    (conditional id condition whenTrue whenFalse).LiteralsInRange ↔
      condition.LiteralsInRange ∧ whenTrue.LiteralsInRange ∧ whenFalse.LiteralsInRange := by
  simp [LiteralsInRange, subexpressions, or_imp, forall_and]

theorem literalsInRange_of_subexpressionsOf {es : List Expression} :
    (∀ id v, literal id v ∈ subexpressionsOf es → v.InRange) ↔ ∀ e ∈ es, e.LiteralsInRange := by
  simp only [mem_subexpressionsOf, LiteralsInRange]
  exact ⟨fun h e he id v hv => h id v ⟨e, he, hv⟩, fun h id v ⟨e, he, hv⟩ => h e he id v hv⟩

@[simp] theorem literalsInRange_tuple {components : List Expression} :
    (tuple id components).LiteralsInRange ↔ ∀ e ∈ components, e.LiteralsInRange := by
  rw [← literalsInRange_of_subexpressionsOf]
  simp [LiteralsInRange, subexpressions]

@[simp] theorem literalsInRange_call {callee : Expression} {arguments : List Expression} :
    (call id callee arguments).LiteralsInRange ↔
      callee.LiteralsInRange ∧ ∀ e ∈ arguments, e.LiteralsInRange := by
  rw [← literalsInRange_of_subexpressionsOf]
  simp [LiteralsInRange, subexpressions, or_imp, forall_and]

@[simp] theorem literalsInRange_member {base : Expression} {name : String} :
    (member id base name).LiteralsInRange ↔ base.LiteralsInRange := by
  simp [LiteralsInRange, subexpressions]

@[simp] theorem literalsInRange_index {base position : Expression} :
    (index id base position).LiteralsInRange ↔
      base.LiteralsInRange ∧ position.LiteralsInRange := by
  simp [LiteralsInRange, subexpressions, or_imp, forall_and]

@[simp] theorem literalsInRange_assignment {operator : String} {target source : Expression} :
    (assignment id operator target source).LiteralsInRange ↔
      target.LiteralsInRange ∧ source.LiteralsInRange := by
  simp [LiteralsInRange, subexpressions, or_imp, forall_and]

end Expression

/-! ### Programs -/

structure Call.WellFormed (call : Call) : Prop where
  callee : call.callee.LiteralsInRange
  arguments : ∀ e ∈ call.arguments, e.LiteralsInRange

namespace Statement

mutual

/-- Literals are in range and declared types canonical, also in the statements inside. -/
def WellFormed : Statement → Prop
  | .block _ statements => AllWellFormed statements
  | .emit _ call => call.WellFormed
  | .ret _ expression => ∀ e ∈ expression, e.LiteralsInRange
  | .effect _ expression => expression.LiteralsInRange
  | .declaration _ declared initial =>
    (∀ p ∈ declared, p.typeName.Canonical) ∧ ∀ e ∈ initial, e.LiteralsInRange
  | .conditional _ condition whenTrue whenFalse =>
    condition.LiteralsInRange ∧ whenTrue.WellFormed ∧ OptionWellFormed whenFalse
  | .whileLoop _ condition body => condition.LiteralsInRange ∧ body.WellFormed
  | .doWhileLoop _ condition body => condition.LiteralsInRange ∧ body.WellFormed
  | .forLoop _ initial condition advance body =>
    OptionWellFormed initial ∧ (∀ e ∈ condition, e.LiteralsInRange) ∧
      OptionWellFormed advance ∧ body.WellFormed
  | .breakLoop _ => True
  | .continueLoop _ => True
  | .placeholder _ => True
  | .revert _ call => call.WellFormed

def AllWellFormed : List Statement → Prop
  | [] => True
  | s :: ss => s.WellFormed ∧ AllWellFormed ss

def OptionWellFormed : Option Statement → Prop
  | none => True
  | some s => s.WellFormed

end

theorem allWellFormed_iff (ss : List Statement) :
    AllWellFormed ss ↔ ∀ s ∈ ss, s.WellFormed := by
  induction ss with
  | nil => simp [AllWellFormed]
  | cons s ss ih => simp [AllWellFormed, ih]

theorem optionWellFormed_iff (o : Option Statement) :
    OptionWellFormed o ↔ ∀ s ∈ o, s.WellFormed := by
  cases o <;> simp [OptionWellFormed]

end Statement

structure StorageVariable.WellFormed (v : StorageVariable) : Prop where
  typeName : v.typeName.Canonical
  initial : ∀ value ∈ v.initial, value.InRange

structure Function.WellFormed (f : Function) : Prop where
  parameters : ∀ p ∈ f.parameters, p.typeName.Canonical
  body : ∀ s ∈ f.body.statements, s.WellFormed

structure Contract.WellFormed (c : Contract) : Prop where
  storage : ∀ v ∈ c.storage, v.WellFormed
  events : ∀ e ∈ c.events, ∀ p ∈ e.parameters, p.typeName.Canonical
  functions : ∀ f ∈ c.functions, f.WellFormed

structure Program.WellFormed (p : Program) : Prop where
  contracts : ∀ c ∈ p.source.contracts, c.WellFormed
  arguments : ∀ t ∈ p.transactions, ∀ v ∈ t.arguments, v.InRange

/-! ### Documents -/

namespace Document

theorem accepts_typeName : Accepts TypeName.Canonical typeName := by
  intro j t ht
  obtain ⟨text, -, rfl⟩ := map_eq_ok ht
  exact ⟨text, rfl⟩

theorem accepts_integerType : Accepts IntegerType.Valid integerType := by
  intro j ty hty
  unfold integerType at hty
  split at hty
  · split at hty
    next parsed hparse =>
      cases hty
      exact IntegerType.valid_of_parse hparse
    · cases hty
  · cases hty

theorem accepts_integer : Accepts Value.InRange integer := by
  intro j v hv
  have hfields : integerFields.Yields fun p => p.2.Valid :=
    .seq (.map (Fields.yields_any _) fun _ _ _ h => h) (yields_field _ accepts_integerType)
  obtain ⟨⟨n, ty⟩, hrecord, hv⟩ := bind_eq_ok hv
  have hty := accepts_record hfields j _ hrecord
  simp only [Value.make?] at hv
  split_ifs at hv with hrange
  cases hv
  exact ⟨hty, hrange⟩

mutual

theorem value_inRange (complete : Bool) : ∀ {j : Json} {v : Value},
    value complete j = .ok v → v.InRange
  | .object ((kind, j) :: more), v, h => by
    rw [value] at h
    split at h
    · cases h
    · obtain ⟨w, hw, h⟩ := bind_eq_ok h
      split_ifs at h
      cases h
      exact content_inRange complete kind hw
  | .object [], _, h => by cases h
  | .null, _, h | .bool _, _, h | .integer _, _, h | .real _, _, h | .string _, _, h
  | .array _, _, h | .invalid, _, h | .cut, _, h => by cases h

theorem content_inRange (complete : Bool) (kind : String) : ∀ {j : Json} {v : Value},
    content complete kind j = .ok v → v.InRange
  | .array items, v, h => by
    rw [content] at h
    split_ifs at h
    · obtain ⟨vs, hvs, rfl⟩ := map_eq_ok h
      exact values_inRange complete hvs
    · exact accepts_integer _ v h
  | .bool b, v, h => by
    rw [content] at h
    split_ifs at h
    cases h
    trivial
  | .null, v, h | .integer _, v, h | .real _, v, h | .string _, v, h | .object _, v, h
  | .invalid, v, h | .cut, v, h => by
    simp only [content] at h
    split_ifs at h
    exact accepts_integer _ v h

theorem values_inRange (complete : Bool) : ∀ {js : List Json} {vs : List Value},
    values complete js = .ok vs → Value.AllInRange vs
  | [], vs, h => by
    cases h
    trivial
  | j :: js, vs, h => by
    rw [values] at h
    obtain ⟨v, hv, h⟩ := bind_eq_ok h
    obtain ⟨rest, hrest, h⟩ := bind_eq_ok h
    cases h
    exact ⟨value_inRange complete hv, values_inRange complete hrest⟩

end

theorem accepts_value (complete : Bool) : Accepts Value.InRange (value complete) :=
  fun _ _ h => value_inRange complete h

/-! Each kind of node keeps the property of the nodes inside, so that it holds at any level. -/

theorem yields_callFields {expression : Reader Expression}
    (h : Accepts Expression.LiteralsInRange expression) :
    (callFields expression).Yields Call.WellFormed :=
  .seq (.seq (.map (Fields.yields_any _) fun _ _ _ hcallee _ harguments => ⟨hcallee, harguments⟩)
    (yields_field _ h)) (yields_listField _ h)

theorem yields_expressionFields {expression : Reader Expression}
    (h : Accepts Expression.LiteralsInRange expression) (kind : ExpressionKind) :
    (expressionFields expression kind).Yields Expression.LiteralsInRange := by
  have hid := Fields.yields_any (field "id" nodeId)
  cases kind with
  | literal =>
    refine .seq (.map hid fun _ _ v hv => ?_) (yields_field _ (accepts_value true))
    simpa using hv
  | identifier =>
    refine .seq (.seq (.map hid fun _ _ _ _ _ _ => ?_) (Fields.yields_any _)) (Fields.yields_any _)
    simp
  | binaryOperation =>
    refine .seq (.seq (.seq (.map hid fun _ _ _ _ left hleft right hright => ?_)
      (Fields.yields_any _)) (yields_field _ h)) (yields_field _ h)
    simp [hleft, hright]
  | unaryOperation =>
    refine .seq (.seq (.map hid fun _ _ _ _ operand hoperand => ?_) (Fields.yields_any _))
      (yields_field _ h)
    simpa using hoperand
  | conditional =>
    refine .seq (.seq (.seq (.map hid fun _ _ condition hcondition _ htrue _ hfalse => ?_)
      (yields_field _ h)) (yields_field _ h)) (yields_field _ h)
    simp [hcondition, htrue, hfalse]
  | tupleExpression =>
    refine .seq (.map hid fun _ _ components hcomponents => ?_) (yields_field _ (accepts_list h))
    simpa using hcomponents
  | functionCall =>
    refine .map (yields_callFields h) fun call hcall => ?_
    simpa using ⟨hcall.callee, hcall.arguments⟩
  | memberAccess =>
    refine .seq (.seq (.map hid fun _ _ base hbase _ _ => ?_) (yields_field _ h))
      (Fields.yields_any _)
    simpa using hbase
  | indexAccess =>
    refine .seq (.seq (.map hid fun _ _ base hbase position hposition => ?_) (yields_field _ h))
      (yields_field _ h)
    simp [hbase, hposition]
  | assignment =>
    refine .seq (.seq (.seq (.map hid fun _ _ _ _ target htarget source hsource => ?_)
      (Fields.yields_any _)) (yields_field _ h)) (yields_field _ h)
    simp [htarget, hsource]

theorem accepts_innerExpression (levels : Nat) :
    Accepts Expression.LiteralsInRange (innerExpression levels) := by
  induction levels with
  | zero =>
    intro j e h
    cases h
  | succ levels ih =>
    intro j e h
    exact accepts_node true expressionKinds (yields_expressionFields ih) j e h

theorem accepts_parameter : Accepts (fun p : Parameter => p.typeName.Canonical) parameter :=
  accepts_record (.seq (.seq (.map (Fields.yields_any _) fun _ _ _ _ _ h => h)
    (Fields.yields_any _)) (yields_field _ accepts_typeName))

theorem yields_statementFields {expression : Reader Expression} {statement : Reader Statement}
    (he : Accepts Expression.LiteralsInRange expression)
    (hs : Accepts Statement.WellFormed statement) (kind : StatementKind) :
    (statementFields expression statement kind).Yields Statement.WellFormed := by
  have hid := Fields.yields_any (field "id" nodeId)
  have hcall := accepts_record (yields_callFields he)
  cases kind with
  | block =>
    exact .seq (.map hid fun _ _ ss hss => (Statement.allWellFormed_iff ss).2 hss)
      (yields_listField _ hs)
  | emitStatement => exact .seq (.map hid fun _ _ _ h => h) (yields_field _ hcall)
  | «return» => exact .seq (.map hid fun _ _ _ h => h) (yields_optionField _ he)
  | expressionStatement => exact .seq (.map hid fun _ _ _ h => h) (yields_field _ he)
  | variableDeclarationStatement =>
    exact .seq (.seq (.map hid fun _ _ _ hdeclared _ hinitial => ⟨hdeclared, hinitial⟩)
      (yields_field _ (accepts_list accepts_parameter))) (yields_optionField _ he)
  | ifStatement =>
    exact .seq (.seq (.seq (.map hid fun _ _ _ hcondition _ htrue o hfalse =>
      ⟨hcondition, htrue, (Statement.optionWellFormed_iff o).2 hfalse⟩)
      (yields_field _ he)) (yields_field _ hs)) (yields_optionField _ hs)
  | whileStatement | doWhileStatement =>
    exact .seq (.seq (.map hid fun _ _ _ hcondition _ hbody => ⟨hcondition, hbody⟩)
      (yields_field _ he)) (yields_field _ hs)
  | forStatement =>
    exact .seq (.seq (.seq (.seq (.map hid fun _ _ i hinitial _ hcondition a hadvance _ hbody =>
      ⟨(Statement.optionWellFormed_iff i).2 hinitial, hcondition,
        (Statement.optionWellFormed_iff a).2 hadvance, hbody⟩)
      (yields_optionField _ hs)) (yields_optionField _ he)) (yields_optionField _ hs))
      (yields_field _ hs)
  | «break» | «continue» | placeholderStatement => exact .map hid fun _ _ => trivial
  | revertStatement => exact .seq (.map hid fun _ _ _ h => h) (yields_field _ hcall)

theorem accepts_innerStatement (levels : Nat) :
    Accepts Statement.WellFormed (innerStatement levels) := by
  induction levels with
  | zero =>
    intro j s h
    cases h
  | succ levels ih =>
    intro j s h
    exact accepts_node true statementKinds
      (yields_statementFields (accepts_innerExpression _) ih) j s h

theorem accepts_statement : Accepts Statement.WellFormed statement := by
  intro j s h
  unfold statement at h
  split_ifs at h
  exact accepts_node false statementKinds
    (yields_statementFields (accepts_innerExpression _) (accepts_innerStatement _)) j s h

theorem accepts_block : Accepts (fun b : Block => ∀ s ∈ b.statements, s.WellFormed) block :=
  accepts_record (.seq (.map (Fields.yields_any _) fun _ _ _ h => h)
    (yields_listField _ accepts_statement))

theorem accepts_storageVariable : Accepts StorageVariable.WellFormed storageVariable :=
  accepts_record (.seq (.seq (.seq (.map (Fields.yields_any _)
    fun _ _ _ _ _ htype _ hinitial => ⟨htype, hinitial⟩) (Fields.yields_any _))
    (yields_field _ accepts_typeName)) (yields_optionField _ (accepts_value false)))

theorem accepts_eventDeclaration : Accepts
    (fun e : EventDeclaration => ∀ p ∈ e.parameters, p.typeName.Canonical) eventDeclaration :=
  accepts_record (.seq (.seq (.map (Fields.yields_any _) fun _ _ _ _ _ h => h)
    (Fields.yields_any _)) (yields_listField _ accepts_parameter))

theorem accepts_function : Accepts Function.WellFormed function :=
  accepts_record (.seq (.seq (.seq (.map (Fields.yields_any _)
    fun _ _ _ _ _ hparameters _ hbody => ⟨hparameters, hbody⟩) (Fields.yields_any _))
    (yields_listField _ accepts_parameter)) (yields_field _ accepts_block))

theorem accepts_contract : Accepts Contract.WellFormed contract :=
  accepts_record (.seq (.seq (.seq (.seq (.map (Fields.yields_any _)
    fun _ _ _ _ _ hstorage _ hevents _ hfunctions => ⟨hstorage, hevents, hfunctions⟩)
    (Fields.yields_any _)) (yields_listField _ accepts_storageVariable))
    (yields_listField _ accepts_eventDeclaration)) (yields_listField _ accepts_function))

theorem accepts_transaction :
    Accepts (fun t : Transaction => ∀ v ∈ t.arguments, v.InRange) transaction :=
  accepts_record (.seq (.seq (.map (Fields.yields_any _) fun _ _ _ _ _ h => h)
    (Fields.yields_any _)) (yields_listField _ (accepts_value false)))

theorem accepts_sourceUnit :
    Accepts (fun u : SourceUnit => ∀ c ∈ u.contracts, c.WellFormed) sourceUnit :=
  accepts_record (.map (yields_field _ (accepts_list accepts_contract)) fun _ h => h)

theorem accepts_program : Accepts Program.WellFormed program :=
  accepts_record (.seq (.map (yields_field _ accepts_sourceUnit)
    fun _ hsource _ htransactions => ⟨hsource, htransactions⟩)
    (yields_listField _ accepts_transaction))

end Document

/-- A program that is read from a text is well formed. -/
theorem Program.wellFormed_of_ofText {text : String} {program : Program}
    (h : Program.ofText text = .ok program) : program.WellFormed := by
  obtain ⟨read, hread, h⟩ := bind_eq_ok h
  split_ifs at h
  cases h
  exact Document.accepts_program _ _ hread

end ContractTrace
