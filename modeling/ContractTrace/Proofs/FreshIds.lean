import ContractTrace.Builder
import Mathlib.Data.List.Flatten
import Mathlib.Data.List.Nodup
import Mathlib.Data.List.Perm.Subperm

/-! Built trees have distinct ids. Every build hands out the next ids of its builder and puts them
to the ids of the trees that it is given, the last to the root. So ids that are distinct and below
the next one stay so as long as there is a next one, and a source unit put together from built
contracts, none of them or of their parts used twice, has no id twice. -/

namespace ContractTrace

/-! ### The ids of a tree -/

namespace Expression

mutual

/-- The ids of the nodes of an expression. The declaration that an identifier refers to is not one
of its nodes. -/
def ids : Expression → List NodeId
  | .literal id _ => [id]
  | .identifier id _ _ => [id]
  | .binary id _ left right => id :: (ids left ++ ids right)
  | .unary id _ operand => id :: ids operand
  | .conditional id condition whenTrue whenFalse =>
    id :: (ids condition ++ ids whenTrue ++ ids whenFalse)
  | .tuple id components => id :: idsAll components
  | .call id callee arguments => id :: (ids callee ++ idsAll arguments)
  | .member id base _ => id :: ids base
  | .index id base position => id :: (ids base ++ ids position)
  | .assignment id _ target source => id :: (ids target ++ ids source)

def idsAll : List Expression → List NodeId
  | [] => []
  | e :: es => ids e ++ idsAll es

end

def idsOption : Option Expression → List NodeId
  | none => []
  | some e => e.ids

theorem idsAll_eq (es : List Expression) : idsAll es = es.flatMap ids := by
  induction es with
  | nil => rfl
  | cons e es ih => rw [idsAll, ih, List.flatMap_cons]

theorem idsOption_eq (o : Option Expression) : idsOption o = o.toList.flatMap ids := by
  cases o <;> simp [idsOption]

end Expression

def Call.ids (call : Call) : List NodeId :=
  call.id :: (call.callee.ids ++ Expression.idsAll call.arguments)

namespace Statement

mutual

def ids : Statement → List NodeId
  | .block id statements => id :: idsAll statements
  | .emit id call => id :: call.ids
  | .ret id expression => id :: Expression.idsOption expression
  | .effect id expression => id :: expression.ids
  | .declaration id declared initial =>
    id :: (declared.map Parameter.id ++ Expression.idsOption initial)
  | .conditional id condition whenTrue whenFalse =>
    id :: (condition.ids ++ ids whenTrue ++ idsOption whenFalse)
  | .whileLoop id condition body => id :: (condition.ids ++ ids body)
  | .doWhileLoop id condition body => id :: (condition.ids ++ ids body)
  | .forLoop id initial condition advance body =>
    id :: (idsOption initial ++ Expression.idsOption condition ++ idsOption advance ++ ids body)
  | .breakLoop id => [id]
  | .continueLoop id => [id]
  | .placeholder id => [id]
  | .revert id call => id :: call.ids

def idsAll : List Statement → List NodeId
  | [] => []
  | s :: ss => ids s ++ idsAll ss

def idsOption : Option Statement → List NodeId
  | none => []
  | some s => ids s

end

theorem idsAll_eq (ss : List Statement) : idsAll ss = ss.flatMap ids := by
  induction ss with
  | nil => rfl
  | cons s ss ih => rw [idsAll, ih, List.flatMap_cons]

theorem idsOption_eq (o : Option Statement) : idsOption o = o.toList.flatMap ids := by
  cases o <;> simp [idsOption]

end Statement

def Block.ids (b : Block) : List NodeId := b.id :: Statement.idsAll b.statements

def EventDeclaration.ids (e : EventDeclaration) : List NodeId :=
  e.id :: e.parameters.map Parameter.id

def Function.ids (f : Function) : List NodeId :=
  f.id :: (f.parameters.map Parameter.id ++ f.body.ids)

def Contract.ids (c : Contract) : List NodeId :=
  c.id :: (c.storage.map StorageVariable.id ++ c.events.flatMap EventDeclaration.ids ++
    c.functions.flatMap Function.ids)

def SourceUnit.ids (unit : SourceUnit) : List NodeId := unit.contracts.flatMap Contract.ids

namespace Builder

open scoped List

/-! ### Builds -/

/-- What a builder makes. -/
inductive Item
  | expression (e : Expression)
  | statement (s : Statement)
  | block (b : Block)
  | parameter (p : Parameter)
  | storageVariable (v : StorageVariable)
  | event (e : EventDeclaration)
  | function (f : Function)
  | contract (c : Contract)

namespace Item

/-- The id of the root. -/
def id : Item → NodeId
  | .expression e => e.id
  | .statement s => s.id
  | .block b => b.id
  | .parameter p => p.id
  | .storageVariable v => v.id
  | .event e => e.id
  | .function f => f.id
  | .contract c => c.id

def ids : Item → List NodeId
  | .expression e => e.ids
  | .statement s => s.ids
  | .block b => b.ids
  | .parameter p => [p.id]
  | .storageVariable v => [v.id]
  | .event e => e.ids
  | .function f => f.ids
  | .contract c => c.ids

end Item

/-- The ids of several items. -/
def idsOf (items : List Item) : List NodeId := items.flatMap Item.ids

inductive Operation
  | literal (value : Value)
  | identifier (name : String)
  | reference (name : String) (declaration : NodeId)
  | binary (operator : BinaryOperator) (left right : Expression)
  | unary (operator : UnaryOperator) (operand : Expression)
  | conditional (condition whenTrue whenFalse : Expression)
  | call (name : String) (arguments : List Expression)
  | emit (name : String) (arguments : List Expression)
  | ret (expression : Option Expression)
  | effect (expression : Expression)
  | ifThen (condition : Expression) (whenTrue : Statement) (whenFalse : Option Statement)
  | block (statements : List Statement)
  | nestedBlock (statements : List Statement)
  | parameter (name typeName : String)
  | storageVariable (name typeName : String) (initial : Option Value)
  | event (name : String) (parameters : List Parameter)
  | function (name : String) (parameters : List Parameter) (statements : List Statement)
  | contract (name : String) (storage : List StorageVariable) (events : List EventDeclaration)
      (functions : List Function)

namespace Operation

def build : Operation → Build Item
  | .literal value => .expression <$> Builder.literal value
  | .identifier name => .expression <$> Builder.identifier name
  | .reference name declaration => .expression <$> Builder.reference name declaration
  | .binary operator left right => .expression <$> Builder.binary operator left right
  | .unary operator operand => .expression <$> Builder.unary operator operand
  | .conditional condition whenTrue whenFalse =>
    .expression <$> Builder.conditional condition whenTrue whenFalse
  | .call name arguments => .expression <$> Builder.call name arguments
  | .emit name arguments => .statement <$> Builder.emit name arguments
  | .ret expression => .statement <$> Builder.ret expression
  | .effect expression => .statement <$> Builder.effect expression
  | .ifThen condition whenTrue whenFalse =>
    .statement <$> Builder.ifThen condition whenTrue whenFalse
  | .block statements => .block <$> Builder.block statements
  | .nestedBlock statements => .statement <$> Builder.nestedBlock statements
  | .parameter name typeName => .parameter <$> Builder.parameter name typeName
  | .storageVariable name typeName initial =>
    .storageVariable <$> Builder.storageVariable name typeName initial
  | .event name parameters => .event <$> Builder.event name parameters
  | .function name parameters statements =>
    .function <$> Builder.function name parameters statements
  | .contract name storage events functions =>
    .contract <$> Builder.contract name storage events functions

/-- The trees that an operation puts into its result. -/
def given : Operation → List Item
  | .literal _ | .identifier _ | .reference _ _ | .parameter _ _ | .storageVariable _ _ _ => []
  | .binary _ left right => [.expression left, .expression right]
  | .unary _ operand => [.expression operand]
  | .conditional condition whenTrue whenFalse =>
    [.expression condition, .expression whenTrue, .expression whenFalse]
  | .call _ arguments | .emit _ arguments => arguments.map .expression
  | .ret expression => expression.toList.map .expression
  | .effect expression => [.expression expression]
  | .ifThen condition whenTrue whenFalse =>
    [.expression condition, .statement whenTrue] ++ whenFalse.toList.map .statement
  | .block statements | .nestedBlock statements => statements.map .statement
  | .event _ parameters => parameters.map .parameter
  | .function _ parameters statements =>
    parameters.map .parameter ++ statements.map .statement
  | .contract _ storage events functions =>
    storage.map .storageVariable ++ events.map .event ++ functions.map .function

/-- The number of ids that an operation hands out. -/
def count : Operation → Nat
  | .emit _ _ => 3
  | .call _ _ | .function _ _ _ => 2
  | _ => 1

end Operation

/-- The first ids that are handed out from `next` on. -/
def handedOut (next : NodeId) : Nat → List NodeId
  | 0 => []
  | n + 1 => next :: handedOut (next + 1) n

/-- The next id when some have been handed out. -/
def after (next : NodeId) : Nat → NodeId
  | 0 => next
  | n + 1 => after (next + 1) n

@[simp] theorem idsOf_nil : idsOf [] = [] := rfl

@[simp] theorem idsOf_cons (item : Item) (items : List Item) :
    idsOf (item :: items) = item.ids ++ idsOf items := rfl

@[simp] theorem idsOf_append (items others : List Item) :
    idsOf (items ++ others) = idsOf items ++ idsOf others := List.flatMap_append

/-- The ids of items of one kind. -/
theorem idsOf_map {α : Type} (make : α → Item) (as : List α) :
    idsOf (as.map make) = as.flatMap fun a => (make a).ids := List.flatMap_map ..

/-- A build adds the ids that it hands out to those it is given, and the last is that of the
root. -/
theorem Operation.build_spec (o : Operation) (b : Builder) :
    (o.build b).1.ids ~ handedOut b.next o.count ++ idsOf o.given ∧
      (o.build b).1.id = after b.next (o.count - 1) ∧
      (o.build b).2.next = after b.next o.count := by
  refine ⟨?_, by cases o <;> rfl, by cases o <;> rfl⟩
  cases o with
  | literal value | identifier name | reference name declaration | parameter name typeName
  | storageVariable name typeName initial => exact .refl _
  | binary operator left right =>
    show b.next :: (left.ids ++ right.ids) ~ _
    simp [given, count, handedOut, Item.ids]
  | unary operator operand =>
    show b.next :: operand.ids ~ _
    simp [given, count, handedOut, Item.ids]
  | conditional condition whenTrue whenFalse =>
    show b.next :: (condition.ids ++ whenTrue.ids ++ whenFalse.ids) ~ _
    simp [given, count, handedOut, Item.ids]
  | call name arguments =>
    show (b.next + 1) :: b.next :: Expression.idsAll arguments ~ _
    rw [Expression.idsAll_eq, given, idsOf_map]
    exact .swap ..
  | emit name arguments =>
    -- callee, call and statement have one id each
    show (b.next + 1 + 1) :: (b.next + 1) :: b.next :: Expression.idsAll arguments ~ _
    rw [Expression.idsAll_eq, given, idsOf_map]
    exact (List.reverse_perm [b.next, b.next + 1, b.next + 1 + 1]).append_right _
  | ret expression =>
    show b.next :: Expression.idsOption expression ~ _
    rw [Expression.idsOption_eq, given, idsOf_map]
    exact .refl _
  | effect expression =>
    show b.next :: expression.ids ~ _
    simp [given, count, handedOut, Item.ids]
  | ifThen condition whenTrue whenFalse =>
    show b.next :: (condition.ids ++ whenTrue.ids ++ Statement.idsOption whenFalse) ~ _
    rw [Statement.idsOption_eq]
    simp [given, count, handedOut, Item.ids, idsOf_map]
  | block statements | nestedBlock statements =>
    show b.next :: Statement.idsAll statements ~ _
    rw [Statement.idsAll_eq, given, idsOf_map]
    exact .refl _
  | event name parameters =>
    show b.next :: parameters.map Parameter.id ~ _
    rw [given, idsOf_map, List.map_eq_flatMap]
    exact .refl _
  | function name parameters statements =>
    -- the body comes with an id of its own
    show (b.next + 1) :: (parameters.map Parameter.id ++
      b.next :: Statement.idsAll statements) ~ _
    rw [Statement.idsAll_eq, given, idsOf_append, idsOf_map, idsOf_map, List.map_eq_flatMap]
    exact (List.perm_middle.cons _).trans (.swap ..)
  | contract name storage events functions =>
    show b.next :: (storage.map StorageVariable.id ++ events.flatMap EventDeclaration.ids ++
      functions.flatMap Function.ids) ~ _
    rw [given, idsOf_append, idsOf_append, idsOf_map, idsOf_map, idsOf_map, List.map_eq_flatMap]
    exact .refl _

/-! ### Fresh ids -/

/-- The ids are distinct and below the next one. -/
structure Fresh (next : Nat) (ids : List NodeId) : Prop where
  nodup : ids.Nodup
  below : ∀ id ∈ ids, id.toNat < next

theorem toNat_after {next : NodeId} {n : Nat} (h : next.toNat + n < UInt32.size) :
    (after next n).toNat = next.toNat + n := by
  induction n generalizing next with
  | zero => rfl
  | succ n ih =>
    have hnext : (next + 1).toNat = next.toNat + 1 := by
      rw [UInt32.toNat_add]
      exact Nat.mod_eq_of_lt (show next.toNat + 1 < UInt32.size by omega)
    rw [after, ih (by omega), hnext]
    omega

/-- As numbers the ids are handed out one after the other. -/
theorem map_toNat_handedOut {next : NodeId} {n : Nat} (h : next.toNat + n < UInt32.size) :
    (handedOut next n).map UInt32.toNat = List.range' next.toNat n := by
  induction n generalizing next with
  | zero => rfl
  | succ n ih =>
    have hnext : (next + 1).toNat = next.toNat + 1 := toNat_after (n := 1) (by omega)
    rw [handedOut, List.map_cons, ih (by omega), hnext, List.range'_succ]

theorem Fresh.handOut {next : NodeId} {n : Nat} {ids : List NodeId} (h : Fresh next.toNat ids)
    (hroom : next.toNat + n < UInt32.size) : Fresh (next.toNat + n) (handedOut next n ++ ids) := by
  have hmem : ∀ id ∈ handedOut next n, next.toNat ≤ id.toNat ∧ id.toNat < next.toNat + n := by
    intro id hid
    have := List.mem_map_of_mem (f := UInt32.toNat) hid
    rw [map_toNat_handedOut hroom, List.mem_range'_1] at this
    exact this
  constructor
  · refine List.nodup_append.2 ⟨.of_map UInt32.toNat ?_, h.nodup, fun id hid other hother => ?_⟩
    · rw [map_toNat_handedOut hroom]
      exact List.nodup_range'
    · rintro rfl
      have hlow := (hmem id hid).1
      have hhigh := h.below id hother
      omega
  · intro id hid
    rcases List.mem_append.1 hid with hid | hid
    · exact (hmem id hid).2
    · have := h.below id hid
      omega

theorem Fresh.perm {next : Nat} {ids ids' : List NodeId} (h : Fresh next ids)
    (hperm : ids' ~ ids) : Fresh next ids' :=
  ⟨hperm.nodup_iff.2 h.nodup, fun id hid => h.below id (hperm.mem_iff.1 hid)⟩

theorem Fresh.sublist {next : Nat} {ids ids' : List NodeId} (h : Fresh next ids)
    (hsub : ids'.Sublist ids) : Fresh next ids' :=
  ⟨hsub.nodup h.nodup, fun id hid => h.below id (hsub.subset hid)⟩

theorem Operation.count_pos (o : Operation) : 0 < o.count := by
  cases o <;> exact Nat.zero_lt_succ _

theorem Fresh.build {b : Builder} (o : Operation) (h : Fresh b.next.toNat (idsOf o.given))
    (hroom : b.next.toNat + o.count < UInt32.size) :
    Fresh (b.next.toNat + o.count) (o.build b).1.ids :=
  (h.handOut hroom).perm (o.build_spec b).1

/-- As a number the id of the root is the last that was handed out. -/
theorem Operation.toNat_id_build (o : Operation) {b : Builder}
    (hroom : b.next.toNat + o.count < UInt32.size) :
    (o.build b).1.id.toNat = b.next.toNat + (o.count - 1) := by
  have hpos := o.count_pos
  rw [(o.build_spec b).2.1]
  exact toNat_after (by omega)

/-! ### Assembly -/

/-- Items that a builder has made since `b₀` and that are not used yet, and the number of ids that
it has handed out. A build takes what it is given from the items. -/
inductive Assembled (b₀ : Builder) : Nat → Builder → List Item → Prop
  | start : Assembled b₀ 0 b₀ []
  | skip {n : Nat} {b : Builder} {items : List Item} (h : Assembled b₀ n b items) :
      Assembled b₀ (n + 1) (freshId b).2 items
  | build {n : Nat} {b : Builder} {items rest : List Item} (h : Assembled b₀ n b items)
      (o : Operation) (hitems : items ~ o.given ++ rest) :
      Assembled b₀ (n + o.count) (o.build b).2 ((o.build b).1 :: rest)

theorem after_add (next : NodeId) (m n : Nat) : after next (m + n) = after (after next m) n := by
  induction m generalizing next with
  | zero => rw [Nat.zero_add]; rfl
  | succ m ih => rw [Nat.succ_add, after, ih, after]

theorem Assembled.next_eq {b₀ b : Builder} {n : Nat} {items : List Item}
    (h : Assembled b₀ n b items) : b.next = after b₀.next n := by
  induction h with
  | start => rfl
  | skip _ ih => rw [after_add, ← ih]; rfl
  | @build n b items rest _ o _ ih => rw [(o.build_spec b).2.2, ih, after_add]

/-- The items at hand have distinct ids, also across items. -/
theorem Assembled.fresh {b₀ b : Builder} {n : Nat} {items : List Item}
    (h : Assembled b₀ n b items) (hroom : b₀.next.toNat + n < UInt32.size) :
    Fresh (b₀.next.toNat + n) (idsOf items) := by
  induction h with
  | start => exact ⟨List.nodup_nil, by simp⟩
  | skip _ ih =>
    have hfresh := ih (by omega)
    exact ⟨hfresh.nodup, fun id hid => by have := hfresh.below id hid; omega⟩
  | @build n b items rest h o hitems ih =>
    have hnext : b.next.toNat = b₀.next.toNat + n := by
      rw [h.next_eq]
      exact toNat_after (by omega)
    have hfresh := ih (by omega)
    rw [← hnext] at hfresh
    have hout := hfresh.handOut (n := o.count) (by omega)
    rw [hnext, Nat.add_assoc] at hout
    -- the new item has the ids handed out and those of what it was given
    refine hout.perm ?_
    calc idsOf ((o.build b).1 :: rest)
        = (o.build b).1.ids ++ idsOf rest := rfl
      _ ~ handedOut b.next o.count ++ idsOf o.given ++ idsOf rest :=
        (o.build_spec b).1.append_right _
      _ ~ handedOut b.next o.count ++ idsOf items := by
        rw [List.append_assoc, ← idsOf_append]
        exact (hitems.symm.flatMap_right Item.ids).append_left _

theorem idsOf_contracts (contracts : List Contract) :
    idsOf (contracts.map .contract) = (SourceUnit.mk contracts).ids := idsOf_map ..

/-- Where the trees given have distinct ids below the next one, and an id is left for the next
build, the tree that is built has distinct ids below the new next one, the greatest at its root.
So a source unit put together from built contracts has no id twice, if nothing built is used
twice. -/
theorem ids_distinct :
    (∀ (o : Operation) (b : Builder), Fresh b.next.toNat (idsOf o.given) →
      b.next.toNat + o.count < UInt32.size →
      (o.build b).1.ids.Nodup ∧
        (∀ id ∈ (o.build b).1.ids, id ≠ (o.build b).1.id → id < (o.build b).1.id) ∧
        ∀ id ∈ (o.build b).1.ids, id < (o.build b).2.next) ∧
    ∀ (b₀ b : Builder) (n : Nat) (items : List Item) (contracts : List Contract),
      Assembled b₀ n b items → b₀.next.toNat + n < UInt32.size →
      contracts.map .contract <+~ items → (SourceUnit.mk contracts).ids.Nodup := by
  constructor
  · intro o b h hroom
    have hfresh := h.build o hroom
    refine ⟨hfresh.nodup, fun id hid hne => ?_, fun id hid => ?_⟩
    · have hroot := o.toNat_id_build hroom
      have hbelow := hfresh.below id hid
      have hne' : id.toNat ≠ (o.build b).1.id.toNat := fun h => hne (UInt32.toNat_inj.1 h)
      rw [UInt32.lt_iff_toNat_lt]
      omega
    · rw [UInt32.lt_iff_toNat_lt, (o.build_spec b).2.2, toNat_after hroom]
      exact hfresh.below id hid
  · intro b₀ b n items contracts h hroom hcontracts
    obtain ⟨used, hused, hsub⟩ := hcontracts
    have hfresh := (h.fresh hroom).sublist (hsub.flatMap Item.ids)
    rw [← idsOf_contracts]
    exact (hfresh.perm (hused.symm.flatMap_right Item.ids)).nodup

/-- With room for one id less this fails. Counted from `1` on, fewer than `2 ^ 32` ids are used when
the last of all goes to a literal, but the next id is then `0` and the id of the literal is not
below it. -/
theorem literal_takes_last_id :
    Fresh (0xFFFFFFFF : NodeId).toNat (idsOf (Operation.literal (.bool true)).given) ∧
      (0xFFFFFFFF : NodeId).toNat - 1 + (Operation.literal (.bool true)).count < UInt32.size ∧
      (Operation.literal (.bool true)).build ⟨0xFFFFFFFF⟩ =
        (.expression (.literal 0xFFFFFFFF (.bool true)), ⟨0⟩) ∧
      ¬ ∀ id ∈ ((Operation.literal (.bool true)).build ⟨0xFFFFFFFF⟩).1.ids,
        id < ((Operation.literal (.bool true)).build ⟨0xFFFFFFFF⟩).2.next := by
  refine ⟨⟨List.nodup_nil, by simp [Operation.given, idsOf]⟩, by decide, rfl, fun h => ?_⟩
  have hlast : (0xFFFFFFFF : NodeId) < 0 := h 0xFFFFFFFF List.mem_cons_self
  exact absurd hlast (by decide)

def builtEvent : EventDeclaration := ⟨2, "E", [⟨1, "v", .ofText "uint256"⟩]⟩

def builtEmit : Statement := .emit 6 ⟨5, .identifier 4 "E" none, [.literal 3 (.bool true)]⟩

def builtFunction : Function := ⟨8, "f", [], ⟨7, [builtEmit]⟩⟩

def builtContract : Contract := ⟨9, "C", [], [builtEvent], [builtFunction]⟩

/-- An event and a function that emits it, from a new builder on. -/
theorem ids_distinct_builtContract :
    (Operation.emit "E" [.literal 3 (.bool true)]).build ⟨4⟩ = (.statement builtEmit, ⟨7⟩) ∧
      builtEmit.ids.Nodup ∧ (∀ id ∈ builtEmit.ids, id ≠ 6 → id < 6) ∧
      (∀ id ∈ builtEmit.ids, id < 7) ∧
      Assembled {} 9 ⟨10⟩ [.contract builtContract] ∧
      (SourceUnit.mk [builtContract]).ids.Nodup := by
  have hgiven : Fresh 4 (idsOf (Operation.emit "E" [.literal 3 (.bool true)]).given) :=
    ⟨List.nodup_singleton 3, fun id hid => by rw [List.mem_singleton.1 hid]; decide⟩
  obtain ⟨hnodup, hroot, hnext⟩ :=
    ids_distinct.1 (.emit "E" [.literal 3 (.bool true)]) ⟨4⟩ hgiven (by decide)
  have hparameter : Assembled {} 1 ⟨2⟩ [.parameter ⟨1, "v", .ofText "uint256"⟩] :=
    Assembled.build .start (.parameter "v" "uint256") (List.Perm.refl [])
  have hevent : Assembled {} 2 ⟨3⟩ [.event builtEvent] :=
    hparameter.build (.event "E" [⟨1, "v", .ofText "uint256"⟩]) (List.Perm.refl _)
  have hliteral : Assembled {} 3 ⟨4⟩ [.expression (.literal 3 (.bool true)), .event builtEvent] :=
    hevent.build (.literal (.bool true)) (List.Perm.refl _)
  have hemit : Assembled {} 6 ⟨7⟩ [.statement builtEmit, .event builtEvent] :=
    hliteral.build (.emit "E" [.literal 3 (.bool true)]) (List.Perm.refl _)
  have hfunction : Assembled {} 8 ⟨9⟩ [.function builtFunction, .event builtEvent] :=
    hemit.build (.function "f" [] [builtEmit]) (List.Perm.refl _)
  have hcontract : Assembled {} 9 ⟨10⟩ [.contract builtContract] :=
    hfunction.build (.contract "C" [] [builtEvent] [builtFunction]) (List.Perm.swap _ _ _)
  exact ⟨rfl, hnodup, hroot, hnext, hcontract,
    ids_distinct.2 {} ⟨10⟩ 9 _ [builtContract] hcontract (by decide) (.refl _)⟩

end Builder

end ContractTrace
