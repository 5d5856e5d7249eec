import ContractTrace.Proofs.BindingLog
import ContractTrace.Proofs.Moments
import ContractTrace.Proofs.Reachable

/-! What identifiers stand for in a call. One that names its declaration stands for the argument
of that parameter, or else for the initial value of that storage variable; one with a name alone
stands for the argument of the last parameter of the name, or else for the initial value of the
last storage variable of the name. Nothing that happens in a run changes this, and every expression
in which a run fails is evaluated where it holds. -/

namespace ContractTrace

/-! ### Meanings -/

/-- Which of the declared things an identifier refers to: the one with the id, or, where there
is no id, the last one of the name. -/
def referent {α : Type} (idOf : α → NodeId) (nameOf : α → String) (declared : List α)
    (name : String) : Option NodeId → Option α
  | some id => declared.find? (idOf · = id)
  | none => declared.reverse.find? (nameOf · = name)

theorem referent_map {α β : Type} (f : α → β) (idOf : β → NodeId) (nameOf : β → String)
    (declared : List α) (name : String) (declaration : Option NodeId) :
    referent idOf nameOf (declared.map f) name declaration =
      (referent (fun a => idOf (f a)) (fun a => nameOf (f a)) declared name declaration).map f := by
  cases declaration with
  | some id =>
    rw [referent, List.find?_map]
    rfl
  | none =>
    rw [referent, ← List.map_reverse, List.find?_map]
    rfl

theorem mem_of_referent {α : Type} {idOf : α → NodeId} {nameOf : α → String} {declared : List α}
    {name : String} {declaration : Option NodeId} {a : α}
    (h : referent idOf nameOf declared name declaration = some a) : a ∈ declared := by
  cases declaration with
  | some id => exact List.mem_of_find?_eq_some h
  | none => exact List.mem_reverse.1 (List.mem_of_find?_eq_some h)

/-- The argument of the parameter that an identifier refers to. -/
def Function.argument? (function : Function) (arguments : List Value) (name : String)
    (declaration : Option NodeId) : Option Value :=
  (referent (·.1.id) (·.1.name) (function.parameters.zip arguments) name declaration).map (·.2)

/-- The initial value of the storage variable that an identifier refers to. -/
def Contract.initial? (contract : Contract) (name : String) (declaration : Option NodeId) :
    Option Value :=
  (referent (·.id) (·.name) contract.storage name declaration).bind (·.initial)

/-- What an identifier stands for in a call; the parameters hide storage. -/
def meaning (contract : Contract) (function : Function) (arguments : List Value) (name : String)
    (declaration : Option NodeId) : Except EvaluationError Value :=
  match function.argument? arguments name declaration with
  | some v => .ok v
  | none =>
    match contract.initial? name declaration with
    | some v => .ok v
    | none => .error (.undeclaredIdentifier name)

/-! ### Environments that are only added to -/

namespace Environment

variable {bs : List Binding}

theorem not_of_mem_map_add {P : Binding → Prop} (h : ∀ b ∈ bs, ¬ P b) :
    ∀ b, .add b ∈ bs.map Operation.add → ¬ P b := by
  intro b hb
  obtain ⟨c, hc, hcb⟩ := List.mem_map.1 hb
  cases hcb
  exact h b hc

theorem lastAdd_of_eq_append {P : Binding → Prop} {before after : List Binding} {b : Binding}
    (hbs : bs = before ++ b :: after) (hP : P b) (hafter : ∀ c ∈ after, ¬ P c) :
    LastAdd P (bs.map .add) b (after.map .add) := by
  refine ⟨⟨before.map .add, ?_⟩, hP, not_of_mem_map_add hafter⟩
  rw [hbs, List.map_append, List.map_cons]

@[simp] theorem assigned_map_add (id : NodeId) (bs : List Binding) :
    assigned id (bs.map .add) = [] := by
  induction bs with
  | nil => rfl
  | cons b bs ih => exact ih

/-- A declaration leads to the binding that was added for it. -/
theorem get?_replay_map_add (hids : (bs.map Binding.id).Nodup) (isStorage : Bool) (id : NodeId) :
    ((empty isStorage).replay (bs.map .add)).get? id = bs.find? (·.id = id) := by
  cases hfind : bs.find? (·.id = id) with
  | none =>
    refine get?_replay_empty (not_of_mem_map_add fun b hb => ?_) isStorage
    simpa using List.find?_eq_none.1 hfind b hb
  | some b =>
    obtain ⟨hid, before, after, hbs, -⟩ := List.find?_eq_some_iff_append.1 hfind
    have hid : b.id = id := of_decide_eq_true hid
    rw [hbs, List.map_append, List.map_cons, List.nodup_append, List.nodup_cons, hid] at hids
    have hafter : ∀ c ∈ after, ¬ c.id = id := by
      intro c hc hcid
      exact hids.2.1.1 (hcid ▸ List.mem_map_of_mem hc)
    have hlast : LastAdd (·.id = id) _ b _ := lastAdd_of_eq_append hbs hid hafter
    rw [hlast.get?_replay, assigned_map_add, Binding.extended_nil]

/-- A name leads to the last binding that was added under it. -/
theorem named?_replay_map_add (hids : (bs.map Binding.id).Nodup) (isStorage : Bool)
    (name : String) :
    ((empty isStorage).replay (bs.map .add)).named? name = bs.reverse.find? (·.name = name) := by
  cases hfind : bs.reverse.find? (·.name = name) with
  | none =>
    refine named?_replay_empty (not_of_mem_map_add fun b hb => ?_) isStorage
    simpa using List.find?_eq_none.1 hfind b (List.mem_reverse.2 hb)
  | some b =>
    obtain ⟨hname, before, after, hbs, hbefore⟩ := List.find?_eq_some_iff_append.1 hfind
    have hname : b.name = name := of_decide_eq_true hname
    have hbs : bs = after.reverse ++ b :: before.reverse := by
      rw [← List.reverse_reverse bs, hbs]
      simp
    have hlater : ∀ c ∈ before.reverse, ¬ c.name = name := by
      intro c hc
      simpa using hbefore c (List.mem_reverse.1 hc)
    have hlast : LastAdd (·.name = name) _ b _ := lastAdd_of_eq_append hbs hname hlater
    have hb : b ∈ bs := List.mem_reverse.1 (List.mem_of_find?_eq_some hfind)
    rw [hlast.named?_replay, get?_replay_map_add hids, find?_id_of_mem hids hb]

theorem lookup_replay_map_add (hids : (bs.map Binding.id).Nodup) (isStorage : Bool)
    (name : String) (declaration : Option NodeId) :
    ((empty isStorage).replay (bs.map .add)).lookup name declaration =
      referent Binding.id Binding.name bs name declaration := by
  cases declaration with
  | some id => exact get?_replay_map_add hids isStorage id
  | none => exact named?_replay_map_add hids isStorage name

end Environment

/-! ### Parameters and storage -/

open Environment

/-- A parameter bound to its argument. -/
def Parameter.bound (depth : Nat) (q : Parameter × Value) : Binding :=
  ⟨q.1.asVariable, depth, [q.2]⟩

/-- A storage variable with its initial value. -/
def StorageVariable.initialized (v : StorageVariable) : Binding :=
  ⟨v.asVariable, 0, v.initial.toList⟩

namespace Session

theorem bindArguments_eq_replay (depth : Nat) (ps : List Parameter) (vs : List Value) :
    bindArguments depth .locals ps vs =
      (empty false).replay (((ps.zip vs).map (Parameter.bound depth)).map .add) := by
  rw [bindArguments_eq, replay, List.foldl_map, List.foldl_map]
  rfl

theorem initialBinding_eq_ok {v : StorageVariable} {value : Value} {b : Binding}
    (h : initialBinding v = .ok (value, b)) : v.initial = some value ∧ b = v.initialized := by
  unfold initialBinding at h
  cases hv : v.initial with
  | none =>
    rw [hv] at h
    cases h
  | some w =>
    simp only [hv] at h
    split at h
    · cases h
      refine ⟨rfl, ?_⟩
      rw [StorageVariable.initialized, hv]
      rfl
    · cases h

/-- Storage that is seeded holds the variables in the order of declaration, and each of them has
an initial value. -/
theorem seed_eq_ok {vs : List StorageVariable} {storage : Environment}
    (h : Flat.seed vs = .ok storage) :
    storage = (empty true).replay ((vs.map StorageVariable.initialized).map .add) ∧
      ∀ v ∈ vs, ∃ value, v.initial = some value := by
  have hfold : ∀ env : Environment,
      vs.foldlM (fun env v => return env.add (← initialBinding v).2) env = .ok storage →
      storage = env.replay ((vs.map StorageVariable.initialized).map .add) ∧
        ∀ v ∈ vs, ∃ value, v.initial = some value := by
    clear h
    induction vs with
    | nil =>
      intro env h
      cases h
      exact ⟨rfl, fun v hv => by cases hv⟩
    | cons v vs ih =>
      intro env h
      rw [List.foldlM_cons] at h
      cases hv : initialBinding v with
      | error e =>
        rw [hv] at h
        cases h
      | ok seeded =>
        rw [hv] at h
        obtain ⟨hinitial, hbinding⟩ := initialBinding_eq_ok hv
        obtain ⟨hstorage, hrest⟩ := ih _ h
        rw [hbinding] at hstorage
        exact ⟨hstorage, List.forall_mem_cons.2 ⟨⟨seeded.1, hinitial⟩, hrest⟩⟩
  exact hfold .storage h

theorem length_eq_of_fault?_eq_none {function : Function} {arguments : List Value}
    (h : Flat.fault? function arguments = none) :
    function.parameters.length = arguments.length := by
  unfold Flat.fault? at h
  split at h
  · cases h
  · omega

variable {contract : Contract} {function : Function} {arguments : List Value}
  {storage : Environment}

/-- The bindings of a call have the ids of the parameters. -/
theorem map_id_map_bound (hlength : function.parameters.length = arguments.length) (depth : Nat) :
    ((function.parameters.zip arguments).map (Parameter.bound depth)).map Binding.id =
      function.parameters.map (·.id) := by
  have hzip : (function.parameters.zip arguments).map Prod.fst = function.parameters :=
    List.map_fst_zip (Nat.le_of_eq hlength)
  calc ((function.parameters.zip arguments).map (Parameter.bound depth)).map Binding.id
      = ((function.parameters.zip arguments).map Prod.fst).map (·.id) := by
        rw [List.map_map, List.map_map]
        rfl
    _ = function.parameters.map (·.id) := by rw [hzip]

theorem map_id_map_initialized (contract : Contract) :
    (contract.storage.map StorageVariable.initialized).map Binding.id =
      contract.storage.map (·.id) := by
  rw [List.map_map]
  rfl

theorem lookup_bindArguments (hids : (function.parameters.map (·.id)).Nodup)
    (hlength : function.parameters.length = arguments.length) (depth : Nat) (name : String)
    (declaration : Option NodeId) :
    (bindArguments depth .locals function.parameters arguments).lookup name declaration =
      (referent (·.1.id) (·.1.name) (function.parameters.zip arguments) name declaration).map
        (Parameter.bound depth) := by
  rw [← map_id_map_bound hlength depth] at hids
  rw [bindArguments_eq_replay, lookup_replay_map_add hids, referent_map]
  rfl

theorem lookup_seed (hids : (contract.storage.map (·.id)).Nodup)
    (hseed : Flat.seed contract.storage = .ok storage) (name : String)
    (declaration : Option NodeId) :
    storage.lookup name declaration =
      (referent (·.id) (·.name) contract.storage name declaration).map
        StorageVariable.initialized := by
  rw [← map_id_map_initialized] at hids
  rw [(seed_eq_ok hseed).1, lookup_replay_map_add hids, referent_map]
  rfl

/-- Over the bindings of a call an identifier evaluates to its meaning. -/
theorem evaluate_identifier (hparameters : (function.parameters.map (·.id)).Nodup)
    (hdeclared : (contract.storage.map (·.id)).Nodup)
    (hlength : function.parameters.length = arguments.length)
    (hseed : Flat.seed contract.storage = .ok storage) (depth : Nat) (policy : ErrorPolicy)
    (id : NodeId) (name : String) (declaration : Option NodeId) (state : EvaluationState) :
    evaluate policy
        (.layered (bindArguments depth .locals function.parameters arguments) storage)
        (.identifier id name declaration) state =
      (meaning contract function arguments name declaration, state) := by
  rw [evaluate, View.lookup, lookup_bindArguments hparameters hlength, lookup_seed hdeclared hseed,
    meaning, Function.argument?, Contract.initial?]
  cases referent (·.1.id) (·.1.name) (function.parameters.zip arguments) name declaration with
  | some q => rfl
  | none =>
    cases hv : referent (·.id) (·.name) contract.storage name declaration with
    | none => rfl
    | some v =>
      obtain ⟨value, hvalue⟩ := (seed_eq_ok hseed).2 v (mem_of_referent hv)
      simp only [Option.map_none, Option.map_some, Option.bind_some, StorageVariable.initialized,
        hvalue]
      rfl

/-- In the session identifiers have the meaning that contract, function and arguments give them,
wherever in an expression they stand, and parameters are bound at depth one over storage at depth
zero. -/
structure Resolves (contract : Contract) (function : Function) (arguments : List Value)
    (frame : Frame) (u : Session) : Prop where
  inside : ∀ policy id name declaration state,
    evaluate policy (.layered frame.locals u.storage) (.identifier id name declaration) state =
      (meaning contract function arguments name declaration, state)
  alone : ∀ id name declaration, evaluateHere (.identifier id name declaration) u =
    ((meaning contract function arguments name declaration).mapError .evaluation, u)
  arity : function.parameters.length = arguments.length
  parameters : ∀ p v, (p, v) ∈ function.parameters.zip arguments →
    frame.locals.get? p.id = some ⟨p.asVariable, 1, [v]⟩
  storage : ∀ v ∈ contract.storage, u.storage.get? v.id = some ⟨v.asVariable, 0, v.initial.toList⟩

theorem resolves_of_seeded (hparameters : (function.parameters.map (·.id)).Nodup)
    (hdeclared : (contract.storage.map (·.id)).Nodup)
    (hlength : function.parameters.length = arguments.length) {frame : Frame} {u : Session}
    (hframes : u.stack.frames = [frame])
    (hlocals : frame.locals = bindArguments 1 .locals function.parameters arguments)
    (hseed : Flat.seed contract.storage = .ok u.storage) :
    Resolves contract function arguments frame u := by
  have hinside : ∀ policy id name declaration state,
      evaluate policy (.layered frame.locals u.storage) (.identifier id name declaration) state =
        (meaning contract function arguments name declaration, state) := by
    rw [hlocals]
    exact evaluate_identifier hparameters hdeclared hlength hseed 1
  constructor
  case inside => exact hinside
  case alone =>
    intro id name declaration
    rw [evaluateHere_apply, CallStack.current, hframes]
    simp only [hinside]
  case arity => exact hlength
  case parameters =>
    intro p v hmem
    rw [← map_id_map_bound hlength 1] at hparameters
    rw [hlocals, bindArguments_eq_replay, get?_replay_map_add hparameters]
    exact find?_id_of_mem hparameters (List.mem_map_of_mem hmem)
  case storage =>
    intro v hmem
    rw [← map_id_map_initialized] at hdeclared
    rw [(seed_eq_ok hseed).1, get?_replay_map_add hdeclared]
    exact find?_id_of_mem hdeclared (List.mem_map_of_mem hmem)

/-! ### Runs -/

/-- Wherever a run of a reachable session has come to in the body of a call, identifiers have
their meaning. This leaves no evaluation out that a run could fail in: where it does, it has come
to a call whose body evaluates the expression there. -/
theorem identifiers_resolve {program : Program} {configuration : Configuration} {s : Session}
    (h : Reachable program configuration s) :
    (∀ t contract function u, MeetsInRun s t contract function u →
      (function.parameters.map (·.id)).Nodup → (contract.storage.map (·.id)).Nodup →
      ∃ frame, u.stack.frames = [frame] ∧ Resolves contract function t.arguments frame u) ∧
    ∀ e, (run s).1 = .error (.evaluation e) →
      ∃ t contract function, ∃ statement ∈ Flat.spliceAll function.body.statements,
        ∃ failing ∈ statement.evaluated, ∃ u, MeetsInRun s t contract function u ∧
          (evaluateHere failing u).1 = .error (.evaluation e) := by
  constructor
  · intro t contract function u hu hparameters hdeclared
    obtain ⟨frame, hframes, hlocals, hfits, hseed⟩ := hu.frame h.quiescent
    exact ⟨frame, hframes, resolves_of_seeded hparameters hdeclared
      (length_eq_of_fault?_eq_none hfits) hframes hlocals hseed⟩
  · intro e he
    exact run_eq_evaluation h.quiescent he

/-- A function with a name that storage has too, and one that it declares twice. -/
def shadowingFunction : Function :=
  let x : Expression := .identifier 20 "x" none
  let y : Expression := .identifier 21 "y" none
  ⟨5, "f", [⟨6, "x", .integer .uint256⟩, ⟨7, "z", .integer .uint256⟩, ⟨8, "z", .integer .uint256⟩],
    ⟨9, [.emit 10 ⟨11, .identifier 12 "A" none, []⟩,
      .block 13 [.emit 14 ⟨15, .identifier 16 "B" none, [x, y]⟩]]⟩⟩

def shadowing : Contract :=
  let declared (id : NodeId) (name : String) (initial : Int) : StorageVariable :=
    ⟨id, name, .integer .uint256, some (.integer initial .uint256)⟩
  ⟨1, "C", [declared 2 "x" 10, declared 3 "y" 20, declared 4 "y" 30], [], [shadowingFunction]⟩

def shadowingCall (x z z' : Int) : Transaction :=
  ⟨"C", "f", [.integer x .uint256, .integer z .uint256, .integer z' .uint256]⟩

def shadowingRun : Session :=
  start ⟨⟨[shadowing]⟩, [shadowingCall 1 2 3, shadowingCall 4 5 6]⟩ {}

/-- A function that returns what nothing declares, in a block after an emit. -/
def undeclaredRun : Session :=
  start ⟨⟨[⟨1, "C", [], [], [⟨2, "f", [], ⟨3, [.emit 4 ⟨5, .identifier 6 "A" none, []⟩,
    .block 7 [.ret 8 (some (.identifier 9 "x" none))]]⟩⟩]⟩]⟩, [⟨"C", "f", []⟩]⟩ {}

/-- Identifiers in the second call, before the statement in the block, and a run that fails in
one. -/
theorem identifiers_resolve_shadowing :
    ((shadowingFunction.parameters.map (·.id)).Nodup ∧ (shadowing.storage.map (·.id)).Nodup ∧
    ∃ u, MeetsInRun shadowingRun (shadowingCall 4 5 6) shadowing shadowingFunction u ∧
      ∀ id, evaluateHere (.identifier id "x" none) u = (.ok (.integer 4 .uint256), u) ∧
        evaluateHere (.identifier id "x" (some 2)) u = (.ok (.integer 10 .uint256), u) ∧
        evaluateHere (.identifier id "y" none) u = (.ok (.integer 30 .uint256), u) ∧
        evaluateHere (.identifier id "z" none) u = (.ok (.integer 6 .uint256), u) ∧
        evaluateHere (.identifier id "z" (some 17)) u =
          (.error (.evaluation (.undeclaredIdentifier "z")), u)) ∧
    (run undeclaredRun).1 = .error (.evaluation (.undeclaredIdentifier "x")) ∧
    ∃ t contract function, ∃ statement ∈ Flat.spliceAll function.body.statements,
      ∃ failing ∈ statement.evaluated, ∃ u, MeetsInRun undeclaredRun t contract function u ∧
        (evaluateHere failing u).1 = .error (.evaluation (.undeclaredIdentifier "x")) := by
  have hparameters : (shadowingFunction.parameters.map (·.id)).Nodup := by decide
  have hdeclared : (shadowing.storage.map (·.id)).Nodup := by decide
  have hcomes : ∃ s', ComesTo shadowingRun (shadowingCall 4 5 6) s' ∧
      s'.program.source = ⟨[shadowing]⟩ ∧ s'.active = some shadowing :=
    ⟨_, ⟨shadowing, _, .empty, [shadowingCall 1 2 3], [], rfl, rfl, rfl⟩, rfl, rfl⟩
  obtain ⟨s', hcomes, hsource, hactive⟩ := hcomes
  have hadmits : Admits s' (shadowingCall 4 5 6) shadowing shadowingFunction s'.storage := by
    refine ⟨?_, rfl, rfl, storageFor_active hactive⟩
    rw [hsource]
    rfl
  have hmet : ∃ u, MeetsInCall s' (shadowingCall 4 5 6) shadowing shadowingFunction u :=
    ⟨_, s'.storage, .empty, _, hadmits, rfl, .next rfl (.inside rfl .statement)⟩
  obtain ⟨u, hmet⟩ := hmet
  have hu : MeetsInRun shadowingRun (shadowingCall 4 5 6) shadowing shadowingFunction u :=
    ⟨s', hcomes, hmet⟩
  obtain ⟨frame, -, hresolves⟩ :=
    (identifiers_resolve .start).1 _ _ _ u hu hparameters hdeclared
  have hfails : (run undeclaredRun).1 = .error (.evaluation (.undeclaredIdentifier "x")) := rfl
  exact ⟨⟨hparameters, hdeclared, u, hu, fun id => ⟨hresolves.alone id "x" none,
    hresolves.alone id "x" (some 2), hresolves.alone id "y" none, hresolves.alone id "z" none,
    hresolves.alone id "z" (some 17)⟩⟩, hfails, (identifiers_resolve .start).2 _ hfails⟩

end Session

end ContractTrace
