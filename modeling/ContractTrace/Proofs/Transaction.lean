import ContractTrace.Proofs.Bindings
import ContractTrace.Proofs.Walk

/-! All that one transaction can do to a session: it is refused, and the session stays as it
was, or it is admitted, and the session ends as the walk over the flat body says. -/

namespace ContractTrace

theorem SourceUnit.name_of_contract? {source : SourceUnit} {name : String} {c : Contract}
    (h : source.contract? name = some c) : c.name = name := by
  simpa using List.find?_some h

namespace Session

open Flat
open ContractTrace.Task (bind_apply bind_of_ok bind_of_error)

/-! ### Seeding -/

/-- What the initial bindings satisfy all bindings of seeded storage satisfy. -/
theorem forall_mem_seed {P : Binding → Prop} {vs : List StorageVariable} {storage : Environment}
    (hvs : ∀ v ∈ vs, ∀ value b, initialBinding v = .ok (value, b) → P b)
    (h : Flat.seed vs = .ok storage) : ∀ b ∈ storage.bindings, P b := by
  have hfold : ∀ env : Environment, (∀ b ∈ env.bindings, P b) →
      vs.foldlM (fun env v => return env.add (← initialBinding v).2) env = .ok storage →
      ∀ b ∈ storage.bindings, P b := by
    clear h
    induction vs with
    | nil =>
      intro env henv h
      cases h
      exact henv
    | cons v vs ih =>
      intro env henv h
      rw [List.forall_mem_cons] at hvs
      rw [List.foldlM_cons] at h
      cases hv : initialBinding v with
      | error e =>
        rw [hv] at h
        cases h
      | ok seeded =>
        rw [hv] at h
        exact ih hvs.2 _ (Environment.forall_mem_add henv (hvs.1 seeded.1 seeded.2 hv)) h
  exact hfold .storage (fun _ hb => by cases hb) h

theorem seedFrom_apply (vs : List StorageVariable) (env : Environment) (s : Session) :
    ∃ log, seedFrom env vs s =
      (vs.foldlM (fun env v => return env.add (← initialBinding v).2) env, { s with log }) := by
  induction vs generalizing env s with
  | nil => exact ⟨s.log, rfl⟩
  | cons v vs ih =>
    rw [seedFrom, List.foldlM_cons]
    rcases initialBinding v with e | ⟨value, b⟩
    · exact ⟨s.log, rfl⟩
    · exact ih (env.add b) _

theorem seedStorage_of_error {contract : Contract} {e : RunError}
    (h : Flat.seed contract.storage = .error e) (s : Session) :
    ∃ log, seedStorage contract s = (.error e, { s with log }) := by
  obtain ⟨log, hlog⟩ := seedFrom_apply contract.storage .storage s
  rw [Flat.seed] at h
  rw [h] at hlog
  exact ⟨log, bind_of_error hlog _⟩

theorem seedStorage_of_ok {contract : Contract} {storage : Environment}
    (h : Flat.seed contract.storage = .ok storage) (s : Session) :
    ∃ log, seedStorage contract s =
      (.ok (), { s with storage, active := some contract, log }) := by
  obtain ⟨log, hlog⟩ := seedFrom_apply contract.storage .storage s
  rw [Flat.seed] at h
  rw [h] at hlog
  exact ⟨_, bind_of_ok hlog _⟩

/-- The storage that a call of a contract would run over. -/
def storageFor (s : Session) (contract : Contract) : Except RunError Environment :=
  match s.active with
  | none => Flat.seed contract.storage
  | some current =>
    if current.name = contract.name then .ok s.storage
    else .error (.multipleContracts current.name contract.name)

theorem activate_apply (contract : Contract) (s : Session) :
    activate contract s = match s.active with
      | none => seedStorage contract s
      | some current =>
        if current.name = contract.name then (.ok (), s)
        else (.error (.multipleContracts current.name contract.name), s) := by
  rw [activate, bind_apply, Task.view_apply]
  cases s.active with
  | none => rfl
  | some current => by_cases h : current.name = contract.name <;> simp [h]

theorem activate_of_error {contract : Contract} {s : Session} {e : RunError}
    (h : s.storageFor contract = .error e) :
    ∃ log, activate contract s = (.error e, { s with log }) := by
  rw [activate_apply]
  rw [storageFor] at h
  split at h
  · exact seedStorage_of_error h s
  · split_ifs at h with hname
    cases h
    exact ⟨s.log, if_neg hname⟩

/-- Storage is seeded unless a contract is active. -/
theorem activate_of_ok {contract : Contract} {s : Session} {storage : Environment}
    (h : s.storageFor contract = .ok storage) :
    ∃ log, activate contract s =
      (.ok (), { s with storage, active := some (s.active.getD contract), log }) := by
  rw [activate_apply]
  rw [storageFor] at h
  split at h
  next ha =>
    simp only [ha, Option.getD_none]
    exact seedStorage_of_ok h s
  next current ha =>
    split_ifs at h with hname
    cases h
    simp only [ha, Option.getD_some, hname, if_true]
    exact ⟨s.log, by rw [← ha]⟩

/-! ### Arguments -/

theorem misfit?_eq (ps : List Parameter) (vs : List Value) :
    misfit? ps vs = ((ps.zip vs).find? fun (p, v) => !v.fits p.typeName).map
      fun (p, v) => .misfit v.text v.label p.typeName.text p.name := by
  induction ps generalizing vs with
  | nil => rfl
  | cons p ps ih =>
    cases vs with
    | nil => rfl
    | cons v vs =>
      rw [misfit?, ih, List.zip_cons_cons, List.find?_cons]
      by_cases h : v.fits p.typeName = true <;> simp [h]

theorem argumentFault?_eq (function : Function) (arguments : List Value) :
    argumentFault? function arguments = Flat.fault? function arguments := by
  rw [argumentFault?, Flat.fault?, misfit?_eq]

theorem bindArguments_eq (depth : Nat) (env : Environment) (ps : List Parameter)
    (vs : List Value) :
    bindArguments depth env ps vs =
      (ps.zip vs).foldl (fun env (p, v) => env.add ⟨p.asVariable, depth, [v]⟩) env := by
  induction ps generalizing env vs with
  | nil => rfl
  | cons p ps ih =>
    cases vs with
    | nil => rfl
    | cons v vs => exact ih _ vs

theorem forall_mem_bindArguments {P : Binding → Prop} (depth : Nat) {ps : List Parameter}
    {vs : List Value} {env : Environment} (henv : ∀ b ∈ env.bindings, P b)
    (h : ∀ q ∈ ps.zip vs, P ⟨q.1.asVariable, depth, [q.2]⟩) :
    ∀ b ∈ (bindArguments depth env ps vs).bindings, P b := by
  induction ps generalizing env vs with
  | nil => exact henv
  | cons p ps ih =>
    cases vs with
    | nil => exact henv
    | cons v vs =>
      rw [List.zip_cons_cons, List.forall_mem_cons] at h
      exact ih (Environment.forall_mem_add henv h.1) h.2

/-! ### The call -/

/-- The events that a call leaves in the trace: those of the walk, if it completes. -/
def kept : Except RunError (Option Value) → List Event → List Event
  | .ok _, events => events
  | .error _, _ => []

/-- The body of a call leaves its frame on the stack and its events pending. -/
theorem interpret_function_apply {frame : Frame} {rest : List Frame} {s : Session}
    (hs : s.stack.frames = frame :: rest) (function : Function) :
    ∃ result p scope coverage log,
      (callContext s frame).walk (spliceAll function.body.statements) ⟨s.generator, []⟩ =
        (result, p) ∧
      interpret (.function function) { s with trace := s.trace.start } = (result, { s with
        generator := p.generator
        stack := ⟨{ frame with scope } :: rest⟩
        coverage
        trace := ⟨s.trace.committed, some p.events⟩
        log }) := by
  have hin : InCall s frame rest { s with trace := s.trace.start } ⟨s.generator, []⟩ :=
    ⟨frame.scope, s.coverage, s.log, by rw [← hs]; rfl⟩
  obtain ⟨hresult, scope, coverage, log, hend⟩ :=
    (interpret_function_simulates function _ _ hin).exact
  exact ⟨_, _, scope, coverage, log, rfl, Prod.ext hresult hend⟩

/-- A call ends with the result of the walk and takes its frame off again. -/
theorem call_apply {frame : Frame} {rest : List Frame} {s : Session}
    (hs : s.stack.frames = frame :: rest) (contract : Contract) (function : Function) :
    ∃ result p coverage log,
      (callContext s frame).walk (spliceAll function.body.statements) ⟨s.generator, []⟩ =
        (result, p) ∧
      call contract function s = (result, { s with
        generator := p.generator
        stack := ⟨rest⟩
        coverage
        trace := ⟨s.trace.committed ++ kept result p.events, none⟩
        log }) := by
  obtain ⟨result, p, scope, coverage, log, hwalk, hinterpret⟩ :=
    interpret_function_apply hs function
  rw [call]
  simp only [hinterpret]
  cases result with
  | ok value => exact ⟨_, p, coverage, log, hwalk, rfl⟩
  | error e =>
    have hkept : s.trace.committed ++ kept (.error e) p.events = s.trace.committed :=
      List.append_nil _
    refine ⟨.error e, p, coverage, ?log, hwalk, ?final⟩
    case final =>
      rw [hkept]
      rfl

theorem call_of_error {frame : Frame} {rest : List Frame} {s : Session} {e : RunError}
    (hs : s.stack.frames = frame :: rest) (contract : Contract) {function : Function}
    (h : (interpret (.function function) { s with trace := s.trace.start }).1 = .error e) :
    (call contract function s).1 = .error e := by
  obtain ⟨result, p, scope, coverage, log, -, hinterpret⟩ := interpret_function_apply hs function
  rw [hinterpret] at h
  subst h
  rw [call]
  simp only [hinterpret]
  rfl

/-! ### Admission -/

/-- A transaction passes all checks: the call it asks for, and the storage it runs over. -/
structure Admits (s : Session) (t : Transaction) (contract : Contract) (function : Function)
    (storage : Environment) : Prop where
  contract_eq : s.program.source.contract? t.contract = some contract
  function_eq : contract.function? t.function = some function
  arguments_fit : Flat.fault? function t.arguments = none
  storage_eq : s.storageFor contract = .ok storage

/-- The first check that a transaction does not pass. -/
inductive Refuses (s : Session) (t : Transaction) : RunError → Prop
  | contract (h : s.program.source.contract? t.contract = none) :
      Refuses s t (.unknownContract t.contract)
  | function {contract : Contract} (hc : s.program.source.contract? t.contract = some contract)
      (h : contract.function? t.function = none) :
      Refuses s t (.unknownFunction contract.name t.function)
  | arguments {contract : Contract} {function : Function} {fault : ArgumentFault}
      (hc : s.program.source.contract? t.contract = some contract)
      (hf : contract.function? t.function = some function)
      (h : Flat.fault? function t.arguments = some fault) :
      Refuses s t (.argumentMismatch function.name fault)
  | storage {contract : Contract} {function : Function} {e : RunError}
      (hc : s.program.source.contract? t.contract = some contract)
      (hf : contract.function? t.function = some function)
      (ha : Flat.fault? function t.arguments = none)
      (h : s.storageFor contract = .error e) : Refuses s t e

theorem refuses_or_admits (s : Session) (t : Transaction) :
    (∃ e, Refuses s t e) ∨ ∃ contract function storage, Admits s t contract function storage := by
  cases hc : s.program.source.contract? t.contract with
  | none => exact .inl ⟨_, .contract hc⟩
  | some contract =>
    cases hf : contract.function? t.function with
    | none => exact .inl ⟨_, .function hc hf⟩
    | some function =>
      cases ha : Flat.fault? function t.arguments with
      | some fault => exact .inl ⟨_, .arguments hc hf ha⟩
      | none =>
        cases hs : s.storageFor contract with
        | error e => exact .inl ⟨e, .storage hc hf ha hs⟩
        | ok storage => exact .inr ⟨contract, function, storage, hc, hf, ha, hs⟩

/-- Storage is the session's own, unless no contract was active. -/
theorem Admits.storage_cases {s : Session} {t : Transaction} {contract : Contract}
    {function : Function} {storage : Environment} (h : Admits s t contract function storage) :
    storage = s.storage ∧ some (s.active.getD contract) = s.active ∨
      s.active = none ∧ Flat.seed contract.storage = .ok storage := by
  have hs := h.storage_eq
  rw [storageFor] at hs
  split at hs
  next ha => exact .inr ⟨ha, hs⟩
  next current ha =>
    split_ifs at hs
    cases hs
    exact .inl ⟨rfl, by rw [ha, Option.getD_some]⟩

theorem contract_of_some {s : Session} {name : String} {contract : Contract}
    (h : s.program.source.contract? name = some contract) :
    Session.contract name s = (.ok contract, s) := by
  rw [Session.contract, bind_apply, Task.view_apply, h]
  rfl

theorem contract_of_none {s : Session} {name : String}
    (h : s.program.source.contract? name = none) :
    Session.contract name s = (.error (.unknownContract name), s) := by
  rw [Session.contract, bind_apply, Task.view_apply, h]
  rfl

/-- The part of a transaction behind the checks of its arguments. -/
def perform (contract : Contract) (function : Function) (t : Transaction) :
    Action (Option Value) := do
  activate contract
  let depth ← Task.view (·.stack.depth)
  let locals := bindArguments (depth + 1) .locals function.parameters t.arguments
  Task.modify fun s =>
    { s with stack := s.stack.push (.call contract function t.arguments locals) }
  note .debug (← Task.view (·.stack.text))
  call contract function

theorem interpretTransaction_of_function {s : Session} {t : Transaction} {contract : Contract}
    {function : Function} (hc : s.program.source.contract? t.contract = some contract)
    (hf : contract.function? t.function = some function) :
    interpretTransaction t s = match Flat.fault? function t.arguments with
      | some fault => (.error (.argumentMismatch function.name fault), s)
      | none => perform contract function t s := by
  rw [interpretTransaction, bind_of_ok (contract_of_some hc), hf]
  refine (bind_of_ok rfl _).trans ?_
  rw [← argumentFault?_eq]
  cases argumentFault? function t.arguments <;> rfl

/-- A refused transaction leaves the session as it is. -/
theorem interpretTransaction_of_refuses {s : Session} {t : Transaction} {e : RunError}
    (h : Refuses s t e) : ∃ log, interpretTransaction t s = (.error e, { s with log }) := by
  cases h with
  | contract hc =>
    exact ⟨s.log, bind_of_error (contract_of_none hc) _⟩
  | function hc hf =>
    refine ⟨s.log, ?_⟩
    rw [interpretTransaction, bind_of_ok (contract_of_some hc), hf]
    rfl
  | arguments hc hf ha =>
    refine ⟨s.log, ?_⟩
    rw [interpretTransaction_of_function hc hf, ha]
  | storage hc hf ha hs =>
    obtain ⟨log, hlog⟩ := activate_of_error hs
    refine ⟨log, ?_⟩
    rw [interpretTransaction_of_function hc hf, ha]
    exact bind_of_error hlog _

/-- The context that the statements of an admitted transaction see. -/
def contextOf (s : Session) (t : Transaction) (contract : Contract) (function : Function)
    (storage : Environment) : Context :=
  ⟨s.configuration.errorPolicy, contract, Flat.locals function.parameters t.arguments, storage⟩

/-- The session in which the call of an admitted transaction begins: storage is there and the
frame is pushed. -/
def pushed (s : Session) (t : Transaction) (contract : Contract) (function : Function)
    (storage : Environment) : Session :=
  { s with
    storage
    active := some (s.active.getD contract)
    stack := s.stack.push (.call contract function t.arguments
      (bindArguments (s.stack.depth + 1) .locals function.parameters t.arguments)) }

theorem interpretTransaction_of_admits_call {s : Session} {t : Transaction} {contract : Contract}
    {function : Function} {storage : Environment} (h : Admits s t contract function storage) :
    ∃ log, interpretTransaction t s =
      call contract function { pushed s t contract function storage with log } := by
  obtain ⟨log, hactivate⟩ := activate_of_ok h.storage_eq
  rw [interpretTransaction_of_function h.contract_eq h.function_eq, h.arguments_fit]
  exact ⟨_, bind_of_ok hactivate _⟩

/-- An admitted transaction ends as the walk over the flat body says. -/
theorem interpretTransaction_of_admits {s : Session} {t : Transaction} {contract : Contract}
    {function : Function} {storage : Environment} (h : Admits s t contract function storage)
    (hs : s.stack.frames = []) :
    ∃ result p coverage log,
      (contextOf s t contract function storage).walk (spliceAll function.body.statements)
        ⟨s.generator, []⟩ = (result, p) ∧
      interpretTransaction t s = (result, { s with
        generator := p.generator
        storage
        active := some (s.active.getD contract)
        coverage
        trace := ⟨s.trace.committed ++ kept result p.events, none⟩
        log }) := by
  have hlocals : bindArguments (s.stack.depth + 1) .locals function.parameters t.arguments =
      Flat.locals function.parameters t.arguments := by
    rw [bindArguments_eq, CallStack.depth, hs]
    rfl
  obtain ⟨log, hperform⟩ := interpretTransaction_of_admits_call h
  obtain ⟨result, p, coverage, log', hwalk, hcall⟩ :=
    call_apply (s := { pushed s t contract function storage with log }) rfl contract function
  refine ⟨result, p, coverage, log', ?_, hperform.trans hcall⟩
  rw [contextOf, ← hlocals]
  exact hwalk

end Session

end ContractTrace
