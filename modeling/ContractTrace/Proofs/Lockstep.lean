import ContractTrace.Proofs.Transaction

/-! Two sessions in lockstep. The core of a session is what its steps read and write, apart
from generator, coverage and log. Where two sessions have equal cores and go on to be related
when the cores change in the same way, they do the same, up to an excused failure. Only marks
and evaluations, which reach the rest of a session, have to be compared for each relation. -/

namespace ContractTrace.Session

open ContractTrace.Task (Simulates Agree never)

/-! ### Cores -/

structure Core where
  stack : CallStack
  storage : Environment
  active : Option Contract
  trace : Trace
  failed : Bool

def core (s : Session) : Core := ⟨s.stack, s.storage, s.active, s.trace, s.failed⟩

/-- The session with another core and another log. -/
def withCore (s : Session) (core : Core) (log : Log) : Session :=
  { s with
    stack := core.stack
    storage := core.storage
    active := core.active
    trace := core.trace
    failed := core.failed
    log }

/-- Related sessions have equal cores over the same source, and stay related whatever happens
to the cores and the logs, to the coverage by a mark, and to the generator by an evaluation. -/
structure Lockstep (Rel : Session → Session → Prop) (Excused : RunError → Prop) : Prop where
  source_eq : ∀ {s t}, Rel s t → t.program.source = s.program.source
  core_eq : ∀ {s t}, Rel s t → t.core = s.core
  withCore : ∀ {s t}, Rel s t → ∀ core log log', Rel (s.withCore core log) (t.withCore core log')
  mark : ∀ id, Simulates Rel Excused (mark id) (mark id)
  evaluateHere : ∀ e, Simulates Rel Excused (evaluateHere e) (evaluateHere e)

namespace Lockstep

variable {Rel : Session → Session → Prop} {Excused : RunError → Prop} {s t : Session}
  (h : Lockstep Rel Excused)

include h

/-! ### Steps -/

theorem stack_eq (hst : Rel s t) : t.stack = s.stack := congrArg Core.stack (h.core_eq hst)

/-- The same change of both cores. -/
theorem update (hst : Rel s t) (f : Core → Core) (log log' : Log) :
    Rel (s.withCore (f s.core) log) (t.withCore (f t.core) log') := by
  rw [h.core_eq hst]
  exact h.withCore hst _ log log'

theorem modify (f : Core → Core) (log : Session → Log) :
    Simulates Rel Excused
      (Task.modify fun s => s.withCore (f s.core) (log s) : Action Unit)
      (Task.modify fun s => s.withCore (f s.core) (log s)) :=
  .modify fun _ _ hst => h.update hst f _ _

theorem note (level : LogLevel) (text : String) :
    Simulates Rel Excused (note level text) (note level text) :=
  h.modify id fun s => s.log.push ⟨level, text⟩

theorem mapScope (f : Scope → Scope) :
    Simulates Rel Excused
      (Task.modify fun s : Session => { s with stack := s.stack.mapScope f } : Action Unit)
      (Task.modify fun s : Session => { s with stack := s.stack.mapScope f }) :=
  h.modify (fun c => { c with stack := c.stack.mapScope f }) Session.log

theorem record (event : Event) :
    Simulates Rel Excused
      (Task.modify fun s : Session => { s with trace := s.trace.record event } : Action Unit)
      (Task.modify fun s : Session => { s with trace := s.trace.record event }) :=
  h.modify (fun c => { c with trace := c.trace.record event }) Session.log

theorem frame (operation : String) :
    Simulates Rel Excused (frame operation) (frame operation) := by
  intro s t hst
  refine .inl ⟨?_, hst⟩
  simp only [Session.frame, h.stack_eq hst]

/-! ### Statements -/

theorem emitArguments (es : List Expression) (event : Event) (i : Nat) :
    Simulates Rel Excused (emitArguments event i es) (emitArguments event i es) := by
  induction es generalizing event i with
  | nil => exact .pure event
  | cons e es ih =>
    exact (h.note _ _).bind fun _ => (h.evaluateHere e).bind fun v => ih (event.push v) (i + 1)

theorem emit (id : NodeId) (call : Call) :
    Simulates Rel Excused (emit id call) (emit id call) := by
  refine (Simulates.require _ _).bind fun name => (h.frame _).bind fun f => ?_
  have hevent : Simulates Rel Excused _ _ :=
    (h.note .debug ("emit " ++ name)).bind fun _ =>
      (h.emitArguments call.arguments (.named name) 0).bind h.record
  cases f.contract.event? name with
  | none => exact hevent
  | some declared =>
    dsimp only
    split_ifs
    · exact .fail _
    · exact hevent

theorem within {body : Action (Option Value)} (kind : NodeKind) (id : NodeId)
    (hbody : Simulates Rel Excused body body) :
    Simulates Rel Excused (within kind id body) (within kind id body) := by
  refine (h.mark id).bind fun _ => (h.frame _).bind fun _ => ?_
  refine (h.mapScope _).bind fun _ => (h.note _ _).bind fun _ => hbody.bind fun result => ?_
  exact (h.frame _).bind fun _ => (h.mapScope _).bind fun _ => .pure result

theorem returned (expression : Option Expression) :
    Simulates Rel Excused (returned expression) (returned expression) := by
  cases expression with
  | none => exact .pure Value.unit
  | some e => exact h.evaluateHere e

omit h

mutual

theorem interpretStatement (h : Lockstep Rel Excused) : ∀ s : Statement,
    Simulates Rel Excused (interpretStatement s) (interpretStatement s)
  | .block id statements => by
    rw [Session.interpretStatement]
    exact h.within _ id (interpretStatements h statements)
  | .emit id call => by
    rw [Session.interpretStatement]
    exact h.within _ id ((h.emit id call).bind fun _ => .pure none)
  | .ret id expression => by
    rw [Session.interpretStatement]
    exact h.within _ id ((h.returned expression).bind fun v => .pure (some v))
  | .effect .. | .declaration .. | .conditional .. | .whileLoop .. | .doWhileLoop ..
  | .forLoop .. | .breakLoop .. | .continueLoop .. | .placeholder .. | .revert .. => by
    simp only [Session.interpretStatement]
    exact h.within _ _ (.fail _)

theorem interpretStatements (h : Lockstep Rel Excused) : ∀ ss : List Statement,
    Simulates Rel Excused (interpretStatements ss) (interpretStatements ss)
  | [] => by
    rw [Session.interpretStatements]
    exact .pure none
  | s :: ss => by
    rw [Session.interpretStatements]
    refine (interpretStatement h s).bind fun result => ?_
    cases result with
    | some v => exact .pure (some v)
    | none => exact interpretStatements h ss

end

include h

/-! ### Transactions -/

theorem call (hst : Rel s t) {frame : Frame} {rest : List Frame}
    (hs : s.stack.frames = frame :: rest) (contract : Contract) (function : Function) :
    Agree Rel Excused (call contract function s) (call contract function t) := by
  have hbody : Simulates Rel Excused (interpret (.function function))
      (interpret (.function function)) :=
    h.within _ _ ((h.mark _).bind fun _ => h.interpretStatements _)
  have hstarted : Rel { s with trace := s.trace.start } { t with trace := t.trace.start } :=
    h.update hst (fun c => { c with trace := c.trace.start }) s.log t.log
  rcases hbody _ _ hstarted with ⟨hresult, hend⟩ | ⟨e, he, hexcused⟩
  · rcases hs' : interpret (.function function) { s with trace := s.trace.start }
      with ⟨result, s'⟩
    rcases ht' : interpret (.function function) { t with trace := t.trace.start }
      with ⟨result', t'⟩
    simp only [hs', ht'] at hresult hend
    subst hresult
    -- both have the same frames, so both take the same one off
    simp only [Session.call, hs', ht', h.stack_eq hend]
    cases s'.stack.pop "interpret_transaction" with
    | error e => exact .inl ⟨rfl, hend⟩
    | ok popped =>
      cases result with
      | ok value =>
        exact .inl ⟨rfl, h.update hend
          (fun c => { c with stack := popped.2, trace := c.trace.commit }) s'.log t'.log⟩
      | error e =>
        exact .inl ⟨rfl, h.update hend
          (fun c => { c with stack := popped.2, trace := c.trace.rollback.2 }) _ _⟩
  · exact .inr ⟨e, call_of_error hs contract he, hexcused⟩

theorem storageFor (hst : Rel s t) (contract : Contract) :
    t.storageFor contract = s.storageFor contract := by
  have hstorage : t.storage = s.storage := congrArg Core.storage (h.core_eq hst)
  have hactive : t.active = s.active := congrArg Core.active (h.core_eq hst)
  rw [Session.storageFor, Session.storageFor, hstorage, hactive]

theorem refuses (hst : Rel s t) {tx : Transaction} {e : RunError} (hs : Refuses s tx e) :
    Refuses t tx e := by
  have hsource := h.source_eq hst
  cases hs with
  | contract hc => exact .contract (by rw [hsource, hc])
  | function hc hf => exact .function (by rw [hsource, hc]) hf
  | arguments hc hf ha => exact .arguments (by rw [hsource, hc]) hf ha
  | storage hc hf ha hs =>
    exact .storage (by rw [hsource, hc]) hf ha (by rw [h.storageFor hst, hs])

theorem admits (hst : Rel s t) {tx : Transaction} {contract : Contract} {function : Function}
    {storage : Environment} (hs : Admits s tx contract function storage) :
    Admits t tx contract function storage :=
  ⟨by rw [h.source_eq hst, hs.contract_eq], hs.function_eq, hs.arguments_fit,
    by rw [h.storageFor hst, hs.storage_eq]⟩

theorem interpretTransaction (tx : Transaction) :
    Simulates Rel Excused (interpretTransaction tx) (interpretTransaction tx) := by
  intro s t hst
  rcases refuses_or_admits s tx with ⟨e, hs⟩ | ⟨contract, function, storage, hs⟩
  · obtain ⟨log, hs'⟩ := interpretTransaction_of_refuses hs
    obtain ⟨log', ht'⟩ := interpretTransaction_of_refuses (h.refuses hst hs)
    rw [hs', ht']
    exact .inl ⟨rfl, h.update hst id log log'⟩
  · obtain ⟨log, hs'⟩ := interpretTransaction_of_admits_call hs
    obtain ⟨log', ht'⟩ := interpretTransaction_of_admits_call (h.admits hst hs)
    -- the frame that is pushed depends on nothing but the core
    have hpushed : Rel { pushed s tx contract function storage with log }
        { pushed t tx contract function storage with log := log' } :=
      h.update hst (fun c => { c with
        storage
        active := some (c.active.getD contract)
        stack := c.stack.push (.call contract function tx.arguments
          (bindArguments (c.stack.depth + 1) .locals function.parameters tx.arguments)) }) log log'
    rw [hs', ht']
    exact h.call hpushed rfl contract function

theorem interpretTransactions (ts : List Transaction) (i : Nat) :
    Simulates Rel Excused (interpretTransactions i ts) (interpretTransactions i ts) := by
  induction ts generalizing i with
  | nil => exact .pure ()
  | cons t ts ih =>
    exact (h.interpretTransaction t).bind fun _ => (h.note _ _).bind fun _ => ih (i + 1)

/-! ### Runs -/

theorem contract (name : String) : Simulates Rel Excused (contract name) (contract name) := by
  refine (Simulates.view fun s t hst => ?_).bind fun found => .require _ found
  rw [h.source_eq hst]

theorem seedStorage (contract : Contract) :
    Simulates Rel Excused (seedStorage contract) (seedStorage contract) := by
  intro s t hst
  cases hseed : Flat.seed contract.storage with
  | error e =>
    obtain ⟨log, hs'⟩ := seedStorage_of_error hseed s
    obtain ⟨log', ht'⟩ := seedStorage_of_error hseed t
    rw [hs', ht']
    exact .inl ⟨rfl, h.update hst id log log'⟩
  | ok storage =>
    obtain ⟨log, hs'⟩ := seedStorage_of_ok hseed s
    obtain ⟨log', ht'⟩ := seedStorage_of_ok hseed t
    rw [hs', ht']
    exact .inl ⟨rfl, h.update hst (fun c => { c with storage, active := some contract }) log log'⟩

theorem runTransactions (ts : List Transaction) :
    Simulates Rel Excused (runTransactions ts) (runTransactions ts) := by
  cases ts with
  | nil => exact .fail _
  | cons first ts =>
    simp only [Session.runTransactions]
    split
    · exact .fail _
    · exact (h.contract _).bind fun c => (h.seedStorage c).bind fun _ =>
        h.interpretTransactions _ 0

end Lockstep

/-! ### Sessions side by side -/

/-- Sessions over the same source and under the same policy, with equal cores and generators,
whose coverages are related. -/
structure Beside (C : Coverage → Coverage → Prop) (s t : Session) : Prop where
  source_eq : t.program.source = s.program.source
  policy_eq : t.configuration.errorPolicy = s.configuration.errorPolicy
  core_eq : t.core = s.core
  generator_eq : t.generator = s.generator
  coverage : C s.coverage t.coverage

variable {C : Coverage → Coverage → Prop}

theorem evaluateHere_beside (e : Expression) :
    Simulates (Beside C) never (evaluateHere e) (evaluateHere e) := by
  intro s t hst
  have hframe : t.stack.current "evaluate" = s.stack.current "evaluate" :=
    congrArg (fun c => c.stack.current "evaluate") hst.core_eq
  have hstorage : t.storage = s.storage := congrArg Core.storage hst.core_eq
  rw [evaluateHere_apply, evaluateHere_apply, hframe]
  cases s.stack.current "evaluate" with
  | error fault => exact .inl ⟨rfl, hst⟩
  | ok frame =>
    have hsame : evaluate t.configuration.errorPolicy (.layered frame.locals t.storage) e
        ⟨t.generator, t.log⟩ = evaluate s.configuration.errorPolicy
        (.layered frame.locals s.storage) e ⟨s.generator, t.log⟩ := by
      rw [hst.policy_eq, hstorage, hst.generator_eq]
    have h := (Evaluation.evaluate_logFree s.configuration.errorPolicy
      (.layered frame.locals s.storage) e ⟨s.generator, s.log⟩ ⟨s.generator, t.log⟩ rfl).exact
    simp only [hsame]
    exact .inl ⟨congrArg (Except.mapError _) h.1,
      hst.source_eq, hst.policy_eq, hst.core_eq, h.2.symm, hst.coverage⟩

/-- Such sessions go in lockstep if marks keep their coverages related. -/
theorem beside_lockstep
    (hmark : ∀ {a b : Coverage}, C a b → ∀ id, C (a.mark id).2 (b.mark id).2) :
    Lockstep (Beside C) never where
  source_eq := Beside.source_eq
  core_eq := Beside.core_eq
  withCore hst _ _ _ :=
    ⟨hst.source_eq, hst.policy_eq, rfl, hst.generator_eq, hst.coverage⟩
  mark id := .modify fun _ _ hst =>
    ⟨hst.source_eq, hst.policy_eq, hst.core_eq, hst.generator_eq, hmark hst.coverage id⟩
  evaluateHere := evaluateHere_beside

end ContractTrace.Session
