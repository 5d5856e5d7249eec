import ContractTrace.Proofs.Run
import ContractTrace.Proofs.RoundTrip

/-! Integers stay in range. A session over a well-formed program keeps all values in range
that it holds: those of the committed and the pending events, of storage, and of the locals
of every call in progress. What transactions return is in range too. -/

namespace ContractTrace

/-! ### Environments -/

theorem Value.inRange_of_fits {v : Value} {t : TypeName} (hv : v.fits t = true)
    (ht : t.Canonical) : v.InRange := by
  unfold Value.fits at hv
  split at hv
  next v own ty =>
    rw [Bool.and_eq_true, decide_eq_true_eq] at hv
    obtain ⟨rfl, hcontains⟩ := hv
    exact ⟨ht.valid, hcontains⟩
  · trivial
  · cases hv

namespace Environment

/-- All values that the variables have and had are in range. -/
def InRange (env : Environment) : Prop := ∀ b ∈ env.bindings, ∀ v ∈ b.values, v.InRange

end Environment

theorem View.inRange_layered {locals storage : Environment} (hl : locals.InRange)
    (hs : storage.InRange) : (View.layered locals storage).InRange := by
  intro name declaration b v hb hv
  have hmem : v ∈ b.values := List.mem_of_getLast? hv
  rcases View.mem_bindings_of_lookup hb with hb | hb
  · exact hl b hb v hmem
  · exact hs b hb v hmem

def Event.InRange (e : Event) : Prop := ∀ a ∈ e.arguments, a.2.InRange

theorem Event.InRange.push {e : Event} (h : e.InRange) {v : Value} (hv : v.InRange) :
    (e.push v).InRange := by
  intro a ha
  rcases List.mem_append.1 ha with ha | ha
  · exact h a ha
  · rw [List.mem_singleton.1 ha]
    exact hv

theorem Event.inRange_named (name : String) : (Event.named name).InRange := by
  intro a ha
  cases ha

namespace Trace

/-- All arguments of committed and pending events are in range. -/
structure InRange (t : Trace) : Prop where
  committed : ∀ e ∈ t.committed, e.InRange
  pending : ∀ e ∈ t.pending.getD [], e.InRange

variable {t : Trace}

theorem inRange_empty : Trace.empty.InRange :=
  ⟨nofun, nofun⟩

theorem InRange.start (h : t.InRange) : t.start.InRange :=
  ⟨h.committed, nofun⟩

theorem InRange.record (h : t.InRange) {event : Event} (he : event.InRange) :
    (t.record event).InRange := by
  have hevent : ∀ e ∈ [event], e.InRange := List.forall_mem_singleton.2 he
  obtain ⟨committed, _ | events⟩ := t
  · exact ⟨List.forall_mem_append.2 ⟨h.committed, hevent⟩, h.pending⟩
  · exact ⟨h.committed, List.forall_mem_append.2 ⟨h.pending, hevent⟩⟩

theorem InRange.commit (h : t.InRange) : t.commit.InRange :=
  ⟨List.forall_mem_append.2 ⟨h.committed, h.pending⟩, nofun⟩

theorem InRange.rollback (h : t.InRange) : t.rollback.2.InRange :=
  ⟨h.committed, nofun⟩

end Trace

/-! ### Nodes -/

namespace Node

def WellFormed : Node → Prop
  | .function f => ∀ s ∈ f.body.statements, s.WellFormed
  | .block b => ∀ s ∈ b.statements, s.WellFormed
  | .statement s => s.WellFormed

theorem wellFormed_ofStatement {s : Statement} (h : s.WellFormed) :
    (ofStatement s).WellFormed := by
  cases s with
  | block id statements => exact (Statement.allWellFormed_iff statements).1 h
  | _ => exact h

theorem wellFormed_of_mem_below {s : Statement} (h : s.WellFormed) :
    ∀ t ∈ below s, t.WellFormed := by
  cases s with
  | block id statements => exact (Statement.allWellFormed_iff statements).1 h
  | conditional id condition whenTrue whenFalse =>
    rw [Statement.WellFormed, Statement.optionWellFormed_iff] at h
    simpa [below] using h.2
  | whileLoop id condition body => exact List.forall_mem_singleton.2 h.2
  | doWhileLoop id condition body => exact List.forall_mem_singleton.2 h.2
  | forLoop id initial condition advance body =>
    rw [Statement.WellFormed, Statement.optionWellFormed_iff, Statement.optionWellFormed_iff] at h
    obtain ⟨hinitial, -, hadvance, hbody⟩ := h
    simp only [below, List.forall_mem_append, List.forall_mem_singleton, Option.mem_toList]
    exact ⟨⟨hinitial, hadvance⟩, hbody⟩
  | _ =>
    intro t ht
    cases ht

theorem WellFormed.of_mem_children {n child : Node} (h : n.WellFormed)
    (hchild : child ∈ n.children) : child.WellFormed := by
  cases n with
  | function f =>
    rw [List.mem_singleton.1 hchild]
    exact h
  | block b =>
    obtain ⟨t, ht, rfl⟩ := List.mem_map.1 hchild
    exact wellFormed_ofStatement (h t ht)
  | statement s =>
    obtain ⟨t, ht, rfl⟩ := List.mem_map.1 hchild
    exact wellFormed_ofStatement (wellFormed_of_mem_below h t ht)

theorem WellFormed.of_mem_walk {n m : Node} (h : n.WellFormed) (hm : m ∈ n.walk) :
    m.WellFormed := by
  rw [walk] at hm
  rcases List.mem_cons.1 hm with rfl | hm
  · exact h
  · obtain ⟨⟨child, hchild⟩, -, hm⟩ := List.mem_flatMap.1 hm
    exact (h.of_mem_children hchild).of_mem_walk hm
termination_by n.size
decreasing_by exact size_lt_of_mem_children hchild

end Node

/-- The node stands in a function of the program. -/
def Program.HasNode (program : Program) (n : Node) : Prop :=
  ∃ c ∈ program.source.contracts, ∃ f ∈ c.functions, n ∈ (Node.function f).walk

theorem Program.WellFormed.node {program : Program} (h : program.WellFormed) {n : Node}
    (hn : program.HasNode n) : n.WellFormed := by
  obtain ⟨c, hc, f, hf, hn⟩ := hn
  have hbody : (Node.function f).WellFormed := ((h.contracts c hc).functions f hf).body
  exact hbody.of_mem_walk hn

/-! ### Sessions -/

namespace Session

open ContractTrace.Task (Maintains bind_apply)

/-- All values in the trace, in storage and in the calls in progress are in range. -/
structure InRange (s : Session) : Prop where
  trace : s.trace.InRange
  storage : s.storage.InRange
  locals : ∀ f ∈ s.stack.frames, f.locals.InRange

/-- A session over the given program that holds only values in range. -/
structure Sound (program : Program) (s : Session) : Prop where
  program_eq : s.program = program
  inRange : s.InRange

/-- The optional value is in range. -/
def ResultInRange (result : Option Value) : Prop := ∀ v ∈ result, v.InRange

variable {program : Program} {s : Session}

theorem start_sound (program : Program) (configuration : Configuration) :
    (start program configuration).Sound program where
  program_eq := rfl
  inRange :=
    { trace := Trace.inRange_empty
      storage := nofun
      locals := nofun }

/-- Generator, scopes, coverage and log hold no values. -/
theorem Sound.mapScope (h : s.Sound program) (f : Scope → Scope) (generator : Generator)
    (coverage : Coverage) (log : Log) :
    ({ s with generator, stack := s.stack.mapScope f, coverage, log } : Session).Sound
      program := by
  refine ⟨h.program_eq, h.inRange.trace, h.inRange.storage, ?_⟩
  have hl := h.inRange.locals
  show ∀ frame ∈ (s.stack.mapScope f).frames, frame.locals.InRange
  rw [CallStack.mapScope]
  cases hs : s.stack.frames with
  | nil => simp [hs]
  | cons frame rest =>
    rw [hs, List.forall_mem_cons] at hl
    exact List.forall_mem_cons.2 hl

theorem mapScope_id (stack : CallStack) : stack.mapScope id = stack := by
  obtain ⟨_ | _⟩ := stack <;> rfl

theorem Sound.of_values (h : s.Sound program) (generator : Generator) (coverage : Coverage)
    (log : Log) : ({ s with generator, coverage, log } : Session).Sound program := by
  have hsame := h.mapScope id generator coverage log
  rwa [mapScope_id] at hsame

theorem note_sound (level : LogLevel) (text : String) :
    Maintains (Sound program) (fun _ => True) (note level text) :=
  .modify fun _ h => h.of_values _ _ _

theorem mark_sound (id : NodeId) :
    Maintains (Sound program) (fun _ => True) (mark id) :=
  .modify fun _ h => h.of_values _ _ _

theorem modifyScope_sound (f : Scope → Scope) :
    Maintains (Sound program) (fun _ => True)
      (Task.modify fun s : Session => { s with stack := s.stack.mapScope f } : Action Unit) :=
  .modify fun _ h => h.mapScope f _ _ _

theorem frame_sound (operation : String) :
    Maintains (Sound program) (fun f => f.locals.InRange) (frame operation) := by
  intro s h
  refine ⟨h, fun f hf => ?_⟩
  simp only [frame, CallStack.current] at hf
  split at hf
  next frame rest hs =>
    cases hf
    exact h.inRange.locals f (by rw [hs]; exact List.mem_cons_self)
  · cases hf

/-! ### Statements -/

theorem evaluateHere_sound {e : Expression} (he : e.LiteralsInRange) :
    Maintains (Sound program) Value.InRange (evaluateHere e) := by
  intro s h
  rw [evaluateHere_apply]
  cases hf : s.stack.current "evaluate" with
  | error fault => exact ⟨h, nofun⟩
  | ok frame =>
    have hlocals : frame.locals.InRange := (frame_sound "evaluate" s h).2 frame hf
    have hvalue := Evaluation.evaluate_inRange s.configuration.errorPolicy
      (View.inRange_layered hlocals h.inRange.storage) he ⟨s.generator, s.log⟩
    refine ⟨h.of_values _ _ _, fun v hv => ?_⟩
    dsimp only at hv
    rcases hr : evaluate s.configuration.errorPolicy (.layered frame.locals s.storage) e
      ⟨s.generator, s.log⟩ with ⟨_ | w, state⟩ <;> rw [hr] at hv hvalue <;> cases hv
    exact hvalue v rfl

theorem returned_sound {expression : Option Expression}
    (h : ∀ e ∈ expression, e.LiteralsInRange) :
    Maintains (Sound program) Value.InRange (returned expression) := by
  cases expression with
  | none => exact .pure trivial
  | some e => exact evaluateHere_sound (h e rfl)

theorem emitArguments_sound {es : List Expression} (hes : ∀ e ∈ es, e.LiteralsInRange)
    {event : Event} (hevent : event.InRange) (i : Nat) :
    Maintains (Sound program) Event.InRange (emitArguments event i es) := by
  induction es generalizing event i with
  | nil => exact .pure hevent
  | cons e es ih =>
    rw [List.forall_mem_cons] at hes
    exact (note_sound _ _).bind fun _ _ => (evaluateHere_sound hes.1).bind fun v hv =>
      ih hes.2 (hevent.push hv) (i + 1)

theorem Sound.setTrace (h : s.Sound program) {trace : Trace} (ht : trace.InRange) :
    ({ s with trace } : Session).Sound program :=
  ⟨h.program_eq, ht, h.inRange.storage, h.inRange.locals⟩

theorem emit_sound (id : NodeId) {call : Call} (hcall : call.WellFormed) :
    Maintains (Sound program) (fun _ => True) (emit id call) := by
  have hevents : ∀ name, Maintains (Sound program) (fun _ => True) (do
      note .debug ("emit " ++ name)
      let event ← emitArguments (.named name) 0 call.arguments
      Task.modify fun s : Session => { s with trace := s.trace.record event }) := fun name =>
    (note_sound _ _).bind fun _ _ =>
      (emitArguments_sound hcall.arguments (Event.inRange_named name) 0).bind fun _ he =>
        .modify fun _ h => h.setTrace (h.inRange.trace.record he)
  refine Maintains.bind (Q := fun _ => True) (.require _ fun _ _ => trivial) fun name _ => ?_
  refine (frame_sound _).bind fun frame _ => ?_
  split
  · exact hevents name
  · split_ifs
    · exact .fail _
    · exact hevents name

theorem within_sound (kind : NodeKind) (id : NodeId) {body : Action (Option Value)}
    (h : Maintains (Sound program) ResultInRange body) :
    Maintains (Sound program) ResultInRange (within kind id body) := by
  refine (mark_sound id).bind fun _ _ => ?_
  refine (frame_sound _).bind fun _ _ => ?_
  refine (modifyScope_sound _).bind fun _ _ => ?_
  refine (note_sound _ _).bind fun _ _ => ?_
  refine h.bind fun result hresult => ?_
  refine (frame_sound _).bind fun _ _ => ?_
  refine (modifyScope_sound _).bind fun _ _ => ?_
  exact .pure hresult

mutual

theorem interpretStatement_sound : ∀ {t : Statement}, t.WellFormed →
    Maintains (Sound program) ResultInRange (interpretStatement t)
  | .block id statements, h => by
    rw [interpretStatement]
    exact within_sound _ id (interpretStatements_sound h)
  | .emit id call, h => by
    rw [interpretStatement]
    exact within_sound _ id ((emit_sound id h).bind fun _ _ => .pure nofun)
  | .ret id expression, h => by
    rw [interpretStatement]
    refine within_sound _ id ((returned_sound h).bind fun v hv => .pure fun w hw => ?_)
    cases hw
    exact hv
  | .effect .., _ | .declaration .., _ | .conditional .., _ | .whileLoop .., _
  | .doWhileLoop .., _ | .forLoop .., _ | .breakLoop .., _ | .continueLoop .., _
  | .placeholder .., _ | .revert .., _ => by
    rw [interpretStatement]
    · exact within_sound _ _ (.fail _)
    all_goals exact fun _ _ => Statement.noConfusion

theorem interpretStatements_sound : ∀ {ts : List Statement}, Statement.AllWellFormed ts →
    Maintains (Sound program) ResultInRange (interpretStatements ts)
  | [], _ => by
    rw [interpretStatements]
    exact .pure nofun
  | t :: ts, h => by
    rw [interpretStatements]
    refine (interpretStatement_sound h.1).bind fun result hresult => ?_
    cases result with
    | some v => exact .pure hresult
    | none => exact interpretStatements_sound h.2

end

theorem interpret_sound {n : Node} (hn : n.WellFormed) :
    Maintains (Sound program) ResultInRange (interpret n) := by
  cases n with
  | function f =>
    exact within_sound _ _ ((mark_sound _).bind fun _ _ =>
      interpretStatements_sound ((Statement.allWellFormed_iff _).2 hn))
  | block b =>
    exact within_sound _ _ (interpretStatements_sound ((Statement.allWellFormed_iff _).2 hn))
  | statement t => exact interpretStatement_sound hn

/-! ### Storage and arguments -/

theorem initialBinding_inRange {v : StorageVariable} (hv : v.WellFormed) {value : Value}
    {b : Binding} (h : initialBinding v = .ok (value, b)) : ∀ w ∈ b.values, w.InRange := by
  unfold initialBinding at h
  split at h
  · cases h
  · split_ifs at h with hfits
    cases h
    exact List.forall_mem_singleton.2 (Value.inRange_of_fits hfits hv.typeName)

theorem seed_inRange {contract : Contract} (hc : contract.WellFormed) {storage : Environment}
    (h : Flat.seed contract.storage = .ok storage) : storage.InRange :=
  forall_mem_seed (fun v hv _ _ hb => initialBinding_inRange (hc.storage v hv) hb) h

theorem seedStorage_sound {contract : Contract} (hc : contract.WellFormed) :
    Maintains (Sound program) (fun _ => True) (seedStorage contract) := by
  intro s h
  cases hseed : Flat.seed contract.storage with
  | error e =>
    obtain ⟨log, hr⟩ := seedStorage_of_error hseed s
    rw [hr]
    exact ⟨h.of_values _ _ log, fun _ _ => trivial⟩
  | ok storage =>
    obtain ⟨log, hr⟩ := seedStorage_of_ok hseed s
    rw [hr]
    exact ⟨⟨h.program_eq, h.inRange.trace, seed_inRange hc hseed, h.inRange.locals⟩,
      fun _ _ => trivial⟩

theorem fits_of_fault?_eq_none {function : Function} {arguments : List Value}
    (h : Flat.fault? function arguments = none) :
    ∀ q ∈ function.parameters.zip arguments, q.2.fits q.1.typeName = true := by
  intro q hq
  rw [Flat.fault?] at h
  split_ifs at h
  rw [Option.map_eq_none_iff, List.find?_eq_none] at h
  simpa using h q hq

theorem bindArguments_inRange (depth : Nat) {function : Function} (hf : function.WellFormed)
    {arguments : List Value} (h : Flat.fault? function arguments = none) :
    (bindArguments depth .locals function.parameters arguments).InRange := by
  refine forall_mem_bindArguments depth (fun _ hb => by cases hb) fun q hq => ?_
  have hfits := fits_of_fault?_eq_none h q hq
  have htype := hf.parameters q.1 (List.of_mem_zip hq).1
  exact List.forall_mem_singleton.2 (Value.inRange_of_fits hfits htype)

/-! ### Transactions -/

theorem call_sound (contract : Contract) {function : Function} (hf : function.WellFormed) :
    Maintains (Sound program) ResultInRange (call contract function) := by
  intro s h
  have hnode : (Node.function function).WellFormed := hf.body
  obtain ⟨hstate, hresult⟩ := interpret_sound hnode _ (h.setTrace h.inRange.trace.start)
  simp only [call]
  rcases hr : interpret (.function function) { s with trace := s.trace.start } with ⟨result, s'⟩
  rw [hr] at hstate hresult
  -- whether a frame is left to pop does not matter here
  cases hs : s'.stack.frames with
  | nil =>
    simp only [CallStack.pop, hs]
    refine ⟨hstate, fun v hv => ?_⟩
    cases hv
  | cons frame rest =>
    have hrest : ∀ f ∈ rest, f.locals.InRange := by
      have hl := hstate.inRange.locals
      rw [hs, List.forall_mem_cons] at hl
      exact hl.2
    simp only [CallStack.pop, hs]
    cases result with
    | ok value =>
      exact ⟨⟨hstate.program_eq, hstate.inRange.trace.commit, hstate.inRange.storage, hrest⟩,
        hresult⟩
    | error e =>
      refine ⟨⟨hstate.program_eq, hstate.inRange.trace.rollback, hstate.inRange.storage, hrest⟩,
        fun v hv => ?_⟩
      cases hv

theorem contract_mem {unit : SourceUnit} {name : String} {contract : Contract}
    (h : unit.contract? name = some contract) : contract ∈ unit.contracts :=
  List.mem_of_find?_eq_some h

theorem storageFor_inRange (h : s.InRange) {contract : Contract} (hc : contract.WellFormed)
    {storage : Environment} (hs : s.storageFor contract = .ok storage) : storage.InRange := by
  rw [storageFor] at hs
  split at hs
  · exact seed_inRange hc hs
  · split_ifs at hs
    cases hs
    exact h.storage

/-- The call of an admitted transaction starts with locals in range. -/
theorem Admits.pushed_sound (hp : program.WellFormed) (h : s.Sound program) {t : Transaction}
    {contract : Contract} {function : Function} {storage : Environment}
    (ha : Admits s t contract function storage) :
    (pushed s t contract function storage).Sound program ∧ function.WellFormed := by
  have hc : contract.WellFormed := by
    have heq := ha.contract_eq
    rw [h.program_eq] at heq
    exact hp.contracts contract (contract_mem heq)
  have hf : function.WellFormed :=
    hc.functions function (List.mem_of_find?_eq_some ha.function_eq)
  -- nothing is known of the arguments but that they fit the parameters, and that is enough
  have hlocals : (bindArguments (s.stack.depth + 1) .locals function.parameters
      t.arguments).InRange :=
    bindArguments_inRange _ hf ha.arguments_fit
  refine ⟨⟨h.program_eq, h.inRange.trace, storageFor_inRange h.inRange hc ha.storage_eq, ?_⟩, hf⟩
  exact List.forall_mem_cons.2 ⟨hlocals, h.inRange.locals⟩

theorem interpretTransaction_sound (hp : program.WellFormed) (t : Transaction) :
    Maintains (Sound program) ResultInRange (interpretTransaction t) := by
  intro s h
  rcases refuses_or_admits s t with ⟨e, hr⟩ | ⟨contract, function, storage, ha⟩
  · obtain ⟨log, hr⟩ := interpretTransaction_of_refuses hr
    rw [hr]
    exact ⟨h.of_values _ _ _, nofun⟩
  · obtain ⟨hpushed, hf⟩ := ha.pushed_sound hp h
    obtain ⟨log, hr⟩ := interpretTransaction_of_admits_call ha
    rw [hr]
    exact call_sound contract hf _ (hpushed.of_values _ _ log)

theorem interpretTransactions_sound (hp : program.WellFormed) (ts : List Transaction) (i : Nat) :
    Maintains (Sound program) (fun _ => True) (interpretTransactions i ts) := by
  induction ts generalizing i with
  | nil => exact .pure trivial
  | cons t ts ih =>
    exact (interpretTransaction_sound hp t).bind fun _ _ =>
      (note_sound _ _).bind fun _ _ => ih (i + 1)

theorem contract_sound (hp : program.WellFormed) (name : String) :
    Maintains (Sound program) Contract.WellFormed (contract name) := by
  intro s h
  cases hc : s.program.source.contract? name with
  | none =>
    rw [contract_of_none hc]
    exact ⟨h, nofun⟩
  | some c =>
    rw [contract_of_some hc]
    refine ⟨h, fun c' hc' => ?_⟩
    cases hc'
    rw [h.program_eq] at hc
    exact hp.contracts c (contract_mem hc)

theorem runTransactions_sound (hp : program.WellFormed) (ts : List Transaction) :
    Maintains (Sound program) (fun _ => True) (runTransactions ts) := by
  cases ts with
  | nil => exact .fail _
  | cons first ts =>
    simp only [runTransactions]
    split
    · exact .fail _
    · exact (contract_sound hp _).bind fun c hc =>
        (seedStorage_sound hc).bind fun _ _ => interpretTransactions_sound hp _ 0

theorem Sound.cleared (h : s.Sound program) : s.cleared.Sound program :=
  ⟨h.program_eq, Trace.inRange_empty, h.inRange.storage, h.inRange.locals⟩

theorem run_sound (hp : program.WellFormed) : Maintains (Sound program) (fun _ => True) run := by
  intro s h
  refine ⟨?_, fun _ _ => trivial⟩
  have hruns := (runTransactions_sound hp s.program.transactions s.cleared h.cleared).1
  rcases hr : runTransactions s.program.transactions s.cleared with ⟨e | _, s'⟩ <;>
    rw [hr] at hruns
  · obtain ⟨log, hrun⟩ := run_of_error hr
    rw [hrun]
    exact ⟨hruns.program_eq, Trace.inRange_empty, hruns.inRange.storage, hruns.inRange.locals⟩
  · obtain ⟨log, hrun⟩ := run_of_ok hr
    rw [hrun]
    exact hruns.of_values _ _ log

/-! ### All moments -/

/-- The sessions that runs and transactions lead to, and those in between: a run clears the
trace and seeds storage, a transaction that is admitted pushes its frame and opens the trace,
and within the call nodes are interpreted, while generator, scope, coverage and log go on. -/
inductive Visited (program : Program) (configuration : Configuration) : Session → Prop
  | start : Visited program configuration (start program configuration)
  | run {s : Session} (h : Visited program configuration s) :
      Visited program configuration (Session.run s).2
  | transaction {s : Session} (h : Visited program configuration s) (t : Transaction) :
      Visited program configuration (interpretTransaction t s).2
  | cleared {s : Session} (h : Visited program configuration s) :
      Visited program configuration s.cleared
  | seeded {s : Session} (h : Visited program configuration s) {contract : Contract}
      (hc : contract ∈ program.source.contracts) :
      Visited program configuration (seedStorage contract s).2
  | called {s : Session} (h : Visited program configuration s) {t : Transaction}
      {contract : Contract} {function : Function} {storage : Environment}
      (ha : Admits s t contract function storage) :
      Visited program configuration
        { pushed s t contract function storage with trace := s.trace.start }
  | moved {s : Session} (h : Visited program configuration s) (f : Scope → Scope)
      (generator : Generator) (coverage : Coverage) (log : Log) :
      Visited program configuration
        { s with generator, stack := s.stack.mapScope f, coverage, log }
  | interpreted {s : Session} (h : Visited program configuration s) {n : Node}
      (hn : program.HasNode n) : Visited program configuration (interpret n s).2

theorem Visited.sound (hp : program.WellFormed) {configuration : Configuration}
    (h : Visited program configuration s) : s.Sound program := by
  induction h with
  | start => exact start_sound program configuration
  | run _ ih => exact (run_sound hp _ ih).1
  | transaction _ t ih => exact (interpretTransaction_sound hp t _ ih).1
  | cleared _ ih => exact ih.cleared
  | seeded _ hc ih => exact (seedStorage_sound (hp.contracts _ hc) _ ih).1
  | called _ ha ih => exact (ha.pushed_sound hp ih).1.setTrace ih.inRange.trace.start
  | moved _ f generator coverage log ih => exact ih.mapScope f generator coverage log
  | interpreted _ hn ih => exact (interpret_sound (hp.node hn) _ ih).1

/-- Whatever text a program is read from, and whatever runs and transactions follow, the
integers in the trace, in storage, in the locals of calls and in returned values have valid
types and lie in their ranges. -/
theorem visited_inRange {text : String} (h : Program.ofText text = .ok program)
    {configuration : Configuration} (hs : Visited program configuration s) :
    s.InRange ∧ ∀ t v, (interpretTransaction t s).1 = .ok (some v) → v.InRange := by
  have hp := Program.wellFormed_of_ofText h
  have hsound := hs.sound hp
  exact ⟨hsound.inRange, fun t v hv => (interpretTransaction_sound hp t s hsound).2 _ hv v rfl⟩

/-- A function that emits a tuple of a storage variable and its argument. -/
def pairUp : Function :=
  let x : Expression := .identifier 10 "x" none
  let y : Expression := .identifier 11 "y" none
  ⟨3, "f", [⟨4, "y", .integer ⟨true, 16⟩⟩],
    ⟨5, [.emit 6 ⟨7, .identifier 8 "E" none, [.tuple 9 [x, y]]⟩, .ret 12 (some x)]⟩⟩

def pairing : Contract :=
  ⟨1, "C", [⟨2, "x", .integer ⟨false, 8⟩, some (.integer 200 ⟨false, 8⟩)⟩], [], [pairUp]⟩

theorem pairing_wellFormed : pairing.WellFormed := by
  refine ⟨?_, by simp [pairing], ?_⟩
  · simp only [pairing, List.mem_singleton, forall_eq]
    exact ⟨⟨"uint8", by decide⟩, by simpa using ⟨by decide, by decide⟩⟩
  · simp only [pairing, List.mem_singleton, forall_eq]
    refine ⟨by simpa [pairUp] using ⟨"int16", by decide⟩, ?_⟩
    simp only [pairUp, List.mem_cons, List.not_mem_nil, or_false, forall_eq_or_imp, forall_eq]
    exact ⟨⟨by simp, by simp⟩, by simp [Statement.WellFormed]⟩

theorem visited_inRange_pairing :
    let t : Transaction := ⟨"C", "f", [.integer (-300) ⟨true, 16⟩]⟩
    let program : Program := ⟨⟨[pairing]⟩, [t]⟩
    let first := interpretTransaction t (start program {})
    let second : Session :=
      { pushed first.2 t pairing pairUp first.2.storage with trace := first.2.trace.start }
    Program.ofText program.toJson.compact = .ok program ∧ Visited program {} second ∧
      (second.trace.committed.length = 1 ∧ second.stack.frames.length = 1 ∧ second.InRange) ∧
      first.1 = .ok (some (.integer 200 ⟨false, 8⟩)) ∧
      (Value.integer 200 ⟨false, 8⟩).InRange := by
  intro t program first second
  have hwell : program.WellFormed := by
    refine ⟨by simpa [program] using pairing_wellFormed, ?_⟩
    simp only [program, t, List.mem_singleton, forall_eq]
    exact ⟨by decide, by decide⟩
  have hdepth : program.toJson.depth < Json.depthLimit := by decide
  have htext : Program.ofText program.toJson.compact = .ok program :=
    Document.ofText_compact program.plain_toJson hdepth
      (Document.restores_program program hwell hdepth)
  have hreturn : first.1 = .ok (some (.integer 200 ⟨false, 8⟩)) := rfl
  have hadmits : Admits first.2 t pairing pairUp first.2.storage := ⟨rfl, rfl, rfl, rfl⟩
  have hsecond : Visited program {} second := .called (.transaction .start t) hadmits
  exact ⟨htext, hsecond, ⟨rfl, rfl, (visited_inRange htext hsecond).1⟩, hreturn,
    (visited_inRange htext .start).2 t _ hreturn⟩

end Session

end ContractTrace
