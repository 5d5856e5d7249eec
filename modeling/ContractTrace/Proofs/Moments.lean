import ContractTrace.Proofs.Failures

/-! The moments of a run. A body is interpreted in one session after the other: one before each
statement, and in a statement one before each of its expressions is evaluated. None of them
differs from the session in which the call began in more than generator, scope, coverage,
pending events and log, and a run that fails in an expression fails at one of them, in an
expression of the body. -/

namespace ContractTrace

namespace Task

variable {σ τ ε α β : Type} {Rel : σ → τ → Prop} {x : Task σ ε α}

/-- A sequence fails in its first part, or in its second after the first. -/
theorem bind_eq_error {f : α → Task σ ε β} {s s' : σ} {e : ε}
    (h : (x >>= f) s = (.error e, s')) :
    x s = (.error e, s') ∨ ∃ a u, x s = (.ok a, u) ∧ f a u = (.error e, s') := by
  rw [bind_apply] at h
  rcases hx : x s with ⟨e' | a, u⟩ <;> rw [hx] at h
  · cases h
    exact .inl rfl
  · exact .inr ⟨a, u, rfl, h⟩

/-- A sequence succeeds in its first part and in its second. -/
theorem bind_apply_eq_ok {f : α → Task σ ε β} {s s' : σ} {b : β} (h : (x >>= f) s = (.ok b, s')) :
    ∃ a u, x s = (.ok a, u) ∧ f a u = (.ok b, s') := by
  rw [bind_apply] at h
  rcases hx : x s with ⟨e | a, u⟩ <;> rw [hx] at h
  · cases h
  · exact ⟨a, u, rfl, h⟩

theorem Simulates.rel_of_eq {y : Task τ ε α} (h : Simulates Rel never x y) {s s' : σ} {t : τ}
    (hst : Rel s t) {result : Except ε α} (hx : x s = (result, s')) : Rel s' (y t).2 := by
  have hrel := (h s t hst).exact.2
  rw [hx] at hrel
  exact hrel

theorem Passes.rel_of_eq {Q : α → Prop} (h : Passes Rel Q x) {s s' : σ} {t : τ} (hst : Rel s t)
    {result : Except ε α} (hx : x s = (result, s')) : Rel s' t := by
  obtain ⟨a, s'', hs, hrel, -⟩ := h s t hst
  rw [hs] at hx
  cases hx
  exact hrel

end Task

/-- The expressions that a statement evaluates. -/
def Statement.evaluated : Statement → List Expression
  | .emit _ call => call.arguments
  | .ret _ expression => expression.toList
  | _ => []

namespace Session

open ContractTrace.Task (Passes bind_bind bind_eq_error bind_of_ok)

/-! ### Statements -/

/-- Enters a node, which is marked and noted. -/
def enter (kind : NodeKind) (id : NodeId) : Action Unit := do
  mark id
  let _ ← frame "do_interpret"
  Task.modify fun s => { s with stack := s.stack.mapScope (·.enter id) }
  note .trace ("enter " ++ kind.name ++ " " ++ NodeId.text id)

/-- What a node holds is interpreted between entering and leaving it. -/
theorem within_eq_enter (kind : NodeKind) (id : NodeId) (body : Action (Option Value)) :
    within kind id body = do
      enter kind id
      let result ← body
      let _ ← frame "do_interpret"
      Task.modify fun s => { s with stack := s.stack.mapScope (·.leave id) }
      return result := by
  simp only [within, enter, bind_bind]

/-- Interpreting the statements from the first session, the second is met: a statement comes
next there, or one of the expressions of a statement. What the log says, and whether an event
takes as many arguments, does not matter. -/
inductive Meets : List Statement → Session → Session → Prop
  | statement {t : Statement} {ts : List Statement} {s : Session} : Meets (t :: ts) s s
  | inside {id : NodeId} {inner ts : List Statement} {s s' u : Session}
      (henter : enter (.statement .block) id s = (.ok (), s')) (h : Meets inner s' u) :
      Meets (.block id inner :: ts) s u
  | argument {id : NodeId} {call : Call} {ts : List Statement} {s s' u : Session}
      (henter : enter (.statement .emitStatement) id s = (.ok (), s'))
      {before after : List Expression} {e : Expression} (hcall : call.arguments = before ++ e :: after)
      {name : String} (hname : call.callee.calleeName? = some name) {event : Event} (log log' : Log)
      (hbefore : emitArguments (.named name) 0 before { s' with log } = (.ok event, u)) :
      Meets (.emit id call :: ts) s { u with log := log' }
  | returned {id : NodeId} {e : Expression} {ts : List Statement} {s s' : Session}
      (henter : enter (.statement .return) id s = (.ok (), s')) :
      Meets (.ret id (some e) :: ts) s s'
  | next {t : Statement} {ts : List Statement} {s s' u : Session}
      (hstep : interpretStatement t s = (.ok none, s')) (h : Meets ts s' u) : Meets (t :: ts) s u

variable {base : Session} {frame₀ : Frame} {rest : List Frame} {s u : Session}

theorem enter_passes (kind : NodeKind) (id : NodeId) :
    Passes (InCall base frame₀ rest) (fun _ => True) (enter kind id) := by
  rintro s p ⟨scope, coverage, log, rfl⟩
  exact ⟨(), _, rfl, ⟨scope.enter id, _, _, rfl⟩, trivial⟩

theorem InCall.setLog {p : Flat.Progress} (h : InCall base frame₀ rest s p) (log : Log) :
    InCall base frame₀ rest { s with log } p := by
  obtain ⟨scope, coverage, _, rfl⟩ := h
  exact ⟨scope, coverage, log, rfl⟩

/-- Every session that is met is one inside the call. -/
theorem Meets.inCall {ss : List Statement} (h : Meets ss s u) {p : Flat.Progress}
    (hs : InCall base frame₀ rest s p) : ∃ p', InCall base frame₀ rest u p' := by
  induction h generalizing p with
  | statement => exact ⟨p, hs⟩
  | inside henter _ ih => exact ih ((enter_passes _ _).rel_of_eq hs henter)
  | argument henter _ _ log log' hbefore =>
    have hentered := (enter_passes _ _).rel_of_eq hs henter
    have hevaluated := (emitArguments_simulates _ _ 0).rel_of_eq (hentered.setLog log) hbefore
    exact ⟨_, hevaluated.setLog log'⟩
  | returned henter => exact ⟨p, (enter_passes _ _).rel_of_eq hs henter⟩
  | next hstep _ ih => exact ih ((interpretStatement_simulates _).rel_of_eq hs hstep)

/-! ### Failures of evaluation -/

theorem frame_ne_evaluation {operation : String} {e : EvaluationError} :
    frame operation s ≠ (.error (.evaluation e), u) := by
  intro h
  rw [frame, CallStack.current] at h
  split at h <;> cases h

theorem enter_ne_evaluation {kind : NodeKind} {id : NodeId} {e : EvaluationError} :
    enter kind id s ≠ (.error (.evaluation e), u) := by
  intro h
  rcases bind_eq_error h with h | ⟨_, _, _, h⟩
  · cases h
  rcases bind_eq_error h with h | ⟨_, _, _, h⟩
  · exact frame_ne_evaluation h
  · cases h

theorem within_eq_evaluation {kind : NodeKind} {id : NodeId} {body : Action (Option Value)}
    {e : EvaluationError} (h : within kind id body s = (.error (.evaluation e), u)) :
    ∃ s', enter kind id s = (.ok (), s') ∧ body s' = (.error (.evaluation e), u) := by
  rw [within_eq_enter] at h
  rcases bind_eq_error h with h | ⟨_, s', henter, h⟩
  · exact absurd h enter_ne_evaluation
  rcases bind_eq_error h with h | ⟨_, _, _, h⟩
  · exact ⟨s', henter, h⟩
  rcases bind_eq_error h with h | ⟨_, _, _, h⟩
  · exact absurd h frame_ne_evaluation
  · cases h

theorem emitArguments_eq_evaluation {es : List Expression} {event : Event} {i : Nat}
    {e : EvaluationError} (h : emitArguments event i es s = (.error (.evaluation e), u)) :
    ∃ before failing after event' s' log, es = before ++ failing :: after ∧
      emitArguments event i before s = (.ok event', s') ∧
      (evaluateHere failing { s' with log }).1 = .error (.evaluation e) := by
  induction es generalizing event i s with
  | nil => cases h
  | cons first es ih =>
    rw [emitArguments] at h
    rcases bind_eq_error h with h | ⟨_, _, hnote, h⟩
    · cases h
    rcases bind_eq_error h with h' | ⟨v, s₁, hfirst, h⟩
    · cases hnote
      exact ⟨[], first, es, event, s, _, rfl, rfl, congrArg Prod.fst h'⟩
    · obtain ⟨before, failing, after, event', s', log, rfl, hbefore, hfailing⟩ := ih h
      refine ⟨first :: before, failing, after, event', s', log, rfl, ?_, hfailing⟩
      rw [emitArguments, bind_of_ok hnote, bind_of_ok hfirst, hbefore]

theorem emit_eq_evaluation {id : NodeId} {call : Call} {e : EvaluationError}
    (h : emit id call s = (.error (.evaluation e), u)) :
    ∃ name log, call.callee.calleeName? = some name ∧
      emitArguments (.named name) 0 call.arguments { s with log } = (.error (.evaluation e), u) := by
  have harguments : ∀ name, (do
      note .debug ("emit " ++ name)
      let event ← emitArguments (.named name) 0 call.arguments
      Task.modify fun s => { s with trace := s.trace.record event } : Action Unit) s =
        (.error (.evaluation e), u) →
      ∃ log, emitArguments (.named name) 0 call.arguments { s with log } =
        (.error (.evaluation e), u) := by
    intro name h
    rcases bind_eq_error h with h | ⟨_, s', hnote, h⟩
    · cases h
    rcases bind_eq_error h with h | ⟨_, _, _, h⟩
    · cases hnote
      exact ⟨_, h⟩
    · cases h
  rw [emit] at h
  cases hname : call.callee.calleeName? with
  | none =>
    rw [hname] at h
    cases h
  | some name =>
    rw [hname, Task.require_some_bind] at h
    rcases bind_eq_error h with h | ⟨frame, s', hframe, h⟩
    · exact absurd h frame_ne_evaluation
    obtain rfl : s = s' := congrArg Prod.snd hframe
    cases hevent : frame.contract.event? name with
    | none =>
      rw [hevent] at h
      obtain ⟨log, h⟩ := harguments name h
      exact ⟨name, log, rfl, h⟩
    | some declared =>
      simp only [hevent] at h
      split at h
      · cases h
      · obtain ⟨log, h⟩ := harguments name h
        exact ⟨name, log, rfl, h⟩

mutual

/-- Where interpretation fails in an expression, a statement evaluates that expression in a session
that is met. -/
theorem interpretStatement_eq_evaluation : ∀ (t : Statement) (ts : List Statement) {s u : Session}
    {e : EvaluationError}, interpretStatement t s = (.error (.evaluation e), u) →
    ∃ t' ∈ Flat.splice t, ∃ failing ∈ t'.evaluated, ∃ s', Meets (t :: ts) s s' ∧
      (evaluateHere failing s').1 = .error (.evaluation e)
  | .block id inner, ts => by
    intro h
    rw [interpretStatement] at h
    obtain ⟨s', henter, hinner⟩ := within_eq_evaluation h
    obtain ⟨t', ht', failing, hmem, s₁, hmeets, hfailing⟩ :=
      interpretStatements_eq_evaluation inner hinner
    exact ⟨t', ht', failing, hmem, s₁, .inside henter hmeets, hfailing⟩
  | .emit id call, ts => by
    intro h
    rw [interpretStatement] at h
    obtain ⟨s', henter, hbody⟩ := within_eq_evaluation h
    rcases bind_eq_error hbody with hemit | ⟨_, _, _, hpure⟩
    · obtain ⟨name, log, hname, harguments⟩ := emit_eq_evaluation hemit
      obtain ⟨before, failing, after, event, s₁, log', hcall, hbefore, hfailing⟩ :=
        emitArguments_eq_evaluation harguments
      have hmem : failing ∈ call.arguments := by
        rw [hcall]
        exact List.mem_append_right before List.mem_cons_self
      exact ⟨_, List.mem_singleton_self _, failing, hmem, _,
        .argument henter hcall hname log log' hbefore, hfailing⟩
    · cases hpure
  | .ret id expression, ts => by
    intro h
    rw [interpretStatement] at h
    obtain ⟨s', henter, hbody⟩ := within_eq_evaluation h
    cases expression with
    | none => cases hbody
    | some failing =>
      rcases bind_eq_error hbody with hreturned | ⟨_, _, _, hpure⟩
      · exact ⟨_, List.mem_singleton_self _, failing, List.mem_singleton_self failing, s',
          .returned henter, congrArg Prod.fst hreturned⟩
      · cases hpure
  | .effect .., _ | .declaration .., _ | .conditional .., _ | .whileLoop .., _
  | .doWhileLoop .., _ | .forLoop .., _ | .breakLoop .., _ | .continueLoop .., _
  | .placeholder .., _ | .revert .., _ => by
    intro h
    simp only [interpretStatement] at h
    obtain ⟨s', -, hbody⟩ := within_eq_evaluation h
    cases hbody

theorem interpretStatements_eq_evaluation : ∀ (ss : List Statement) {s u : Session}
    {e : EvaluationError}, interpretStatements ss s = (.error (.evaluation e), u) →
    ∃ t ∈ Flat.spliceAll ss, ∃ failing ∈ t.evaluated, ∃ s', Meets ss s s' ∧
      (evaluateHere failing s').1 = .error (.evaluation e)
  | [] => by
    intro h
    rw [interpretStatements] at h
    cases h
  | t :: ts => by
    intro h
    rw [interpretStatements] at h
    rcases bind_eq_error h with h | ⟨_ | v, s', hstep, h⟩
    · obtain ⟨t', ht', hfails⟩ := interpretStatement_eq_evaluation t ts h
      exact ⟨t', List.mem_append_left _ ht', hfails⟩
    · obtain ⟨t', ht', failing, hmem, s₁, hmeets, hfailing⟩ :=
        interpretStatements_eq_evaluation ts h
      exact ⟨t', List.mem_append_right _ ht', failing, hmem, s₁, .next hstep hmeets, hfailing⟩
    · cases h

end

/-! ### Transactions -/

/-- The transaction calls the function of the contract, and the session is met in the body. -/
def MeetsInCall (s : Session) (t : Transaction) (contract : Contract) (function : Function)
    (u : Session) : Prop :=
  ∃ storage log s', Admits s t contract function storage ∧
    enter .function function.id
      { pushed s t contract function storage with trace := s.trace.start, log } = (.ok (), s') ∧
    Meets function.body.statements (mark function.body.id s').2 u

/-- The session in which the call of a transaction has its frame. -/
theorem MeetsInCall.inCall {t : Transaction} {contract : Contract} {function : Function}
    (h : MeetsInCall s t contract function u) :
    ∃ storage p, Admits s t contract function storage ∧
      InCall (pushed s t contract function storage)
        (.call contract function t.arguments
          (bindArguments (s.stack.depth + 1) .locals function.parameters t.arguments))
        s.stack.frames u p := by
  obtain ⟨storage, log, s', hadmits, henter, hmeets⟩ := h
  have hstart : InCall (pushed s t contract function storage)
      (.call contract function t.arguments
        (bindArguments (s.stack.depth + 1) .locals function.parameters t.arguments))
      s.stack.frames { pushed s t contract function storage with trace := s.trace.start, log }
      ⟨s.generator, []⟩ := ⟨.empty, s.coverage, log, rfl⟩
  have hentered := (enter_passes _ _).rel_of_eq hstart henter
  have hmarked := (mark_passes function.body.id).rel_of_eq hentered rfl
  obtain ⟨p, hp⟩ := hmeets.inCall hmarked
  exact ⟨storage, p, hadmits, hp⟩

/-! ### Runs -/

/-- A run of the first session comes to the transaction in the second: storage is seeded, and
the transactions before have completed. -/
def ComesTo (s : Session) (t : Transaction) (s' : Session) : Prop :=
  ∃ contract storage log before after,
    preparation s.program.source s.program.transactions = .ok (contract, storage) ∧
    s.program.transactions = before ++ t :: after ∧
    interpretTransactions 0 before { s.cleared with storage, active := some contract, log } =
      (.ok (), s')

/-- A run of the first session comes to the transaction and meets the second in its call. -/
def MeetsInRun (s : Session) (t : Transaction) (contract : Contract) (function : Function)
    (u : Session) : Prop :=
  ∃ s', ComesTo s t s' ∧ MeetsInCall s' t contract function u

/-- A run is prepared for the one contract of all its transactions, without evaluating
anything. -/
theorem preparation_outcome (source : SourceUnit) (ts : List Transaction) :
    match preparation source ts with
    | .error e => ∀ e', e ≠ .evaluation e'
    | .ok (contract, storage) =>
      (∀ t ∈ ts, source.contract? t.contract = some contract) ∧
        Flat.seed contract.storage = .ok storage := by
  rcases mixes_or_uniform ts with rfl | ⟨expected, found, hmixes⟩ | ⟨hne, name, hname⟩
  · simp [preparation]
  · simp [preparation_of_mixes source hmixes]
  · rw [preparation_of_uniform source hne hname]
    cases hc : source.contract? name with
    | none => simp
    | some contract =>
      cases hseed : Flat.seed contract.storage with
      | error e =>
        obtain ⟨variableName, fault, rfl⟩ := Flat.seed_error hseed
        simp [hseed]
      | ok storage =>
        simp only [hseed]
        exact ⟨fun t ht => by rw [hname t ht, hc], trivial⟩

/-- Transactions that complete leave storage, its contract and the stack as they are. -/
theorem interpretTransactions_keeps {contract : Contract} {ts : List Transaction} {i : Nat}
    {s' : Session} (hq : s.Quiescent)
    (hc : ∀ t ∈ ts, s.program.source.contract? t.contract = some contract)
    (ha : s.active = some contract) (h : interpretTransactions i ts s = (.ok (), s')) :
    s'.program = s.program ∧ s'.storage = s.storage ∧ s'.active = s.active ∧
      s'.stack = s.stack := by
  have hflat := interpretTransactions_flat ts i s hq hc ha
  rcases hts : Flat.transactions s.configuration.errorPolicy contract s.storage ts s.generator
    with ⟨e | blocks, g⟩ <;> rw [hts, h] at hflat
  · cases hflat
  · obtain ⟨coverage, log, hs'⟩ := hflat
    cases hs'
    exact ⟨rfl, rfl, rfl, rfl⟩

/-- A run comes to each transaction outside of calls and over freshly seeded storage. -/
theorem ComesTo.seeded (hq : s.Quiescent) {t : Transaction} {s' : Session}
    (h : ComesTo s t s') :
    ∃ contract, s'.program.source.contract? t.contract = some contract ∧
      Flat.seed contract.storage = .ok s'.storage ∧ s'.active = some contract ∧
      s'.stack.frames = [] := by
  obtain ⟨contract, storage, log, before, after, hprepared, hts, hbefore⟩ := h
  have houtcome := preparation_outcome s.program.source s.program.transactions
  rw [hprepared, hts] at houtcome
  obtain ⟨hcontract, hseed⟩ := houtcome
  have hquiescent :
      ({ s.cleared with storage, active := some contract, log } : Session).Quiescent :=
    ⟨hq.no_frame, rfl⟩
  obtain ⟨hprogram, hstorage, hactive, hstack⟩ := interpretTransactions_keeps hquiescent
    (fun t ht => hcontract t (List.mem_append_left _ ht)) rfl hbefore
  refine ⟨contract, ?_, ?_, hactive, ?_⟩
  · rw [hprogram]
    exact hcontract t (List.mem_append_right before List.mem_cons_self)
  · rw [hstorage]
    exact hseed
  · rw [hstack]
    exact hq.no_frame

/-- What a session met in a run shows of its call: the frame, with the locals that the arguments
make, and the seeded storage of the contract. -/
theorem MeetsInRun.frame (hq : s.Quiescent) {t : Transaction} {contract : Contract}
    {function : Function} (h : MeetsInRun s t contract function u) :
    ∃ frame, u.stack.frames = [frame] ∧
      frame.locals = bindArguments 1 .locals function.parameters t.arguments ∧
      Flat.fault? function t.arguments = none ∧
      Flat.seed contract.storage = .ok u.storage := by
  obtain ⟨s', hcomes, hcall⟩ := h
  obtain ⟨c, hc, hseed, hactive, hframes⟩ := hcomes.seeded hq
  obtain ⟨storage, p, hadmits, scope, coverage, log, rfl⟩ := hcall.inCall
  obtain rfl : contract = c := Option.some.inj (hadmits.contract_eq.symm.trans hc)
  obtain rfl : storage = s'.storage :=
    Except.ok.inj (hadmits.storage_eq.symm.trans (storageFor_active hactive))
  refine ⟨_, congrArg (List.cons _) hframes, ?_, hadmits.arguments_fit, hseed⟩
  rw [CallStack.depth, hframes]
  rfl

/-! ### Failures of runs -/

theorem call_eq_evaluation {contract : Contract} {function : Function} {e : EvaluationError}
    (h : call contract function s = (.error (.evaluation e), u)) :
    ∃ s', interpret (.function function) { s with trace := s.trace.start } =
      (.error (.evaluation e), s') := by
  rcases hbody : interpret (.function function) { s with trace := s.trace.start } with ⟨result, s'⟩
  simp only [call, hbody, CallStack.pop] at h
  cases hframes : s'.stack.frames with
  | nil =>
    simp only [hframes] at h
    cases h
  | cons frame rest =>
    simp only [hframes] at h
    cases result with
    | ok value => cases h
    | error e' =>
      cases h
      exact ⟨s', rfl⟩

/-- A transaction that fails in an expression meets the session in which the body evaluates it. -/
theorem Admits.eq_evaluation {t : Transaction} {contract : Contract} {function : Function}
    {storage : Environment} (ha : Admits s t contract function storage) {e : EvaluationError}
    (h : interpretTransaction t s = (.error (.evaluation e), u)) :
    ∃ statement ∈ Flat.spliceAll function.body.statements, ∃ failing ∈ statement.evaluated,
      ∃ s', MeetsInCall s t contract function s' ∧
        (evaluateHere failing s').1 = .error (.evaluation e) := by
  obtain ⟨log, hperform⟩ := interpretTransaction_of_admits_call ha
  rw [hperform] at h
  obtain ⟨u, hbody⟩ := call_eq_evaluation h
  obtain ⟨s₁, henter, hbody⟩ := within_eq_evaluation hbody
  obtain ⟨statement, hstatement, failing, hmem, s', hmeets, hfailing⟩ :=
    interpretStatements_eq_evaluation function.body.statements hbody
  exact ⟨statement, hstatement, failing, hmem, s', ⟨storage, log, s₁, ha, henter, hmeets⟩, hfailing⟩

theorem interpretTransactions_eq_error {ts : List Transaction} {i : Nat} {e : RunError}
    (h : interpretTransactions i ts s = (.error e, u)) :
    ∃ before t after s' u', ts = before ++ t :: after ∧
      interpretTransactions i before s = (.ok (), s') ∧
      interpretTransaction t s' = (.error e, u') := by
  induction ts generalizing i s with
  | nil => cases h
  | cons first ts ih =>
    rcases bind_eq_error h with hfirst | ⟨_, s₁, hfirst, h⟩
    · exact ⟨[], first, ts, s, u, rfl, rfl, hfirst⟩
    rcases bind_eq_error h with h | ⟨_, s₂, hnote, h⟩
    · cases h
    obtain ⟨before, t, after, s', u', rfl, hbefore, ht⟩ := ih h
    refine ⟨first :: before, t, after, s', u', rfl, ?_, ht⟩
    rw [interpretTransactions, bind_of_ok hfirst, bind_of_ok hnote, hbefore]

theorem ComesTo.eq_evaluation (hq : s.Quiescent) {t : Transaction} {s' : Session}
    (hcomes : ComesTo s t s') {e : EvaluationError}
    (h : interpretTransaction t s' = (.error (.evaluation e), u)) :
    ∃ contract function, ∃ statement ∈ Flat.spliceAll function.body.statements,
      ∃ failing ∈ statement.evaluated, ∃ v, MeetsInCall s' t contract function v ∧
        (evaluateHere failing v).1 = .error (.evaluation e) := by
  obtain ⟨contract, hcontract, -, hactive, -⟩ := hcomes.seeded hq
  rcases refuses_or_admits s' t with ⟨e', hrefuses⟩ | ⟨contract', function, storage, ha⟩
  · obtain ⟨_, hrefused⟩ := interpretTransaction_of_refuses hrefuses
    rw [hrefused] at h
    cases h
    -- storage is seeded already
    cases hrefuses with
    | storage hc _ _ hs =>
      rw [hcontract] at hc
      cases hc
      rw [storageFor_active hactive] at hs
      cases hs
  · exact ⟨contract', function, ha.eq_evaluation h⟩

/-- A run that fails in an expression meets the session in which the body of a call evaluates it. -/
theorem run_eq_evaluation (hq : s.Quiescent) {e : EvaluationError}
    (h : (run s).1 = .error (.evaluation e)) :
    ∃ t contract function, ∃ statement ∈ Flat.spliceAll function.body.statements,
      ∃ failing ∈ statement.evaluated, ∃ v, MeetsInRun s t contract function v ∧
        (evaluateHere failing v).1 = .error (.evaluation e) := by
  have houtcome := preparation_outcome s.program.source s.program.transactions
  rcases hprepared : preparation s.program.source s.program.transactions with e' | ⟨c, storage⟩
  · obtain ⟨log, hrun⟩ := run_of_unprepared hprepared
    rw [hrun] at h
    rw [hprepared] at houtcome
    cases h
    exact absurd rfl (houtcome e)
  obtain ⟨log, hruns⟩ := runTransactions_of_prepared (s := s.cleared) hprepared
  rcases hts : runTransactions s.program.transactions s.cleared with ⟨e' | _, u⟩
  · obtain ⟨_, hrun⟩ := run_of_error hts
    rw [hrun] at h
    cases h
    rw [hruns] at hts
    obtain ⟨before, t, after, s', u', hsplit, hbefore, ht⟩ := interpretTransactions_eq_error hts
    have hcomes : ComesTo s t s' := ⟨c, storage, log, before, after, hprepared, hsplit, hbefore⟩
    obtain ⟨contract, function, statement, hstatement, failing, hmem, v, hmeets, hfailing⟩ :=
      hcomes.eq_evaluation hq ht
    exact ⟨t, contract, function, statement, hstatement, failing, hmem, v, ⟨s', hcomes, hmeets⟩,
      hfailing⟩
  · obtain ⟨_, hrun⟩ := run_of_ok hts
    rw [hrun] at h
    cases h

end Session

end ContractTrace
