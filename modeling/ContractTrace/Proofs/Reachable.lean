import ContractTrace.Proofs.Run

/-! The sessions that the operations of a session lead to. Between operations no call is in
progress and no transaction is open, and what seeding and the walk over a body preserve holds
throughout. -/

namespace ContractTrace.Session

open ContractTrace.Task (Keeps bind_of_error bind_of_ok)

/-! ### Operations -/

/-- What can be done with a session from outside. -/
inductive Operation
  | run
  | transaction (t : Transaction)
  | seed (contract : Contract)
  | interpret (n : Node)
  | interpretChildren (n : Node)
  | emit (id : NodeId) (call : Call)
  | finish (files : FileSystem)
  | write (writer : Writer)

/-- The session behind an operation, whether it succeeds or fails. Writing the trace only
reads the session. -/
def Operation.perform : Operation → Session → Session
  | .run, s => (Session.run s).2
  | .transaction t, s => (interpretTransaction t s).2
  | .seed contract, s => (seedStorage contract s).2
  | .interpret n, s => (Session.interpret n s).2
  | .interpretChildren n, s => (Session.interpretChildren n s).2
  | .emit id call, s => (Session.emit id call s).2
  | .finish files, s => (Session.finish (s, files)).2.1
  | .write _, s => s

/-- The sessions that operations lead to from a fresh one. -/
inductive Reachable (program : Program) (configuration : Configuration) : Session → Prop
  | start : Reachable program configuration (start program configuration)
  | step {s : Session} (h : Reachable program configuration s) (o : Operation) :
      Reachable program configuration (o.perform s)

/-! ### Operations outside a call -/

variable {s : Session}

theorem frame_of_no_frame (hs : s.stack.frames = []) (operation : String) :
    frame operation s = (.error (.callStackUnderflow operation), s) := by
  rw [frame, CallStack.current, hs]

theorem within_of_no_frame (hs : s.stack.frames = []) (kind : NodeKind) (id : NodeId)
    (body : Action (Option Value)) :
    within kind id body s = (.error (.callStackUnderflow "do_interpret"),
      { s with coverage := (s.coverage.mark id).2 }) := by
  have hmarked : ({ s with coverage := (s.coverage.mark id).2 } : Session).stack.frames = [] := hs
  exact (bind_of_ok rfl _).trans (bind_of_error (frame_of_no_frame hmarked _) _)

/-- Outside a call a node is marked and nothing else happens. -/
theorem interpret_of_no_frame (hs : s.stack.frames = []) (n : Node) :
    interpret n s = (.error (.callStackUnderflow "do_interpret"),
      { s with coverage := (s.coverage.mark n.id).2 }) := by
  cases n with
  | function f => exact within_of_no_frame hs _ _ _
  | block b => exact within_of_no_frame hs _ _ _
  | statement t =>
    cases t <;> simp only [interpret, interpretStatement] <;> exact within_of_no_frame hs _ _ _

theorem emit_of_no_frame (hs : s.stack.frames = []) (id : NodeId) (call : Call) :
    (emit id call s).2 = s := by
  cases hname : call.callee.calleeName? with
  | none => rw [emit, hname]; rfl
  | some name =>
    rw [emit, hname, Task.require_some_bind, bind_of_error (frame_of_no_frame hs _)]

/-! ### Stable properties -/

/-- A property of sessions that survives a seeding of storage and what a body does to the
generator, whatever becomes of coverage, trace, failure flag and log. -/
structure Stable (P : Session → Prop) : Prop where
  seeded : ∀ {s : Session} {contract : Contract} {storage : Environment}, P s →
    Flat.seed contract.storage = .ok storage → P { s with storage, active := some contract }
  walked : ∀ {s : Session} {c : Flat.Context} {body : List Statement}
    {result : Except RunError (Option Value)} {p : Flat.Progress}, P s →
    c.policy = s.configuration.errorPolicy → c.walk body ⟨s.generator, []⟩ = (result, p) →
    P { s with generator := p.generator }
  recorded : ∀ {s : Session}, P s → ∀ coverage trace failed log,
    P { s with coverage, trace, failed, log }

namespace Stable

variable {P : Session → Prop} (hP : Stable P)

include hP

theorem seedStorage (contract : Contract) :
    Keeps (fun s => s.Quiescent ∧ P s) (seedStorage contract) := by
  rintro s ⟨hq, hs⟩
  cases hseed : Flat.seed contract.storage with
  | error e =>
    obtain ⟨log, hr⟩ := seedStorage_of_error hseed s
    rw [hr]
    exact ⟨⟨hq.no_frame, hq.no_pending⟩, hP.recorded hs _ _ _ log⟩
  | ok storage =>
    obtain ⟨log, hr⟩ := seedStorage_of_ok hseed s
    rw [hr]
    exact ⟨⟨hq.no_frame, hq.no_pending⟩, hP.recorded (hP.seeded hs hseed) _ _ _ log⟩

/-- An admitted transaction is a seeding, if one is due, and a walk. -/
theorem admitted {t : Transaction} {contract : Contract} {function : Function}
    {storage : Environment} (ha : Admits s t contract function storage) (hs : P s)
    {result : Except RunError (Option Value)} {p : Flat.Progress}
    (hwalk : (contextOf s t contract function storage).walk
      (Flat.spliceAll function.body.statements) ⟨s.generator, []⟩ = (result, p)) :
    P { s with
      generator := p.generator
      storage
      active := some (s.active.getD contract) } := by
  rcases ha.storage_cases with ⟨rfl, hactive⟩ | ⟨hnone, hseed⟩
  · rw [hactive]
    exact hP.walked hs rfl hwalk
  · rw [hnone]
    exact hP.walked (hP.seeded hs hseed) rfl hwalk

theorem interpretTransaction (t : Transaction) :
    Keeps (fun s => s.Quiescent ∧ P s) (interpretTransaction t) := by
  rintro s ⟨hq, hs⟩
  rcases refuses_or_admits s t with ⟨e, ht⟩ | ⟨contract, function, storage, ht⟩
  · obtain ⟨log, hr⟩ := interpretTransaction_of_refuses ht
    rw [hr]
    exact ⟨⟨hq.no_frame, hq.no_pending⟩, hP.recorded hs _ _ _ log⟩
  · obtain ⟨result, p, coverage, log, hwalk, hr⟩ :=
      interpretTransaction_of_admits ht hq.no_frame
    rw [hr]
    exact ⟨⟨hq.no_frame, rfl⟩, hP.recorded (hP.admitted ht hs hwalk) coverage _ _ log⟩

theorem note (level : LogLevel) (text : String) :
    Keeps (fun s => s.Quiescent ∧ P s) (note level text) :=
  .modify fun _ h => ⟨⟨h.1.no_frame, h.1.no_pending⟩, hP.recorded h.2 _ _ _ _⟩

theorem interpretTransactions (ts : List Transaction) (i : Nat) :
    Keeps (fun s => s.Quiescent ∧ P s) (interpretTransactions i ts) := by
  induction ts generalizing i with
  | nil => exact .pure ()
  | cons t ts ih =>
    exact (hP.interpretTransaction t).bind fun _ => (hP.note _ _).bind fun _ => ih (i + 1)

omit hP in
theorem contract (name : String) : Keeps (fun s => s.Quiescent ∧ P s) (contract name) := by
  intro s h
  cases hc : s.program.source.contract? name with
  | none => rw [contract_of_none hc]; exact h
  | some c => rw [contract_of_some hc]; exact h

theorem runTransactions (ts : List Transaction) :
    Keeps (fun s => s.Quiescent ∧ P s) (runTransactions ts) := by
  cases ts with
  | nil => exact .fail _
  | cons first ts =>
    simp only [Session.runTransactions]
    split
    · exact .fail _
    · exact (Stable.contract _).bind fun c =>
        (hP.seedStorage c).bind fun _ => hP.interpretTransactions _ 0

theorem run : Keeps (fun s => s.Quiescent ∧ P s) run := by
  rintro s ⟨hq, hs⟩
  have hruns := hP.runTransactions s.program.transactions s.cleared
    ⟨hq.cleared, hP.recorded hs _ _ _ _⟩
  rcases hr : Session.runTransactions s.program.transactions s.cleared with ⟨e | _, s'⟩ <;>
    rw [hr] at hruns
  · obtain ⟨log, hrun⟩ := run_of_error hr
    rw [hrun]
    exact ⟨⟨hruns.1.no_frame, rfl⟩, hP.recorded hruns.2 _ _ _ log⟩
  · obtain ⟨log, hrun⟩ := run_of_ok hr
    rw [hrun]
    exact ⟨⟨hruns.1.no_frame, hruns.1.no_pending⟩, hP.recorded hruns.2 _ _ _ log⟩

theorem interpretChildren (n : Node) :
    Keeps (fun s => s.Quiescent ∧ P s) (interpretChildren n) := by
  rintro s ⟨hq, hs⟩
  rw [Session.interpretChildren]
  cases n.children with
  | nil => exact ⟨hq, hs⟩
  | cons child rest =>
    rw [interpretEach, bind_of_error (interpret_of_no_frame hq.no_frame child)]
    exact ⟨⟨hq.no_frame, hq.no_pending⟩, hP.recorded hs _ _ _ _⟩

theorem finish (files : FileSystem) (hq : s.Quiescent) (hs : P s) :
    (Session.finish (s, files)).2.1.Quiescent ∧ P (Session.finish (s, files)).2.1 := by
  simp only [Session.finish]
  split
  · exact ⟨hq, hs⟩
  · split <;> exact ⟨⟨hq.no_frame, hq.no_pending⟩, hP.recorded hs _ _ _ _⟩

/-- Every operation ends outside of calls and keeps the property. -/
theorem perform (o : Operation) (hq : s.Quiescent) (hs : P s) :
    (o.perform s).Quiescent ∧ P (o.perform s) := by
  cases o with
  | run => exact hP.run s ⟨hq, hs⟩
  | transaction t => exact hP.interpretTransaction t s ⟨hq, hs⟩
  | seed contract => exact hP.seedStorage contract s ⟨hq, hs⟩
  | interpret n =>
    rw [Operation.perform, interpret_of_no_frame hq.no_frame]
    exact ⟨⟨hq.no_frame, hq.no_pending⟩, hP.recorded hs _ _ _ _⟩
  | interpretChildren n => exact hP.interpretChildren n s ⟨hq, hs⟩
  | emit id call =>
    rw [Operation.perform, emit_of_no_frame hq.no_frame]
    exact ⟨hq, hs⟩
  | finish files => exact hP.finish files hq hs
  | write writer => exact ⟨hq, hs⟩

end Stable

/-! ### Reachable sessions -/

variable {program : Program} {configuration : Configuration}

/-- What holds of a fresh session and is stable holds of all reachable ones. -/
theorem Reachable.stable {P : Session → Prop} (hP : Stable P)
    (hstart : P (Session.start program configuration))
    (h : Reachable program configuration s) : s.Quiescent ∧ P s := by
  induction h with
  | start => exact ⟨⟨rfl, rfl⟩, hstart⟩
  | step _ o ih => exact hP.perform o ih.1 ih.2

/-- A session over the given program between two operations. -/
structure Idle (program : Program) (configuration : Configuration) (s : Session) : Prop
    extends Quiescent s where
  program_eq : s.program = program
  configuration_eq : s.configuration = configuration

theorem Reachable.idle (h : Reachable program configuration s) :
    s.Idle program configuration := by
  have hP : Stable fun s => s.program = program ∧ s.configuration = configuration :=
    ⟨fun hs _ => hs, fun hs _ _ => hs, fun hs _ _ _ _ => hs⟩
  obtain ⟨hq, hprogram, hconfiguration⟩ := h.stable hP ⟨rfl, rfl⟩
  exact ⟨hq, hprogram, hconfiguration⟩

theorem Reachable.quiescent (h : Reachable program configuration s) : s.Quiescent :=
  h.idle.toQuiescent

end ContractTrace.Session
