import ContractTrace.Proofs.Evaluation
import ContractTrace.Proofs.Flat

/-! Interpretation in a call is the walk over the flat body. The session is compared with the
walk along `InCall`: the generator is that of the walk, the events of the walk are pending,
and apart from scope, coverage and log nothing else has changed since the call began. -/

namespace ContractTrace.Session

open Flat
open ContractTrace.Task (Simulates Passes never bind_apply bind_bind bind_of_ok bind_of_error)

/-- A session inside a call that began in `base`, with the given frame over `rest`. -/
def InCall (base : Session) (frame : Frame) (rest : List Frame) (s : Session) (p : Progress) :
    Prop :=
  ∃ scope coverage log, s = { base with
    generator := p.generator
    stack := ⟨{ frame with scope } :: rest⟩
    coverage
    trace := ⟨base.trace.committed, some p.events⟩
    log }

variable {base : Session} {frame₀ : Frame} {rest : List Frame}

/-! ### Steps that the walk does not have -/

theorem note_passes (level : LogLevel) (text : String) :
    Passes (InCall base frame₀ rest) (fun _ => True) (note level text) := by
  rintro s p ⟨scope, coverage, log, rfl⟩
  exact ⟨(), _, rfl, ⟨scope, coverage, _, rfl⟩, trivial⟩

theorem mark_passes (id : NodeId) :
    Passes (InCall base frame₀ rest) (fun _ => True) (mark id) := by
  rintro s p ⟨scope, coverage, log, rfl⟩
  exact ⟨(), _, rfl, ⟨scope, _, log, rfl⟩, trivial⟩

theorem mapScope_passes (f : Scope → Scope) :
    Passes (InCall base frame₀ rest) (fun _ => True)
      (Task.modify fun s : Session => { s with stack := s.stack.mapScope f } : Action Unit) := by
  rintro s p ⟨scope, coverage, log, rfl⟩
  exact ⟨(), _, rfl, ⟨f scope, coverage, log, rfl⟩, trivial⟩

/-- The current frame is that of the call, up to its scope. -/
theorem frame_passes (operation : String) :
    Passes (InCall base frame₀ rest)
      (fun f => f.contract = frame₀.contract ∧ f.locals = frame₀.locals) (frame operation) := by
  rintro s p ⟨scope, coverage, log, rfl⟩
  exact ⟨_, _, rfl, ⟨scope, coverage, log, rfl⟩, rfl, rfl⟩

theorem within_simulates {body : Action (Option Value)}
    {y : Task Progress RunError (Option Value)} (kind : NodeKind) (id : NodeId)
    (h : Simulates (InCall base frame₀ rest) never body y) :
    Simulates (InCall base frame₀ rest) never (within kind id body) y := by
  refine .bind_left (mark_passes id) fun _ _ => ?_
  refine .bind_left (frame_passes _) fun _ _ => ?_
  refine .bind_left (mapScope_passes _) fun _ _ => ?_
  refine .bind_left (note_passes _ _) fun _ _ => ?_
  refine .bind_right h fun result => ?_
  refine .bind_left (frame_passes _) fun _ _ => ?_
  refine .bind_left (mapScope_passes _) fun _ _ => ?_
  exact .pure result

/-! ### Expressions -/

/-- The evaluation in the current call, in one equation. -/
theorem evaluateHere_apply (e : Expression) (s : Session) :
    evaluateHere e s = match s.stack.current "evaluate" with
      | .error fault => (.error fault, s)
      | .ok frame =>
        match evaluate s.configuration.errorPolicy (.layered frame.locals s.storage) e
            ⟨s.generator, s.log⟩ with
        | (result, state) =>
          (result.mapError .evaluation,
            { s with generator := state.generator, log := state.log }) := by
  rcases hf : s.stack.current "evaluate" with fault | frame
  · exact bind_of_error (show Session.frame "evaluate" s = _ by rw [Session.frame, hf]) _
  · refine (bind_of_ok (show Session.frame "evaluate" s = _ by rw [Session.frame, hf]) _).trans ?_
    simp only [bind_apply, Task.view_apply, Task.mapError, Task.zoom, evaluateForAll]
    rcases evaluate s.configuration.errorPolicy (.layered frame.locals s.storage) e
      ⟨s.generator, s.log⟩ with ⟨_ | v, state⟩ <;> rfl

/-- What the statements of a call see. -/
def callContext (base : Session) (frame : Frame) : Context :=
  ⟨base.configuration.errorPolicy, frame.contract, frame.locals, base.storage⟩

theorem evaluateHere_simulates (e : Expression) :
    Simulates (InCall base frame₀ rest) never (evaluateHere e)
      ((callContext base frame₀).value e) := by
  rintro s p ⟨scope, coverage, log, rfl⟩
  rw [evaluateHere_apply]
  simp only [CallStack.current, Context.value, callContext]
  have h := (Evaluation.evaluate_logFree base.configuration.errorPolicy
    (.layered frame₀.locals base.storage) e ⟨p.generator, log⟩ ⟨p.generator, #[]⟩ rfl).exact
  rw [h.1, h.2]
  exact .inl ⟨rfl, scope, coverage, _, rfl⟩

theorem returned_simulates (expression : Option Expression) :
    Simulates (InCall base frame₀ rest) never (returned expression)
      ((callContext base frame₀).returned expression) := by
  cases expression with
  | none => exact .pure Value.unit
  | some e => exact evaluateHere_simulates e

/-! ### Events -/

theorem emitArguments_simulates (es : List Expression) (event : Event) (i : Nat) :
    Simulates (InCall base frame₀ rest) never (emitArguments event i es)
      ((callContext base frame₀).values es >>= fun vs => pure (vs.foldl Event.push event)) := by
  induction es generalizing event i with
  | nil => exact .pure event
  | cons e es ih =>
    rw [Context.values, bind_bind]
    refine .bind_left (note_passes _ _) fun _ _ => ?_
    refine (evaluateHere_simulates e).bind fun v => ?_
    rw [bind_bind]
    exact ih (event.push v) (i + 1)

theorem foldl_push (vs : List Value) (event : Event) :
    vs.foldl Event.push event = ⟨event.name, event.arguments ++
      (vs.zipIdx event.arguments.length).map fun (v, slot) => (slot, v)⟩ := by
  induction vs generalizing event with
  | nil => simp
  | cons v vs ih =>
    rw [List.foldl_cons, ih]
    simp [Event.push]

/-- Slots are numbered as arguments come. -/
theorem foldl_push_named (name : String) (vs : List Value) :
    vs.foldl Event.push (.named name) = Flat.event name vs := by
  rw [foldl_push]
  rfl

theorem record_simulates (event : Event) :
    Simulates (InCall base frame₀ rest) never
      (Task.modify fun s : Session => { s with trace := s.trace.record event } : Action Unit)
      (Task.modify fun p => { p with events := p.events ++ [event] }) := by
  refine .modify ?_
  rintro s p ⟨scope, coverage, log, rfl⟩
  exact ⟨scope, coverage, log, rfl⟩

/-- The part of an emit behind its checks. -/
theorem emitArguments_record_simulates (name : String) (es : List Expression) :
    Simulates (InCall base frame₀ rest) never
      (do
        note .debug ("emit " ++ name)
        let event ← emitArguments (.named name) 0 es
        Task.modify fun s : Session => { s with trace := s.trace.record event })
      (do
        let values ← (callContext base frame₀).values es
        Task.modify fun p => { p with events := p.events ++ [Flat.event name values] }) := by
  refine .bind_left (note_passes _ _) fun _ _ => ?_
  have h : Simulates (InCall base frame₀ rest) never _ _ :=
    (emitArguments_simulates es (.named name) 0).bind record_simulates
  simp only [bind_bind, foldl_push_named] at h
  exact h

theorem emit_simulates (id : NodeId) (call : Call) :
    Simulates (InCall base frame₀ rest) never (emit id call)
      ((callContext base frame₀).emit id call) := by
  refine (Simulates.require _ _).bind fun name => ?_
  refine .bind_left (frame_passes _) fun f hf => ?_
  have hevents : Simulates (InCall base frame₀ rest) never _ _ :=
    emitArguments_record_simulates name call.arguments
  simp only [hf.1, Context.checkArity, callContext]
  cases frame₀.contract.event? name with
  | none => exact hevents
  | some declared =>
    by_cases h : declared.parameters.length = call.arguments.length
    · simp only [h, ne_eq, not_true_eq_false, ↓reduceIte]
      exact hevents
    · simp only [h, ne_eq, not_false_eq_true, ↓reduceIte]
      exact .fail _

/-! ### Statements -/

mutual

theorem interpretStatement_simulates : ∀ s : Statement,
    Simulates (InCall base frame₀ rest) never (interpretStatement s)
      ((callContext base frame₀).walk (splice s))
  | .block id statements => by
    rw [interpretStatement, splice]
    exact within_simulates _ id (interpretStatements_simulates statements)
  | .emit id call => by
    simp only [interpretStatement, splice, Context.walk]
    exact within_simulates _ id ((emit_simulates id call).bind fun _ => .pure none)
  | .ret id expression => by
    simp only [interpretStatement, splice, Context.walk]
    exact within_simulates _ id ((returned_simulates expression).bind fun v => .pure (some v))
  | .effect .. | .declaration .. | .conditional .. | .whileLoop .. | .doWhileLoop ..
  | .forLoop .. | .breakLoop .. | .continueLoop .. | .placeholder .. | .revert .. => by
    simp only [interpretStatement, splice, Context.walk]
    exact within_simulates _ _ (.fail _)

theorem interpretStatements_simulates : ∀ ss : List Statement,
    Simulates (InCall base frame₀ rest) never (interpretStatements ss)
      ((callContext base frame₀).walk (spliceAll ss))
  | [] => by
    rw [interpretStatements, spliceAll]
    exact .pure none
  | s :: ss => by
    rw [interpretStatements, spliceAll, Context.walk_append]
    refine (interpretStatement_simulates s).bind fun result => ?_
    cases result with
    | some v => exact .pure (some v)
    | none => exact interpretStatements_simulates ss

end

/-- A called function does to the session what the walk over its flat body does. -/
theorem interpret_function_simulates (function : Function) :
    Simulates (InCall base frame₀ rest) never (interpret (.function function))
      ((callContext base frame₀).walk (spliceAll function.body.statements)) :=
  within_simulates _ _ (.bind_left (mark_passes _) fun _ _ =>
    interpretStatements_simulates function.body.statements)

end ContractTrace.Session
