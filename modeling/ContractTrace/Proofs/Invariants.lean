import ContractTrace.Proofs.Moments

/-! Properties of sessions that survive a call. One that looks at neither generator, scopes nor
log survives every evaluation, so that it has to be compared with marks and with the emits of the
body only. It then holds wherever the body comes to. -/

namespace ContractTrace

theorem Task.Keeps.of_eq {σ ε α : Type} {P : σ → Prop} {x : Task σ ε α} (h : Keeps P x) {s s' : σ}
    {result : Except ε α} (hx : x s = (result, s')) (hs : P s) : P s' := by
  have hkept := h s hs
  rw [hx] at hkept
  exact hkept

namespace Session

open Flat
open ContractTrace.Task (Keeps)

/-! ### Expressions and events -/

/-- A property that does not depend on generator and log. -/
structure Quiet (P : Session → Prop) : Prop where
  drawn : ∀ {s : Session}, P s → ∀ generator log, P { s with generator, log }

namespace Quiet

variable {P : Session → Prop}

theorem frame (operation : String) : Keeps P (frame operation) := fun _ h => h

variable (hP : Quiet P)

include hP

theorem note (level : LogLevel) (text : String) : Keeps P (note level text) :=
  .modify fun s h => hP.drawn h s.generator _

theorem evaluateHere (e : Expression) : Keeps P (evaluateHere e) := by
  intro s hs
  rw [evaluateHere_apply]
  cases s.stack.current "evaluate" with
  | error fault => exact hs
  | ok frame => exact hP.drawn hs _ _

theorem returned (expression : Option Expression) : Keeps P (returned expression) := by
  cases expression with
  | none => exact .pure Value.unit
  | some e => exact hP.evaluateHere e

theorem emitArguments (es : List Expression) (event : Event) (i : Nat) :
    Keeps P (emitArguments event i es) := by
  induction es generalizing event i with
  | nil => exact .pure event
  | cons e es ih =>
    exact (hP.note _ _).bind fun _ => (hP.evaluateHere e).bind fun v => ih (event.push v) (i + 1)

/-- A property that recording an event does not touch survives an emit. -/
theorem emit (hrecord : ∀ {s : Session}, P s → ∀ event,
      P { s with trace := s.trace.record event }) (id : NodeId) (call : Call) :
    Keeps P (emit id call) := by
  have hevent : ∀ name, Keeps P (do
      Session.note .debug ("emit " ++ name)
      let event ← Session.emitArguments (.named name) 0 call.arguments
      Task.modify fun s => { s with trace := s.trace.record event } : Action Unit) := fun name =>
    (hP.note _ _).bind fun _ => (hP.emitArguments call.arguments (.named name) 0).bind fun event =>
      .modify fun _ h => hrecord h event
  rw [Session.emit]
  cases call.callee.calleeName? with
  | none => exact .fail _
  | some name =>
    refine (Keeps.pure name).bind fun name => (frame _).bind fun f => ?_
    cases f.contract.event? name with
    | none => exact hevent name
    | some declared =>
      dsimp only
      split_ifs
      · exact .fail _
      · exact hevent name

end Quiet

/-! ### Statements -/

/-- A property that does not depend on generator, scopes and log. -/
structure Steady (P : Session → Prop) : Prop extends Quiet P where
  rescoped : ∀ {s : Session}, P s → ∀ f, P { s with stack := s.stack.mapScope f }

namespace Steady

variable {P : Session → Prop} (hP : Steady P)

include hP

theorem mapScope (f : Scope → Scope) :
    Keeps P (Task.modify fun s : Session => { s with stack := s.stack.mapScope f } :
      Action Unit) :=
  .modify fun _ h => hP.rescoped h f

variable (hmark : ∀ id, Keeps P (mark id))

include hmark

theorem enter (kind : NodeKind) (id : NodeId) : Keeps P (enter kind id) :=
  (hmark id).bind fun _ => (Quiet.frame _).bind fun _ => (hP.mapScope _).bind fun _ => hP.note _ _

theorem within (kind : NodeKind) (id : NodeId) {body : Action (Option Value)}
    (hbody : Keeps P body) : Keeps P (within kind id body) := by
  rw [within_eq_enter]
  refine (hP.enter hmark kind id).bind fun _ => hbody.bind fun result => ?_
  exact (Quiet.frame _).bind fun _ => (hP.mapScope _).bind fun _ => .pure result

omit hP hmark

mutual

theorem interpretStatement (hP : Steady P) (hmark : ∀ id, Keeps P (mark id)) :
    ∀ s : Statement, (∀ id call, .emit id call ∈ splice s → Keeps P (Session.emit id call)) →
      Keeps P (interpretStatement s)
  | .block id statements, hemit => by
    rw [Session.interpretStatement]
    exact hP.within hmark _ id (interpretStatements hP hmark statements hemit)
  | .emit id call, hemit => by
    rw [Session.interpretStatement]
    exact hP.within hmark _ id ((hemit id call List.mem_cons_self).bind fun _ => .pure none)
  | .ret id expression, _ => by
    rw [Session.interpretStatement]
    exact hP.within hmark _ id ((hP.returned expression).bind fun v => .pure (some v))
  | .effect .., _ | .declaration .., _ | .conditional .., _ | .whileLoop .., _
  | .doWhileLoop .., _ | .forLoop .., _ | .breakLoop .., _ | .continueLoop .., _
  | .placeholder .., _ | .revert .., _ => by
    simp only [Session.interpretStatement]
    exact hP.within hmark _ _ (.fail _)

theorem interpretStatements (hP : Steady P) (hmark : ∀ id, Keeps P (mark id)) :
    ∀ ss : List Statement,
      (∀ id call, .emit id call ∈ spliceAll ss → Keeps P (Session.emit id call)) →
      Keeps P (interpretStatements ss)
  | [], _ => by
    rw [Session.interpretStatements]
    exact .pure none
  | s :: ss, hemit => by
    rw [Session.interpretStatements]
    refine (interpretStatement hP hmark s fun id call h =>
      hemit id call (List.mem_append_left _ h)).bind fun result => ?_
    cases result with
    | some v => exact .pure (some v)
    | none =>
      exact interpretStatements hP hmark ss fun id call h =>
        hemit id call (List.mem_append_right _ h)

end

include hP hmark

theorem function (f : Function) (hemit : ∀ id call,
      .emit id call ∈ spliceAll f.body.statements → Keeps P (Session.emit id call)) :
    Keeps P (interpret (.function f)) :=
  hP.within hmark _ _ ((hmark _).bind fun _ => hP.interpretStatements hmark _ hemit)

/-- What survives the emits of the statements holds in every session that they meet. -/
theorem meets {ss : List Statement} {s u : Session} (h : Meets ss s u)
    (hemit : ∀ id call, .emit id call ∈ spliceAll ss → Keeps P (Session.emit id call)) (hs : P s) :
    P u := by
  induction h with
  | statement => exact hs
  | inside henter _ ih =>
    have hentered := (hP.enter hmark _ _).of_eq henter hs
    exact ih (fun id call h => hemit id call (List.mem_append_left _ h)) hentered
  | argument henter _ _ log log' hbefore =>
    have hentered := (hP.enter hmark _ _).of_eq henter hs
    have hevaluated := (hP.emitArguments _ _ 0).of_eq hbefore (hP.drawn hentered _ log)
    exact hP.drawn hevaluated _ log'
  | returned henter => exact (hP.enter hmark _ _).of_eq henter hs
  | next hstep _ ih =>
    have hstepped := (hP.interpretStatement hmark _ fun id call h =>
      hemit id call (List.mem_append_left _ h)).of_eq hstep hs
    exact ih (fun id call h => hemit id call (List.mem_append_right _ h)) hstepped

end Steady

end Session

end ContractTrace
