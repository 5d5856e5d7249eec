import ContractTrace.Proofs.History
import ContractTrace.Proofs.Invariants
import ContractTrace.Proofs.Traversal

/-! What a call covers. The nodes of a body are met depth first and from left to right, up to and
including the first return or the first statement that fails, and these are what the call adds to
the coverage, with the function and its body. No operation takes a mark back. -/

namespace ContractTrace

/-! ### Tours -/

namespace Flat.Context

/-- What a node does by itself; what it holds is left to the nodes below it. -/
def visit (c : Context) : Node → Task Progress RunError (Option Value)
  | .function _ | .block _ | .statement (.block ..) => pure none
  | .statement (.emit id call) => do
    c.emit id call
    return none
  | .statement (.ret _ expression) => do return some (← c.returned expression)
  | .statement s => Task.fail (.unsupportedNode (.statement s.kind) s.id)

/-- Visits nodes in order, up to the first that gives a value or fails. -/
def tour (c : Context) : List Node → Task Progress RunError (Option Value)
  | [] => pure none
  | n :: ns => c.visit n >>= andThen (c.tour ns)

/-- The nodes that a tour meets, the one that ends it included. -/
def met (c : Context) : List Node → Progress → List Node
  | [], _ => []
  | n :: ns, p =>
    match c.visit n p with
    | (.ok none, p') => n :: c.met ns p'
    | _ => [n]

variable (c : Context)

theorem tour_append (ns ms : List Node) :
    c.tour (ns ++ ms) = c.tour ns >>= andThen (c.tour ms) := by
  induction ns with
  | nil => rfl
  | cons n ns ih =>
    rw [List.cons_append, tour, ih, tour, Task.bind_bind]
    congr 1
    funext result
    cases result <;> rfl

theorem tour_singleton (n : Node) : c.tour [n] = c.visit n := by
  refine Eq.trans ?_ (Task.bind_pure_self (c.visit n))
  rw [tour]
  congr 1
  funext result
  cases result <;> rfl

theorem met_singleton (n : Node) (p : Progress) : c.met [n] p = [n] := by
  rw [met]
  split <;> rfl

/-- A tour that ends in its first part meets nothing of the second. -/
theorem met_append (ns ms : List Node) (p : Progress) :
    c.met (ns ++ ms) p = c.met ns p ++ match c.tour ns p with
      | (.ok none, p') => c.met ms p'
      | _ => [] := by
  induction ns generalizing p with
  | nil => rfl
  | cons n ns ih =>
    rw [List.cons_append, met, met, tour, Task.bind_apply]
    rcases c.visit n p with ⟨e | _ | v, p'⟩
    · rfl
    · exact congrArg (List.cons n) (ih p')
    · rfl

/-! ### Tours of bodies -/

/-- Nothing is below an emit or a return. -/
theorem walk_emit (id : NodeId) (call : Call) :
    (Node.ofStatement (.emit id call)).walk = [.statement (.emit id call)] :=
  Node.walk_eq _

theorem walk_ret (id : NodeId) (expression : Option Expression) :
    (Node.ofStatement (.ret id expression)).walk = [.statement (.ret id expression)] :=
  Node.walk_eq _

variable {c} in
/-- Of a node that fails nothing below it is met. -/
theorem tour_walk_of_fails {n : Node} {e : RunError} (h : c.visit n = Task.fail e) :
    c.tour n.walk = Task.fail e ∧ ∀ p, c.met n.walk p = [n] := by
  rw [n.walk_eq, tour, h]
  refine ⟨rfl, fun p => ?_⟩
  rw [met, h]
  rfl

mutual

/-- The tour of the nodes of a statement is the walk over the flat statement. -/
theorem tour_walk : ∀ s : Statement, c.tour (Node.ofStatement s).walk = c.walk (splice s)
  | .block id ss => by
    rw [Node.ofStatement, Node.walk_block, splice, ← tour_walkAll ss]
    rfl
  | .emit id call => by
    rw [walk_emit, tour_singleton]
    rfl
  | .ret id expression => by
    rw [walk_ret, tour_singleton]
    rfl
  | .effect .. | .declaration .. | .conditional .. | .whileLoop .. | .doWhileLoop ..
  | .forLoop .. | .breakLoop .. | .continueLoop .. | .placeholder .. | .revert .. =>
    (tour_walk_of_fails rfl).1

theorem tour_walkAll : ∀ ss : List Statement, c.tour (Node.walkAll ss) = c.walk (spliceAll ss)
  | [] => rfl
  | s :: ss => by
    rw [Node.walkAll_cons, tour_append, tour_walk s, tour_walkAll ss, spliceAll, walk_append]

end

end Flat.Context

/-! ### Marks -/

/-- The second coverage is the first with the given marks. -/
def Coverage.Adds (a : Coverage) (ids : List NodeId) (b : Coverage) : Prop :=
  ∀ id, b.covered.contains id = true ↔ a.covered.contains id = true ∨ id ∈ ids

namespace Coverage.Adds

variable {a b c : Coverage} {ids ids' : List NodeId} {id : NodeId}

theorem refl (a : Coverage) : a.Adds [] a := by
  intro x
  simp

theorem mark (h : (a.mark id).2.Adds ids b) : a.Adds (id :: ids) b := by
  intro x
  rw [h x, contains_mark, List.mem_cons]
  simp only [Bool.or_eq_true, beq_iff_eq]
  tauto

theorem trans (hab : a.Adds ids b) (hbc : b.Adds ids' c) : a.Adds (ids ++ ids') c := by
  intro x
  rw [hbc x, hab x, List.mem_append, or_assoc]

end Coverage.Adds

namespace Session

open Flat
open ContractTrace.Task (Keeps Simulates never bind_apply bind_of_ok)

/-! ### Statements -/

variable {base : Session} {frame₀ : Frame} {rest : List Frame} {s : Session} {p : Progress}

/-- A property of the coverage alone. -/
theorem steady_coverage (C : Coverage → Prop) : Steady fun s => C s.coverage :=
  ⟨⟨fun h _ _ => h⟩, fun h _ => h⟩

/-- A node is marked, and whatever is marked inside of it. -/
theorem within_adds {body : Action (Option Value)} {ids : List NodeId} (kind : NodeKind)
    (id : NodeId) (hs : InCall base frame₀ rest s p)
    (hbody : ∀ s', InCall base frame₀ rest s' p → s'.coverage.Adds ids (body s').2.coverage) :
    s.coverage.Adds (id :: ids) (within kind id body s).2.coverage := by
  have henter : ∃ s', enter kind id s = (.ok (), s') ∧ InCall base frame₀ rest s' p ∧
      s'.coverage = (s.coverage.mark id).2 := by
    obtain ⟨scope, coverage, log, rfl⟩ := hs
    exact ⟨_, rfl, ⟨scope.enter id, _, _, rfl⟩, rfl⟩
  obtain ⟨s', henter, hs', hmarked⟩ := henter
  have hinside := hbody s' hs'
  rw [hmarked] at hinside
  -- leaving the node takes nothing back and adds nothing
  have hleave : ∀ result, Keeps (fun u => (s.coverage.mark id).2.Adds ids u.coverage) (do
      let _ ← frame "do_interpret"
      Task.modify fun s : Session => { s with stack := s.stack.mapScope (·.leave id) }
      return result : Action (Option Value)) := fun result =>
    (Quiet.frame _).bind fun _ => ((steady_coverage _).mapScope _).bind fun _ => .pure result
  rw [within_eq_enter, bind_of_ok henter, bind_apply]
  refine Coverage.Adds.mark ?_
  rcases hresult : body s' with ⟨e | result, u⟩ <;> rw [hresult] at hinside
  · exact hinside
  · exact hleave result u hinside

/-- What marks nothing of its own. -/
theorem adds_nil {α : Type} {x : Action α} (h : ∀ C : Coverage → Prop, Keeps (C ·.coverage) x)
    (s : Session) : s.coverage.Adds [] (x s).2.coverage :=
  h (s.coverage.Adds []) s (.refl _)

theorem emit_adds_nil (id : NodeId) (call : Call) (s : Session) :
    s.coverage.Adds [] ((do
      emit id call
      return none : Action (Option Value)) s).2.coverage :=
  adds_nil (fun C => ((steady_coverage C).emit (fun h _ => h) id call).bind fun _ => .pure none) s

theorem returned_adds_nil (expression : Option Expression) (s : Session) :
    s.coverage.Adds [] ((do
      return some (← returned expression) : Action (Option Value)) s).2.coverage :=
  adds_nil (fun C => ((steady_coverage C).returned expression).bind fun v => .pure (some v)) s

mutual

/-- Interpreting a statement marks the nodes that the tour of its nodes meets. -/
theorem interpretStatement_adds : ∀ (t : Statement) {s : Session} {p : Progress},
    InCall base frame₀ rest s p →
    s.coverage.Adds (((callContext base frame₀).met (Node.ofStatement t).walk p).map Node.id)
      (interpretStatement t s).2.coverage
  | .block id ss, s, p, hs => by
    rw [interpretStatement, Node.ofStatement, Node.walk_block]
    exact within_adds _ id hs fun s' hs' => interpretStatements_adds ss hs'
  | .emit id call, s, p, hs => by
    rw [interpretStatement, Context.walk_emit, Context.met_singleton]
    exact within_adds _ id hs fun s' _ => emit_adds_nil id call s'
  | .ret id expression, s, p, hs => by
    rw [interpretStatement, Context.walk_ret, Context.met_singleton]
    exact within_adds _ id hs fun s' _ => returned_adds_nil expression s'
  | .effect .., s, p, hs | .declaration .., s, p, hs | .conditional .., s, p, hs
  | .whileLoop .., s, p, hs | .doWhileLoop .., s, p, hs | .forLoop .., s, p, hs
  | .breakLoop .., s, p, hs | .continueLoop .., s, p, hs | .placeholder .., s, p, hs
  | .revert .., s, p, hs => by
    rw [(Context.tour_walk_of_fails rfl).2]
    simp only [interpretStatement]
    exact within_adds _ _ hs fun s' _ => .refl _

theorem interpretStatements_adds : ∀ (ss : List Statement) {s : Session} {p : Progress},
    InCall base frame₀ rest s p →
    s.coverage.Adds (((callContext base frame₀).met (Node.walkAll ss) p).map Node.id)
      (interpretStatements ss s).2.coverage
  | [], s, p, _ => by
    rw [interpretStatements]
    exact .refl _
  | t :: ts, s, p, hs => by
    have hfirst := interpretStatement_adds t hs
    have hsame := (interpretStatement_simulates t s p hs).exact
    rw [interpretStatements, Node.walkAll_cons, Context.met_append, Context.tour_walk,
      List.map_append, bind_apply]
    rcases hr : interpretStatement t s with ⟨result, s'⟩
    rcases hw : (callContext base frame₀).walk (splice t) p with ⟨result', p'⟩
    rw [hr, hw] at hsame
    rw [hr] at hfirst
    obtain ⟨rfl, hs'⟩ := hsame
    -- only a statement that gives no value is followed by the next one
    rcases result with e | _ | v
    · exact hfirst.trans (.refl _)
    · exact hfirst.trans (interpretStatements_adds ts hs')
    · exact hfirst.trans (.refl _)

end

/-! ### Transactions -/

/-- What the statements of the called function see, whatever calls are in progress. -/
def calledContext (s : Session) (t : Transaction) (contract : Contract) (function : Function)
    (storage : Environment) : Context :=
  ⟨s.configuration.errorPolicy, contract,
    bindArguments (s.stack.depth + 1) .locals function.parameters t.arguments, storage⟩

/-- Behind its body a call marks nothing more. -/
theorem coverage_call (contract : Contract) (function : Function) (s : Session) :
    (call contract function s).2.coverage =
      (interpret (.function function) { s with trace := s.trace.start }).2.coverage := by
  rw [call]
  rcases interpret (.function function) { s with trace := s.trace.start } with ⟨result, s'⟩
  dsimp only
  cases s'.stack.pop "interpret_transaction" with
  | error e => rfl
  | ok popped => cases result <;> rfl

/-- A call marks the function and the nodes that the tour of its body meets. -/
theorem interpret_function_adds (function : Function) (hs : InCall base frame₀ rest s p) :
    s.coverage.Adds (function.id ::
        ((callContext base frame₀).met (Node.block function.body).walk p).map Node.id)
      (interpret (.function function) s).2.coverage := by
  rw [Node.walk_block]
  refine within_adds _ _ hs fun s' hs' => Coverage.Adds.mark ?_
  exact interpretStatements_adds function.body.statements
    ((mark_passes function.body.id).rel_of_eq hs' rfl)

theorem Admits.interpretTransaction_adds {t : Transaction} {contract : Contract}
    {function : Function} {storage : Environment} (h : Admits s t contract function storage) :
    s.coverage.Adds (function.id ::
        ((calledContext s t contract function storage).met (Node.block function.body).walk
          ⟨s.generator, []⟩).map Node.id)
      (interpretTransaction t s).2.coverage := by
  obtain ⟨log, hcall⟩ := interpretTransaction_of_admits_call h
  rw [hcall, coverage_call]
  have hstart : InCall { pushed s t contract function storage with log }
      (.call contract function t.arguments
        (bindArguments (s.stack.depth + 1) .locals function.parameters t.arguments))
      s.stack.frames { pushed s t contract function storage with trace := s.trace.start, log }
      ⟨s.generator, []⟩ := ⟨.empty, s.coverage, log, rfl⟩
  exact interpret_function_adds function hstart

/-- A transaction ends as the tour of the body ends. -/
theorem Admits.interpretTransaction_eq_tour {t : Transaction} {contract : Contract}
    {function : Function} {storage : Environment} (h : Admits s t contract function storage) :
    (interpretTransaction t s).1 = ((calledContext s t contract function storage).tour
      (Node.block function.body).walk ⟨s.generator, []⟩).1 := by
  obtain ⟨log, hcall⟩ := interpretTransaction_of_admits_call h
  obtain ⟨result, p, coverage, log', hwalk, hended⟩ :=
    call_apply (s := { pushed s t contract function storage with log }) rfl contract function
  have htour : (calledContext s t contract function storage).tour (Node.block function.body).walk =
      (calledContext s t contract function storage).walk
        (spliceAll function.body.statements) := by
    rw [← Context.tour_walkAll, Node.walk_block]
    rfl
  rw [hcall, hended, htour]
  exact (congrArg Prod.fst hwalk).symm

/-! ### All operations -/

/-- The node is covered. -/
def Covered (id : NodeId) (s : Session) : Prop := s.coverage.covered.contains id = true

/-- A session goes in lockstep with itself. -/
theorem covered_lockstep (id : NodeId) :
    Lockstep (Beside fun a _ => a.covered.contains id = true) never :=
  beside_lockstep fun {a _} h other => by
    rw [Coverage.contains_mark, h, Bool.or_true]

theorem keeps_covered {α : Type} {x : Action α} {id : NodeId}
    (h : Simulates (Beside fun a _ => a.covered.contains id = true) never x x) :
    Keeps (Covered id) x :=
  fun s hs => (h s s ⟨rfl, rfl, rfl, rfl, hs⟩).exact.2.coverage

theorem interpret_covered (id : NodeId) (n : Node) : Keeps (Covered id) (interpret n) := by
  have h := covered_lockstep id
  apply keeps_covered
  cases n with
  | function f => exact h.within _ _ ((h.mark _).bind fun _ => h.interpretStatements _)
  | block b => exact h.within _ _ (h.interpretStatements _)
  | statement s => exact h.interpretStatement s

theorem interpretEach_covered (id : NodeId) (ns : List Node) :
    Keeps (Covered id) (interpretEach ns) := by
  induction ns with
  | nil => exact .pure none
  | cons n ns ih =>
    refine (interpret_covered id n).bind fun result => ?_
    cases result with
    | some v => exact .pure (some v)
    | none => exact ih

theorem run_covered (id : NodeId) : Keeps (Covered id) run := by
  intro s hs
  have hruns := keeps_covered ((covered_lockstep id).runTransactions s.program.transactions)
    s.cleared hs
  rcases hr : runTransactions s.program.transactions s.cleared with ⟨e | _, s'⟩ <;>
    rw [hr] at hruns
  · obtain ⟨log, hrun⟩ := run_of_error hr
    rw [hrun]
    exact hruns
  · obtain ⟨log, hrun⟩ := run_of_ok hr
    rw [hrun]
    exact hruns

theorem finish_covered (id : NodeId) (files : FileSystem) {s : Session} (hs : s.Covered id) :
    (Session.finish (s, files)).2.1.Covered id := by
  simp only [Session.finish]
  split
  · exact hs
  · split <;> exact hs

theorem perform_covered (id : NodeId) (o : Operation) {s : Session} (hs : s.Covered id) :
    (o.perform s).Covered id := by
  have h := covered_lockstep id
  cases o with
  | run => exact run_covered id s hs
  | transaction t => exact keeps_covered (h.interpretTransaction t) s hs
  | seed contract => exact keeps_covered (h.seedStorage contract) s hs
  | interpret n => exact interpret_covered id n s hs
  | interpretChildren n => exact interpretEach_covered id n.children s hs
  | emit node call => exact keeps_covered (h.emit node call) s hs
  | finish files => exact finish_covered id files hs
  | write writer => exact hs

/-- A transaction that passes its checks covers, besides what was covered, its function, the body
and the nodes of the body up to and including the first that returns or fails, which is where the
transaction ends; and whatever is done with a session, what is covered stays covered. -/
theorem coverage_exact :
    (∀ (s : Session) (t : Transaction) (contract : Contract) (function : Function)
        (storage : Environment), Admits s t contract function storage →
      let c := calledContext s t contract function storage
      let nodes := (Node.block function.body).walk
      (∀ id, (interpretTransaction t s).2.Covered id ↔ s.Covered id ∨ id = function.id ∨
        id = function.body.id ∨ ∃ n ∈ c.met nodes ⟨s.generator, []⟩, n.id = id) ∧
      (interpretTransaction t s).1 = (c.tour nodes ⟨s.generator, []⟩).1) ∧
    ∀ (o : Operation) (s : Session) (id : NodeId), s.Covered id → (o.perform s).Covered id := by
  refine ⟨fun s t contract function storage h => ⟨fun id => ?_, h.interpretTransaction_eq_tour⟩,
    fun o s id hs => perform_covered id o hs⟩
  have hadds := h.interpretTransaction_adds id
  rw [List.mem_cons, List.mem_map] at hadds
  refine hadds.trans (or_congr_right (or_congr_right ⟨.inr, ?_⟩))
  -- the body is the first node of its walk
  rintro (rfl | hmet)
  · rw [Node.walk_block]
    exact ⟨.block function.body, List.mem_cons_self, rfl⟩
  · exact hmet

/-- Two blocks deep an emit of a variable that is not declared, and statements behind it. -/
def stopsDeep : Function :=
  let emit (id : NodeId) (name : String) (arguments : List Expression) : Statement :=
    .emit id ⟨id, .identifier id name none, arguments⟩
  ⟨3, "f", [], ⟨4, [emit 5 "A" [.identifier 20 "x" none],
    .block 6 [.block 7 [emit 8 "B" [.identifier 21 "y" none], .ret 9 none], emit 10 "A" []],
    .ret 11 none]⟩⟩

def stopping : Contract :=
  ⟨1, "C", [⟨2, "x", .integer .uint256, some (.integer 5 .uint256)⟩], [], [stopsDeep]⟩

/-- The call fails at the second emit, and what stands behind it is not covered. -/
theorem coverage_exact_stopping :
    let s := start ⟨⟨[stopping]⟩, []⟩ {}
    let t : Transaction := ⟨"C", "f", []⟩
    let storage := Environment.storage.add
      ⟨⟨2, "x", .integer .uint256⟩, 0, [.integer 5 .uint256]⟩
    Admits s t stopping stopsDeep storage ∧
      (interpretTransaction t s).1 = .error (.evaluation (.undeclaredIdentifier "y")) ∧
      ∀ id, (interpretTransaction t s).2.Covered id ↔ id ∈ [3, 4, 5, 6, 7, 8] := by
  intro s t storage
  have hadmits : Admits s t stopping stopsDeep storage := ⟨rfl, rfl, rfl, rfl⟩
  obtain ⟨hcovered, hresult⟩ := coverage_exact.1 s t stopping stopsDeep storage hadmits
  have htour : ∀ g, ((calledContext s t stopping stopsDeep storage).met
        (Node.block stopsDeep.body).walk ⟨g, []⟩).map Node.id = [4, 5, 6, 7, 8] ∧
      ((calledContext s t stopping stopsDeep storage).tour
        (Node.block stopsDeep.body).walk ⟨g, []⟩).1 =
          .error (.evaluation (.undeclaredIdentifier "y")) := by
    intro g
    simp only [stopsDeep, Node.walk_eq, Node.children, Node.below, Node.ofStatement, List.map_cons,
      List.map_nil, List.flatMap_cons, List.flatMap_nil, List.append_nil, List.cons_append,
      List.nil_append]
    exact ⟨rfl, rfl⟩
  refine ⟨hadmits, hresult.trans (htour _).2, fun id => ?_⟩
  have hfresh : ¬ s.Covered id := by simp [Covered, s, start, Coverage.empty, IdSet.empty,
    IdSet.contains]
  rw [hcovered id, ← List.mem_map, (htour _).1]
  simp [hfresh, stopsDeep]

end Session

end ContractTrace
