import ContractTrace.Proofs.Coverage

/-! The path of a call. A node that is interpreted without failure leaves the path of active nodes
as it was. One that fails leaves the nodes on it that lead to the failure, from the given node to
the one that fails by itself, whatever ids these have. What is entered on the way is covered. -/

namespace ContractTrace

/-! ### Scopes -/

namespace Scope

variable {scope : Scope} {id : NodeId}

theorem active_enter (scope : Scope) (id : NodeId) :
    (scope.enter id).active = scope.active ++ [id] := by
  simp [active, enter]

theorem hasEntered_enter (scope : Scope) (id other : NodeId) :
    (scope.enter id).hasEntered other = true ↔ other = id ∨ scope.hasEntered other = true := by
  simp [hasEntered, enter, IdSet.contains, IdSet.insert, IdSet.mem_insertSorted]

/-- Leaving the innermost node takes it off the path. -/
theorem active_leave {ids : List NodeId} (h : scope.active = ids ++ [id]) :
    (scope.leave id).active = ids := by
  have hpath : scope.path = id :: ids.reverse := by
    rw [← List.reverse_reverse scope.path, ← active, h]
    simp
  simp [active, leave, hpath]

theorem hasEntered_leave (scope : Scope) (id other : NodeId) :
    (scope.leave id).hasEntered other = scope.hasEntered other := by
  rw [leave]
  split
  · split_ifs <;> rfl
  · rfl

end Scope

/-! ### What a node does -/

namespace Node

/-- The nodes that are interpreted inside of a node. A function has those of its body. -/
def held : Node → List Node
  | .function f => f.body.statements.map ofStatement
  | .block b => b.statements.map ofStatement
  | .statement (.block _ statements) => statements.map ofStatement
  | .statement _ => []

theorem size_lt_of_mem_held {n m : Node} (h : m ∈ n.held) : m.size < n.size := by
  cases n with
  | function f =>
    have hbody : (Node.block f.body).size < (Node.function f).size := by
      simp [size]
    exact (size_lt_of_mem_children (show m ∈ (Node.block f.body).children from h)).trans hbody
  | block b => exact size_lt_of_mem_children h
  | statement s =>
    cases s with
    | block id ss => exact size_lt_of_mem_children h
    | _ => cases h

end Node

namespace Session

open ContractTrace.Task (bind_bind bind_eq_error bind_apply_eq_ok bind_of_error bind_of_ok)

/-- What a node does by itself, before what it holds is interpreted. -/
def own : Node → Action (Option Value)
  | .function f => do
    mark f.body.id
    return none
  | .block _ | .statement (.block ..) => pure none
  | .statement (.emit id call) => do
    emit id call
    return none
  | .statement (.ret _ expression) => do return some (← returned expression)
  | .statement s => Task.fail (.unsupportedNode (.statement s.kind) s.id)

/-- What follows a node unless the node gives a value. -/
def unlessValue (next : Action (Option Value)) : Option Value → Action (Option Value)
  | some v => return some v
  | none => next

theorem interpret_ofStatement (s : Statement) :
    interpret (Node.ofStatement s) = interpretStatement s := by
  cases s <;> simp [Node.ofStatement, interpret, interpretStatement]

theorem interpretEach_cons (n : Node) (ns : List Node) :
    interpretEach (n :: ns) = interpret n >>= unlessValue (interpretEach ns) := by
  rw [interpretEach]
  rfl

theorem interpretStatements_eq (ss : List Statement) :
    interpretStatements ss = interpretEach (ss.map Node.ofStatement) := by
  induction ss with
  | nil => rw [interpretStatements]; rfl
  | cons s ss ih =>
    rw [List.map_cons, interpretEach_cons, interpretStatements, interpret_ofStatement, ih]
    rfl

/-- A node is entered, does what it does, has interpreted what it holds, and is left. -/
theorem interpret_eq (n : Node) : interpret n =
    within n.kind n.id (own n >>= unlessValue (interpretEach n.held)) := by
  cases n with
  | function f =>
    rw [interpret, interpretStatements_eq]
    rfl
  | block b =>
    rw [interpret, interpretStatements_eq]
    rfl
  | statement s =>
    rw [interpret]
    cases s with
    | block id ss =>
      rw [interpretStatement, interpretStatements_eq]
      rfl
    | emit id call =>
      rw [interpretStatement, own, bind_bind]
      rfl
    | ret id expression =>
      rw [interpretStatement, own, bind_bind]
      rfl
    | _ =>
      simp only [interpretStatement]
      rfl

/-! ### Paths -/

/-- The second session is in the same call as the first, with `ids` behind its path of active
nodes. What was entered since then is covered, and what was covered still is. -/
structure Deepens (ids : List NodeId) (s s' : Session) : Prop where
  scope : ∃ frame rest scope, s.stack.frames = frame :: rest ∧
    s'.stack.frames = { frame with scope } :: rest ∧
    scope.active = frame.scope.active ++ ids ∧
    ∀ id, scope.hasEntered id = true → frame.scope.hasEntered id = true ∨ s'.Covered id
  covered : ∀ id, s.Covered id → s'.Covered id

namespace Deepens

variable {ids ids' : List NodeId} {id : NodeId} {s s' s'' : Session}

theorem trans (h : Deepens ids s s') (h' : Deepens ids' s' s'') : Deepens (ids ++ ids') s s'' := by
  obtain ⟨⟨frame, rest, scope, hs, hs', hactive, hentered⟩, hcovered⟩ := h
  obtain ⟨⟨frame', rest', scope', ht, ht', hactive', hentered'⟩, hcovered'⟩ := h'
  obtain ⟨rfl, rfl⟩ : frame' = { frame with scope } ∧ rest = rest' := by
    rw [hs', List.cons.injEq] at ht
    exact ⟨ht.1.symm, ht.2⟩
  refine ⟨⟨frame, rest, scope', hs, ht', ?_, fun id hid => ?_⟩, fun id hid =>
    hcovered' id (hcovered id hid)⟩
  · rw [hactive', hactive, List.append_assoc]
  · rcases hentered' id hid with hid | hid
    · exact (hentered id hid).imp_right (hcovered' id)
    · exact .inr hid

/-- A step that changes neither the stack nor takes a mark back. -/
theorem of_stack_eq {frame : Frame} {rest : List Frame} (hs : s.stack.frames = frame :: rest)
    (hstack : s'.stack = s.stack) (hcovered : ∀ id, s.Covered id → s'.Covered id) :
    Deepens [] s s' :=
  ⟨⟨frame, rest, frame.scope, hs, by rw [hstack, hs], (List.append_nil _).symm, fun _ => .inl⟩,
    hcovered⟩

theorem frames_ne_nil (h : Deepens ids s s') : s'.stack.frames ≠ [] := by
  obtain ⟨⟨frame, rest, scope, -, hs', -, -⟩, -⟩ := h
  rw [hs']
  exact List.cons_ne_nil _ _

theorem exists_scope {frame : Frame} {rest : List Frame} (h : Deepens ids s s')
    (hs : s.stack.frames = frame :: rest) :
    ∃ scope, s'.stack.frames = { frame with scope } :: rest ∧
      scope.active = frame.scope.active ++ ids ∧
      ∀ id, scope.hasEntered id = true → frame.scope.hasEntered id = true ∨ s'.Covered id := by
  obtain ⟨⟨frame', rest', scope, hs', hscope⟩, -⟩ := h
  rw [hs] at hs'
  cases hs'
  exact ⟨scope, hscope⟩

/-- Leaving the innermost node takes back what entering it did to the path. -/
theorem leave (h : Deepens (ids ++ [id]) s s') :
    Deepens ids s { s' with stack := s'.stack.mapScope (·.leave id) } := by
  obtain ⟨⟨frame, rest, scope, hs, hs', hactive, hentered⟩, hcovered⟩ := h
  refine ⟨⟨frame, rest, scope.leave id, hs, ?_, ?_, fun other hother => ?_⟩, hcovered⟩
  · simp only [CallStack.mapScope, hs']
  · rw [← List.append_assoc] at hactive
    exact Scope.active_leave hactive
  · rw [Scope.hasEntered_leave] at hother
    exact hentered other hother

end Deepens

variable {s s' : Session} {kind : NodeKind} {id : NodeId} {n : Node}

theorem covered_mark (id other : NodeId) (s : Session) :
    (mark id s).2.Covered other ↔ other = id ∨ s.Covered other := by
  simp only [Covered, mark, Task.modify_apply, Coverage.contains_mark]
  simp

theorem frame_ok {frame : Frame} {rest : List Frame} (hs : s.stack.frames = frame :: rest)
    (operation : String) : Session.frame operation s = (.ok frame, s) := by
  rw [Session.frame, CallStack.current, hs]

/-- In a call, any node can be entered. -/
theorem enter_deepens (hs : s.stack.frames ≠ []) (kind : NodeKind) (id : NodeId) :
    ∃ s', enter kind id s = (.ok (), s') ∧ Deepens [id] s s' := by
  obtain ⟨frame, rest, hframes⟩ := List.exists_cons_of_ne_nil hs
  have hmarked : (mark id s).2.stack.frames = frame :: rest := hframes
  refine ⟨_, (bind_of_ok rfl _).trans (bind_of_ok (frame_ok hmarked _) _), ?_, ?_⟩
  · refine ⟨frame, rest, frame.scope.enter id, hframes, ?_, Scope.active_enter _ _, ?_⟩
    · show (CallStack.mapScope s.stack _).frames = _
      rw [CallStack.mapScope, hframes]
    · intro other hother
      rcases (Scope.hasEntered_enter _ _ _).1 hother with rfl | hother
      · exact .inr ((covered_mark _ _ s).2 (.inl rfl))
      · exact .inl hother
  · intro other hother
    exact (covered_mark _ _ s).2 (.inr hother)

theorem deepens_of_enter (hs : s.stack.frames ≠ []) (h : enter kind id s = (.ok (), s')) :
    Deepens [id] s s' := by
  obtain ⟨u, hu, hentered⟩ := enter_deepens hs kind id
  rw [h] at hu
  cases hu
  exact hentered

/-- What a node does by itself does not touch the path. -/
theorem own_deepens (hs : s.stack.frames ≠ []) {result : Except RunError (Option Value)}
    (h : own n s = (result, s')) : Deepens [] s s' := by
  obtain rfl : (own n s).2 = s' := congrArg Prod.snd h
  obtain ⟨frame, rest, hframes⟩ := List.exists_cons_of_ne_nil hs
  have hquiet : Quiet fun u => u.stack = s.stack ∧ u.coverage = s.coverage :=
    ⟨fun h _ _ => h⟩
  have hkept : (own n s).2.stack = s.stack ∧ (own n s).2.coverage = s.coverage →
      Deepens [] s (own n s).2 := fun h =>
    .of_stack_eq hframes h.1 fun id hid => by rwa [Covered, h.2]
  cases n with
  | function f =>
    exact .of_stack_eq hframes rfl fun id hid => (covered_mark _ _ s).2 (.inr hid)
  | block b => exact hkept ⟨rfl, rfl⟩
  | statement t =>
    apply hkept
    cases t with
    | emit id call =>
      exact ((hquiet.emit (fun h _ => h) id call).bind fun _ => .pure none) s ⟨rfl, rfl⟩
    | ret id expression =>
      exact ((hquiet.returned expression).bind fun v => .pure (some v)) s ⟨rfl, rfl⟩
    | _ => exact ⟨rfl, rfl⟩

/-! ### Success -/

variable {ns : List Node} {e : RunError} {v : Option Value}

/-- If it is interpreted without failure, the node leaves the path as it was. -/
def Balanced (n : Node) : Prop :=
  ∀ s s' v, s.stack.frames ≠ [] → interpret n s = (.ok v, s') → Deepens [] s s'

theorem interpretEach_deepens (hns : ∀ n ∈ ns, Balanced n) (hs : s.stack.frames ≠ [])
    (h : interpretEach ns s = (.ok v, s')) : Deepens [] s s' := by
  induction ns generalizing s with
  | nil =>
    obtain ⟨frame, rest, hframes⟩ := List.exists_cons_of_ne_nil hs
    cases h
    exact .of_stack_eq hframes rfl fun _ => id
  | cons n ns ih =>
    rw [interpretEach_cons] at h
    obtain ⟨result, u, hn, h⟩ := bind_apply_eq_ok h
    have hfirst := hns n List.mem_cons_self s u result hs hn
    cases result with
    | some v =>
      cases h
      exact hfirst
    | none =>
      exact hfirst.trans (ih (fun m hm => hns m (List.mem_cons_of_mem n hm)) hfirst.frames_ne_nil h)

/-- Between entering and leaving a node the path stays as entering left it. -/
theorem body_deepens (hheld : ∀ m ∈ n.held, Balanced m) (hs : s.stack.frames ≠ [])
    (h : (own n >>= unlessValue (interpretEach n.held)) s = (.ok v, s')) : Deepens [] s s' := by
  obtain ⟨result, u, hown, h⟩ := bind_apply_eq_ok h
  have hfirst := own_deepens hs hown
  cases result with
  | some v =>
    cases h
    exact hfirst
  | none => exact hfirst.trans (interpretEach_deepens hheld hfirst.frames_ne_nil h)

theorem balanced_of_held (hheld : ∀ m ∈ n.held, Balanced m) : Balanced n := by
  intro s s' v hs h
  rw [interpret_eq, within_eq_enter] at h
  obtain ⟨_, s₁, henter, h⟩ := bind_apply_eq_ok h
  obtain ⟨result, s₂, hbody, h⟩ := bind_apply_eq_ok h
  obtain ⟨_, s₃, hframe, h⟩ := bind_apply_eq_ok h
  obtain rfl : s₂ = s₃ := congrArg Prod.snd hframe
  cases h
  -- the innermost active id is again that of the node, so that leaving it is not ignored
  have hentered := deepens_of_enter hs henter
  have hinside := hentered.trans (body_deepens hheld hentered.frames_ne_nil hbody)
  exact Deepens.leave hinside

theorem balanced (n : Node) : Balanced n := balanced_of_held fun m _ => balanced m
termination_by n.size
decreasing_by exact Node.size_lt_of_mem_held (by assumption)

/-! ### Failure -/

/-- Interpreting the node fails, and `path` leads from it to the node that fails by itself: the
nodes on the way are entered, and what they hold before the path is interpreted to its end. -/
inductive Fails : Node → Session → List Node → RunError → Session → Prop
  | here {n : Node} {s s₁ s' : Session} {e : RunError}
      (henter : enter n.kind n.id s = (.ok (), s₁)) (hown : own n s₁ = (.error e, s')) :
      Fails n s [n] e s'
  | inside {n child : Node} {before after path : List Node} {s s₁ s₂ s₃ s' : Session} {e : RunError}
      (henter : enter n.kind n.id s = (.ok (), s₁)) (hown : own n s₁ = (.ok none, s₂))
      (hheld : n.held = before ++ child :: after)
      (hbefore : interpretEach before s₂ = (.ok none, s₃)) (h : Fails child s₃ path e s') :
      Fails n s (n :: path) e s'

/-- The nodes on the way to a failure stay on the path. -/
theorem Fails.deepens {path : List Node} (h : Fails n s path e s') (hs : s.stack.frames ≠ []) :
    Deepens (path.map Node.id) s s' := by
  induction h with
  | here henter hown =>
    have hentered := deepens_of_enter hs henter
    exact hentered.trans (own_deepens hentered.frames_ne_nil hown)
  | inside henter hown hheld hbefore h ih =>
    have hentered := deepens_of_enter hs henter
    have hfirst := own_deepens hentered.frames_ne_nil hown
    have hpassed := interpretEach_deepens (fun m _ => balanced m) hfirst.frames_ne_nil hbefore
    exact hentered.trans (hfirst.trans (hpassed.trans (ih hpassed.frames_ne_nil)))

theorem interpretEach_append {before : List Node} (h : interpretEach before s = (.ok none, s'))
    (ns : List Node) : interpretEach (before ++ ns) s = interpretEach ns s' := by
  induction before generalizing s with
  | nil =>
    cases h
    rfl
  | cons n before ih =>
    rw [interpretEach_cons] at h
    obtain ⟨result, u, hn, h⟩ := bind_apply_eq_ok h
    rw [List.cons_append, interpretEach_cons, bind_of_ok hn]
    cases result with
    | some v => cases h
    | none => exact ih h

theorem Fails.interpret_eq {path : List Node} (h : Fails n s path e s') :
    interpret n s = (.error e, s') := by
  induction h with
  | here henter hown =>
    rw [Session.interpret_eq, within_eq_enter, bind_of_ok henter]
    exact bind_of_error (bind_of_error hown _) _
  | @inside n child before after path s s₁ s₂ s₃ s' e henter hown hheld hbefore h ih =>
    have hfailing : interpretEach n.held s₂ = (.error e, s') := by
      rw [hheld, interpretEach_append hbefore, interpretEach_cons, bind_of_error ih]
    rw [Session.interpret_eq, within_eq_enter, bind_of_ok henter]
    exact bind_of_error ((bind_of_ok hown _).trans hfailing) _

/-- The first node that fails ends the interpretation of several. -/
theorem interpretEach_eq_error (h : interpretEach ns s = (.error e, s')) :
    ∃ before child after u, ns = before ++ child :: after ∧
      interpretEach before s = (.ok none, u) ∧ interpret child u = (.error e, s') := by
  induction ns generalizing s with
  | nil => cases h
  | cons n ns ih =>
    rw [interpretEach_cons] at h
    rcases bind_eq_error h with hn | ⟨result, u, hn, h⟩
    · exact ⟨[], n, ns, s, rfl, rfl, hn⟩
    · cases result with
      | some v => cases h
      | none =>
        obtain ⟨before, child, after, u', rfl, hbefore, hchild⟩ := ih h
        refine ⟨n :: before, child, after, u', rfl, ?_, hchild⟩
        rw [interpretEach_cons, bind_of_ok hn]
        exact hbefore

/-- In a call, entering and leaving a node do not fail. -/
theorem interpret_eq_error (hs : s.stack.frames ≠ []) (h : interpret n s = (.error e, s')) :
    ∃ s₁, enter n.kind n.id s = (.ok (), s₁) ∧ s₁.stack.frames ≠ [] ∧
      (own n >>= unlessValue (interpretEach n.held)) s₁ = (.error e, s') := by
  obtain ⟨s₁, henter, hentered⟩ := enter_deepens hs n.kind n.id
  rw [interpret_eq, within_eq_enter, bind_of_ok henter] at h
  refine ⟨s₁, henter, hentered.frames_ne_nil, ?_⟩
  rcases bind_eq_error h with hbody | ⟨result, s₂, hbody, h⟩
  · exact hbody
  · -- the frame is still there when the node is left
    have hinside := body_deepens (fun m _ => balanced m) hentered.frames_ne_nil hbody
    obtain ⟨frame, rest, hframes⟩ := List.exists_cons_of_ne_nil hinside.frames_ne_nil
    rw [bind_of_ok (frame_ok hframes _)] at h
    cases h

theorem exists_fails (n : Node) {s s' : Session} {e : RunError} (hs : s.stack.frames ≠ [])
    (h : interpret n s = (.error e, s')) : ∃ path, Fails n s path e s' := by
  obtain ⟨s₁, henter, hs₁, h⟩ := interpret_eq_error hs h
  rcases bind_eq_error h with hown | ⟨result, s₂, hown, h⟩
  · exact ⟨[n], .here henter hown⟩
  · have hs₂ := (own_deepens hs₁ hown).frames_ne_nil
    cases result with
    | some v => cases h
    | none =>
      -- a node that the failing one holds has failed, and that node is smaller
      obtain ⟨before, child, after, s₃, hsplit, hbefore, hchild⟩ := interpretEach_eq_error h
      have hmem : child ∈ n.held := by simp [hsplit]
      have hs₃ := (interpretEach_deepens (fun m _ => balanced m) hs₂ hbefore).frames_ne_nil
      obtain ⟨path, hpath⟩ := exists_fails child hs₃ hchild
      exact ⟨n :: path, .inside henter hown hsplit hbefore hpath⟩
termination_by n.size
decreasing_by exact Node.size_lt_of_mem_held hmem

/-- Interpreting a node in a call changes nothing of the calls in progress but the scope of the
current one. A node that is interpreted without failure leaves the path of active nodes as it was.
One that fails has a path of nodes that leads from it to the node that failed, and leaves the ids
of these behind. Every id entered since is covered. Nothing is asked of the ids of the tree. -/
theorem interpret_path (n : Node) {s : Session} {frame : Frame} {rest : List Frame}
    (hs : s.stack.frames = frame :: rest) :
    (∀ e s', interpret n s = (.error e, s') ↔ ∃ path, Fails n s path e s') ∧
    ∃ scope, (interpret n s).2.stack.frames = { frame with scope } :: rest ∧
      (∀ v, (interpret n s).1 = .ok v → scope.active = frame.scope.active) ∧
      (∀ path e s', Fails n s path e s' →
        scope.active = frame.scope.active ++ path.map Node.id) ∧
      ∀ id, scope.hasEntered id = true →
        frame.scope.hasEntered id = true ∨ (interpret n s).2.Covered id := by
  have hne : s.stack.frames ≠ [] := by
    rw [hs]
    exact List.cons_ne_nil _ _
  refine ⟨fun e s' => ⟨exists_fails n hne, fun ⟨path, hpath⟩ => hpath.interpret_eq⟩, ?_⟩
  rcases h : interpret n s with ⟨e | v, s'⟩
  · obtain ⟨path, hpath⟩ := exists_fails n hne h
    obtain ⟨scope, hframes, hactive, hentered⟩ := (hpath.deepens hne).exists_scope hs
    refine ⟨scope, hframes, fun v hv => (by cases hv), fun path' e' s'' hpath' => ?_, hentered⟩
    -- another path would have ended in the same session
    obtain rfl : s' = s'' := congrArg Prod.snd (h.symm.trans hpath'.interpret_eq)
    obtain ⟨scope', hframes', hactive', -⟩ := (hpath'.deepens hne).exists_scope hs
    rw [hframes] at hframes'
    cases hframes'
    exact hactive'
  · obtain ⟨scope, hframes, hactive, hentered⟩ := (balanced n s s' v hne h).exists_scope hs
    rw [List.append_nil] at hactive
    refine ⟨scope, hframes, fun _ _ => hactive, fun path e s'' hpath => ?_, hentered⟩
    rw [hpath.interpret_eq] at h
    cases h

/-- A function whose nodes all have one id: an empty block, and a second one that fails. -/
def repeatsIds : Function := ⟨7, "f", [], ⟨7, [.block 7 [], .block 7 [.breakLoop 7], .ret 7 none]⟩⟩

/-- Below a node with their id already, the function, its second block and the statement in it
stay on the path; the first block has been taken off. -/
theorem interpret_path_repeatsIds :
    let contract : Contract := ⟨1, "C", [], [], [repeatsIds]⟩
    let frame : Frame := { Frame.call contract repeatsIds [] .locals with
      scope := Scope.empty.enter 7 }
    let s : Session := { start ⟨⟨[contract]⟩, []⟩ {} with stack := ⟨[frame]⟩ }
    let inner : Statement := .block 7 [.breakLoop 7]
    let path := [.function repeatsIds, Node.ofStatement inner, .statement (.breakLoop 7)]
    let e : RunError := .unsupportedNode (.statement .break) 7
    s.stack.frames = [frame] ∧ (interpret (.function repeatsIds) s).1 = .error e ∧
      Fails (.function repeatsIds) s path e (interpret (.function repeatsIds) s).2 ∧
      ∃ scope, (interpret (.function repeatsIds) s).2.stack.frames = [{ frame with scope }] ∧
        scope.active = [7, 7, 7, 7] := by
  intro contract frame s inner path e
  obtain ⟨-, scope, hframes, -, hactive, -⟩ :=
    interpret_path (.function repeatsIds) (show s.stack.frames = frame :: [] from rfl)
  have hfails : Fails (.function repeatsIds) s path e (interpret (.function repeatsIds) s).2 := by
    have hheld : (Node.function repeatsIds).held =
        [.block ⟨7, []⟩] ++ Node.ofStatement inner :: [.statement (.ret 7 none)] := rfl
    have hinner : (Node.ofStatement inner).held = [] ++ .statement (.breakLoop 7) :: [] := rfl
    exact .inside rfl rfl hheld rfl (.inside rfl rfl hinner rfl (.here rfl rfl))
  exact ⟨rfl, rfl, hfails, scope, hframes, hactive path e _ hfails⟩

end Session

end ContractTrace
