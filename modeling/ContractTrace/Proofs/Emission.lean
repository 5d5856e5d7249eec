import ContractTrace.Proofs.Calls
import ContractTrace.Proofs.Invariants

/-! Where the events of a trace come from. Each was recorded by an emit in the body of a function
that was called, in the active contract, and shows it: the name, one slot for each argument, and
as many as the contract declares. An emit that fails in an argument records nothing. -/

namespace ContractTrace

/-! ### Emits -/

/-- The event has the name of the called expression and a slot for each argument, numbered from 0
on, and these are as many as the first declaration of the name in the contract has parameters, if
there is one. -/
structure Event.EmittedBy (contract : Contract) (call : Call) (event : Event) : Prop where
  name : call.callee.calleeName? = some event.name
  slots : event.arguments.map Prod.fst = List.range call.arguments.length
  arity : ∀ declared, contract.events.find? (·.name = event.name) = some declared →
    declared.parameters.length = call.arguments.length

/-- The event is that of an emit in the body of the function. -/
def Event.FromEmit (contract : Contract) (function : Function) (event : Event) : Prop :=
  ∃ id call, .emit id call ∈ Flat.spliceAll function.body.statements ∧ event.EmittedBy contract call

namespace Flat

open ContractTrace.Task (Maintains bind_apply bind_bind bind_of_ok bind_of_error)

theorem slots_event (name : String) (values : List Value) :
    (event name values).arguments.map Prod.fst = List.range values.length := by
  rw [event, List.map_map, List.range_eq_range']
  exact List.zipIdx_map_snd 0 values

namespace Context

variable (c : Context)

/-! ### Arguments -/

theorem value_maintains (events : List Event) (e : Expression) :
    Maintains (fun p => p.events = events) (fun _ => True) (c.value e) :=
  fun _ hp => ⟨hp, fun _ _ => trivial⟩

/-- Evaluating arguments records nothing and gives a value for each. -/
theorem values_maintains (events : List Event) (es : List Expression) :
    Maintains (fun p => p.events = events) (fun vs => vs.length = es.length) (c.values es) := by
  induction es with
  | nil => exact .pure rfl
  | cons e es ih =>
    refine (c.value_maintains events e).bind fun v _ => ih.bind fun vs hvs => .pure ?_
    rw [List.length_cons, List.length_cons, hvs]

theorem values_append (es es' : List Expression) :
    c.values (es ++ es') = do
      let vs ← c.values es
      let ws ← c.values es'
      return vs ++ ws := by
  induction es with
  | nil => exact (Task.bind_pure_self (c.values es')).symm
  | cons e es ih =>
    simp only [List.cons_append, values, ih, bind_bind]
    rfl

/-- Arguments fail as the first of them that fails. -/
theorem values_of_error {before after : List Expression} {e : Expression} {vs : List Value}
    {p q : Progress} {fault : RunError} (hbefore : c.values before p = (.ok vs, q))
    (he : (c.value e q).1 = .error fault) :
    (c.values (before ++ e :: after) p).1 = .error fault := by
  have hfault : c.value e q = (.error fault, (c.value e q).2) := Prod.ext he rfl
  rw [values_append, bind_of_ok hbefore, values, bind_bind, bind_of_error hfault]

/-! ### The event of an emit -/

theorem checkArity_maintains (P : Progress → Prop) (name : String) (found : Nat) :
    Maintains P (fun _ => ∀ declared, c.contract.events.find? (·.name = name) = some declared →
      declared.parameters.length = found) (c.checkArity name found) := by
  rw [checkArity, Contract.event?]
  split
  next hnone =>
    refine .pure fun declared hdeclared => ?_
    rw [hnone] at hdeclared
    cases hdeclared
  next declared hsome =>
    split_ifs with hlength
    · refine .pure fun declared' hdeclared => ?_
      rw [hsome] at hdeclared
      cases hdeclared
      exact hlength
    · exact .fail _

/-- An emit fails and records nothing, or its arguments have values and it records one event,
which is its own. -/
theorem emit_outcome (id : NodeId) (call : Call) (p : Progress) :
    (∃ fault q, c.emit id call p = (.error fault, q) ∧ q.events = p.events) ∨
      ∃ name vs q, c.emit id call p = (.ok (), q) ∧ (c.values call.arguments p).1 = .ok vs ∧
        q.events = p.events ++ [event name vs] ∧ (event name vs).EmittedBy c.contract call := by
  cases hname : call.callee.calleeName? with
  | none =>
    refine .inl ⟨.invalidEmitTarget id, p, ?_, rfl⟩
    rw [emit, hname]
    rfl
  | some name =>
    rw [emit, hname, Task.require_some_bind]
    obtain ⟨hsame, harity⟩ := c.checkArity_maintains (· = p) name call.arguments.length p rfl
    rcases hcheck : c.checkArity name call.arguments.length p with ⟨fault | _, q⟩ <;>
      rw [hcheck] at hsame harity <;> subst hsame
    · exact .inl ⟨fault, q, bind_of_error hcheck _, rfl⟩
    rw [bind_of_ok hcheck]
    obtain ⟨hkept, hlength⟩ := c.values_maintains q.events call.arguments q rfl
    rcases hvalues : c.values call.arguments q with ⟨fault | vs, q'⟩ <;>
      rw [hvalues] at hkept hlength
    · exact .inl ⟨fault, q', bind_of_error hvalues _, hkept⟩
    refine .inr ⟨name, vs, { q' with events := q'.events ++ [event name vs] }, ?_, rfl, ?_, ?_⟩
    · exact bind_of_ok hvalues _
    · rw [hkept]
    · refine ⟨hname, ?_, harity () rfl⟩
      rw [slots_event, hlength vs rfl]

/-- An emit with an argument that fails records nothing. -/
theorem emit_of_failed {call : Call} {before after : List Expression} {e : Expression}
    {vs : List Value} {p q : Progress} {fault : RunError}
    (hcall : call.arguments = before ++ e :: after) (hbefore : c.values before p = (.ok vs, q))
    (he : (c.value e q).1 = .error fault) (id : NodeId) :
    (∃ fault, (c.emit id call p).1 = .error fault) ∧ (c.emit id call p).2.events = p.events := by
  rcases c.emit_outcome id call p with ⟨fault', q', hemit, hkept⟩ | ⟨_, _, _, _, hvalues, _⟩
  · rw [hemit]
    exact ⟨⟨fault', rfl⟩, hkept⟩
  · rw [hcall, c.values_of_error hbefore he] at hvalues
    cases hvalues

end Context

end Flat

namespace Session

open Flat
open ContractTrace.Task (Keeps bind_apply bind_of_ok)

variable {s u : Session} {t : Transaction} {contract : Contract} {function : Function}
  {storage : Environment}

/-! ### Bodies -/

/-- In a call an emit does to the events what it does in the walk. -/
theorem emit_open {frame : Frame} {rest : List Frame} {events : List Event}
    (hframes : u.stack.frames = frame :: rest) (hpending : u.trace.pending = some events)
    (id : NodeId) (call : Call) :
    let outcome := (callContext u frame).emit id call ⟨u.generator, events⟩
    (emit id call u).1 = outcome.1 ∧ InCall u frame rest (emit id call u).2 outcome.2 := by
  have hin : InCall u frame rest u ⟨u.generator, events⟩ :=
    ⟨frame.scope, u.coverage, u.log, by rw [← hpending, ← hframes]⟩
  exact (emit_simulates id call u _ hin).exact

/-- A call of the function is in progress in the active contract, over the given committed events,
and all that it has recorded is from emits in its body. -/
structure Recording (contract : Contract) (function : Function) (committed : List Event)
    (u : Session) : Prop where
  frame : ∃ frame rest, u.stack.frames = frame :: rest ∧ frame.contract = contract
  active : u.active = some contract
  committed_eq : u.trace.committed = committed
  pending : ∃ events, u.trace.pending = some events ∧
    ∀ event ∈ events, event.FromEmit contract function

variable {committed : List Event}

theorem recording_steady : Steady (Recording contract function committed) := by
  refine ⟨⟨fun h _ _ => ⟨h.frame, h.active, h.committed_eq, h.pending⟩⟩,
    fun {s} h f => ⟨?_, h.active, h.committed_eq, h.pending⟩⟩
  obtain ⟨frame, rest, hframes, hcontract⟩ := h.frame
  refine ⟨{ frame with scope := f frame.scope }, rest, ?_, hcontract⟩
  simp only [CallStack.mapScope, hframes]

theorem mark_recording (id : NodeId) : Keeps (Recording contract function committed) (mark id) :=
  .modify fun _ h => ⟨h.frame, h.active, h.committed_eq, h.pending⟩

theorem emit_recording {id : NodeId} {call : Call}
    (hmem : .emit id call ∈ spliceAll function.body.statements) :
    Keeps (Recording contract function committed) (emit id call) := by
  intro u hu
  obtain ⟨frame, rest, hframes, hcontract⟩ := hu.frame
  obtain ⟨events, hpending, hevents⟩ := hu.pending
  obtain ⟨-, scope, coverage, log, hend⟩ := emit_open hframes hpending id call
  rw [hend]
  refine ⟨⟨_, rest, rfl, hcontract⟩, hu.active, hu.committed_eq, _, rfl, ?_⟩
  rcases (callContext u frame).emit_outcome id call ⟨u.generator, events⟩ with
    ⟨fault, q, hemit, hkept⟩ | ⟨name, vs, q, hemit, -, hadded, hemitted⟩
  · rw [hemit, hkept]
    exact hevents
  · rw [hemit, hadded, List.forall_mem_append]
    refine ⟨hevents, fun event hevent => ?_⟩
    rw [List.mem_singleton.1 hevent, ← hcontract]
    exact ⟨id, call, hmem, hemitted⟩

/-! ### Calls -/

/-- The session is met in the body of the called function, or is where the body ends. -/
def InBody (s : Session) (t : Transaction) (contract : Contract) (function : Function)
    (u : Session) : Prop :=
  MeetsInCall s t contract function u ∨ ∃ storage log, Admits s t contract function storage ∧
    u = (interpret (.function function)
      { pushed s t contract function storage with trace := s.trace.start, log }).2

theorem InBody.admits (h : InBody s t contract function u) :
    ∃ storage, Admits s t contract function storage := by
  rcases h with ⟨storage, _, _, ha, -, -⟩ | ⟨storage, _, ha, -⟩
  · exact ⟨storage, ha⟩
  · exact ⟨storage, ha⟩

/-- The active contract is the one that the source has under its name. -/
def ActiveDeclared (s : Session) : Prop :=
  ∀ c, s.active = some c → s.program.source.contract? c.name = some c

/-- What is called is a function of the active contract. -/
theorem Admits.active_eq (h : Admits s t contract function storage) (hs : s.ActiveDeclared) :
    s.active.getD contract = contract := by
  cases hactive : s.active with
  | none => rfl
  | some c =>
    have hstorage := h.storage_eq
    simp only [storageFor, hactive] at hstorage
    split_ifs at hstorage with hc
    have hfound := hs c hactive
    rw [hc, SourceUnit.name_of_contract? h.contract_eq, h.contract_eq] at hfound
    exact (Option.some.inj hfound).symm

theorem Admits.recording (h : Admits s t contract function storage) (hs : s.ActiveDeclared)
    (log : Log) : Recording contract function s.trace.committed
      { pushed s t contract function storage with trace := s.trace.start, log } := by
  refine ⟨⟨_, _, rfl, rfl⟩, congrArg some (h.active_eq hs), rfl, [], rfl, fun event hevent => ?_⟩
  cases hevent

theorem function_recording :
    Keeps (Recording contract function committed) (interpret (.function function)) :=
  recording_steady.function mark_recording function fun _ _ => emit_recording

/-- Wherever a body has come to, the call has recorded only what its emits make. -/
theorem InBody.recording (h : InBody s t contract function u) (hs : s.ActiveDeclared) :
    Recording contract function s.trace.committed u := by
  rcases h with ⟨storage, log, s', hadmits, henter, hmeets⟩ | ⟨storage, log, hadmits, rfl⟩
  · have hentered := (recording_steady.enter mark_recording _ _).of_eq henter
      (hadmits.recording hs log)
    exact recording_steady.meets mark_recording hmeets (fun _ _ => emit_recording)
      (mark_recording function.body.id s' hentered)
  · exact function_recording _ (hadmits.recording hs log)

/-- An admitted transaction adds events of emits in the body of its function, or none. -/
theorem Admits.added (h : Admits s t contract function storage) (hs : s.ActiveDeclared) :
    ∃ events, (interpretTransaction t s).2.trace = ⟨s.trace.committed ++ events, none⟩ ∧
      (∀ event ∈ events, event.FromEmit contract function) ∧
      (interpretTransaction t s).2.active = some contract := by
  obtain ⟨log, hperform⟩ := interpretTransaction_of_admits_call h
  obtain ⟨result, p, scope, coverage, log', hwalk, hbody⟩ :=
    interpret_function_apply (s := { pushed s t contract function storage with log }) rfl function
  obtain ⟨result', p', coverage', log'', hwalk', hcall⟩ :=
    call_apply (s := { pushed s t contract function storage with log }) rfl contract function
  obtain ⟨rfl, rfl⟩ : result = result' ∧ p = p' := Prod.mk.inj (hwalk.symm.trans hwalk')
  have hrecorded := function_recording.of_eq hbody (h.recording hs log)
  obtain ⟨events, hpending, hevents⟩ := hrecorded.pending
  rw [hperform, hcall]
  refine ⟨kept result p.events, rfl, fun event hevent => ?_, congrArg some (h.active_eq hs)⟩
  cases hpending
  cases result with
  | ok value => exact hevents event hevent
  | error e => cases hevent

/-! ### Transactions -/

/-- Every event, committed or pending, is from an emit of a called function of the active
contract. -/
def Shaped (Called : Contract → Function → Prop) (s : Session) : Prop :=
  ∀ event ∈ s.trace.committed ++ s.trace.pending.getD [], ∃ contract function,
    s.active = some contract ∧ Called contract function ∧ event.FromEmit contract function

/-- A session over the program between two transactions, with events of called functions. -/
structure Orderly (program : Program) (Called : Contract → Function → Prop) (s : Session) : Prop
    extends Quiescent s where
  program_eq : s.program = program
  declared : s.ActiveDeclared
  shaped : s.Shaped Called

variable {program : Program} {Called : Contract → Function → Prop}

theorem Orderly.setLog (h : Orderly program Called s) (log : Log) :
    Orderly program Called { s with log } :=
  ⟨⟨h.no_frame, h.no_pending⟩, h.program_eq, h.declared, h.shaped⟩

/-- Events that were there stay with the active contract, and the called function adds its own. -/
theorem Shaped.extended (h : s.Shaped Called) (hs : s.ActiveDeclared)
    (ha : Admits s t contract function storage) (hcalled : Called contract function)
    (hactive : u.active = some contract)
    (hevents : ∀ event ∈ u.trace.committed ++ u.trace.pending.getD [],
      event ∈ s.trace.committed ∨ event.FromEmit contract function) : u.Shaped Called := by
  intro event hevent
  rcases hevents event hevent with hold | hnew
  · obtain ⟨c, f, hc, hf, hemit⟩ := h event (List.mem_append_left _ hold)
    have hsame := ha.active_eq hs
    rw [hc] at hsame
    obtain rfl : c = contract := hsame
    exact ⟨c, f, hactive, hf, hemit⟩
  · exact ⟨contract, function, hactive, hcalled, hnew⟩

theorem interpretTransaction_orderly (h : Orderly program Called s)
    (hcalled : ∀ {c f storage}, Admits s t c f storage → Called c f) :
    Orderly program Called (interpretTransaction t s).2 := by
  rcases refuses_or_admits s t with ⟨e, hrefuses⟩ | ⟨contract, function, storage, ha⟩
  · obtain ⟨log, hr⟩ := interpretTransaction_of_refuses hrefuses
    rw [hr]
    exact h.setLog log
  · obtain ⟨events, htrace, hevents, hactive⟩ := ha.added h.declared
    obtain ⟨result, p, coverage, log, -, hr⟩ := interpretTransaction_of_admits ha h.no_frame
    have hstack : (interpretTransaction t s).2.stack = s.stack := by rw [hr]
    have hprogram : (interpretTransaction t s).2.program = s.program := by rw [hr]
    have hpending := congrArg Trace.pending htrace
    refine ⟨⟨hstack ▸ h.no_frame, hpending⟩, hprogram.trans h.program_eq, ?_, ?_⟩
    · intro c hc
      obtain rfl : contract = c := Option.some.inj (hactive.symm.trans hc)
      rw [hprogram, SourceUnit.name_of_contract? ha.contract_eq, ha.contract_eq]
    · refine h.shaped.extended h.declared ha (hcalled ha) hactive fun event hevent => ?_
      rw [htrace, Option.getD_none, List.append_nil, List.mem_append] at hevent
      exact hevent.imp_right (hevents event)

theorem interpretTransactions_orderly {ts : List Transaction} {i : Nat}
    (h : Orderly program Called s) (hcalled : CallsOnly Called i ts s) :
    Orderly program Called (interpretTransactions i ts s).2 := by
  induction ts generalizing i s with
  | nil => exact h
  | cons first ts ih =>
    have hfirst := interpretTransaction_orderly h hcalled.head
    rw [interpretTransactions, bind_apply]
    rcases hr : interpretTransaction first s with ⟨e | result, s'⟩ <;> rw [hr] at hfirst
    · exact hfirst
    · exact ih (hfirst.setLog _) (hcalled.tail fun ts => bind_of_ok hr _)

/-! ### Runs -/

/-- A run starts over the seeded storage of a contract of the source, without events. -/
theorem Orderly.prepared (h : Orderly program Called s)
    (hprepared : preparation s.program.source s.program.transactions = .ok (contract, storage))
    (log : Log) :
    Orderly program Called { s.cleared with storage, active := some contract, log } := by
  have houtcome := preparation_outcome s.program.source s.program.transactions
  rw [hprepared] at houtcome
  refine ⟨⟨h.no_frame, rfl⟩, h.program_eq, fun c hc => ?_, fun event hevent => by cases hevent⟩
  cases hc
  cases hts : s.program.transactions with
  | nil =>
    rw [hts] at hprepared
    cases hprepared
  | cons first rest =>
    have hfirst := houtcome.1 first (hts ▸ List.mem_cons_self)
    show s.program.source.contract? contract.name = some contract
    rw [SourceUnit.name_of_contract? hfirst, hfirst]

theorem Orderly.discarded (h : Orderly program Called s) (failed : Bool) (log : Log) :
    Orderly program Called { s with trace := .empty, failed, log } :=
  ⟨⟨h.no_frame, rfl⟩, h.program_eq, h.declared, fun event hevent => by cases hevent⟩

theorem Orderly.run (h : Orderly program Called s)
    (hcalled : ∀ {t s' c f storage}, ComesTo s t s' → Admits s' t c f storage → Called c f) :
    Orderly program Called (run s).2 := by
  rcases hprepared : preparation s.program.source s.program.transactions with e | ⟨c, storage⟩
  · obtain ⟨log, hrun⟩ := run_of_unprepared hprepared
    rw [hrun]
    exact h.discarded true log
  · obtain ⟨log, hruns⟩ := runTransactions_of_prepared (s := s.cleared) hprepared
    have hended := interpretTransactions_orderly (h.prepared hprepared log)
      (CallsOnly.of_comesTo hcalled hprepared log (List.append_nil _).symm)
    rw [← hruns] at hended
    rcases hr : runTransactions s.program.transactions s.cleared with ⟨e | _, u⟩ <;>
      rw [hr] at hended
    · obtain ⟨log', hrun⟩ := run_of_error hr
      rw [hrun]
      exact hended.discarded true log'
    · obtain ⟨log', hrun⟩ := run_of_ok hr
      rw [hrun]
      exact hended.setLog log'

/-! ### Requests -/

section Request

variable {r : Request}
  (hcalled : ∀ {t s' c f storage}, r.ComesTo s t s' → Admits s' t c f storage → Called c f)

include hcalled

theorem Orderly.perform (h : Orderly program Called s) :
    Orderly program Called (r.perform s).2 := by
  cases r with
  | run =>
    have hended := h.run hcalled
    rw [Request.perform, bind_apply]
    rcases hr : Session.run s with ⟨e | _, u⟩ <;> rw [hr] at hended <;> exact hended
  | transaction t => exact interpretTransaction_orderly h fun ha => hcalled ⟨rfl, rfl⟩ ha

/-- Where a request comes to a transaction, the session is as between two of them. -/
theorem Orderly.comesTo (h : Orderly program Called s) {s' : Session}
    (hcomes : r.ComesTo s t s') : Orderly program Called s' := by
  cases r with
  | run =>
    obtain ⟨contract, storage, log, before, after, hprepared, hts, hbefore⟩ := hcomes
    have hended := interpretTransactions_orderly (h.prepared hprepared log)
      (CallsOnly.of_comesTo hcalled hprepared log hts)
    rw [hbefore] at hended
    exact hended
  | transaction t' =>
    obtain ⟨-, rfl⟩ := hcomes
    exact h

end Request

theorem Orderly.afterAll {requests : List Request} (h : Orderly program Called s)
    (hcalled : ∀ {c f}, Calls s requests c f → Called c f) :
    Orderly program Called (afterAll requests s) := by
  induction requests generalizing s with
  | nil => exact h
  | cons r rs ih =>
    exact ih (h.perform fun hcomes ha => hcalled (.head hcomes ha)) fun hcalls =>
      hcalled hcalls.tail

theorem start_orderly (program : Program) (configuration : Configuration) :
    Orderly program Called (start program configuration) := by
  refine ⟨⟨rfl, rfl⟩, rfl, fun c hc => ?_, fun event hevent => ?_⟩
  · cases hc
  · cases hevent

/-- Whatever runs and transactions a session has performed, and wherever the next of them has come
to in a call, each event of the trace, committed or pending, is that of an emit of a called
function of the active contract, with its name, a slot for each argument and the declared number
of them; and the pending ones are from the call in progress. In a call, an emit with an argument
that fails records no event. -/
theorem events_shaped :
    (∀ (program : Program) (configuration : Configuration) (requests : List Request),
      let s := afterAll requests (start program configuration)
      s.Shaped (Calls (start program configuration) requests) ∧
      ∀ (r : Request) (t : Transaction) (s' : Session) (contract : Contract) (function : Function)
        (u : Session), r.ComesTo s t s' → InBody s' t contract function u →
        u.Shaped (Calls (start program configuration) (requests ++ [r])) ∧
          ∀ event ∈ u.trace.pending.getD [], event.FromEmit contract function) ∧
    ∀ (u : Session) (frame : Frame) (rest : List Frame) (events : List Event) (id : NodeId)
      (call : Call) (before after : List Expression) (e : Expression) (vs : List Value)
      (p : Progress) (fault : RunError),
      u.stack.frames = frame :: rest → u.trace.pending = some events →
      call.arguments = before ++ e :: after →
      (callContext u frame).values before ⟨u.generator, events⟩ = (.ok vs, p) →
      ((callContext u frame).value e p).1 = .error fault →
      (∃ fault', (emit id call u).1 = .error fault') ∧ (emit id call u).2.trace = u.trace := by
  constructor
  · intro program configuration requests s
    refine ⟨((start_orderly program configuration).afterAll id).shaped, ?_⟩
    intro r t s' contract function u hcomes hbody
    have hs : Orderly program (Calls (start program configuration) (requests ++ [r])) s :=
      (start_orderly program configuration).afterAll fun hcalls => hcalls.append r
    have hs' := hs.comesTo Calls.last hcomes
    have hu := hbody.recording hs'.declared
    obtain ⟨storage, ha⟩ := hbody.admits
    obtain ⟨events, hpending, hevents⟩ := hu.pending
    rw [hpending, Option.getD_some]
    refine ⟨hs'.shaped.extended hs'.declared ha (Calls.last hcomes ha) hu.active ?_, hevents⟩
    intro event hevent
    rw [hu.committed_eq, hpending, Option.getD_some, List.mem_append] at hevent
    exact hevent.imp_right (hevents event)
  · intro u frame rest events id call before after e vs p fault hframes hpending hcall hbefore he
    obtain ⟨hresult, scope, coverage, log, hend⟩ := emit_open hframes hpending id call
    obtain ⟨hfault, hkept⟩ := (callContext u frame).emit_of_failed hcall hbefore he id
    rw [hresult, hend]
    refine ⟨hfault, ?_⟩
    rw [hkept, ← hpending]

/-- An emit of a declared event, and one that fails in its second argument. -/
def emitsTwice : Function :=
  let x : Expression := .identifier 20 "x" none
  let y : Expression := .identifier 21 "y" none
  ⟨3, "f", [], ⟨4, [.emit 5 ⟨6, .identifier 7 "A" none, [x]⟩,
    .block 8 [.emit 9 ⟨10, .identifier 11 "B" none, [x, y]⟩]]⟩⟩

def halfway : Contract :=
  ⟨1, "C", [⟨2, "x", .integer .uint256, some (.integer 5 .uint256)⟩],
    [⟨12, "A", [⟨13, "a", .integer .uint256⟩]⟩], [emitsTwice]⟩

/-- Where the body of the call ends, the first event is pending, with the one argument that its
declaration asks for, and the second was not recorded. -/
theorem events_shaped_halfway :
    let t : Transaction := ⟨"C", "f", []⟩
    let program : Program := ⟨⟨[halfway]⟩, [t]⟩
    let s := start program {}
    let storage := Environment.storage.add
      ⟨⟨2, "x", .integer .uint256⟩, 0, [.integer 5 .uint256]⟩
    let called : Session :=
      { pushed s t halfway emitsTwice storage with trace := s.trace.start, log := #[] }
    let u := (interpret (.function emitsTwice) called).2
    let call : Call := ⟨10, .identifier 11 "B" none,
      [.identifier 20 "x" none, .identifier 21 "y" none]⟩
    (Request.ComesTo (.transaction t) s t s ∧ InBody s t halfway emitsTwice u ∧
      u.trace.pending = some [⟨"A", [(0, .integer 5 .uint256)]⟩] ∧
      halfway.events.find? (·.name = "A") = some ⟨12, "A", [⟨13, "a", .integer .uint256⟩]⟩ ∧
      Event.FromEmit halfway emitsTwice ⟨"A", [(0, .integer 5 .uint256)]⟩ ∧
      u.Shaped (Calls s [.transaction t])) ∧
    (called.trace.pending = some [] ∧ (emit 9 call called).2.trace = called.trace) := by
  intro t program s storage called u call
  have hadmits : Admits s t halfway emitsTwice storage := ⟨rfl, rfl, rfl, rfl⟩
  have hcomes : Request.ComesTo (.transaction t) s t s := ⟨rfl, rfl⟩
  have hbody : InBody s t halfway emitsTwice u := .inr ⟨storage, #[], hadmits, rfl⟩
  have hpending : ∀ g, (interpret (.function emitsTwice)
      { called with generator := g }).2.trace.pending =
        some [⟨"A", [(0, .integer 5 .uint256)]⟩] := fun _ => rfl
  have hshaped := (events_shaped.1 program {} []).2 (.transaction t) t s halfway emitsTwice u
    hcomes hbody
  have hnothing := events_shaped.2 called (.call halfway emitsTwice [] .locals) [] [] 9 call
    [.identifier 20 "x" none] [] (.identifier 21 "y" none) [.integer 5 .uint256]
    ⟨called.generator, []⟩ (.evaluation (.undeclaredIdentifier "y")) rfl rfl rfl rfl rfl
  refine ⟨⟨hcomes, hbody, hpending _, rfl, hshaped.2 _ ?_, hshaped.1⟩, rfl, hnothing.2⟩
  rw [show u.trace.pending = _ from hpending _]
  exact List.mem_singleton_self _

end Session

end ContractTrace
