import ContractTrace.Proofs.Reachable

/-! Transactions are atomic. One that fails leaves committed events, pending events, stack and
failure flag as it found them; of storage it may leave the first seeding behind. One that
completes appends its own events and no others. -/

namespace ContractTrace

open ContractTrace.Task (Raises)

/-- The failures of the checks that are made before a call begins. -/
def RunError.IsRefusal : RunError → Prop
  | .unknownContract _ => True
  | .unknownFunction _ _ => True
  | .argumentMismatch _ _ => True
  | .environmentInitialization _ _ => True
  | .multipleContracts _ _ => True
  | _ => False

/-! ### Failures of a body -/

namespace Flat.Context

/-- No statement fails with the failure of a check that is made before the call. -/
theorem walk_raises (c : Context) (ss : List Statement) :
    Raises (fun e => ¬ e.IsRefusal) (c.walk ss) := by
  intro p e h
  cases c.walk_fails ss p e h <;> exact id

end Flat.Context

namespace Session

variable {s : Session} {t : Transaction} {contract : Contract} {function : Function}
  {storage : Environment}

/-! ### Admitted transactions -/

/-- The flat transaction, by way of its walk. -/
theorem Admits.transaction_eq (h : Admits s t contract function storage)
    {result : Except RunError (Option Value)} {p : Flat.Progress}
    (hwalk : (contextOf s t contract function storage).walk
      (Flat.spliceAll function.body.statements) ⟨s.generator, []⟩ = (result, p)) :
    Flat.transaction s.configuration.errorPolicy contract storage t s.generator =
      (result.map fun _ => p.events, p.generator) := by
  rw [contextOf] at hwalk
  rw [Flat.transaction, h.function_eq, Task.require_some_bind, h.arguments_fit]
  simp only [Flat.Context.call, hwalk]

/-! ### Atomicity -/

/-- What a failed transaction leaves behind. -/
structure RolledBack (s : Session) (t : Transaction) (s' : Session) : Prop where
  committed : s'.trace.committed = s.trace.committed
  pending : s'.trace.pending = none
  stack : s'.stack = s.stack
  failed : s'.failed = s.failed
  storage : s'.storage = s.storage ∧ s'.active = s.active ∨
    s.active = none ∧ ∃ contract, s.program.source.contract? t.contract = some contract ∧
      Flat.seed contract.storage = .ok s'.storage ∧ s'.active = some contract

/-- What a completed transaction leaves behind: its events, which are those of the flat
transaction over the storage of its contract. -/
structure Completed (s : Session) (t : Transaction) (s' : Session) (contract : Contract)
    (events : List Event) : Prop where
  contract_eq : s.program.source.contract? t.contract = some contract
  storage_eq : s.storageFor contract = .ok s'.storage
  events_eq : Flat.transaction s.configuration.errorPolicy contract s'.storage t s.generator =
    (.ok events, s'.generator)
  trace : s'.trace = ⟨s.trace.committed ++ events, none⟩

/-- A transaction in a reachable session either fails and is rolled back, where the checks
before the call change nothing at all, or appends its own events to the trace. -/
theorem interpretTransaction_atomic {program : Program} {configuration : Configuration}
    (hs : Reachable program configuration s) (t : Transaction) :
    match interpretTransaction t s with
    | (.error e, s') => RolledBack s t s' ∧ (e.IsRefusal → s'.coverage = s.coverage ∧
        s'.generator = s.generator ∧ s'.storage = s.storage ∧ s'.active = s.active)
    | (.ok _, s') => ∃ contract events, Completed s t s' contract events := by
  have hq := hs.quiescent
  rcases refuses_or_admits s t with ⟨e, h⟩ | ⟨contract, function, storage, h⟩
  · obtain ⟨log, hr⟩ := interpretTransaction_of_refuses h
    rw [hr]
    exact ⟨⟨rfl, hq.no_pending, rfl, rfl, .inl ⟨rfl, rfl⟩⟩, fun _ => ⟨rfl, rfl, rfl, rfl⟩⟩
  · obtain ⟨result, p, coverage, log, hwalk, hr⟩ := interpretTransaction_of_admits h hq.no_frame
    rw [hr]
    cases result with
    | error e =>
      have hbody : ¬ e.IsRefusal := Flat.Context.walk_raises _ _ _ e (by rw [hwalk])
      refine ⟨⟨List.append_nil _, rfl, rfl, rfl, ?_⟩, fun he => absurd he hbody⟩
      refine h.storage_cases.imp id ?_
      rintro ⟨hnone, hseed⟩
      exact ⟨hnone, contract, h.contract_eq, hseed, by rw [hnone, Option.getD_none]⟩
    | ok value =>
      exact ⟨contract, p.events, h.contract_eq, h.storage_eq, h.transaction_eq hwalk, rfl⟩

/-- An event, and behind it, two blocks deep, a statement that is not supported. -/
def failsLate : SourceUnit :=
  let emit (id : NodeId) (name : String) : Statement := .emit id ⟨id, .identifier id name none, []⟩
  ⟨[⟨1, "C", [⟨2, "x", .integer .uint256, some (.integer 5 .uint256)⟩], [],
    [⟨3, "good", [], ⟨4, [emit 5 "A"]⟩⟩,
      ⟨6, "bad", [], ⟨7, [emit 8 "B", .block 9 [.block 10 [.placeholder 11]]]⟩⟩]⟩]⟩

theorem interpretTransaction_atomic_failsLate :
    let s := (Operation.transaction ⟨"C", "good", []⟩).perform (start ⟨failsLate, []⟩ {})
    let outcome := interpretTransaction ⟨"C", "bad", []⟩ s
    Reachable ⟨failsLate, []⟩ {} s ∧
      outcome.1 = .error (.unsupportedNode (.statement .placeholderStatement) 11) ∧
      outcome.2.trace.committed = [⟨"A", []⟩] ∧ outcome.2.trace.pending = none ∧
      outcome.2.stack = s.stack := by
  intro s outcome
  have hs : Reachable ⟨failsLate, []⟩ {} s := .step .start _
  have hresult : outcome.1 = .error (.unsupportedNode (.statement .placeholderStatement) 11) := rfl
  have h := interpretTransaction_atomic hs ⟨"C", "bad", []⟩
  rw [show interpretTransaction ⟨"C", "bad", []⟩ s = (_, outcome.2) from Prod.ext hresult rfl] at h
  obtain ⟨rolled, -⟩ := h
  exact ⟨hs, hresult, rolled.committed.trans rfl, rolled.pending, rolled.stack⟩

end Session

end ContractTrace
