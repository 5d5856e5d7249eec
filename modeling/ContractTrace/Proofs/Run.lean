import ContractTrace.Proofs.Transaction

/-! A run of a fresh session is the flat run: the same result, and as its trace the events of
all transactions, one after the other. -/

namespace ContractTrace.Session

open Flat
open ContractTrace.Task (bind_of_ok bind_of_error require_some_bind)

/-- Between two transactions: no call in progress and no transaction open. -/
structure Quiescent (s : Session) : Prop where
  no_frame : s.stack.frames = []
  no_pending : s.trace.pending = none

variable {s : Session} {contract : Contract}

/-! ### One transaction -/

theorem storageFor_active (h : s.active = some contract) :
    s.storageFor contract = .ok s.storage := by
  simp [storageFor, h]

/-- A transaction for the active contract does what the flat transaction does. -/
theorem interpretTransaction_flat {t : Transaction} (hs : s.stack.frames = [])
    (hc : s.program.source.contract? t.contract = some contract)
    (ha : s.active = some contract) :
    match Flat.transaction s.configuration.errorPolicy contract s.storage t s.generator with
    | (.ok events, g) => ∃ value coverage log, interpretTransaction t s = (.ok value, { s with
        generator := g
        coverage
        trace := ⟨s.trace.committed ++ events, none⟩
        log })
    | (.error e, _) => (interpretTransaction t s).1 = .error e := by
  rw [Flat.transaction]
  cases hf : contract.function? t.function with
  | none =>
    obtain ⟨log, h⟩ := interpretTransaction_of_refuses (.function hc hf)
    exact congrArg Prod.fst h
  | some function =>
    rw [require_some_bind]
    cases hfault : Flat.fault? function t.arguments with
    | some fault =>
      obtain ⟨log, h⟩ := interpretTransaction_of_refuses (.arguments hc hf hfault)
      exact congrArg Prod.fst h
    | none =>
      obtain ⟨result, p, coverage, log, hwalk, h⟩ :=
        interpretTransaction_of_admits ⟨hc, hf, hfault, storageFor_active ha⟩ hs
      rw [contextOf] at hwalk
      simp only [Context.call, hwalk]
      cases result with
      | ok value => exact ⟨value, coverage, log, by rw [h, ha]; rfl⟩
      | error e => exact congrArg Prod.fst h

/-! ### All transactions -/

/-- Transactions for the active contract do what the flat transactions do. -/
theorem interpretTransactions_flat (ts : List Transaction) (i : Nat) (s : Session)
    (hq : s.Quiescent)
    (hc : ∀ t ∈ ts, s.program.source.contract? t.contract = some contract)
    (ha : s.active = some contract) :
    match Flat.transactions s.configuration.errorPolicy contract s.storage ts s.generator with
    | (.ok blocks, g) => ∃ coverage log, interpretTransactions i ts s = (.ok (), { s with
        generator := g
        coverage
        trace := ⟨s.trace.committed ++ blocks.flatten, none⟩
        log })
    | (.error e, _) => (interpretTransactions i ts s).1 = .error e := by
  induction ts generalizing i s with
  | nil =>
    refine ⟨s.coverage, s.log, ?_⟩
    rw [← hq.no_pending, List.flatten_nil, List.append_nil]
    rfl
  | cons t ts ih =>
    have hstep := interpretTransaction_flat hq.no_frame (hc t List.mem_cons_self) ha
    rw [Flat.transactions]
    rcases htx : Flat.transaction s.configuration.errorPolicy contract s.storage t s.generator
      with ⟨e | events, g⟩ <;> rw [htx] at hstep
    · rw [bind_of_error htx]
      obtain ⟨s', hr⟩ : ∃ s', interpretTransaction t s = (.error e, s') := ⟨_, Prod.ext hstep rfl⟩
      exact congrArg Prod.fst (bind_of_error hr _)
    · obtain ⟨value, coverage, log, hr⟩ := hstep
      rw [bind_of_ok htx]
      -- the rest runs in the session that the first transaction leaves behind
      obtain ⟨log', hrest⟩ : ∃ log, interpretTransactions i (t :: ts) s =
          interpretTransactions (i + 1) ts { s with
            generator := g, coverage, trace := ⟨s.trace.committed ++ events, none⟩, log } :=
        ⟨_, bind_of_ok hr _⟩
      have hnext := ih (i + 1) { s with
          generator := g, coverage, trace := ⟨s.trace.committed ++ events, none⟩, log := log' }
        ⟨hq.no_frame, rfl⟩ (fun u hu => hc u (List.mem_cons_of_mem t hu)) ha
      dsimp only at hnext
      rw [hrest]
      rcases hts : Flat.transactions s.configuration.errorPolicy contract s.storage ts g
        with ⟨e | blocks, g'⟩ <;> rw [hts] at hnext
      · rw [bind_of_error hts]
        exact hnext
      · rw [bind_of_ok hts]
        obtain ⟨coverage', log'', h⟩ := hnext
        refine ⟨coverage', log'', ?_⟩
        rw [h, List.flatten_cons, List.append_assoc]

/-! ### Preparation -/

theorem find?_other_contract {name : String} {first : Transaction} {ts : List Transaction}
    (h : ∀ t ∈ first :: ts, t.contract = name) :
    (first :: ts).find? (·.contract ≠ first.contract) = none := by
  rw [List.find?_eq_none]
  intro t ht
  simp [h t ht, h first List.mem_cons_self]

/-- The contract of a run and its seeded storage, which is found before any transaction. -/
def preparation (source : SourceUnit) (ts : List Transaction) :
    Except RunError (Contract × Environment) :=
  match ts with
  | [] => .error .noTransactions
  | first :: _ =>
    match ts.find? (·.contract ≠ first.contract) with
    | some other => .error (.multipleContracts first.contract other.contract)
    | none =>
      match source.contract? first.contract with
      | none => .error (.unknownContract first.contract)
      | some contract =>
        match Flat.seed contract.storage with
        | .error e => .error e
        | .ok storage => .ok (contract, storage)

theorem preparation_of_uniform (source : SourceUnit) {name : String} {ts : List Transaction}
    (hne : ts ≠ []) (hname : ∀ t ∈ ts, t.contract = name) :
    preparation source ts = match source.contract? name with
      | none => .error (.unknownContract name)
      | some contract =>
        match Flat.seed contract.storage with
        | .error e => .error e
        | .ok storage => .ok (contract, storage) := by
  obtain ⟨first, rest, rfl⟩ := List.exists_cons_of_ne_nil hne
  simp only [preparation, find?_other_contract hname]
  rw [hname first List.mem_cons_self]

/-- The transactions are not all for one contract: the first is for `expected`, and the
earliest that is for another one is for `found`. -/
def Mixes (ts : List Transaction) (expected found : String) : Prop :=
  ∃ first before other after, ts = first :: (before ++ other :: after) ∧
    (∀ t ∈ before, t.contract = first.contract) ∧ other.contract ≠ first.contract ∧
    expected = first.contract ∧ found = other.contract

theorem mixes_or_uniform (ts : List Transaction) :
    ts = [] ∨ (∃ expected found, Mixes ts expected found) ∨
      ts ≠ [] ∧ ∃ name, ∀ t ∈ ts, t.contract = name := by
  rcases ts with _ | ⟨first, rest⟩
  · exact .inl rfl
  · refine .inr ?_
    cases hfind : rest.find? (·.contract ≠ first.contract) with
    | some other =>
      obtain ⟨hother, before, after, rfl, hbefore⟩ := List.find?_eq_some_iff_append.1 hfind
      refine .inl ⟨_, _, first, before, other, after, rfl, ?_, ?_, rfl, rfl⟩
      · simpa using hbefore
      · simpa using hother
    | none =>
      refine .inr ⟨List.cons_ne_nil _ _, first.contract, List.forall_mem_cons.2 ⟨rfl, ?_⟩⟩
      simpa using hfind

theorem preparation_of_mixes (source : SourceUnit) {ts : List Transaction}
    {expected found : String} (h : Mixes ts expected found) :
    preparation source ts = .error (.multipleContracts expected found) := by
  obtain ⟨first, before, other, after, rfl, hbefore, hother, rfl, rfl⟩ := h
  have hfind : (first :: (before ++ other :: after)).find? (·.contract ≠ first.contract) =
      some other := by
    rw [List.find?_cons_of_neg (by simp), List.find?_eq_some_iff_append]
    refine ⟨by simpa using hother, before, after, rfl, ?_⟩
    simpa using hbefore
  simp only [preparation, hfind]

/-- The transactions of a run start in a prepared session; without one, nothing happens. -/
theorem runTransactions_apply (ts : List Transaction) (s : Session) :
    ∃ log, runTransactions ts s = match preparation s.program.source ts with
      | .error e => (.error e, { s with log })
      | .ok (contract, storage) =>
        interpretTransactions 0 ts { s with storage, active := some contract, log } := by
  cases ts with
  | nil => exact ⟨s.log, rfl⟩
  | cons first rest =>
    simp only [runTransactions, preparation]
    cases (first :: rest).find? (·.contract ≠ first.contract) with
    | some other => exact ⟨s.log, rfl⟩
    | none =>
      dsimp only
      cases hc : s.program.source.contract? first.contract with
      | none => exact ⟨s.log, bind_of_error (contract_of_none hc) _⟩
      | some contract =>
        dsimp only
        rw [bind_of_ok (contract_of_some hc)]
        cases hseed : Flat.seed contract.storage with
        | error e =>
          obtain ⟨log, h⟩ := seedStorage_of_error hseed s
          exact ⟨log, bind_of_error h _⟩
        | ok storage =>
          obtain ⟨log, h⟩ := seedStorage_of_ok hseed s
          exact ⟨log, bind_of_ok h _⟩

theorem runTransactions_of_unprepared {ts : List Transaction} {s : Session} {e : RunError}
    (h : preparation s.program.source ts = .error e) :
    ∃ log, runTransactions ts s = (.error e, { s with log }) := by
  simpa only [h] using runTransactions_apply ts s

theorem runTransactions_of_prepared {ts : List Transaction} {s : Session}
    {storage : Environment} (h : preparation s.program.source ts = .ok (contract, storage)) :
    ∃ log, runTransactions ts s =
      interpretTransactions 0 ts { s with storage, active := some contract, log } := by
  simpa only [h] using runTransactions_apply ts s

/-! ### The run -/

/-- The transactions of a run do what the flat run does. -/
theorem runTransactions_flat {name : String} {ts : List Transaction} (hne : ts ≠ [])
    (hname : ∀ t ∈ ts, t.contract = name) (s : Session) (hq : s.Quiescent) :
    match Flat.run s.program.source s.configuration.errorPolicy name ts s.generator with
    | (.ok blocks, g) => ∃ storage active coverage log,
        runTransactions ts s = (.ok (), { s with
          generator := g
          storage
          active
          coverage
          trace := ⟨s.trace.committed ++ blocks.flatten, none⟩
          log })
    | (.error e, _) => (runTransactions ts s).1 = .error e := by
  have hprepared := preparation_of_uniform s.program.source hne hname
  rw [Flat.run]
  cases hc : s.program.source.contract? name with
  | none =>
    rw [hc] at hprepared
    obtain ⟨log, h⟩ := runTransactions_of_unprepared hprepared
    exact congrArg Prod.fst h
  | some contract =>
    rw [require_some_bind]
    rw [hc] at hprepared
    cases hseed : Flat.seed contract.storage with
    | error e =>
      simp only [hseed] at hprepared
      obtain ⟨log, h⟩ := runTransactions_of_unprepared hprepared
      exact congrArg Prod.fst h
    | ok storage =>
      simp only [hseed] at hprepared
      obtain ⟨log, h⟩ := runTransactions_of_prepared hprepared
      have hrun := interpretTransactions_flat ts 0
        { s with storage, active := some contract, log } ⟨hq.no_frame, hq.no_pending⟩
        (fun t ht => by rw [hname t ht, hc]) rfl
      rw [h]
      dsimp only at hrun ⊢
      rcases hts : Flat.transactions s.configuration.errorPolicy contract storage ts
        s.generator with ⟨e | blocks, g⟩ <;> rw [hts] at hrun
      · exact hrun
      · obtain ⟨coverage, log', h'⟩ := hrun
        exact ⟨storage, some contract, coverage, log', h'⟩

/-- The session in which the transactions of a run start. -/
def cleared (s : Session) : Session := { s with trace := .empty, failed := false }

theorem run_of_ok {s s' : Session}
    (h : runTransactions s.program.transactions s.cleared = (.ok (), s')) :
    ∃ log, run s = (.ok (), { s' with log }) := by
  rw [cleared] at h
  rw [run]
  simp only [h]
  exact ⟨_, rfl⟩

/-- A failed run discards the trace. -/
theorem run_of_error {s s' : Session} {e : RunError}
    (h : runTransactions s.program.transactions s.cleared = (.error e, s')) :
    ∃ log, run s = (.error e, { s' with trace := .empty, failed := true, log }) := by
  rw [cleared] at h
  rw [run]
  simp only [h]
  exact ⟨_, rfl⟩

theorem run_of_unprepared {s : Session} {e : RunError}
    (h : preparation s.program.source s.program.transactions = .error e) :
    ∃ log, run s = (.error e, { s with trace := .empty, failed := true, log }) := by
  obtain ⟨log, hr⟩ := runTransactions_of_unprepared (s := s.cleared) h
  obtain ⟨log', hrun⟩ := run_of_error hr
  exact ⟨log', hrun⟩

theorem Quiescent.cleared {s : Session} (h : s.Quiescent) : s.cleared.Quiescent :=
  ⟨h.no_frame, rfl⟩

/-- Whatever happened before it, a run is the flat run from the current generator. -/
theorem run_flat {s : Session} (hq : s.Quiescent) {name : String}
    (hne : s.program.transactions ≠ [])
    (hname : ∀ t ∈ s.program.transactions, t.contract = name) :
    match Flat.run s.program.source s.configuration.errorPolicy name s.program.transactions
      s.generator with
    | (.ok blocks, g) => (run s).1 = .ok () ∧ (run s).2.trace.committed = blocks.flatten ∧
        (run s).2.generator = g
    | (.error e, _) => (run s).1 = .error e := by
  have h := runTransactions_flat hne hname s.cleared hq.cleared
  simp only [cleared] at h
  rcases hflat : Flat.run s.program.source s.configuration.errorPolicy name
    s.program.transactions s.generator with ⟨e | blocks, g⟩ <;> rw [hflat] at h
  · obtain ⟨s', hr⟩ : ∃ s', runTransactions s.program.transactions s.cleared = (.error e, s') :=
      ⟨_, Prod.ext h rfl⟩
    obtain ⟨log, hrun⟩ := run_of_error hr
    exact congrArg Prod.fst hrun
  · obtain ⟨storage, active, coverage, log, hr⟩ := h
    obtain ⟨log', hrun⟩ := run_of_ok hr
    rw [hrun]
    exact ⟨rfl, rfl, rfl⟩

/-- A run of a fresh session succeeds exactly if the flat run does, its trace is then the
events of all transactions in order, and it fails with the flat run's failure otherwise. -/
theorem run_start_flat (source : SourceUnit) (configuration : Configuration) (name : String)
    (ts : List Transaction) (hne : ts ≠ []) (hname : ∀ t ∈ ts, t.contract = name) :
    let outcome := run (start ⟨source, ts⟩ configuration)
    let flat := (Flat.run source configuration.errorPolicy name ts (.ofSeed configuration.seed)).1
    outcome.1 = flat.map (fun _ => ()) ∧
      ∀ blocks, flat = .ok blocks → outcome.2.trace.committed = blocks.flatten := by
  intro outcome flat
  have h := run_flat (s := start ⟨source, ts⟩ configuration) ⟨rfl, rfl⟩ hne hname
  simp only [start] at h
  rcases hflat : Flat.run source configuration.errorPolicy name ts (.ofSeed configuration.seed)
    with ⟨e | blocks, g⟩ <;> rw [hflat] at h
  · have hflat : flat = .error e := congrArg Prod.fst hflat
    rw [hflat]
    refine ⟨h, fun blocks hblocks => ?_⟩
    cases hblocks
  · have hflat : flat = .ok blocks := congrArg Prod.fst hflat
    rw [hflat]
    refine ⟨h.1, fun blocks' hblocks => ?_⟩
    cases hblocks
    exact h.2.1

/-- A return two blocks deep; every level has an emit behind it. -/
def deepReturn : SourceUnit :=
  let emit (id : NodeId) (name : String) (arguments : List Expression) : Statement :=
    .emit id ⟨id, .identifier id name none, arguments⟩
  let x : Expression := .identifier 20 "x" none
  ⟨[⟨1, "C", [⟨2, "x", .integer .uint256, some (.integer 5 .uint256)⟩], [], [⟨3, "f", [], ⟨4,
    [emit 5 "A" [.binary 21 .add x x],
      .block 6 [.block 7 [.ret 8 none, emit 9 "B" []], emit 10 "B" []],
      emit 11 "B" []]⟩⟩]⟩]⟩

theorem run_start_flat_deepReturn :
    let ts : List Transaction := [⟨"C", "f", []⟩, ⟨"C", "f", []⟩]
    let outcome := run (start ⟨deepReturn, ts⟩ {})
    (ts ≠ [] ∧ ∀ t ∈ ts, t.contract = "C") ∧ outcome.1 = .ok () ∧
      outcome.2.trace.committed =
        [⟨"A", [(0, .integer 10 .uint256)]⟩, ⟨"A", [(0, .integer 10 .uint256)]⟩] := by
  intro ts outcome
  have hne : ts ≠ [] := List.cons_ne_nil _ _
  have hname : ∀ t ∈ ts, t.contract = "C" := by
    intro t ht
    rcases List.mem_cons.1 ht with rfl | ht
    · rfl
    · rw [List.mem_singleton.1 ht]
  have hflat : ∀ g, Flat.run deepReturn .fail "C" ts g =
      (.ok [[⟨"A", [(0, .integer 10 .uint256)]⟩], [⟨"A", [(0, .integer 10 .uint256)]⟩]], g) :=
    fun _ => rfl
  have h := run_start_flat deepReturn {} "C" ts hne hname
  rw [hflat] at h
  obtain ⟨hresult, htrace⟩ := h
  refine ⟨⟨hne, hname⟩, hresult, ?_⟩
  rw [htrace _ rfl]
  rfl

end ContractTrace.Session
