import ContractTrace.Proofs.Independence
import ContractTrace.Proofs.Lockstep
import Mathlib.Logic.Function.Iterate

/-! What happened before a run reaches it through the generator only. A run seeds storage
anew and clears trace and failure flag, so that from there on it goes in lockstep with the run
of a fresh session that has the same generator; to the coverage it adds what that run covers. -/

namespace ContractTrace

/-! ### Coverage -/

theorem IdSet.mem_insertSorted {x id : NodeId} {ids : List NodeId} :
    x ∈ insertSorted id ids ↔ x = id ∨ x ∈ ids := by
  induction ids with
  | nil => simp [insertSorted]
  | cons y ys ih =>
    rw [insertSorted]
    split_ifs with hlt heq
    · exact List.mem_cons
    · simp [heq]
    · rw [List.mem_cons, ih, List.mem_cons]
      exact or_left_comm

theorem Coverage.contains_mark (c : Coverage) (id x : NodeId) :
    (c.mark id).2.covered.contains x = (x == id || c.covered.contains x) := by
  have h : x ∈ IdSet.insertSorted id c.covered.ids ↔ x = id ∨ x ∈ c.covered.ids :=
    IdSet.mem_insertSorted
  rw [Bool.eq_iff_iff]
  simpa [mark, IdSet.contains, IdSet.insert] using h

/-- The first coverage is the given one united with the second. -/
def Coverage.Extends (c a b : Coverage) : Prop :=
  ∀ id, a.covered.contains id = (c.covered.contains id || b.covered.contains id)

theorem Coverage.Extends.mark {c a b : Coverage} (h : c.Extends a b) (id : NodeId) :
    c.Extends (a.mark id).2 (b.mark id).2 := by
  intro x
  rw [contains_mark, contains_mark, h x]
  exact Bool.or_left_comm _ _ _

namespace Session

open ContractTrace.Task (never)

/-! ### Two runs -/

theorem Quiescent.stack_eq {s : Session} (h : s.Quiescent) : s.stack = .empty :=
  congrArg CallStack.mk h.no_frame

/-- From preparation on, two runs of the same transactions go in lockstep. -/
theorem run_beside {C : Coverage → Coverage → Prop}
    (hmark : ∀ {a b : Coverage}, C a b → ∀ id, C (a.mark id).2 (b.mark id).2)
    {s t : Session} (hs : s.Quiescent) (ht : t.Quiescent) (hprogram : t.program = s.program)
    (hpolicy : t.configuration.errorPolicy = s.configuration.errorPolicy)
    (hgenerator : t.generator = s.generator) (hcoverage : C s.coverage t.coverage)
    {contract : Contract} {storage : Environment}
    (h : preparation s.program.source s.program.transactions = .ok (contract, storage)) :
    (run t).1 = (run s).1 ∧ Beside C (run s).2 (run t).2 := by
  have h' : preparation t.program.source s.program.transactions = .ok (contract, storage) := by
    rw [hprogram, h]
  obtain ⟨log, hr⟩ := runTransactions_of_prepared (s := s.cleared) h
  obtain ⟨log', hr'⟩ := runTransactions_of_prepared (s := t.cleared) h'
  -- whatever storage, trace and failure flag were, they are equal now
  have hprepared : Beside C { s.cleared with storage, active := some contract, log }
      { t.cleared with storage, active := some contract, log := log' } :=
    { source_eq := congrArg Program.source hprogram
      policy_eq := hpolicy
      core_eq := by simp only [core, cleared, hs.stack_eq, ht.stack_eq]
      generator_eq := hgenerator
      coverage := hcoverage }
  have hlockstep : Lockstep (Beside C) never := beside_lockstep hmark
  obtain ⟨hresult, hend⟩ :=
    (hlockstep.interpretTransactions s.program.transactions 0 _ _ hprepared).exact
  rw [← hr, ← hr'] at hresult hend
  rcases hs' : runTransactions s.program.transactions s.cleared with ⟨result, s'⟩
  rcases ht' : runTransactions s.program.transactions t.cleared with ⟨result', t'⟩
  rw [hs', ht'] at hresult hend
  cases hresult
  rw [← hprogram] at ht'
  cases result with
  | error e =>
    obtain ⟨_, hrun⟩ := run_of_error hs'
    obtain ⟨_, hrun'⟩ := run_of_error ht'
    rw [hrun, hrun']
    exact ⟨rfl, hlockstep.update hend (fun c => { c with trace := .empty, failed := true }) _ _⟩
  | ok _ =>
    obtain ⟨_, hrun⟩ := run_of_ok hs'
    obtain ⟨_, hrun'⟩ := run_of_ok ht'
    rw [hrun, hrun']
    exact ⟨rfl, hlockstep.update hend id _ _⟩

/-! ### Reachable sessions -/

variable {program : Program} {configuration configuration' : Configuration} {s : Session}

/-- A session that has done nothing, with a generator in the given state. -/
def fresh (program : Program) (configuration : Configuration) (g : Generator) : Session :=
  { start program configuration with generator := g }

theorem run_beside_fresh (h : Reachable program configuration s)
    (hpolicy : configuration'.errorPolicy = configuration.errorPolicy) :
    let again := run (fresh program configuration' s.generator)
    (run s).1 = again.1 ∧ (run s).2.trace = again.2.trace ∧
      (run s).2.generator = again.2.generator ∧
      (∀ prepared, preparation program.source program.transactions = .ok prepared →
        (run s).2.storage = again.2.storage ∧ (run s).2.active = again.2.active) ∧
      s.coverage.Extends (run s).2.coverage again.2.coverage := by
  intro again
  obtain ⟨hq, rfl, rfl⟩ := h.idle
  have hfresh : (fresh s.program configuration' s.generator).Quiescent := ⟨rfl, rfl⟩
  have hcoverage : s.coverage.Extends s.coverage .empty := fun id => (Bool.or_false _).symm
  cases hprepared : preparation s.program.source s.program.transactions with
  | error e =>
    obtain ⟨log, hrun⟩ := run_of_unprepared hprepared
    obtain ⟨log', hrun'⟩ := run_of_unprepared (s := fresh s.program configuration' s.generator)
      hprepared
    rw [hrun, show again = _ from hrun']
    refine ⟨rfl, rfl, rfl, fun prepared h => ?_, hcoverage⟩
    cases h
  | ok prepared =>
    obtain ⟨hresult, hend⟩ :=
      run_beside (fun h id => h.mark id) hq hfresh rfl hpolicy rfl hcoverage hprepared
    have hcore : (run s).2.core = again.2.core := hend.core_eq.symm
    refine ⟨hresult.symm, congrArg Core.trace hcore, hend.generator_eq.symm, fun _ _ => ?_,
      hend.coverage⟩
    exact ⟨congrArg Core.storage hcore, congrArg Core.active hcore⟩

/-- Without substitution the generator stays as it was seeded. -/
theorem Reachable.generator_eq (h : Reachable program configuration s)
    (hpolicy : configuration.errorPolicy = .fail) :
    s.generator = .ofSeed configuration.seed := by
  have hP : Stable fun s => s.configuration.errorPolicy = .fail ∧
      s.generator = .ofSeed configuration.seed := by
    refine ⟨fun hs _ => hs, ?_, fun hs _ _ _ _ => hs⟩
    rintro s c body result p ⟨hfail, hgenerator⟩ hc hwalk
    have hkept := (Flat.Context.walk_undrawn (hc.trans hfail) body ⟨s.generator, []⟩
      ⟨s.generator, []⟩ ⟨rfl, rfl, rfl⟩).exact.2.1
    rw [hwalk] at hkept
    exact ⟨hfail, hkept.trans hgenerator⟩
  exact (h.stable hP ⟨hpolicy, rfl⟩).2.2

theorem Reachable.iterate_run (h : Reachable program configuration s) (n : Nat) :
    Reachable program configuration ((fun u => (run u).2)^[n] s) := by
  induction n with
  | zero => exact h
  | succ n ih =>
    rw [Function.iterate_succ_apply']
    exact .step ih .run

/-- Whatever was done before, a run gives the result, the trace and the generator of the run
of a fresh session from the current generator, and its storage if storage gets seeded; the
coverage grows by what that run covers. Without substitution all runs of a session give the
same result and the same trace. -/
theorem run_forgets (h : Reachable program configuration s)
    (hpolicy : configuration'.errorPolicy = configuration.errorPolicy) :
    let again := run (fresh program configuration' s.generator)
    ((run s).1 = again.1 ∧ (run s).2.trace = again.2.trace ∧
      (run s).2.generator = again.2.generator ∧
      (∀ prepared, preparation program.source program.transactions = .ok prepared →
        (run s).2.storage = again.2.storage ∧ (run s).2.active = again.2.active) ∧
      ∀ id, (run s).2.coverage.covered.contains id =
        (s.coverage.covered.contains id || again.2.coverage.covered.contains id)) ∧
    (configuration.errorPolicy = .fail → ∀ n,
      (run ((fun u => (run u).2)^[n] s)).1 = (run s).1 ∧
      (run ((fun u => (run u).2)^[n] s)).2.trace = (run s).2.trace) := by
  intro again
  obtain ⟨hresult, htrace, hgenerator, hstorage, hcoverage⟩ := run_beside_fresh h hpolicy
  refine ⟨⟨hresult, htrace, hgenerator, hstorage, hcoverage⟩, ?_⟩
  intro hfail n
  have hn := h.iterate_run n
  -- both runs are beside the run of one fresh session
  obtain ⟨hresult', htrace', -⟩ := run_beside_fresh hn hpolicy
  rw [hn.generator_eq hfail] at hresult' htrace'
  rw [h.generator_eq hfail] at hresult htrace
  exact ⟨hresult'.trans hresult.symm, htrace'.trans htrace.symm⟩

/-- After a call with events of its own and a mark on a node that the run never visits. -/
theorem run_forgets_addition :
    let program : Program := ⟨addition, [addCall 1]⟩
    let s := (Operation.interpret (.statement (.placeholder 77))).perform
      ((Operation.transaction (addCall 2)).perform (start program {}))
    Reachable program {} s ∧ s.trace.committed = [sumEvent 7] ∧ (run s).1 = .ok () ∧
      (run s).2.trace.committed = [sumEvent 6] ∧
      (run s).2.coverage.covered.contains 77 = true ∧
      (run ((fun u => (run u).2)^[3] s)).2.trace.committed = [sumEvent 6] := by
  intro program s
  have hs : Reachable program {} s := .step (.step .start _) _
  have hcovered : s.coverage.covered.contains 77 = true := rfl
  -- for any session, so that nothing has to be evaluated to see that the statements match
  have hruns : ∀ s, Reachable program {} s → s.coverage.covered.contains 77 = true →
      (run s).1 = .ok () ∧ (run s).2.trace.committed = [sumEvent 6] ∧
      (run s).2.coverage.covered.contains 77 = true ∧
      (run ((fun u => (run u).2)^[3] s)).2.trace.committed = [sumEvent 6] := by
    intro s hs hcovered
    have hpolicy : ({} : Configuration).errorPolicy = ({} : Configuration).errorPolicy := rfl
    obtain ⟨⟨hresult, htrace, -, -, hcoverage⟩, hrepeat⟩ := run_forgets hs hpolicy
    have hfresh : (run (fresh program {} s.generator)).1 = .ok () := rfl
    have hevents : (run (fresh program {} s.generator)).2.trace.committed = [sumEvent 6] := rfl
    rw [htrace] at hrepeat
    refine ⟨hresult.trans hfresh, by rw [htrace, hevents], by rw [hcoverage, hcovered]; rfl, ?_⟩
    rw [(hrepeat rfl 3).2, hevents]
  exact ⟨hs, rfl, hruns s hs hcovered⟩

end Session

end ContractTrace
