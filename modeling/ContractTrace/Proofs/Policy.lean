import ContractTrace.Proofs.Lockstep
import ContractTrace.Proofs.Run

/-! Substitution changes nothing but faults. A session that fails on faults and its twin that
substitutes run in lockstep until the first fault, and no value is drawn before it. -/

namespace ContractTrace

open ContractTrace.Task (Simulates Agree)

/-- The failures that substitution prevents. -/
def RunError.IsFault : RunError → Prop
  | .evaluation error => error.IsFault
  | _ => False

namespace Session

/-- The session under the policy that substitutes, with a log of its own. -/
def substituting (s : Session) (log : Log) : Session :=
  { s with configuration := { s.configuration with errorPolicy := .substitute }, log }

/-- A session that fails on faults, with the given generator, and the one that substitutes. -/
def Twin (g : Generator) (s t : Session) : Prop :=
  s.configuration.errorPolicy = .fail ∧ s.generator = g ∧ ∃ log, t = s.substituting log

variable {g : Generator}

/-- Here the policies part: the first fault ends the lockstep. -/
theorem evaluateHere_twin (e : Expression) :
    Simulates (Twin g) RunError.IsFault (evaluateHere e) (evaluateHere e) := by
  rintro s t ⟨hp, hg, log, rfl⟩
  rw [evaluateHere_apply, evaluateHere_apply]
  simp only [substituting]
  cases s.stack.current "evaluate" with
  | error fault => exact .inl ⟨rfl, hp, hg, log, rfl⟩
  | ok frame =>
    have h := Evaluation.evaluate_conservative g (.layered frame.locals s.storage) e
      ⟨s.generator, s.log⟩ ⟨s.generator, log⟩ ⟨hg, hg⟩
    simp only [hp]
    rcases h with ⟨hresult, hgenerator, hgenerator'⟩ | ⟨error, herror, hfault⟩
    · refine .inl ⟨congrArg (Except.mapError _) hresult, hp, hgenerator, ?log, ?same⟩
      case same =>
        rw [hgenerator, hgenerator']
        rfl
    · exact .inr ⟨.evaluation error, congrArg (Except.mapError _) herror, hfault⟩

theorem twin_lockstep : Lockstep (Twin g) RunError.IsFault where
  source_eq := by
    rintro s t ⟨-, -, log, rfl⟩
    rfl
  core_eq := by
    rintro s t ⟨-, -, log, rfl⟩
    rfl
  withCore := by
    rintro s t ⟨hp, hg, log, rfl⟩ core _ log'
    exact ⟨hp, hg, log', rfl⟩
  mark id := by
    refine .modify ?_
    rintro s t ⟨hp, hg, log, rfl⟩
    exact ⟨hp, hg, log, rfl⟩
  evaluateHere := evaluateHere_twin

theorem run_twin : Simulates (Twin g) RunError.IsFault run run := by
  rintro s t ⟨hp, hg, log, rfl⟩
  have hcleared : Twin g s.cleared (s.substituting log).cleared := ⟨hp, hg, log, rfl⟩
  have h := twin_lockstep.runTransactions s.program.transactions _ _ hcleared
  rcases hfail : runTransactions s.program.transactions s.cleared with ⟨result, s'⟩
  rcases hsubstitute : runTransactions s.program.transactions (s.substituting log).cleared
    with ⟨result', t'⟩
  rw [hfail, hsubstitute] at h
  rcases h with ⟨hresult, hp', hg', log', hsame⟩ | ⟨e, he, hfault⟩
  · cases hresult
    cases hsame
    cases result with
    | error e =>
      obtain ⟨_, hrun⟩ := run_of_error hfail
      obtain ⟨log'', hrun'⟩ := run_of_error (s := s.substituting log) hsubstitute
      rw [hrun, hrun']
      exact .inl ⟨rfl, hp', hg', log'', rfl⟩
    | ok _ =>
      obtain ⟨_, hrun⟩ := run_of_ok hfail
      obtain ⟨log'', hrun'⟩ := run_of_ok (s := s.substituting log) hsubstitute
      rw [hrun, hrun']
      exact .inl ⟨rfl, hp', hg', log'', rfl⟩
  · cases he
    obtain ⟨_, hrun⟩ := run_of_error hfail
    rw [hrun]
    exact .inr ⟨e, rfl, hfault⟩

/-- A run that succeeds also succeeds with substitution, with the same trace, storage and
coverage and with nothing drawn; a run that fails for another reason than a fault fails for the
same reason with substitution. -/
theorem run_conservative (program : Program) (configuration : Configuration) :
    let failing := run (start program { configuration with errorPolicy := .fail })
    let substituting := run (start program { configuration with errorPolicy := .substitute })
    (failing.1 = .ok () → substituting.1 = .ok () ∧
      substituting.2.trace = failing.2.trace ∧ substituting.2.storage = failing.2.storage ∧
      substituting.2.coverage = failing.2.coverage ∧
      substituting.2.generator = .ofSeed configuration.seed) ∧
    ∀ e, failing.1 = .error e → ¬ e.IsFault → substituting.1 = .error e := by
  intro failing substituting
  have htwin : Twin (.ofSeed configuration.seed)
      (start program { configuration with errorPolicy := .fail })
      (start program { configuration with errorPolicy := .substitute }) := ⟨rfl, rfl, #[], rfl⟩
  have h : Agree (Twin (.ofSeed configuration.seed)) RunError.IsFault failing substituting :=
    run_twin _ _ htwin
  rcases h with ⟨hresult, -, hg, log, hsame⟩ | ⟨e, he, hfault⟩
  · rw [← hresult, hsame]
    exact ⟨fun hok => ⟨hok, rfl, rfl, rfl, hg⟩, fun e he _ => he⟩
  · rw [he]
    refine ⟨fun hok => absurd hok (by simp), fun e' he' hnot => ?_⟩
    cases he'
    exact absurd hfault hnot

/-- A function that emits a sum, and one that ends at a statement that is not supported. -/
def sumOrStop (function : String) : Program :=
  let x : Expression := .identifier 20 "x" none
  ⟨⟨[⟨1, "C", [⟨2, "x", .integer .uint256, some (.integer 5 .uint256)⟩], [],
    [⟨3, "sum", [], ⟨4, [.emit 5 ⟨6, .identifier 7 "A" none, [.binary 8 .add x x]⟩]⟩⟩,
      ⟨9, "stop", [], ⟨10, [.block 11 [.block 12 [.placeholder 13]]]⟩⟩]⟩]⟩, [⟨"C", function, []⟩]⟩

theorem run_conservative_sumOrStop :
    ((run (start (sumOrStop "sum") { errorPolicy := .fail })).1 = .ok () ∧
      (run (start (sumOrStop "sum") { errorPolicy := .substitute })).1 = .ok ()) ∧
    ((run (start (sumOrStop "stop") { errorPolicy := .fail })).1 =
        .error (.unsupportedNode (.statement .placeholderStatement) 13) ∧
      (run (start (sumOrStop "stop") { errorPolicy := .substitute })).1 =
        .error (.unsupportedNode (.statement .placeholderStatement) 13)) := by
  -- for any program, so that nothing has to be evaluated to see that the statements match
  have hok : ∀ p, (run (start p { errorPolicy := .fail })).1 = .ok () →
      (run (start p { errorPolicy := .substitute })).1 = .ok () :=
    fun p h => ((run_conservative p {}).1 h).1
  have herror : ∀ p e, (run (start p { errorPolicy := .fail })).1 = .error e → ¬ e.IsFault →
      (run (start p { errorPolicy := .substitute })).1 = .error e :=
    fun p => (run_conservative p {}).2
  have hsum : (run (start (sumOrStop "sum") { errorPolicy := .fail })).1 = .ok () := rfl
  have hstop : (run (start (sumOrStop "stop") { errorPolicy := .fail })).1 =
      .error (.unsupportedNode (.statement .placeholderStatement) 13) := rfl
  exact ⟨⟨hsum, hok _ hsum⟩, hstop, herror _ _ hstop id⟩

end Session

end ContractTrace
