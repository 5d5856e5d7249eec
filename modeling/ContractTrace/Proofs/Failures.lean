import ContractTrace.Proofs.Draws
import ContractTrace.Proofs.Independence
import ContractTrace.Proofs.Policy

/-! The failures that runs and transactions have. Every variable in view of a call has a value,
and every drawn integer fits its type, so that no failure tells of the contrary; under
substitution none is an arithmetic fault. A run fails over two contracts exactly if its
transactions are for two. -/

namespace ContractTrace

open ContractTrace.Task (Raises)

/-! ### Evaluation -/

theorem EvaluationError.IsFault.not_internal {e : EvaluationError} (h : e.IsFault) :
    ¬ e.IsInternal := by
  cases e with
  | overflow | divisionByZero => exact id
  | _ => exact h.elim

/-- A failure that evaluation has under the policy. -/
def EvaluationError.Regular (policy : ErrorPolicy) (e : EvaluationError) : Prop :=
  ¬ e.IsInternal ∧ (policy = .substitute → ¬ e.IsFault)

namespace Evaluation

variable (policy : ErrorPolicy)

theorem resolve_raises {error : EvaluationError} (h : error.IsFault) (operator : String)
    (ty : IntegerType) :
    Raises (EvaluationError.Regular policy) (resolve policy error operator ty) := by
  cases policy with
  | fail => exact .fail ⟨h.not_internal, fun hpolicy => by cases hpolicy⟩
  | substitute =>
    intro state e he
    obtain ⟨v, hv⟩ := substitute_eq_ok operator ty state
    rw [resolve, hv] at he
    cases he

theorem Decides.raises {operand : Value} {x : ErrorPolicy → Evaluation Value}
    (h : Decides operand x) : Raises (EvaluationError.Regular policy) (x policy) := by
  cases h with
  | value hx =>
    rw [hx]
    exact .pure _
  | failure hx herror =>
    rw [hx]
    exact .fail ⟨herror.2, fun _ => herror.1⟩
  | fault hx herror =>
    rw [hx]
    exact resolve_raises policy herror _ _

theorem checked_confined : (checked policy).Confined (EvaluationError.Regular policy) where
  undeclared _ := ⟨id, fun _ => id⟩
  nonBoolean _ := ⟨id, fun _ => id⟩
  unsupported _ _ := ⟨id, fun _ => id⟩
  binary operator a b := (binary_decides operator a b).raises policy
  unary operator a := (unary_decides operator a).raises policy

end Evaluation

/-- Every variable has a value. -/
def Environment.Initialized (env : Environment) : Prop := ∀ b ∈ env.bindings, b.values ≠ []

/-- Over variables with values, evaluation has regular failures only. -/
theorem Evaluation.evaluate_raises (policy : ErrorPolicy) {locals storage : Environment}
    (hl : locals.Initialized) (hs : storage.Initialized) (e : Expression) :
    Raises (EvaluationError.Regular policy) (evaluate policy (.layered locals storage) e) := by
  rw [← checked_evaluate]
  refine Arithmetic.evaluate_raises (checked_confined policy) (fun name declaration b hb => ?_) e
  have hvalues : b.values ≠ [] := by
    rcases View.mem_bindings_of_lookup hb with hb | hb
    · exact hl b hb
    · exact hs b hb
  exact ⟨_, List.getLast?_eq_some_getLast hvalues⟩

/-! ### Transactions of a contract -/

/-- The failures of other operations, and those that would tell of a call without frame or of
an evaluation that contradicts what it is given. -/
def RunError.IsInternal : RunError → Prop
  | .callStackUnderflow _ => True
  | .invalidInvocation _ _ => True
  | .traceDiscarded => True
  | .io _ => True
  | .serialization _ => True
  | .evaluation error => error.IsInternal
  | _ => False

/-- A failure that runs and transactions have under the policy. -/
def RunError.Regular (policy : ErrorPolicy) (e : RunError) : Prop :=
  ¬ e.IsInternal ∧ (policy = .substitute → ¬ e.IsFault)

/-- A failure of transactions that are for one contract. -/
structure RunError.Single (policy : ErrorPolicy) (e : RunError) : Prop where
  regular : e.Regular policy
  not_multiple : ∀ expected found, e ≠ .multipleContracts expected found

namespace Flat

theorem locals_initialized (ps : List Parameter) (vs : List Value) :
    (locals ps vs).Initialized := by
  have hbound : ∀ b ∈ (Session.bindArguments 1 .locals ps vs).bindings, b.values ≠ [] :=
    Session.forall_mem_bindArguments 1 (fun _ hb => by cases hb) fun _ _ => List.cons_ne_nil _ _
  rwa [Session.bindArguments_eq] at hbound

theorem seed_initialized {vs : List StorageVariable} {storage : Environment}
    (h : seed vs = .ok storage) : storage.Initialized := by
  refine Session.forall_mem_seed (fun v _ value b hb => ?_) h
  unfold Session.initialBinding at hb
  split at hb
  · cases hb
  · split_ifs at hb
    cases hb
    exact List.cons_ne_nil _ _

theorem seed_error {vs : List StorageVariable} {e : RunError} (h : seed vs = .error e) :
    ∃ name fault, e = .environmentInitialization name fault := by
  unfold seed at h
  generalize Environment.storage = env at h
  induction vs generalizing env with
  | nil => cases h
  | cons v vs ih =>
    rw [List.foldlM_cons] at h
    unfold Session.initialBinding at h
    split at h
    · cases h
      exact ⟨v.name, _, rfl⟩
    · split_ifs at h
      · exact ih _ h
      · cases h
        exact ⟨v.name, _, rfl⟩

theorem Context.Fails.single {c : Context} (hl : c.locals.Initialized)
    (hs : c.storage.Initialized) {e : RunError} (h : c.Fails e) : e.Single c.policy := by
  refine ⟨?_, fun _ _ he => by cases h <;> cases he⟩
  cases h with
  | evaluation h => exact Evaluation.evaluate_raises c.policy hl hs _ _ _ h
  | _ => exact ⟨id, fun _ => id⟩

theorem Context.call_raises {c : Context} (hl : c.locals.Initialized)
    (hs : c.storage.Initialized) (body : List Statement) :
    Raises (RunError.Single c.policy) (c.call body) := by
  intro g e h
  have hwalk := c.walk_fails (spliceAll body) ⟨g, []⟩ e
  simp only [call] at h
  rcases hr : c.walk (spliceAll body) ⟨g, []⟩ with ⟨error | value, p⟩ <;> rw [hr] at h hwalk
  · cases h
    exact (hwalk rfl).single hl hs
  · cases h

variable {policy : ErrorPolicy} {contract : Contract} {storage : Environment}

theorem transaction_raises (hs : storage.Initialized) (t : Transaction) :
    Raises (RunError.Single policy) (transaction policy contract storage t) := by
  refine (Raises.require ⟨⟨id, fun _ => id⟩, nofun⟩ _).bind fun function => ?_
  split
  · exact .fail ⟨⟨id, fun _ => id⟩, nofun⟩
  · exact Context.call_raises (locals_initialized _ _) hs _

theorem transactions_raises (hs : storage.Initialized) (ts : List Transaction) :
    Raises (RunError.Single policy) (transactions policy contract storage ts) := by
  induction ts with
  | nil => exact .pure []
  | cons t ts ih =>
    exact (transaction_raises hs t).bind fun events => ih.bind fun rest => .pure (events :: rest)

theorem run_raises (source : SourceUnit) (policy : ErrorPolicy) (name : String)
    (ts : List Transaction) : Raises (RunError.Single policy) (run source policy name ts) := by
  refine (Raises.require ⟨⟨id, fun _ => id⟩, nofun⟩ _).bind fun contract => ?_
  split
  next e hseed =>
    obtain ⟨name, fault, rfl⟩ := seed_error hseed
    exact .fail ⟨⟨id, fun _ => id⟩, nofun⟩
  next storage hseed => exact transactions_raises (seed_initialized hseed) ts

end Flat

namespace Session

/-! ### Runs and transactions -/

variable {program : Program} {configuration : Configuration} {s : Session}

/-- A run has no transactions, is for two contracts, or fails as its transactions do. -/
theorem run_error_cases (hq : s.Quiescent) {e : RunError} (h : (run s).1 = .error e) :
    e = .noTransactions ∨
    (∃ expected found, Mixes s.program.transactions expected found ∧
      e = .multipleContracts expected found) ∨
    e.Single s.configuration.errorPolicy := by
  rcases mixes_or_uniform s.program.transactions with
    hempty | ⟨expected, found, hmixes⟩ | ⟨hne, name, hname⟩
  · have hprepared : preparation s.program.source s.program.transactions =
        .error .noTransactions := by rw [hempty, preparation]
    obtain ⟨log, hrun⟩ := run_of_unprepared hprepared
    rw [hrun] at h
    cases h
    exact .inl rfl
  · obtain ⟨log, hrun⟩ := run_of_unprepared (preparation_of_mixes _ hmixes)
    rw [hrun] at h
    cases h
    exact .inr (.inl ⟨expected, found, hmixes, rfl⟩)
  · have hflat := run_flat hq hne hname
    have hraises := Flat.run_raises s.program.source s.configuration.errorPolicy name
      s.program.transactions s.generator
    rcases hr : Flat.run s.program.source s.configuration.errorPolicy name
      s.program.transactions s.generator with ⟨error | blocks, g⟩ <;> rw [hr] at hflat hraises
    · rw [hflat] at h
      cases h
      exact .inr (.inr (hraises e rfl))
    · rw [hflat.1] at h
      cases h

theorem Refuses.regular {t : Transaction} {e : RunError} (h : Refuses s t e)
    (policy : ErrorPolicy) : e.Regular policy := by
  cases h with
  | contract | function | arguments => exact ⟨id, fun _ => id⟩
  | storage _ _ _ h =>
    rw [storageFor] at h
    split at h
    · obtain ⟨name, fault, rfl⟩ := Flat.seed_error h
      exact ⟨id, fun _ => id⟩
    · split_ifs at h
      cases h
      exact ⟨id, fun _ => id⟩

theorem interpretTransaction_regular (hq : s.Quiescent) (hs : s.storage.Initialized)
    {t : Transaction} {e : RunError} (h : (interpretTransaction t s).1 = .error e) :
    e.Regular s.configuration.errorPolicy := by
  rcases refuses_or_admits s t with ⟨error, ht⟩ | ⟨contract, function, storage, ht⟩
  · obtain ⟨log, hr⟩ := interpretTransaction_of_refuses ht
    rw [hr] at h
    cases h
    exact ht.regular _
  · obtain ⟨result, p, coverage, log, hwalk, hr⟩ := interpretTransaction_of_admits ht hq.no_frame
    rw [hr] at h
    have hstorage : storage.Initialized := by
      rcases ht.storage_cases with ⟨rfl, -⟩ | ⟨-, hseed⟩
      · exact hs
      · exact Flat.seed_initialized hseed
    have hfails := Flat.Context.walk_fails _ _ _ e ((congrArg Prod.fst hwalk).trans h)
    exact (hfails.single (Flat.locals_initialized _ _) hstorage).regular

theorem Reachable.initialized (h : Reachable program configuration s) :
    s.storage.Initialized := by
  have hP : Stable fun s => s.storage.Initialized :=
    ⟨fun _ hseed => Flat.seed_initialized hseed, fun hs _ _ => hs, fun hs _ _ _ _ => hs⟩
  exact (h.stable hP fun _ hb => by cases hb).2

/-- Runs and transactions in a reachable session never fail internally, and under substitution
they do not fail with a fault. A run reports two contracts exactly if its transactions name
them, the second being the earliest that differs from the first. -/
theorem no_internal_failure (h : Reachable program configuration s) :
    (∀ e, ((run s).1 = .error e ∨ ∃ t, (interpretTransaction t s).1 = .error e) →
      ¬ e.IsInternal ∧ (configuration.errorPolicy = .substitute → ¬ e.IsFault)) ∧
    ∀ expected found, (run s).1 = .error (.multipleContracts expected found) ↔
      Mixes program.transactions expected found := by
  obtain ⟨hq, hprogram, hconfiguration⟩ := h.idle
  have hstorage := h.initialized
  subst hprogram hconfiguration
  refine ⟨?_, fun expected found => ⟨fun hrun => ?_, fun hmixes => ?_⟩⟩
  · rintro e (hrun | ⟨t, ht⟩)
    · rcases run_error_cases hq hrun with rfl | ⟨expected, found, -, rfl⟩ | he
      · exact ⟨id, fun _ => id⟩
      · exact ⟨id, fun _ => id⟩
      · exact he.regular
    · exact interpretTransaction_regular hq hstorage ht
  · rcases run_error_cases hq hrun with he | ⟨expected', found', hmixes, he⟩ | he
    · cases he
    · cases he
      exact hmixes
    · exact absurd rfl (he.not_multiple expected found)
  · obtain ⟨log, hrun⟩ := run_of_unprepared (preparation_of_mixes _ hmixes)
    rw [hrun]

/-- The third contract is not looked at. Whatever is asked of a session that substitutes, it
does not fail internally or with a fault. -/
theorem no_internal_failure_addition :
    (run (start ⟨addition, [addCall 1, addCall 2, ⟨"D", "f", []⟩, ⟨"E", "f", []⟩]⟩ {})).1 =
        .error (.multipleContracts "C" "D") ∧
      ∀ t e, (interpretTransaction t
          (start ⟨addition, [addCall 1]⟩ { errorPolicy := .substitute })).1 = .error e →
        ¬ e.IsInternal ∧ ¬ e.IsFault := by
  constructor
  · refine ((no_internal_failure .start).2 "C" "D").2 ?_
    refine ⟨addCall 1, [addCall 2], ⟨"D", "f", []⟩, [⟨"E", "f", []⟩], rfl, ?_, ?_, rfl, rfl⟩
    · exact List.forall_mem_singleton.2 rfl
    · decide
  · intro t e he
    obtain ⟨hinternal, hfault⟩ := (no_internal_failure .start).1 e (.inr ⟨t, he⟩)
    exact ⟨hinternal, hfault rfl⟩

end Session

end ContractTrace
