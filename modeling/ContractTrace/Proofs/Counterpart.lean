import ContractTrace.Proofs.Calls
import Mathlib.Data.List.Forall2

/-! Two programs that do the same. Bodies are walked alike if each of their statements is of the
same kind and evaluates its expressions to the same. Contracts are counterparts if their functions
are walked alike over the storages that they are seeded with, and sessions over counterparts then
answer every sequence of requests in the same way. -/

namespace ContractTrace

/-- Computations that agree and go on to agree from where the first succeeds. -/
theorem Task.Agree.bind {σ τ ε α β : Type} {Rel : σ → τ → Prop} {Excused : ε → Prop}
    {x : Task σ ε α} {y : Task τ ε α} {f : α → Task σ ε β} {g : α → Task τ ε β} {s : σ} {t : τ}
    (h : Agree Rel Excused (x s) (y t))
    (hf : ∀ a s' t', x s = (.ok a, s') → Rel s' t' → Agree Rel Excused (f a s') (g a t')) :
    Agree Rel Excused ((x >>= f) s) ((y >>= g) t) := by
  rw [bind_apply, bind_apply]
  rcases hx : x s with ⟨p, s'⟩
  rcases hy : y t with ⟨q, t'⟩
  rw [hx, hy] at h
  rcases h with ⟨hr, hrel⟩ | ⟨e, he, hex⟩
  · subst hr
    cases p with
    | ok a => exact hf a s' t' hx hrel
    | error e => exact .inl ⟨rfl, hrel⟩
  · subst he
    exact .inr ⟨e, rfl, hex⟩

/-! ### Bodies -/

namespace Flat

/-- Neither an emit nor a return: a walk fails there. -/
def isRefused : Statement → Bool
  | .emit .. | .ret .. => false
  | _ => true

/-- Statements of the same kind and id, whose evaluated expressions are related. -/
inductive Alike (V : Expression → Expression → Prop) : Statement → Statement → Prop
  | emit (id : NodeId) {call call' : Call}
      (hname : call'.callee.calleeName? = call.callee.calleeName?)
      (harguments : List.Forall₂ V call.arguments call'.arguments) :
      Alike V (.emit id call) (.emit id call')
  | ret (id : NodeId) {e e' : Option Expression} (h : Option.Rel V e e') :
      Alike V (.ret id e) (.ret id e')
  | refused {s s' : Statement} (hkind : s'.kind = s.kind) (hid : s'.id = s.id)
      (hs : isRefused s = true) (hs' : isRefused s' = true) : Alike V s s'

namespace Context

/-- The first expression is in the first context what the second is in the second. -/
def SameValue (c c' : Context) (e e' : Expression) : Prop := c'.value e' = c.value e

variable {c c' : Context}

theorem values_congr {es es' : List Expression} (h : List.Forall₂ (SameValue c c') es es') :
    c'.values es' = c.values es := by
  induction h with
  | nil => rfl
  | cons hvalue _ ih =>
    rw [SameValue] at hvalue
    rw [values, values, hvalue, ih]

theorem emit_congr (hevents : c'.contract.events = c.contract.events) {call call' : Call}
    (hname : call'.callee.calleeName? = call.callee.calleeName?)
    (harguments : List.Forall₂ (SameValue c c') call.arguments call'.arguments) (id : NodeId) :
    c'.emit id call' = c.emit id call := by
  have harity : ∀ name found, c'.checkArity name found = c.checkArity name found := by
    intro name found
    rw [checkArity, checkArity, Contract.event?, Contract.event?, hevents]
  simp only [emit, hname, harity, values_congr harguments, harguments.length_eq]

theorem returned_congr {e e' : Option Expression} (h : Option.Rel (SameValue c c') e e') :
    c'.returned e' = c.returned e := by
  cases h with
  | none => rfl
  | some hvalue => exact hvalue

theorem walk_of_refused (c : Context) {s : Statement} (h : isRefused s = true)
    (ss : List Statement) :
    c.walk (s :: ss) = Task.fail (.unsupportedNode (.statement s.kind) s.id) := by
  cases s with
  | emit | ret => cases h
  | _ => rfl

theorem walk_congr (hevents : c'.contract.events = c.contract.events) {ss ss' : List Statement}
    (h : List.Forall₂ (Alike (SameValue c c')) ss ss') : c'.walk ss' = c.walk ss := by
  induction h with
  | nil => rfl
  | cons hstatement _ ih =>
    cases hstatement with
    | emit id hname harguments => rw [walk, walk, emit_congr hevents hname harguments id, ih]
    | ret id h => rw [walk, walk, returned_congr h]
    | refused hkind hid hs hs' => rw [walk_of_refused c hs, walk_of_refused c' hs', hkind, hid]

end Context

/-- Why arguments are refused depends on the parameters only. -/
theorem fault?_congr {f f' : Function} (h : f'.parameters = f.parameters)
    (arguments : List Value) : fault? f' arguments = fault? f arguments := by
  rw [fault?, fault?, h]

end Flat

/-! ### Contracts -/

/-- The same failure, or related results. -/
inductive SameOutcome {ε α β : Type} (R : α → β → Prop) : Except ε α → Except ε β → Prop
  | ok {a : α} {b : β} (h : R a b) : SameOutcome R (.ok a) (.ok b)
  | error (e : ε) : SameOutcome R (.error e) (.error e)

/-- Functions that take the same arguments and, if called, are walked alike over related
storages. -/
structure Function.Matches (Called : Function → Prop) (R : Environment → Environment → Prop)
    (c c' : Contract) (f f' : Function) : Prop where
  name_eq : f'.name = f.name
  parameters_eq : f'.parameters = f.parameters
  walk_eq : Called f → ∀ (policy : ErrorPolicy) (locals : Environment)
    {storage storage' : Environment}, R storage storage' →
    (⟨policy, c', locals, storage'⟩ : Flat.Context).walk (Flat.spliceAll f'.body.statements) =
      (⟨policy, c, locals, storage⟩ : Flat.Context).walk (Flat.spliceAll f.body.statements)

/-- Contracts that are seeded with related storages, and whose functions match. -/
structure Contract.Matches (Called : Contract → Function → Prop)
    (R : Contract → Environment → Environment → Prop) (c c' : Contract) : Prop where
  name_eq : c'.name = c.name
  seed : SameOutcome (R c) (Flat.seed c.storage) (Flat.seed c'.storage)
  function : ∀ name,
    Option.Rel (Function.Matches (Called c) (R c) c c') (c.function? name) (c'.function? name)

/-- Each name stands for contracts that match, if for any. -/
def SourceUnit.Matches (Called : Contract → Function → Prop)
    (R : Contract → Environment → Environment → Prop) (source source' : SourceUnit) : Prop :=
  ∀ name, Option.Rel (Contract.Matches Called R) (source.contract? name) (source'.contract? name)

/-- Searches that do not tell related elements apart find related elements. -/
theorem rel_find? {α : Type} {R : α → α → Prop} {p : α → Bool} (hp : ∀ a b, R a b → p b = p a)
    {as bs : List α} (h : List.Forall₂ R as bs) : Option.Rel R (as.find? p) (bs.find? p) := by
  induction h with
  | nil => exact .none
  | @cons a b as bs hab _ ih =>
    rw [List.find?_cons, List.find?_cons, hp a b hab]
    cases p a with
    | true => exact .some hab
    | false => exact ih

theorem SourceUnit.matches_of_forall₂ {Called : Contract → Function → Prop}
    {R : Contract → Environment → Environment → Prop} {source source' : SourceUnit}
    (h : List.Forall₂ (Contract.Matches Called R) source.contracts source'.contracts) :
    source.Matches Called R source' := by
  intro name
  refine rel_find? (fun c c' hm => ?_) h
  rw [hm.name_eq]

namespace Session

open Flat
open ContractTrace.Task (Agree never bind_of_ok)

variable {Called : Contract → Function → Prop} {R : Contract → Environment → Environment → Prop}
  {s s' : Session} {t : Transaction} {c c' : Contract}

/-! ### Sessions -/

/-- No contract is active, or one of the same name is, and storages are related for it. -/
def SameActive (R : Contract → Environment → Environment → Prop) (s s' : Session) : Prop :=
  s.active = none ∧ s'.active = none ∨
    ∃ c c', s.active = some c ∧ s'.active = some c' ∧ c'.name = c.name ∧
      ∀ d, s.program.source.contract? c.name = some d → R d s.storage s'.storage

/-- Sessions between two transactions, over sources that match. -/
structure Parallel (Called : Contract → Function → Prop)
    (R : Contract → Environment → Environment → Prop) (s s' : Session) : Prop where
  quiescent : s.Quiescent
  quiescent' : s'.Quiescent
  source : s.program.source.Matches Called R s'.program.source
  transactions_eq : s'.program.transactions = s.program.transactions
  policy_eq : s'.configuration.errorPolicy = s.configuration.errorPolicy
  generator_eq : s'.generator = s.generator
  trace_eq : s'.trace = s.trace
  active : SameActive R s s'

namespace Parallel

/-- Coverage, failure flag and log do not matter. -/
theorem recorded (h : Parallel Called R s s') {generator generator' : Generator}
    (hgenerator : generator' = generator) {trace trace' : Trace} (htrace : trace' = trace)
    (hpending : trace.pending = none) (coverage coverage' : Coverage) (failed failed' : Bool)
    (log log' : Log) :
    Parallel Called R { s with generator, trace, coverage, failed, log }
      { s' with
        generator := generator', trace := trace', coverage := coverage', failed := failed'
        log := log' } :=
  ⟨⟨h.quiescent.no_frame, hpending⟩, ⟨h.quiescent'.no_frame, htrace ▸ hpending⟩, h.source,
    h.transactions_eq, h.policy_eq, hgenerator, htrace, h.active⟩

theorem logged (h : Parallel Called R s s') (log log' : Log) :
    Parallel Called R { s with log } { s' with log := log' } :=
  h.recorded h.generator_eq h.trace_eq h.quiescent.no_pending _ _ _ _ log log'

/-- Both sessions seed what they have under one name. -/
theorem activated (h : Parallel Called R s s')
    (hc : s.program.source.contract? t.contract = some c) (hname : c'.name = c.name)
    {storage storage' : Environment} (hstorage : R c storage storage') :
    Parallel Called R { s with storage, active := some c }
      { s' with storage := storage', active := some c' } := by
  refine ⟨⟨h.quiescent.no_frame, h.quiescent.no_pending⟩,
    ⟨h.quiescent'.no_frame, h.quiescent'.no_pending⟩, h.source, h.transactions_eq, h.policy_eq,
    h.generator_eq, h.trace_eq, .inr ⟨c, c', rfl, rfl, hname, fun d hd => ?_⟩⟩
  rw [SourceUnit.name_of_contract? hc] at hd
  obtain rfl : c = d := Option.some.inj (hc.symm.trans hd)
  exact hstorage

/-! ### Transactions -/

theorem storageFor (h : Parallel Called R s s')
    (hc : s.program.source.contract? t.contract = some c) (hm : c.Matches Called R c') :
    SameOutcome (R c) (s.storageFor c) (s'.storageFor c') := by
  rcases h.active with ⟨hs, hs'⟩ | ⟨d, d', hs, hs', hname, hstorage⟩
  · simp only [Session.storageFor, hs, hs']
    exact hm.seed
  · simp only [Session.storageFor, hs, hs', hname, hm.name_eq]
    split_ifs with heq
    · refine .ok (hstorage c ?_)
      rw [heq, SourceUnit.name_of_contract? hc, hc]
    · exact .error _

theorem refused (h : Parallel Called R s s') {e : RunError} (hs : Refuses s t e)
    (hs' : Refuses s' t e) :
    Agree (Parallel Called R) never (interpretTransaction t s) (interpretTransaction t s') := by
  obtain ⟨log, hr⟩ := interpretTransaction_of_refuses hs
  obtain ⟨log', hr'⟩ := interpretTransaction_of_refuses hs'
  rw [hr, hr']
  exact .inl ⟨rfl, h.logged log log'⟩

section Admitted

variable {f f' : Function} {storage storage' : Environment} (hs : Admits s t c f storage)
  (hs' : Admits s' t c' f' storage') (hname : c'.name = c.name) (hstorage : R c storage storage')

include hs hs' hname hstorage

/-- Behind their checks both sessions are over related storages again. -/
theorem admitted (h : Parallel Called R s s') :
    Parallel Called R { s with storage, active := some (s.active.getD c) }
      { s' with storage := storage', active := some (s'.active.getD c') } := by
  rcases h.active with ⟨hnone, hnone'⟩ | ⟨d, d', hsome, hsome', -, -⟩
  · rw [hnone, hnone']
    exact h.activated hs.contract_eq hname hstorage
  · -- storage is that of the session, where a contract is active
    have hkept := hs.storage_cases
    have hkept' := hs'.storage_cases
    simp only [hsome, hsome', reduceCtorEq, false_and, or_false] at hkept hkept'
    rw [hkept.1, hkept'.1, hsome, hsome', Option.getD_some, Option.getD_some, ← hsome, ← hsome']
    exact h

theorem walked (h : Parallel Called R s s') (hf : f.Matches (Called c) (R c) c c' f')
    (hcalled : Called c f) :
    Agree (Parallel Called R) never (interpretTransaction t s) (interpretTransaction t s') := by
  obtain ⟨result, p, coverage, log, hwalk, hr⟩ :=
    interpretTransaction_of_admits hs h.quiescent.no_frame
  obtain ⟨result', p', coverage', log', hwalk', hr'⟩ :=
    interpretTransaction_of_admits hs' h.quiescent'.no_frame
  rw [contextOf, h.policy_eq, hf.parameters_eq, h.generator_eq,
    hf.walk_eq hcalled _ _ hstorage] at hwalk'
  obtain ⟨rfl, rfl⟩ : result = result' ∧ p = p' := Prod.mk.inj (hwalk.symm.trans hwalk')
  rw [hr, hr', h.trace_eq]
  exact .inl ⟨rfl, (h.admitted hs hs' hname hstorage).recorded rfl rfl rfl _ _ _ _ log log'⟩

end Admitted

theorem interpretTransaction (h : Parallel Called R s s')
    (hcalled : ∀ {c f storage}, Admits s t c f storage → Called c f) :
    Agree (Parallel Called R) never (interpretTransaction t s) (interpretTransaction t s') := by
  have hcontracts := h.source t.contract
  generalize hc : s.program.source.contract? t.contract = found,
    hc' : s'.program.source.contract? t.contract = found' at hcontracts
  cases hcontracts with
  | none => exact h.refused (.contract hc) (.contract hc')
  | @some c c' hm =>
    have hfunctions := hm.function t.function
    generalize hf : c.function? t.function = called,
      hf' : c'.function? t.function = called' at hfunctions
    cases hfunctions with
    | none =>
      have hrefused' := Refuses.function hc' hf'
      rw [hm.name_eq] at hrefused'
      exact h.refused (.function hc hf) hrefused'
    | @some f f' hmatches =>
      have hfault := fault?_congr hmatches.parameters_eq t.arguments
      cases ha : fault? f t.arguments with
      | some fault =>
        have hrefused' := Refuses.arguments hc' hf' (hfault.trans ha)
        rw [hmatches.name_eq] at hrefused'
        exact h.refused (.arguments hc hf ha) hrefused'
      | none =>
        have hstorages := h.storageFor hc hm
        generalize hs : s.storageFor c = outcome,
          hs' : s'.storageFor c' = outcome' at hstorages
        cases hstorages with
        | error e =>
          exact h.refused (.storage hc hf ha hs) (.storage hc' hf' (hfault.trans ha) hs')
        | ok hstorage =>
          have hadmits : Admits s t c f _ := ⟨hc, hf, ha, hs⟩
          exact h.walked hadmits ⟨hc', hf', hfault.trans ha, hs'⟩ hm.name_eq hstorage hmatches
            (hcalled hadmits)

theorem interpretTransactions {ts : List Transaction} {i : Nat} (h : Parallel Called R s s')
    (hcalled : CallsOnly Called i ts s) :
    Agree (Parallel Called R) never (interpretTransactions i ts s)
      (interpretTransactions i ts s') := by
  induction ts generalizing i s s' with
  | nil => exact .inl ⟨rfl, h⟩
  | cons t ts ih =>
    refine (h.interpretTransaction hcalled.head).bind fun result u u' hr hended => ?_
    exact ih (hended.logged _ _) (hcalled.tail fun ts => bind_of_ok hr _)

end Parallel

/-! ### Runs -/

/-- Runs over sources that match are prepared alike. -/
theorem preparation_parallel {source source' : SourceUnit} (h : source.Matches Called R source')
    (ts : List Transaction) :
    SameOutcome (fun p p' => ∃ t : Transaction, source.contract? t.contract = some p.1 ∧
        p'.1.name = p.1.name ∧ R p.1 p.2 p'.2)
      (preparation source ts) (preparation source' ts) := by
  cases ts with
  | nil => exact .error _
  | cons first rest =>
    simp only [preparation]
    cases (first :: rest).find? (·.contract ≠ first.contract) with
    | some other => exact .error _
    | none =>
      have hcontracts := h first.contract
      generalize hc : source.contract? first.contract = found,
        source'.contract? first.contract = found' at hcontracts
      cases hcontracts with
      | none => exact .error _
      | @some c c' hm =>
        have hseeds := hm.seed
        dsimp only
        generalize Flat.seed c.storage = seeded, Flat.seed c'.storage = seeded' at hseeds
        cases hseeds with
        | error e => exact .error e
        | ok hstorage => exact .ok ⟨first, hc, hm.name_eq, hstorage⟩

namespace Parallel

/-- Runs end alike if their transactions do. -/
theorem ran (h : Parallel Called R s s')
    (hruns : Agree (Parallel Called R) never
      (runTransactions s.program.transactions s.cleared)
      (runTransactions s.program.transactions s'.cleared)) :
    Agree (Parallel Called R) never (run s) (run s') := by
  rcases hr : runTransactions s.program.transactions s.cleared with ⟨result, u⟩
  rcases hr' : runTransactions s.program.transactions s'.cleared with ⟨result', u'⟩
  rw [hr, hr'] at hruns
  rw [← h.transactions_eq] at hr'
  obtain ⟨rfl, hended⟩ := hruns.exact
  cases result with
  | ok _ =>
    obtain ⟨log, hrun⟩ := run_of_ok hr
    obtain ⟨log', hrun'⟩ := run_of_ok hr'
    rw [hrun, hrun']
    exact .inl ⟨rfl, hended.logged log log'⟩
  | error e =>
    obtain ⟨log, hrun⟩ := run_of_error hr
    obtain ⟨log', hrun'⟩ := run_of_error hr'
    rw [hrun, hrun']
    exact .inl ⟨rfl, hended.recorded hended.generator_eq rfl rfl _ _ _ _ log log'⟩

theorem run (h : Parallel Called R s s')
    (hcalled : ∀ {t u c f storage}, ComesTo s t u → Admits u t c f storage → Called c f) :
    Agree (Parallel Called R) never (run s) (run s') := by
  have hcleared : Parallel Called R s.cleared s'.cleared :=
    h.recorded h.generator_eq rfl rfl _ _ _ _ _ _
  have hprepared := preparation_parallel h.source s.program.transactions
  generalize hp : preparation s.program.source s.program.transactions = prepared,
    hp' : preparation s'.program.source s.program.transactions = prepared' at hprepared
  rw [← h.transactions_eq] at hp'
  cases hprepared with
  | error e =>
    obtain ⟨log, hrun⟩ := run_of_unprepared hp
    obtain ⟨log', hrun'⟩ := run_of_unprepared hp'
    rw [hrun, hrun']
    exact .inl ⟨rfl, h.recorded h.generator_eq rfl rfl _ _ _ _ log log'⟩
  | @ok p p' hprepared =>
    obtain ⟨t, hc, hname, hstorage⟩ := hprepared
    obtain ⟨log, hr⟩ := runTransactions_of_prepared (s := s.cleared) hp
    obtain ⟨log', hr'⟩ := runTransactions_of_prepared (s := s'.cleared) hp'
    have hstarted := (hcleared.activated hc hname hstorage).logged log log'
    have hruns := hstarted.interpretTransactions
      (CallsOnly.of_comesTo hcalled hp log (List.append_nil _).symm)
    rw [← hr, ← h.transactions_eq, ← hr', h.transactions_eq] at hruns
    exact h.ran hruns

/-! ### Requests -/

theorem perform (h : Parallel Called R s s') {r : Request}
    (hcalled : ∀ {t u c f storage}, r.ComesTo s t u → Admits u t c f storage → Called c f) :
    Agree (Parallel Called R) never (r.perform s) (r.perform s') := by
  cases r with
  | run => exact (h.run hcalled).bind fun _ _ _ _ hended => .inl ⟨rfl, hended⟩
  | transaction t => exact h.interpretTransaction fun ha => hcalled ⟨rfl, rfl⟩ ha

theorem answers_eq {requests : List Request} (h : Parallel Called R s s')
    (hcalled : ∀ {c f}, Calls s requests c f → Called c f) :
    answers requests s' = answers requests s := by
  induction requests generalizing s s' with
  | nil => rfl
  | cons r rs ih =>
    obtain ⟨hresult, hended⟩ := (h.perform fun hcomes ha => hcalled (.head hcomes ha)).exact
    rw [answers, answers, hresult, hended.trace_eq, ih hended fun hcalls => hcalled hcalls.tail]

end Parallel

/-- Programs whose contracts match, as far as they are called, are not to be told apart. -/
theorem answers_of_matches {program program' : Program} {configuration : Configuration}
    {requests : List Request}
    (hsource : program.source.Matches (Calls (start program configuration) requests) R
      program'.source)
    (htransactions : program'.transactions = program.transactions) :
    answers requests (start program' configuration) =
      answers requests (start program configuration) := by
  have hstart : Parallel (Calls (start program configuration) requests) R
      (start program configuration) (start program' configuration) :=
    ⟨⟨rfl, rfl⟩, ⟨rfl, rfl⟩, hsource, htransactions, rfl, rfl, rfl, .inl ⟨rfl, rfl⟩⟩
  exact hstart.answers_eq id

end Session

end ContractTrace
