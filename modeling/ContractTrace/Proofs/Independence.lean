import ContractTrace.Proofs.Reachable
import Mathlib.Data.List.Forall2

/-! Without substitution nothing is drawn: the generator is handed on as it is, and no result
depends on it. The transactions of a run then have no influence on one another. A run completes
exactly if every transaction completes in a run of its own, and its trace is the traces of
those runs, one after the other. -/

namespace ContractTrace

open ContractTrace.Task (Simulates never bind_of_ok bind_of_error require_some_bind)

/-! ### Walks without draws -/

/-- Evaluations with different generators give the same result and keep their generators. -/
theorem Evaluation.evaluate_undrawn (g g' : Generator) (view : View) (e : Expression) :
    Simulates (fun s t : EvaluationState => s.generator = g ∧ t.generator = g') never
      (evaluate .fail view e) (evaluate .fail view e) :=
  evaluate_simulates (fun error _ _ _ => .fail error) view e

namespace Flat

/-- The same events so far, and generators that nothing was drawn from. -/
def Undrawn (g g' : Generator) (p q : Progress) : Prop :=
  p.generator = g ∧ q.generator = g' ∧ p.events = q.events

namespace Context

variable {c : Context} (hc : c.policy = .fail) {g g' : Generator}

include hc

theorem value_undrawn (e : Expression) :
    Simulates (Undrawn g g') never (c.value e) (c.value e) := by
  rintro p q ⟨rfl, rfl, hevents⟩
  have h := (Evaluation.evaluate_undrawn p.generator q.generator (.layered c.locals c.storage) e
    ⟨p.generator, #[]⟩ ⟨q.generator, #[]⟩ ⟨rfl, rfl⟩).exact
  simp only [value, hc]
  exact .inl ⟨congrArg (Except.mapError _) h.1, h.2.1, h.2.2, hevents⟩

theorem values_undrawn (es : List Expression) :
    Simulates (Undrawn g g') never (c.values es) (c.values es) := by
  induction es with
  | nil => exact .pure []
  | cons e es ih => exact (value_undrawn hc e).bind fun v => ih.bind fun vs => .pure (v :: vs)

omit hc in
theorem checkArity_undrawn (name : String) (found : Nat) :
    Simulates (Undrawn g g') never (c.checkArity name found) (c.checkArity name found) := by
  rw [checkArity]
  split
  · exact .pure ()
  · split_ifs
    · exact .pure ()
    · exact .fail _

theorem emit_undrawn (id : NodeId) (call : Call) :
    Simulates (Undrawn g g') never (c.emit id call) (c.emit id call) := by
  refine (Simulates.require _ _).bind fun name => (checkArity_undrawn name _).bind fun _ => ?_
  refine (values_undrawn hc call.arguments).bind fun values => .modify ?_
  rintro p q ⟨hg, hg', hevents⟩
  exact ⟨hg, hg', congrArg (· ++ _) hevents⟩

theorem returned_undrawn (expression : Option Expression) :
    Simulates (Undrawn g g') never (c.returned expression) (c.returned expression) := by
  cases expression with
  | none => exact .pure Value.unit
  | some e => exact value_undrawn hc e

theorem walk_undrawn (ss : List Statement) :
    Simulates (Undrawn g g') never (c.walk ss) (c.walk ss) := by
  induction ss with
  | nil => exact .pure none
  | cons s ss ih =>
    cases s with
    | emit id call => exact (emit_undrawn hc id call).bind fun _ => ih
    | ret id expression =>
      exact (returned_undrawn hc expression).bind fun v => .pure (some v)
    | _ => exact .fail _

/-- A call does to any generator what it does to another one: nothing. -/
theorem call_undrawn (body : List Statement) (g g' : Generator) :
    c.call body g' = ((c.call body g).1, g') := by
  obtain ⟨hresult, hg', -, hevents⟩ :=
    (walk_undrawn hc (spliceAll body) ⟨g', []⟩ ⟨g, []⟩ ⟨rfl, rfl, rfl⟩).exact
  simp only [call, hresult, hg', hevents]

end Context

/-! ### Transactions without draws -/

theorem transaction_undrawn (contract : Contract) (storage : Environment) (t : Transaction)
    (g g' : Generator) :
    transaction .fail contract storage t g' =
      ((transaction .fail contract storage t g).1, g') := by
  rw [transaction]
  cases contract.function? t.function with
  | none => rfl
  | some function =>
    rw [require_some_bind]
    cases fault? function t.arguments with
    | some fault => rfl
    | none => exact Context.call_undrawn rfl function.body.statements g g'

/-- The transaction completes with the given events, whatever the generator. -/
def Emitted (contract : Contract) (storage : Environment) (t : Transaction)
    (events : List Event) : Prop :=
  ∀ g, transaction .fail contract storage t g = (.ok events, g)

variable {contract : Contract} {storage : Environment}

theorem emitted_of_ok {t : Transaction} {g : Generator} {events : List Event}
    (h : (transaction .fail contract storage t g).1 = .ok events) :
    Emitted contract storage t events := by
  intro g'
  rw [transaction_undrawn contract storage t g g', h]

/-- Transactions complete together exactly if each completes on its own. -/
theorem transactions_ok_iff {ts : List Transaction} {blocks : List (List Event)}
    (g : Generator) :
    (transactions .fail contract storage ts g).1 = .ok blocks ↔
      List.Forall₂ (Emitted contract storage) ts blocks := by
  induction ts generalizing blocks with
  | nil =>
    rw [List.forall₂_nil_left_iff]
    constructor
    · intro h
      cases h
      rfl
    · rintro rfl
      rfl
  | cons t ts ih =>
    rw [transactions, List.forall₂_cons_left_iff]
    rcases ht : transaction .fail contract storage t g with ⟨e | events, g'⟩
    · rw [bind_of_error ht]
      constructor
      · intro h
        cases h
      · rintro ⟨events, -, hevents, -⟩
        rw [hevents g] at ht
        cases ht
    · have hevents : Emitted contract storage t events := emitted_of_ok (congrArg Prod.fst ht)
      rw [bind_of_ok (hevents g)]
      constructor
      · intro h
        rcases hts : transactions .fail contract storage ts g with ⟨e | rest, g''⟩
        · rw [bind_of_error hts] at h
          cases h
        · rw [bind_of_ok hts] at h
          cases h
          exact ⟨events, rest, hevents, ih.1 (congrArg Prod.fst hts), rfl⟩
      · rintro ⟨events', rest, hevents', hrest, rfl⟩
        -- a transaction has one block of events only
        obtain rfl : events = events' := by
          have hsame := (hevents g).symm.trans (hevents' g)
          cases hsame
          rfl
        have hts : transactions .fail contract storage ts g =
            (.ok rest, (transactions .fail contract storage ts g).2) := Prod.ext (ih.2 hrest) rfl
        rw [bind_of_ok hts]
        rfl

/-- Every transaction completes over the freshly seeded storage of the contract that has the
given name, and emits its block of events. -/
def Blocks (source : SourceUnit) (name : String) (ts : List Transaction)
    (blocks : List (List Event)) : Prop :=
  ∃ contract storage, source.contract? name = some contract ∧
    seed contract.storage = .ok storage ∧ List.Forall₂ (Emitted contract storage) ts blocks

theorem run_ok_iff {source : SourceUnit} {name : String} {ts : List Transaction}
    {blocks : List (List Event)} (g : Generator) :
    (run source .fail name ts g).1 = .ok blocks ↔ Blocks source name ts blocks := by
  rw [run, Blocks]
  cases hc : source.contract? name with
  | none =>
    constructor
    · intro h
      cases h
    · rintro ⟨contract, storage, hcontract, -⟩
      cases hcontract
  | some contract =>
    rw [require_some_bind]
    cases hseed : seed contract.storage with
    | error e =>
      constructor
      · intro h
        cases h
      · rintro ⟨contract', storage, hcontract, hstorage, -⟩
        cases hcontract
        rw [hseed] at hstorage
        cases hstorage
    | ok storage =>
      rw [transactions_ok_iff]
      constructor
      · exact fun h => ⟨contract, storage, rfl, hseed, h⟩
      · rintro ⟨contract', storage', hcontract, hstorage, h⟩
        cases hcontract
        rw [hseed] at hstorage
        cases hstorage
        exact h

/-- Blocks of events belong to single transactions. -/
theorem blocks_iff_singles {source : SourceUnit} {name : String} {ts : List Transaction}
    (hne : ts ≠ []) {blocks : List (List Event)} :
    Blocks source name ts blocks ↔
      List.Forall₂ (fun t events => Blocks source name [t] [events]) ts blocks := by
  constructor
  · rintro ⟨contract, storage, hcontract, hstorage, h⟩
    exact h.imp fun t events hevents =>
      ⟨contract, storage, hcontract, hstorage, .cons hevents .nil⟩
  · intro h
    obtain ⟨first, rest, rfl⟩ := List.exists_cons_of_ne_nil hne
    obtain ⟨events, blocks, ⟨contract, storage, hcontract, hstorage, -⟩, -, rfl⟩ :=
      List.forall₂_cons_left_iff.1 h
    refine ⟨contract, storage, hcontract, hstorage, h.imp ?_⟩
    -- all find the same contract and seed the same storage
    rintro t events ⟨contract', storage', hcontract', hstorage', hevents⟩
    cases hcontract.symm.trans hcontract'
    cases hstorage.symm.trans hstorage'
    exact (List.forall₂_cons.1 hevents).1

end Flat

/-! ### Runs -/

namespace Session

section

variable {source : SourceUnit} {configuration : Configuration} {name : String}
  {ts : List Transaction} (hpolicy : configuration.errorPolicy = .fail) (hne : ts ≠ [])
  (hname : ∀ t ∈ ts, t.contract = name)

include hpolicy hne hname

theorem run_start_of_blocks {blocks : List (List Event)}
    (h : Flat.Blocks source name ts blocks) :
    (run (start ⟨source, ts⟩ configuration)).1 = .ok () ∧
      (run (start ⟨source, ts⟩ configuration)).2.trace = ⟨blocks.flatten, none⟩ := by
  have hflat := run_flat (s := start ⟨source, ts⟩ configuration) ⟨rfl, rfl⟩ hne hname
  have hok := (Flat.run_ok_iff (.ofSeed configuration.seed)).2 h
  simp only [start, hpolicy] at hflat
  rcases hrun : Flat.run source .fail name ts (.ofSeed configuration.seed) with ⟨e | blocks', g⟩ <;>
    rw [hrun] at hflat hok <;> cases hok
  obtain ⟨hresult, hcommitted, -⟩ := hflat
  have hpending : (run (start ⟨source, ts⟩ configuration)).2.trace.pending = none :=
    (Reachable.step .start .run).quiescent.no_pending
  exact ⟨hresult, congrArg₂ Trace.mk hcommitted hpending⟩

theorem blocks_of_run_start (h : (run (start ⟨source, ts⟩ configuration)).1 = .ok ()) :
    ∃ blocks, Flat.Blocks source name ts blocks := by
  have hflat := run_flat (s := start ⟨source, ts⟩ configuration) ⟨rfl, rfl⟩ hne hname
  simp only [start, hpolicy] at hflat
  rcases hrun : Flat.run source .fail name ts (.ofSeed configuration.seed) with ⟨e | blocks, g⟩ <;>
    rw [hrun] at hflat
  · cases h.symm.trans hflat
  · exact ⟨blocks, (Flat.run_ok_iff (.ofSeed configuration.seed)).1 (congrArg Prod.fst hrun)⟩

/-- Transactions that complete in runs of their own complete in one run, with the same events. -/
theorem run_start_of_singles {configuration' : Configuration}
    (hpolicy' : configuration'.errorPolicy = .fail)
    (h : ∀ t ∈ ts, (run (start ⟨source, [t]⟩ configuration')).1 = .ok ()) :
    (run (start ⟨source, ts⟩ configuration)).1 = .ok () ∧
      (run (start ⟨source, ts⟩ configuration)).2.trace =
        ⟨ts.flatMap fun t => (run (start ⟨source, [t]⟩ configuration')).2.trace.committed,
          none⟩ := by
  have hsingle : ∀ t ∈ ts, Flat.Blocks source name [t]
      [(run (start ⟨source, [t]⟩ configuration')).2.trace.committed] := by
    intro t ht
    have hne' : [t] ≠ [] := List.cons_ne_nil t []
    have hname' : ∀ u ∈ [t], u.contract = name := List.forall_mem_singleton.2 (hname t ht)
    obtain ⟨blocks, hblocks⟩ := blocks_of_run_start hpolicy' hne' hname' (h t ht)
    obtain ⟨-, htrace⟩ := run_start_of_blocks hpolicy' hne' hname' hblocks
    obtain ⟨events, rest, -, hrest, rfl⟩ :=
      List.forall₂_cons_left_iff.1 ((Flat.blocks_iff_singles hne').1 hblocks)
    cases List.forall₂_nil_left_iff.1 hrest
    rw [htrace, List.flatten_singleton]
    exact hblocks
  have hblocks := (Flat.blocks_iff_singles hne).2
    (List.forall₂_map_right_iff.2 (List.forall₂_same.2 hsingle))
  rw [List.flatMap_def]
  exact run_start_of_blocks hpolicy hne hname hblocks

theorem singles_of_run_start {configuration' : Configuration}
    (hpolicy' : configuration'.errorPolicy = .fail)
    (h : (run (start ⟨source, ts⟩ configuration)).1 = .ok ()) :
    ∀ t ∈ ts, (run (start ⟨source, [t]⟩ configuration')).1 = .ok () := by
  obtain ⟨blocks, hblocks⟩ := blocks_of_run_start hpolicy hne hname h
  have hsingles := (List.forall₂_and_left ts blocks).2
    ⟨hname, (Flat.blocks_iff_singles hne).1 hblocks⟩
  have hok : List.Forall₂
      (fun t _ => (run (start ⟨source, [t]⟩ configuration')).1 = .ok () ∧ True) ts blocks :=
    hsingles.imp fun t events ht => ⟨(run_start_of_blocks hpolicy' (List.cons_ne_nil t [])
      (List.forall_mem_singleton.2 ht.1) ht.2).1, trivial⟩
  exact ((List.forall₂_and_left ts blocks).1 hok).1

end

/-- With a policy that fails on faults, a run completes exactly if each of its transactions
completes in a run of its own. Its trace is then the traces of these runs in order, and the
same transactions in any other order complete too, with the same blocks in that order. -/
theorem run_independent (source : SourceUnit) (configuration configuration' : Configuration)
    (hpolicy : configuration.errorPolicy = .fail) (hpolicy' : configuration'.errorPolicy = .fail)
    (name : String) (ts : List Transaction) (hne : ts ≠ [])
    (hname : ∀ t ∈ ts, t.contract = name) :
    let whole (us : List Transaction) := run (start ⟨source, us⟩ configuration)
    let single (t : Transaction) := run (start ⟨source, [t]⟩ configuration')
    let block (t : Transaction) := (single t).2.trace.committed
    ((whole ts).1 = .ok () ↔ ∀ t ∈ ts, (single t).1 = .ok ()) ∧
      ((whole ts).1 = .ok () → (whole ts).2.trace = ⟨ts.flatMap block, none⟩ ∧
        ∀ us, us.Perm ts →
          (whole us).1 = .ok () ∧ (whole us).2.trace = ⟨us.flatMap block, none⟩) := by
  intro whole single block
  have hsingles : (whole ts).1 = .ok () → ∀ t ∈ ts, (single t).1 = .ok () :=
    singles_of_run_start hpolicy hne hname hpolicy'
  have hwhole : (∀ t ∈ ts, (single t).1 = .ok ()) →
      (whole ts).1 = .ok () ∧ (whole ts).2.trace = ⟨ts.flatMap block, none⟩ :=
    run_start_of_singles hpolicy hne hname hpolicy'
  refine ⟨⟨hsingles, fun h => (hwhole h).1⟩, fun hok => ⟨(hwhole (hsingles hok)).2, ?_⟩⟩
  intro us hperm
  have hne' : us ≠ [] := fun hnil => hne (List.Perm.nil_eq (hnil ▸ hperm)).symm
  have hname' : ∀ t ∈ us, t.contract = name := fun t ht => hname t (hperm.mem_iff.1 ht)
  exact run_start_of_singles hpolicy hne' hname' hpolicy'
    fun t ht => hsingles hok t (hperm.mem_iff.1 ht)

/-- A function that emits the sum of its argument and a storage variable. -/
def addition : SourceUnit :=
  let x : Expression := .identifier 20 "x" none
  let y : Expression := .identifier 21 "y" none
  ⟨[⟨1, "C", [⟨2, "x", .integer .uint256, some (.integer 5 .uint256)⟩], [],
    [⟨3, "add", [⟨4, "y", .integer .uint256⟩],
      ⟨5, [.emit 6 ⟨7, .identifier 8 "Sum" none, [.binary 9 .add x y]⟩]⟩⟩]⟩]⟩

def addCall (n : Int) : Transaction := ⟨"C", "add", [.integer n .uint256]⟩

def sumEvent (n : Int) : Event := ⟨"Sum", [(0, .integer n .uint256)]⟩

theorem run_independent_addition :
    (∀ t ∈ [addCall 1, addCall 2], t.contract = "C" ∧
        (run (start ⟨addition, [t]⟩ { seed := 1 })).1 = .ok ()) ∧
      (run (start ⟨addition, [addCall 1, addCall 2]⟩ {})).1 = .ok () ∧
      (run (start ⟨addition, [addCall 1, addCall 2]⟩ {})).2.trace =
        ⟨[sumEvent 6, sumEvent 7], none⟩ ∧
      (run (start ⟨addition, [addCall 2, addCall 1]⟩ {})).2.trace =
        ⟨[sumEvent 7, sumEvent 6], none⟩ := by
  -- for any source, so that nothing has to be evaluated to see that the statements match
  have hruns : ∀ (source : SourceUnit) (us : List Transaction), us ≠ [] →
      (∀ t ∈ us, t.contract = "C" ∧ (run (start ⟨source, [t]⟩ { seed := 1 })).1 = .ok ()) →
      (run (start ⟨source, us⟩ {})).1 = .ok () ∧ ∀ vs, vs.Perm us →
        (run (start ⟨source, vs⟩ {})).2.trace = ⟨vs.flatMap fun t =>
          (run (start ⟨source, [t]⟩ { seed := 1 })).2.trace.committed, none⟩ := by
    intro source us hne h
    obtain ⟨hiff, htraces⟩ := run_independent source {} { seed := 1 } rfl rfl "C" us hne
      fun t ht => (h t ht).1
    have hok := hiff.2 fun t ht => (h t ht).2
    exact ⟨hok, fun vs hperm => ((htraces hok).2 vs hperm).2⟩
  have hsingle : ∀ t ∈ [addCall 1, addCall 2],
      t.contract = "C" ∧ (run (start ⟨addition, [t]⟩ { seed := 1 })).1 = .ok () :=
    List.forall_mem_cons.2 ⟨⟨rfl, by decide +kernel⟩,
      List.forall_mem_singleton.2 ⟨rfl, by decide +kernel⟩⟩
  have hone : (run (start ⟨addition, [addCall 1]⟩ { seed := 1 })).2.trace.committed =
      [sumEvent 6] := rfl
  have htwo : (run (start ⟨addition, [addCall 2]⟩ { seed := 1 })).2.trace.committed =
      [sumEvent 7] := rfl
  obtain ⟨hok, htraces⟩ := hruns addition [addCall 1, addCall 2] (List.cons_ne_nil _ _) hsingle
  refine ⟨hsingle, hok, ?_, ?_⟩
  · rw [htraces _ (.refl _), List.flatMap_cons, List.flatMap_singleton, hone, htwo]
    rfl
  · rw [htraces _ (.swap (addCall 1) (addCall 2) []), List.flatMap_cons,
      List.flatMap_singleton, hone, htwo]
    rfl

end Session

end ContractTrace
