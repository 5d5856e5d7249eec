import ContractTrace.Proofs.Counterpart
import ContractTrace.Proofs.Resolution

/-! What an expression reads. Evaluation depends on an environment only through the current values
of what the identifiers in the expression refer to. A storage variable that no called function
refers to can therefore be declared without a trace of it, as long as its id is not in use. -/

namespace ContractTrace

open ContractTrace.Task (Simulates never)

theorem Task.Simulates.self {σ ε α : Type} {Excused : ε → Prop} (x : Task σ ε α) :
    Simulates Eq Excused x x := by
  rintro s _ rfl
  exact .inl ⟨rfl, rfl⟩

/-! ### References -/

/-- The names and declarations of the identifiers in an expression. -/
def Expression.references (e : Expression) : List (String × Option NodeId) :=
  e.subexpressions.filterMap fun
    | .identifier _ name declaration => some (name, declaration)
    | _ => none

theorem Expression.mem_references {e : Expression} {id : NodeId} {name : String}
    {declaration : Option NodeId} (h : .identifier id name declaration ∈ e.subexpressions) :
    (name, declaration) ∈ e.references :=
  List.mem_filterMap.2 ⟨_, h, rfl⟩

/-- What a function refers to when it is called. -/
def Function.references (f : Function) : List (String × Option NodeId) :=
  (Flat.spliceAll f.body.statements).flatMap fun s => s.evaluated.flatMap Expression.references

/-- The value that a reference leads to: none if there is no such variable, and none of its own
if the variable has no value. -/
def View.current? (view : View) (reference : String × Option NodeId) : Option (Option Value) :=
  (view.lookup reference.1 reference.2).map Binding.current?

namespace Evaluation

theorem readVariable_congr (name : String) {found found' : Option Binding}
    (h : found'.map Binding.current? = found.map Binding.current?) :
    readVariable name found' = readVariable name found := by
  cases found with
  | none =>
    cases found' with
    | none => rfl
    | some b' => cases h
  | some b =>
    cases found' with
    | none => cases h
    | some b' =>
      have hcurrent : b'.current? = b.current? := Option.some.inj h
      rw [readVariable, readVariable, hcurrent]

/-- Views that agree on what an expression refers to are the same to it. -/
theorem evaluate_congr (policy : ErrorPolicy) {view view' : View} {e : Expression}
    (h : ∀ r ∈ e.references, view'.current? r = view.current? r) :
    evaluate policy view' e = evaluate policy view e := by
  have hsimulates : Simulates Eq never (evaluate policy view' e) (evaluate policy view e) := by
    rw [← checked_evaluate, ← checked_evaluate]
    refine Arithmetic.evaluate_simulates (P := fun _ => True) e (fun _ _ => .any _) ?_
    intro part hpart
    cases part with
    | identifier id name declaration =>
      rw [Arithmetic.AgreeAt, arithmetic_read, arithmetic_read,
        readVariable_congr name (h _ (Expression.mem_references hpart))]
      exact .self _
    | binary => exact fun _ _ _ _ => .self _
    | unary => exact fun _ _ => .self _
    | _ => trivial
  funext state
  obtain ⟨hresult, hstate⟩ := (hsimulates state state rfl).exact
  exact Prod.ext hresult hstate

end Evaluation

/-! ### One variable more -/

namespace Environment

/-- The second environment may have a variable of the given id and name that the first has not.
Other declarations lead to the same bindings and other names to the same declarations, none of
them to the given id. -/
structure Besides (id : NodeId) (name : String) (env env' : Environment) : Prop where
  get?_eq : ∀ other, other ≠ id → env'.get? other = env.get? other
  names_eq : ∀ other, other ≠ name → env'.names.lookup other = env.names.lookup other
  unnamed : ∀ other, env.names.lookup other ≠ some id

namespace Besides

variable {id : NodeId} {name : String} {env env' : Environment}

theorem storage (id : NodeId) (name : String) : Besides id name .storage .storage := by
  refine ⟨fun _ _ => rfl, fun _ _ => rfl, fun other h => ?_⟩
  cases h

/-- The variable is added. -/
theorem add_right (h : Besides id name env env') {b : Binding} (hid : b.id = id)
    (hname : b.name = name) : Besides id name env (env'.add b) := by
  refine ⟨fun other hother => ?_, fun other hother => ?_, h.unnamed⟩
  · rw [get?_add_of_ne env' (hid ▸ hother.symm), h.get?_eq other hother]
  · rw [lookup_names_add_of_ne env' (hname ▸ hother.symm), h.names_eq other hother]

/-- Another variable is added to both. -/
theorem add (h : Besides id name env env') {b : Binding} (hid : b.id ≠ id) :
    Besides id name (env.add b) (env'.add b) := by
  refine ⟨fun other hother => ?_, fun other hother => ?_, fun other => ?_⟩
  · by_cases hb : b.id = other
    · rw [← hb, get?_add_self, get?_add_self]
    · rw [get?_add_of_ne env hb, get?_add_of_ne env' hb, h.get?_eq other hother]
  · by_cases hb : b.name = other
    · rw [← hb, lookup_names_add_self, lookup_names_add_self]
    · rw [lookup_names_add_of_ne env hb, lookup_names_add_of_ne env' hb, h.names_eq other hother]
  · by_cases hb : b.name = other
    · rw [← hb, lookup_names_add_self]
      exact fun heq => hid (Option.some.inj heq)
    · rw [lookup_names_add_of_ne env hb]
      exact h.unnamed other

/-- The variable is seen only by references to its id, or to its name alone. -/
theorem lookup_eq (h : Besides id name env env') {other : String} {declaration : Option NodeId}
    (hid : declaration ≠ some id) (hname : declaration = none → other ≠ name) :
    env'.lookup other declaration = env.lookup other declaration := by
  cases declaration with
  | some target => exact h.get?_eq target fun heq => hid (congrArg some heq)
  | none =>
    rw [lookup, lookup, named?, named?, h.names_eq other (hname rfl)]
    cases hfound : env.names.lookup other with
    | none => rfl
    | some target => exact h.get?_eq target fun heq => h.unnamed other (heq ▸ hfound)

end Besides

end Environment

/-! ### Declarations -/

namespace StorageVariable

/-- The variable has an initial value of its type. -/
def Usable (v : StorageVariable) : Prop :=
  ∃ value, v.initial = some value ∧ value.fits v.typeName = true

/-- A reference that a variable answers to: one to its id, or to its name without an id. -/
def AnswersTo (v : StorageVariable) (reference : String × Option NodeId) : Prop :=
  match reference.2 with
  | some id => id = v.id
  | none => reference.1 = v.name

variable {v : StorageVariable}

theorem Usable.initialBinding (h : v.Usable) :
    ∃ value b, Session.initialBinding v = .ok (value, b) ∧ b.id = v.id ∧ b.name = v.name := by
  obtain ⟨value, hinitial, hfits⟩ := h
  refine ⟨value, ⟨v.asVariable, 0, [value]⟩, ?_, rfl, rfl⟩
  simp only [Session.initialBinding, hinitial, hfits, if_true]

end StorageVariable

namespace Environment

variable {v : StorageVariable}

theorem Besides.lookup_of_not_answersTo {env env' : Environment} (h : Besides v.id v.name env env')
    {reference : String × Option NodeId} (hreference : ¬ v.AnswersTo reference) :
    env'.lookup reference.1 reference.2 = env.lookup reference.1 reference.2 := by
  obtain ⟨name, declaration⟩ := reference
  refine h.lookup_eq ?_ ?_
  · rintro rfl
    exact hreference rfl
  · rintro rfl
    exact hreference

end Environment

namespace Flat

open Environment

variable {v : StorageVariable}

/-- Adds a storage variable with its initial value. -/
def declare (env : Environment) (w : StorageVariable) : Except RunError Environment := do
  return env.add (← Session.initialBinding w).2

theorem seed_eq_foldlM (vs : List StorageVariable) : seed vs = vs.foldlM declare .storage := rfl

/-- Seeding goes on alike where one more variable was declared. -/
theorem foldlM_besides {vs : List StorageVariable} (hvs : ∀ w ∈ vs, w.id ≠ v.id)
    {env env' : Environment} (h : Besides v.id v.name env env') :
    SameOutcome (Besides v.id v.name) (vs.foldlM declare env) (vs.foldlM declare env') := by
  induction vs generalizing env env' with
  | nil => exact .ok h
  | cons w ws ih =>
    rw [List.forall_mem_cons] at hvs
    rw [List.foldlM_cons, List.foldlM_cons, declare, declare]
    cases hw : Session.initialBinding w with
    | error e => exact .error e
    | ok seeded =>
      have hid : seeded.2.id ≠ v.id := by
        rw [(Session.initialBinding_eq_ok hw).2]
        exact hvs.1
      exact ih hvs.2 (h.add hid)

/-- A declaration of a fresh id is all that is added to storage. -/
theorem seed_besides {before after : List StorageVariable} (husable : v.Usable)
    (hfresh : ∀ w ∈ before ++ after, w.id ≠ v.id) :
    SameOutcome (Besides v.id v.name) (seed (before ++ after)) (seed (before ++ v :: after)) := by
  obtain ⟨value, b, hinitial, hid, hname⟩ := husable.initialBinding
  have hdeclare : ∀ env, declare env v = .ok (env.add b) := by
    intro env
    rw [declare, hinitial]
    rfl
  rw [List.forall_mem_append] at hfresh
  have hbefore := foldlM_besides hfresh.1 (.storage v.id v.name)
  rw [seed_eq_foldlM, seed_eq_foldlM, List.foldlM_append, List.foldlM_append]
  cases hseeded : before.foldlM declare .storage with
  | error e => exact .error e
  | ok env =>
    rw [hseeded] at hbefore
    cases hbefore with
    | ok h =>
      have hrest := foldlM_besides hfresh.2 (h.add_right hid hname)
      simpa only [bind, Except.bind, List.foldlM_cons, hdeclare] using hrest

theorem alike_self {V : Expression → Expression → Prop} {s : Statement}
    (h : ∀ e ∈ s.evaluated, V e e) : Alike V s s := by
  cases s with
  | emit id call => exact .emit id rfl (List.forall₂_same.2 h)
  | ret id expression =>
    refine .ret id ?_
    cases expression with
    | none => exact .none
    | some e => exact .some (h e List.mem_cons_self)
  | _ => exact .refused rfl rfl rfl rfl

end Flat

/-! ### Runs -/

/-- Over storages that agree on what a function refers to it is walked alike. -/
theorem Function.walk_congr {f : Function} {c c' : Contract} (hevents : c'.events = c.events)
    {storage storage' : Environment}
    (h : ∀ r ∈ f.references, storage'.lookup r.1 r.2 = storage.lookup r.1 r.2)
    (policy : ErrorPolicy) (locals : Environment) :
    (⟨policy, c', locals, storage'⟩ : Flat.Context).walk (Flat.spliceAll f.body.statements) =
      (⟨policy, c, locals, storage⟩ : Flat.Context).walk (Flat.spliceAll f.body.statements) := by
  refine Flat.Context.walk_congr hevents (List.forall₂_same.2 fun s hs => ?_)
  refine Flat.alike_self fun e he => ?_
  have hcurrent : ∀ r ∈ e.references,
      (View.layered locals storage').current? r = (View.layered locals storage).current? r := by
    intro r hr
    have hreference : r ∈ f.references :=
      List.mem_flatMap.2 ⟨s, hs, List.mem_flatMap.2 ⟨e, he, hr⟩⟩
    simp only [View.current?, View.lookup, h r hreference]
  funext p
  simp only [Flat.Context.value, Evaluation.evaluate_congr policy hcurrent]

section Declared

variable {c : Contract} {v : StorageVariable} {Called : Contract → Function → Prop}

/-- The storages of a contract are the same or, for one contract, differ by one variable. -/
def SameOrBesides (c : Contract) (v : StorageVariable) (d : Contract)
    (storage storage' : Environment) : Prop :=
  storage' = storage ∨ d = c ∧ Environment.Besides v.id v.name storage storage'

/-- No function of the contract that is called refers to the variable. -/
def Contract.Ignores (Called : Contract → Function → Prop) (c : Contract) (v : StorageVariable) :
    Prop :=
  ∀ f, Called c f → ∀ r ∈ f.references, ¬ v.AnswersTo r

theorem Contract.Ignores.function (h : c.Ignores Called v) {d d' : Contract}
    (hevents : d'.events = d.events) (hfunctions : d'.functions = d.functions) (name : String) :
    Option.Rel (Function.Matches (Called d) (SameOrBesides c v d) d d') (d.function? name)
      (d'.function? name) := by
  have hsame : d'.function? name = d.function? name := by
    rw [Contract.function?, Contract.function?, hfunctions]
  rw [hsame]
  cases d.function? name with
  | none => exact .none
  | some f =>
    refine .some ⟨rfl, rfl, fun hcalled policy locals storage storage' hstorage => ?_⟩
    refine Function.walk_congr hevents (fun r hr => ?_) policy locals
    rcases hstorage with rfl | ⟨rfl, hbesides⟩
    · rfl
    · exact hbesides.lookup_of_not_answersTo (h f hcalled r hr)

/-- A contract that is left as it is. -/
theorem Contract.Ignores.matches_self (h : c.Ignores Called v) (d : Contract) :
    d.Matches Called (SameOrBesides c v) d := by
  refine ⟨rfl, ?_, h.function rfl rfl⟩
  cases Flat.seed d.storage with
  | error e => exact .error e
  | ok storage => exact .ok (.inl rfl)

/-- The contract that gets the variable. -/
theorem Contract.Ignores.matches_declared (h : c.Ignores Called v)
    {before after : List StorageVariable} (hstorage : c.storage = before ++ after)
    (husable : v.Usable) (hfresh : ∀ w ∈ c.storage, w.id ≠ v.id) :
    c.Matches Called (SameOrBesides c v) { c with storage := before ++ v :: after } := by
  refine ⟨rfl, ?_, fun name => h.function ?_ ?_ name⟩
  case refine_2 | refine_3 => rfl
  have hseeds := Flat.seed_besides husable (hstorage ▸ hfresh)
  rw [hstorage]
  generalize Flat.seed (before ++ after) = seeded,
    Flat.seed (before ++ v :: after) = seeded' at hseeds
  cases hseeds with
  | error e => exact .error e
  | ok hbesides => exact .ok (.inr ⟨rfl, hbesides⟩)

end Declared

/-- Views in which all that an expression refers to has the same current value, or none, or is not
there, evaluate it to the same, draws included. A storage variable with an initial value of its
type and an id of its own changes no result and no trace, wherever it is declared, unless a called
function refers to it. -/
theorem references_suffice :
    (∀ (policy : ErrorPolicy) (view view' : View) (e : Expression),
      (∀ r ∈ e.references, view'.current? r = view.current? r) →
        evaluate policy view' e = evaluate policy view e) ∧
    ∀ (left right : List Contract) (c : Contract) (before after : List StorageVariable)
      (v : StorageVariable) (ts : List Transaction) (configuration : Configuration)
      (requests : List Session.Request),
      let program : Program := ⟨⟨left ++ c :: right⟩, ts⟩
      let declared : Program :=
        ⟨⟨left ++ { c with storage := before ++ v :: after } :: right⟩, ts⟩
      c.storage = before ++ after → v.Usable → (∀ w ∈ c.storage, w.id ≠ v.id) →
      c.Ignores (Session.Calls (.start program configuration) requests) v →
      Session.answers requests (.start declared configuration) =
        Session.answers requests (.start program configuration) := by
  refine ⟨fun policy view view' e h => Evaluation.evaluate_congr policy h, ?_⟩
  intro left right c before after v ts configuration requests program declared hstorage husable
    hfresh hignores
  refine Session.answers_of_matches (R := SameOrBesides c v)
    (SourceUnit.matches_of_forall₂ ?_) rfl
  refine List.rel_append ?_ (.cons ?_ ?_)
  · exact List.forall₂_same.2 fun d _ => hignores.matches_self d
  · exact hignores.matches_declared hstorage husable hfresh
  · exact List.forall₂_same.2 fun d _ => hignores.matches_self d

/-- A function that emits a variable, which it refers to by declaration. -/
def emitsDeclared : Function :=
  ⟨3, "f", [], ⟨4, [.emit 5 ⟨5, .identifier 5 "A" none, [.identifier 20 "x" (some 2)]⟩]⟩⟩

def declaredRead : Contract :=
  ⟨1, "C", [⟨2, "x", .integer .uint256, some (.integer 5 .uint256)⟩], [], [emitsDeclared]⟩

/-- Another variable of that name. -/
def namesake : StorageVariable := ⟨9, "x", .integer .uint256, some (.integer 7 .uint256)⟩

/-- The namesake, declared behind the variable, hides it from references by name only. -/
theorem references_suffice_namesake :
    let e : Expression := .identifier 20 "x" (some 2)
    let storage := Environment.storage.add ⟨⟨2, "x", .integer .uint256⟩, 0, [.integer 5 .uint256]⟩
    let view : View := .single storage
    let view' : View := .layered .locals
      (storage.add ⟨⟨9, "x", .integer .uint256⟩, 0, [.integer 7 .uint256]⟩)
    let t : Transaction := ⟨"C", "f", []⟩
    let program : Program := ⟨⟨[declaredRead]⟩, [t]⟩
    let declared : Program :=
      ⟨⟨[{ declaredRead with storage := declaredRead.storage ++ [namesake] }]⟩, [t]⟩
    let requests : List Session.Request := [.transaction t, .run]
    ((∀ r ∈ e.references, view'.current? r = view.current? r) ∧
      evaluate .fail view' e = evaluate .fail view e) ∧
    (declaredRead.storage = declaredRead.storage ++ [] ∧ namesake.Usable ∧
      (∀ w ∈ declaredRead.storage, w.id ≠ namesake.id) ∧
      declaredRead.Ignores (Session.Calls (.start program {}) requests) namesake) ∧
    Session.answers requests (.start declared {}) = Session.answers requests (.start program {}) ∧
    (Session.answers requests (.start declared {})).head? =
      some (.ok none, ⟨[⟨"A", [(0, .integer 5 .uint256)]⟩], none⟩) := by
  intro e storage view view' t program declared requests
  have hviews : ∀ r ∈ e.references, view'.current? r = view.current? r := by
    intro r hr
    rw [List.mem_singleton.1 hr]
    rfl
  have hstorage : declaredRead.storage = declaredRead.storage ++ [] := rfl
  have husable : namesake.Usable := ⟨_, rfl, rfl⟩
  have hfresh : ∀ w ∈ declaredRead.storage, w.id ≠ namesake.id := by
    intro w hw
    rw [List.mem_singleton.1 hw]
    decide
  have hignores : declaredRead.Ignores (Session.Calls (.start program {}) requests) namesake := by
    rintro f ⟨_, _, _, u, _, _, _, _, ha⟩ r hr
    obtain rfl : emitsDeclared = f := by
      have hf := List.mem_of_find?_eq_some ha.function_eq
      exact (List.mem_singleton.1 hf).symm
    rw [List.mem_singleton.1 hr]
    exact fun h : (2 : NodeId) = 9 => absurd h (by decide)
  have hevaluate := references_suffice.1 .fail view view' e hviews
  have hdeclared := references_suffice.2 [] [] declaredRead declaredRead.storage [] namesake [t] {}
    requests hstorage husable hfresh hignores
  have hfirst : ∀ g, (Session.answers requests
      { Session.start program {} with generator := g }).head? =
        some (.ok none, ⟨[⟨"A", [(0, .integer 5 .uint256)]⟩], none⟩) := fun _ => rfl
  exact ⟨⟨hviews, hevaluate⟩, ⟨hstorage, husable, hfresh, hignores⟩, hdeclared,
    (congrArg List.head? hdeclared).trans (hfirst _)⟩

end ContractTrace
