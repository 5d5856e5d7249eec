import ContractTrace.Proofs.Bindings

/-! An environment is the record of what was done to it. Of a declaration it keeps what the
last binding added for it says, and the values assigned since; of a name it keeps the
declaration that was last added under it. So a name leads to a variable of that name as long as
its declaration is not added again under another name. -/

namespace ContractTrace.Environment

/-! ### Logs -/

/-- What changes an environment. -/
inductive Operation
  | add (b : Binding)
  | assign (id : NodeId) (value : Value)

def Operation.perform : Operation → Environment → Environment
  | .add b, env => env.add b
  | .assign id value, env => (env.assign id value).2

def empty (isStorage : Bool) : Environment := ⟨isStorage, [], []⟩

/-- The environment behind operations, the first of which is done first. -/
def replay (env : Environment) (ops : List Operation) : Environment :=
  ops.foldl (fun env o => o.perform env) env

/-- The values assigned to a declaration, oldest first. -/
def assigned (id : NodeId) (ops : List Operation) : List Value :=
  ops.filterMap fun
    | .assign target value => if target = id then some value else none
    | .add _ => none

/-- Among the bindings added that satisfy `P` the last is `b`; `since` is what was done
afterwards. -/
structure LastAdd (P : Binding → Prop) (ops : List Operation) (b : Binding)
    (since : List Operation) : Prop where
  split : ∃ before, ops = before ++ .add b :: since
  holds : P b
  last : ∀ c, .add c ∈ since → ¬ P c

variable {env : Environment} {ops since : List Operation} {P : Binding → Prop} {b : Binding}

theorem never_or_lastAdd (P : Binding → Prop) (ops : List Operation) :
    (∀ b, .add b ∈ ops → ¬ P b) ∨ ∃ b since, LastAdd P ops b since := by
  induction ops with
  | nil =>
    left
    intro b hb
    cases hb
  | cons o ops ih =>
    rcases ih with hnever | ⟨b, since, ⟨before, rfl⟩, hP, hlast⟩
    · by_cases hfirst : ∃ b, o = .add b ∧ P b
      · obtain ⟨b, rfl, hP⟩ := hfirst
        exact .inr ⟨b, ops, ⟨[], rfl⟩, hP, hnever⟩
      · left
        intro b hb hP
        rcases List.mem_cons.1 hb with rfl | hb
        · exact hfirst ⟨b, rfl, hP⟩
        · exact hnever b hb hP
    · exact .inr ⟨b, since, ⟨o :: before, rfl⟩, hP, hlast⟩

theorem exists_lastAdd (hb : .add b ∈ ops) (hP : P b) : ∃ c since, LastAdd P ops c since :=
  (never_or_lastAdd P ops).resolve_left fun hnever => hnever b hb hP

theorem LastAdd.mem (h : LastAdd P ops b since) : .add b ∈ ops := by
  obtain ⟨before, rfl⟩ := h.split
  exact List.mem_append_right before List.mem_cons_self

/-- Operations are done one after the other. -/
theorem replay_append (env : Environment) (ops ops' : List Operation) :
    env.replay (ops ++ ops') = (env.replay ops).replay ops' :=
  List.foldl_append

/-! ### Declarations -/

/-- While a declaration is not added, its history only grows. -/
theorem get?_replay_of_not_added {id : NodeId} (h : ∀ b, .add b ∈ ops → b.id ≠ id)
    (env : Environment) :
    (env.replay ops).get? id = (env.get? id).map (·.extended (assigned id ops)) := by
  induction ops generalizing env with
  | nil => simp [replay, assigned]
  | cons o ops ih =>
    have hops : ∀ b, .add b ∈ ops → b.id ≠ id := fun b hb => h b (List.mem_cons_of_mem o hb)
    have hrest : (env.replay (o :: ops)).get? id =
        ((o.perform env).get? id).map (·.extended (assigned id ops)) := ih hops (o.perform env)
    rw [hrest]
    cases o with
    | add b =>
      have hb : b.id ≠ id := h b List.mem_cons_self
      rw [Operation.perform, get?_add_of_ne env hb]
      rfl
    | assign target value =>
      rw [Operation.perform, get?_assign, Option.map_map]
      refine Option.map_congr fun b _ => ?_
      by_cases htarget : target = id
      · simp [assigned, htarget]
      · simp [assigned, htarget, Ne.symm htarget]

/-- The last add sets the history, and what is assigned afterwards extends it. -/
theorem LastAdd.get?_replay {id : NodeId} (h : LastAdd (·.id = id) ops b since)
    (env : Environment) :
    (env.replay ops).get? id = some (b.extended (assigned id since)) := by
  obtain ⟨⟨before, rfl⟩, rfl, hlast⟩ := h
  have hadd : (env.replay (before ++ .add b :: since)).get? b.id =
      (((env.replay before).add b).replay since).get? b.id := by
    rw [replay_append]
    rfl
  rw [hadd, get?_replay_of_not_added hlast, get?_add_self, Option.map_some]

theorem get?_replay_empty {id : NodeId} (h : ∀ b, .add b ∈ ops → b.id ≠ id)
    (isStorage : Bool) : ((empty isStorage).replay ops).get? id = none := by
  rw [get?_replay_of_not_added h]
  rfl

/-- A declaration has a binding exactly if one was added. -/
theorem isSome_get?_replay (isStorage : Bool) (ops : List Operation) (id : NodeId) :
    (((empty isStorage).replay ops).get? id).isSome = true ↔ ∃ b, .add b ∈ ops ∧ b.id = id := by
  rcases never_or_lastAdd (·.id = id) ops with hnever | ⟨b, since, hlast⟩
  · rw [get?_replay_empty hnever]
    constructor
    · intro h
      cases h
    · rintro ⟨b, hb, hid⟩
      exact absurd hid (hnever b hb)
  · rw [hlast.get?_replay]
    exact ⟨fun _ => ⟨b, hlast.mem, hlast.holds⟩, fun _ => rfl⟩

/-! ### Names -/

theorem lookup_names_replay_of_not_added {name : String} (h : ∀ b, .add b ∈ ops → b.name ≠ name)
    (env : Environment) : (env.replay ops).names.lookup name = env.names.lookup name := by
  induction ops generalizing env with
  | nil => rfl
  | cons o ops ih =>
    have hops : ∀ b, .add b ∈ ops → b.name ≠ name := fun b hb => h b (List.mem_cons_of_mem o hb)
    have hrest : (env.replay (o :: ops)).names.lookup name = (o.perform env).names.lookup name :=
      ih hops (o.perform env)
    rw [hrest]
    cases o with
    | add b => exact lookup_names_add_of_ne env (h b List.mem_cons_self)
    | assign target value => rw [Operation.perform, names_assign]

theorem LastAdd.lookup_names_replay {name : String} (h : LastAdd (·.name = name) ops b since)
    (env : Environment) : (env.replay ops).names.lookup name = some b.id := by
  obtain ⟨⟨before, rfl⟩, rfl, hlast⟩ := h
  have hadd : (env.replay (before ++ .add b :: since)).names.lookup b.name =
      (((env.replay before).add b).replay since).names.lookup b.name := by
    rw [replay_append]
    rfl
  rw [hadd, lookup_names_replay_of_not_added hlast, lookup_names_add_self]

/-- A name leads to what its last declaration leads to. -/
theorem LastAdd.named?_replay {name : String} (h : LastAdd (·.name = name) ops b since)
    (env : Environment) : (env.replay ops).named? name = (env.replay ops).get? b.id := by
  rw [named?, h.lookup_names_replay]
  rfl

theorem named?_replay_empty {name : String} (h : ∀ b, .add b ∈ ops → b.name ≠ name)
    (isStorage : Bool) : ((empty isStorage).replay ops).named? name = none := by
  rw [named?, lookup_names_replay_of_not_added h]
  rfl

/-! ### The record -/

theorem Ascending.replay (h : env.Ascending) (ops : List Operation) :
    (env.replay ops).Ascending := by
  induction ops generalizing env with
  | nil => exact h
  | cons o ops ih =>
    cases o with
    | add b => exact ih (h.add b)
    | assign id value => exact ih (h.assign id value)

/-- The environments differ in one history only, which has one more value. -/
structure Assigned (id : NodeId) (value : Value) (env env' : Environment) : Prop where
  isStorage : env'.isStorage = env.isStorage
  names : env'.names = env.names
  ids : env'.bindings.map Binding.id = env.bindings.map Binding.id
  target : env'.get? id = (env.get? id).map (·.extended [value])
  others : ∀ other, other ≠ id → env'.get? other = env.get? other

theorem assign_assigned (env : Environment) (id : NodeId) (value : Value) :
    Assigned id value env (env.assign id value).2 where
  isStorage := isStorage_assign env id value
  names := names_assign env id value
  ids := ids_assign env id value
  target := by simp [get?_assign]
  others other hother := by simp [get?_assign, hother]

/-- All that an environment shows is what the log of operations says. -/
structure Records (ops : List Operation) (env : Environment) : Prop where
  /-- A declaration that was not added has no binding. -/
  absent : ∀ id, (∀ b, .add b ∈ ops → b.id ≠ id) →
    env.get? id = none ∧ ∀ name, env.lookup name (some id) = none
  /-- Any other has variable and depth of its last add, and the values of that add before those
  assigned since. -/
  present : ∀ id b since, LastAdd (·.id = id) ops b since →
    let binding : Binding := ⟨b.subject, b.depth, b.values ++ assigned id since⟩
    env.get? id = some binding ∧ ∀ name, env.lookup name (some id) = some binding
  unnamed : ∀ name, (∀ b, .add b ∈ ops → b.name ≠ name) → env.lookup name none = none
  /-- A name alone leads where the declaration leads that was last added under it. -/
  named : ∀ name b since, LastAdd (·.name = name) ops b since →
    env.lookup name none = env.lookup name (some b.id)
  assign_iff : ∀ id value, (env.assign id value).1 = true ↔ ∃ b, .add b ∈ ops ∧ b.id = id
  assign_true : ∀ id value, Assigned id value env (env.assign id value).2
  assign_false : ∀ id value, (env.assign id value).1 = false → (env.assign id value).2 = env
  /-- The bindings listed are those of the added declarations, each once and in order. -/
  ascending : (env.bindings.map Binding.id).Pairwise (· < ·)
  listed : ∀ id, id ∈ env.bindings.map Binding.id ↔ ∃ b, .add b ∈ ops ∧ b.id = id
  entries : ∀ b ∈ env.bindings, env.get? b.id = some b

/-- An environment that was empty is the record of all that was done to it. -/
theorem records_replay (isStorage : Bool) (ops : List Operation) :
    Records ops ((empty isStorage).replay ops) := by
  have hempty : (empty isStorage).Ascending := List.Pairwise.nil
  have hascending := hempty.replay ops
  have hlisted : ∀ id, (∃ b ∈ ((empty isStorage).replay ops).bindings, b.id = id) ↔
      ∃ b, .add b ∈ ops ∧ b.id = id := by
    intro id
    rw [← isSome_get?_iff, isSome_get?_replay]
  constructor
  case absent =>
    intro id h
    have hnone := get?_replay_empty h isStorage
    exact ⟨hnone, fun _ => hnone⟩
  case present =>
    intro id b since h
    have hsome := h.get?_replay (empty isStorage)
    exact ⟨hsome, fun _ => hsome⟩
  case unnamed => exact fun name h => named?_replay_empty h isStorage
  case named => exact fun name b since h => h.named?_replay (empty isStorage)
  case assign_iff => exact fun id value => (assign_fst _ id value).trans (hlisted id)
  case assign_true => exact fun id value => assign_assigned _ id value
  case assign_false => exact fun id value => assign_of_absent _
  case ascending => exact hascending
  case listed => exact fun id => List.mem_map.trans (hlisted id)
  case entries => exact fun b hb => hascending.get?_of_mem hb

/-- A variable with one value. -/
def sampled (id : NodeId) (name : String) (value : Int) : Binding :=
  ⟨⟨id, name, .integer .uint256⟩, 0, [.integer value .uint256]⟩

/-- Two declarations share a name, until the first is added again under another one. -/
def readded : List Operation :=
  [.add (sampled 1 "a" 5), .assign 1 (.integer 6 .uint256), .add (sampled 2 "a" 7),
    .add (sampled 1 "b" 8), .assign 1 (.integer 9 .uint256)]

theorem records_replay_readded :
    let env := (empty true).replay readded
    env.get? 1 = some ((sampled 1 "b" 8).extended [.integer 9 .uint256]) ∧
      env.lookup "a" none = env.lookup "a" (some 2) ∧
      ∀ value, (env.assign 2 value).1 = true ∧ (env.assign 3 value).2 = env := by
  intro env
  have hrecords : Records readded env := records_replay true readded
  have hlast : LastAdd (·.id = 1) readded (sampled 1 "b" 8) [.assign 1 (.integer 9 .uint256)] := by
    refine ⟨⟨readded.take 3, rfl⟩, rfl, fun c hc => ?_⟩
    simp at hc
  have hnamed : LastAdd (·.name = "a") readded (sampled 2 "a" 7) (readded.drop 3) := by
    refine ⟨⟨readded.take 2, rfl⟩, rfl, fun c hc => ?_⟩
    have hc : c = sampled 1 "b" 8 := by simpa [readded] using hc
    rw [hc]
    decide
  refine ⟨(hrecords.present 1 _ _ hlast).1, hrecords.named "a" _ _ hnamed, fun value => ⟨?_, ?_⟩⟩
  · exact (hrecords.assign_iff 2 value).2 ⟨_, hnamed.mem, rfl⟩
  · exact hrecords.assign_false 3 value rfl

/-! ### Names of variables -/

/-- The variable that a name leads to has that name exactly if its declaration was not added
again, under another name, since the last add under that name. -/
theorem lookup_name_eq_iff {isStorage : Bool} {ops : List Operation} {name : String}
    {b : Binding} (h : ((empty isStorage).replay ops).named? name = some b ∨
      ((empty isStorage).replay ops).lookup name none = some b) :
    b.name = name ↔
      ∀ c since, LastAdd (·.name = name) ops c since → ∀ d, .add d ∈ since → d.id ≠ c.id := by
  have hb : ((empty isStorage).replay ops).named? name = some b := h.elim id id
  constructor
  · intro hname c since hlast d hd hid
    -- the last add of the declaration is among those since, and none of these has the name
    obtain ⟨e, since', he⟩ := exists_lastAdd (P := (·.id = c.id)) hd hid
    have hwhole : LastAdd (·.id = c.id) ops e since' := by
      obtain ⟨before, rfl⟩ := hlast.split
      obtain ⟨before', hsince⟩ := he.split
      refine ⟨⟨before ++ .add c :: before', ?_⟩, he.holds, he.last⟩
      rw [List.append_assoc, List.cons_append, ← hsince]
    rw [hlast.named?_replay, hwhole.get?_replay] at hb
    cases hb
    exact hlast.last e he.mem hname
  · intro honce
    rcases never_or_lastAdd (·.name = name) ops with hnever | ⟨c, since, hlast⟩
    · rw [named?_replay_empty hnever] at hb
      cases hb
    · have hsame : LastAdd (·.id = c.id) ops c since := ⟨hlast.split, rfl, honce c since hlast⟩
      rw [hlast.named?_replay, hsame.get?_replay] at hb
      cases hb
      exact hlast.holds

theorem lookup_name_eq_iff_readded :
    ((empty true).replay readded).named? "a" = some (sampled 2 "a" 7) ∧
      ∀ c since, LastAdd (·.name = "a") readded c since → ∀ d, .add d ∈ since → d.id ≠ c.id := by
  have hnamed : ((empty true).replay readded).named? "a" = some (sampled 2 "a" 7) := rfl
  exact ⟨hnamed, (lookup_name_eq_iff (.inl hnamed)).1 rfl⟩

/-- The name `a` still stands for the declaration, which has become `b`. -/
theorem named_replay_stale :
    let ops := [.add (sampled 1 "a" 5), .add (sampled 1 "b" 6)]
    ((empty true).replay ops).named? "a" = some (sampled 1 "b" 6) ∧
      ((empty true).replay ops).lookup "a" none = some (sampled 1 "b" 6) ∧
      (sampled 1 "b" 6).name ≠ "a" :=
  ⟨rfl, rfl, by decide⟩

end ContractTrace.Environment
