import ContractTrace.Trace
import ContractTrace.Proofs.Tokens
import Mathlib.Data.List.Forall2
import Mathlib.Data.List.Nodup

/-! What a rendered trace tells. Two traces have the same text exactly if an observer who sees
names, values and their order, but no integer types, cannot tell them apart. Tokens determine
the tree and the place where it ends, so this holds at any depth of nesting. -/

namespace ContractTrace

/-! ### Trees are determined by their tokens -/

namespace Json

theorem treeTokens_ne_close (j : Json) (r s : List Token) :
    treeTokens j ++ r ≠ .arrayClose :: s := by
  cases j <;> simp [treeTokens]

mutual

/-- The tokens of a tree determine the tree and what follows it. -/
theorem treeTokens_append_inj : ∀ (a b : Json) {r s : List Token},
    treeTokens a ++ r = treeTokens b ++ s → a = b ∧ r = s
  | .array as, b, r, s, h => by
    cases b with
    | array bs =>
      rw [treeTokens, treeTokens, List.cons_append, List.cons_append, List.cons.injEq] at h
      obtain ⟨rfl, hr⟩ := itemTokens_append_inj as bs true h.2
      exact ⟨rfl, hr⟩
    | _ => simp [treeTokens] at h
  | .object as, b, r, s, h => by
    cases b with
    | object bs =>
      rw [treeTokens, treeTokens, List.cons_append, List.cons_append, List.cons.injEq] at h
      obtain ⟨rfl, hr⟩ := memberTokens_append_inj as bs true h.2
      exact ⟨rfl, hr⟩
    | _ => simp [treeTokens] at h
  | .null, b, _, _, h | .bool _, b, _, _, h | .integer _, b, _, _, h | .real _, b, _, _, h
  | .string _, b, _, _, h | .invalid, b, _, _, h | .cut, b, _, _, h => by
    cases b <;> simp_all [treeTokens]

theorem itemTokens_append_inj : ∀ (as bs : List Json) (first : Bool) {r s : List Token},
    itemTokens first as ++ r = itemTokens first bs ++ s → as = bs ∧ r = s
  | [], [], _, _, _, h => ⟨rfl, (List.cons.inj h).2⟩
  -- without a comma in front, only the closing bracket tells no items from some
  | [], b :: bs, true, _, _, h => by
    rw [itemTokens, itemTokens, comma, if_pos rfl, List.nil_append, List.append_assoc] at h
    exact absurd h.symm (treeTokens_ne_close b _ _)
  | a :: as, [], true, _, _, h => by
    rw [itemTokens, itemTokens, comma, if_pos rfl, List.nil_append, List.append_assoc] at h
    exact absurd h (treeTokens_ne_close a _ _)
  | [], _ :: _, false, _, _, h | _ :: _, [], false, _, _, h => by
    simp [itemTokens, comma] at h
  | a :: as, b :: bs, first, r, s, h => by
    simp only [itemTokens, List.append_assoc, List.append_cancel_left_eq] at h
    obtain ⟨rfl, hrest⟩ := treeTokens_append_inj a b h
    obtain ⟨rfl, hr⟩ := itemTokens_append_inj as bs false hrest
    exact ⟨rfl, hr⟩

theorem memberTokens_append_inj : ∀ (as bs : List (String × Json)) (first : Bool)
    {r s : List Token}, memberTokens first as ++ r = memberTokens first bs ++ s → as = bs ∧ r = s
  | [], [], _, _, _, h => ⟨rfl, (List.cons.inj h).2⟩
  | [], (_, _) :: _, first, _, _, h | (_, _) :: _, [], first, _, _, h => by
    cases first <;> simp [memberTokens, comma] at h
  | (key, a) :: as, (_, b) :: bs, first, r, s, h => by
    simp only [memberTokens, List.append_assoc, List.append_cancel_left_eq, List.cons_append,
      List.cons.injEq, Token.scalar.injEq, Json.string.injEq, true_and] at h
    obtain ⟨rfl, hvalue⟩ := h
    obtain ⟨rfl, hrest⟩ := treeTokens_append_inj a b hvalue
    obtain ⟨rfl, hr⟩ := memberTokens_append_inj as bs false hrest
    exact ⟨rfl, hr⟩

end

theorem treeTokens_injective {a b : Json} (h : treeTokens a = treeTokens b) : a = b :=
  (treeTokens_append_inj a b (congrArg (· ++ []) h)).1

end Json

/-! ### Observations -/

/-- A value whose integers have lost their types. -/
inductive Observation
  | integer (v : Int)
  | bool (b : Bool)
  | tuple (items : List Observation)

namespace Value

mutual

/-- What an observer sees of a value. -/
def observe : Value → Observation
  | .integer v _ => .integer v
  | .bool b => .bool b
  | .tuple items => .tuple (observeAll items)

def observeAll : List Value → List Observation
  | [] => []
  | v :: vs => v.observe :: observeAll vs

end

mutual

/-- The form of a value in a trace determines what is observed, and the other way round. -/
theorem traceJson_eq_iff : ∀ v w : Value, v.traceJson = w.traceJson ↔ v.observe = w.observe
  | .integer v _, .integer w _ => by
    simp only [traceJson, observe, Observation.integer.injEq]
    split_ifs with hv hw hw
    · exact Json.integer.injEq v w ▸ Iff.rfl
    · simp only [false_iff]
      rintro rfl
      exact hw hv
    · simp only [false_iff]
      rintro rfl
      exact hv hw
    · rw [Json.string.injEq]
      exact ⟨Decimal.ofInt_injective, congrArg _⟩
  | .bool b, .bool c => by simp [traceJson, observe]
  | .tuple vs, .tuple ws => by
    simp [traceJson, observe, traceJsons_eq_iff vs ws]
  | .bool _, .tuple _ | .tuple _, .bool _ => by simp [traceJson, observe]
  | .integer _ _, .bool _ | .integer _ _, .tuple _ | .bool _, .integer _ _
  | .tuple _, .integer _ _ => by
    simp only [traceJson, observe]
    split_ifs <;> simp

theorem traceJsons_eq_iff : ∀ vs ws : List Value,
    traceJsons vs = traceJsons ws ↔ observeAll vs = observeAll ws
  | [], [] => by simp [traceJsons, observeAll]
  | [], _ :: _ | _ :: _, [] => by simp [traceJsons, observeAll]
  | v :: vs, w :: ws => by
    simp [traceJsons, observeAll, traceJson_eq_iff v w, traceJsons_eq_iff vs ws]

end

mutual

theorem plain_traceJson : ∀ v : Value, v.traceJson.Plain
  | .integer v _ => by
    rw [traceJson]
    split_ifs with h
    · exact h
    · exact trivial
  | .bool _ => trivial
  | .tuple items => plain_traceJsons items

theorem plain_traceJsons : ∀ vs : List Value, Json.AllPlain (traceJsons vs)
  | [] => trivial
  | v :: vs => ⟨plain_traceJson v, plain_traceJsons vs⟩

end

end Value

/-! ### Members -/

namespace Json

variable {key : String} {j : Json} {members : List (String × Json)}

theorem setMember_of_notMem (h : key ∉ members.map Prod.fst) :
    setMember key j members = members ++ [(key, j)] := by
  induction members with
  | nil => rfl
  | cons m ms ih =>
    rw [List.map_cons, List.mem_cons, not_or] at h
    rw [setMember, if_neg (Ne.symm h.1), ih h.2, List.cons_append]

/-- Members with keys of their own are put behind one another. -/
theorem foldl_setMember_of_nodup (done : List (String × Json))
    (h : ((done ++ members).map Prod.fst).Nodup) :
    members.foldl (fun ms m => setMember m.1 m.2 ms) done = done ++ members := by
  induction members generalizing done with
  | nil => rw [List.append_nil, List.foldl_nil]
  | cons m ms ih =>
    have hfresh : m.1 ∉ done.map Prod.fst := by
      rw [List.map_append, List.nodup_append] at h
      exact fun hm => h.2.2 _ hm _ List.mem_cons_self rfl
    rw [List.append_cons] at h ⊢
    rw [List.foldl_cons, setMember_of_notMem hfresh, ih _ h]

theorem ofMembers_of_nodup (h : (members.map Prod.fst).Nodup) :
    ofMembers members = .object members := by
  rw [ofMembers, foldl_setMember_of_nodup [] h, List.nil_append]

example : ofMembers [("0", .null), ("1", .null), ("0", .bool true)] =
    .object [("0", .bool true), ("1", .null)] := rfl

theorem MembersPlain.setMember (h : MembersPlain members) (hj : j.Plain) :
    MembersPlain (setMember key j members) := by
  induction members with
  | nil => exact ⟨hj, trivial⟩
  | cons m ms ih =>
    rw [Json.setMember]
    split_ifs
    · exact ⟨hj, h.2⟩
    · exact ⟨h.1, ih h.2⟩

theorem MembersPlain.ofMembers (h : MembersPlain members) : (ofMembers members).Plain := by
  have hfold : ∀ done, MembersPlain done →
      MembersPlain (members.foldl (fun ms m => Json.setMember m.1 m.2 ms) done) := by
    induction members with
    | nil => exact fun _ hdone => hdone
    | cons m ms ih => exact fun _ hdone => ih h.2 _ (hdone.setMember h.1)
  exact hfold [] trivial

end Json

/-! ### Events -/

namespace Event

/-- The event is a name to which values have been pushed one by one. -/
inductive Pushed : Event → Prop
  | named (name : String) : Pushed (.named name)
  | push {event : Event} (h : Pushed event) (value : Value) : Pushed (event.push value)

/-- The values of the arguments, as they are observed. -/
def observations (event : Event) : List Observation := event.arguments.map (·.2.observe)

/-- Same name, same arguments up to types. -/
def SameObservation (e f : Event) : Prop := e.name = f.name ∧ e.observations = f.observations

/-- Pushed values have the slots 0, 1, 2 and so on. -/
theorem Pushed.slots {event : Event} (h : event.Pushed) :
    event.arguments.map Prod.fst = List.range event.arguments.length := by
  induction h with
  | named name => rfl
  | push _ value ih => simp [Event.push, ih, List.range_succ]

/-- The arguments of an event in a trace, by slot. -/
def argumentMembers (event : Event) : List (String × Json) :=
  event.arguments.map fun (slot, v) => (Decimal.ofNat slot, v.traceJson)

theorem argumentMembers_eq (event : Event) :
    event.argumentMembers = ((event.arguments.map Prod.fst).map Decimal.ofNat).zip
      (event.arguments.map (·.2.traceJson)) := by
  rw [List.map_map, List.zip_map']
  rfl

theorem traceJson_eq_observations {es fs : List (Nat × Value)} :
    es.map (·.2.traceJson) = fs.map (·.2.traceJson) ↔
      es.map (·.2.observe) = fs.map (·.2.observe) := by
  induction es generalizing fs with
  | nil => cases fs <;> simp
  | cons e es ih =>
    cases fs with
    | nil => simp
    | cons f fs => simp [Value.traceJson_eq_iff, ih]

theorem argumentMembers_eq_iff {e f : Event} (he : e.Pushed) (hf : f.Pushed) :
    e.argumentMembers = f.argumentMembers ↔ e.observations = f.observations := by
  rw [observations, observations, ← traceJson_eq_observations]
  constructor
  · intro h
    have hvalues := congrArg (List.map Prod.snd) h
    simpa [argumentMembers, Function.comp_def] using hvalues
  · intro h
    have hlength := congrArg List.length h
    rw [List.length_map, List.length_map] at hlength
    rw [argumentMembers_eq, argumentMembers_eq, he.slots, hf.slots, h, hlength]

/-- No slot stands twice, so that each argument is a member of its own. -/
theorem Pushed.toJson_eq {event : Event} (h : event.Pushed) :
    event.toJson =
      .object [("event", .string event.name), ("args", .object event.argumentMembers)] := by
  have hkeys : event.argumentMembers.map Prod.fst =
      (List.range event.arguments.length).map Decimal.ofNat := by
    rw [← h.slots, argumentMembers, List.map_map, List.map_map]
    rfl
  have hnodup : (event.argumentMembers.map Prod.fst).Nodup := by
    rw [hkeys]
    exact List.Nodup.map (fun _ _ => Decimal.ofNat_injective) List.nodup_range
  rw [← Json.ofMembers_of_nodup hnodup]
  rfl

theorem toJson_eq_iff {e f : Event} (he : e.Pushed) (hf : f.Pushed) :
    e.toJson = f.toJson ↔ e.SameObservation f := by
  have hargs := argumentMembers_eq_iff he hf
  simp [he.toJson_eq, hf.toJson_eq, SameObservation, hargs]

theorem plain_toJson (event : Event) : event.toJson.Plain := by
  have hmembers : Json.MembersPlain event.argumentMembers := by
    unfold argumentMembers
    induction event.arguments with
    | nil => trivial
    | cons a as ih => exact ⟨a.2.plain_traceJson, ih⟩
  exact ⟨trivial, hmembers.ofMembers, trivial⟩

end Event

/-! ### Traces -/

namespace Trace

theorem plain_toJson (t : Trace) : t.toJson.Plain := by
  show Json.AllPlain (t.committed.map Event.toJson)
  induction t.committed with
  | nil => trivial
  | cons e es ih => exact ⟨e.plain_toJson, ih⟩

/-- The text of a trace determines its tree. -/
theorem render_eq_iff_toJson {t u : Trace} : t.render = u.render ↔ t.toJson = u.toJson := by
  refine ⟨fun h => ?_, fun h => by rw [render, render, h]⟩
  have hchars : Json.prettyChars 0 t.toJson ++ ['\n'] = Json.prettyChars 0 u.toJson ++ ['\n'] := by
    have := congrArg String.toList h
    simpa [render, Json.pretty] using this
  apply Json.treeTokens_injective
  rw [← Json.tokens_prettyChars_newLine t.plain_toJson, hchars,
    Json.tokens_prettyChars_newLine u.plain_toJson]

theorem map_toJson_eq_iff {es fs : List Event} (he : ∀ e ∈ es, e.Pushed)
    (hf : ∀ f ∈ fs, f.Pushed) :
    es.map Event.toJson = fs.map Event.toJson ↔ List.Forall₂ Event.SameObservation es fs := by
  induction es generalizing fs with
  | nil => cases fs <;> simp
  | cons e es ih =>
    cases fs with
    | nil => simp
    | cons f fs =>
      rw [List.forall_mem_cons] at he hf
      rw [List.map_cons, List.map_cons, List.cons.injEq, List.forall₂_cons,
        Event.toJson_eq_iff he.1 hf.1, ih he.2 hf.2]

/-- Two traces render to the same text exactly if they have the same number of events and,
place by place, the same names and the same arguments up to integer types. -/
theorem render_eq_iff_observed {t u : Trace} (ht : ∀ e ∈ t.committed, e.Pushed)
    (hu : ∀ e ∈ u.committed, e.Pushed) :
    t.render = u.render ↔ List.Forall₂ Event.SameObservation t.committed u.committed := by
  rw [render_eq_iff_toJson, toJson, toJson, Json.array.injEq]
  exact map_toJson_eq_iff ht hu

/-- An event with a number and, in a tuple, an integer that is written as text. -/
def numberAndText (number text : IntegerType) (v : Int) : Event :=
  ((Event.named "E\n").push (.integer v number)).push (.tuple [.integer (twoPow 64) text])

/-- Types do not show, values do. -/
theorem render_eq_iff_observed_numberAndText :
    let t : Trace := ⟨[numberAndText ⟨false, 8⟩ ⟨false, 256⟩ 5], none⟩
    let u : Trace := ⟨[numberAndText ⟨true, 16⟩ ⟨true, 128⟩ 5], some []⟩
    let w : Trace := ⟨[numberAndText ⟨false, 8⟩ ⟨false, 256⟩ 6], none⟩
    ((∀ e ∈ t.committed, e.Pushed) ∧ (∀ e ∈ u.committed, e.Pushed) ∧
      ∀ e ∈ w.committed, e.Pushed) ∧ t.render = u.render ∧ t.render ≠ w.render := by
  intro t u w
  have hpushed : ∀ number text v, ∀ e ∈ [numberAndText number text v], e.Pushed := by
    intro number text v e he
    rw [List.mem_singleton.1 he]
    exact ((Event.Pushed.named _).push _).push _
  refine ⟨⟨hpushed _ _ _, hpushed _ _ _, hpushed _ _ _⟩, ?_, fun h => ?_⟩
  · exact (render_eq_iff_observed (hpushed _ _ _) (hpushed _ _ _)).2 (.cons ⟨rfl, rfl⟩ .nil)
  · obtain ⟨⟨-, hsame⟩, -⟩ := List.forall₂_cons.1
      ((render_eq_iff_observed (hpushed _ _ _) (hpushed _ _ _)).1 h)
    cases hsame

end Trace

end ContractTrace
