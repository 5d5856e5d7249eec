import ContractTrace.Environment
import Mathlib.Tactic.SplitIfs

/-! What the operations of an environment do to it, as seen by its lookups: adding a binding
replaces the one of the same declaration and takes its name over, and assigning extends one
history. The bindings stay in strictly ascending order throughout. -/

namespace ContractTrace

/-- The binding with further values. -/
def Binding.extended (b : Binding) (values : List Value) : Binding :=
  { b with values := b.values ++ values }

namespace Binding

@[simp] theorem extended_nil (b : Binding) : b.extended [] = b := by
  rw [extended, List.append_nil]

@[simp] theorem extended_extended (b : Binding) (vs ws : List Value) :
    (b.extended vs).extended ws = b.extended (vs ++ ws) := by
  simp only [extended, List.append_assoc]

end Binding

namespace Environment

variable (env : Environment)

/-! ### Members -/

theorem eq_or_mem_of_mem_insert {b c : Binding} {bs : List Binding} (h : c ∈ insert b bs) :
    c = b ∨ c ∈ bs := by
  induction bs with
  | nil => exact .inl (List.mem_singleton.1 h)
  | cons d ds ih =>
    rw [insert] at h
    split_ifs at h
    · exact List.mem_cons.1 h
    · exact (List.mem_cons.1 h).imp id (List.mem_cons_of_mem d)
    · rcases List.mem_cons.1 h with rfl | h
      · exact .inr List.mem_cons_self
      · exact (ih h).imp id (List.mem_cons_of_mem d)

theorem forall_mem_add {P : Binding → Prop} {env : Environment} (h : ∀ b ∈ env.bindings, P b)
    {b : Binding} (hb : P b) : ∀ c ∈ (env.add b).bindings, P c := by
  intro c hc
  rcases eq_or_mem_of_mem_insert hc with rfl | hc
  · exact hb
  · exact h c hc

theorem mem_bindings_of_lookup {env : Environment} {name : String} {declaration : Option NodeId}
    {b : Binding} (h : env.lookup name declaration = some b) : b ∈ env.bindings := by
  cases declaration with
  | some id => exact List.mem_of_find?_eq_some h
  | none =>
    obtain ⟨id, -, hget⟩ := Option.bind_eq_some_iff.1 h
    exact List.mem_of_find?_eq_some hget

/-- The declarations that have a binding are those of the bindings listed. -/
theorem isSome_get?_iff (id : NodeId) :
    (env.get? id).isSome = true ↔ ∃ b ∈ env.bindings, b.id = id := by
  simp only [get?, List.find?_isSome, decide_eq_true_eq]

/-- Where no declaration has two bindings, each binding is found by its declaration. -/
theorem find?_id_of_mem {bs : List Binding} (hids : (bs.map Binding.id).Nodup) {b : Binding}
    (hb : b ∈ bs) : bs.find? (·.id = b.id) = some b := by
  induction bs with
  | nil => cases hb
  | cons c cs ih =>
    rw [List.map_cons, List.nodup_cons] at hids
    rcases List.mem_cons.1 hb with rfl | hb
    · simp
    · have hne : c.id ≠ b.id := fun hcb => hids.1 (hcb ▸ List.mem_map_of_mem hb)
      rw [List.find?_cons_of_neg (by simpa using hne), ih hids.2 hb]

/-! ### Adding -/

theorem find?_insert_self (b : Binding) (bs : List Binding) :
    (insert b bs).find? (·.id = b.id) = some b := by
  induction bs with
  | nil => simp [insert]
  | cons c cs ih =>
    rw [insert]
    split_ifs with hlt heq
    · simp
    · simp
    · -- the place is behind `c`, which has another declaration
      have hc : c.id ≠ b.id := fun hc => heq hc.symm
      simpa [List.find?_cons, hc] using ih

theorem find?_insert_of_ne {b : Binding} {id : NodeId} (h : b.id ≠ id) (bs : List Binding) :
    (insert b bs).find? (·.id = id) = bs.find? (·.id = id) := by
  induction bs with
  | nil => simp [insert, h]
  | cons c cs ih =>
    rw [insert]
    split_ifs with hlt heq
    · simp [List.find?_cons, h]
    · -- `c` is replaced, but it is not looked for
      have hc : c.id ≠ id := fun hc => h (heq.trans hc)
      simp [h, hc]
    · simp only [List.find?_cons, ih]

theorem get?_add_self (b : Binding) : (env.add b).get? b.id = some b :=
  find?_insert_self b env.bindings

theorem get?_add_of_ne {b : Binding} {id : NodeId} (h : b.id ≠ id) :
    (env.add b).get? id = env.get? id :=
  find?_insert_of_ne h env.bindings

theorem lookup_filter_of_ne {name other : String} (h : name ≠ other)
    (names : List (String × NodeId)) :
    (names.filter (·.1 ≠ other)).lookup name = names.lookup name := by
  induction names with
  | nil => rfl
  | cons entry names ih =>
    obtain ⟨key, id⟩ := entry
    by_cases hkey : key = other
    · have hother : (name == key) = false := by simpa [hkey] using h
      rw [List.filter_cons_of_neg (by simpa using hkey), ih, List.lookup_cons, hother]
    · rw [List.filter_cons_of_pos (by simpa using hkey), List.lookup_cons, List.lookup_cons, ih]

theorem lookup_names_add_self (b : Binding) :
    (env.add b).names.lookup b.name = some b.id := by
  simp only [add, List.lookup_cons, beq_self_eq_true]

theorem lookup_names_add_of_ne {b : Binding} {name : String} (h : b.name ≠ name) :
    (env.add b).names.lookup name = env.names.lookup name := by
  have hname : (name == b.name) = false := by simpa using h.symm
  simp only [add, List.lookup_cons, hname]
  exact lookup_filter_of_ne h.symm env.names

/-! ### Assigning -/

theorem isStorage_assign (id : NodeId) (v : Value) :
    (env.assign id v).2.isStorage = env.isStorage := by
  rw [assign]
  split_ifs <;> rfl

theorem names_assign (id : NodeId) (v : Value) : (env.assign id v).2.names = env.names := by
  rw [assign]
  split_ifs <;> rfl

theorem assign_fst (id : NodeId) (v : Value) :
    (env.assign id v).1 = true ↔ ∃ b ∈ env.bindings, b.id = id := by
  rw [assign]
  split_ifs with h
  · simpa using h
  · simpa using h

theorem assign_of_absent {id : NodeId} {v : Value} (h : (env.assign id v).1 = false) :
    (env.assign id v).2 = env := by
  rw [assign] at h ⊢
  split_ifs at h ⊢
  rfl

/-- Every binding stays in its place. -/
theorem bindings_assign (id : NodeId) (v : Value) :
    (env.assign id v).2.bindings =
      env.bindings.map fun b => if b.id = id then b.extended [v] else b := by
  rw [assign]
  split_ifs with h
  · rfl
  · have hother : ∀ b ∈ env.bindings, b.id ≠ id := by simpa using h
    calc env.bindings = env.bindings.map fun b => b := (List.map_id _).symm
      _ = _ := List.map_congr_left fun b hb => (if_neg (hother b hb)).symm

theorem ids_assign (id : NodeId) (v : Value) :
    (env.assign id v).2.bindings.map Binding.id = env.bindings.map Binding.id := by
  rw [bindings_assign, List.map_map]
  refine List.map_congr_left fun b _ => ?_
  simp only [Function.comp_apply]
  split_ifs <;> rfl

theorem get?_assign (id : NodeId) (v : Value) (other : NodeId) :
    (env.assign id v).2.get? other =
      (env.get? other).map fun b => if other = id then b.extended [v] else b := by
  have hid : (fun b : Binding => decide (b.id = other)) ∘
      (fun b => if b.id = id then b.extended [v] else b) = fun b => decide (b.id = other) := by
    funext b
    simp only [Function.comp_apply]
    split_ifs <;> rfl
  rw [get?, bindings_assign, List.find?_map, hid, get?]
  refine Option.map_congr fun b hb => ?_
  have hfound : b.id = other := by simpa using List.find?_some hb
  rw [hfound]

/-! ### Order -/

/-- The bindings stand in strictly ascending order of their declarations. -/
def Ascending : Prop := (env.bindings.map Binding.id).Pairwise (· < ·)

variable {env}

theorem Ascending.insert {bs : List Binding} (h : (bs.map Binding.id).Pairwise (· < ·))
    (b : Binding) : ((Environment.insert b bs).map Binding.id).Pairwise (· < ·) := by
  induction bs with
  | nil => simp [Environment.insert]
  | cons c cs ih =>
    rw [List.map_cons, List.pairwise_cons, List.forall_mem_map] at h
    obtain ⟨hc, hcs⟩ := h
    rw [Environment.insert]
    split_ifs with hlt heq
    · refine List.pairwise_cons.2 ⟨?_, List.pairwise_cons.2 ⟨List.forall_mem_map.2 hc, hcs⟩⟩
      refine List.forall_mem_map.2 (List.forall_mem_cons.2 ⟨hlt, fun d hd => ?_⟩)
      exact UInt32.lt_trans hlt (hc d hd)
    · refine List.pairwise_cons.2 ⟨List.forall_mem_map.2 fun d hd => ?_, hcs⟩
      rw [heq]
      exact hc d hd
    · refine List.pairwise_cons.2 ⟨List.forall_mem_map.2 fun d hd => ?_, ih hcs⟩
      rcases eq_or_mem_of_mem_insert hd with rfl | hd
      · exact UInt32.lt_of_le_of_ne (UInt32.not_lt.1 hlt) fun hc => heq hc.symm
      · exact hc d hd

theorem Ascending.add (h : env.Ascending) (b : Binding) : (env.add b).Ascending :=
  Ascending.insert h b

theorem Ascending.assign (h : env.Ascending) (id : NodeId) (v : Value) :
    (env.assign id v).2.Ascending := by
  rw [Ascending, ids_assign]
  exact h

/-- A binding that is listed is the one of its declaration. -/
theorem Ascending.get?_of_mem (h : env.Ascending) {b : Binding} (hb : b ∈ env.bindings) :
    env.get? b.id = some b := by
  have hids : (env.bindings.map Binding.id).Nodup := List.Pairwise.imp UInt32.ne_of_lt h
  exact find?_id_of_mem hids hb

end Environment

theorem View.mem_bindings_of_lookup {locals storage : Environment} {name : String}
    {declaration : Option NodeId} {b : Binding}
    (h : (View.layered locals storage).lookup name declaration = some b) :
    b ∈ locals.bindings ∨ b ∈ storage.bindings := by
  rw [View.lookup] at h
  split at h
  next found hfound =>
    cases h
    exact .inl (Environment.mem_bindings_of_lookup hfound)
  · exact .inr (Environment.mem_bindings_of_lookup h)

end ContractTrace
