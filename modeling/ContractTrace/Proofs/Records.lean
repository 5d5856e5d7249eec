import ContractTrace.Document.Record
import ContractTrace.Proofs.Tokens
import Mathlib.Data.List.Nodup

/-! Readers of records, from both sides. A property of all that a reader accepts is put
together from the properties of the fields; a record that was written member by member is
read back once each of its members is. -/

namespace ContractTrace

variable {ε α β κ : Type}

/-! ### Results that are there -/

theorem bind_eq_ok {x : Except ε α} {f : α → Except ε β} {b : β} (h : (x >>= f) = .ok b) :
    ∃ a, x = .ok a ∧ f a = .ok b := by
  cases x with
  | error e => cases h
  | ok a => exact ⟨a, rfl, h⟩

theorem map_eq_ok {x : Except ε α} {f : α → β} {b : β} (h : x.map f = .ok b) :
    ∃ a, x = .ok a ∧ f a = b := by
  cases x with
  | error e => cases h
  | ok a =>
    cases h
    exact ⟨a, rfl, rfl⟩

/-! ### Plain trees are whole -/

namespace Json

mutual

theorem Plain.isWhole : ∀ {j : Json}, j.Plain → j.isWhole = true
  | .array _, h => AllPlain.allWhole h
  | .object _, h => MembersPlain.membersWhole h
  | .null, _ | .bool _, _ | .integer _, _ | .string _, _ => rfl

theorem AllPlain.allWhole : ∀ {js : List Json}, AllPlain js → Json.allWhole js = true
  | [], _ => rfl
  | _ :: _, h => Bool.and_eq_true_iff.2 ⟨h.1.isWhole, AllPlain.allWhole h.2⟩

theorem MembersPlain.membersWhole : ∀ {ms : List (String × Json)}, MembersPlain ms →
    Json.membersWhole ms = true
  | [], _ => rfl
  | (_, _) :: _, h => Bool.and_eq_true_iff.2 ⟨h.1.isWhole, MembersPlain.membersWhole h.2⟩

end

mutual

theorem isUncut_of_isWhole : ∀ {j : Json}, j.isWhole = true → j.isUncut = true
  | .array _, h => allUncut_of_allWhole h
  | .object _, h => membersUncut_of_membersWhole h
  | .null, _ | .bool _, _ | .integer _, _ | .real _, _ | .string _, _ => rfl

theorem allUncut_of_allWhole : ∀ {js : List Json}, allWhole js = true → allUncut js = true
  | [], _ => rfl
  | _ :: _, h => by
    rw [allWhole, Bool.and_eq_true] at h
    rw [allUncut, isUncut_of_isWhole h.1, allUncut_of_allWhole h.2]
    rfl

theorem membersUncut_of_membersWhole : ∀ {ms : List (String × Json)},
    membersWhole ms = true → membersUncut ms = true
  | [], _ => rfl
  | (_, _) :: _, h => by
    rw [membersWhole, Bool.and_eq_true] at h
    rw [membersUncut, isUncut_of_isWhole h.1, membersUncut_of_membersWhole h.2]
    rfl

end

theorem Plain.isUncut {j : Json} (h : j.Plain) : j.isUncut = true := isUncut_of_isWhole h.isWhole

theorem membersPlain_iff (ms : List (String × Json)) : MembersPlain ms ↔ ∀ m ∈ ms, m.2.Plain := by
  induction ms with
  | nil => simp [MembersPlain]
  | cons m ms ih => simp [MembersPlain, ih]

theorem allPlain_iff (js : List Json) : AllPlain js ↔ ∀ j ∈ js, j.Plain := by
  induction js with
  | nil => simp [AllPlain]
  | cons j js ih => simp [AllPlain, ih]

end Json

namespace Document

/-! ### What is accepted -/

/-- Whatever the reader accepts satisfies `Q`. -/
def Accepts (Q : α → Prop) (reader : Reader α) : Prop := ∀ j a, reader j = .ok a → Q a

/-- Whatever the fields are read to satisfies `Q`. -/
def Fields.Yields (Q : α → Prop) (fields : Fields α) : Prop :=
  ∀ members a, fields.read members = .ok a → Q a

section Accepts

variable {Q : α → Prop} {reader : Reader α}

theorem accepts_optional (h : Accepts Q reader) :
    Accepts (fun o => ∀ a ∈ o, Q a) (optional reader) := by
  intro j o ho
  unfold optional at ho
  split at ho
  · cases ho
    simp
  · obtain ⟨a, ha, rfl⟩ := map_eq_ok ho
    simpa using h _ a ha

theorem accepts_list (h : Accepts Q reader) : Accepts (fun as => ∀ a ∈ as, Q a) (list reader) := by
  intro j as has
  cases j with
  | array items =>
    rw [list] at has
    induction items generalizing as with
    | nil =>
      cases has
      simp
    | cons item items ih =>
      rw [List.mapM_cons] at has
      obtain ⟨a, ha, has⟩ := bind_eq_ok has
      obtain ⟨rest, hrest, has⟩ := bind_eq_ok has
      cases has
      exact List.forall_mem_cons.2 ⟨h item a ha, ih rest hrest⟩
  | _ => cases has

theorem yields_fieldOr (name : String) (h : Accepts Q reader) {missing : Option α}
    (hmissing : ∀ a ∈ missing, Q a) : (fieldOr name reader missing).Yields Q := by
  intro members a ha
  simp only [fieldOr] at ha
  split at ha
  · split at ha
    · cases ha
      exact hmissing a rfl
    · cases ha
  · split at ha
    · cases ha
    next b hb =>
      split at ha <;> cases ha
      exact h _ a hb

theorem yields_field (name : String) (h : Accepts Q reader) : (field name reader).Yields Q :=
  yields_fieldOr name h (by simp)

theorem yields_listField (name : String) (h : Accepts Q reader) :
    (listField name reader).Yields fun as => ∀ a ∈ as, Q a :=
  yields_fieldOr name (accepts_list h) (by simp)

theorem yields_optionField (name : String) (h : Accepts Q reader) :
    (optionField name reader).Yields fun o => ∀ a ∈ o, Q a :=
  yields_fieldOr name (accepts_optional h) (by simp)

namespace Fields

variable {R : β → Prop}

theorem yields_any (fields : Fields α) : fields.Yields fun _ => True := fun _ _ _ => trivial

theorem Yields.map {fields : Fields α} (h : fields.Yields Q) {f : α → β} (hf : ∀ a, Q a → R (f a)) :
    (f <$> fields).Yields R := by
  intro members b hb
  obtain ⟨a, ha, rfl⟩ := map_eq_ok (show (fields.read members).map f = .ok b from hb)
  exact hf a (h members a ha)

theorem Yields.seq {f : Fields (α → β)} {x : Fields α}
    (hf : f.Yields fun g => ∀ a, Q a → R (g a)) (hx : x.Yields Q) : (f <*> x).Yields R := by
  intro members b hb
  have hboth : both (f.read members) (x.read members) = .ok b := hb
  rcases hg : f.read members with e | g <;> rcases ha : x.read members with e' | a <;>
    rw [hg, ha] at hboth <;> cases hboth
  exact hf members g hg a (hx members a ha)

theorem Yields.ofMembers {fields : Fields α} (h : fields.Yields Q) {members : Members} {a : α}
    (ha : fields.ofMembers members = .ok a) : Q a := by
  rw [Fields.ofMembers] at ha
  split at ha
  next b hb =>
    cases ha
    rcases hs : strangerFault fields.names members with e | u <;>
      rcases hr : fields.read members with e' | c <;> rw [hs, hr] at hb <;> cases hb
    exact h members _ hr
  · cases ha

theorem Yields.ofItems {fields : Fields α} (h : fields.Yields Q) {items : List Json} {a : α}
    (ha : fields.ofItems items = .ok a) : Q a := by
  rw [Fields.ofItems] at ha
  split at ha
  next b hb =>
    split at ha <;> cases ha
    exact h.ofMembers hb
  · cases ha

end Fields

theorem accepts_record {fields : Fields α} (h : fields.Yields Q) : Accepts Q (record fields) := by
  intro j a ha
  cases j with
  | object members => exact h.ofMembers ha
  | array items => exact h.ofItems ha
  | _ => cases ha

theorem accepts_node (ordinals : Bool) (kinds : List (String × κ)) {fields : κ → Fields α}
    (h : ∀ kind, (fields kind).Yields Q) : Accepts Q (node ordinals kinds fields) := by
  intro j a ha
  unfold node at ha
  split at ha
  · split at ha
    · obtain ⟨kind, -, ha⟩ := bind_eq_ok ha
      exact (h kind).ofMembers ha
    · cases ha
  · obtain ⟨kind, -, ha⟩ := bind_eq_ok ha
    exact (h kind).ofItems ha
  · cases ha

end Accepts

/-! ### What is read back -/

theorem list_map {reader : Reader α} {toJson : α → Json} {as : List α}
    (h : ∀ a ∈ as, reader (toJson a) = .ok a) : list reader (.array (as.map toJson)) = .ok as := by
  rw [list]
  induction as with
  | nil => rfl
  | cons a as ih =>
    rw [List.forall_mem_cons] at h
    rw [List.map_cons, List.mapM_cons, h.1, ih h.2]
    rfl

/-- The key of every value is another one. -/
def Distinct (members : Members) : Prop := (members.map Prod.fst).Nodup

instance (members : Members) : Decidable (Distinct members) :=
  inferInstanceAs (Decidable (List.Nodup _))

theorem occurrences_cons (name key : String) (j : Json) (members : Members) (place : Nat) :
    (((key, j) :: members).zipIdx place).filterMap
        (fun ((k, j), place) => if k = name then some (place, j) else none) =
      (if key = name then [(place, j)] else []) ++ (members.zipIdx (place + 1)).filterMap
        (fun ((k, j), place) => if k = name then some (place, j) else none) := by
  rw [List.zipIdx_cons, List.filterMap_cons]
  by_cases h : key = name <;> simp [h]

theorem occurrences_of_not_mem {name : String} {members : Members}
    (h : name ∉ members.map Prod.fst) (place : Nat) :
    (members.zipIdx place).filterMap
      (fun ((k, j), place) => if k = name then some (place, j) else none) = [] := by
  induction members generalizing place with
  | nil => rfl
  | cons m members ih =>
    rw [List.map_cons, List.mem_cons, not_or] at h
    rw [occurrences_cons, if_neg (Ne.symm h.1), ih h.2]
    rfl

/-- A key that stands once is found once. -/
theorem occurrences_of_distinct {name : String} {j : Json} {members : Members}
    (hd : Distinct members) (hj : (name, j) ∈ members) (start : Nat) :
    ∃ place, (members.zipIdx start).filterMap
      (fun ((k, j), place) => if k = name then some (place, j) else none) = [(place, j)] := by
  induction members generalizing start with
  | nil => cases hj
  | cons m members ih =>
    obtain ⟨hnot, hd⟩ := List.nodup_cons.1 hd
    rw [occurrences_cons]
    rcases List.mem_cons.1 hj with rfl | hj
    · exact ⟨start, by rw [if_pos rfl, occurrences_of_not_mem hnot]; rfl⟩
    · have hne : m.1 ≠ name := by
        rintro rfl
        exact hnot (List.mem_map.2 ⟨_, hj, rfl⟩)
      obtain ⟨place, hplace⟩ := ih hd hj (start + 1)
      exact ⟨place, by rw [if_neg hne, hplace]; rfl⟩

/-- The fields read the members to a value. -/
def Fields.Gives (fields : Fields α) (members : Members) (a : α) : Prop :=
  fields.read members = .ok a

section Gives

variable {members : Members} {a : α}

theorem fieldOr_gives {name : String} {reader : Reader α} {missing : Option α} {j : Json}
    (hd : Distinct members) (hj : (name, j) ∈ members) (ha : reader j = .ok a) :
    (fieldOr name reader missing).Gives members a := by
  obtain ⟨place, hplace⟩ := occurrences_of_distinct hd hj 0
  rw [Fields.Gives, fieldOr]
  simp only [occurrences, hplace, ha]

namespace Fields

theorem Gives.map {fields : Fields α} (h : fields.Gives members a) (f : α → β) :
    (f <$> fields).Gives members (f a) := by
  show (fields.read members).map f = .ok (f a)
  rw [show fields.read members = .ok a from h]
  rfl

theorem Gives.seq {f : Fields (α → β)} {x : Fields α} {g : α → β} (hf : f.Gives members g)
    (hx : x.Gives members a) : (f <*> x).Gives members (g a) := by
  show both (f.read members) (x.read members) = .ok (g a)
  rw [show f.read members = .ok g from hf, show x.read members = .ok a from hx]
  rfl

/-- Strangers do no harm in a text that is whole. -/
theorem Gives.ofMembers {fields : Fields α} (h : fields.Gives members a)
    (hp : Json.MembersPlain members) : fields.ofMembers members = .ok a := by
  have hstranger : strangerFault fields.names members = .ok () := by
    have hnone : (members.zipIdx.find? fun ((k, j), _) =>
        !fields.names.contains k && !j.isUncut) = none := by
      rw [List.find?_eq_none]
      rintro ⟨⟨k, j⟩, place⟩ hm
      have huncut : j.isUncut = true :=
        ((Json.membersPlain_iff members).1 hp _ (List.fst_mem_of_mem_zipIdx hm)).isUncut
      simp [huncut]
    rw [strangerFault, hnone]
  rw [Fields.ofMembers, hstranger, show fields.read members = .ok a from h]
  rfl

end Fields

/-- An object is read back to the record that its members give. -/
theorem record_of_gives {fields : Fields α} (h : fields.Gives members a)
    (hp : Json.MembersPlain members) : record fields (.object members) = .ok a :=
  h.ofMembers hp

/-- An object with a tag is read back to the node that its other members give. -/
theorem node_of_gives {ordinals : Bool} {kinds : List (String × κ)} {fields : κ → Fields α}
    {name : String} {kind : κ} (hk : kinds.lookup name = some kind)
    (hd : Distinct ((tagName, .string name) :: members)) (hp : Json.MembersPlain members)
    (h : (fields kind).Gives members a) :
    node ordinals kinds fields (.object ((tagName, .string name) :: members)) = .ok a := by
  have hnot : tagName ∉ members.map Prod.fst := (List.nodup_cons.1 hd).1
  have htag : occurrences tagName ((tagName, .string name) :: members) = [(0, .string name)] := by
    rw [occurrences, occurrences_cons, if_pos rfl, occurrences_of_not_mem hnot]
    rfl
  have hothers : ((tagName, Json.string name) :: members).filter (·.1 ≠ tagName) = members := by
    rw [List.filter_cons_of_neg (by simp), List.filter_eq_self]
    intro m hm
    rw [decide_eq_true_eq]
    intro hkey
    exact hnot (List.mem_map.2 ⟨m, hm, hkey⟩)
  simp only [node, htag, kindOf, hk]
  show (fields kind).ofMembers (((tagName, Json.string name) :: members).filter _) = _
  rw [hothers]
  exact h.ofMembers hp

end Gives

end Document

end ContractTrace
