import ContractTrace.Trace
import Mathlib.Data.List.Induction

/-! A trace keeps account of what was done to it. As long as no transaction is opened inside of
another, its committed events are those recorded outside of transactions, and those of the
transactions that were committed, since the trace was last discarded: each of them once, and in
the order in which they came to be committed. -/

namespace ContractTrace.Trace

/-! ### Histories -/

/-- What is done to a trace. -/
inductive Operation
  | start
  | record (event : Event)
  | commit
  | rollback
  | discard

namespace Operation

def perform : Operation → Trace → Trace
  | .start, t => t.start
  | .record event, t => t.record event
  | .commit, t => t.commit
  | .rollback, t => t.rollback.2
  | .discard, _ => .empty

/-- The operations that close the open transaction. -/
def Closes : Operation → Prop
  | .commit | .rollback | .discard => True
  | .start | .record _ => False

end Operation

/-- The trace behind operations, the first of which is done first. -/
def replay (ops : List Operation) : Trace := ops.foldl (fun t o => o.perform t) .empty

/-- The events that operations record. -/
def recorded (ops : List Operation) : List Event :=
  ops.filterMap fun
    | .record event => some event
    | _ => none

/-- A transaction is open, and `since` is what was done since it was opened. -/
structure OpenSince (ops since : List Operation) : Prop where
  opened : ∃ before, ops = before ++ .start :: since
  unclosed : ∀ o ∈ since, ¬ o.Closes

def IsOpen (ops : List Operation) : Prop := ∃ since, OpenSince ops since

/-- No transaction is opened while another is open. -/
def Legal (ops : List Operation) : Prop :=
  ∀ before after, ops = before ++ .start :: after → ¬ IsOpen before

/-- The event that operation `i` records is held back in the open transaction. -/
structure Held (ops : List Operation) (i : Nat) (event : Event) : Prop where
  recorded : ops[i]? = some (.record event)
  inside : IsOpen (ops.take i)
  unclosed : ∀ o ∈ ops.drop (i + 1), ¬ o.Closes

/-- Operation `i` records the event and operation `j` commits it: the same operation outside of
transactions, and inside of one the commit that closes it. -/
inductive Commits (ops : List Operation) : Nat → Nat → Event → Prop
  | outside {i : Nat} {event : Event} (hrecord : ops[i]? = some (.record event))
      (hout : ¬ IsOpen (ops.take i)) : Commits ops i i event
  | inside {i j : Nat} {event : Event} (hheld : Held (ops.take j) i event)
      (hcommit : ops[j]? = some .commit) : Commits ops i j event

/-- An event with the operation that recorded it and the one that committed it. -/
structure Entry where
  recorded : Nat
  committed : Nat
  event : Event

/-- The entries are those of the events that were committed and recorded since the trace was last
discarded: each once, in the order in which they were committed and, where one operation committed
several, in which they were recorded. -/
structure Accounts (ops : List Operation) (entries : List Entry) : Prop where
  mem_iff : ∀ i j event, ⟨i, j, event⟩ ∈ entries ↔
    Commits ops i j event ∧ .discard ∉ ops.drop (i + 1)
  ordered : entries.Pairwise fun a b => a.recorded < b.recorded ∧ a.committed ≤ b.committed

/-! ### One more operation -/

variable {ops since : List Operation} {o : Operation} {i j : Nat} {event : Event}

theorem replay_snoc (ops : List Operation) (o : Operation) :
    replay (ops ++ [o]) = o.perform (replay ops) := by
  simp [replay]

theorem snoc_eq_split {before after : List Operation} :
    ops ++ [o] = before ++ .start :: after ↔
      ops = before ∧ o = .start ∧ after = [] ∨
        ∃ after', after = after' ++ [o] ∧ ops = before ++ .start :: after' := by
  constructor
  · intro h
    rcases List.eq_nil_or_concat after with rfl | ⟨after', last, rfl⟩
    · obtain ⟨hops, hlast⟩ := List.append_inj' h rfl
      cases hlast
      exact .inl ⟨hops, rfl, rfl⟩
    · have h' : ops ++ [o] = (before ++ .start :: after') ++ [last] := by simpa using h
      obtain ⟨hops, hlast⟩ := List.append_inj' h' rfl
      cases hlast
      exact .inr ⟨after', by simp, hops⟩
  · rintro (⟨rfl, rfl, rfl⟩ | ⟨after', rfl, rfl⟩)
    · rfl
    · simp

theorem openSince_snoc : OpenSince (ops ++ [o]) since ↔
    o = .start ∧ since = [] ∨
      ∃ since', since = since' ++ [o] ∧ OpenSince ops since' ∧ ¬ o.Closes := by
  constructor
  · rintro ⟨⟨before, hsplit⟩, hunclosed⟩
    rcases snoc_eq_split.1 hsplit with ⟨-, rfl, rfl⟩ | ⟨since', rfl, rfl⟩
    · exact .inl ⟨rfl, rfl⟩
    · exact .inr ⟨since', rfl, ⟨⟨before, rfl⟩, fun o ho => hunclosed o (by simp [ho])⟩,
        hunclosed o (by simp)⟩
  · rintro (⟨rfl, rfl⟩ | ⟨since', rfl, ⟨⟨before, rfl⟩, hunclosed⟩, ho⟩)
    · exact ⟨⟨ops, rfl⟩, by simp⟩
    · refine ⟨⟨before, by simp⟩, fun o' ho' => ?_⟩
      rcases List.mem_append.1 ho' with ho' | ho'
      · exact hunclosed o' ho'
      · rwa [List.mem_singleton.1 ho']

theorem isOpen_snoc : IsOpen (ops ++ [o]) ↔ o = .start ∨ IsOpen ops ∧ ¬ o.Closes := by
  simp only [IsOpen, openSince_snoc]
  constructor
  · rintro ⟨since, ⟨rfl, rfl⟩ | ⟨since', rfl, hopen, ho⟩⟩
    · exact .inl rfl
    · exact .inr ⟨⟨since', hopen⟩, ho⟩
  · rintro (rfl | ⟨⟨since, hopen⟩, ho⟩)
    · exact ⟨[], .inl ⟨rfl, rfl⟩⟩
    · exact ⟨since ++ [o], .inr ⟨since, rfl, hopen, ho⟩⟩

theorem not_isOpen_nil : ¬ IsOpen [] := by
  rintro ⟨since, ⟨before, hsplit⟩, -⟩
  simp at hsplit

theorem legal_snoc : Legal (ops ++ [o]) ↔ Legal ops ∧ (o = .start → ¬ IsOpen ops) := by
  constructor
  · intro h
    refine ⟨fun before after hsplit => h before (after ++ [o]) (by simp [hsplit]), ?_⟩
    rintro rfl
    exact h ops [] rfl
  · rintro ⟨hops, ho⟩ before after hsplit
    rcases snoc_eq_split.1 hsplit with ⟨rfl, rfl, rfl⟩ | ⟨after', rfl, hsplit'⟩
    · exact ho rfl
    · exact hops before after' hsplit'

theorem legal_nil : Legal [] := by
  intro before after hsplit
  simp at hsplit

theorem getElem?_snoc_eq_some {o' : Operation} :
    (ops ++ [o])[i]? = some o' ↔ ops[i]? = some o' ∨ i = ops.length ∧ o = o' := by
  grind

/-- What was done before an operation does not change. -/
theorem take_snoc {o' : Operation} (h : ops[i]? = some o') (o : Operation) :
    (ops ++ [o]).take i = ops.take i :=
  List.take_append_of_le_length (Nat.le_of_lt (List.getElem?_eq_some_iff.1 h).1)

theorem drop_snoc {o' : Operation} (h : ops[i]? = some o') (o : Operation) :
    (ops ++ [o]).drop (i + 1) = ops.drop (i + 1) ++ [o] :=
  List.drop_append_of_le_length (List.getElem?_eq_some_iff.1 h).1

theorem held_snoc : Held (ops ++ [o]) i event ↔
    Held ops i event ∧ ¬ o.Closes ∨ i = ops.length ∧ o = .record event ∧ IsOpen ops := by
  constructor
  · rintro ⟨hrecord, hin, hunclosed⟩
    rcases getElem?_snoc_eq_some.1 hrecord with hrecord | ⟨rfl, rfl⟩
    · rw [take_snoc hrecord] at hin
      rw [drop_snoc hrecord] at hunclosed
      exact .inl ⟨⟨hrecord, hin, fun o' ho' => hunclosed o' (by simp [ho'])⟩,
        hunclosed o (by simp)⟩
    · rw [List.take_left] at hin
      exact .inr ⟨rfl, rfl, hin⟩
  · rintro (⟨⟨hrecord, hin, hunclosed⟩, ho⟩ | ⟨rfl, rfl, hopen⟩)
    · refine ⟨getElem?_snoc_eq_some.2 (.inl hrecord), ?_, fun o' ho' => ?_⟩
      · rwa [take_snoc hrecord]
      · rw [drop_snoc hrecord] at ho'
        rcases List.mem_append.1 ho' with ho' | ho'
        · exact hunclosed o' ho'
        · rwa [List.mem_singleton.1 ho']
    · refine ⟨getElem?_snoc_eq_some.2 (.inr ⟨rfl, rfl⟩), ?_, ?_⟩
      · rwa [List.take_left]
      · simp

/-- Behind an operation that closes the transaction nothing is held back. -/
theorem not_held_of_closes (ho : o.Closes) : ¬ Held (ops ++ [o]) i event := by
  rw [held_snoc]
  rintro (⟨-, hnot⟩ | ⟨-, rfl, -⟩)
  · exact hnot ho
  · exact ho

/-- What is held back is held back in an open transaction. -/
theorem Held.isOpen (h : Held ops i event) : IsOpen ops := by
  induction ops using List.reverseRecOn with
  | nil => cases h.recorded
  | append_singleton ops o ih =>
    rw [isOpen_snoc]
    rcases held_snoc.1 h with ⟨hheld, ho⟩ | ⟨-, rfl, hopen⟩
    · exact .inr ⟨ih hheld, ho⟩
    · exact .inr ⟨hopen, id⟩

theorem commits_snoc : Commits (ops ++ [o]) i j event ↔
    Commits ops i j event ∨ j = ops.length ∧
      (i = ops.length ∧ o = .record event ∧ ¬ IsOpen ops ∨ o = .commit ∧ Held ops i event) := by
  constructor
  · intro h
    cases h with
    | outside hrecord hout =>
      rcases getElem?_snoc_eq_some.1 hrecord with hrecord | ⟨rfl, rfl⟩
      · rw [take_snoc hrecord] at hout
        exact .inl (.outside hrecord hout)
      · rw [List.take_left] at hout
        exact .inr ⟨rfl, .inl ⟨rfl, rfl, hout⟩⟩
    | inside hheld hcommit =>
      rcases getElem?_snoc_eq_some.1 hcommit with hcommit | ⟨rfl, rfl⟩
      · rw [take_snoc hcommit] at hheld
        exact .inl (.inside hheld hcommit)
      · rw [List.take_left] at hheld
        exact .inr ⟨rfl, .inr ⟨rfl, hheld⟩⟩
  · rintro (h | ⟨rfl, ⟨rfl, rfl, hout⟩ | ⟨rfl, hheld⟩⟩)
    · cases h with
      | outside hrecord hout =>
        refine .outside (getElem?_snoc_eq_some.2 (.inl hrecord)) ?_
        rwa [take_snoc hrecord]
      | inside hheld hcommit =>
        refine .inside ?_ (getElem?_snoc_eq_some.2 (.inl hcommit))
        rwa [take_snoc hcommit]
    · refine .outside (getElem?_snoc_eq_some.2 (.inr ⟨rfl, rfl⟩)) ?_
      rwa [List.take_left]
    · refine .inside ?_ (getElem?_snoc_eq_some.2 (.inr ⟨rfl, rfl⟩))
      rwa [List.take_left]

theorem Commits.bounds (h : Commits ops i j event) :
    ops[i]? = some (.record event) ∧ i ≤ j ∧ j < ops.length := by
  cases h with
  | outside hrecord _ =>
    exact ⟨hrecord, Nat.le_refl i, (List.getElem?_eq_some_iff.1 hrecord).1⟩
  | inside hheld hcommit =>
    have hrecord := hheld.recorded
    rw [List.getElem?_take] at hrecord
    split at hrecord
    · next hi => exact ⟨hrecord, Nat.le_of_lt hi, (List.getElem?_eq_some_iff.1 hcommit).1⟩
    · cases hrecord

/-- What one more operation does to the events that are to be kept. -/
theorem kept_snoc :
    Commits (ops ++ [o]) i j event ∧ .discard ∉ (ops ++ [o]).drop (i + 1) ↔
      (Commits ops i j event ∧ .discard ∉ ops.drop (i + 1)) ∧ o ≠ .discard ∨
        j = ops.length ∧
          (i = ops.length ∧ o = .record event ∧ ¬ IsOpen ops ∨ o = .commit ∧ Held ops i event) := by
  rw [commits_snoc]
  constructor
  · rintro ⟨hcommits | hnew, hkept⟩
    · rw [drop_snoc hcommits.bounds.1, List.mem_append, List.mem_singleton] at hkept
      exact .inl ⟨⟨hcommits, fun h => hkept (.inl h)⟩, fun h => hkept (.inr h.symm)⟩
    · exact .inr hnew
  · rintro (⟨⟨hcommits, hkept⟩, ho⟩ | ⟨hj, hnew⟩)
    · refine ⟨.inl hcommits, ?_⟩
      rw [drop_snoc hcommits.bounds.1, List.mem_append, List.mem_singleton]
      exact fun h => h.elim hkept ho.symm
    · refine ⟨.inr ⟨hj, hnew⟩, ?_⟩
      rcases hnew with ⟨rfl, -, -⟩ | ⟨rfl, hheld⟩
      · simp
      · rw [drop_snoc hheld.recorded, List.mem_append, List.mem_singleton]
        rintro (h | h)
        · exact hheld.unclosed _ h trivial
        · cases h

/-! ### The ledger -/

theorem pending_eq_none_iff (ops : List Operation) :
    (replay ops).pending = none ↔ ¬ IsOpen ops := by
  induction ops using List.reverseRecOn with
  | nil => exact ⟨fun _ => not_isOpen_nil, fun _ => rfl⟩
  | append_singleton ops o ih =>
    rw [replay_snoc, isOpen_snoc]
    cases o with
    | start => simp [Operation.perform, start]
    | record event =>
      cases hpending : (replay ops).pending with
      | none => simpa [Operation.perform, record, hpending, Operation.Closes] using ih
      | some events => simpa [Operation.perform, record, hpending, Operation.Closes] using ih
    | commit | rollback | discard =>
      simp [Operation.perform, commit, rollback, empty, Operation.Closes]

theorem pending_of_openSince (hlegal : Legal ops) (h : OpenSince ops since) :
    (replay ops).pending = some (recorded since) := by
  induction ops using List.reverseRecOn generalizing since with
  | nil => exact absurd ⟨since, h⟩ not_isOpen_nil
  | append_singleton ops o ih =>
    obtain ⟨hlegal, ho⟩ := legal_snoc.1 hlegal
    rw [replay_snoc]
    rcases openSince_snoc.1 h with ⟨rfl, rfl⟩ | ⟨since', rfl, hopen, hcloses⟩
    · rfl
    · have hpending := ih hlegal hopen
      cases o with
      | start => exact absurd ⟨since', hopen⟩ (ho rfl)
      | record event => simp [Operation.perform, record, hpending, recorded]
      | commit | rollback | discard => exact absurd trivial hcloses

/-- The entries of the committed events, and the events held back with the operations that
recorded them, as the trace has them. -/
structure Ledger (ops : List Operation) (entries : List Entry) (held : List (Nat × Event)) : Prop
    extends Accounts ops entries where
  held_iff : ∀ i event, (i, event) ∈ held ↔ Held ops i event
  held_ordered : held.Pairwise fun a b => a.1 < b.1
  held_behind : ∀ a ∈ entries, ∀ b ∈ held, a.recorded < b.1
  committed : (replay ops).committed = entries.map Entry.event
  pending : (replay ops).pending.getD [] = held.map Prod.snd

namespace Ledger

variable {entries : List Entry} {held : List (Nat × Event)}

/-- The ledger where nothing is held back. -/
theorem settled (haccounts : Accounts ops entries) (hheld : ∀ i event, ¬ Held ops i event)
    (hcommitted : (replay ops).committed = entries.map Entry.event)
    (hpending : (replay ops).pending.getD [] = []) : Ledger ops entries [] where
  toAccounts := haccounts
  held_iff i event := iff_of_false List.not_mem_nil (hheld i event)
  held_ordered := .nil
  held_behind a _ b hb := by cases hb
  committed := hcommitted
  pending := hpending

theorem nil : Ledger [] [] [] := by
  refine .settled ⟨fun i j event => ?_, .nil⟩ (fun i event hheld => ?_) rfl rfl
  · exact iff_of_false List.not_mem_nil fun h => by cases h.1.bounds.1
  · cases hheld.recorded

theorem recorded_lt (h : Ledger ops entries held) {a : Entry} (ha : a ∈ entries) :
    a.recorded < ops.length ∧ a.committed < ops.length := by
  have hbounds := ((h.mem_iff _ _ _).1 ha).1.bounds
  omega

theorem pending_of_isOpen (h : Ledger ops entries held) (hin : IsOpen ops) :
    (replay ops).pending = some (held.map Prod.snd) := by
  have hheld := h.pending
  cases hpending : (replay ops).pending with
  | none => exact absurd hin ((pending_eq_none_iff ops).1 hpending)
  | some events =>
    rw [hpending, Option.getD_some] at hheld
    rw [hheld]

theorem snoc_start (h : Ledger ops entries held) (hout : ¬ IsOpen ops) :
    Ledger (ops ++ [.start]) entries [] := by
  refine .settled ⟨fun i j event => ?_, h.ordered⟩ (fun i event hheld => ?_) ?_ ?_
  · rw [h.mem_iff, kept_snoc]
    simp
  · rcases held_snoc.1 hheld with ⟨hheld, -⟩ | ⟨-, hrecord, -⟩
    · exact hout hheld.isOpen
    · cases hrecord
  · rw [replay_snoc]
    exact h.committed
  · rw [replay_snoc]
    rfl

theorem snoc_record_outside (h : Ledger ops entries held) (hout : ¬ IsOpen ops) (event : Event) :
    Ledger (ops ++ [.record event]) (entries ++ [⟨ops.length, ops.length, event⟩]) [] := by
  have hpending := (pending_eq_none_iff ops).2 hout
  refine .settled ⟨fun i j e => ?_, ?_⟩ (fun i e hheld => ?_) ?_ ?_
  · rw [List.mem_append, h.mem_iff, kept_snoc]
    grind
  · rw [List.pairwise_append]
    refine ⟨h.ordered, List.pairwise_singleton _ _, fun a ha b hb => ?_⟩
    have := h.recorded_lt ha
    rw [List.mem_singleton.1 hb]
    dsimp only
    omega
  · rcases held_snoc.1 hheld with ⟨hheld, -⟩ | ⟨-, -, hopen⟩
    · exact hout hheld.isOpen
    · exact hout hopen
  · simp [replay_snoc, Operation.perform, record, hpending, h.committed]
  · simp [replay_snoc, Operation.perform, record, hpending]

theorem snoc_record_inside (h : Ledger ops entries held) (hin : IsOpen ops) (event : Event) :
    Ledger (ops ++ [.record event]) entries (held ++ [(ops.length, event)]) where
  mem_iff i j e := by
    rw [h.mem_iff, kept_snoc]
    grind
  ordered := h.ordered
  held_iff i e := by
    rw [List.mem_append, held_snoc, h.held_iff]
    simp only [List.mem_singleton, Prod.mk.injEq, Operation.Closes, not_false_eq_true, and_true, hin,
      Operation.record.injEq, eq_comm]
  held_ordered := by
    rw [List.pairwise_append]
    refine ⟨h.held_ordered, List.pairwise_singleton _ _, fun a ha b hb => ?_⟩
    rw [List.mem_singleton.1 hb]
    exact (List.getElem?_eq_some_iff.1 ((h.held_iff _ _).1 ha).recorded).1
  held_behind a ha b hb := by
    rcases List.mem_append.1 hb with hb | hb
    · exact h.held_behind a ha b hb
    · rw [List.mem_singleton.1 hb]
      exact (h.recorded_lt ha).1
  committed := by
    simp [replay_snoc, Operation.perform, record, h.pending_of_isOpen hin, h.committed]
  pending := by
    simp [replay_snoc, Operation.perform, record, h.pending_of_isOpen hin]

theorem snoc_commit (h : Ledger ops entries held) :
    Ledger (ops ++ [.commit])
      (entries ++ held.map fun a => ⟨a.1, ops.length, a.2⟩) [] := by
  refine .settled ⟨fun i j e => ?_, ?_⟩ (fun _ _ => not_held_of_closes trivial) ?_ ?_
  · rw [List.mem_append, h.mem_iff, kept_snoc, List.mem_map, ← h.held_iff]
    grind
  · rw [List.pairwise_append, List.pairwise_map]
    refine ⟨h.ordered, h.held_ordered.imp fun hab => ⟨hab, Nat.le_refl _⟩, fun a ha b hb => ?_⟩
    obtain ⟨c, hc, rfl⟩ := List.mem_map.1 hb
    exact ⟨h.held_behind a ha c hc, Nat.le_of_lt (h.recorded_lt ha).2⟩
  · simp [replay_snoc, Operation.perform, commit, h.committed, h.pending]
  · rw [replay_snoc]
    rfl

theorem snoc_rollback (h : Ledger ops entries held) :
    Ledger (ops ++ [.rollback]) entries [] := by
  refine .settled ⟨fun i j e => ?_, h.ordered⟩ (fun _ _ => not_held_of_closes trivial) ?_ ?_
  · rw [h.mem_iff, kept_snoc]
    simp
  · rw [replay_snoc]
    exact h.committed
  · rw [replay_snoc]
    rfl

theorem snoc_discard (ops : List Operation) : Ledger (ops ++ [.discard]) [] [] := by
  refine .settled ⟨fun i j e => ?_, .nil⟩ (fun _ _ => not_held_of_closes trivial) ?_ ?_
  · rw [kept_snoc]
    simp
  · rw [replay_snoc]
    rfl
  · rw [replay_snoc]
    rfl

end Ledger

/-- Every legal history has its ledger. -/
theorem exists_ledger (hlegal : Legal ops) : ∃ entries held, Ledger ops entries held := by
  -- a history grows at its end, and what it holds back is what a later commit adds
  induction ops using List.reverseRecOn with
  | nil => exact ⟨[], [], .nil⟩
  | append_singleton ops o ih =>
    obtain ⟨hlegal, ho⟩ := legal_snoc.1 hlegal
    obtain ⟨entries, held, h⟩ := ih hlegal
    cases o with
    | start => exact ⟨_, _, h.snoc_start (ho rfl)⟩
    | record event =>
      by_cases hopen : IsOpen ops
      · exact ⟨_, _, h.snoc_record_inside hopen event⟩
      · exact ⟨_, _, h.snoc_record_outside hopen event⟩
    | commit => exact ⟨_, _, h.snoc_commit⟩
    | rollback => exact ⟨_, _, h.snoc_rollback⟩
    | discard => exact ⟨_, _, .snoc_discard ops⟩

/-- A trace neither loses nor doubles nor reorders what it is to keep. Its committed events are
those recorded outside of transactions or in one that was committed, since the last discard, in
the order in which they were committed. A rollback counts what was recorded in the open
transaction, and where none is open neither rollback nor commit changes anything. -/
theorem replay_faithful (hlegal : Legal ops) :
    (∃ entries, Accounts ops entries ∧ (replay ops).committed = entries.map Entry.event) ∧
      (∀ since, OpenSince ops since → (replay ops).rollback.1 = (recorded since).length) ∧
      (¬ IsOpen ops → (replay ops).rollback = (0, replay ops) ∧
        (replay ops).commit = replay ops) := by
  refine ⟨?_, fun since hsince => ?_, fun hout => ?_⟩
  · obtain ⟨entries, held, h⟩ := exists_ledger hlegal
    exact ⟨entries, h.toAccounts, h.committed⟩
  · rw [rollback, pending_of_openSince hlegal hsince, Option.getD_some]
  · have hpending := (pending_eq_none_iff ops).2 hout
    rcases hreplay : replay ops with ⟨committed, pending⟩
    rw [hreplay] at hpending
    cases hpending
    exact ⟨rfl, by simp [commit]⟩

/-- A transaction that is discarded halfway, one that is committed, and one that is open, with a
commit and a rollback where none is. -/
def halfwayDiscarded : List Operation :=
  [.record (.named "X"), .start, .record (.named "Y"), .discard, .commit, .record (.named "A"),
    .start, .record (.named "B"), .record (.named "C"), .commit, .rollback, .start,
    .record (.named "D")]

theorem replay_faithful_halfwayDiscarded :
    Legal halfwayDiscarded ∧
      (∃ entries, Accounts halfwayDiscarded entries ∧
        entries.map Entry.event = [.named "A", .named "B", .named "C"]) ∧
      (replay halfwayDiscarded).rollback.1 = 1 := by
  have hlegal : Legal halfwayDiscarded := by
    show Legal ([] ++ [_] ++ [_] ++ [_] ++ [_] ++ [_] ++ [_] ++ [_] ++ [_] ++ [_] ++ [_] ++ [_] ++
      [_] ++ [_])
    simp only [legal_snoc, isOpen_snoc, legal_nil, not_isOpen_nil, Operation.Closes, reduceCtorEq]
    simp
  obtain ⟨⟨entries, haccounts, hcommitted⟩, hrollback, -⟩ := replay_faithful hlegal
  refine ⟨hlegal, ⟨entries, haccounts, hcommitted.symm⟩, ?_⟩
  refine hrollback [.record (.named "D")] ⟨⟨halfwayDiscarded.take 11, rfl⟩, fun o ho => ?_⟩
  rw [List.mem_singleton.1 ho]
  exact id

end ContractTrace.Trace
