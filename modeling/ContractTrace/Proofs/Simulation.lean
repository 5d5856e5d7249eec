import ContractTrace.Task

/-! Two computations in lockstep. One simulates the other along a relation between their
states if, from related states, both give the same result and end in related states. Some
failures of the first may be excused; nothing is then said of the second. The relation is
carried through `>>=`, so that it has to be shown for single steps only. -/

namespace ContractTrace.Task

variable {σ τ ε α β : Type}

/-! ### The monad laws -/

theorem bind_of_ok {x : Task σ ε α} {s s' : σ} {a : α} (h : x s = (.ok a, s'))
    (f : α → Task σ ε β) : (x >>= f) s = f a s' := by
  rw [bind_apply, h]

theorem bind_of_error {x : Task σ ε α} {s s' : σ} {e : ε} (h : x s = (.error e, s'))
    (f : α → Task σ ε β) : (x >>= f) s = (.error e, s') := by
  rw [bind_apply, h]

theorem require_some_bind (e : ε) (a : α) (f : α → Task σ ε β) :
    (require e (some a) >>= f) = f a := rfl

theorem bind_pure_self (x : Task σ ε α) : (x >>= fun a => Pure.pure a) = x := by
  funext s
  rw [bind_apply]
  rcases h : x s with ⟨_ | _, s'⟩ <;> rfl

theorem bind_bind {γ : Type} (x : Task σ ε α) (f : α → Task σ ε β) (g : β → Task σ ε γ) :
    (x >>= f) >>= g = x >>= fun a => f a >>= g := by
  funext s
  simp only [bind_apply]
  rcases x s with ⟨_ | _, s'⟩ <;> rfl

/-! ### Results -/

/-- Every result satisfies `Q`. -/
def Yields (Q : α → Prop) (x : Task σ ε α) : Prop := ∀ s a, (x s).1 = .ok a → Q a

namespace Yields

variable {Q : α → Prop} {P : β → Prop}

theorem pure {a : α} (h : Q a) : Yields Q (Pure.pure a : Task σ ε α) := by
  intro s b hb
  cases hb
  exact h

theorem any (x : Task σ ε α) : Yields (fun _ => True) x := fun _ _ _ => trivial

theorem fail (e : ε) : Yields Q (fail e : Task σ ε α) := by
  intro s a h
  cases h

theorem bind {x : Task σ ε α} {f : α → Task σ ε β} (hx : Yields Q x)
    (hf : ∀ a, Q a → Yields P (f a)) : Yields P (x >>= f) := by
  intro s b hb
  rw [bind_apply] at hb
  rcases hp : x s with ⟨_ | a, s'⟩ <;> rw [hp] at hb
  · cases hb
  · exact hf a (hx s a (by rw [hp])) s' b hb

end Yields

/-! ### Agreement -/

/-- Equal results in related states, or an excused failure of the first computation. -/
def Agree (Rel : σ → τ → Prop) (Excused : ε → Prop) (p : Except ε α × σ)
    (q : Except ε α × τ) : Prop :=
  p.1 = q.1 ∧ Rel p.2 q.2 ∨ ∃ e, p.1 = .error e ∧ Excused e

/-- Agreement from all related states. -/
def Simulates (Rel : σ → τ → Prop) (Excused : ε → Prop) (x : Task σ ε α) (y : Task τ ε α) :
    Prop :=
  ∀ s t, Rel s t → Agree Rel Excused (x s) (y t)

/-- From a state related to `t`, the computation succeeds with a result that satisfies `Q`,
and its state is related to `t` again. -/
def Passes (Rel : σ → τ → Prop) (Q : α → Prop) (x : Task σ ε α) : Prop :=
  ∀ s t, Rel s t → ∃ a s', x s = (.ok a, s') ∧ Rel s' t ∧ Q a

/-- No failure is excused. -/
def never (_ : ε) : Prop := False

variable {Rel : σ → τ → Prop} {Excused : ε → Prop}

theorem Agree.exact {p : Except ε α × σ} {q : Except ε α × τ} (h : Agree Rel never p q) :
    p.1 = q.1 ∧ Rel p.2 q.2 := by
  rcases h with h | ⟨_, _, h⟩
  · exact h
  · exact h.elim

namespace Simulates

theorem pure (a : α) : Simulates Rel Excused (Pure.pure a) (Pure.pure a) :=
  fun _ _ h => .inl ⟨rfl, h⟩

theorem fail (e : ε) : Simulates Rel Excused (fail e : Task σ ε α) (fail e) :=
  fun _ _ h => .inl ⟨rfl, h⟩

theorem excuse {e : ε} (h : Excused e) (y : Task τ ε α) :
    Simulates Rel Excused (Task.fail e) y :=
  fun _ _ _ => .inr ⟨e, rfl, h⟩

theorem require (e : ε) (o : Option α) :
    Simulates Rel Excused (require e o) (require e o) := by
  cases o with
  | none => exact fail e
  | some a => exact pure a

theorem modify {f : σ → σ} {g : τ → τ} (h : ∀ s t, Rel s t → Rel (f s) (g t)) :
    Simulates Rel Excused (modify f) (modify g) :=
  fun s t hst => .inl ⟨rfl, h s t hst⟩

theorem view {f : σ → α} {g : τ → α} (h : ∀ s t, Rel s t → f s = g t) :
    Simulates Rel Excused (view f) (view g) := by
  intro s t hst
  exact .inl ⟨congrArg Except.ok (h s t hst), hst⟩

/-- The second steps need to agree on the results of the first only. -/
theorem bind_yields {Q : α → Prop} {x : Task σ ε α} {y : Task τ ε α} {f : α → Task σ ε β}
    {g : α → Task τ ε β} (hx : Simulates Rel Excused x y) (hq : Yields Q x)
    (hf : ∀ a, Q a → Simulates Rel Excused (f a) (g a)) :
    Simulates Rel Excused (x >>= f) (y >>= g) := by
  intro s t hst
  have h := hx s t hst
  have hq := hq s
  rw [bind_apply, bind_apply]
  rcases hp : x s with ⟨p, s'⟩
  rcases hq' : y t with ⟨q, t'⟩
  rw [hp, hq'] at h
  rw [hp] at hq
  rcases h with ⟨hr, hrel⟩ | ⟨e, he, hex⟩
  · subst hr
    cases p with
    | ok a => exact hf a (hq a rfl) s' t' hrel
    | error e => exact .inl ⟨rfl, hrel⟩
  · subst he
    exact .inr ⟨e, rfl, hex⟩

theorem bind {x : Task σ ε α} {y : Task τ ε α} {f : α → Task σ ε β} {g : α → Task τ ε β}
    (hx : Simulates Rel Excused x y) (hf : ∀ a, Simulates Rel Excused (f a) (g a)) :
    Simulates Rel Excused (x >>= f) (y >>= g) :=
  hx.bind_yields (.any x) fun a _ => hf a

/-- A first step that has no counterpart in the second computation. -/
theorem bind_left {Q : α → Prop} {x : Task σ ε α} {f : α → Task σ ε β} {y : Task τ ε β}
    (hx : Passes Rel Q x) (hf : ∀ a, Q a → Simulates Rel Excused (f a) y) :
    Simulates Rel Excused (x >>= f) y := by
  intro s t hst
  obtain ⟨a, s', hs, hrel, ha⟩ := hx s t hst
  rw [bind_of_ok hs]
  exact hf a ha s' t hrel

/-- Steps behind the result that have no counterpart in the second computation. -/
theorem bind_right {x : Task σ ε α} {y : Task τ ε α} {f : α → Task σ ε α}
    (hx : Simulates Rel Excused x y)
    (hf : ∀ a, Simulates Rel Excused (f a) (Pure.pure a : Task τ ε α)) :
    Simulates Rel Excused (x >>= f) y := by
  rw [← bind_pure_self y]
  exact hx.bind hf

end Simulates

/-! ### Failures and states -/

/-- Every failure satisfies `P`. -/
def Raises (P : ε → Prop) (x : Task σ ε α) : Prop := ∀ s e, (x s).1 = .error e → P e

namespace Raises

variable {P : ε → Prop}

theorem pure (a : α) : Raises P (Pure.pure a : Task σ ε α) := by
  intro s e h
  cases h

theorem fail {e : ε} (h : P e) : Raises P (fail e : Task σ ε α) := by
  intro s e' he
  cases he
  exact h

theorem require {e : ε} (h : P e) (o : Option α) : Raises P (require e o : Task σ ε α) := by
  cases o with
  | none => exact fail h
  | some a => exact pure a

theorem modify (f : σ → σ) : Raises P (modify f) := by
  intro s e h
  cases h

theorem bind {x : Task σ ε α} {f : α → Task σ ε β} (hx : Raises P x)
    (hf : ∀ a, Raises P (f a)) : Raises P (x >>= f) := by
  intro s e he
  rw [bind_apply] at he
  rcases hp : x s with ⟨e' | a, s'⟩ <;> rw [hp] at he
  · cases he
    exact hx s e (by rw [hp])
  · exact hf a s' e he

end Raises

/-- A state that satisfies `P` is followed by one that does, also by way of a failure. -/
def Keeps (P : σ → Prop) (x : Task σ ε α) : Prop := ∀ s, P s → P (x s).2

namespace Keeps

variable {P : σ → Prop}

theorem pure (a : α) : Keeps P (Pure.pure a : Task σ ε α) := fun _ h => h

theorem fail (e : ε) : Keeps P (fail e : Task σ ε α) := fun _ h => h

theorem modify {f : σ → σ} (h : ∀ s, P s → P (f s)) : Keeps P (modify f : Task σ ε Unit) := h

theorem bind {x : Task σ ε α} {f : α → Task σ ε β} (hx : Keeps P x)
    (hf : ∀ a, Keeps P (f a)) : Keeps P (x >>= f) := by
  intro s hs
  have h := hx s hs
  rw [bind_apply]
  rcases hp : x s with ⟨e | a, s'⟩ <;> rw [hp] at h
  · exact h
  · exact hf a s' h

end Keeps

/-- From a state that satisfies `P` the computation keeps `P` and has results that satisfy
`Q`. -/
def Maintains (P : σ → Prop) (Q : α → Prop) (x : Task σ ε α) : Prop :=
  ∀ s, P s → P (x s).2 ∧ ∀ a, (x s).1 = .ok a → Q a

namespace Maintains

variable {P : σ → Prop} {Q : α → Prop} {R : β → Prop}

theorem pure {a : α} (h : Q a) : Maintains P Q (Pure.pure a : Task σ ε α) := by
  intro s hs
  refine ⟨hs, fun b hb => ?_⟩
  cases hb
  exact h

theorem fail (e : ε) : Maintains P Q (fail e : Task σ ε α) := by
  intro s hs
  refine ⟨hs, fun a ha => ?_⟩
  cases ha

theorem require (e : ε) {o : Option α} (h : ∀ a ∈ o, Q a) :
    Maintains P Q (require e o : Task σ ε α) := by
  cases o with
  | none => exact fail e
  | some a => exact pure (h a rfl)

theorem modify {f : σ → σ} (h : ∀ s, P s → P (f s)) :
    Maintains P (fun _ => True) (modify f : Task σ ε Unit) :=
  fun s hs => ⟨h s hs, fun _ _ => trivial⟩

theorem bind {x : Task σ ε α} {f : α → Task σ ε β} (hx : Maintains P Q x)
    (hf : ∀ a, Q a → Maintains P R (f a)) : Maintains P R (x >>= f) := by
  intro s hs
  obtain ⟨hstate, hresult⟩ := hx s hs
  rw [bind_apply]
  rcases hp : x s with ⟨e | a, s'⟩ <;> rw [hp] at hstate hresult
  · refine ⟨hstate, fun b hb => ?_⟩
    cases hb
  · exact hf a (hresult a rfl) s' hstate

end Maintains

end ContractTrace.Task
