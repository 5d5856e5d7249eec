/-! Computations that may fail and that act on a state. What a computation did to the state
stays done when it fails. -/

namespace ContractTrace

def Task (σ ε α : Type) : Type := σ → Except ε α × σ

namespace Task

variable {σ ε α β : Type}

def pure (a : α) : Task σ ε α := fun s => (.ok a, s)

def bind (x : Task σ ε α) (f : α → Task σ ε β) : Task σ ε β := fun s =>
  match x s with
  | (.ok a, s') => f a s'
  | (.error e, s') => (.error e, s')

instance : Monad (Task σ ε) where
  pure := pure
  bind := bind

def fail (e : ε) : Task σ ε α := fun s => (.error e, s)

/-- Looks at the state. -/
def view (f : σ → α) : Task σ ε α := fun s => (.ok (f s), s)

def modify (f : σ → σ) : Task σ ε Unit := fun s => (.ok (), f s)

/-- A result that is there, or the given failure. -/
def require (e : ε) : Option α → Task σ ε α
  | some a => pure a
  | none => fail e

/-- A computation on a part of the state. -/
def zoom {τ : Type} (get : σ → τ) (set : τ → σ → σ) (x : Task τ ε α) : Task σ ε α := fun s =>
  match x (get s) with
  | (result, t) => (result, set t s)

@[simp] theorem pure_apply (a : α) (s : σ) : (Pure.pure a : Task σ ε α) s = (.ok a, s) := rfl

@[simp] theorem fail_apply (e : ε) (s : σ) : (fail e : Task σ ε α) s = (.error e, s) := rfl

@[simp] theorem view_apply (f : σ → α) (s : σ) : (view f : Task σ ε α) s = (.ok (f s), s) := rfl

@[simp] theorem modify_apply (f : σ → σ) (s : σ) :
    (modify f : Task σ ε Unit) s = (.ok (), f s) := rfl

theorem bind_apply (x : Task σ ε α) (f : α → Task σ ε β) (s : σ) :
    (x >>= f) s = match x s with
      | (.ok a, s') => f a s'
      | (.error e, s') => (.error e, s') := rfl

end Task

end ContractTrace
