import ContractTrace.Proofs.Moments

/-! Requests and what they call. A request is a run or a single transaction. It comes to one
transaction after the other, as long as none fails, and each of them that passes its checks calls
a function. -/

namespace ContractTrace.Session

/-! ### Requests -/

/-- The operations that interpret transactions: those of the program, or one from outside. -/
inductive Request
  | run
  | transaction (t : Transaction)

def Request.perform : Request → Action (Option Value)
  | .run => do
    Session.run
    return none
  | .transaction t => interpretTransaction t

/-- The session behind all of the requests. -/
def afterAll : List Request → Session → Session
  | [], s => s
  | r :: rs, s => afterAll rs (r.perform s).2

/-- The result of each request, with the trace that it leaves. -/
def answers : List Request → Session → List (Except RunError (Option Value) × Trace)
  | [], _ => []
  | r :: rs, s => ((r.perform s).1, (r.perform s).2.trace) :: answers rs (r.perform s).2

/-- Performed in the first session, the request comes to the transaction in the second. -/
def Request.ComesTo (r : Request) (s : Session) (t : Transaction) (s' : Session) : Prop :=
  match r with
  | .run => Session.ComesTo s t s'
  | .transaction t' => t = t' ∧ s' = s

/-- One of the requests comes to a transaction that calls the function. -/
def Calls (s : Session) (requests : List Request) (contract : Contract) (function : Function) :
    Prop :=
  ∃ before r after t s' storage, requests = before ++ r :: after ∧
    r.ComesTo (afterAll before s) t s' ∧ Admits s' t contract function storage

variable {s s' : Session} {t : Transaction} {contract : Contract} {function : Function}
  {storage : Environment} {r : Request} {requests : List Request}

namespace Calls

theorem head (hcomes : r.ComesTo s t s') (ha : Admits s' t contract function storage) :
    Calls s (r :: requests) contract function :=
  ⟨[], r, requests, t, s', storage, rfl, hcomes, ha⟩

theorem tail (h : Calls (r.perform s).2 requests contract function) :
    Calls s (r :: requests) contract function := by
  obtain ⟨before, r', after, t, s', storage, rfl, hcomes, ha⟩ := h
  exact ⟨r :: before, r', after, t, s', storage, rfl, hcomes, ha⟩

theorem append (h : Calls s requests contract function) (r : Request) :
    Calls s (requests ++ [r]) contract function := by
  obtain ⟨before, r', after, t, s', storage, rfl, hcomes, ha⟩ := h
  refine ⟨before, r', after ++ [r], t, s', storage, ?_, hcomes, ha⟩
  rw [List.append_assoc, List.cons_append]

theorem last (hcomes : r.ComesTo (afterAll requests s) t s')
    (ha : Admits s' t contract function storage) :
    Calls s (requests ++ [r]) contract function :=
  ⟨requests, r, [], t, s', storage, rfl, hcomes, ha⟩

end Calls

/-! ### Transactions in order -/

/-- All that the transactions call, in the sessions that they come to, is accepted. -/
def CallsOnly (Accepted : Contract → Function → Prop) (i : Nat) (ts : List Transaction)
    (s : Session) : Prop :=
  ∀ before t after s', ts = before ++ t :: after →
    interpretTransactions i before s = (.ok (), s') →
    ∀ {contract function storage}, Admits s' t contract function storage →
      Accepted contract function

namespace CallsOnly

variable {Accepted : Contract → Function → Prop} {i : Nat} {ts : List Transaction}

theorem head (h : CallsOnly Accepted i (t :: ts) s) (ha : Admits s t contract function storage) :
    Accepted contract function :=
  h [] t ts s rfl rfl ha

/-- The other transactions are interpreted where the first has left the session. -/
theorem tail (h : CallsOnly Accepted i (t :: ts) s)
    (hnext : ∀ ts, interpretTransactions i (t :: ts) s = interpretTransactions (i + 1) ts s') :
    CallsOnly Accepted (i + 1) ts s' := by
  intro before t' after u hts hbefore
  refine h (t :: before) t' after u (congrArg (List.cons t) hts) ?_
  rw [hnext, hbefore]

/-- Transactions that a run begins with call what the run calls. -/
theorem of_comesTo
    (h : ∀ {t s' c f storage}, ComesTo s t s' → Admits s' t c f storage → Accepted c f)
    (hprepared : preparation s.program.source s.program.transactions = .ok (contract, storage))
    (log : Log) {rest : List Transaction} (hts : s.program.transactions = ts ++ rest) :
    CallsOnly Accepted 0 ts { s.cleared with storage, active := some contract, log } := by
  intro before t after s' hsplit hbefore c f storage' ha
  refine h ⟨contract, storage, log, before, after ++ rest, hprepared, ?_, hbefore⟩ ha
  rw [hts, hsplit, List.append_assoc, List.cons_append]

end CallsOnly

end ContractTrace.Session
