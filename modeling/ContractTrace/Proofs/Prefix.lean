import ContractTrace.Proofs.History

/-! Transactions change nothing that came before them. A run over a longer list of transactions
begins as the run over the shorter list does: what makes the shorter run fail makes the longer
one fail, and what the longer one emits begins with what the shorter one emits. -/

namespace ContractTrace.Session

open ContractTrace.Task (Keeps never bind_bind bind_of_ok bind_of_error)

/-! ### Longer lists -/

theorem preparation_append {source : SourceUnit} {name : String} {ts us : List Transaction}
    (hne : ts ≠ []) (hname : ∀ t ∈ ts ++ us, t.contract = name) :
    preparation source (ts ++ us) = preparation source ts := by
  have hshort : ∀ t ∈ ts, t.contract = name := fun t ht => hname t (List.mem_append_left us ht)
  have hne' : ts ++ us ≠ [] := List.append_ne_nil_of_left_ne_nil hne us
  rw [preparation_of_uniform source hne' hname, preparation_of_uniform source hne hshort]

theorem interpretTransactions_append (ts us : List Transaction) (i : Nat) :
    interpretTransactions i (ts ++ us) =
      interpretTransactions i ts >>= fun _ => interpretTransactions (i + ts.length) us := by
  induction ts generalizing i with
  | nil => rfl
  | cons t ts ih =>
    have hindex : i + (t :: ts).length = i + 1 + ts.length := by
      rw [List.length_cons]
      omega
    rw [hindex, List.cons_append, interpretTransactions, interpretTransactions]
    simp only [ih, bind_bind]

/-! ### Growing traces -/

theorem interpretTransaction_committed (events : List Event) (t : Transaction) :
    Keeps (fun s => s.Quiescent ∧ events <+: s.trace.committed) (interpretTransaction t) := by
  rintro s ⟨hq, hevents⟩
  rcases refuses_or_admits s t with ⟨e, ht⟩ | ⟨contract, function, storage, ht⟩
  · obtain ⟨log, hr⟩ := interpretTransaction_of_refuses ht
    rw [hr]
    exact ⟨⟨hq.no_frame, hq.no_pending⟩, hevents⟩
  · obtain ⟨result, p, coverage, log, -, hr⟩ := interpretTransaction_of_admits ht hq.no_frame
    rw [hr]
    exact ⟨⟨hq.no_frame, rfl⟩, hevents.trans (List.prefix_append _ _)⟩

/-- Committed events stay committed. -/
theorem interpretTransactions_committed (events : List Event) (ts : List Transaction) (i : Nat) :
    Keeps (fun s => s.Quiescent ∧ events <+: s.trace.committed) (interpretTransactions i ts) := by
  induction ts generalizing i with
  | nil => exact .pure ()
  | cons t ts ih =>
    refine (interpretTransaction_committed events t).bind fun _ => ?_
    refine (Keeps.modify ?_).bind fun _ => ih (i + 1)
    exact fun s hs => ⟨⟨hs.1.no_frame, hs.1.no_pending⟩, hs.2⟩

/-! ### Runs -/

theorem beside_eq_lockstep : Lockstep (Beside Eq) never :=
  beside_lockstep fun h id => congrArg (fun c => (Coverage.mark c id).2) h

/-- Up to the end of the shorter list, two sessions side by side do the same. -/
theorem interpretTransactions_beside {s t : Session} (hst : Beside Eq s t)
    (hs : s.Quiescent) (ts us : List Transaction) (i : Nat) :
    match interpretTransactions i ts s with
    | (.error e, s') => ∃ t', interpretTransactions i (ts ++ us) t = (.error e, t') ∧
        Beside Eq s' t'
    | (.ok (), s') =>
        s'.trace.committed <+: (interpretTransactions i (ts ++ us) t).2.trace.committed := by
  obtain ⟨hresult, hend⟩ := (beside_eq_lockstep.interpretTransactions ts i s t hst).exact
  have hq := (interpretTransactions_committed [] ts i s ⟨hs, List.nil_prefix⟩).1
  rw [interpretTransactions_append]
  rcases hs' : interpretTransactions i ts s with ⟨result, s'⟩
  rcases ht' : interpretTransactions i ts t with ⟨result', t'⟩
  rw [hs', ht'] at hresult hend
  rw [hs'] at hq
  cases hresult
  cases result with
  | error e => exact ⟨t', bind_of_error ht' _, hend⟩
  | ok _ =>
    have hstack : t'.stack = s'.stack := congrArg Core.stack hend.core_eq
    have htrace : t'.trace = s'.trace := congrArg Core.trace hend.core_eq
    have hq' : t'.Quiescent := ⟨by rw [hstack, hq.no_frame], by rw [htrace, hq.no_pending]⟩
    have hrest := interpretTransactions_committed s'.trace.committed us (i + ts.length) t'
      ⟨hq', [], by rw [List.append_nil, htrace]⟩
    rw [bind_of_ok ht']
    exact hrest.2

theorem runTransactions_beside {s t : Session} (hst : Beside Eq s t) (hs : s.Quiescent)
    {name : String} {ts us : List Transaction} (hne : ts ≠ [])
    (hname : ∀ t ∈ ts ++ us, t.contract = name) :
    match runTransactions ts s with
    | (.error e, s') => ∃ t', runTransactions (ts ++ us) t = (.error e, t') ∧ Beside Eq s' t'
    | (.ok (), s') =>
        s'.trace.committed <+: (runTransactions (ts ++ us) t).2.trace.committed := by
  have hsame : preparation t.program.source (ts ++ us) = preparation s.program.source ts := by
    rw [hst.source_eq, preparation_append hne hname]
  cases hprepared : preparation s.program.source ts with
  | error e =>
    obtain ⟨log, hs'⟩ := runTransactions_of_unprepared hprepared
    obtain ⟨log', ht'⟩ := runTransactions_of_unprepared (hsame.trans hprepared)
    rw [hs']
    exact ⟨_, ht', beside_eq_lockstep.update hst id log log'⟩
  | ok prepared =>
    obtain ⟨contract, storage⟩ := prepared
    obtain ⟨log, hs'⟩ := runTransactions_of_prepared hprepared
    obtain ⟨log', ht'⟩ := runTransactions_of_prepared (hsame.trans hprepared)
    rw [hs', ht']
    have hactive := beside_eq_lockstep.update hst
      (fun c => { c with storage, active := some contract }) log log'
    exact interpretTransactions_beside hactive ⟨hs.no_frame, hs.no_pending⟩ ts us 0

/-- If a run over a list of transactions completes, so does the run over the first of them,
and its trace begins with that run's trace. If the run over the first of them fails, the run
over all fails for the same reason and covers the same nodes. -/
theorem run_monotone (source : SourceUnit) (configuration : Configuration) (name : String)
    (ts us : List Transaction) (hne : ts ≠ []) (hname : ∀ t ∈ ts ++ us, t.contract = name) :
    let short := run (start ⟨source, ts⟩ configuration)
    let long := run (start ⟨source, ts ++ us⟩ configuration)
    (long.1 = .ok () → short.1 = .ok () ∧
      short.2.trace.committed <+: long.2.trace.committed) ∧
    ∀ e, short.1 = .error e → long.1 = .error e ∧ long.2.coverage = short.2.coverage := by
  intro short long
  have hruns := runTransactions_beside (s := (start ⟨source, ts⟩ configuration).cleared)
    (t := (start ⟨source, ts ++ us⟩ configuration).cleared) ⟨rfl, rfl, rfl, rfl, rfl⟩
    ⟨rfl, rfl⟩ hne hname
  rcases hs : runTransactions ts (start ⟨source, ts⟩ configuration).cleared
    with ⟨e | _, s'⟩ <;> rw [hs] at hruns
  · obtain ⟨t', ht, hend⟩ := hruns
    obtain ⟨_, hshort⟩ := run_of_error (s := start ⟨source, ts⟩ configuration) hs
    obtain ⟨_, hlong⟩ := run_of_error (s := start ⟨source, ts ++ us⟩ configuration) ht
    rw [show short = _ from hshort, show long = _ from hlong]
    refine ⟨fun hok => ?_, fun e' he => ⟨he, hend.coverage.symm⟩⟩
    cases hok
  · obtain ⟨_, hshort⟩ := run_of_ok (s := start ⟨source, ts⟩ configuration) hs
    rw [show short = _ from hshort]
    refine ⟨fun hok => ⟨rfl, ?_⟩, fun e' he => ?_⟩
    · rcases ht : runTransactions (ts ++ us) (start ⟨source, ts ++ us⟩ configuration).cleared
        with ⟨e | _, t'⟩ <;> rw [ht] at hruns
      · obtain ⟨_, hlong⟩ := run_of_error (s := start ⟨source, ts ++ us⟩ configuration) ht
        rw [show long = _ from hlong] at hok
        cases hok
      · obtain ⟨_, hlong⟩ := run_of_ok (s := start ⟨source, ts ++ us⟩ configuration) ht
        rw [show long = _ from hlong]
        exact hruns
    · cases he

/-- The first call completes, and the sum of the second leaves the carrier, whatever comes
behind it. -/
theorem run_monotone_addition :
    (run (start ⟨addition, [addCall 1, addCall Carrier.greatest]⟩ {})).1 =
        .error (.evaluation (.unrepresentable "+" .uint256)) ∧
      (run (start ⟨addition, [addCall 1, addCall Carrier.greatest, addCall 2]⟩ {})).1 =
        .error (.evaluation (.unrepresentable "+" .uint256)) ∧
      [sumEvent 6] <+: (run (start ⟨addition, [addCall 1, addCall 2]⟩ {})).2.trace.committed := by
  -- for any source, so that nothing has to be evaluated to see that the statements match
  have hruns : ∀ (source : SourceUnit) (ts us : List Transaction), ts ≠ [] →
      (∀ t ∈ ts ++ us, t.contract = "C") →
      ((run (start ⟨source, ts ++ us⟩ {})).1 = .ok () →
        (run (start ⟨source, ts⟩ {})).2.trace.committed <+:
          (run (start ⟨source, ts ++ us⟩ {})).2.trace.committed) ∧
      ∀ e, (run (start ⟨source, ts⟩ {})).1 = .error e →
        (run (start ⟨source, ts ++ us⟩ {})).1 = .error e := by
    intro source ts us hne hname
    obtain ⟨hok, herror⟩ := run_monotone source {} "C" ts us hne hname
    exact ⟨fun h => (hok h).2, fun e he => (herror e he).1⟩
  have hcontract : ∀ ns : List Int, ∀ t ∈ ns.map addCall, t.contract = "C" := by
    intro ns t ht
    obtain ⟨n, -, rfl⟩ := List.mem_map.1 ht
    rfl
  have hfails : (run (start ⟨addition, [addCall 1, addCall Carrier.greatest]⟩ {})).1 =
      .error (.evaluation (.unrepresentable "+" .uint256)) := by decide +kernel
  have hcompletes : (run (start ⟨addition, [addCall 1, addCall 2]⟩ {})).1 = .ok () := by
    decide +kernel
  have hevents : (run (start ⟨addition, [addCall 1]⟩ {})).2.trace.committed = [sumEvent 6] := rfl
  have hlong := hruns addition [addCall 1, addCall Carrier.greatest] [addCall 2]
    (List.cons_ne_nil _ _) (hcontract [1, Carrier.greatest, 2])
  have hshort := hruns addition [addCall 1] [addCall 2] (List.cons_ne_nil _ _)
    (hcontract [1, 2])
  simp only [List.cons_append, List.nil_append] at hlong hshort
  refine ⟨hfails, hlong.2 _ hfails, ?_⟩
  rw [← hevents]
  exact hshort.1 hcompletes

end ContractTrace.Session
