import ContractTrace.Proofs.Atomicity

/-! A run gives the whole trace or none. After a failed run there is nothing to write, and
all attempts to write are refused; after a completed one the events of that run are written
and nothing of what happened before. -/

namespace ContractTrace

/-! ### Writing -/

/-- The writer takes everything. -/
structure Writer.Unfailing (w : Writer) : Prop where
  room : w.room = none
  flush : w.flushFault = none

theorem Trace.write_of_unfailing (t : Trace) {w : Writer} (hw : w.Unfailing) :
    t.write w = (.ok (), { w with written := w.written ++ t.render.toUTF8 }) := by
  obtain ⟨room, whenFull, flushFault, written⟩ := w
  obtain ⟨rfl, rfl⟩ : room = none ∧ flushFault = none := ⟨hw.room, hw.flush⟩
  have hrender : written ++ t.toJson.pretty.toUTF8 ++ "\n".toUTF8 = written ++ t.render.toUTF8 := by
    simp only [render, String.toUTF8_eq_toByteArray, String.toByteArray_append,
      ByteArray.append_assoc]
  simp only [← hrender]
  rfl

namespace Session

/-- The events of a run from a generator: those of the flat run of the program's
transactions, of which there are some and all are for one contract. -/
def Emits (program : Program) (configuration : Configuration) (g : Generator)
    (events : List Event) : Prop :=
  ∃ name blocks g', program.transactions ≠ [] ∧
    (∀ t ∈ program.transactions, t.contract = name) ∧
    Flat.run program.source configuration.errorPolicy name program.transactions g =
      (.ok blocks, g') ∧ events = blocks.flatten

/-- The trace is given up: it is empty, and it can not be written in either way. -/
structure Discarded (s : Session) : Prop where
  committed : s.trace.committed = []
  failed : s.failed = true
  finish : ∀ files, Session.finish (s, files) = (.error .traceDiscarded, (s, files))
  write : ∀ w, s.writeTrace w = (.error .traceDiscarded, w)

theorem uniform_of_runTransactions {ts : List Transaction} {s s' : Session}
    (h : runTransactions ts s = (.ok (), s')) :
    ts ≠ [] ∧ ∃ name, ∀ t ∈ ts, t.contract = name := by
  rcases mixes_or_uniform ts with rfl | ⟨expected, found, hmixes⟩ | huniform
  · cases h
  · obtain ⟨log, hfails⟩ := runTransactions_of_unprepared (s := s) (preparation_of_mixes _ hmixes)
    rw [hfails] at h
    cases h
  · exact huniform

theorem run_discarded {s s' : Session} {e : RunError} (h : run s = (.error e, s')) :
    s'.Discarded := by
  rcases hr : runTransactions s.program.transactions s.cleared with ⟨e' | _, u⟩
  · obtain ⟨log, hrun⟩ := run_of_error hr
    rw [hrun] at h
    cases h
    exact ⟨rfl, rfl, fun _ => rfl, fun _ => rfl⟩
  · obtain ⟨log, hrun⟩ := run_of_ok hr
    rw [hrun] at h
    cases h

theorem run_completed {s s' : Session} (hq : s.Quiescent) (h : run s = (.ok (), s')) :
    s'.failed = false ∧ Emits s.program s.configuration s.generator s'.trace.committed := by
  rcases hr : runTransactions s.program.transactions s.cleared with ⟨e | _, u⟩
  · obtain ⟨log, hrun⟩ := run_of_error hr
    rw [hrun] at h
    cases h
  · -- a run gets to its transactions only if they are for one contract, as the flat run needs
    obtain ⟨hne, name, hname⟩ := uniform_of_runTransactions hr
    have hflat := runTransactions_flat hne hname s.cleared hq.cleared
    simp only [cleared] at hflat
    obtain ⟨log, hrun⟩ := run_of_ok hr
    rw [hrun] at h
    cases h
    rw [cleared] at hr
    rcases hf : Flat.run s.program.source s.configuration.errorPolicy name
      s.program.transactions s.generator with ⟨e | blocks, g⟩ <;> rw [hf, hr] at hflat
    · cases hflat
    · obtain ⟨storage, active, coverage, log', hu⟩ := hflat
      cases hu
      exact ⟨rfl, name, blocks, g, hne, hname, hf, rfl⟩

theorem run_of_emits {s : Session} (hq : s.Quiescent) {events : List Event}
    (h : Emits s.program s.configuration s.generator events) : (run s).1 = .ok () := by
  obtain ⟨name, blocks, g, hne, hname, hrun, -⟩ := h
  have hflat := run_flat hq hne hname
  rw [hrun] at hflat
  exact hflat.1

/-- After any operations no call is in progress and no transaction open. A run that fails
then discards the trace, and it has no events to give; one that completes lets exactly its
events be written, which depend on nothing of the past but the generator. -/
theorem run_all_or_nothing {program : Program} {configuration : Configuration} {s : Session}
    (h : Reachable program configuration s) :
    s.stack.frames = [] ∧ s.trace.pending = none ∧
      match run s with
      | (.error _, s') =>
          s'.Discarded ∧ ∀ events, ¬ Emits program configuration s.generator events
      | (.ok (), s') => s'.failed = false ∧
          ∃ events, Emits program configuration s.generator events ∧
            ∀ w : Writer, w.Unfailing → s'.writeTrace w = (.ok (),
              { w with written := w.written ++ (Trace.render ⟨events, none⟩).toUTF8 }) := by
  obtain ⟨hq, rfl, rfl⟩ := h.idle
  refine ⟨hq.no_frame, hq.no_pending, ?_⟩
  rcases hr : run s with ⟨e | _, s'⟩
  · refine ⟨run_discarded hr, fun events hevents => ?_⟩
    have hok := run_of_emits hq hevents
    rw [hr] at hok
    cases hok
  · obtain ⟨hfailed, hevents⟩ := run_completed hq hr
    refine ⟨hfailed, _, hevents, fun w hw => ?_⟩
    rw [writeTrace, hfailed]
    exact s'.trace.write_of_unfailing hw

/-- After a call that completes and one that fails, a run that fails discards all, and a run
that completes writes its one event. -/
theorem run_all_or_nothing_failsLate :
    let good : Transaction := ⟨"C", "good", []⟩
    let bad : Transaction := ⟨"C", "bad", []⟩
    let before (ts : List Transaction) : Session :=
      (Operation.transaction bad).perform
        ((Operation.transaction good).perform (start ⟨failsLate, ts⟩ {}))
    let page : Writer := ⟨none, "full", none, .empty⟩
    (∀ ts, Reachable ⟨failsLate, ts⟩ {} (before ts)) ∧
      (run (before [good, bad])).2.Discarded ∧
      (run (before [good])).2.writeTrace page = (.ok (),
        { page with written := .empty ++ (Trace.render ⟨[⟨"A", []⟩], none⟩).toUTF8 }) := by
  intro good bad before page
  have hreach : ∀ ts, Reachable ⟨failsLate, ts⟩ {} (before ts) := fun ts => .step (.step .start _) _
  have hfails : ∀ g, (Flat.run failsLate .fail "C" [good, bad] g).1 =
      .error (.unsupportedNode (.statement .placeholderStatement) 11) := fun _ => rfl
  have hcompletes : ∀ g, Flat.run failsLate .fail "C" [good] g = (.ok [[⟨"A", []⟩]], g) :=
    fun _ => rfl
  have hemits : ∀ g, Emits ⟨failsLate, [good]⟩ {} g [⟨"A", []⟩] := fun g =>
    ⟨"C", [[⟨"A", []⟩]], g, List.cons_ne_nil _ _, List.forall_mem_singleton.2 rfl,
      hcompletes g, rfl⟩
  have hdiscards := run_all_or_nothing (hreach [good, bad])
  have hwrites := run_all_or_nothing (hreach [good])
  refine ⟨hreach, ?_, ?_⟩
  · generalize before [good, bad] = s at hdiscards
    rcases hr : run s with ⟨e | _, s'⟩ <;> rw [hr] at hdiscards
    · exact hdiscards.2.2.1
    · obtain ⟨-, -, -, events, ⟨name, blocks, g, -, hname, hrun, -⟩, -⟩ := hdiscards
      obtain rfl : "C" = name := hname good List.mem_cons_self
      have hfail := hfails s.generator
      rw [show Flat.run failsLate .fail "C" [good, bad] s.generator = _ from hrun] at hfail
      cases hfail
  · generalize before [good] = s at hwrites
    rcases hr : run s with ⟨e | _, s'⟩ <;> rw [hr] at hwrites
    · exact absurd (hemits s.generator) (hwrites.2.2.2 _)
    · obtain ⟨-, -, -, events, ⟨name, blocks, g, -, hname, hrun, rfl⟩, hwrite⟩ := hwrites
      obtain rfl : "C" = name := hname good List.mem_cons_self
      cases (hcompletes s.generator).symm.trans hrun
      exact hwrite page ⟨rfl, rfl⟩

end Session

end ContractTrace
