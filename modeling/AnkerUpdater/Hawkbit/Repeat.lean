import AnkerUpdater.Hawkbit.Feedback
import AnkerUpdater.Lib.Runs

/-!
# Repeating the P-Anker round

Passes of `check_installed_updates` one after the other, with reboots
between them or in their middle.  What a pass knows of the passes before it
is the record in `update.stat`.
-/

namespace AnkerUpdater.Hawkbit

open EventLog

structure CheckRun where
  flash : Flash
  trace : List Event
  deriving DecidableEq

/-- In `powerFails` the device reboots when the pass has got through `k` of
its events; `k = 0` is a reboot between two passes. -/
inductive CheckAction where
  | pass (E : CheckEnv)
  | powerFails (E : CheckEnv) (k boot running : ℕ)

def CheckRun.events (s : CheckRun) : CheckAction → List Event
  | .pass E => (checkInstalledUpdates E s.flash).2
  | .powerFails E k _ _ => (checkInstalledUpdates E s.flash).2.take k

def CheckRun.step (s : CheckRun) (a : CheckAction) : CheckRun :=
  let flash := (s.events a).foldl Flash.apply s.flash
  match a with
  | .pass _ => ⟨flash, s.trace ++ s.events a⟩
  | .powerFails _ _ boot running =>
      ⟨{ flash with boot := boot, running := running }, s.trace ++ s.events a⟩

def CheckRun.run (flash : Flash) (actions : List CheckAction) : CheckRun :=
  actions.foldl CheckRun.step ⟨flash, []⟩

/-! ## Finished rounds -/

def finishedStep (record : Option UpdateInfo) : Event → Option UpdateInfo
  | .statWritten info =>
      if info.status = .handledPAnkerUpdate ∨ info.status = .installFailed then some info else record
  | .statErased => none
  | _ => record

/-- The record of the finished round that has not been erased after `trace`.
INSTALL_FAILED counts only if it was written on the way. -/
def finished (flash : Flash) (trace : List Event) : Option UpdateInfo :=
  trace.foldl finishedStep (flash.updateStat.filter fun info ↦ info.status = .handledPAnkerUpdate)

/-- What may happen while the file holds the finished record `info`.  The
pass that wrote it still sets `taskRunState` to ACTIVE. -/
def Repeats (info : UpdateInfo) (trace : List Event) : Event → Prop
  | .feedback f _ => ∃ E, f = closedFeedback E info
  | .statErased => ∃ f, trace.getLast? = some (.feedback f true)
  | .taskRunState s => s = .active
  | _ => False

def FinishedOnce (flash : Flash) (trace : List Event) : Prop :=
  EachAt (fun pre e ↦ ∀ info, finished flash pre = some info → Repeats info pre e) trace

/-- No pass that evaluates the record of a finished round does anything. -/
def CheckRun.LeavesFinished (initial : Flash) (s : CheckRun) : CheckAction → Prop
  | .pass E => ∀ info, finished initial s.trace = some info → ¬ Evaluates E s.flash info
  | .powerFails E k _ _ => ∀ info, finished initial s.trace = some info →
      0 < k → ¬ Evaluates E s.flash info

theorem finished_append (flash : Flash) (trace more : List Event) :
    finished flash (trace ++ more) = more.foldl finishedStep (finished flash trace) := by
  simp [finished]

/-- The file holds the record that the trace says. -/
def CheckRun.Holds (initial : Flash) (s : CheckRun) : Prop :=
  ∀ info, finished initial s.trace = some info → s.flash.updateStat = some info

/-- A finished record that is only repeated stays in the file. -/
theorem updateStat_foldl_apply {initial flash : Flash} {trace events : List Event}
    (h : ∀ info, finished initial trace = some info → flash.updateStat = some info)
    (hevents : EachAt (fun pre e ↦ ∀ info, finished initial (trace ++ pre) = some info →
      Repeats info (trace ++ pre) e) events) :
    ∀ info, finished initial (trace ++ events) = some info →
      (events.foldl Flash.apply flash).updateStat = some info := by
  induction events using List.reverseRecOn with
  | nil => simpa using h
  | append_singleton events e ih =>
      obtain ⟨hbefore, he⟩ := eachAt_append_singleton.mp hevents
      intro info hinfo
      rw [← List.append_assoc, finished_append] at hinfo
      rw [List.foldl_append]
      cases e with
      | statWritten written =>
          simp only [List.foldl_cons, List.foldl_nil, finishedStep] at hinfo
          split_ifs at hinfo
          · exact hinfo
          · exact (he info hinfo).elim
      | statErased => simp [finishedStep] at hinfo
      | _ => exact ih hbefore info hinfo

/-! ## The events of one pass -/

/-- The pass starts all over with a finished record. -/
theorem head?_of_evaluates {E : CheckEnv} {flash : Flash} {info : UpdateInfo}
    (hevaluates : Evaluates E flash info) (hstatus : info.status ≠ .downloadSuccessful) :
    ∃ e, (checkInstalledUpdates E flash).2.head? = some e ∧
      ∀ info' trace, ¬ Repeats info' trace e := by
  rw [checkInstalledUpdates_of_evaluates hevaluates]
  cases hwritten : E.handleWritten with
  | true =>
      refine ⟨.statWritten info.atRound, ?_, fun _ _ h ↦ h⟩
      simp [eventsBeforeRound, evaluationEvents, hstatus, hwritten]
  | false =>
      refine ⟨.feedback (proceedingFeedback E info.atRound) E.proceedingAccepted, ?_, ?_⟩
      · simp [eventsBeforeRound, evaluationEvents, hstatus, hwritten]
      · rintro info' trace ⟨E', hfeedback⟩
        have hexecution := congrArg Feedback.executionType hfeedback
        exact ExecutionType.noConfusion hexecution

theorem status_of_finished {initial : Flash} {trace : List Event} {info : UpdateInfo}
    (h : finished initial trace = some info) : info.status ≠ .downloadSuccessful := by
  suffices hboth : info.status = .handledPAnkerUpdate ∨ info.status = .installFailed by
    rcases hboth with hstatus | hstatus <;> simp [hstatus]
  induction trace using List.reverseRecOn with
  | nil =>
      obtain ⟨-, hstatus⟩ := Option.filter_eq_some_iff.mp h
      exact .inl (by simpa using hstatus)
  | append_singleton trace e ih =>
      rw [finished_append, List.foldl_cons, List.foldl_nil] at h
      cases e with
      | statWritten written =>
          simp only [finishedStep] at h
          split_ifs at h with hstatus
          · obtain rfl := Option.some.inj h
            exact hstatus
          · exact ih h
      | statErased => simp [finishedStep] at h
      | _ => exact ih h

section Unfinished

variable {initial : Flash} {trace : List Event}

theorem finished_of_none {events : List Event} (hnone : finished initial trace = none)
    (h : ∀ e ∈ events, finishedStep none e = none) :
    finished initial (trace ++ events) = none := by
  rw [finished_append, hnone]
  induction events with
  | nil => rfl
  | cons e events ih =>
      obtain ⟨he, hevents⟩ := List.forall_mem_cons.mp h
      rw [List.foldl_cons, he]
      exact ih hevents

theorem eachAt_of_none {events : List Event} (hnone : finished initial trace = none)
    (h : ∀ e ∈ events, finishedStep none e = none) :
    EachAt (fun pre e ↦ ∀ info, finished initial (trace ++ pre) = some info →
      Repeats info (trace ++ pre) e) events := by
  intro pre e post hevents info hinfo
  subst hevents
  have hpre := finished_of_none hnone fun e he ↦ h e (List.mem_append_left _ he)
  simp [hpre] at hinfo

/-- The end of a pass is as it should be for the record it works on. -/
theorem eachAt_closeUpdate {info : UpdateInfo} (E : CheckEnv)
    (hinfo : finished initial trace = some info) :
    EachAt (fun pre e ↦ ∀ info, finished initial (trace ++ pre) = some info →
      Repeats info (trace ++ pre) e) (.taskRunState .active :: (closeUpdate E info).2) := by
  rw [closeUpdate]
  have hfeedback : ∃ E', closedFeedback E info = closedFeedback E' info := ⟨E, rfl⟩
  split_ifs with haccepted herased
  · simpa [eachAt_cons, eachAt_nil, finished_append, hinfo, finishedStep, Repeats] using hfeedback
  · simpa [eachAt_cons, eachAt_nil, finished_append, hinfo, finishedStep, Repeats] using hfeedback
  · simpa [eachAt_cons, eachAt_nil, finished_append, hinfo, finishedStep, Repeats,
      haccepted] using hfeedback

theorem eachAt_eventsAfterRound (E : CheckEnv) (info : UpdateInfo)
    (hnone : finished initial trace = none) :
    EachAt (fun pre e ↦ ∀ info, finished initial (trace ++ pre) = some info →
      Repeats info (trace ++ pre) e) (eventsAfterRound E info) := by
  rw [eventsAfterRound]
  split_ifs with hwritten
  · have hrecord : finished initial (trace ++ [.statWritten (afterRound E info.atRound)]) =
        some (afterRound E info.atRound) := by
      rw [finished_append, List.foldl_cons, List.foldl_nil, finishedStep, if_pos]
      simp only [afterRound]
      split_ifs
      · exact .inr rfl
      · exact .inl rfl
    rw [eachAt_append]
    refine ⟨eachAt_cons.mpr ⟨?_, eachAt_nil⟩, ?_⟩
    · intro i hi
      rw [List.append_nil, hnone] at hi
      exact absurd hi (Option.some_ne_none i).symm
    · have hclose := eachAt_closeUpdate E hrecord
      simpa only [List.append_assoc] using hclose
  · apply eachAt_of_none hnone
    intro e he
    rw [List.nil_append, closeUpdate] at he
    split_ifs at he <;> simp at he <;> rcases he with rfl | rfl | rfl <;> rfl

theorem eachAt_check_of_none (E : CheckEnv) (flash : Flash)
    (hnone : finished initial trace = none) :
    EachAt (fun pre e ↦ ∀ info, finished initial (trace ++ pre) = some info →
      Repeats info (trace ++ pre) e) (checkInstalledUpdates E flash).2 := by
  by_cases hevaluates : ∃ info, Evaluates E flash info
  · obtain ⟨info, hinfo⟩ := hevaluates
    have hbefore : ∀ e ∈ eventsBeforeRound E flash info ++ [.pAnkerRound info.updateId E.counts],
        finishedStep none e = none := by
      intro e he
      simp only [eventsBeforeRound, evaluationEvents, List.mem_append, List.mem_ite_nil_right,
        List.mem_singleton, List.mem_pair] at he
      rcases he with ((⟨-, rfl⟩ | ⟨-, rfl⟩) | rfl | rfl) | rfl <;> rfl
    rw [checkInstalledUpdates_of_evaluates hinfo, ← List.singleton_append, ← List.append_assoc,
      eachAt_append]
    refine ⟨eachAt_of_none hnone hbefore, ?_⟩
    have hafter := eachAt_eventsAfterRound E info (finished_of_none hnone hbefore)
    simpa only [List.append_assoc] using hafter
  · rw [checkInstalledUpdates_of_not_evaluates fun info h ↦ hevaluates ⟨info, h⟩]
    exact eachAt_nil

theorem eachAt_check_of_finished {E : CheckEnv} {flash : Flash} {info : UpdateInfo}
    (hfinished : finished initial trace = some info) (hstat : flash.updateStat = some info) (k : ℕ) :
    EachAt (fun pre e ↦ ∀ info, finished initial (trace ++ pre) = some info →
        Repeats info (trace ++ pre) e) ((checkInstalledUpdates E flash).2.take k) ↔
      (0 < k → ¬ Evaluates E flash info) := by
  constructor
  · intro h hk hevaluates
    obtain ⟨e, hhead, hrepeats⟩ := head?_of_evaluates hevaluates (status_of_finished hfinished)
    obtain ⟨rest, hevents⟩ := List.head?_eq_some_iff.mp hhead
    rw [hevents, ← Nat.succ_pred_eq_of_pos hk, List.take_succ_cons, eachAt_cons,
      List.append_nil] at h
    exact hrepeats info trace (h.1 info hfinished)
  · intro h
    cases k with
    | zero => exact eachAt_nil
    | succ k =>
        rw [checkInstalledUpdates_of_not_evaluates, List.take_nil]
        · exact eachAt_nil
        · intro info' hevaluates
          obtain rfl := Option.some.inj (hevaluates.updateStat.symm.trans hstat)
          exact h k.succ_pos hevaluates

end Unfinished

theorem CheckRun.eachAt_events_iff {initial : Flash} {s : CheckRun} (hs : s.Holds initial)
    (a : CheckAction) :
    EachAt (fun pre e ↦ ∀ info, finished initial (s.trace ++ pre) = some info →
      Repeats info (s.trace ++ pre) e) (s.events a) ↔ s.LeavesFinished initial a := by
  cases hfinished : finished initial s.trace with
  | none =>
      cases a with
      | pass E =>
          apply iff_of_true (eachAt_check_of_none E s.flash hfinished)
          intro info hinfo
          exact absurd (hfinished.symm.trans hinfo) (Option.some_ne_none info).symm
      | powerFails E k boot running =>
          have hall := eachAt_check_of_none E s.flash hfinished
          rw [← List.take_append_drop k (checkInstalledUpdates E s.flash).2, eachAt_append] at hall
          apply iff_of_true hall.1
          intro info hinfo
          exact absurd (hfinished.symm.trans hinfo) (Option.some_ne_none info).symm
  | some info =>
      have hstat := hs info hfinished
      cases a with
      | pass E =>
          have hcheck := eachAt_check_of_finished (E := E) hfinished hstat
            ((checkInstalledUpdates E s.flash).2.length + 1)
          rw [List.take_of_length_le (Nat.le_succ _)] at hcheck
          simp only [CheckRun.events, CheckRun.LeavesFinished, hfinished, Option.some.injEq,
            forall_eq', hcheck, Nat.succ_pos, true_imp_iff]
      | powerFails E k boot running =>
          have hcheck := eachAt_check_of_finished (E := E) hfinished hstat k
          simp only [CheckRun.events, CheckRun.LeavesFinished, hfinished, Option.some.injEq,
            forall_eq', hcheck]

theorem CheckRun.Holds.step {initial : Flash} {s : CheckRun} (h : s.Holds initial)
    {a : CheckAction} (ha : s.LeavesFinished initial a) : (s.step a).Holds initial := by
  have hevents := updateStat_foldl_apply h ((CheckRun.eachAt_events_iff h a).mpr ha)
  cases a with
  | pass E => exact hevents
  | powerFails E k boot running => exact hevents

/-- A finished round is not repeated exactly if no later pass gets to read
its record: nothing else keeps it from starting over. -/
theorem finishedOnce_iff (initial : Flash) (actions : List CheckAction) :
    FinishedOnce initial (CheckRun.run initial actions).trace ↔
      Runs.Always CheckRun.step (CheckRun.LeavesFinished initial) ⟨initial, []⟩ actions := by
  refine Runs.eachAt_trace_iff (CheckRun.Holds initial) ?_ (fun s a hs ha ↦ hs.step ha)
    (fun s a hs ↦ CheckRun.eachAt_events_iff hs a) ?_ rfl
  · intro s a
    cases a with
    | pass E => rfl
    | powerFails E k boot running => rfl
  · intro info hinfo
    exact (Option.filter_eq_some_iff.mp hinfo).1

/-- The server does not take the closed feedback, and the next pass starts
the round again. -/
theorem not_finishedOnce_refused :
    let initial : Flash := ⟨some ⟨7, .downloadSuccessful, ⟨false, 0⟩, ⟨0, 0, 0⟩⟩, 1, 1⟩
    ¬ FinishedOnce initial (CheckRun.run initial
      [.pass { quietCheck with closedAccepted := false }, .pass quietCheck]).trace := by
  intro initial h
  let trace := (CheckRun.run initial
    [.pass { quietCheck with closedAccepted := false }, .pass quietCheck]).trace
  have hround := h (trace.take 11) (.pAnkerRound 7 ⟨0, 0, 0⟩) (trace.drop 12) (by decide)
  exact hround ⟨7, .handledPAnkerUpdate, ⟨false, 0⟩, ⟨0, 0, 0⟩⟩ (by decide)

end AnkerUpdater.Hawkbit
