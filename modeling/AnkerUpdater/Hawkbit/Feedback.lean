import AnkerUpdater.Hawkbit.Client
import AnkerUpdater.Lib.Runs

/-!
# How failed updates are reported

An update whose last evaluation is a failure must be closed as a failure,
and no P-Anker round may be started for it.  The trace of a run has this
property exactly if no pass of CHECK comes to handle the record of such an
update.
-/

namespace AnkerUpdater.Hawkbit

open EventLog

def UpdateStatus.failed : UpdateStatus → Bool
  | .downloadFailed => true
  | .downloadInvalid => true
  | .installFailed => true
  | _ => false

def failedStep (id : ℕ) (before : Bool) : Event → Bool
  | .evaluated i status => if i = id then status.failed else before
  | _ => before

/-- The last evaluation of the update `id` is a failure. -/
def failed (id : ℕ) (trace : List Event) : Bool := trace.foldl (failedStep id) false

def Truthful (trace : List Event) : Event → Prop
  | .pAnkerRound id _ => failed id trace = false
  | .feedback f _ => failed f.id trace = true → f.executionType = .closed → f.finishType = .failure
  | _ => True

def FailuresReported (trace : List Event) : Prop := EachAt Truthful trace

/-- The update of the record has failed before, or its image is not the one
that runs. -/
def FindsFailed (E : CheckEnv) (flash : Flash) (trace : List Event) (info : UpdateInfo) : Prop :=
  if info.status = .downloadSuccessful then ankerUpdateValue E flash = 0
  else failed info.updateId trace = true

def Device.Checks (d : Device) (i : ℕ) : Prop :=
  d.globals.taskRunState ≠ .inactive ∧ ∃ t, d.tasks[i]? = some t ∧ t.clientState = .check

/-- The action is a pass of CHECK that evaluates the record of a failed
update and does not lose power before the P-Anker round. -/
def Device.HandlesFailed (d : Device) : Action → Prop
  | .pass E i => d.Checks i ∧
      ∃ info, Evaluates E.check d.flash info ∧ FindsFailed E.check d.flash d.trace info
  | .powerFails E i k _ _ => d.Checks i ∧
      ∃ info, Evaluates E.check d.flash info ∧ FindsFailed E.check d.flash d.trace info ∧
        (eventsBeforeRound E.check d.flash info).length < k
  | _ => False

/-! ## The last evaluation of an update -/

theorem failed_append (id : ℕ) (trace more : List Event) :
    failed id (trace ++ more) = more.foldl (failedStep id) (failed id trace) := by
  simp [failed]

/-- The event does not evaluate an update, and if it reports one, then `id`. -/
def Event.About (id : ℕ) : Event → Prop
  | .evaluated _ _ => False
  | .pAnkerRound i _ => i = id
  | .feedback f _ => f.id = id
  | _ => True

theorem failed_append_of_about {id : ℕ} {more : List Event} (trace : List Event)
    (h : ∀ e ∈ more, e.About id) (i : ℕ) : failed i (trace ++ more) = failed i trace := by
  rw [failed_append]
  induction more with
  | nil => rfl
  | cons e more ih =>
      obtain ⟨he, hmore⟩ := List.forall_mem_cons.mp h
      have hstep : failedStep i (failed i trace) e = failed i trace := by
        cases e with
        | evaluated j status => exact he.elim
        | _ => rfl
      rw [List.foldl_cons, hstep]
      exact ih hmore

theorem eachAt_of_about {id : ℕ} {trace more : List Event} (hfailed : failed id trace = false)
    (h : ∀ e ∈ more, e.About id) : EachAt (fun pre e ↦ Truthful (trace ++ pre) e) more := by
  intro pre e post hmore
  have hpre : failed id (trace ++ pre) = false := by
    rw [failed_append_of_about trace (fun e he ↦ h e (by simp [hmore, he])), hfailed]
  have he := h e (by simp [hmore])
  cases e with
  | pAnkerRound i counts =>
      obtain rfl : i = id := he
      exact hpre
  | feedback f accepted =>
      obtain rfl : f.id = id := he
      intro htrue
      exact absurd (hpre.symm.trans htrue) Bool.false_ne_true
  | _ => trivial

/-- The event reports nothing to the server or to the P-Ankers that a
failure would change. -/
def Event.Quiet : Event → Prop
  | .pAnkerRound _ _ => False
  | .feedback f _ => f.executionType ≠ .closed
  | _ => True

theorem Event.Quiet.truthful {e : Event} (h : e.Quiet) (trace : List Event) :
    Truthful trace e := by
  cases e with
  | pAnkerRound i counts => exact h.elim
  | feedback f accepted => exact fun _ hclosed ↦ absurd hclosed h
  | _ => trivial

/-! ## One pass of CHECK -/

theorem eventsBeforeRound_quiet (E : CheckEnv) (flash : Flash) (info : UpdateInfo) :
    ∀ e ∈ eventsBeforeRound E flash info, e.Quiet := by
  intro e he
  simp only [eventsBeforeRound, evaluationEvents, List.mem_append, List.mem_ite_nil_right,
    List.mem_singleton, List.mem_pair] at he
  rcases he with (⟨-, rfl⟩ | ⟨-, rfl⟩) | rfl | rfl
  · trivial
  · trivial
  · exact ExecutionType.noConfusion
  · trivial

theorem eventsAfterRound_about (E : CheckEnv) (info : UpdateInfo) :
    ∀ e ∈ eventsAfterRound E info, e.About info.updateId := by
  intro e he
  simp only [eventsAfterRound, closeUpdate, List.mem_append, List.mem_cons,
    List.mem_ite_nil_right, List.not_mem_nil, or_false] at he
  rcases he with ⟨-, rfl⟩ | rfl | he
  · trivial
  · trivial
  · split_ifs at he
    · obtain rfl := List.mem_singleton.mp he
      rfl
    · obtain rfl := List.mem_singleton.mp he
      rfl
    · rcases List.mem_pair.mp he with rfl | rfl
      · rfl
      · trivial

theorem ankerUpdateValue_le (E : CheckEnv) (flash : Flash) : ankerUpdateValue E flash ≤ 2 := by
  rw [ankerUpdateValue]
  split_ifs <;> decide

theorem evaluate_failed {value : ℕ} {info : UpdateInfo} (hvalue : value ≤ 2)
    (hstatus : info.status = .downloadSuccessful) :
    (evaluate value info).status.failed = decide (value = 0) := by
  interval_cases value <;> simp [evaluate, hstatus, UpdateStatus.failed]

theorem failed_eventsBeforeRound (E : CheckEnv) (flash : Flash) (trace : List Event)
    (info : UpdateInfo) : failed info.updateId (trace ++ eventsBeforeRound E flash info) = true ↔
      FindsFailed E flash trace info := by
  have hrest : ∀ e ∈ (if E.handleWritten then [Event.statWritten info.atRound] else []) ++
      [.feedback (proceedingFeedback E info.atRound) E.proceedingAccepted, .taskRunState .wait],
      e.About info.updateId := by
    intro e he
    simp only [List.mem_append, List.mem_ite_nil_right, List.mem_singleton, List.mem_pair] at he
    rcases he with ⟨-, rfl⟩ | rfl | rfl
    · trivial
    · rfl
    · trivial
  rw [eventsBeforeRound, List.append_assoc, ← List.append_assoc trace,
    failed_append_of_about _ hrest, failed_append, FindsFailed, evaluationEvents]
  split_ifs with hstatus
  · simp [failedStep, evaluate_failed (ankerUpdateValue_le E flash) hstatus]
  · rfl

theorem eachAt_round (E : CheckEnv) (info : UpdateInfo) (trace : List Event) (j : ℕ) :
    EachAt (fun pre e ↦ Truthful (trace ++ pre) e)
        (.pAnkerRound info.updateId E.counts :: (eventsAfterRound E info).take j) ↔
      failed info.updateId trace = false := by
  constructor
  · intro h
    have hround := (eachAt_cons.mp h).1
    rwa [List.append_nil] at hround
  · intro h
    apply eachAt_of_about h
    intro e he
    rcases List.mem_cons.mp he with rfl | he
    · rfl
    · exact eventsAfterRound_about E info e (List.mem_of_mem_take he)

/-- The first `k` events of a pass of CHECK are truthful unless they come
to the P-Anker round of a failed update. -/
theorem eachAt_take_check (E : CheckEnv) (flash : Flash) (trace : List Event) (k : ℕ) :
    EachAt (fun pre e ↦ Truthful (trace ++ pre) e) ((checkInstalledUpdates E flash).2.take k) ↔
      ¬ ∃ info, Evaluates E flash info ∧ FindsFailed E flash trace info ∧
        (eventsBeforeRound E flash info).length < k := by
  by_cases hevaluates : ∃ info, Evaluates E flash info
  · obtain ⟨info, hinfo⟩ := hevaluates
    have hquiet : ∀ n, EachAt (fun pre e ↦ Truthful (trace ++ pre) e)
        ((eventsBeforeRound E flash info).take n) := by
      intro n
      apply eachAt_of_forall
      intro e he pre
      exact (eventsBeforeRound_quiet E flash info e (List.mem_of_mem_take he)).truthful _
    have hexists : (∃ info, Evaluates E flash info ∧ FindsFailed E flash trace info ∧
        (eventsBeforeRound E flash info).length < k) ↔ FindsFailed E flash trace info ∧
        (eventsBeforeRound E flash info).length < k := by
      constructor
      · rintro ⟨info', hinfo', h⟩
        obtain rfl := hinfo.unique hinfo'
        exact h
      · exact fun h ↦ ⟨info, hinfo, h⟩
    rw [hexists, checkInstalledUpdates_of_evaluates hinfo, ← failed_eventsBeforeRound]
    by_cases hk : (eventsBeforeRound E flash info).length < k
    · obtain ⟨j, rfl⟩ := Nat.exists_eq_add_of_lt hk
      have hrest := eachAt_round E info (trace ++ eventsBeforeRound E flash info) j
      have hbefore := hquiet ((eventsBeforeRound E flash info).length + j + 1)
      simp only [List.append_assoc] at hrest
      rw [List.take_append, eachAt_append, List.take_of_length_le (by omega),
        show (eventsBeforeRound E flash info).length + j + 1 -
          (eventsBeforeRound E flash info).length = j + 1 by omega, List.take_succ_cons, hrest]
      rw [List.take_of_length_le (by omega)] at hbefore
      simp [hbefore, hk]
    · rw [List.take_append_of_le_length (Nat.not_lt.mp hk)]
      simp only [hk, and_false, not_false_eq_true, iff_true]
      exact hquiet k
  · have hnone : ∀ info, ¬ Evaluates E flash info := fun info h ↦ hevaluates ⟨info, h⟩
    rw [checkInstalledUpdates_of_not_evaluates hnone, List.take_nil]
    apply iff_of_true eachAt_nil
    rintro ⟨info, hinfo, -⟩
    exact hnone info hinfo

theorem length_eventsBeforeRound_lt {E : CheckEnv} {flash : Flash} {info : UpdateInfo}
    (h : Evaluates E flash info) :
    (eventsBeforeRound E flash info).length < (checkInstalledUpdates E flash).2.length := by
  rw [checkInstalledUpdates_of_evaluates h]
  simp

/-! ## Runs -/

theorem passEvents_quiet {E : PassEnv} {d : Device} {t : Task} (h : t.clientState ≠ .check) :
    ∀ e ∈ passEvents E d t, e.Quiet := by
  intro e he
  rcases (mem_passEvents he).2 with ⟨-, hdownload⟩ | ⟨-, -, rfl⟩ | ⟨hstate, -⟩
  · rcases mem_downloadEvents hdownload with ⟨r, rfl⟩ | ⟨c, v, rfl⟩ | ⟨info, rfl⟩ <;> trivial
  · trivial
  · exact absurd hstate h

theorem passEvents_of_checks {d : Device} {i : ℕ} (E : PassEnv) (h : d.Checks i) :
    (d.tasks[i]?.map (passEvents E d)).getD [] = (checkInstalledUpdates E.check d.flash).2 := by
  obtain ⟨hactive, t, ht, hstate⟩ := h
  simp [ht, passEvents, hactive, hstate]

theorem passEvents_quiet_of_not_checks {d : Device} {i : ℕ} (E : PassEnv) (h : ¬ d.Checks i) :
    ∀ e ∈ (d.tasks[i]?.map (passEvents E d)).getD [], e.Quiet := by
  intro e he
  cases ht : d.tasks[i]? with
  | none => simp [ht] at he
  | some t =>
      simp only [ht, Option.map_some, Option.getD_some] at he
      by_cases hstate : t.clientState = .check
      · have hinactive : d.globals.taskRunState = .inactive := by
          by_contra hactive
          exact h ⟨hactive, t, ht, hstate⟩
        simp [passEvents, hinactive] at he
      · exact passEvents_quiet hstate e he

theorem eachAt_events_iff (d : Device) (a : Action) :
    EachAt (fun pre e ↦ Truthful (d.trace ++ pre) e) (d.events a) ↔ ¬ d.HandlesFailed a := by
  cases a with
  | pass E i =>
      simp only [Device.events, Device.HandlesFailed]
      by_cases hchecks : d.Checks i
      · have hcheck := eachAt_take_check E.check d.flash d.trace
          (checkInstalledUpdates E.check d.flash).2.length
        rw [List.take_length] at hcheck
        rw [passEvents_of_checks E hchecks, hcheck]
        apply not_congr
        constructor
        · rintro ⟨info, hinfo, hfails, -⟩
          exact ⟨hchecks, info, hinfo, hfails⟩
        · rintro ⟨-, info, hinfo, hfails⟩
          exact ⟨info, hinfo, hfails, length_eventsBeforeRound_lt hinfo⟩
      · refine iff_of_true ?_ fun h ↦ hchecks h.1
        apply eachAt_of_forall
        intro e he pre
        exact (passEvents_quiet_of_not_checks E hchecks e he).truthful _
  | powerFails E i k boot running =>
      simp only [Device.events, Device.HandlesFailed]
      by_cases hchecks : d.Checks i
      · rw [passEvents_of_checks E hchecks, eachAt_take_check]
        simp [hchecks]
      · refine iff_of_true ?_ fun h ↦ hchecks h.1
        apply eachAt_of_forall
        intro e he pre
        exact (passEvents_quiet_of_not_checks E hchecks e (List.mem_of_mem_take he)).truthful _
  | start created => simp [Device.events, Device.HandlesFailed, eachAt_nil]
  | stop => simp [Device.events, Device.HandlesFailed, eachAt_nil]
  | callerContinues => simp [Device.events, Device.HandlesFailed, eachAt_nil]
  | triggerEvent => simp [Device.events, Device.HandlesFailed, eachAt_nil]

/-- Along a run from a new device, failed updates are reported as failures
exactly if no action handles the record of one. -/
theorem failuresReported_iff (boot running : ℕ) (actions : List Action) :
    FailuresReported ((factoryNew boot running).run actions).trace ↔
      EachAt (fun pre a ↦ ¬ ((factoryNew boot running).run pre).HandlesFailed a) actions := by
  have hevents : ∀ d : Device, ∀ a, True →
      (EachAt (fun pre e ↦ Truthful (d.trace ++ pre) e) (d.events a) ↔ ¬ d.HandlesFailed a) :=
    fun d a _ ↦ eachAt_events_iff d a
  exact Runs.eachAt_trace_iff (fun _ ↦ True) Device.step_trace (fun _ _ _ _ ↦ trivial) hevents
    trivial rfl

/-! ## A failed download reported as a success -/

def unreachableFile : RetrieveEnv where
  runningVersion := [0x31]
  attempts _ := { wholeBody with clientInit := false }
  timestamp := none
  uptime := 0
  stack := ⟨0, 0, 0⟩
  fileWritten := true

/-- Every call of the pass succeeds, and no P-Anker has another version. -/
def quietCheck : CheckEnv where
  imageQuery := .state .valid
  markValid := true
  existenceChecked := true
  read := true
  readWhole := true
  handleWritten := true
  proceedingDetails := true
  proceedingAccepted := true
  counts := ⟨0, 0, 0⟩
  handledWritten := true
  closedDetails := true
  closedAccepted := true
  erased := true

def failingDownload : PassEnv where
  actions := some ⟨60000, [0x2F]⟩
  deployment := .assigned fiveBytes
  retrieve := unreachableFile
  urlByte := 0
  check := quietCheck
  statusMessage := true
  bootAfterRestart := 1
  runningAfterRestart := 1

/-- The client starts and passes CHECK, INFORM, POLL, DOWNLOAD and CHECK. -/
def failingRun : List Action :=
  [.start true, .callerContinues] ++ List.replicate 5 (.pass failingDownload 0)

theorem not_failuresReported_failingRun :
    ¬ FailuresReported ((factoryNew 1 1).run failingRun).trace := by
  intro h
  let trace := ((factoryNew 1 1).run failingRun).trace
  let closed : Feedback := ⟨7, .success, .closed, .counted .handledPAnkerUpdate ⟨false, 0⟩ ⟨0, 0, 0⟩⟩
  have hclosed := h (trace.take 12) (.feedback closed true) (trace.drop 13) (by decide)
  exact absurd (hclosed (by decide) rfl) (by decide)

end AnkerUpdater.Hawkbit
