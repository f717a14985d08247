import AnkerUpdater.Hawkbit.Artifacts
import AnkerUpdater.Lib.EventLog

/-!
# Evaluating the update after the restart

`check_installed_updates` reads `update.stat`, decides what became of the
image, lets the P-Ankers update and closes the deployment on the server.
What it does to the device is a list of events, so that a power failure can
leave any prefix of them.
-/

namespace AnkerUpdater.Hawkbit

def UpdateStatus.value : UpdateStatus → ℕ
  | .unknown => 0
  | .updateAvailable => 1
  | .alreadyInstalled => 2
  | .downloadSuccessful => 3
  | .downloadFailed => 4
  | .downloadInvalid => 5
  | .installSuccessful => 6
  | .installFailed => 7
  | .handlePAnkerUpdate => 8
  | .handledPAnkerUpdate => 9

inductive TaskRunState where
  | inactive
  | active
  | blocked
  | wait
  deriving DecidableEq, Repr

inductive FinishType where
  | unknown
  | none
  | success
  | failure
  deriving DecidableEq, Repr

inductive ExecutionType where
  | unknown
  | closed
  | proceeding
  | canceled
  | scheduled
  | rejected
  | resumed
  deriving DecidableEq, Repr

/-- `feedback_message_details`: what its format string is given. -/
inductive Details where
  | notValid
  | reached (status : UpdateStatus) (time : TimeInfo)
  | counted (status : UpdateStatus) (time : TimeInfo) (counts : UpdateCounts)
  deriving DecidableEq

structure Feedback where
  id : ℕ
  finishType : FinishType
  executionType : ExecutionType
  details : Details
  deriving DecidableEq

/-- `evaluated` stands for the assignment of a status that says how the
download or the installation went. -/
inductive Event where
  | attempt (r : DownloadResult)
  | evaluated (id : ℕ) (status : UpdateStatus)
  | statWritten (info : UpdateInfo)
  | statErased
  | taskRunState (s : TaskRunState)
  | pAnkerRound (id : ℕ) (counts : UpdateCounts)
  | feedback (f : Feedback) (accepted : Bool)
  | restarted
  deriving DecidableEq

/-- What survives a restart, and the partition that runs. -/
structure Flash where
  updateStat : Option UpdateInfo
  boot : ℕ
  running : ℕ
  deriving DecidableEq

inductive ImageState where
  | new
  | pendingVerify
  | valid
  | invalid
  | aborted
  | undefined
  deriving DecidableEq, Repr

inductive ImageQuery where
  | state (s : ImageState)
  | notSupported
  | failed
  deriving DecidableEq

/-- The results of the calls of one pass; `counts` is what
`handle_p_anker_updates` leaves in its three arguments. -/
structure CheckEnv where
  imageQuery : ImageQuery
  markValid : Bool
  existenceChecked : Bool
  read : Bool
  readWhole : Bool
  handleWritten : Bool
  proceedingDetails : Bool
  proceedingAccepted : Bool
  counts : UpdateCounts
  handledWritten : Bool
  closedDetails : Bool
  closedAccepted : Bool
  erased : Bool
  deriving DecidableEq

/-- `anker_update_value`. -/
def ankerUpdateValue (E : CheckEnv) (flash : Flash) : ℕ :=
  if E.imageQuery = .state .pendingVerify then
    if E.markValid then 1 else 0
  else if flash.boot ≠ flash.running then 0
  else 2

def evaluate (ankerUpdateValue : ℕ) (info : UpdateInfo) : UpdateInfo :=
  if info.status = .downloadSuccessful then
    if ankerUpdateValue = 2 then { info with status := .alreadyInstalled }
    else if ankerUpdateValue = 1 then { info with status := .installSuccessful }
    else { info with status := .installFailed }
  else info

def evaluationEvents (ankerUpdateValue : ℕ) (info : UpdateInfo) : List Event :=
  if info.status = .downloadSuccessful then
    [.evaluated info.updateId (evaluate ankerUpdateValue info).status]
  else []

/-- The condition before the P-Anker round.  Its second operand is the
enumeration constant itself, not a comparison with it. -/
def handlesPAnkers (s : UpdateStatus) : Bool :=
  s = .installSuccessful || UpdateStatus.alreadyInstalled.value ≠ 0

def toHandle (info : UpdateInfo) : UpdateInfo :=
  if handlesPAnkers info.status then { info with status := .handlePAnkerUpdate } else info

def toHandleEvents (E : CheckEnv) (info : UpdateInfo) : List Event :=
  if handlesPAnkers info.status && E.handleWritten then [.statWritten (toHandle info)] else []

def proceedingFeedback (E : CheckEnv) (info : UpdateInfo) : Feedback :=
  ⟨info.updateId, .none, .proceeding,
    if E.proceedingDetails then .reached info.status info.timeInfo else .notValid⟩

def afterRound (E : CheckEnv) (info : UpdateInfo) : UpdateInfo :=
  { info with
    status :=
      if 0 < E.counts.cntToUpdate ∧ E.counts.cntUpdated = 0 then .installFailed
      else .handledPAnkerUpdate
    counts := E.counts }

def handled (E : CheckEnv) (info : UpdateInfo) : UpdateInfo :=
  if info.status = .handlePAnkerUpdate then afterRound E info else info

def handledEvents (E : CheckEnv) (info : UpdateInfo) : List Event :=
  if info.status = .handlePAnkerUpdate then
    [.feedback (proceedingFeedback E info) E.proceedingAccepted, .taskRunState .wait,
      .pAnkerRound info.updateId E.counts] ++
    (if E.handledWritten then [.statWritten (afterRound E info)] else []) ++
    [.taskRunState .active]
  else []

def closedFeedback (E : CheckEnv) (info : UpdateInfo) : Feedback :=
  ⟨info.updateId,
    if info.status = .handledPAnkerUpdate ∨ info.status = .unknown ∨
        info.status = .installSuccessful ∨ info.status = .alreadyInstalled then .success
    else .failure,
    .closed,
    if info.status ≠ .unknown ∧ E.closedDetails then
      .counted info.status info.timeInfo info.counts
    else .notValid⟩

def closeUpdate (E : CheckEnv) (info : UpdateInfo) : ClientRc × List Event :=
  let sent := Event.feedback (closedFeedback E info) E.closedAccepted
  if E.closedAccepted = false then (.errHttpClient, [sent])
  else if E.erased = false then (.errGeneral, [sent])
  else (.ok, [sent, .statErased])

/-- `check_installed_updates`: its return code and its events. -/
def checkInstalledUpdates (E : CheckEnv) (flash : Flash) : ClientRc × List Event :=
  if E.imageQuery = .failed then (.errGeneral, [])
  else if E.existenceChecked = false then (.errGeneral, [])
  else match flash.updateStat with
  | none => (.ok, [])
  | some info =>
      if E.read = false then (.errGeneral, [])
      else if E.readWhole = false then (.errGeneral, [])
      else
        let evaluated := evaluate (ankerUpdateValue E flash) info
        let toHandle := toHandle evaluated
        let closed := closeUpdate E (handled E toHandle)
        (closed.1, evaluationEvents (ankerUpdateValue E flash) info ++
          toHandleEvents E evaluated ++ handledEvents E toHandle ++ closed.2)

/-! ## The events of a pass that reads the record -/

/-- The pass gets as far as evaluating `info`. -/
structure Evaluates (E : CheckEnv) (flash : Flash) (info : UpdateInfo) : Prop where
  imageQuery : E.imageQuery ≠ .failed
  existenceChecked : E.existenceChecked = true
  updateStat : flash.updateStat = some info
  read : E.read = true
  readWhole : E.readWhole = true

/-- The record that stands for the P-Anker round. -/
def UpdateInfo.atRound (info : UpdateInfo) : UpdateInfo :=
  { info with status := .handlePAnkerUpdate }

def eventsBeforeRound (E : CheckEnv) (flash : Flash) (info : UpdateInfo) : List Event :=
  evaluationEvents (ankerUpdateValue E flash) info ++
    (if E.handleWritten then [.statWritten info.atRound] else []) ++
    [.feedback (proceedingFeedback E info.atRound) E.proceedingAccepted, .taskRunState .wait]

def eventsAfterRound (E : CheckEnv) (info : UpdateInfo) : List Event :=
  (if E.handledWritten then [.statWritten (afterRound E info.atRound)] else []) ++
    .taskRunState .active :: (closeUpdate E (afterRound E info.atRound)).2

theorem handlesPAnkers_eq_true (s : UpdateStatus) : handlesPAnkers s = true := by
  simp [handlesPAnkers, UpdateStatus.value]

theorem toHandle_evaluate (value : ℕ) (info : UpdateInfo) :
    toHandle (evaluate value info) = info.atRound := by
  simp only [toHandle, handlesPAnkers_eq_true, if_true, UpdateInfo.atRound]
  rw [evaluate]
  split_ifs <;> rfl

/-- Whatever the evaluation says, the pass starts the P-Anker round. -/
theorem checkInstalledUpdates_of_evaluates {E : CheckEnv} {flash : Flash} {info : UpdateInfo}
    (h : Evaluates E flash info) : (checkInstalledUpdates E flash).2 =
      eventsBeforeRound E flash info ++ .pAnkerRound info.updateId E.counts ::
        eventsAfterRound E info := by
  have hround : handled E info.atRound = afterRound E info.atRound := by
    simp [handled, UpdateInfo.atRound]
  have hid : info.atRound.updateId = info.updateId := rfl
  have hstatus : info.atRound.status = .handlePAnkerUpdate := rfl
  simp [checkInstalledUpdates, h.imageQuery, h.existenceChecked, h.updateStat, h.read,
    h.readWhole, toHandle_evaluate, toHandleEvents, handlesPAnkers_eq_true, handledEvents,
    hround, hid, hstatus, eventsBeforeRound, eventsAfterRound]

theorem Evaluates.unique {E : CheckEnv} {flash : Flash} {info info' : UpdateInfo}
    (h : Evaluates E flash info) (h' : Evaluates E flash info') : info = info' :=
  Option.some.inj (h.updateStat.symm.trans h'.updateStat)

theorem checkInstalledUpdates_of_not_evaluates {E : CheckEnv} {flash : Flash}
    (h : ∀ info, ¬ Evaluates E flash info) : (checkInstalledUpdates E flash).2 = [] := by
  rw [checkInstalledUpdates]
  cases hstat : flash.updateStat with
  | none => split_ifs <;> rfl
  | some info =>
      simp only
      split_ifs with hquery hexists hread hwhole
      · rfl
      · rfl
      · rfl
      · rfl
      · exact absurd ⟨hquery, Bool.eq_true_of_not_eq_false hexists, hstat,
          Bool.eq_true_of_not_eq_false hread, Bool.eq_true_of_not_eq_false hwhole⟩ (h info)

/-- What a pass that reads the record can do. -/
theorem mem_checkInstalledUpdates {E : CheckEnv} {flash : Flash} {e : Event}
    (he : e ∈ (checkInstalledUpdates E flash).2) : ∃ info, Evaluates E flash info ∧
      ((∃ status, e = .evaluated info.updateId status) ∨ e = .statWritten info.atRound ∨
        e = .feedback (proceedingFeedback E info.atRound) E.proceedingAccepted ∨
        e = .taskRunState .wait ∨ e = .pAnkerRound info.updateId E.counts ∨
        e = .statWritten (afterRound E info.atRound) ∨ e = .taskRunState .active ∨
        e = .feedback (closedFeedback E (afterRound E info.atRound)) E.closedAccepted ∨
        e = .statErased) := by
  by_cases hevaluates : ∃ info, Evaluates E flash info
  · obtain ⟨info, hinfo⟩ := hevaluates
    refine ⟨info, hinfo, ?_⟩
    rw [checkInstalledUpdates_of_evaluates hinfo] at he
    simp only [eventsBeforeRound, eventsAfterRound, evaluationEvents, closeUpdate, List.mem_append,
      List.mem_cons, List.mem_ite_nil_right, List.not_mem_nil, or_false] at he
    rcases he with ((⟨-, he⟩ | ⟨-, he⟩) | he | he) | he | ⟨-, he⟩ | he | he
    · exact .inl ⟨_, he⟩
    · simp [he]
    · simp [he]
    · simp [he]
    · simp [he]
    · simp [he]
    · simp [he]
    · split_ifs at he <;> simp_all
  · rw [checkInstalledUpdates_of_not_evaluates fun info h ↦ hevaluates ⟨info, h⟩] at he
    exact absurd he List.not_mem_nil

end AnkerUpdater.Hawkbit
