import AnkerUpdater.Hawkbit.Check

/-!
# The client task

`hawkbit_task` as a step function on the device, with the calls of the
other tasks, restarts and power failures between its passes.  Calls that
come in the middle of a pass change only bits and flags that the pass does
not read again, so they stand before or after it.
-/

namespace AnkerUpdater.Hawkbit

def timeMsUntilNextPollDefault : ℕ := 180000

def timeMsUntilNextPollDefaultWifi : ℕ := 3600000

def timeMsUntilNextPollMin : ℕ := 10000

def timeMsUntilNextPollMax : ℕ := 604800000

inductive ClientState where
  | idle
  | poll
  | download
  | install
  | check
  | inform
  | stop
  deriving DecidableEq, Repr

structure BaseContent where
  timeUntilNextPoll : ℕ
  deploymentUrl : List UInt8
  deriving DecidableEq

/-- The local variables of one task; `none` is an uninitialised one. -/
structure Task where
  clientState : ClientState
  idleTimeout : ℕ
  pollingTimeout : ℕ
  baseContent : Option BaseContent
  deployment : Option Deployment
  deriving DecidableEq

structure StatusBits where
  stop : Bool
  stopped : Bool
  cpStandby : Bool
  repoll : Bool
  deriving DecidableEq

structure Globals where
  taskRunState : TaskRunState
  taskHandleRunning : Bool
  taskStatusBits : StatusBits
  statusMessageSend : Bool
  deriving DecidableEq

/-- Where the task that starts and stops the client stands:
`hawkbit_client_start` sets `taskRunState` after the new task is there, and
`hawkbit_client_stop` waits for BIT_STOPPED. -/
inductive Caller where
  | free
  | starting
  | stopping
  deriving DecidableEq, Repr

structure Device where
  flash : Flash
  globals : Globals
  caller : Caller
  tasks : List Task
  trace : List Event
  deriving DecidableEq

def powerOnGlobals : Globals := ⟨.inactive, false, ⟨false, false, false, false⟩, false⟩

def newTask : Task :=
  ⟨.check, timeMsUntilNextPollDefault, timeMsUntilNextPollDefault, none, none⟩

def factoryNew (boot running : ℕ) : Device :=
  ⟨⟨none, boot, running⟩, powerOnGlobals, .free, [], []⟩

inductive DeploymentReply where
  | requestFailed
  | parseFailed (left : Deployment)
  | assigned (d : Deployment)
  deriving DecidableEq

/-- What the server and the device do in one pass of the loop.  `urlByte`
is the first byte of `deployment.anker.download_url` while `deployment` is
uninitialised. -/
structure PassEnv where
  actions : Option BaseContent
  deployment : DeploymentReply
  retrieve : RetrieveEnv
  urlByte : UInt8
  check : CheckEnv
  statusMessage : Bool
  bootAfterRestart : ℕ
  runningAfterRestart : ℕ

/-! ## Events -/

def Flash.apply (flash : Flash) : Event → Flash
  | .attempt r => { flash with boot := r.boot }
  | .statWritten info => { flash with updateStat := some info }
  | .statErased => { flash with updateStat := none }
  | _ => flash

def Globals.apply (g : Globals) : Event → Globals
  | .taskRunState s => { g with taskRunState := s }
  | _ => g

def Device.emit (d : Device) (events : List Event) : Device :=
  { d with
    flash := events.foldl Flash.apply d.flash
    globals := events.foldl Globals.apply d.globals
    trace := d.trace ++ events }

/-- A restart keeps the flash; the bootloader decides which partition runs
and may take the boot partition back. -/
def Device.restart (d : Device) (boot running : ℕ) : Device :=
  ⟨{ d.flash with boot := boot, running := running }, powerOnGlobals, .free, [], d.trace⟩

/-! ## The states of the task -/

structure PassResult where
  globals : Globals
  task : Task

def updatePollingTimeout (content : BaseContent) : ℕ :=
  if content.timeUntilNextPoll < timeMsUntilNextPollMin ∨
      timeMsUntilNextPollMax < content.timeUntilNextPoll then timeMsUntilNextPollDefaultWifi
  else content.timeUntilNextPoll

/-- HAWKBIT_CLIENT_STATE_IDLE, when the wait for the bits ends. -/
def idlePass (g : Globals) (t : Task) : PassResult :=
  let uxBits := g.taskStatusBits
  let cleared : StatusBits := { uxBits with stop := false, cpStandby := false, repoll := false }
  if uxBits.stop then
    ⟨{ g with taskStatusBits := cleared, taskHandleRunning := false },
      { t with clientState := .stop }⟩
  else
    let next : ClientState :=
      if uxBits.cpStandby then .install
      else if g.taskRunState = .blocked then .install
      else if g.taskRunState = .wait then .idle
      else if g.statusMessageSend then .poll
      else .inform
    ⟨{ g with taskStatusBits := cleared, taskHandleRunning := true },
      { t with clientState := next }⟩

def pollPass (E : PassEnv) (t : Task) : Task :=
  match E.actions with
  | none => { t with clientState := .idle }
  | some content =>
      let timeout := updatePollingTimeout content
      { t with
        clientState := if content.deploymentUrl ≠ [] then .download else .idle
        idleTimeout := timeout
        pollingTimeout := timeout
        baseContent := some content }

/-- The deployment whose artifacts DOWNLOAD retrieves. -/
def PassEnv.toRetrieve (E : PassEnv) : Option Deployment :=
  match E.deployment with
  | .assigned d => if d.update ≠ .forced ∧ d.update ≠ .soft then none else some d
  | _ => none

def downloadPass (E : PassEnv) (flash : Flash) (t : Task) : Task :=
  match E.deployment with
  | .requestFailed => { t with clientState := .idle }
  | .parseFailed left => { t with clientState := .idle, deployment := some left }
  | .assigned d =>
      match E.toRetrieve with
      | none => { t with clientState := .idle, deployment := some d }
      | some d =>
          let r := retrieveUpdateArtifacts E.retrieve d flash.boot
          let next : ClientState :=
            if r.rc = .ok then .install
            else if r.rc = .errDownloading then .check
            else .idle
          { t with clientState := next, deployment := some r.deployment }

def downloadEvents (E : PassEnv) (flash : Flash) : List Event :=
  match E.toRetrieve with
  | none => []
  | some d =>
      let r := retrieveUpdateArtifacts E.retrieve d flash.boot
      r.attempts.map .attempt ++
        [.evaluated d.id (artifactStatus E.retrieve d.anker flash.boot).1] ++
        r.persisted.toList.map .statWritten

def restartsToInstall (E : PassEnv) (t : Task) : Bool :=
  match t.deployment with
  | none => E.urlByte ≠ 0
  | some d => d.anker.downloadUrl ≠ []

/-- What a pass of the loop does to the device, apart from bits and flags. -/
def passEvents (E : PassEnv) (d : Device) (t : Task) : List Event :=
  if d.globals.taskRunState = .inactive then []
  else match t.clientState with
  | .download => downloadEvents E d.flash
  | .install => if restartsToInstall E t then [.restarted] else []
  | .check => (checkInstalledUpdates E.check d.flash).2
  | _ => []

/-- The switch over `clientState`, with the globals as its events left them. -/
def switchPass (E : PassEnv) (flash : Flash) (g : Globals) (t : Task) : PassResult :=
  match t.clientState with
  | .idle => idlePass g t
  | .poll => ⟨g, pollPass E t⟩
  | .download => ⟨g, downloadPass E flash t⟩
  | .install => ⟨g, { t with clientState := .check }⟩
  | .check => ⟨g, { t with clientState := .inform }⟩
  | .inform => ⟨{ g with statusMessageSend := E.statusMessage }, { t with clientState := .poll }⟩
  | .stop => ⟨{ g with taskRunState := .inactive }, t⟩

/-- One check of the loop condition of the task `i`, and the pass after it
or the end of the task. -/
def Device.pass (d : Device) (E : PassEnv) (i : ℕ) (t : Task) : Device :=
  if d.globals.taskRunState = .inactive then
    { d with
      globals.taskStatusBits.stopped := true
      tasks := d.tasks.eraseIdx i }
  else
    let d' := d.emit (passEvents E d t)
    if t.clientState = .install ∧ restartsToInstall E t = true then
      d'.restart E.bootAfterRestart E.runningAfterRestart
    else
      let r := switchPass E d.flash d'.globals t
      { d' with globals := r.globals, tasks := d.tasks.set i r.task }

/-! ## Calls of other tasks, and runs -/

/-- `hawkbit_client_start` up to the new task; `created` is the result of
`xTaskCreatePinnedToCore`. -/
def Device.hawkbitClientStart (d : Device) (created : Bool) : Device :=
  if d.globals.taskRunState ≠ .inactive then
    { d with
      globals.statusMessageSend := false
      globals.taskStatusBits.repoll := true }
  else if created then { d with caller := .starting, tasks := d.tasks ++ [newTask] }
  else d

/-- `hawkbit_client_stop` up to the wait for BIT_STOPPED. -/
def Device.hawkbitClientStop (d : Device) : Device :=
  if d.globals.taskRunState = .active then
    { d with globals.taskStatusBits.stop := true, caller := .stopping }
  else d

def Device.hawkbitClientTriggerEvent (d : Device) : Device :=
  if d.globals.taskRunState = .blocked then
    { d with globals.taskStatusBits.cpStandby := true }
  else d

/-- The rest of the call under way, if it can go on. -/
def Device.callerContinues (d : Device) : Device :=
  match d.caller with
  | .free => d
  | .starting => { d with globals.taskRunState := .active, caller := .free }
  | .stopping => if d.globals.taskStatusBits.stopped then { d with caller := .free } else d

/-- In `powerFails` the task `i` has got through `k` events of its pass. -/
inductive Action where
  | pass (E : PassEnv) (i : ℕ)
  | powerFails (E : PassEnv) (i k boot running : ℕ)
  | start (created : Bool)
  | stop
  | callerContinues
  | triggerEvent

def Device.events (d : Device) : Action → List Event
  | .pass E i => (d.tasks[i]?.map (passEvents E d)).getD []
  | .powerFails E i k _ _ => ((d.tasks[i]?.map (passEvents E d)).getD []).take k
  | _ => []

def Device.step (d : Device) : Action → Device
  | .pass E i =>
      match d.tasks[i]? with
      | none => d
      | some t => d.pass E i t
  | .powerFails E i k boot running =>
      (d.emit (d.events (.powerFails E i k boot running))).restart boot running
  | .start created => if d.caller = .free then d.hawkbitClientStart created else d
  | .stop => if d.caller = .free then d.hawkbitClientStop else d
  | .callerContinues => d.callerContinues
  | .triggerEvent => d.hawkbitClientTriggerEvent

def Device.run (d : Device) (actions : List Action) : Device := actions.foldl Device.step d

@[simp] theorem Device.run_nil (d : Device) : d.run [] = d := rfl

@[simp] theorem Device.run_append (d : Device) (actions more : List Action) :
    d.run (actions ++ more) = (d.run actions).run more := by
  simp [Device.run]

@[simp] theorem Device.run_singleton (d : Device) (a : Action) : d.run [a] = d.step a := rfl

@[simp] theorem Device.emit_trace (d : Device) (events : List Event) :
    (d.emit events).trace = d.trace ++ events := rfl

@[simp] theorem Device.restart_trace (d : Device) (boot running : ℕ) :
    (d.restart boot running).trace = d.trace := rfl

theorem Device.pass_trace (d : Device) (E : PassEnv) (i : ℕ) (t : Task) :
    (d.pass E i t).trace = d.trace ++ passEvents E d t := by
  rw [Device.pass]
  split_ifs with hinactive hinstall
  · simp [passEvents, hinactive]
  · rfl
  · rfl

theorem Device.step_trace (d : Device) (a : Action) :
    (d.step a).trace = d.trace ++ d.events a := by
  cases a with
  | pass E i =>
      simp only [Device.step, Device.events]
      cases d.tasks[i]? with
      | none => simp
      | some t => exact d.pass_trace E i t
  | powerFails E i k boot running => rfl
  | start created =>
      simp only [Device.step, Device.events, Device.hawkbitClientStart, List.append_nil]
      split_ifs <;> rfl
  | stop =>
      simp only [Device.step, Device.events, Device.hawkbitClientStop, List.append_nil]
      split_ifs <;> rfl
  | callerContinues =>
      simp only [Device.step, Device.events, Device.callerContinues, List.append_nil]
      cases d.caller with
      | free => rfl
      | starting => rfl
      | stopping =>
          simp only
          split_ifs <;> rfl
  | triggerEvent =>
      simp only [Device.step, Device.events, Device.hawkbitClientTriggerEvent, List.append_nil]
      split_ifs <;> rfl

theorem mem_downloadEvents {E : PassEnv} {flash : Flash} {e : Event}
    (he : e ∈ downloadEvents E flash) :
    (∃ r, e = .attempt r) ∨ (∃ id status, e = .evaluated id status) ∨ ∃ info, e = .statWritten info := by
  rw [downloadEvents] at he
  cases hretrieve : E.toRetrieve with
  | none => simp [hretrieve] at he
  | some dep =>
      simp only [hretrieve, List.mem_append, List.mem_map, List.mem_singleton] at he
      rcases he with (⟨r, -, rfl⟩ | rfl) | ⟨info, -, rfl⟩
      · exact .inl ⟨r, rfl⟩
      · exact .inr (.inl ⟨_, _, rfl⟩)
      · exact .inr (.inr ⟨info, rfl⟩)

/-- Only three states of a running client do something to the device. -/
theorem mem_passEvents {E : PassEnv} {d : Device} {t : Task} {e : Event}
    (he : e ∈ passEvents E d t) : d.globals.taskRunState ≠ .inactive ∧
      ((t.clientState = .download ∧ e ∈ downloadEvents E d.flash) ∨
        (t.clientState = .install ∧ restartsToInstall E t = true ∧ e = .restarted) ∨
        (t.clientState = .check ∧ e ∈ (checkInstalledUpdates E.check d.flash).2)) := by
  by_cases hinactive : d.globals.taskRunState = .inactive
  · simp [passEvents, hinactive] at he
  · refine ⟨hinactive, ?_⟩
    simp only [passEvents, hinactive, if_false] at he
    cases hstate : t.clientState with
    | download =>
        simp only [hstate] at he
        exact .inl ⟨rfl, he⟩
    | install =>
        simp only [hstate, List.mem_ite_nil_right, List.mem_singleton] at he
        exact .inr (.inl ⟨rfl, he⟩)
    | check =>
        simp only [hstate] at he
        exact .inr (.inr ⟨rfl, he⟩)
    | _ => simp [hstate] at he

end AnkerUpdater.Hawkbit
