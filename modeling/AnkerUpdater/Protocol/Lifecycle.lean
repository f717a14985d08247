import AnkerUpdater.Protocol.PollMode
import AnkerUpdater.Protocol.UpdateRecord

/-!
# The life of a P-Anker

The tasks of a P-Anker and its file `update.stat` over any number of restarts:
`updater_start` and `updater_stop`, the UDP and the TCP task, and the task that
connects to the C-Anker.  The flags and event bits are those of `PollMode`.
The power may fail in any file call; a power failure at another time is a
restart.
-/

namespace AnkerUpdater

open Storage UploadLog

/-- What the log of a device tells; `wifiConnect` is a call of
`wifi_connect_to_ap`, for the C-Anker with the serial or for the default
access point. -/
inductive LifeEvent where
  | received (m : UpdatePingInfo)
  | requested (m : UpdatePingInfo)
  | activated (serial : Serial) (image : List UInt8)
  | resumed (serial : Serial)
  | recordRemoved
  | wifiConnect (ap : Option Serial)
  | restarted
  deriving DecidableEq

/-- A task `p_anker_connect_to_c_anker_ap_task`, and whether it has called
`stop_p_anker_poll_mode`. -/
structure Join where
  serial : Serial
  stopping : Bool

/-- What a restart forgets.  No two tasks have the same id, so every UDP task
begins with `PAnkerTask.start`. -/
structure Volatile where
  poll : PollMode
  udp : ℕ → PAnkerTask
  joins : List Join

structure PAnkerDevice where
  disk : Disk
  volatile : Volatile
  log : List LifeEvent

/-- P_ANKER_CONNECT_TO_C_ANKER_AP_MAX_RETRIES -/
def pAnkerConnectToCAnkerApMaxRetries : ℕ := 10

/-- P_ANKER_CONNECT_DEFAULT_AP_MAX_RETRIES -/
def pAnkerConnectDefaultApMaxRetries : ℕ := 10

/-- The number of calls of `wifi_connect_to_ap` up to the first that returns
WIFI_OK. -/
def connectAttempts (results : ℕ → Bool) : ℕ → ℕ → ℕ
  | 0, _ => 0
  | retries + 1, i => if results i then 1 else connectAttempts results retries (i + 1) + 1

/-- What can happen to a device.  The ids choose a task, `i` a connecting
task, and `stopped` is what `stop_p_anker_poll_mode` returned to it. -/
inductive LifeAction where
  | updaterStart (E : StartEnv)
  | updaterStop
  | connectTaskStops (i : ℕ)
  | connectTaskConnects (i : ℕ) (stopped : Bool) (results : ℕ → Bool)
  | taskPasses (id : ℕ) (ok : Bool)
  | datagram (id : ℕ) (m : UpdatePingInfo) (r : LibResults) (padding : Vector UInt8 3)
      (E : WriteEnv)
  | request (id : ℕ) (m : UpdatePingInfo) (padding : Vector UInt8 3) (E : WriteEnv)
  | connectToDefaultAp (id : ℕ) (results : ℕ → Bool) (E : EraseEnv)
  | expire (j : ℕ)
  | wake (j : ℕ)
  | restart

/-- How the record is written, if it is. -/
def LifeAction.writeEnv : LifeAction → Option WriteEnv
  | .datagram _ _ _ _ E => some E
  | .request _ _ _ E => some E
  | _ => none

/-- An action takes its course, or the power fails after `done` of its file
calls and `k` steps of the next. -/
inductive Move where
  | does (a : LifeAction)
  | powerLoss (a : LifeAction) (done k : ℕ) (debris : Option Bytes)

def Move.action : Move → LifeAction
  | .does a => a
  | .powerLoss a _ _ _ => a

namespace PAnkerDevice

def powerOn (disk : Disk) : PAnkerDevice := ⟨disk, ⟨.powerOn, fun _ ↦ .start, []⟩, []⟩

section

variable (sha256 : Sha256) (own : Anker) (s : PAnkerDevice)

/-- The task waits for a datagram or a connection. -/
def Listens (id : ℕ) (kind : PollKind) : Prop :=
  (⟨id, kind, .body⟩ : PollTask) ∈ s.volatile.poll.tasks

instance (id : ℕ) (kind : PollKind) : Decidable (s.Listens id kind) :=
  inferInstanceAs (Decidable (_ ∈ _))

/-- The UDP task is on its way to the default access point. -/
def Connecting (id : ℕ) : Prop :=
  (⟨id, .udp, .connecting⟩ : PollTask) ∈ s.volatile.poll.tasks

instance (id : ℕ) : Decidable (s.Connecting id) := inferInstanceAs (Decidable (_ ∈ _))

/-- The UDP task after a datagram. -/
def afterDatagram (id : ℕ) (m : UpdatePingInfo) (r : LibResults) : PAnkerTask :=
  ((s.volatile.udp id).receive sha256 own r m).1

/-- Only the first call of `updater_start` looks at the record. -/
def startRecord (E : StartEnv) : List Call × Option Serial :=
  if s.volatile.poll.initialDone then ([], none) else startFromRecord E s.disk

/-- A request that the TCP task obeys. -/
def Obeys (id : ℕ) (m : UpdatePingInfo) : Prop :=
  s.Listens id .tcp ∧ m.accepted sha256 = true ∧ m.type = UpdatePingType.connectToAp.code

instance (id : ℕ) (m : UpdatePingInfo) : Decidable (s.Obeys sha256 id m) :=
  inferInstanceAs (Decidable (_ ∧ _ ∧ _))

/-- The file calls in the course of an action. -/
def fileCalls : LifeAction → List Call
  | .updaterStart E => (s.startRecord E).1
  | .datagram id m r padding E =>
      if s.Listens id .udp ∧ (s.afterDatagram sha256 own id m r).phase = .restarted then
        [.write (some pAnkerUpdateStatus) true
          (PAnkerUpdateInfo.bytes ⟨updateStatusInstalled, m.serial, padding⟩) E]
      else []
  | .request id m padding E =>
      if s.Obeys sha256 id m then
        [.write (some pAnkerUpdateStatus) true
          (PAnkerUpdateInfo.bytes ⟨updateStatusDownloading, m.serial, padding⟩) E]
      else []
  | .connectToDefaultAp id _ E =>
      if s.Connecting id then [.erase (some pAnkerUpdateStatus) E] else []
  | _ => []

/-- What an action logs before its file calls. -/
def events : LifeAction → List LifeEvent
  | .connectTaskConnects i stopped results =>
      match s.volatile.joins[i]? with
      | none => []
      | some j =>
          if j.stopping && stopped then
            List.replicate (connectAttempts results pAnkerConnectToCAnkerApMaxRetries 0)
              (.wifiConnect (some j.serial))
          else []
  | .datagram id m r _ _ =>
      if s.Listens id .udp then
        (if m.accepted sha256 = true ∧ m.type = UpdatePingType.sendFirmwareData.code then
          [.received m] else []) ++
        (if (s.afterDatagram sha256 own id m r).phase = .restarted then
          [.activated m.serial (written (s.afterDatagram sha256 own id m r).calls)] else [])
      else []
  | .request id m _ _ => if s.Obeys sha256 id m then [.requested m] else []
  | .connectToDefaultAp id results _ =>
      if s.Connecting id then
        List.replicate (connectAttempts results pAnkerConnectDefaultApMaxRetries 0)
          (.wifiConnect none)
      else []
  | _ => []

/-- The memory after the action, if the device does not restart. -/
def next : LifeAction → Option Volatile
  | .updaterStart E =>
      match (s.startRecord E).2 with
      | some serial => some { s.volatile with
          poll := s.volatile.poll.step .startInstalled
          joins := s.volatile.joins ++ [⟨serial, false⟩] }
      | none => some { s.volatile with
          poll := (s.volatile.poll.step (.start .udp)).step (.start .tcp) }
  | .updaterStop => some { s.volatile with poll := s.volatile.poll.step .updaterStop }
  | .connectTaskStops i =>
      match s.volatile.joins[i]? with
      | some ⟨serial, false⟩ => some { s.volatile with
          poll := s.volatile.poll.step .connectTaskStops
          joins := s.volatile.joins.set i ⟨serial, true⟩ }
      | _ => some s.volatile
  | .connectTaskConnects i _ _ =>
      match s.volatile.joins[i]? with
      | some ⟨_, true⟩ => some { s.volatile with joins := s.volatile.joins.eraseIdx i }
      | _ => some s.volatile
  | .taskPasses id ok =>
      if s.Connecting id then some s.volatile
      else some { s.volatile with
        poll := s.volatile.poll.step (.task id (if ok then .finished else .failed)) }
  | .datagram id m r _ _ =>
      if s.Listens id .udp then
        let task := s.afterDatagram sha256 own id m r
        match task.phase with
        -- `api_restart_anker`
        | .restarted => none
        | .deleted => some { s.volatile with
            poll := s.volatile.poll.step (.task id .getUpdateVersionAck)
            udp := Function.update s.volatile.udp id task }
        | .running => some { s.volatile with
            poll := s.volatile.poll.step (.task id .finished)
            udp := Function.update s.volatile.udp id task }
      else some s.volatile
  | .request id m _ _ =>
      if s.Obeys sha256 id m then some { s.volatile with
        poll := s.volatile.poll.step (.task id .connectToAp)
        joins := s.volatile.joins ++ [⟨m.serial, false⟩] }
      else if s.Listens id .tcp then some { s.volatile with
        poll := s.volatile.poll.step (.task id .finished) }
      else some s.volatile
  | .connectToDefaultAp id _ _ =>
      if s.Connecting id then some { s.volatile with
        poll := s.volatile.poll.step (.task id .finished) }
      else some s.volatile
  | .expire j => some { s.volatile with poll := s.volatile.poll.step (.expire j) }
  | .wake j => some { s.volatile with poll := s.volatile.poll.step (.wake j) }
  | .restart => none

def afterRestart : Volatile := ⟨s.volatile.poll.step .restart, fun _ ↦ .start, []⟩

/-- The file calls of a move, the last one cut if the power fails. -/
def fileActions : Move → List Storage.Action
  | .does a => (s.fileCalls sha256 own a).map .returns
  | .powerLoss a done k debris =>
      ((s.fileCalls sha256 own a).take done).map .returns ++
        ((s.fileCalls sha256 own a)[done]?.toList.map fun call ↦ .powerLoss call k debris)

def diskAfter (v : Move) : Disk := (s.fileActions sha256 own v).foldl Storage.step s.disk

def memoryAfter : Move → Option Volatile
  | .does a => s.next sha256 own a
  | .powerLoss _ _ _ _ => none

/-- What a move logs after its file calls. -/
def lateEvents (v : Move) : List LifeEvent :=
  (match s.memoryAfter sha256 own v, v.action with
    | some _, .updaterStart E => (s.startRecord E).2.toList.map .resumed
    | some _, _ => []
    | none, _ => [.restarted]) ++
  (if (s.disk pAnkerUpdateStatus).isSome ∧
    s.diskAfter sha256 own v pAnkerUpdateStatus = none then [.recordRemoved] else [])

def logged (v : Move) : List LifeEvent :=
  s.events sha256 own v.action ++ s.lateEvents sha256 own v

def step (v : Move) : PAnkerDevice where
  disk := s.diskAfter sha256 own v
  volatile := (s.memoryAfter sha256 own v).getD s.afterRestart
  log := s.log ++ s.logged sha256 own v

end

def run (sha256 : Sha256) (own : Anker) (disk : Disk) (moves : List Move) : PAnkerDevice :=
  moves.foldl (step sha256 own) (powerOn disk)

/-! ## The flags and event bits -/

variable {sha256 : Sha256} {own : Anker}

theorem exists_pollActions_next {s : PAnkerDevice} {a : LifeAction} {memory : Volatile}
    (h : s.next sha256 own a = some memory) :
    ∃ actions : List PollMode.Action,
      memory.poll = actions.foldl PollMode.step s.volatile.poll := by
  cases a with
  | updaterStart E =>
      simp only [next] at h
      split at h
      · obtain rfl := Option.some.inj h
        exact ⟨[.startInstalled], rfl⟩
      · obtain rfl := Option.some.inj h
        exact ⟨[.start .udp, .start .tcp], rfl⟩
  | updaterStop =>
      obtain rfl := Option.some.inj h
      exact ⟨[.updaterStop], rfl⟩
  | connectTaskStops i =>
      simp only [next] at h
      split at h
      · obtain rfl := Option.some.inj h
        exact ⟨[.connectTaskStops], rfl⟩
      · obtain rfl := Option.some.inj h
        exact ⟨[], rfl⟩
  | connectTaskConnects i stopped results =>
      simp only [next] at h
      split at h <;> obtain rfl := Option.some.inj h <;> exact ⟨[], rfl⟩
  | taskPasses id ok =>
      rw [next] at h
      by_cases hconnecting : s.Connecting id
      · rw [if_pos hconnecting] at h
        obtain rfl := Option.some.inj h
        exact ⟨[], rfl⟩
      · rw [if_neg hconnecting] at h
        obtain rfl := Option.some.inj h
        exact ⟨[.task id (if ok then .finished else .failed)], rfl⟩
  | datagram id m r padding E =>
      simp only [next] at h
      split_ifs at h
      · split at h
        · exact absurd h (by simp)
        · obtain rfl := Option.some.inj h
          exact ⟨[.task id .getUpdateVersionAck], rfl⟩
        · obtain rfl := Option.some.inj h
          exact ⟨[.task id .finished], rfl⟩
      · obtain rfl := Option.some.inj h
        exact ⟨[], rfl⟩
  | request id m padding E =>
      simp only [next] at h
      split_ifs at h
      · obtain rfl := Option.some.inj h
        exact ⟨[.task id .connectToAp], rfl⟩
      · obtain rfl := Option.some.inj h
        exact ⟨[.task id .finished], rfl⟩
      · obtain rfl := Option.some.inj h
        exact ⟨[], rfl⟩
  | connectToDefaultAp id results E =>
      simp only [next] at h
      split_ifs at h
      · obtain rfl := Option.some.inj h
        exact ⟨[.task id .finished], rfl⟩
      · obtain rfl := Option.some.inj h
        exact ⟨[], rfl⟩
  | expire j =>
      obtain rfl := Option.some.inj h
      exact ⟨[.expire j], rfl⟩
  | wake j =>
      obtain rfl := Option.some.inj h
      exact ⟨[.wake j], rfl⟩
  | restart => exact absurd h (by simp [next])

/-- The flags, event bits and tasks of a device are those of a run of poll
mode. -/
theorem exists_pollMode_run (disk : Disk) (moves : List Move) :
    ∃ actions, (run sha256 own disk moves).volatile.poll = PollMode.run actions := by
  induction moves using List.reverseRecOn with
  | nil => exact ⟨[], rfl⟩
  | append_singleton moves v ih =>
      obtain ⟨actions, hactions⟩ := ih
      have hmore : ∃ more : List PollMode.Action,
          ((run sha256 own disk moves).step sha256 own v).volatile.poll =
            more.foldl PollMode.step (run sha256 own disk moves).volatile.poll := by
        rw [step]
        cases hmemory : (run sha256 own disk moves).memoryAfter sha256 own v with
        | none => exact ⟨[.restart], rfl⟩
        | some memory =>
            cases v with
            | does a => exact exists_pollActions_next hmemory
            | powerLoss a done k debris => exact absurd hmemory (by simp [memoryAfter])
      obtain ⟨more, hmore⟩ := hmore
      refine ⟨actions ++ more, ?_⟩
      rw [run, List.foldl_append, List.foldl_cons, List.foldl_nil, ← run, hmore, hactions,
        PollMode.run, PollMode.run, List.foldl_append]

end PAnkerDevice

end AnkerUpdater
