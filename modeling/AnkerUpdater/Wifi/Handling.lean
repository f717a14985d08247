import AnkerUpdater.Lib.Runs
import AnkerUpdater.Protocol.Messages

/-!
# The WiFi handling task

`wifi_handling_task` with its event bits, `change_config`, the event handler
of the driver, and `wifi_connect_to_ap` and `wifi_create_ap`, which are called
one after the other.  Setting a bit ends at once the waits that it satisfies
and clears the bits they asked for; a wait that times out tests them again.
-/

namespace AnkerUpdater.Wifi

def apSsidSize : ℕ := 32

def apPasswordSize : ℕ := 32

def maxAttemptsOfReconnects : ℕ := 5

structure Credentials where
  ssid : List UInt8
  password : List UInt8
  deriving DecidableEq

/-- `SSID` and `PASSWORD`. -/
def defaultCredentials : Credentials := ⟨[], []⟩

/-- What `strncpy` leaves in the buffer, or the terminator for NULL. -/
def storedString (req : Option (List UInt8)) (size : ℕ) : List UInt8 :=
  cString ((req.getD []).take size)

inductive Request where
  | connect
  | createAp
  deriving DecidableEq, Repr

structure StatusBits where
  connect : Bool
  createAp : Bool
  connectionLost : Bool
  disconnected : Bool
  processDone : Bool
  accepted : Bool
  rejected : Bool
  deriving DecidableEq

def StatusBits.none : StatusBits := ⟨false, false, false, false, false, false, false⟩

def StatusBits.get (b : StatusBits) : Request → Bool
  | .connect => b.connect
  | .createAp => b.createAp

def StatusBits.request (b : StatusBits) : Request → StatusBits
  | .connect => { b with connect := true }
  | .createAp => { b with createAp := true }

def StatusBits.answer (b : StatusBits) (accepted : Bool) : StatusBits :=
  if accepted then { b with accepted := true } else { b with rejected := true }

inductive HandlingEvent where
  | none
  | connectToDefaultAp
  | connectToCAnkerAp
  deriving DecidableEq, Repr

/-- Where the task stands.  ST_IDLE is `idle` to `request`, ST_CONNECT is
`connect` to `connectionResult`, with the label `retry` in it. -/
inductive Handling where
  | created
  | idle
  | waitingForRequest
  | requestTimedOut
  | request (ux : StatusBits)
  | changeToAp
  | connect
  | retry
  | connecting
  | waitingForConnection
  | connectionTimedOut
  | connectionResult (ux : StatusBits)
  | ended
  deriving DecidableEq

structure Call where
  id : ℕ
  request : Request
  credentials : Credentials
  deriving DecidableEq

/-- Where `wifi_connect_to_ap` or `wifi_create_ap` stands: the credentials
are stored, the reply bits are cleared, the request bit is set, the call
waits for a reply, its 10 s are over, its wait has ended. -/
inductive Caller where
  | free
  | stored (call : Call)
  | cleared (call : Call)
  | requested (call : Call)
  | waiting (call : Call)
  | timedOut (call : Call)
  | woken (call : Call) (accepted : Bool)
  deriving DecidableEq

inductive Event where
  | idle
  | taken (request : Request)
  | completed (request : Request) (config : Credentials)
  | answered (request : Request) (accepted : Bool)
  | requested (call : Call)
  | returned (call : Call) (ok : Bool)
  | expired (call : Call)
  deriving DecidableEq

/-- `eventHandler` holds the reason of a disconnect whose bit is set and
which the event handler has still to look at. -/
structure State where
  handlerActive : Bool
  handling : Handling
  event : HandlingEvent
  bits : StatusBits
  staActive : Bool
  apActive : Bool
  reconnect : Bool
  attemptsReconnect : ℕ
  config : Credentials
  stored : Credentials
  eventHandler : Option ℕ
  caller : Caller
  calls : ℕ
  trace : List Event
  deriving DecidableEq

/-- The driver calls of one step that return ESP_OK. -/
structure Driver where
  wifiStop : Bool
  setMode : Bool
  setConfig : Bool
  wifiStart : Bool
  staGetApInfo : Bool
  apGetStaList : Bool
  deriving DecidableEq

namespace State

def powerOn : State where
  handlerActive := false
  handling := .created
  event := .connectToDefaultAp
  bits := .none
  staActive := false
  apActive := false
  reconnect := false
  attemptsReconnect := 0
  config := ⟨[], []⟩
  stored := ⟨[], []⟩
  eventHandler := none
  caller := .free
  calls := 0
  trace := []

def emit (s : State) (events : List Event) : State := { s with trace := s.trace ++ events }

/-! ## Event bits -/

def takenEvents (bits : StatusBits) : List Event :=
  (if bits.connect then [.taken .connect] else []) ++
    if bits.createAp then [.taken .createAp] else []

/-- The wait of ST_IDLE. -/
def waitForRequest (s : State) (timedOut : Bool) : State :=
  if s.bits.connectionLost || s.bits.connect || s.bits.createAp then
    { s with
      handling := .request s.bits
      bits := { s.bits with connectionLost := false, connect := false, createAp := false }
    }.emit (takenEvents s.bits)
  else { s with handling := if timedOut then .request s.bits else .waitingForRequest }

/-- The wait of ST_CONNECT. -/
def waitForConnection (s : State) (timedOut : Bool) : State :=
  if s.bits.processDone || s.bits.disconnected then
    { s with
      handling := .connectionResult s.bits
      bits := { s.bits with processDone := false, disconnected := false } }
  else { s with handling := if timedOut then .connectionResult s.bits else .waitingForConnection }

def wakeHandling (s : State) : State :=
  match s.handling with
  | .waitingForRequest => s.waitForRequest false
  | .waitingForConnection => s.waitForConnection false
  | _ => s

/-- The wait of a call. -/
def waitForReply (s : State) (call : Call) (timedOut : Bool) : State :=
  if s.bits.accepted || s.bits.rejected then
    { s with
      caller := .woken call s.bits.accepted
      bits := { s.bits with accepted := false, rejected := false } }
  else if timedOut then { s with caller := .free }.emit [.expired call]
  else { s with caller := .waiting call }

def wakeCaller (s : State) : State :=
  match s.caller with
  | .waiting call => s.waitForReply call false
  | _ => s

/-- `xEventGroupSetBits`. -/
def setBits (s : State) (bits : StatusBits) : State :=
  { s with bits := bits }.wakeHandling.wakeCaller

def answer (s : State) (request : Request) (accepted : Bool) : State :=
  (s.emit [.answered request accepted]).setBits (s.bits.answer accepted)

/-! ## The task -/

/-- What `change_config` copies into `config` for the station. -/
def staConfig (event : HandlingEvent) (stored : Credentials) : Credentials :=
  if event = .connectToDefaultAp ∨ stored.ssid = [] then defaultCredentials else stored

def changeConfig (s : State) (D : Driver) (sta : Bool) : Bool × State :=
  if sta then
    if !D.wifiStop then (false, s)
    else
      let s := { s with config := staConfig s.event s.stored }
      if !D.setMode || !D.setConfig || !D.wifiStart then (false, s)
      else (true, { s with staActive := true, apActive := false })
  else if s.stored.ssid = [] ∨ s.stored.password = [] then (false, s)
  else if !D.wifiStop || !D.setMode then (false, s)
  else
    let s := { s with config := s.stored }
    if !D.setConfig || !D.wifiStart then (false, s)
    else (true, { s with apActive := true, staActive := false })

/-- `change_config` touches the configuration and the station and AP flags. -/
theorem changeConfig_spec (s : State) (D : Driver) (sta : Bool) :
    ∃ config staActive apActive, (s.changeConfig D sta).2 =
        { s with config := config, staActive := staActive, apActive := apActive } ∧
      ((s.changeConfig D sta).1 = true →
        config = if sta then staConfig s.event s.stored else s.stored) := by
  rw [changeConfig]
  simp only
  split_ifs <;> exact ⟨_, _, _, rfl, by simp⟩

def toIdle (s : State) : State := { s with event := .none, handling := .idle }

def toConnect (s : State) (event : HandlingEvent) : State :=
  { s with event := event, handling := .connect }

/-- ST_IDLE after its wait. -/
def requestStep (s : State) (D : Driver) (ux : StatusBits) : State :=
  if ux.connectionLost then s.toConnect .connectToDefaultAp
  else if ux.connect then s.toConnect .connectToCAnkerAp
  else if ux.createAp then { s with event := .none, handling := .changeToAp }
  else if s.staActive then
    if D.staGetApInfo then s.toIdle.emit [.idle] else s.toConnect .connectToDefaultAp
  else if s.apActive then
    if D.apGetStaList then s.toIdle.emit [.idle] else s.toConnect .connectToDefaultAp
  else s.toConnect .connectToDefaultAp

def changeToApStep (s : State) (D : Driver) : State :=
  match s.changeConfig D false with
  | (false, s) => (s.toConnect .connectToDefaultAp).answer .createAp false
  | (true, s) =>
      ((s.toIdle.emit [.completed .createAp s.config]).answer .createAp true).emit [.idle]

def connectStep (s : State) (D : Driver) : State :=
  match s.changeConfig D true with
  | (false, s) =>
      let s := if s.event = .connectToCAnkerAp then s.answer .connect false else s
      s.toIdle.emit [.idle]
  | (true, s) => { s with handling := .retry }

def retryStep (s : State) : State :=
  { s with
    handling := .connecting
    bits := { s.bits with
      processDone := false, disconnected := false, rejected := false, accepted := false } }

/-- ST_CONNECT after its wait.  The last test comes after `cur_handling_event`
is overwritten. -/
def connectionResultStep (s : State) (ux : StatusBits) : State :=
  if ux.processDone then
    let s :=
      if s.event = .connectToCAnkerAp then
        (s.emit [.completed .connect s.config]).answer .connect true
      else s
    { s with attemptsReconnect := 0, reconnect := false }.toIdle.emit [.idle]
  else if ux.disconnected && s.reconnect then { s with handling := .retry }
  else
    let s := { s with reconnect := if ux.disconnected then s.reconnect else false }.toIdle
    let s := if s.event = .connectToCAnkerAp then s.answer .connect false else s
    s.emit [.idle]

def taskStep (s : State) (D : Driver) : State :=
  match s.handling with
  | .created =>
      { s with bits := .none, handling := if s.handlerActive then .connect else .ended }
  | .idle => s.waitForRequest false
  | .requestTimedOut => s.waitForRequest true
  | .request ux => s.requestStep D ux
  | .changeToAp => s.changeToApStep D
  | .connect => s.connectStep D
  | .retry => s.retryStep
  | .connecting => s.waitForConnection false
  | .connectionTimedOut => s.waitForConnection true
  | .connectionResult ux => s.connectionResultStep ux
  | .waitingForRequest | .waitingForConnection | .ended => s

def waitOver (s : State) : State :=
  match s.handling with
  | .waitingForRequest => { s with handling := .requestTimedOut }
  | .waitingForConnection => { s with handling := .connectionTimedOut }
  | _ => s

/-! ## The event handler -/

def assocLeave : ℕ := 8

/-- The disconnect reasons without a retry. -/
def noRetryReasons : List ℕ := [assocLeave, 13, 15, 17, 20, 21, 22, 53, 200, 10, 11, 207]

def staDisconnected (s : State) (reason : ℕ) : State :=
  { s with eventHandler := some reason }.setBits { s.bits with disconnected := true }

def eventHandlerContinues (s : State) (reason : ℕ) : State :=
  let s := { s with eventHandler := none }
  if reason ∉ noRetryReasons then
    if maxAttemptsOfReconnects ≤ s.attemptsReconnect then { s with reconnect := false }
    else { s with reconnect := true, attemptsReconnect := s.attemptsReconnect + 1 }
  else if reason ≠ assocLeave then { s with reconnect := false, attemptsReconnect := 0 }
  else s

/-! ## The calls -/

def storesCall (s : State) (request : Request) (credentials : Credentials) : State :=
  { s with
    stored := credentials
    caller := .stored ⟨s.calls, request, credentials⟩
    calls := s.calls + 1 }

def connectToAp (s : State) (ssid password : Option (List UInt8)) : State :=
  s.storesCall .connect ⟨storedString ssid apSsidSize, storedString password apPasswordSize⟩

def createAp (s : State) (ssid password : Option (List UInt8)) : State :=
  if storedString ssid apSsidSize = [] ∨ storedString password apPasswordSize = [] then s
  else s.storesCall .createAp ⟨storedString ssid apSsidSize, storedString password apPasswordSize⟩

def callerStep (s : State) : State :=
  match s.caller with
  | .stored call =>
      { s with
        caller := .cleared call
        bits := { s.bits with accepted := false, rejected := false } }
  | .cleared call =>
      ({ s with caller := .requested call }.emit [.requested call]).setBits
        (s.bits.request call.request)
  | .requested call => s.waitForReply call false
  | .timedOut call => s.waitForReply call true
  | .woken call accepted => { s with caller := .free }.emit [.returned call accepted]
  | .free | .waiting _ => s

def callerWaitOver (s : State) : State :=
  match s.caller with
  | .waiting call => { s with caller := .timedOut call }
  | _ => s

/-! ## Runs -/

inductive Action where
  | handlerActive
  | task (D : Driver)
  | waitOver
  | staDisconnected (reason : ℕ)
  | eventHandlerContinues
  | gotIp
  | staStop
  | apStop
  | connectToAp (ssid password : Option (List UInt8))
  | createAp (ssid password : Option (List UInt8))
  | callerContinues
  | callerWaitOver
  deriving DecidableEq

def step (s : State) : Action → State
  | .handlerActive => { s with handlerActive := true }
  | .task D => s.taskStep D
  | .waitOver => s.waitOver
  | .staDisconnected reason => if s.eventHandler = none then s.staDisconnected reason else s
  | .eventHandlerContinues =>
      match s.eventHandler with
      | none => s
      | some reason => s.eventHandlerContinues reason
  | .gotIp =>
      if s.eventHandler = none then s.setBits { s.bits with processDone := true } else s
  | .staStop => if s.eventHandler = none then { s with staActive := false } else s
  | .apStop => if s.eventHandler = none then { s with apActive := false } else s
  | .connectToAp ssid password => if s.caller = .free then s.connectToAp ssid password else s
  | .createAp ssid password => if s.caller = .free then s.createAp ssid password else s
  | .callerContinues => s.callerStep
  | .callerWaitOver => s.callerWaitOver

def run (actions : List Action) : State := actions.foldl step powerOn

end State

end AnkerUpdater.Wifi
