import AnkerUpdater.Lib.HandleLog
import AnkerUpdater.Protocol.PollMode

/-!
# The sockets of poll mode

What the UDP and the TCP task of a P-Anker do with their sockets while poll
mode is started and stopped.  Every task numbers the sockets it opens.  The
variable `client_sock` is not reset when the socket is closed.
-/

namespace AnkerUpdater

open HandleLog Runs

inductive SocketOp where
  | setsockopt
  | bind
  | listen
  | accept
  | recv
  | sendto
  deriving DecidableEq

/-- The variables `broadcast_socket` and `ack_socket` of the UDP task, or
`server_sock` and `client_sock` of the TCP task; `none` is -1. -/
structure TaskSockets where
  first : Option ℕ
  second : Option ℕ
  opened : ℕ
  log : List (Event ℕ SocketOp)

namespace TaskSockets

def init : TaskSockets := ⟨none, none, 0, []⟩

variable (v : TaskSockets)

def openFirst : TaskSockets :=
  { v with first := some v.opened, opened := v.opened + 1, log := v.log ++ [.opened v.opened] }

def openSecond : TaskSockets :=
  { v with second := some v.opened, opened := v.opened + 1, log := v.log ++ [.opened v.opened] }

def useFirst (op : SocketOp) : TaskSockets := { v with log := v.log ++ [.used op v.first] }

def useSecond (op : SocketOp) : TaskSockets := { v with log := v.log ++ [.used op v.second] }

def closeFirst : TaskSockets := { v with log := v.log ++ [.closed v.first] }

def closeSecond : TaskSockets := { v with log := v.log ++ [.closed v.second] }

/-- What stands behind the label `exit`. -/
def exit : TaskSockets :=
  let v := if v.first.isSome then v.closeFirst else v
  if v.second.isSome then v.closeSecond else v

/-- One call before the loop; its failure leads to `exit`. -/
inductive SetupCall where
  | socketFirst
  | socketSecond
  | onFirst (op : SocketOp)
  | onSecond (op : SocketOp)

def setupCalls : PollKind → List SetupCall
  | .udp => [.socketFirst, .onFirst .setsockopt, .onFirst .setsockopt, .onFirst .bind,
      .socketSecond, .onSecond .setsockopt, .onSecond .setsockopt]
  | .tcp => [.socketFirst, .onFirst .setsockopt, .onFirst .setsockopt, .onFirst .bind,
      .onFirst .listen]

def call (ok : Bool) : SetupCall → TaskSockets
  | .socketFirst => if ok then v.openFirst else v
  | .socketSecond => if ok then v.openSecond else v
  | .onFirst op => v.useFirst op
  | .onSecond op => v.useSecond op

/-- The calls up to the first that fails, which comes after `succeed` others. -/
def setup : List SetupCall → ℕ → TaskSockets → TaskSockets
  | [], _, v => v
  | c :: _, 0, v => (v.call false c).exit
  | c :: calls, succeed + 1, v => setup calls succeed (v.call true c)

def acks : ℕ → TaskSockets → TaskSockets
  | 0, v => v
  | n + 1, v => acks n (v.useSecond .sendto)

/-- One pass of the loop of the UDP task, with the number of acks it sends. -/
def udpBody (numAcks : ℕ) : TaskSockets := acks numAcks (v.useFirst .recv)

/-- One pass of the loop of the TCP task. -/
def tcpBody (accepted : Bool) (numAcks : ℕ) : TaskSockets :=
  let v := v.useFirst .accept
  if accepted then (acks numAcks (v.openSecond.useSecond .recv)).closeSecond
  else { v with second := none }

end TaskSockets

/-- What the calls of a task come to: how many of the setup succeed, whether
`accept` returns a connection, how many acks the datagram or request is
answered with, and what else the pass does. -/
structure SocketEnv where
  succeed : ℕ
  accepted : Bool
  numAcks : ℕ
  result : PollMode.Result

structure SocketState where
  poll : PollMode
  sockets : ℕ → TaskSockets

/-- What can happen without a restart. -/
inductive SocketAction where
  | start (kind : PollKind)
  | startInstalled
  | updaterStop
  | connectTaskStops
  | expire (j : ℕ)
  | wake (j : ℕ)
  | task (id : ℕ) (E : SocketEnv)

namespace SocketState

variable (s : SocketState)

def powerOn : SocketState := ⟨.powerOn, fun _ ↦ .init⟩

/-- The outcome of the step of a task, as poll mode sees it. -/
def result (t : PollTask) (E : SocketEnv) : PollMode.Result :=
  if t.phase = .setup then
    if E.succeed < (TaskSockets.setupCalls t.kind).length then .failed else .finished
  else E.result

/-- The sockets of a task after its step. -/
def after (t : PollTask) (E : SocketEnv) : TaskSockets :=
  match t.phase with
  | .setup => .setup (TaskSockets.setupCalls t.kind) E.succeed (s.sockets t.id)
  | .test => if s.poll.running.get t.kind then s.sockets t.id else (s.sockets t.id).exit
  | .body =>
      match t.kind with
      | .udp => (s.sockets t.id).udpBody E.numAcks
      | .tcp => (s.sockets t.id).tcpBody E.accepted E.numAcks
  | .stopping => s.sockets t.id
  | .connecting => s.sockets t.id
  | .leaving => s.sockets t.id

def step : SocketAction → SocketState
  | .start kind => { s with poll := s.poll.step (.start kind) }
  | .startInstalled => { s with poll := s.poll.step .startInstalled }
  | .updaterStop => { s with poll := s.poll.step .updaterStop }
  | .connectTaskStops => { s with poll := s.poll.step .connectTaskStops }
  | .expire j => { s with poll := s.poll.step (.expire j) }
  | .wake j => { s with poll := s.poll.step (.wake j) }
  | .task id E =>
      match s.poll.tasks.find? fun t ↦ t.id = id with
      | none => s
      | some t => ⟨s.poll.step (.task id (result t E)), Function.update s.sockets id (s.after t E)⟩

def run (actions : List SocketAction) : SocketState := actions.foldl step powerOn

/-- A task that has ended has closed its sockets. -/
def NoneLeft : Prop :=
  ∀ id, id ∉ s.poll.alive → ∀ h, ¬Live (s.sockets id).log h

/-- The UDP task is deleted inside `p_anker_connect_to_default_ap`. -/
def DeletesUdpTask : SocketAction → Prop
  | .task id _ => ∃ t ∈ s.poll.tasks, t.id = id ∧ t.phase = .connecting
  | .expire j => ∃ c id, s.poll.waits[j]? = some c ∧ c.caller = .udpTask id ∧
      (s.poll.stopped.udp || s.poll.stopped.tcp) = false ∧ id ∈ s.poll.alive
  | _ => False

end SocketState

/-! ## One task -/

namespace TaskSockets

variable {v : TaskSockets} {op : SocketOp}

/-- Nothing else is open. -/
structure Sound (v : TaskSockets) : Prop where
  numbered : Numbered v.log v.opened
  disciplined : Disciplined v.log
  first : ∀ h, v.first = some h → Live v.log h
  distinct : ∀ h, v.first = some h → v.second ≠ some h
  onlyThese : ∀ h, Live v.log h → v.first = some h ∨ v.second = some h

/-- `second` is open as well, if it is set. -/
structure Opens (v : TaskSockets) : Prop extends Sound v where
  second : ∀ h, v.second = some h → Live v.log h

/-- The socket that `second` names has been closed, if it is set. -/
structure Listens (v : TaskSockets) : Prop extends Sound v where
  second : ∀ h, v.second = some h → ¬Live v.log h

theorem Sound.lt_opened (hv : v.Sound) {h : ℕ} (hh : Live v.log h) : h < v.opened :=
  hv.numbered.opened h hh.1

theorem opens_init : Opens init where
  numbered := numbered_nil
  disciplined := disciplined_nil
  first := by simp [init]
  second := by simp [init]
  distinct := by simp [init]
  onlyThese := by simp [init, Live]

theorem Opens.openFirst (hv : v.Opens) (hnone : v.first = none) : v.openFirst.Opens where
  numbered := hv.numbered.append_opened
  disciplined := disciplined_append.mpr ⟨hv.disciplined, hv.numbered.allowed_opened⟩
  first h hh := hv.numbered.live_append_opened.mpr (.inr (Option.some.inj hh).symm)
  second h hh := hv.numbered.live_append_opened.mpr (.inl (hv.second h hh))
  distinct h hh hsecond := by
    obtain rfl := Option.some.inj hh
    exact (hv.lt_opened (hv.second _ hsecond)).false
  onlyThese h hh := by
    rcases hv.numbered.live_append_opened.mp hh with hh | rfl
    · exact .inr ((hv.onlyThese h hh).resolve_left (by simp [hnone]))
    · exact .inl rfl

/-- Only a socket that is closed may be forgotten. -/
theorem Sound.openSecond (hv : v.Sound) (hclosed : ∀ h, v.second = some h → ¬Live v.log h) :
    v.openSecond.Opens where
  numbered := hv.numbered.append_opened
  disciplined := disciplined_append.mpr ⟨hv.disciplined, hv.numbered.allowed_opened⟩
  first h hh := hv.numbered.live_append_opened.mpr (.inl (hv.first h hh))
  second h hh := hv.numbered.live_append_opened.mpr (.inr (Option.some.inj hh).symm)
  distinct h hh hsecond := by
    obtain rfl := Option.some.inj hsecond
    exact (hv.lt_opened (hv.first _ hh)).false
  onlyThese h hh := by
    rcases hv.numbered.live_append_opened.mp hh with hh | rfl
    · exact .inl ((hv.onlyThese h hh).resolve_right fun hsecond ↦ hclosed h hsecond hh)
    · exact .inr rfl

theorem Sound.use (hv : v.Sound) {used : Option ℕ}
    (hused : ∃ h, used = some h ∧ Live v.log h) :
    Sound { v with log := v.log ++ [.used op used] } where
  numbered := hv.numbered.append_used op used
  disciplined := disciplined_append.mpr ⟨hv.disciplined, hused⟩
  first h hh := (live_append_used op used).mpr (hv.first h hh)
  distinct := hv.distinct
  onlyThese h hh := hv.onlyThese h ((live_append_used op used).mp hh)

theorem Opens.useFirst (hv : v.Opens) (hsome : v.first.isSome) : (v.useFirst op).Opens := by
  obtain ⟨h, hh⟩ := Option.isSome_iff_exists.mp hsome
  exact ⟨hv.use ⟨h, hh, hv.first h hh⟩,
    fun h hh ↦ (live_append_used op v.first).mpr (hv.second h hh)⟩

theorem Opens.useSecond (hv : v.Opens) (hsome : v.second.isSome) : (v.useSecond op).Opens := by
  obtain ⟨h, hh⟩ := Option.isSome_iff_exists.mp hsome
  exact ⟨hv.use ⟨h, hh, hv.second h hh⟩,
    fun h hh ↦ (live_append_used op v.second).mpr (hv.second h hh)⟩

theorem Opens.acks (hv : v.Opens) (hsome : v.second.isSome) (n : ℕ) :
    (TaskSockets.acks n v).Opens ∧ (TaskSockets.acks n v).second.isSome ∧
      (TaskSockets.acks n v).first = v.first := by
  induction n generalizing v with
  | zero => exact ⟨hv, hsome, rfl⟩
  | succ n ih => exact ih (hv.useSecond hsome) hsome

theorem Opens.closeSecond (hv : v.Opens) (hsome : v.second.isSome) : v.closeSecond.Listens := by
  obtain ⟨h, hh⟩ := Option.isSome_iff_exists.mp hsome
  have hlive := hv.second h hh
  have hlog : v.closeSecond.log = v.log ++ [.closed (some h)] := by
    rw [TaskSockets.closeSecond, hh]
  refine ⟨⟨?_, ?_, ?_, hv.distinct, ?_⟩, ?_⟩
  · rw [hlog]
    exact hv.numbered.append_closed (hv.lt_opened hlive)
  · rw [hlog]
    exact disciplined_append.mpr ⟨hv.disciplined, h, rfl, hlive⟩
  · intro h' hh'
    rw [hlog]
    refine live_append_closed.mpr ⟨hv.first h' hh', ?_⟩
    rintro rfl
    exact hv.distinct h' hh' hh
  · intro h' hh'
    rw [hlog] at hh'
    exact hv.onlyThese h' (live_append_closed.mp hh').1
  · intro h' hh' hlive'
    rw [hlog] at hlive'
    exact (live_append_closed.mp hlive').2 (Option.some.inj (hh'.symm.trans hh))

theorem Sound.closeFirst (hv : v.Sound) :
    Disciplined (if v.first.isSome then v.closeFirst else v).log ∧
      ∀ h, Live (if v.first.isSome then v.closeFirst else v).log h ↔
        Live v.log h ∧ v.second = some h := by
  cases hfirst : v.first with
  | none =>
      refine ⟨hv.disciplined, fun h ↦ (and_iff_left_of_imp fun hh ↦ ?_).symm⟩
      exact (hv.onlyThese h hh).resolve_left (by simp [hfirst])
  | some a =>
      have hlive := hv.first a hfirst
      have hlog : v.closeFirst.log = v.log ++ [.closed (some a)] := by
        rw [TaskSockets.closeFirst, hfirst]
      rw [if_pos (Option.isSome_some), hlog]
      refine ⟨disciplined_append.mpr ⟨hv.disciplined, a, rfl, hlive⟩, fun h ↦ ?_⟩
      rw [live_append_closed]
      refine and_congr_right fun hh ↦ ⟨fun hne ↦ ?_, fun hsecond heq ↦ ?_⟩
      · refine (hv.onlyThese h hh).resolve_left fun heq ↦ hne ?_
        exact Option.some.inj (heq.symm.trans hfirst)
      · exact hv.distinct h (by rw [hfirst, heq]) hsecond

/-- At `exit` everything is closed, and it is in order exactly if the second
socket, if there is one, is open. -/
theorem Sound.exit (hv : v.Sound) : (∀ h, ¬Live v.exit.log h) ∧
    (Disciplined v.exit.log ↔ ∀ h, v.second = some h → Live v.log h) := by
  obtain ⟨hdisciplined, hlive⟩ := hv.closeFirst
  have hsecond : (if v.first.isSome then v.closeFirst else v).second = v.second := by
    split_ifs <;> rfl
  rw [TaskSockets.exit]
  generalize (if v.first.isSome then v.closeFirst else v) = w at hdisciplined hlive hsecond ⊢
  rw [hsecond]
  cases hb : v.second with
  | none =>
      simp only [hb, reduceCtorEq, and_false, iff_false] at hlive
      exact ⟨hlive, iff_of_true hdisciplined (by simp)⟩
  | some b =>
      have hlog : w.closeSecond.log = w.log ++ [.closed (some b)] := by
        rw [TaskSockets.closeSecond, hsecond, hb]
      rw [if_pos (Option.isSome_some), hlog]
      constructor
      · intro h hh
        obtain ⟨hh, hne⟩ := live_append_closed.mp hh
        have heq := ((hlive h).mp hh).2
        rw [hb] at heq
        exact hne (Option.some.inj heq).symm
      · have hallowed : Allowed w.log (.closed (some b)) ↔ Live w.log b := by simp [Allowed]
        rw [disciplined_append, and_iff_right hdisciplined, hallowed, hlive, and_iff_left hb]
        simp

/-! ## The steps of a task -/

/-- Which variables the calls set, if every call finds its socket open. -/
def covers : Bool → Bool → List SetupCall → Option (Bool × Bool)
  | first, second, [] => some (first, second)
  | first, second, .socketFirst :: calls => if first then none else covers true second calls
  | first, second, .socketSecond :: calls => if second then none else covers first true calls
  | first, second, .onFirst _ :: calls => if first then covers first second calls else none
  | first, second, .onSecond _ :: calls => if second then covers first second calls else none

/-- A task that has run through `exit`. -/
structure Closed (v : TaskSockets) : Prop where
  disciplined : Disciplined v.log
  none : ∀ h, ¬Live v.log h

theorem Opens.exit (hv : v.Opens) : v.exit.Closed :=
  ⟨hv.toSound.exit.2.mpr hv.second, hv.toSound.exit.1⟩

theorem Opens.setup {calls : List SetupCall} {flags : Bool × Bool} (hv : v.Opens)
    (hcovers : covers v.first.isSome v.second.isSome calls = some flags) (succeed : ℕ) :
    (succeed < calls.length → (TaskSockets.setup calls succeed v).Closed) ∧
      (calls.length ≤ succeed → (TaskSockets.setup calls succeed v).Opens ∧
        (TaskSockets.setup calls succeed v).first.isSome = flags.1 ∧
        (TaskSockets.setup calls succeed v).second.isSome = flags.2) := by
  induction calls generalizing v succeed with
  | nil =>
      obtain rfl := Option.some.inj hcovers
      exact ⟨fun hlt ↦ absurd hlt (Nat.not_lt_zero succeed), fun _ ↦ ⟨hv, rfl, rfl⟩⟩
  | cons c calls ih =>
      have hcall : (v.call true c).Opens ∧ (v.call false c).Opens ∧
          covers (v.call true c).first.isSome (v.call true c).second.isSome calls = some flags := by
        cases c with
        | socketFirst =>
            obtain ⟨hnone, hcalls⟩ := by simpa [covers] using hcovers
            exact ⟨hv.openFirst hnone, hv, hcalls⟩
        | socketSecond =>
            obtain ⟨hnone, hcalls⟩ := by simpa [covers] using hcovers
            exact ⟨hv.toSound.openSecond (by simp [hnone]), hv, hcalls⟩
        | onFirst op =>
            obtain ⟨hsome, hcalls⟩ :=
              by simpa only [covers, Option.ite_none_right_eq_some] using hcovers
            exact ⟨hv.useFirst hsome, hv.useFirst hsome, hcalls⟩
        | onSecond op =>
            obtain ⟨hsome, hcalls⟩ :=
              by simpa only [covers, Option.ite_none_right_eq_some] using hcovers
            exact ⟨hv.useSecond hsome, hv.useSecond hsome, hcalls⟩
      obtain ⟨hok, hfailed, hcalls⟩ := hcall
      cases succeed with
      | zero => exact ⟨fun _ ↦ hfailed.exit, fun hle ↦ absurd hle (Nat.not_succ_le_zero _)⟩
      | succ succeed =>
          obtain ⟨hclosed, hopens⟩ := ih hok hcalls succeed
          exact ⟨fun hlt ↦ hclosed (Nat.lt_of_succ_lt_succ hlt),
            fun hle ↦ hopens (Nat.le_of_succ_le_succ hle)⟩

/-- A task in its loop. -/
def Ready : PollKind → TaskSockets → Prop
  | .udp, v => v.Opens ∧ v.first.isSome ∧ v.second.isSome
  | .tcp, v => v.Listens ∧ v.first.isSome

theorem Ready.sound {kind : PollKind} (hv : Ready kind v) : v.Sound := by
  cases kind with
  | udp => exact hv.1.toSound
  | tcp => exact hv.1.toSound

theorem Ready.first {kind : PollKind} (hv : Ready kind v) : v.first.isSome := by
  cases kind with
  | udp => exact hv.2.1
  | tcp => exact hv.2

theorem ready_setup (kind : PollKind) (succeed : ℕ) :
    (succeed < (setupCalls kind).length →
      (TaskSockets.setup (setupCalls kind) succeed init).Closed) ∧
    ((setupCalls kind).length ≤ succeed →
      Ready kind (TaskSockets.setup (setupCalls kind) succeed init)) := by
  cases kind with
  | udp =>
      have hcovers : covers init.first.isSome init.second.isSome (setupCalls .udp) =
          some (true, true) := rfl
      exact opens_init.setup hcovers succeed
  | tcp =>
      have hcovers : covers init.first.isSome init.second.isSome (setupCalls .tcp) =
          some (true, false) := rfl
      obtain ⟨hclosed, hopens⟩ := opens_init.setup hcovers succeed
      refine ⟨hclosed, fun hle ↦ ?_⟩
      obtain ⟨hopens, hfirst, hsecond⟩ := hopens hle
      refine ⟨⟨hopens.toSound, fun h hh ↦ ?_⟩, hfirst⟩
      simp [hh] at hsecond

theorem Ready.udpBody (hv : Ready .udp v) (n : ℕ) : Ready .udp (v.udpBody n) := by
  obtain ⟨hopens, hfirst, hsecond⟩ := hv
  have hrecv : (v.useFirst .recv).Opens := hopens.useFirst hfirst
  obtain ⟨hacks, hsecond', heq⟩ := hrecv.acks hsecond n
  exact ⟨hacks, by rw [TaskSockets.udpBody, heq]; exact hfirst, hsecond'⟩

theorem Ready.tcpBody (hv : Ready .tcp v) (accepted : Bool) (n : ℕ) :
    Ready .tcp (v.tcpBody accepted n) := by
  obtain ⟨hlistens, hfirst⟩ := hv
  obtain ⟨h, hh⟩ := Option.isSome_iff_exists.mp hfirst
  have haccept : (v.useFirst .accept).Sound := hlistens.use ⟨h, hh, hlistens.first h hh⟩
  have hclosed : ∀ h, (v.useFirst .accept).second = some h → ¬Live (v.useFirst .accept).log h :=
    fun h hsecond hlive ↦ hlistens.second h hsecond ((live_append_used _ _).mp hlive)
  rw [TaskSockets.tcpBody]
  split_ifs
  · have hrecv : ((v.useFirst .accept).openSecond.useSecond .recv).Opens :=
      (haccept.openSecond hclosed).useSecond rfl
    obtain ⟨hacks, hsecond, heq⟩ := hrecv.acks rfl n
    refine ⟨hacks.closeSecond hsecond, ?_⟩
    rw [TaskSockets.closeSecond, heq]
    exact hfirst
  · refine ⟨⟨⟨haccept.numbered, haccept.disciplined, haccept.first, by simp, ?_⟩, by simp⟩, hfirst⟩
    intro h hlive
    exact .inl ((haccept.onlyThese h hlive).resolve_right fun hsecond ↦ hclosed h hsecond hlive)

end TaskSockets

end AnkerUpdater
