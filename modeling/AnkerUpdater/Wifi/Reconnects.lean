import AnkerUpdater.Wifi.Answers

/-!
# Retries of a connection

One visit of ST_CONNECT jumps to `retry` as long as the event handler leaves
`reconnect` set.  The handler counts a disconnect with a retry reason, resets
the count for most of the others, and leaves everything as it is for
WIFI_REASON_ASSOC_LEAVE.
-/

namespace AnkerUpdater.Wifi

open Runs

/-- The task has passed the label `retry` and has not left ST_CONNECT. -/
def Handling.inVisit : Handling → Bool
  | .retry | .connecting | .waitingForConnection | .connectionTimedOut | .connectionResult _ => true
  | _ => false

/-- The task is about to jump to `retry`. -/
def State.retries (s : State) : Bool :=
  match s.handling with
  | .connectionResult ux => !ux.processDone && ux.disconnected && s.reconnect
  | _ => false

/-- A visit of ST_CONNECT: its jumps to `retry`, whether the event handler
has counted an attempt since the last one, and whether it has reset the
count. -/
structure Visit where
  jumps : ℕ
  counted : Bool
  reset : Bool
  deriving DecidableEq

def Visit.start : Visit := ⟨0, false, false⟩

/-- The event handler has dealt with a disconnect. -/
def Visit.handled (v : Visit) (attempts reason : ℕ) : Visit :=
  if reason ∉ State.noRetryReasons then
    if maxAttemptsOfReconnects ≤ attempts then v else { v with counted := true }
  else if reason ≠ State.assocLeave then { v with reset := true }
  else v

structure Visited where
  state : State
  visit : Visit
  deriving DecidableEq

namespace Visited

def powerOn : Visited := ⟨.powerOn, .start⟩

def nextVisit (x : Visited) : State.Action → Visit
  | .task _ =>
      if x.state.retries then { x.visit with jumps := x.visit.jumps + 1, counted := false }
      else x.visit
  | .eventHandlerContinues =>
      x.state.eventHandler.elim x.visit (x.visit.handled x.state.attemptsReconnect)
  | _ => x.visit

def step (x : Visited) (a : State.Action) : Visited where
  state := x.state.step a
  visit := if (x.state.step a).handling.inVisit then x.nextVisit a else .start

def run (actions : List State.Action) : Visited := actions.foldl step powerOn

/-- A jump to `retry` follows a disconnect that the event handler has counted
since the last jump, and the handler counts no disconnect after it has reset
the count in the same visit. -/
def Counts (x : Visited) : State.Action → Prop
  | .task _ => x.state.retries = true → x.visit.counted = true
  | .eventHandlerContinues =>
      ∀ reason ∈ x.state.eventHandler, reason ∉ State.noRetryReasons → x.visit.reset = false
  | _ => True

instance (x : Visited) : (a : State.Action) → Decidable (x.Counts a)
  | .task _ => inferInstanceAs (Decidable (x.state.retries = true → x.visit.counted = true))
  | .eventHandlerContinues =>
      inferInstanceAs (Decidable (∀ reason ∈ x.state.eventHandler,
        reason ∉ State.noRetryReasons → x.visit.reset = false))
  | .handlerActive | .waitOver | .staDisconnected _ | .gotIp | .staStop | .apStop
  | .connectToAp _ _ | .createAp _ _ | .callerContinues | .callerWaitOver => .isTrue trivial

theorem run_state (actions : List State.Action) : (run actions).state = State.run actions := by
  induction actions using List.reverseRecOn with
  | nil => rfl
  | append_singleton actions a ih =>
      rw [run, List.foldl_append, State.run, List.foldl_append]
      exact congrArg (fun s ↦ State.step s a) ih

end Visited

namespace State

variable {s : State}

/-! ## What changes `reconnect` and `attempts_reconnect` -/

def counters (s : State) : Bool × ℕ := (s.reconnect, s.attemptsReconnect)

@[simp] theorem counters_emit (events : List Event) : (s.emit events).counters = s.counters := rfl

@[simp] theorem counters_toIdle : s.toIdle.counters = s.counters := rfl

@[simp] theorem counters_toConnect (event : HandlingEvent) :
    (s.toConnect event).counters = s.counters := rfl

@[simp] theorem counters_waitForRequest (timedOut : Bool) :
    (s.waitForRequest timedOut).counters = s.counters := by
  rw [waitForRequest]
  split_ifs <;> rfl

@[simp] theorem counters_waitForConnection (timedOut : Bool) :
    (s.waitForConnection timedOut).counters = s.counters := by
  rw [waitForConnection]
  split_ifs <;> rfl

@[simp] theorem counters_waitForReply (call : Call) (timedOut : Bool) :
    (s.waitForReply call timedOut).counters = s.counters := by
  rw [waitForReply]
  split_ifs <;> rfl

@[simp] theorem counters_wakeHandling : s.wakeHandling.counters = s.counters := by
  rw [wakeHandling]
  split <;> simp

@[simp] theorem counters_wakeCaller : s.wakeCaller.counters = s.counters := by
  rw [wakeCaller]
  split <;> simp

@[simp] theorem counters_setBits (bits : StatusBits) : (s.setBits bits).counters = s.counters := by
  rw [setBits, counters_wakeCaller, counters_wakeHandling]
  rfl

@[simp] theorem counters_answer (request : Request) (accepted : Bool) :
    (s.answer request accepted).counters = s.counters := by
  rw [answer, counters_setBits, counters_emit]

@[simp] theorem counters_changeConfig (D : Driver) (sta : Bool) :
    (s.changeConfig D sta).2.counters = s.counters := by
  obtain ⟨config, staActive, apActive, heq, -⟩ := s.changeConfig_spec D sta
  rw [heq]
  rfl

@[simp] theorem counters_requestStep (D : Driver) (ux : StatusBits) :
    (s.requestStep D ux).counters = s.counters := by
  rw [requestStep]
  split_ifs <;> rfl

@[simp] theorem counters_changeToApStep (D : Driver) : (s.changeToApStep D).counters = s.counters := by
  have hconfig := counters_changeConfig (s := s) D false
  rw [changeToApStep]
  split <;> rename_i heq <;> rw [heq] at hconfig <;> simpa using hconfig

@[simp] theorem counters_connectStep (D : Driver) : (s.connectStep D).counters = s.counters := by
  have hconfig := counters_changeConfig (s := s) D true
  rw [connectStep]
  split <;> rename_i heq <;> rw [heq] at hconfig
  · simp only [counters_emit, counters_toIdle]
    split_ifs <;> simpa using hconfig
  · exact hconfig

@[simp] theorem counters_callerStep : s.callerStep.counters = s.counters := by
  rw [callerStep]
  split
  · rfl
  · simp
    rfl
  · simp
  · simp
  · rfl
  · rfl
  · rfl

theorem connectionResultStep_leaves {ux : StatusBits} (hhandling : s.handling = .connectionResult ux)
    (hretries : s.retries = false) : (s.connectionResultStep ux).handling.inVisit = false ∧
      (s.connectionResultStep ux).attemptsReconnect ≤ s.attemptsReconnect := by
  by_cases hdone : ux.processDone = true
  · rw [connectionResultStep, if_pos hdone]
    exact ⟨rfl, Nat.zero_le _⟩
  · have hretry : (ux.disconnected && s.reconnect) = false := by
      simpa [retries, hhandling, hdone] using hretries
    rw [connectionResultStep, if_neg hdone, if_neg (by simp [hretry])]
    exact ⟨rfl, le_rfl⟩

/-- A step of the task jumps to `retry`, or leaves ST_CONNECT with no more
attempts, or touches neither `reconnect` nor the attempts. -/
theorem taskStep_cases (s : State) (D : Driver) :
    s.retries = true ∧ s.taskStep D = { s with handling := .retry } ∨
      s.retries = false ∧ ((s.taskStep D).counters = s.counters ∨
        (s.taskStep D).handling.inVisit = false ∧
          (s.taskStep D).attemptsReconnect ≤ s.attemptsReconnect) := by
  cases hhandling : s.handling with
  | connectionResult ux =>
      have hstep : s.taskStep D = s.connectionResultStep ux := by rw [taskStep, hhandling]
      rw [hstep]
      cases hretries : s.retries with
      | true =>
          have htest : ux.processDone = false ∧ ux.disconnected = true ∧ s.reconnect = true := by
            simpa [retries, hhandling, and_assoc] using hretries
          refine .inl ⟨rfl, ?_⟩
          simp [connectionResultStep, htest]
      | false => exact .inr ⟨rfl, .inr (connectionResultStep_leaves hhandling hretries)⟩
  | created | retry =>
      refine .inr ⟨by simp [retries, hhandling], .inl ?_⟩
      rw [taskStep, hhandling]
      rfl
  | waitingForRequest | waitingForConnection | ended =>
      refine .inr ⟨by simp [retries, hhandling], .inl ?_⟩
      rw [taskStep, hhandling]
  | _ =>
      refine .inr ⟨by simp [retries, hhandling], .inl ?_⟩
      rw [taskStep, hhandling]
      simp

/-- Steps of the others, the event handler apart, touch neither. -/
theorem step_counters (a : Action) (htask : ∀ D, a ≠ .task D) (hhandler : a ≠ .eventHandlerContinues) :
    (s.step a).counters = s.counters := by
  cases a with
  | task D => exact absurd rfl (htask D)
  | eventHandlerContinues => exact absurd rfl hhandler
  | handlerActive => rfl
  | waitOver =>
      change s.waitOver.counters = s.counters
      rw [waitOver]
      split <;> rfl
  | staDisconnected reason =>
      simp only [step, staDisconnected]
      split_ifs
      · exact counters_setBits _
      · rfl
  | gotIp =>
      simp only [step]
      split_ifs
      · exact counters_setBits _
      · rfl
  | staStop =>
      simp only [step]
      split_ifs <;> rfl
  | apStop =>
      simp only [step]
      split_ifs <;> rfl
  | connectToAp ssid password =>
      simp only [step]
      split_ifs <;> rfl
  | createAp ssid password =>
      simp only [step, createAp]
      split_ifs <;> rfl
  | callerContinues => exact counters_callerStep
  | callerWaitOver =>
      simp only [step, callerWaitOver]
      split <;> rfl

end State

namespace Visited

/-! ## The bound -/

structure Bounded (x : Visited) : Prop where
  attempts : x.state.attemptsReconnect ≤ maxAttemptsOfReconnects
  jumps : x.visit.jumps ≤ maxAttemptsOfReconnects
  counted : x.visit.reset = false →
    x.visit.jumps + (if x.visit.counted then 1 else 0) ≤ x.state.attemptsReconnect
  reset : x.visit.reset = true → x.state.reconnect = false

variable {x : Visited} {s : State}

theorem bounded_start (hattempts : s.attemptsReconnect ≤ maxAttemptsOfReconnects) :
    Bounded ⟨s, .start⟩ where
  attempts := hattempts
  jumps := Nat.zero_le _
  counted _ := Nat.zero_le _
  reset h := by cases h

theorem Bounded.congr (h : x.Bounded) (hcounters : s.counters = x.state.counters) :
    Bounded ⟨s, x.visit⟩ := by
  obtain ⟨hreconnect, hattempts⟩ := Prod.mk.inj hcounters
  exact ⟨hattempts ▸ h.attempts, h.jumps, fun hreset ↦ hattempts ▸ h.counted hreset,
    fun hreset ↦ hreconnect ▸ h.reset hreset⟩

/-- Outside of ST_CONNECT there is nothing to count. -/
theorem Bounded.ite {v : Visit} (h : Bounded ⟨s, v⟩) (inVisit : Bool) :
    Bounded ⟨s, if inVisit then v else .start⟩ := by
  cases inVisit with
  | true => exact h
  | false => exact bounded_start h.attempts

theorem Bounded.jump (h : x.Bounded) (hreconnect : x.state.reconnect = true)
    (hcounted : x.visit.counted = true) :
    Bounded ⟨{ x.state with handling := .retry },
      { x.visit with jumps := x.visit.jumps + 1, counted := false }⟩ := by
  have hnoReset : x.visit.reset = false := by
    by_contra hreset
    rw [h.reset (by simpa using hreset)] at hreconnect
    cases hreconnect
  have hone := h.counted hnoReset
  rw [if_pos hcounted] at hone
  exact ⟨h.attempts, hone.trans h.attempts, fun _ ↦ hone, h.reset⟩

theorem Bounded.handled (h : x.Bounded) {reason : ℕ}
    (hgood : reason ∉ State.noRetryReasons → x.visit.reset = false) :
    Bounded ⟨x.state.eventHandlerContinues reason,
      x.visit.handled x.state.attemptsReconnect reason⟩ := by
  rw [State.eventHandlerContinues, Visit.handled]
  dsimp only
  split_ifs with hrefused hleave hmax
  · exact ⟨Nat.zero_le _, h.jumps, fun hreset ↦ (by cases hreset), fun _ ↦ rfl⟩
  · exact ⟨h.attempts, h.jumps, h.counted, h.reset⟩
  · exact ⟨h.attempts, h.jumps, h.counted, fun _ ↦ rfl⟩
  · have hcount := h.counted (hgood hrefused)
    refine ⟨Nat.lt_of_not_le hmax, h.jumps, fun _ ↦ ?_, fun hreset ↦ ?_⟩
    · simp only [if_true]
      split_ifs at hcount <;> omega
    · rw [hgood hrefused] at hreset
      cases hreset

theorem Bounded.other (h : x.Bounded) {a : State.Action} (htask : ∀ D, a ≠ .task D)
    (hhandler : a ≠ .eventHandlerContinues) : (x.step a).Bounded := by
  have hvisit : x.nextVisit a = x.visit := by
    cases a with
    | task D => exact absurd rfl (htask D)
    | eventHandlerContinues => exact absurd rfl hhandler
    | _ => rfl
  rw [Visited.step, hvisit]
  exact (h.congr (State.step_counters a htask hhandler)).ite _

theorem Bounded.step (h : x.Bounded) {a : State.Action} (hgood : x.Counts a) : (x.step a).Bounded := by
  cases a with
  | task D =>
      rcases x.state.taskStep_cases D with ⟨hretries, heq⟩ | ⟨hretries, hcounters | ⟨hleft, hless⟩⟩
      · have hreconnect : x.state.reconnect = true := by
          rw [State.retries] at hretries
          split at hretries
          · simp only [Bool.and_eq_true] at hretries
            exact hretries.2
          · cases hretries
        have hjump := h.jump hreconnect (hgood hretries)
        rw [← heq] at hjump
        simp only [Visited.step, nextVisit, if_pos hretries]
        exact hjump.ite _
      · simp only [Visited.step, nextVisit, hretries, Bool.false_eq_true, if_false]
        exact (h.congr hcounters).ite _
      · simp only [Visited.step, State.step, hleft, Bool.false_eq_true, if_false]
        exact bounded_start (hless.trans h.attempts)
  | eventHandlerContinues =>
      cases hreason : x.state.eventHandler with
      | none =>
          simp only [Visited.step, State.step, nextVisit, hreason, Option.elim]
          exact (h.congr rfl).ite _
      | some reason =>
          simp only [Visited.step, State.step, nextVisit, hreason, Option.elim]
          exact (h.handled (hgood reason hreason)).ite _
  | _ => exact h.other (by simp) (by simp)

theorem bounded_powerOn : powerOn.Bounded := bounded_start (Nat.zero_le _)

end Visited

/-- A visit of ST_CONNECT jumps to `retry` as often as allowed at most, if
every jump follows a counted disconnect and the count is not taken up again
after a reset. -/
theorem jumps_le (actions : List State.Action)
    (h : Always Visited.step Visited.Counts Visited.powerOn actions) :
    (Visited.run actions).visit.jumps ≤ maxAttemptsOfReconnects :=
  (Runs.invariant Visited.Bounded (fun _ _ hx hgood ↦ hx.step hgood) Visited.bounded_powerOn h).jumps

/-- The task runs from the label `retry` through one disconnect back to it. -/
def disconnect (reason : ℕ) : List State.Action :=
  [.task okDriver, .task okDriver, .staDisconnected reason, .eventHandlerContinues, .task okDriver]

/-- The task has come to `retry` for the first time. -/
def firstTry : List State.Action := [.handlerActive, .task okDriver, .task okDriver]

/-- The access point is not found. -/
def notFound : List State.Action :=
  firstTry ++ (List.replicate maxAttemptsOfReconnects (disconnect 201)).flatten

theorem jumps_le_notFound : (Visited.run notFound).visit.jumps = 5 ∧
    (Visited.run notFound).visit.jumps ≤ maxAttemptsOfReconnects :=
  ⟨by decide, jumps_le notFound (by decide)⟩

/-- After one counted disconnect the access point leaves again and again. -/
def leaves : List State.Action :=
  firstTry ++ disconnect 201 ++ (List.replicate 5 (disconnect State.assocLeave)).flatten

theorem not_jumps_le_leaves :
    ¬∀ actions, (Visited.run actions).visit.jumps ≤ maxAttemptsOfReconnects := by
  intro h
  exact absurd (h leaves) (by decide)

end AnkerUpdater.Wifi
