import AnkerUpdater.Wifi.Handling

/-!
# Answers of the WiFi handling task

Every request that the task takes out of ST_IDLE should get one answer
before the task is back there.
-/

namespace AnkerUpdater.Wifi

open EventLog

/-! ## What the answers promise -/

def workStep (done : List Event) (e : Event) : List Event :=
  match e with
  | .idle => []
  | .taken _ | .completed _ _ | .answered _ _ => done ++ [e]
  | .requested _ | .returned _ _ | .expired _ => done

/-- What the task did for requests since it was last in ST_IDLE. -/
def work (trace : List Event) : List Event := trace.foldl workStep []

def answers (k : Request) (done : List Event) : List Bool :=
  done.filterMap fun e ↦
    match e with
    | .answered request accepted => if request = k then some accepted else none
    | _ => none

def completes (k : Request) (done : List Event) : Bool :=
  done.any fun e ↦
    match e with
    | .completed request _ => request = k
    | _ => false

/-- Each request taken has one answer, ACCEPTED exactly if it was completed. -/
def Answered (done : List Event) : Prop :=
  ∀ k, .taken k ∈ done → answers k done = [completes k done]

def AnsweredBeforeIdle (trace : List Event) : Prop :=
  EachAt (fun pre e ↦ e = .idle → Answered (work pre)) trace

/-- The pass of ST_CONNECT that ends the work for CONNECT_BIT has not taken
CREATE_AP_BIT with it, and its wait ends with a connection or a retry. -/
def State.Settles (s : State) : Action → Prop
  | .task D =>
      match s.handling with
      | .connect => s.event = .connectToCAnkerAp → (s.changeConfig D true).1 = false →
          .taken .createAp ∉ work s.trace
      | .connectionResult ux => s.event = .connectToCAnkerAp →
          if ux.processDone then .taken .createAp ∉ work s.trace
          else ux.disconnected = true ∧ s.reconnect = true
      | _ => True
  | _ => True

/-! ## The work of a phase -/

theorem work_append (trace more : List Event) :
    work (trace ++ more) = more.foldl workStep (work trace) :=
  List.foldl_append

/-- What the task may have done in ST_CONNECT. -/
inductive ConnectWork : HandlingEvent → List Event → Prop
  | request : ConnectWork .connectToCAnkerAp [.taken .connect]
  | both : ConnectWork .connectToCAnkerAp [.taken .connect, .taken .createAp]
  | default : ConnectWork .connectToDefaultAp []
  | rejected : ConnectWork .connectToDefaultAp [.taken .createAp, .answered .createAp false]

theorem answered_iff {done : List Event} : Answered done ↔
    (.taken .connect ∈ done → answers .connect done = [completes .connect done]) ∧
      (.taken .createAp ∈ done → answers .createAp done = [completes .createAp done]) := by
  constructor
  · exact fun h ↦ ⟨h .connect, h .createAp⟩
  · rintro ⟨hconnect, hcreate⟩ (_ | _)
    · exact hconnect
    · exact hcreate

section

variable {event : HandlingEvent} {done : List Event}

theorem ConnectWork.answered_rejected (h : ConnectWork event done)
    (hrequest : event = .connectToCAnkerAp) :
    Answered (done ++ [.answered .connect false]) ↔ .taken .createAp ∉ done := by
  cases h with
  | request => simp [answered_iff, answers, completes]
  | both => simp [answered_iff, answers, completes]
  | default => cases hrequest
  | rejected => cases hrequest

theorem ConnectWork.answered_accepted (h : ConnectWork event done)
    (hrequest : event = .connectToCAnkerAp) (config : Credentials) :
    Answered (done ++ [.completed .connect config, .answered .connect true]) ↔
      .taken .createAp ∉ done := by
  cases h with
  | request => simp [answered_iff, answers, completes]
  | both => simp [answered_iff, answers, completes]
  | default => cases hrequest
  | rejected => cases hrequest

/-- Without an answer the work is complete exactly if it is not for
CONNECT_BIT. -/
theorem ConnectWork.answered_unanswered (h : ConnectWork event done) :
    Answered done ↔ event ≠ .connectToCAnkerAp := by
  cases h with
  | request => simp [answered_iff, answers]
  | both => simp [answered_iff, answers]
  | default => simp [answered_iff]
  | rejected => simp [answered_iff, answers, completes]

end

/-- The work belongs to the phase, and nobody sets WIFI_CONNECTION_LOST_BIT. -/
def PhaseWork (handling : Handling) (event : HandlingEvent) (done : List Event) : Prop :=
  match handling with
  | .created => event = .connectToDefaultAp ∧ done = []
  | .idle | .waitingForRequest | .requestTimedOut | .ended => done = []
  | .request ux => ux.connectionLost = false ∧ done = State.takenEvents ux
  | .changeToAp => done = [.taken .createAp]
  | .connect | .retry | .connecting | .waitingForConnection | .connectionTimedOut
  | .connectionResult _ => ConnectWork event done

structure State.Working (s : State) : Prop where
  connectionLost : s.bits.connectionLost = false
  phase : PhaseWork s.handling s.event (work s.trace)

theorem answeredBeforeIdle_idle {trace : List Event} :
    AnsweredBeforeIdle (trace ++ [.idle]) ↔ AnsweredBeforeIdle trace ∧ Answered (work trace) := by
  rw [AnsweredBeforeIdle, eachAt_append_singleton]
  exact and_congr_right fun _ ↦ ⟨fun h ↦ h rfl, fun h _ ↦ h⟩

theorem answeredBeforeIdle_append {trace more : List Event} (h : .idle ∉ more) :
    AnsweredBeforeIdle (trace ++ more) ↔ AnsweredBeforeIdle trace := by
  rw [AnsweredBeforeIdle, eachAt_append, AnsweredBeforeIdle]
  apply and_iff_left
  intro pre e post hmore he
  subst he
  exact absurd (by simp [hmore]) h

theorem idle_notMem_takenEvents (bits : StatusBits) : .idle ∉ State.takenEvents bits := by
  rw [State.takenEvents]
  split_ifs <;> simp

theorem work_takenEvents {trace : List Event} (bits : StatusBits) :
    work (trace ++ State.takenEvents bits) = work trace ++ State.takenEvents bits := by
  rw [work_append]
  rw [State.takenEvents]
  split_ifs <;> simp [workStep]

namespace State

/-! ## Setting bits -/

variable {s : State}

theorem wakeHandling_eq (hrequest : s.handling ≠ .waitingForRequest)
    (hconnection : s.handling ≠ .waitingForConnection) : s.wakeHandling = s := by
  rw [wakeHandling]
  split
  · exact absurd ‹_› hrequest
  · exact absurd ‹_› hconnection
  · rfl

/-- Waking the caller changes the reply bits and the caller only. -/
theorem wakeCaller_frame (s : State) :
    s.wakeCaller.trace = s.trace ∧ s.wakeCaller.handling = s.handling ∧
      s.wakeCaller.event = s.event ∧
      s.wakeCaller.bits.connectionLost = s.bits.connectionLost := by
  rw [wakeCaller]
  split
  · simp only [waitForReply, Bool.false_eq_true, if_false]
    split_ifs <;> exact ⟨rfl, rfl, rfl, rfl⟩
  · exact ⟨rfl, rfl, rfl, rfl⟩

theorem setBits_eq (hrequest : s.handling ≠ .waitingForRequest)
    (hconnection : s.handling ≠ .waitingForConnection) (bits : StatusBits) :
    s.setBits bits = { s with bits := bits }.wakeCaller := by
  have hawake : { s with bits := bits }.wakeHandling = { s with bits := bits } :=
    wakeHandling_eq hrequest hconnection
  rw [setBits, hawake]

/-- Outside its waits an answer of the task wakes the caller only. -/
structure AnswersWith (s s' : State) (request : Request) (accepted : Bool) : Prop where
  trace : s'.trace = s.trace ++ [.answered request accepted]
  handling : s'.handling = s.handling
  event : s'.event = s.event
  connectionLost : s'.bits.connectionLost = s.bits.connectionLost

theorem answer_answersWith (hrequest : s.handling ≠ .waitingForRequest)
    (hconnection : s.handling ≠ .waitingForConnection) (request : Request) (accepted : Bool) :
    AnswersWith s (s.answer request accepted) request accepted := by
  have hlost : (s.bits.answer accepted).connectionLost = s.bits.connectionLost := by
    rw [StatusBits.answer]
    split_ifs <;> rfl
  rw [answer, setBits_eq (s := s.emit [.answered request accepted]) hrequest hconnection]
  obtain ⟨htrace, hhandling, hevent, hbits⟩ := wakeCaller_frame
    { s.emit [.answered request accepted] with bits := s.bits.answer accepted }
  exact ⟨htrace, hhandling, hevent, hbits.trans hlost⟩

/-! ## Steps -/

/-- A step after `before` keeps `Working`, and the answers stay complete
exactly if it is good. -/
structure Settled (before : List Event) (s : State) (good : Prop) : Prop where
  working : s.Working
  answered : AnsweredBeforeIdle s.trace ↔ AnsweredBeforeIdle before ∧ good

variable {before : List Event} {good good' : Prop}

theorem Settled.congr (h : Settled before s good) (hgood : good ↔ good') :
    Settled before s good' :=
  ⟨h.working, h.answered.trans (and_congr_right fun _ ↦ hgood)⟩

theorem Settled.of_append (more : List Event) (working : s.Working)
    (htrace : s.trace = before ++ more) (hmore : .idle ∉ more) : Settled before s True :=
  ⟨working, by rw [htrace, answeredBeforeIdle_append hmore, and_true]⟩

theorem Settled.of_trace_eq (working : s.Working) (htrace : s.trace = before) :
    Settled before s True :=
  ⟨working, by rw [htrace, and_true]⟩

theorem Settled.trans {s' : State} (h : Settled before s True) (h' : Settled s.trace s' good) :
    Settled before s' good :=
  ⟨h'.working, by rw [h'.answered, h.answered, and_true]⟩

/-- A return to ST_IDLE after `more` closes the work. -/
theorem Settled.idle (more : List Event) (hlost : s.bits.connectionLost = false)
    (hhandling : s.handling = .idle) (htrace : s.trace = before ++ more ++ [.idle])
    (hmore : .idle ∉ more) : Settled before s (Answered (work (before ++ more))) := by
  refine ⟨⟨hlost, ?_⟩, ?_⟩
  · rw [hhandling, htrace, work_append]
    rfl
  · rw [htrace, answeredBeforeIdle_idle, answeredBeforeIdle_append hmore]

theorem settled_waitForRequest (hlost : s.bits.connectionLost = false)
    (hwork : work s.trace = []) (timedOut : Bool) :
    Settled s.trace (s.waitForRequest timedOut) True := by
  rw [waitForRequest]
  split_ifs with hbits htimedOut
  · refine .of_append _ ⟨rfl, hlost, ?_⟩ rfl (idle_notMem_takenEvents s.bits)
    rw [emit, work_takenEvents, hwork, List.nil_append]
  · have hnone : takenEvents s.bits = [] := by simp_all [takenEvents]
    exact .of_trace_eq ⟨hlost, hlost, hwork.trans hnone.symm⟩ rfl
  · exact .of_trace_eq ⟨hlost, hwork⟩ rfl

theorem settled_waitForConnection (hlost : s.bits.connectionLost = false)
    (hwork : ConnectWork s.event (work s.trace)) (timedOut : Bool) :
    Settled s.trace (s.waitForConnection timedOut) True := by
  rw [waitForConnection]
  split_ifs <;> exact .of_trace_eq ⟨hlost, hwork⟩ rfl

theorem Working.settled_wakeHandling (h : s.Working) : Settled s.trace s.wakeHandling True := by
  have hphase := h.phase
  rw [wakeHandling]
  split
  · rename_i hhandling
    rw [hhandling] at hphase
    exact settled_waitForRequest h.connectionLost hphase false
  · rename_i hhandling
    rw [hhandling] at hphase
    exact settled_waitForConnection h.connectionLost hphase false
  · exact .of_trace_eq h rfl

theorem Settled.wakeCaller (h : Settled before s good) : Settled before s.wakeCaller good := by
  obtain ⟨htrace, hhandling, hevent, hlost⟩ := wakeCaller_frame s
  refine ⟨⟨hlost.trans h.working.connectionLost, ?_⟩, ?_⟩
  · rw [hhandling, hevent, htrace]
    exact h.working.phase
  · rw [htrace]
    exact h.answered

theorem Working.settled_setBits (h : s.Working) {bits : StatusBits}
    (hlost : bits.connectionLost = false) : Settled s.trace (s.setBits bits) True :=
  (Working.settled_wakeHandling (s := { s with bits := bits }) ⟨hlost, h.phase⟩).wakeCaller

theorem Working.requestStep (h : s.Working) {ux : StatusBits} (D : Driver)
    (hhandling : s.handling = .request ux) : Settled s.trace (s.requestStep D ux) True := by
  have hphase := h.phase
  rw [hhandling] at hphase
  obtain ⟨hlost, hwork⟩ := hphase
  rw [State.requestStep]
  rw [hlost]
  simp only [Bool.false_eq_true, if_false]
  by_cases hconnect : ux.connect = true
  · rw [if_pos hconnect]
    refine .of_trace_eq ⟨h.connectionLost, ?_⟩ rfl
    change ConnectWork .connectToCAnkerAp (work s.trace)
    rw [hwork, takenEvents, if_pos hconnect]
    split_ifs
    · exact .both
    · exact .request
  rw [if_neg hconnect]
  by_cases hcreate : ux.createAp = true
  · rw [if_pos hcreate]
    refine .of_trace_eq ⟨h.connectionLost, ?_⟩ rfl
    change work s.trace = [.taken .createAp]
    rw [hwork, takenEvents, if_neg hconnect, if_pos hcreate, List.nil_append]
  rw [if_neg hcreate]
  have hempty : work s.trace = [] := by
    rw [hwork, takenEvents, if_neg hconnect, if_neg hcreate, List.nil_append]
  have hdefault : Settled s.trace (s.toConnect .connectToDefaultAp) True := by
    refine .of_trace_eq ⟨h.connectionLost, ?_⟩ rfl
    change ConnectWork .connectToDefaultAp (work s.trace)
    rw [hempty]
    exact .default
  have hidle : Settled s.trace (s.toIdle.emit [.idle]) True := by
    have hanswered : Answered (work (s.trace ++ [])) := by
      rw [List.append_nil, hempty]
      simp [Answered]
    have hreturn : Settled s.trace (s.toIdle.emit [.idle]) (Answered (work (s.trace ++ []))) :=
      .idle [] h.connectionLost rfl (by simp [emit, toIdle]) (by simp)
    exact hreturn.congr (iff_true_intro hanswered)
  split_ifs
  · exact hidle
  · exact hdefault
  · exact hidle
  · exact hdefault
  · exact hdefault

theorem Working.changeToApStep (h : s.Working) (D : Driver) (hhandling : s.handling = .changeToAp) :
    Settled s.trace (s.changeToApStep D) True := by
  have hwork : work s.trace = [.taken .createAp] := by
    have hphase := h.phase
    rwa [hhandling] at hphase
  obtain ⟨config, staActive, apActive, hconfig, -⟩ := changeConfig_spec s D false
  rw [State.changeToApStep]
  rcases hresult : s.changeConfig D false with ⟨ok, s'⟩
  rw [hresult] at hconfig
  simp only at hconfig
  subst hconfig
  cases ok with
  | false =>
      have hanswer := answer_answersWith (s := State.toConnect { s with
        config := config, staActive := staActive, apActive := apActive } .connectToDefaultAp)
        Handling.noConfusion Handling.noConfusion .createAp false
      refine .of_append _ ⟨hanswer.connectionLost.trans h.connectionLost, ?_⟩ hanswer.trace
        (by simp)
      rw [hanswer.handling, hanswer.event, hanswer.trace, work_append]
      change ConnectWork .connectToDefaultAp ((work s.trace) ++ [.answered .createAp false])
      rw [hwork]
      exact .rejected
  | true =>
      have hanswer := answer_answersWith (s := (State.toIdle { s with
        config := config, staActive := staActive, apActive := apActive }).emit
        [.completed .createAp config]) Handling.noConfusion Handling.noConfusion .createAp true
      have hanswered : Answered (work (s.trace ++
          [.completed .createAp config, .answered .createAp true])) := by
        rw [work_append, hwork]
        simp [workStep, answered_iff, answers, completes]
      refine Settled.congr (.idle [.completed .createAp config, .answered .createAp true]
        (hanswer.connectionLost.trans h.connectionLost) hanswer.handling ?_ (by simp))
        (iff_true_intro hanswered)
      simp only
      rw [emit, hanswer.trace, emit, toIdle]
      simp

theorem Working.connectStep (h : s.Working) (D : Driver) (hhandling : s.handling = .connect) :
    Settled s.trace (s.connectStep D) (s.event = .connectToCAnkerAp → (s.changeConfig D true).1 = false →
      .taken .createAp ∉ work s.trace) := by
  have hwork : ConnectWork s.event (work s.trace) := by
    have hphase := h.phase
    rwa [hhandling] at hphase
  obtain ⟨config, staActive, apActive, hconfig, -⟩ := changeConfig_spec s D true
  rw [State.connectStep]
  rcases hresult : s.changeConfig D true with ⟨ok, s'⟩
  rw [hresult] at hconfig
  simp only at hconfig
  subst hconfig
  cases ok with
  | true => exact Settled.congr (.of_trace_eq ⟨h.connectionLost, hwork⟩ rfl) (by simp)
  | false =>
      simp only
      by_cases hrequest : s.event = .connectToCAnkerAp
      · rw [if_pos hrequest]
        have hanswer := answer_answersWith (s := { s with
          config := config, staActive := staActive, apActive := apActive })
          (by rw [hhandling]; exact Handling.noConfusion)
          (by rw [hhandling]; exact Handling.noConfusion) .connect false
        refine Settled.congr (.idle [.answered .connect false]
          (hanswer.connectionLost.trans h.connectionLost) rfl ?_ (by simp)) ?_
        · rw [emit, toIdle, hanswer.trace]
        · rw [work_append]
          simpa [workStep, hrequest] using hwork.answered_rejected hrequest
      · rw [if_neg hrequest]
        refine Settled.congr (.idle [] h.connectionLost rfl (by simp [emit, toIdle]) (by simp)) ?_
        rw [List.append_nil, hwork.answered_unanswered]
        simp [hrequest]

theorem Working.connectionResultStep (h : s.Working) {ux : StatusBits}
    (hhandling : s.handling = .connectionResult ux) :
    Settled s.trace (s.connectionResultStep ux) (s.event = .connectToCAnkerAp →
      if ux.processDone then .taken .createAp ∉ work s.trace
      else ux.disconnected = true ∧ s.reconnect = true) := by
  have hwork : ConnectWork s.event (work s.trace) := by
    have hphase := h.phase
    rwa [hhandling] at hphase
  rw [State.connectionResultStep]
  by_cases hdone : ux.processDone = true
  · simp only [hdone, if_true]
    by_cases hrequest : s.event = .connectToCAnkerAp
    · rw [if_pos hrequest]
      have hanswer := answer_answersWith (s := s.emit [.completed .connect s.config])
        (by rw [emit, hhandling]; exact Handling.noConfusion)
        (by rw [emit, hhandling]; exact Handling.noConfusion) .connect true
      have hanswered : Answered (work (s.trace ++
          [.completed .connect s.config, .answered .connect true])) ↔
          .taken .createAp ∉ work s.trace := by
        rw [work_append]
        simpa [workStep] using hwork.answered_accepted hrequest s.config
      refine Settled.congr (.idle [.completed .connect s.config, .answered .connect true]
        (hanswer.connectionLost.trans h.connectionLost) rfl ?_ (by simp)) (by simp [hanswered, hrequest])
      rw [emit, toIdle, hanswer.trace, emit]
      simp
    · rw [if_neg hrequest]
      refine Settled.congr (.idle [] h.connectionLost rfl (by simp [emit, toIdle]) (by simp)) ?_
      rw [List.append_nil, hwork.answered_unanswered]
      simp [hrequest]
  · simp only [hdone, Bool.false_eq_true, if_false]
    by_cases hretry : (ux.disconnected && s.reconnect) = true
    · rw [if_pos hretry]
      refine Settled.congr (.of_trace_eq ⟨h.connectionLost, hwork⟩ rfl) ?_
      simpa using fun _ ↦ hretry
    · rw [if_neg hretry, if_neg (by simp [toIdle])]
      refine Settled.congr (.idle [] h.connectionLost rfl (by simp [emit, toIdle]) (by simp)) ?_
      rw [List.append_nil, hwork.answered_unanswered]
      simp only [Bool.and_eq_true] at hretry
      simp [hretry]

theorem Working.taskStep (h : s.Working) (D : Driver) :
    Settled s.trace (s.taskStep D) (s.Settles (.task D)) := by
  have hphase := h.phase
  rw [State.taskStep, Settles]
  cases hhandling : s.handling with
  | created =>
      rw [hhandling] at hphase
      refine .of_trace_eq ⟨rfl, ?_⟩ rfl
      simp only
      split_ifs
      · change ConnectWork s.event (work s.trace)
        rw [hphase.1, hphase.2]
        exact .default
      · exact hphase.2
  | idle =>
      rw [hhandling] at hphase
      exact settled_waitForRequest h.connectionLost hphase false
  | waitingForRequest => exact .of_trace_eq h rfl
  | requestTimedOut =>
      rw [hhandling] at hphase
      exact settled_waitForRequest h.connectionLost hphase true
  | request ux => exact h.requestStep D hhandling
  | changeToAp => exact h.changeToApStep D hhandling
  | connect => exact h.connectStep D hhandling
  | retry =>
      rw [hhandling] at hphase
      exact .of_trace_eq ⟨h.connectionLost, hphase⟩ rfl
  | connecting =>
      rw [hhandling] at hphase
      exact settled_waitForConnection h.connectionLost hphase false
  | waitingForConnection => exact .of_trace_eq h rfl
  | connectionTimedOut =>
      rw [hhandling] at hphase
      exact settled_waitForConnection h.connectionLost hphase true
  | connectionResult ux => exact h.connectionResultStep hhandling
  | ended => exact .of_trace_eq h rfl

theorem Working.waitOver (h : s.Working) : Settled s.trace s.waitOver True := by
  have hphase := h.phase
  rw [State.waitOver]
  split
  · rename_i hhandling
    rw [hhandling] at hphase
    exact .of_trace_eq ⟨h.connectionLost, hphase⟩ rfl
  · rename_i hhandling
    rw [hhandling] at hphase
    exact .of_trace_eq ⟨h.connectionLost, hphase⟩ rfl
  · exact .of_trace_eq h rfl

theorem Working.waitForReply (h : s.Working) (call : Call) (timedOut : Bool) :
    Settled s.trace (s.waitForReply call timedOut) True := by
  rw [State.waitForReply]
  split_ifs
  · exact .of_trace_eq ⟨h.connectionLost, h.phase⟩ rfl
  · refine .of_append [.expired call] ⟨h.connectionLost, ?_⟩ rfl (by simp)
    rw [emit, work_append]
    exact h.phase
  · exact .of_trace_eq ⟨h.connectionLost, h.phase⟩ rfl

theorem Working.callerStep (h : s.Working) : Settled s.trace s.callerStep True := by
  rw [State.callerStep]
  cases s.caller with
  | free => exact .of_trace_eq h rfl
  | stored call => exact .of_trace_eq ⟨h.connectionLost, h.phase⟩ rfl
  | cleared call =>
      have hrequested : Settled s.trace
          ({ s with caller := .requested call }.emit [.requested call]) True := by
        refine .of_append [.requested call] ⟨h.connectionLost, ?_⟩ rfl (by simp)
        change PhaseWork s.handling s.event (work (s.trace ++ [.requested call]))
        rw [work_append]
        exact h.phase
      refine hrequested.trans (hrequested.working.settled_setBits ?_)
      cases call.request <;> exact h.connectionLost
  | requested call => exact h.waitForReply call false
  | waiting call => exact .of_trace_eq h rfl
  | timedOut call => exact h.waitForReply call true
  | woken call accepted =>
      refine .of_append [.returned call accepted] ⟨h.connectionLost, ?_⟩ rfl (by simp)
      change PhaseWork s.handling s.event (work (s.trace ++ [.returned call accepted]))
      rw [work_append]
      exact h.phase

theorem Working.step (h : s.Working) (a : Action) : Settled s.trace (s.step a) (s.Settles a) := by
  cases a with
  | handlerActive => exact .of_trace_eq ⟨h.connectionLost, h.phase⟩ rfl
  | task D => exact h.taskStep D
  | waitOver => exact h.waitOver
  | staDisconnected reason =>
      simp only [State.step, staDisconnected]
      split_ifs
      · have hworking : Working { s with eventHandler := some reason } :=
          ⟨h.connectionLost, h.phase⟩
        exact hworking.settled_setBits h.connectionLost
      · exact .of_trace_eq h rfl
  | eventHandlerContinues =>
      simp only [State.step]
      cases s.eventHandler with
      | none => exact .of_trace_eq h rfl
      | some reason =>
          unfold State.eventHandlerContinues
          simp only
          split_ifs <;> exact .of_trace_eq ⟨h.connectionLost, h.phase⟩ rfl
  | gotIp =>
      simp only [State.step]
      split_ifs
      · exact h.settled_setBits h.connectionLost
      · exact .of_trace_eq h rfl
  | staStop =>
      simp only [State.step]
      split_ifs
      · exact .of_trace_eq ⟨h.connectionLost, h.phase⟩ rfl
      · exact .of_trace_eq h rfl
  | apStop =>
      simp only [State.step]
      split_ifs
      · exact .of_trace_eq ⟨h.connectionLost, h.phase⟩ rfl
      · exact .of_trace_eq h rfl
  | connectToAp ssid password =>
      simp only [State.step]
      split_ifs
      · exact .of_trace_eq ⟨h.connectionLost, h.phase⟩ rfl
      · exact .of_trace_eq h rfl
  | createAp ssid password =>
      simp only [State.step, State.createAp]
      split_ifs
      · exact .of_trace_eq h rfl
      · exact .of_trace_eq ⟨h.connectionLost, h.phase⟩ rfl
      · exact .of_trace_eq h rfl
  | callerContinues => exact h.callerStep
  | callerWaitOver =>
      simp only [State.step, callerWaitOver]
      split
      · exact .of_trace_eq ⟨h.connectionLost, h.phase⟩ rfl
      · exact .of_trace_eq h rfl

theorem working_powerOn : powerOn.Working := ⟨rfl, rfl, rfl⟩

end State

/-! ## The answers -/

theorem answeredBeforeIdle_iff (actions : List State.Action) :
    AnsweredBeforeIdle (State.run actions).trace ↔
      Runs.Always State.step State.Settles State.powerOn actions :=
  Runs.holds_iff (fun s : State ↦ AnsweredBeforeIdle s.trace) State.Working
    (fun _ a h ↦ (h.step a).working) (fun _ a h ↦ (h.step a).answered)
    State.working_powerOn eachAt_nil

def okDriver : Driver := ⟨true, true, true, true, true, true⟩

/-- The task has connected to the default AP and waits in ST_IDLE. -/
def connected : List State.Action :=
  [.handlerActive, .task okDriver, .task okDriver, .task okDriver, .task okDriver, .gotIp,
    .task okDriver, .task okDriver]

/-- The C-Anker AP turns the connection down for its password. -/
def wrongPassword : List State.Action :=
  connected ++ [.connectToAp (some [65]) (some [66]), .callerContinues, .callerContinues,
    .callerContinues, .task okDriver, .task okDriver, .task okDriver, .task okDriver,
    .staDisconnected 15, .eventHandlerContinues, .task okDriver]

theorem not_answeredBeforeIdle_wrongPassword :
    ¬∀ actions : List State.Action, AnsweredBeforeIdle (State.run actions).trace := by
  intro h
  let trace := (State.run wrongPassword).trace
  have hidle := h wrongPassword (trace.take 3) .idle (trace.drop 4) (by decide) rfl .connect
  revert hidle
  decide

end AnkerUpdater.Wifi
