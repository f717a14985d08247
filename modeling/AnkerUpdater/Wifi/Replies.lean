import AnkerUpdater.Wifi.Answers

/-!
# Replies of the WiFi calls

Request and reply travel through event bits that do not say which call they
belong to.  They stay with their call as long as no call gives up while the
task has its request.
-/

namespace AnkerUpdater.Wifi

open EventLog

/-! ## What the replies promise -/

/-- The credentials that `change_config` is to take for the call. -/
def Call.config (call : Call) : Credentials :=
  match call.request with
  | .connect => State.staConfig .connectToCAnkerAp call.credentials
  | .createAp => call.credentials

/-- The task has taken a request of the kind after the call set its bit, and
has completed it with the credentials of the call. -/
def CarriedOut (trace : List Event) (call : Call) : Prop :=
  List.Sublist
    [.requested call, .taken call.request, .completed call.request call.config] trace

instance (trace : List Event) (call : Call) : Decidable (CarriedOut trace call) :=
  inferInstanceAs (Decidable (List.Sublist _ trace))

def Over (trace : List Event) (call : Call) : Prop :=
  .expired call ∈ trace ∨ ∃ ok, .returned call ok ∈ trace

def OwnReply (pre : List Event) (e : Event) : Prop :=
  ∀ call, e = .returned call true → CarriedOut pre call

/-- What the task takes or completes is the request of a call that is not
over. -/
def Asked (pre : List Event) : Event → Prop
  | .taken request => ∃ call, call.request = request ∧ .requested call ∈ pre ∧ ¬Over pre call
  | .completed request config => ∃ call, call.request = request ∧ call.config = config ∧
      .requested call ∈ pre ∧ ¬Over pre call
  | _ => True

structure RepliesBelong (trace : List Event) : Prop where
  own : EachAt OwnReply trace
  asked : EachAt Asked trace

def Caller.call : Caller → Option Call
  | .free => none
  | .stored call | .cleared call | .requested call | .waiting call | .timedOut call
  | .woken call _ => some call

/-- The call whose request bit is set and which has no reply yet. -/
def Caller.awaits : Caller → Option Call
  | .requested call | .waiting call | .timedOut call => some call
  | .free | .stored _ | .cleared _ | .woken _ _ => none

theorem Caller.call_of_awaits {caller : Caller} {call : Call} (h : caller.awaits = some call) :
    caller.call = some call := by
  cases caller <;> simp_all [Caller.awaits, Caller.call]

theorem Over.mono {trace more : List Event} {call : Call} (h : Over trace call) :
    Over (trace ++ more) call := by
  rcases h with h | ⟨ok, h⟩
  · exact .inl (List.mem_append_left _ h)
  · exact .inr ⟨ok, List.mem_append_left _ h⟩

def Event.OfTask : Event → Prop
  | .idle | .taken _ | .completed _ _ | .answered _ _ => True
  | .requested _ | .returned _ _ | .expired _ => False

theorem over_append {trace more : List Event} {call : Call} (hmore : ∀ e ∈ more, e.OfTask) :
    Over (trace ++ more) call ↔ Over trace call := by
  constructor
  · rintro (h | ⟨ok, h⟩)
    · rcases List.mem_append.mp h with h | h
      · exact .inl h
      · exact (hmore _ h).elim
    · rcases List.mem_append.mp h with h | h
      · exact .inr ⟨ok, h⟩
      · exact (hmore _ h).elim
  · exact Over.mono

theorem CarriedOut.mono {trace more : List Event} {call : Call} (h : CarriedOut trace call) :
    CarriedOut (trace ++ more) call :=
  List.Sublist.trans h (List.sublist_append_left _ _)

namespace State

/-- The request bit is set and the task will see it. -/
def pending (s : State) (request : Request) : Bool :=
  match s.handling with
  | .created | .ended => false
  | _ => s.bits.get request

/-- The task has taken the request and not answered it. -/
def worksOn (s : State) : Request → Bool
  | .connect =>
      match s.handling with
      | .request ux => ux.connect
      | .connect | .retry | .connecting | .waitingForConnection | .connectionTimedOut
      | .connectionResult _ => s.event = .connectToCAnkerAp
      | _ => false
  | .createAp =>
      match s.handling with
      | .request ux => ux.createAp
      | .changeToAp => true
      | _ => false

def busy (s : State) (request : Request) : Bool := s.pending request || s.worksOn request

/-- No call gives up after its 10 s while its request bit is set or the task
works on its request. -/
def Timely (s : State) (a : Action) : Bool :=
  match a, s.caller with
  | .callerContinues, .timedOut call =>
      s.bits.accepted || s.bits.rejected || !s.busy call.request
  | _, _ => true

/-! ## The invariant of timely runs -/

/-- `change_config` has set `config` for a request. -/
def configured (s : State) : Bool :=
  match s.handling with
  | .retry | .connecting | .waitingForConnection | .connectionTimedOut | .connectionResult _ =>
      s.event = .connectToCAnkerAp
  | _ => false

/-- The part of the invariant about the calls. -/
structure Calls (s : State) : Prop where
  stored : ∀ call, s.caller.call = some call → s.stored = call.credentials
  notOver : ∀ call, s.caller.call = some call → call.id < s.calls ∧ ¬Over s.trace call
  requested : ∀ call, s.caller.awaits = some call → .requested call ∈ s.trace
  fresh : ∀ call, Over s.trace call → call.id < s.calls
  woken : ∀ call, s.caller = .woken call true → CarriedOut s.trace call
  replies : RepliesBelong s.trace

/-- Requests and replies in the event bits belong to the call that waits. -/
structure Served (s : State) : Prop where
  calls : s.Calls
  start : s.handling = .created → s.event ≠ .connectToCAnkerAp
  busy : ∀ k, s.busy k = true → ∃ call, s.caller.awaits = some call ∧ call.request = k
  exclusive : ∀ k k', s.pending k = true → s.worksOn k' = false
  working : ∀ call, s.caller.awaits = some call → s.worksOn call.request = true →
    List.Sublist [.requested call, .taken call.request] s.trace
  config : s.configured = true → s.config = staConfig .connectToCAnkerAp s.stored
  reply : (s.bits.accepted || s.bits.rejected) = true →
    (∃ call, s.caller.awaits = some call ∧ (s.bits.accepted = true → CarriedOut s.trace call)) ∧
      ∀ k, s.busy k = false

variable {s s' : State}

/-! ## The calls -/

/-- The calls see nothing of what the task does for requests that were
asked for. -/
theorem Calls.append (h : s.Calls) (more : List Event) (htrace : s'.trace = s.trace ++ more)
    (hcaller : s'.caller = s.caller) (hstored : s'.stored = s.stored)
    (hcalls : s'.calls = s.calls) (hmore : ∀ e ∈ more, e.OfTask)
    (hasked : EachAt (fun pre e ↦ Asked (s.trace ++ pre) e) more) : s'.Calls where
  stored := by rw [hcaller, hstored]; exact h.stored
  notOver := by
    rw [hcaller, hcalls, htrace]
    intro call hcall
    rw [over_append hmore]
    exact h.notOver call hcall
  requested := by
    rw [hcaller, htrace]
    exact fun call hcall ↦ List.mem_append_left _ (h.requested call hcall)
  fresh := by
    rw [hcalls, htrace]
    intro call hover
    exact h.fresh call ((over_append hmore).mp hover)
  woken := by
    rw [hcaller, htrace]
    exact fun call hcall ↦ (h.woken call hcall).mono
  replies := by
    rw [htrace]
    refine ⟨eachAt_append.mpr ⟨h.replies.own, ?_⟩, eachAt_append.mpr ⟨h.replies.asked, hasked⟩⟩
    intro pre e post heq call he
    subst he
    exact (hmore (.returned call true) (by simp [heq])).elim

theorem Calls.congr (h : s.Calls) (htrace : s'.trace = s.trace) (hcaller : s'.caller = s.caller)
    (hstored : s'.stored = s.stored) (hcalls : s'.calls = s.calls) : s'.Calls :=
  h.append [] (by rw [htrace, List.append_nil]) hcaller hstored hcalls (by simp)
    eachAt_nil

/-- The end of a call. -/
theorem Calls.ends {call : Call} {e : Event} (h : s.Calls) (hcall : s.caller.call = some call)
    (he : e = .expired call ∨ ∃ ok, e = .returned call ok) (hown : OwnReply s.trace e) :
    Calls ({ s with caller := .free }.emit [e]) := by
  refine ⟨?_, ?_, ?_, ?_, ?_, ?_, ?_⟩
  · intro c hc
    simp [emit, Caller.call] at hc
  · intro c hc
    simp [emit, Caller.call] at hc
  · intro c hc
    simp [emit, Caller.awaits] at hc
  · intro c hover
    have hcase : Over s.trace c ∨ c = call := by
      rcases hover with hc | ⟨ok, hc⟩
      · rcases List.mem_append.mp hc with hc | hc
        · exact .inl (.inl hc)
        · rcases he with rfl | ⟨ok, rfl⟩ <;> simp_all
      · rcases List.mem_append.mp hc with hc | hc
        · exact .inl (.inr ⟨ok, hc⟩)
        · rcases he with rfl | ⟨ok, rfl⟩ <;> simp_all
    rcases hcase with hover | rfl
    · exact h.fresh c hover
    · exact (h.notOver c hcall).1
  · intro c hc
    simp [emit] at hc
  · exact eachAt_append_singleton.mpr ⟨h.replies.own, hown⟩
  · refine eachAt_append_singleton.mpr ⟨h.replies.asked, ?_⟩
    rcases he with rfl | ⟨ok, rfl⟩ <;> trivial

/-! ## Requests and replies -/

theorem Served.busy_eq_false (h : s.Served) (hawaits : s.caller.awaits = none) (k : Request) :
    s.busy k = false := by
  by_contra hbusy
  obtain ⟨call, hcall, -⟩ := h.busy k (eq_true_of_ne_false hbusy)
  simp [hawaits] at hcall

theorem Served.noReply (h : s.Served) (hawaits : s.caller.awaits = none) :
    (s.bits.accepted || s.bits.rejected) = false := by
  by_contra hreply
  obtain ⟨⟨call, hcall, -⟩, -⟩ := h.reply (eq_true_of_ne_false hreply)
  simp [hawaits] at hcall

/-- A step of the task after which it has no more to do than before. -/
theorem Served.quiet (h : s.Served) (htrace : s'.trace = s.trace) (hcaller : s'.caller = s.caller)
    (hstored : s'.stored = s.stored) (hcalls : s'.calls = s.calls)
    (hstart : s'.handling = .created → s'.event ≠ .connectToCAnkerAp)
    (hpending : ∀ k, s'.pending k = true → s.pending k = true)
    (hworks : ∀ k, s'.worksOn k = true → s.worksOn k = true)
    (hconfig : s'.configured = true → s'.config = staConfig .connectToCAnkerAp s'.stored)
    (haccepted : s'.bits.accepted = true → s.bits.accepted = true)
    (hrejected : s'.bits.rejected = true → s.bits.rejected = true) : s'.Served := by
  have hbusy : ∀ k, s'.busy k = true → s.busy k = true := by
    intro k hk
    rcases Bool.or_eq_true_iff.mp hk with hk | hk
    · exact Bool.or_eq_true_iff.mpr (.inl (hpending k hk))
    · exact Bool.or_eq_true_iff.mpr (.inr (hworks k hk))
  refine ⟨h.calls.congr htrace hcaller hstored hcalls, hstart, ?_, ?_, ?_, hconfig, ?_⟩
  · rw [hcaller]
    exact fun k hk ↦ h.busy k (hbusy k hk)
  · intro k k' hk
    have hidle := h.exclusive k k' (hpending k hk)
    by_contra hwork
    simp [hworks k' (by simpa using hwork)] at hidle
  · rw [hcaller, htrace]
    exact fun call hcall hwork ↦ h.working call hcall (hworks _ hwork)
  · intro hreply
    have hbefore : (s.bits.accepted || s.bits.rejected) = true := by
      rcases Bool.or_eq_true_iff.mp hreply with hbit | hbit
      · simp [haccepted hbit]
      · simp [hrejected hbit]
    obtain ⟨⟨call, hcall, hout⟩, hidle⟩ := h.reply hbefore
    refine ⟨⟨call, hcaller ▸ hcall, fun hbit ↦ htrace ▸ hout (haccepted hbit)⟩, fun k ↦ ?_⟩
    by_contra hk
    have hbusyk := hbusy k (by simpa using hk)
    simp [hidle k] at hbusyk

theorem mem_takenEvents {bits : StatusBits} {e : Event} :
    e ∈ takenEvents bits ↔ ∃ k, e = .taken k ∧ bits.get k = true := by
  rw [takenEvents]
  constructor
  · intro he
    rcases List.mem_append.mp he with he | he
    · split_ifs at he with hconnect
      · exact ⟨.connect, List.mem_singleton.mp he, hconnect⟩
      · simp at he
    · split_ifs at he with hcreate
      · exact ⟨.createAp, List.mem_singleton.mp he, hcreate⟩
      · simp at he
  · rintro ⟨k, rfl, hk⟩
    cases k with
    | connect => simp [show bits.connect = true from hk]
    | createAp => simp [show bits.createAp = true from hk]

/-- The task waits in ST_IDLE or is about to. -/
def Listens (s : State) : Prop :=
  s.handling = .idle ∨ s.handling = .waitingForRequest ∨ s.handling = .requestTimedOut

theorem Listens.pending (h : s.Listens) (k : Request) : s.pending k = s.bits.get k := by
  rcases h with h | h | h <;> simp [State.pending, h]

theorem Listens.worksOn (h : s.Listens) (k : Request) : s.worksOn k = false := by
  rcases h with h | h | h <;> cases k <;> simp [State.worksOn, h]

theorem Served.takesRequests (h : s.Served) (hlistens : s.Listens) :
    ({ s with
      handling := .request s.bits
      bits := { s.bits with connectionLost := false, connect := false, createAp := false }
    }.emit (takenEvents s.bits)).Served := by
  have hbefore : ∀ k, s.bits.get k = true → s.busy k = true := by
    intro k hk
    rw [State.busy, hlistens.pending, hk, Bool.true_or]
  have hpending : ∀ k, ({ s with
      handling := .request s.bits
      bits := { s.bits with connectionLost := false, connect := false, createAp := false }
      }.emit (takenEvents s.bits)).pending k = false := by
    intro k
    cases k <;> rfl
  have hworks : ∀ k, ({ s with
      handling := .request s.bits
      bits := { s.bits with connectionLost := false, connect := false, createAp := false }
      }.emit (takenEvents s.bits)).worksOn k = s.bits.get k := by
    intro k
    cases k <;> rfl
  have hofTask : ∀ e ∈ takenEvents s.bits, e.OfTask := by
    intro e he
    obtain ⟨k, rfl, -⟩ := mem_takenEvents.mp he
    trivial
  constructor
  · refine h.calls.append (takenEvents s.bits) rfl rfl rfl rfl hofTask ?_
    intro pre e post heq
    obtain ⟨k, rfl, hk⟩ := mem_takenEvents.mp (show e ∈ takenEvents s.bits by simp [heq])
    obtain ⟨call, hcall, hrequest⟩ := h.busy k (hbefore k hk)
    refine ⟨call, hrequest, List.mem_append_left _ (h.calls.requested call hcall), ?_⟩
    rw [over_append fun e he ↦ hofTask e (by simp [heq, he])]
    exact (h.calls.notOver call (Caller.call_of_awaits hcall)).2
  · exact fun hcreated ↦ Handling.noConfusion hcreated
  · intro k hk
    rw [State.busy, hpending, hworks, Bool.false_or] at hk
    exact h.busy k (hbefore k hk)
  · intro k k' hk
    rw [hpending] at hk
    exact Bool.noConfusion hk
  · intro call hcall hwork
    rw [hworks] at hwork
    have hrequested : List.Sublist [.requested call] s.trace :=
      List.singleton_sublist.mpr (h.calls.requested call hcall)
    have htaken : List.Sublist [.taken call.request] (takenEvents s.bits) :=
      List.singleton_sublist.mpr (mem_takenEvents.mpr ⟨_, rfl, hwork⟩)
    exact hrequested.append htaken
  · exact fun hconfigured ↦ Bool.noConfusion hconfigured
  · intro hreply
    obtain ⟨⟨call, hcall, hout⟩, hidle⟩ := h.reply hreply
    refine ⟨⟨call, hcall, fun hbit ↦ (hout hbit).mono⟩, fun k ↦ ?_⟩
    rw [State.busy, hpending, hworks, Bool.false_or]
    by_contra hk
    have hbusy := hbefore k (eq_true_of_ne_false hk)
    rw [hidle k] at hbusy
    exact Bool.noConfusion hbusy

theorem Served.waitForRequest (h : s.Served) (hlistens : s.Listens) (timedOut : Bool) :
    (s.waitForRequest timedOut).Served := by
  rw [State.waitForRequest]
  split_ifs with hbits
  · exact h.takesRequests hlistens
  · have hnone : ∀ k, s.bits.get k = false := by
      intro k
      cases k <;> simp_all [StatusBits.get]
    refine h.quiet rfl rfl rfl rfl (fun hcreated ↦ Handling.noConfusion hcreated) ?_ ?_
      (fun hconfigured ↦ Bool.noConfusion hconfigured) id id
    · intro k hk
      have hbit : s.bits.get k = true := hk
      rw [hnone k] at hbit
      exact Bool.noConfusion hbit
    · intro k hk
      have hbit : s.bits.get k = true := by cases k <;> exact hk
      rw [hnone k] at hbit
      exact Bool.noConfusion hbit
  · refine h.quiet rfl rfl rfl rfl (fun hcreated ↦ Handling.noConfusion hcreated) ?_ ?_
      (fun hconfigured ↦ Bool.noConfusion hconfigured) id id
    · intro k hk
      rwa [hlistens.pending]
    · intro k hk
      cases k <;> exact Bool.noConfusion hk

/-- The task waits in ST_CONNECT or is about to. -/
def Connects (s : State) : Prop :=
  s.handling = .connecting ∨ s.handling = .waitingForConnection ∨ s.handling = .connectionTimedOut

theorem Served.waitForConnection (h : s.Served) (hconnects : s.Connects) (timedOut : Bool) :
    (s.waitForConnection timedOut).Served := by
  have hpending : ∀ k, s.pending k = s.bits.get k := by
    rcases hconnects with h | h | h <;> simp [State.pending, h]
  have hworks : s.worksOn .connect = decide (s.event = .connectToCAnkerAp) := by
    rcases hconnects with h | h | h <;> simp [State.worksOn, h]
  have hconfigured : s.configured = decide (s.event = .connectToCAnkerAp) := by
    rcases hconnects with h | h | h <;> simp [State.configured, h]
  have hconfig := h.config
  rw [hconfigured] at hconfig
  rw [State.waitForConnection]
  split_ifs
  all_goals
    refine h.quiet rfl rfl rfl rfl (fun hcreated ↦ Handling.noConfusion hcreated) ?_ ?_ hconfig id id
    · intro k hk
      rw [hpending]
      cases k <;> exact hk
    · intro k hk
      cases k with
      | connect => rw [hworks]; exact hk
      | createAp => exact Bool.noConfusion hk

theorem Served.wakeHandling (h : s.Served) : s.wakeHandling.Served := by
  rw [State.wakeHandling]
  split
  · exact h.waitForRequest (.inr (.inl ‹_›)) false
  · exact h.waitForConnection (.inr (.inl ‹_›)) false
  · exact h

theorem pending_congr {k : Request} (hhandling : s'.handling = s.handling)
    (hget : s'.bits.get k = s.bits.get k) : s'.pending k = s.pending k := by
  simp only [State.pending, hhandling, hget]

theorem pending_setBits {bits : StatusBits} {k : Request} (hget : bits.get k = s.bits.get k) :
    State.pending { s with bits := bits } k = s.pending k := by
  simp only [State.pending, hget]

theorem worksOn_congr (hhandling : s'.handling = s.handling) (hevent : s'.event = s.event)
    (k : Request) : s'.worksOn k = s.worksOn k := by
  cases k <;> simp only [State.worksOn, hhandling, hevent]

theorem worksOn_of_configured (h : s.configured = true) : s.worksOn .connect = true := by
  cases hhandling : s.handling <;> simp_all [State.configured, State.worksOn]

/-- A step of a call that has no request with the task, before or after. -/
theorem Served.leaves (h : s.Served) (hhandling : s'.handling = s.handling)
    (hevent : s'.event = s.event) (hget : ∀ k, s'.bits.get k = s.bits.get k) (hcalls : s'.Calls)
    (hidle : ∀ k, s.busy k = false) (hawaits : s'.caller.awaits = none)
    (hreply : (s'.bits.accepted || s'.bits.rejected) = false) : s'.Served := by
  have hidle' : ∀ k, s'.pending k = false ∧ s'.worksOn k = false := by
    intro k
    rw [pending_congr hhandling (hget k), worksOn_congr hhandling hevent]
    exact Bool.or_eq_false_iff.mp (hidle k)
  refine ⟨hcalls, ?_, ?_, ?_, ?_, ?_, ?_⟩
  · rw [hhandling, hevent]
    exact h.start
  · intro k hk
    simp [State.busy, hidle' k] at hk
  · intro k k' hk
    exact (hidle' k').2
  · intro call hcall
    simp [hawaits] at hcall
  · intro hconfigured
    have hworks := worksOn_of_configured hconfigured
    simp [(hidle' .connect).2] at hworks
  · intro hbits
    simp [hreply] at hbits

theorem Served.waits {caller : Caller} {call : Call} (h : s.Served)
    (hcall : s.caller.awaits = some call) (hcaller : caller.awaits = some call) :
    Served { s with caller := caller } := by
  have hsame : caller.awaits = s.caller.awaits := hcaller.trans hcall.symm
  have hsame' : caller.call = s.caller.call :=
    (Caller.call_of_awaits hcaller).trans (Caller.call_of_awaits hcall).symm
  have hcalls : Calls { s with caller := caller } := by
    refine ⟨?_, ?_, ?_, h.calls.fresh, ?_, h.calls.replies⟩
    · simp only [hsame']
      exact h.calls.stored
    · simp only [hsame']
      exact h.calls.notOver
    · simp only [hsame]
      exact h.calls.requested
    · intro c hc
      simp only at hc
      simp [hc, Caller.awaits] at hcaller
  refine ⟨hcalls, h.start, ?_, h.exclusive, ?_, h.config, ?_⟩
  · simp only [hsame]
    exact h.busy
  · simp only [hsame]
    exact h.working
  · simp only [hsame]
    exact h.reply

theorem Served.waitForReply {call : Call} {timedOut : Bool} (h : s.Served)
    (hcall : s.caller.awaits = some call)
    (htimely : timedOut = true → (s.bits.accepted || s.bits.rejected) = false →
      s.busy call.request = false) : (s.waitForReply call timedOut).Served := by
  have hcall' := Caller.call_of_awaits hcall
  rw [State.waitForReply]
  split_ifs with hreply hexpired
  · obtain ⟨⟨call', hawaits, hout⟩, hidle⟩ := h.reply hreply
    obtain rfl : call = call' := Option.some.inj (hcall.symm.trans hawaits)
    refine h.leaves rfl rfl (fun k ↦ by cases k <;> rfl) ?_ hidle rfl rfl
    refine ⟨fun c hc ↦ h.calls.stored c (hcall'.trans hc),
      fun c hc ↦ h.calls.notOver c (hcall'.trans hc), ?_, h.calls.fresh, ?_, h.calls.replies⟩
    · intro c hc
      simp [Caller.awaits] at hc
    · intro c hc
      obtain ⟨rfl, haccepted⟩ := Caller.woken.inj hc
      exact hout haccepted
  · have hown : OwnReply s.trace (.expired call) := fun c hc ↦ Event.noConfusion hc
    refine h.leaves rfl rfl (fun _ ↦ rfl) (h.calls.ends hcall' (.inl rfl) hown) ?_ rfl
      (Bool.eq_false_iff.mpr hreply)
    intro k
    by_contra hk
    obtain ⟨call', hawaits, rfl⟩ := h.busy k (eq_true_of_ne_false hk)
    obtain rfl : call = call' := Option.some.inj (hcall.symm.trans hawaits)
    exact hk (htimely hexpired (Bool.eq_false_iff.mpr hreply))
  · exact h.waits hcall rfl

theorem Served.wakeCaller (h : s.Served) : s.wakeCaller.Served := by
  rw [State.wakeCaller]
  split
  · rename_i call hcaller
    refine h.waitForReply (by rw [hcaller]; rfl) (fun hfalse ↦ Bool.noConfusion hfalse)
  · exact h

theorem Served.setBits {bits : StatusBits} (h : Served { s with bits := bits }) :
    (s.setBits bits).Served :=
  h.wakeHandling.wakeCaller

theorem Served.emit {e : Event} (h : s.Served) (he : e.OfTask) (hasked : Asked s.trace e) :
    (s.emit [e]).Served := by
  have hcalls : (s.emit [e]).Calls := by
    refine h.calls.append [e] rfl rfl rfl rfl (by simpa using he) ?_
    have hsingle : EachAt (fun pre e ↦ Asked (s.trace ++ pre) e) ([] ++ [e]) := by
      refine eachAt_append_singleton.mpr ⟨eachAt_nil, ?_⟩
      rwa [List.append_nil]
    exact hsingle
  refine ⟨hcalls, h.start, h.busy, h.exclusive, ?_, h.config, ?_⟩
  · exact fun call hcall hwork ↦ (h.working call hcall hwork).trans (List.sublist_append_left _ _)
  · intro hreply
    obtain ⟨⟨call, hcall, hout⟩, hidle⟩ := h.reply hreply
    exact ⟨⟨call, hcall, fun hbit ↦ (hout hbit).mono⟩, hidle⟩

/-- The reply bit is set for the call that waits. -/
theorem Served.replies {call : Call} {accepted : Bool} (h : s.Served)
    (hcall : s.caller.awaits = some call) (hidle : ∀ k, s.busy k = false)
    (hout : accepted = true → CarriedOut s.trace call) :
    Served { s with bits := s.bits.answer accepted } := by
  have hget : ∀ k, (s.bits.answer accepted).get k = s.bits.get k := by
    intro k
    cases accepted <;> cases k <;> rfl
  have hpending : ∀ k, State.pending { s with bits := s.bits.answer accepted } k = s.pending k := by
    intro k
    simp only [State.pending, hget]
  have hidle' : ∀ k, State.busy { s with bits := s.bits.answer accepted } k = false := by
    intro k
    rw [State.busy, hpending]
    exact hidle k
  refine ⟨h.calls.congr rfl rfl rfl rfl, h.start, ?_, ?_, h.working, h.config, ?_⟩
  · intro k hk
    rw [hidle' k] at hk
    exact Bool.noConfusion hk
  · intro k k' hk
    rw [hpending] at hk
    exact h.exclusive k k' hk
  · intro _
    refine ⟨⟨call, hcall, fun hbit ↦ ?_⟩, hidle'⟩
    cases accepted with
    | true => exact hout rfl
    | false =>
        have hbefore : s.bits.accepted = true := hbit
        obtain ⟨⟨call', hcall', hout'⟩, -⟩ := h.reply (by rw [hbefore, Bool.true_or])
        obtain rfl : call = call' := Option.some.inj (hcall.symm.trans hcall')
        exact hout' hbefore

theorem Served.answer {call : Call} {accepted : Bool} (h : s.Served)
    (hcall : s.caller.awaits = some call) (hidle : ∀ k, s.busy k = false)
    (hout : accepted = true → CarriedOut s.trace call) (request : Request) :
    (s.answer request accepted).Served := by
  have hemit : (s.emit [.answered request accepted]).Served := h.emit trivial trivial
  exact (hemit.replies hcall hidle fun haccepted ↦ (hout haccepted).mono).setBits

/-! ## Steps of the task -/

theorem answer_toIdle (hrequest : s.handling ≠ .waitingForRequest)
    (hconnection : s.handling ≠ .waitingForConnection) (request : Request) (accepted : Bool) :
    (s.answer request accepted).toIdle = s.toIdle.answer request accepted := by
  rw [State.answer, setBits_eq (s := s.emit [.answered request accepted]) hrequest hconnection,
    State.answer, setBits_eq (s := s.toIdle.emit [.answered request accepted])
      Handling.noConfusion Handling.noConfusion]
  unfold State.wakeCaller State.waitForReply
  simp only [State.emit, State.toIdle]
  cases s.caller with
  | waiting call =>
      simp only [Bool.false_eq_true, if_false]
      split_ifs <;> rfl
  | _ => rfl

theorem answer_attempts (hrequest : s.handling ≠ .waitingForRequest)
    (hconnection : s.handling ≠ .waitingForConnection) (request : Request) (accepted : Bool)
    (attempts : ℕ) (reconnect : Bool) :
    { s.answer request accepted with attemptsReconnect := attempts, reconnect := reconnect } =
      State.answer { s with attemptsReconnect := attempts, reconnect := reconnect }
        request accepted := by
  rw [State.answer, setBits_eq (s := s.emit [.answered request accepted]) hrequest hconnection,
    State.answer, setBits_eq (s := State.emit { s with
      attemptsReconnect := attempts, reconnect := reconnect } [.answered request accepted])
      hrequest hconnection]
  unfold State.wakeCaller State.waitForReply
  simp only [State.emit]
  cases s.caller with
  | waiting call =>
      simp only [Bool.false_eq_true, if_false]
      split_ifs <;> rfl
  | _ => rfl

/-- The task is done with its requests, on its way to ST_IDLE or to the
default AP. -/
def Rests (s : State) : Prop :=
  s.handling = .idle ∨ s.handling = .connect ∧ s.event = .connectToDefaultAp

theorem Rests.pending (h : s.Rests) (k : Request) : s.pending k = s.bits.get k := by
  rcases h with h | ⟨h, -⟩ <;> simp [State.pending, h]

theorem Rests.worksOn (h : s.Rests) (k : Request) : s.worksOn k = false := by
  rcases h with h | ⟨h, hevent⟩
  · cases k <;> simp [State.worksOn, h]
  · cases k <;> simp [State.worksOn, h, hevent]

theorem Served.rests (h : s.Served) (hlive : ∀ k, s.pending k = s.bits.get k) (hrests : s'.Rests)
    (hcaller : s'.caller = s.caller) (hstored : s'.stored = s.stored)
    (hcalls : s'.calls = s.calls) (htrace : s'.trace = s.trace) (hbits : s'.bits = s.bits) :
    s'.Served := by
  refine h.quiet htrace hcaller hstored hcalls ?_ ?_ ?_ ?_ (hbits ▸ id) (hbits ▸ id)
  · intro hcreated
    rcases hrests with hs' | ⟨hs', -⟩ <;> rw [hs'] at hcreated <;> cases hcreated
  · intro k hk
    rwa [hrests.pending, hbits, ← hlive] at hk
  · intro k hk
    rw [hrests.worksOn] at hk
    exact Bool.noConfusion hk
  · intro hconfigured
    have hworks := worksOn_of_configured hconfigured
    rw [hrests.worksOn] at hworks
    exact Bool.noConfusion hworks

theorem Served.requestStep {ux : StatusBits} (h : s.Served) (D : Driver)
    (hhandling : s.handling = .request ux) : (s.requestStep D ux).Served := by
  have hpending : ∀ k, s.pending k = s.bits.get k := by
    simp [State.pending, hhandling]
  have hworks : ∀ k, s.worksOn k = ux.get k := by
    intro k
    cases k <;> simp [State.worksOn, hhandling, StatusBits.get]
  have hdefault : (s.toConnect .connectToDefaultAp).Served :=
    h.rests hpending (.inr ⟨rfl, rfl⟩) rfl rfl rfl rfl rfl
  have hidle : s.toIdle.Served := h.rests hpending (.inl rfl) rfl rfl rfl rfl rfl
  rw [State.requestStep]
  split_ifs with hlost hconnect hcreate
  · exact hdefault
  · refine h.quiet rfl rfl rfl rfl (fun hcreated ↦ Handling.noConfusion hcreated) ?_ ?_
      (fun hconfigured ↦ Bool.noConfusion hconfigured) id id
    · intro k hk
      rwa [hpending]
    · intro k hk
      rw [hworks]
      cases k with
      | connect => exact hconnect
      | createAp => exact Bool.noConfusion hk
  · refine h.quiet rfl rfl rfl rfl (fun hcreated ↦ Handling.noConfusion hcreated) ?_ ?_
      (fun hconfigured ↦ Bool.noConfusion hconfigured) id id
    · intro k hk
      rwa [hpending]
    · intro k hk
      rw [hworks]
      cases k with
      | connect => exact Bool.noConfusion hk
      | createAp => exact hcreate
  · exact hidle.emit trivial trivial
  · exact hdefault
  · exact hidle.emit trivial trivial
  · exact hdefault
  · exact hdefault

theorem pending_of_worksOn {k : Request} (hwork : s.worksOn k = true) (k' : Request) :
    s.pending k' = s.bits.get k' := by
  rw [State.pending]
  cases hhandling : s.handling with
  | created => cases k <;> simp [State.worksOn, hhandling] at hwork
  | ended => cases k <;> simp [State.worksOn, hhandling] at hwork
  | _ => rfl

/-- The work for a request is over, and no other request is with the task. -/
theorem Served.finishes {k : Request} (h : s.Served) (s' : State) (hwork : s.worksOn k = true)
    (hrests : s'.Rests) (hcaller : s'.caller = s.caller) (hstored : s'.stored = s.stored)
    (hcalls : s'.calls = s.calls) (htrace : s'.trace = s.trace) (hbits : s'.bits = s.bits) :
    s'.Served ∧ ∀ k, s'.busy k = false := by
  have hlive := pending_of_worksOn hwork
  refine ⟨h.rests hlive hrests hcaller hstored hcalls htrace hbits, fun k' ↦ ?_⟩
  have hnone : s.pending k' = false := by
    by_contra hk'
    have hidle := h.exclusive k' k (eq_true_of_ne_false hk')
    rw [hwork] at hidle
    exact Bool.noConfusion hidle
  rw [State.busy, hrests.pending, hrests.worksOn, hbits, ← hlive, hnone]
  rfl

/-- The task completes the request of the call that waits, and answers it. -/
theorem Served.accepts {call : Call} (h : s.Served) (hcall : s.caller.awaits = some call)
    (hidle : ∀ k, s.busy k = false) (hconfig : s.config = call.config)
    (htaken : List.Sublist [.requested call, .taken call.request] s.trace) :
    (((s.emit [.completed call.request s.config]).answer call.request true).emit [.idle]).Served := by
  have hasked : Asked s.trace (.completed call.request s.config) :=
    ⟨call, rfl, hconfig.symm, h.calls.requested call hcall,
      (h.calls.notOver call (Caller.call_of_awaits hcall)).2⟩
  have hcompleted : (s.emit [.completed call.request s.config]).Served := h.emit trivial hasked
  refine Served.emit (hcompleted.answer hcall hidle (fun _ ↦ ?_) call.request) trivial trivial
  change List.Sublist ([Event.requested call, .taken call.request] ++
    [Event.completed call.request call.config]) (s.trace ++ [Event.completed call.request s.config])
  rw [hconfig]
  exact htaken.append (List.Sublist.refl _)

theorem Served.changeToApStep (h : s.Served) (D : Driver) (hhandling : s.handling = .changeToAp) :
    (s.changeToApStep D).Served := by
  have hwork : s.worksOn .createAp = true := by simp [State.worksOn, hhandling]
  obtain ⟨call, hcall, hrequest⟩ := h.busy .createAp (by rw [State.busy, hwork, Bool.or_true])
  obtain ⟨config, staActive, apActive, hconfig, hok⟩ := changeConfig_spec s D false
  rw [State.changeToApStep]
  rcases hresult : s.changeConfig D false with ⟨ok, s'⟩
  rw [hresult] at hconfig hok
  simp only at hconfig hok
  subst hconfig
  cases ok with
  | false =>
      obtain ⟨hserved, hidle⟩ := h.finishes (State.toConnect { s with
        config := config, staActive := staActive, apActive := apActive } .connectToDefaultAp)
        hwork (.inr ⟨rfl, rfl⟩) rfl rfl rfl rfl rfl
      exact hserved.answer hcall hidle (fun hfalse ↦ Bool.noConfusion hfalse) .createAp
  | true =>
      obtain ⟨hserved, hidle⟩ := h.finishes (State.toIdle { s with
        config := config, staActive := staActive, apActive := apActive })
        hwork (.inl rfl) rfl rfl rfl rfl rfl
      have hconfig : config = call.config := by
        rw [hok rfl, Call.config, hrequest]
        exact h.calls.stored call (Caller.call_of_awaits hcall)
      have hworking := h.working call hcall (hrequest ▸ hwork)
      have haccepts := hserved.accepts hcall hidle hconfig hworking
      rw [hrequest] at haccepts
      exact haccepts

theorem Served.connectStep (h : s.Served) (D : Driver) (hhandling : s.handling = .connect) :
    (s.connectStep D).Served := by
  have hlive : ∀ k, s.pending k = s.bits.get k := by simp [State.pending, hhandling]
  obtain ⟨config, staActive, apActive, hconfig, hok⟩ := changeConfig_spec s D true
  rw [State.connectStep]
  rcases hresult : s.changeConfig D true with ⟨ok, s'⟩
  rw [hresult] at hconfig hok
  simp only at hconfig hok
  subst hconfig
  cases ok with
  | false =>
      by_cases hrequest : s.event = .connectToCAnkerAp
      · have hwork : s.worksOn .connect = true := by simp [State.worksOn, hhandling, hrequest]
        obtain ⟨call, hcall, -⟩ := h.busy .connect (by rw [State.busy, hwork, Bool.or_true])
        simp only [hrequest, if_true]
        rw [answer_toIdle (by simp [hhandling]) (by simp [hhandling])]
        obtain ⟨hserved, hidle⟩ := h.finishes (State.toIdle { s with
          event := .connectToCAnkerAp, config := config, staActive := staActive,
          apActive := apActive }) hwork (.inl rfl) rfl rfl rfl rfl rfl
        exact (hserved.answer hcall hidle (fun hfalse ↦ Bool.noConfusion hfalse) .connect).emit
          trivial trivial
      · simp only [hrequest, if_false]
        have hidle : Served (State.toIdle { s with
            config := config, staActive := staActive, apActive := apActive }) :=
          h.rests hlive (.inl rfl) rfl rfl rfl rfl rfl
        exact hidle.emit trivial trivial
  | true =>
      refine h.quiet rfl rfl rfl rfl (fun hs ↦ Handling.noConfusion hs) ?_ ?_ ?_ id id
      · intro k hk
        rwa [hlive]
      · intro k hk
        cases k with
        | connect => simpa [State.worksOn, hhandling] using hk
        | createAp => exact Bool.noConfusion hk
      · intro hconfigured
        have hevent : s.event = .connectToCAnkerAp := of_decide_eq_true hconfigured
        have hsta : config = staConfig s.event s.stored := by simpa using hok rfl
        change config = staConfig .connectToCAnkerAp s.stored
        rw [hsta, hevent]

theorem Served.connectionResultStep {ux : StatusBits} (h : s.Served)
    (hhandling : s.handling = .connectionResult ux) : (s.connectionResultStep ux).Served := by
  have hlive : ∀ k, s.pending k = s.bits.get k := by simp [State.pending, hhandling]
  have hidle : ∀ (attempts : ℕ) (reconnect : Bool), Served ({ s with
      attemptsReconnect := attempts, reconnect := reconnect }.toIdle.emit [.idle]) := by
    intro attempts reconnect
    have hrests : Served (State.toIdle { s with
        attemptsReconnect := attempts, reconnect := reconnect }) :=
      h.rests hlive (.inl rfl) rfl rfl rfl rfl rfl
    exact hrests.emit trivial trivial
  rw [State.connectionResultStep]
  by_cases hdone : ux.processDone = true
  · simp only [hdone, if_true]
    by_cases hrequest : s.event = .connectToCAnkerAp
    · have hwork : s.worksOn .connect = true := by simp [State.worksOn, hhandling, hrequest]
      obtain ⟨call, hcall, hcallRequest⟩ :=
        h.busy .connect (by rw [State.busy, hwork, Bool.or_true])
      have hconfig : s.config = call.config := by
        rw [h.config (by simp [State.configured, hhandling, hrequest]), Call.config, hcallRequest,
          h.calls.stored call (Caller.call_of_awaits hcall)]
      obtain ⟨hserved, hfree⟩ := h.finishes
        (State.toIdle { s with attemptsReconnect := 0, reconnect := false })
        hwork (.inl rfl) rfl rfl rfl rfl rfl
      have haccepts := hserved.accepts hcall hfree hconfig
        (h.working call hcall (hcallRequest ▸ hwork))
      rw [hcallRequest] at haccepts
      rw [if_pos hrequest, answer_attempts, answer_toIdle]
      · exact haccepts
      all_goals simp [State.emit, hhandling]
    · simp only [hrequest, if_false]
      exact hidle 0 false
  · simp only [hdone, Bool.false_eq_true, if_false]
    by_cases hretry : (ux.disconnected && s.reconnect) = true
    · rw [if_pos hretry]
      refine h.quiet rfl rfl rfl rfl (fun hs ↦ Handling.noConfusion hs) ?_ ?_ ?_ id id
      · intro k hk
        rwa [hlive]
      · intro k hk
        cases k with
        | connect => simpa [State.worksOn, hhandling] using hk
        | createAp => exact Bool.noConfusion hk
      · intro hconfigured
        exact h.config (by simpa [State.configured, hhandling] using hconfigured)
    · rw [if_neg hretry, if_neg (by simp [State.toIdle])]
      exact hidle s.attemptsReconnect _

theorem Served.taskStep (h : s.Served) (D : Driver) : (s.taskStep D).Served := by
  rw [State.taskStep]
  cases hhandling : s.handling with
  | created =>
      have hevent := h.start hhandling
      refine h.quiet rfl rfl rfl rfl ?_ ?_ ?_ ?_ (fun hbit ↦ Bool.noConfusion hbit)
        (fun hbit ↦ Bool.noConfusion hbit)
      · intro hcreated
        simp only at hcreated
        split_ifs at hcreated
      · intro k hk
        cases k <;> simp only [State.pending] at hk <;> split at hk <;> exact Bool.noConfusion hk
      · intro k hk
        cases hactive : s.handlerActive <;> cases k <;>
          simp [State.worksOn, hactive, hevent] at hk
      · intro hconfigured
        cases hactive : s.handlerActive <;> simp [State.configured, hactive] at hconfigured
  | idle => exact h.waitForRequest (.inl hhandling) false
  | waitingForRequest => exact h
  | requestTimedOut => exact h.waitForRequest (.inr (.inr hhandling)) true
  | request ux => exact h.requestStep D hhandling
  | changeToAp => exact h.changeToApStep D hhandling
  | connect => exact h.connectStep D hhandling
  | retry =>
      refine h.quiet rfl rfl rfl rfl (fun hs ↦ Handling.noConfusion hs) ?_ ?_ ?_
        (fun hbit ↦ Bool.noConfusion hbit) (fun hbit ↦ Bool.noConfusion hbit)
      · intro k hk
        cases k <;> simpa [State.pending, hhandling, State.retryStep, StatusBits.get] using hk
      · intro k hk
        cases k with
        | connect =>
            have hsame : s.worksOn .connect = decide (s.event = .connectToCAnkerAp) := by
              simp [State.worksOn, hhandling]
            rw [hsame]
            exact hk
        | createAp => exact Bool.noConfusion hk
      · intro hconfigured
        have hsame : s.configured = decide (s.event = .connectToCAnkerAp) := by
          simp [State.configured, hhandling]
        exact h.config (hsame.trans hconfigured)
  | connecting => exact h.waitForConnection (.inl hhandling) false
  | waitingForConnection => exact h
  | connectionTimedOut => exact h.waitForConnection (.inr (.inr hhandling)) true
  | connectionResult ux => exact h.connectionResultStep hhandling
  | ended => exact h

/-! ## Steps of the calls and of the event handler -/

theorem Served.waitOver (h : s.Served) : s.waitOver.Served := by
  rw [State.waitOver]
  split
  · rename_i hhandling
    refine h.quiet rfl rfl rfl rfl (fun hs ↦ Handling.noConfusion hs) ?_ ?_
      (fun hconfigured ↦ Bool.noConfusion hconfigured) id id
    · intro k hk
      simpa [State.pending, hhandling] using hk
    · intro k hk
      cases k <;> exact Bool.noConfusion hk
  · rename_i hhandling
    refine h.quiet rfl rfl rfl rfl (fun hs ↦ Handling.noConfusion hs) ?_ ?_ ?_ id id
    · intro k hk
      simpa [State.pending, hhandling] using hk
    · intro k hk
      cases k with
      | connect => simpa [State.worksOn, hhandling] using hk
      | createAp => exact Bool.noConfusion hk
    · intro hconfigured
      exact h.config (by simpa [State.configured, hhandling] using hconfigured)
  · exact h

theorem Served.storesCall (h : s.Served) (hfree : s.caller = .free) (request : Request)
    (credentials : Credentials) : (s.storesCall request credentials).Served := by
  have hawaits : s.caller.awaits = none := by rw [hfree]; rfl
  have hcalls : (s.storesCall request credentials).Calls := by
    refine ⟨?_, ?_, ?_, ?_, ?_, h.calls.replies⟩
    · intro c hc
      obtain rfl := Option.some.inj hc
      rfl
    · intro c hc
      obtain rfl := Option.some.inj hc
      refine ⟨Nat.lt_succ_self _, fun hover ↦ ?_⟩
      exact lt_irrefl _ (h.calls.fresh _ hover)
    · intro c hc
      simp [State.storesCall, Caller.awaits] at hc
    · exact fun c hover ↦ (h.calls.fresh c hover).trans (Nat.lt_succ_self _)
    · intro c hc
      simp [State.storesCall] at hc
  exact h.leaves rfl rfl (fun _ ↦ rfl) hcalls (h.busy_eq_false hawaits) rfl (h.noReply hawaits)

theorem get_request (bits : StatusBits) (k k' : Request) :
    (bits.request k).get k' = (decide (k' = k) || bits.get k') := by
  cases k <;> cases k' <;> simp [StatusBits.request, StatusBits.get]

theorem Calls.requests {call : Call} (h : s.Calls) (hcall : s.caller.call = some call) :
    Calls ({ s with caller := .requested call }.emit [.requested call]) := by
  have hover : ∀ c, Over (s.trace ++ [Event.requested call]) c → Over s.trace c := by
    intro c hc
    simpa [Over] using hc
  refine ⟨fun c hc ↦ h.stored c (hcall.trans hc), fun c hc ↦ ?_, fun c hc ↦ ?_,
    fun c hc ↦ h.fresh c (hover c hc), fun c hc ↦ ?_, ?_, ?_⟩
  · obtain ⟨hid, hnone⟩ := h.notOver c (hcall.trans hc)
    exact ⟨hid, fun hc' ↦ hnone (hover c hc')⟩
  · obtain rfl := Option.some.inj hc
    exact List.mem_append_right _ (List.mem_singleton_self _)
  · simp [State.emit] at hc
  · exact eachAt_append_singleton.mpr ⟨h.replies.own, fun c hc ↦ Event.noConfusion hc⟩
  · exact eachAt_append_singleton.mpr ⟨h.replies.asked, trivial⟩

/-- The request bit is set while the task has nothing to do for a call. -/
theorem Served.requests {call : Call} (h : s.Served) (hcall : s.caller = .cleared call) :
    Served { { s with caller := .requested call }.emit [.requested call] with
      bits := s.bits.request call.request } := by
  have hawaits : s.caller.awaits = none := by rw [hcall]; rfl
  have hidle := fun k ↦ Bool.or_eq_false_iff.mp (h.busy_eq_false hawaits k)
  have hcalls := h.calls.requests (by rw [hcall]; rfl)
  refine ⟨hcalls.congr rfl rfl rfl rfl, h.start, ?_, fun _ k' _ ↦ (hidle k').2, ?_, h.config, ?_⟩
  · intro k hk
    refine ⟨call, rfl, ?_⟩
    by_contra hne
    have hget : (s.bits.request call.request).get k = s.bits.get k := by
      rw [get_request, decide_eq_false (Ne.symm hne), Bool.false_or]
    rcases Bool.or_eq_true_iff.mp hk with hpending | hwork
    · have hbefore : State.pending { s with bits := s.bits.request call.request } k = true :=
        hpending
      rw [pending_setBits hget, (hidle k).1] at hbefore
      exact Bool.noConfusion hbefore
    · have hbefore : s.worksOn k = true := by cases k <;> exact hwork
      rw [(hidle k).2] at hbefore
      exact Bool.noConfusion hbefore
  · intro c _ hwork
    have hbefore : s.worksOn c.request = true := by cases hc : c.request <;> rw [hc] at hwork <;> exact hwork
    rw [(hidle c.request).2] at hbefore
    exact Bool.noConfusion hbefore
  · intro hreply
    have hnone := h.noReply hawaits
    have hbits : (s.bits.request call.request).accepted = s.bits.accepted ∧
        (s.bits.request call.request).rejected = s.bits.rejected := by
      cases call.request <;> exact ⟨rfl, rfl⟩
    simp only [hbits.1, hbits.2, hnone] at hreply
    exact Bool.noConfusion hreply

theorem Served.callerStep (h : s.Served) (htimely : s.Timely .callerContinues = true) :
    s.callerStep.Served := by
  rw [State.callerStep]
  cases hcaller : s.caller with
  | free => exact h
  | stored call =>
      have hawaits : s.caller.awaits = none := by rw [hcaller]; rfl
      refine h.leaves rfl rfl (fun k ↦ by cases k <;> rfl) ?_ (h.busy_eq_false hawaits) rfl rfl
      have hcall : s.caller.call = some call := by rw [hcaller]; rfl
      refine ⟨fun c hc ↦ h.calls.stored c (hcall.trans hc),
        fun c hc ↦ h.calls.notOver c (hcall.trans hc), ?_, h.calls.fresh, ?_, h.calls.replies⟩
      · intro c hc
        simp [Caller.awaits] at hc
      · intro c hc
        simp at hc
  | cleared call => exact (h.requests hcaller).setBits
  | requested call =>
      exact h.waitForReply (by rw [hcaller]; rfl) (fun hfalse ↦ Bool.noConfusion hfalse)
  | waiting call => exact h
  | timedOut call =>
      refine h.waitForReply (by rw [hcaller]; rfl) fun _ hreply ↦ ?_
      simpa [State.Timely, hcaller, hreply] using htimely
  | woken call accepted =>
      have hawaits : s.caller.awaits = none := by rw [hcaller]; rfl
      have hcall : s.caller.call = some call := by rw [hcaller]; rfl
      have hown : OwnReply s.trace (.returned call accepted) := by
        intro c hc
        obtain ⟨rfl, rfl⟩ := Event.returned.inj hc
        exact h.calls.woken call hcaller
      exact h.leaves rfl rfl (fun _ ↦ rfl) (h.calls.ends hcall (.inr ⟨_, rfl⟩) hown)
        (h.busy_eq_false hawaits) rfl (h.noReply hawaits)

theorem Served.eventHandlerContinues (h : s.Served) (reason : ℕ) :
    (s.eventHandlerContinues reason).Served := by
  have hsame : ∀ (attempts : ℕ) (reconnect : Bool), Served { s with
      eventHandler := none, attemptsReconnect := attempts, reconnect := reconnect } := by
    intro attempts reconnect
    exact h.quiet rfl rfl rfl rfl h.start (fun _ ↦ id) (fun k hk ↦ by cases k <;> exact hk)
      h.config id id
  rw [State.eventHandlerContinues]
  simp only
  split_ifs
  · exact hsame _ _
  · exact hsame _ _
  · exact hsame _ _
  · exact hsame _ _

/-- The event handler sets bits for ST_CONNECT only. -/
theorem Served.setConnectionBits {bits : StatusBits} (h : s.Served)
    (hget : ∀ k, bits.get k = s.bits.get k) (haccepted : bits.accepted = s.bits.accepted)
    (hrejected : bits.rejected = s.bits.rejected) : (s.setBits bits).Served := by
  refine Served.setBits (h.quiet rfl rfl rfl rfl h.start ?_ (fun k hk ↦ by cases k <;> exact hk)
    h.config (fun hbit ↦ haccepted ▸ hbit) fun hbit ↦ hrejected ▸ hbit)
  intro k hk
  rwa [pending_setBits (hget k)] at hk

theorem Served.step {a : Action} (h : s.Served) (htimely : s.Timely a = true) :
    (s.step a).Served := by
  cases a with
  | handlerActive =>
      exact h.quiet rfl rfl rfl rfl h.start (fun _ ↦ id) (fun k hk ↦ by cases k <;> exact hk)
        h.config id id
  | task D => exact h.taskStep D
  | waitOver => exact h.waitOver
  | staDisconnected reason =>
      simp only [State.step, State.staDisconnected]
      split_ifs
      · have hreason : Served { s with eventHandler := some reason } :=
          h.quiet rfl rfl rfl rfl h.start (fun _ ↦ id) (fun k hk ↦ by cases k <;> exact hk)
            h.config id id
        exact hreason.setConnectionBits (fun k ↦ by cases k <;> rfl) rfl rfl
      · exact h
  | eventHandlerContinues =>
      simp only [State.step]
      cases s.eventHandler with
      | none => exact h
      | some reason => exact h.eventHandlerContinues reason
  | gotIp =>
      simp only [State.step]
      split_ifs
      · exact h.setConnectionBits (fun k ↦ by cases k <;> rfl) rfl rfl
      · exact h
  | staStop =>
      simp only [State.step]
      split_ifs
      · exact h.quiet rfl rfl rfl rfl h.start (fun _ ↦ id) (fun k hk ↦ by cases k <;> exact hk)
          h.config id id
      · exact h
  | apStop =>
      simp only [State.step]
      split_ifs
      · exact h.quiet rfl rfl rfl rfl h.start (fun _ ↦ id) (fun k hk ↦ by cases k <;> exact hk)
          h.config id id
      · exact h
  | connectToAp ssid password =>
      simp only [State.step]
      split_ifs with hfree
      · exact h.storesCall hfree _ _
      · exact h
  | createAp ssid password =>
      simp only [State.step, State.createAp]
      split_ifs with hfree
      · exact h
      · exact h.storesCall hfree _ _
      · exact h
  | callerContinues => exact h.callerStep htimely
  | callerWaitOver =>
      simp only [State.step, State.callerWaitOver]
      split
      · rename_i call hcaller
        exact h.waits (by rw [hcaller]; rfl) rfl
      · exact h

theorem served_powerOn : powerOn.Served := by
  have hbusy : ∀ k, powerOn.busy k = false := fun k ↦ by cases k <;> rfl
  have hcalls : powerOn.Calls := by
    refine ⟨?_, ?_, ?_, ?_, ?_, eachAt_nil, eachAt_nil⟩ <;>
      simp [powerOn, Caller.call, Caller.awaits, Over]
  refine ⟨hcalls, by simp [powerOn], ?_, ?_, ?_, by simp [powerOn, configured], ?_⟩
  · intro k hk
    rw [hbusy k] at hk
    exact Bool.noConfusion hk
  · intro k k' _
    exact (Bool.or_eq_false_iff.mp (hbusy k')).2
  · intro call hcall
    simp [powerOn, Caller.awaits] at hcall
  · intro hreply
    simp [powerOn, StatusBits.none] at hreply

end State

/-! ## The replies -/

theorem repliesBelong_of_timely (actions : List State.Action)
    (htimely : Runs.Always State.step (fun s a ↦ s.Timely a = true) State.powerOn actions) :
    RepliesBelong (State.run actions).trace :=
  (Runs.invariant State.Served (fun _ _ ↦ State.Served.step) State.served_powerOn htimely).calls.replies

/-- `wifi_connect_to_ap` up to its wait, and the task up to its own. -/
def connecting (ssid password : List UInt8) : List State.Action :=
  [.connectToAp (some ssid) (some password), .callerContinues, .callerContinues, .callerContinues,
    .task okDriver, .task okDriver, .task okDriver, .task okDriver]

def connectedToCAnker : List State.Action :=
  connected ++ connecting [65] [66] ++ [.gotIp, .task okDriver, .callerContinues]

theorem repliesBelong_connectedToCAnker :
    RepliesBelong (State.run connectedToCAnker).trace ∧
      .returned ⟨0, .connect, ⟨[65], [66]⟩⟩ true ∈ (State.run connectedToCAnker).trace :=
  ⟨repliesBelong_of_timely connectedToCAnker (by decide), by decide⟩

/-- The connection comes up after the first call has given up, just before
the second call sets its bit. -/
def lateReply : List State.Action :=
  connected ++ connecting [65] [66] ++
    [.callerWaitOver, .callerContinues, .connectToAp (some [67]) (some [68]), .callerContinues,
      .gotIp, .task okDriver, .callerContinues, .callerContinues, .callerContinues]

theorem not_repliesBelong_lateReply :
    (¬∀ actions : List State.Action, EachAt OwnReply (State.run actions).trace) ∧
      ¬∀ actions : List State.Action, EachAt Asked (State.run actions).trace := by
  let trace := (State.run lateReply).trace
  constructor
  · intro h
    have hreply := h lateReply (trace.take 8) (.returned ⟨1, .connect, ⟨[67], [68]⟩⟩ true)
      (trace.drop 9) (by decide) _ rfl
    revert hreply
    decide
  · intro h
    obtain ⟨call, -, -, hrequested, hover⟩ := h lateReply (trace.take 4)
      (.completed .connect ⟨[65], [66]⟩) (trace.drop 5) (by decide)
    have hpre : trace.take 4 = [.idle, .requested ⟨0, .connect, ⟨[65], [66]⟩⟩,
      .taken .connect, .expired ⟨0, .connect, ⟨[65], [66]⟩⟩] := by decide
    rw [hpre] at hrequested hover
    obtain rfl : call = ⟨0, .connect, ⟨[65], [66]⟩⟩ := by simpa using hrequested
    exact hover (.inl (by decide))

end AnkerUpdater.Wifi
