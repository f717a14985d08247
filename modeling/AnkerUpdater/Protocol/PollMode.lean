import AnkerUpdater.Lib.Runs

/-!
# Poll mode of a P-Anker

The UDP and the TCP task of a P-Anker, `set_p_anker_into_poll_mode` and
`stop_p_anker_poll_mode` with its event bits.  A stop can come from
`updater_stop`, from the task that connects to the C-Anker and, after
GET_UPDATE_VERSION_ACK, from inside the UDP task.
-/

namespace AnkerUpdater

inductive PollKind where
  | udp
  | tcp
  deriving DecidableEq, Repr

/-- `udp_task_running` and `tcp_task_running`, or the bits UDP_TASK_STOPPED
and TCP_TASK_STOPPED. -/
structure Flags where
  udp : Bool
  tcp : Bool
  deriving DecidableEq

def Flags.get (f : Flags) : PollKind → Bool
  | .udp => f.udp
  | .tcp => f.tcp

def Flags.set (f : Flags) : PollKind → Flags
  | .udp => { f with udp := true }
  | .tcp => { f with tcp := true }

def Flags.none : Flags := ⟨false, false⟩

/-- Where a task stands: before its loop, at the loop condition, in the body
of the loop, waiting in a stop that it called itself, on its way to the
default AP after that, or between setting its bit and `vTaskDelete`. -/
inductive PollPhase where
  | setup
  | test
  | body
  | stopping
  | connecting
  | leaving
  deriving DecidableEq, Repr

structure PollTask where
  id : ℕ
  kind : PollKind
  phase : PollPhase
  deriving DecidableEq

inductive StopCaller where
  | updaterStop
  | connectTask
  | udpTask (id : ℕ)
  deriving DecidableEq

/-- A call of `stop_p_anker_poll_mode`; `before` are the tasks that were
alive when it came. -/
structure StopCall where
  caller : StopCaller
  waitForAllTasks : Bool
  before : List ℕ
  deriving DecidableEq

/-- A return from `stop_p_anker_poll_mode`, and the tasks alive then. -/
structure StopReturn where
  ok : Bool
  before : List ℕ
  alive : List ℕ
  deriving DecidableEq

/-- `waits` are the calls that wait for their bits; those in `woken` got them
and have not returned yet. -/
structure PollMode where
  running : Flags
  stopped : Flags
  tasks : List PollTask
  waits : List StopCall
  woken : List StopCall
  connectTasks : ℕ
  initialDone : Bool
  nextId : ℕ
  returns : List StopReturn
  deriving DecidableEq

namespace PollMode

def powerOn : PollMode := ⟨.none, .none, [], [], [], 0, false, 0, []⟩

def alive (s : PollMode) : List ℕ := s.tasks.map PollTask.id

def setPhase (s : PollMode) (id : ℕ) (phase : PollPhase) : PollMode :=
  { s with tasks := s.tasks.map fun t ↦ if t.id = id then { t with phase := phase } else t }

def delete (s : PollMode) (id : ℕ) : PollMode :=
  { s with tasks := s.tasks.filter fun t ↦ t.id ≠ id }

/-- The call returns.  `p_anker_connect_to_default_ap` ends the UDP task at
once if its stop has failed. -/
def stopReturns (s : PollMode) (ok : Bool) (c : StopCall) : PollMode :=
  let s := { s with returns := s.returns ++ [⟨ok, c.before, s.alive⟩] }
  match c.caller with
  | .udpTask id => if ok then s.setPhase id .connecting else s.delete id
  | _ => s

/-- `stop_p_anker_poll_mode` up to its wait. -/
def stopPAnkerPollMode (s : PollMode) (caller : StopCaller) : PollMode :=
  let c : StopCall := ⟨caller, s.running.udp && s.running.tcp, s.alive⟩
  if s.running.udp || s.running.tcp then
    { s with stopped := .none, running := .none, waits := s.waits ++ [c] }
  else s.stopReturns true c

def StopCall.satisfied (bits : Flags) (c : StopCall) : Bool :=
  if c.waitForAllTasks then bits.udp && bits.tcp else bits.udp || bits.tcp

/-- `xEventGroupSetBits`: every wait that is satisfied now ends, and if
there is one, the bits it waited for are cleared. -/
def setBits (s : PollMode) (kind : PollKind) : PollMode :=
  let bits := s.stopped.set kind
  let ended := s.waits.filter (StopCall.satisfied bits)
  { s with
    stopped := if ended = [] then bits else .none
    waits := s.waits.filter fun c ↦ !StopCall.satisfied bits c
    woken := s.woken ++ ended }

/-- The label `exit` of a task up to `vTaskDelete`. -/
def exit (s : PollMode) (t : PollTask) : PollMode := (s.setPhase t.id .leaving).setBits t.kind

/-- One half of `set_p_anker_into_poll_mode`. -/
def startTask (s : PollMode) (kind : PollKind) : PollMode :=
  if s.running.get kind then s
  else
    { s with
      running := s.running.set kind
      tasks := s.tasks ++ [⟨s.nextId, kind, .setup⟩]
      nextId := s.nextId + 1 }

/-- What a setup or the body of a loop comes to. -/
inductive Result where
  | failed
  | finished
  | connectToAp
  | getUpdateVersionAck
  deriving DecidableEq, Repr

def taskStep (s : PollMode) (t : PollTask) (r : Result) : PollMode :=
  match t.phase with
  | .setup =>
      if r = .failed then s.exit t
      else { s.setPhase t.id .test with running := s.running.set t.kind }
  | .test => if s.running.get t.kind then s.setPhase t.id .body else s.exit t
  | .body =>
      if t.kind = .tcp ∧ r = .connectToAp then
        { s.setPhase t.id .test with connectTasks := s.connectTasks + 1 }
      else if t.kind = .udp ∧ r = .getUpdateVersionAck then
        (s.setPhase t.id .stopping).stopPAnkerPollMode (.udpTask t.id)
      else s.setPhase t.id .test
  | .stopping => s
  | .connecting => s.delete t.id
  | .leaving => s.delete t.id

/-- The wait of the call ends after its 10 s with the bits that are set. -/
def expire (s : PollMode) (j : ℕ) : PollMode :=
  match s.waits[j]? with
  | none => s
  | some c => { s with waits := s.waits.eraseIdx j }.stopReturns (s.stopped.udp || s.stopped.tcp) c

/-- A call whose wait ended with its bits goes on: its task runs again. -/
def wake (s : PollMode) (j : ℕ) : PollMode :=
  match s.woken[j]? with
  | none => s
  | some c => { s with woken := s.woken.eraseIdx j }.stopReturns true c

/-- `updater_start` does `start udp` and then `start tcp`, or only
`startInstalled` if it finds an installed update on its first call. -/
inductive Action where
  | start (kind : PollKind)
  | startInstalled
  | updaterStop
  | connectTaskStops
  | task (id : ℕ) (r : Result)
  | expire (j : ℕ)
  | wake (j : ℕ)
  | restart
  deriving DecidableEq

def step (s : PollMode) : Action → PollMode
  | .start kind => { s.startTask kind with initialDone := true }
  | .startInstalled =>
      if s.initialDone then s
      else { s with connectTasks := s.connectTasks + 1, initialDone := true }
  | .updaterStop => s.stopPAnkerPollMode .updaterStop
  | .connectTaskStops =>
      if s.connectTasks = 0 then s
      else { s with connectTasks := s.connectTasks - 1 }.stopPAnkerPollMode .connectTask
  | .task id r =>
      match s.tasks.find? fun t ↦ t.id = id with
      | none => s
      | some t => s.taskStep t r
  | .expire j => s.expire j
  | .wake j => s.wake j
  | .restart => { powerOn with nextId := s.nextId, returns := s.returns }

def run (actions : List Action) : PollMode := actions.foldl step powerOn

/-! ## What poll mode promises -/

/-- At most one task of each kind is alive, and whenever a stop returned
UPDATER_OK, none of the tasks that were alive at its call was. -/
structure Safe (s : PollMode) : Prop where
  atMostOne : ∀ kind, (s.tasks.filter fun t ↦ t.kind = kind).length ≤ 1
  stops : ∀ r ∈ s.returns, r.ok = true → ∀ id ∈ r.before, id ∉ r.alive

/-- No task of the call is alive. -/
def Over (s : PollMode) (c : StopCall) : Prop := ∀ id ∈ c.before, id ∉ s.alive

instance (s : PollMode) (c : StopCall) : Decidable (s.Over c) :=
  inferInstanceAs (Decidable (∀ id ∈ c.before, id ∉ s.alive))

/-- Every task that is alive has its running flag. -/
def Flagged (s : PollMode) : Prop := ∀ t ∈ s.tasks, s.running.get t.kind = true

instance (s : PollMode) : Decidable s.Flagged :=
  inferInstanceAs (Decidable (∀ t ∈ s.tasks, s.running.get t.kind = true))

/-- No stop comes while a task without its running flag is alive, and no
task is started then or while a task of a pending stop is alive; a wait that
expires with a bit set does so after the tasks of its call, and a call that
got its bits goes on when none of its tasks is in front of `vTaskDelete`. -/
def Orderly (s : PollMode) : Action → Prop
  | .start kind => s.running.get kind = false → s.Flagged ∧ ∀ c ∈ s.waits, s.Over c
  | .updaterStop => s.Flagged
  | .connectTaskStops => s.connectTasks ≠ 0 → s.Flagged
  | .task id r => r = .getUpdateVersionAck →
      (∃ t ∈ s.tasks, t.id = id ∧ t.kind = .udp ∧ t.phase = .body) → s.Flagged
  | .expire j => (s.stopped.udp || s.stopped.tcp) = true → ∀ c ∈ s.waits[j]?, s.Over c
  | .wake j => ∀ c ∈ s.woken[j]?, ∀ t ∈ s.tasks, t.id ∈ c.before → t.phase ≠ .leaving
  | _ => True

/-! ## The invariant of orderly runs -/

/-- The tasks without their phases. -/
def listeners (s : PollMode) : List (ℕ × PollKind) := s.tasks.map fun t ↦ (t.id, t.kind)

/-- Those that have not set their bits. -/
def staying (s : PollMode) : List (ℕ × PollKind) :=
  (s.tasks.filter fun t ↦ t.phase ≠ .leaving).map fun t ↦ (t.id, t.kind)

theorem alive_eq (s : PollMode) : s.alive = s.listeners.map Prod.fst := by
  simp [alive, listeners, Function.comp_def]

theorem staying_subset (s : PollMode) : s.staying ⊆ s.listeners :=
  List.map_subset _ (List.filter_subset_self _)

@[simp] theorem listeners_setPhase (s : PollMode) (id : ℕ) (phase : PollPhase) :
    (s.setPhase id phase).listeners = s.listeners := by
  simp only [listeners, setPhase, List.map_map]
  apply List.map_congr_left
  intro t _
  simp only [Function.comp_apply]
  split_ifs <;> rfl

theorem mem_staying {s : PollMode} {l : ℕ × PollKind} :
    l ∈ s.staying ↔ ∃ t ∈ s.tasks, t.phase ≠ .leaving ∧ (t.id, t.kind) = l := by
  simp [staying, and_assoc]

theorem mem_staying_setPhase {s : PollMode} {id : ℕ} {phase : PollPhase} {l : ℕ × PollKind} :
    l ∈ (s.setPhase id phase).staying ↔
      if l.1 = id then phase ≠ .leaving ∧ l ∈ s.listeners else l ∈ s.staying := by
  simp only [mem_staying, setPhase, List.mem_map, listeners]
  constructor
  · rintro ⟨t', ⟨t, ht, rfl⟩, hphase, rfl⟩
    by_cases hid : t.id = id
    · simp only [hid, if_true] at hphase ⊢
      exact ⟨hphase, t, ht, by rw [hid]⟩
    · simp only [if_neg hid] at hphase ⊢
      exact ⟨t, ht, hphase, rfl⟩
  · intro hl
    split_ifs at hl with hid
    · obtain ⟨hphase, t, ht, rfl⟩ := hl
      exact ⟨_, ⟨t, ht, rfl⟩, by rwa [if_pos hid], by rw [if_pos hid]⟩
    · obtain ⟨t, ht, hphase, rfl⟩ := hl
      exact ⟨_, ⟨t, ht, rfl⟩, by rwa [if_neg hid], by rw [if_neg hid]⟩

theorem setPhase_of_notMem {s : PollMode} {id : ℕ} (hid : id ∉ s.alive) (phase : PollPhase) :
    s.setPhase id phase = s := by
  have htasks : (s.tasks.map fun t ↦ if t.id = id then { t with phase := phase } else t) =
      s.tasks := by
    conv_rhs => rw [← List.map_id s.tasks]
    apply List.map_congr_left
    intro t ht
    refine if_neg fun heq ↦ hid ?_
    rw [← heq]
    exact List.mem_map_of_mem ht
  rw [setPhase, htasks]

@[simp] theorem listeners_delete (s : PollMode) (id : ℕ) :
    (s.delete id).listeners = s.listeners.filter fun l ↦ l.1 ≠ id := by
  simp [listeners, delete, List.filter_map, Function.comp_def]

theorem staying_delete (s : PollMode) (id : ℕ) : (s.delete id).staying ⊆ s.staying := by
  intro l hl
  obtain ⟨t, ht, hphase, rfl⟩ := mem_staying.mp hl
  exact mem_staying.mpr ⟨t, List.mem_of_mem_filter ht, hphase, rfl⟩

theorem over_iff {s : PollMode} {c : StopCall} :
    s.Over c ↔ ∀ l ∈ s.listeners, l.1 ∉ c.before := by
  simp only [Over, alive_eq, List.mem_map, not_exists, not_and]
  constructor
  · exact fun h l hl hbefore ↦ h l.1 hbefore l hl rfl
  · rintro h id hid l hl rfl
    exact h l hl hid

/-- While a task of a pending stop has not set its bit, the bit is clear, and
a stop that waits for one bit waits for the only task.  All tasks of a call
that got its bits are leaving. -/
structure Inv (s : PollMode) : Prop where
  ids : (s.listeners.map Prod.fst).Nodup
  kinds : (s.listeners.map Prod.snd).Nodup
  fresh : ∀ l ∈ s.listeners, l.1 < s.nextId
  callsFresh : ∀ c ∈ s.waits ++ s.woken, ∀ id ∈ c.before, id < s.nextId
  callers : ∀ c ∈ s.waits ++ s.woken, ∀ id, c.caller = .udpTask id → id ∈ c.before
  pending : ∀ c ∈ s.waits, ∀ l ∈ s.staying, l.1 ∈ c.before → s.stopped.get l.2 = false ∧
    (c.waitForAllTasks = false → s.stopped = .none ∧ s.listeners = [l])
  woken : ∀ c ∈ s.woken, ∀ l ∈ s.staying, l.1 ∉ c.before
  stops : ∀ r ∈ s.returns, r.ok = true → ∀ id ∈ r.before, id ∉ r.alive

@[simp] theorem Flags.get_none (kind : PollKind) : Flags.none.get kind = false := by
  cases kind <;> rfl

theorem Flags.get_set (f : Flags) (kind kind' : PollKind) :
    (f.set kind).get kind' = (decide (kind' = kind) || f.get kind') := by
  cases kind <;> cases kind' <;> simp [Flags.set, Flags.get]

theorem inv_powerOn : powerOn.Inv where
  ids := List.nodup_nil
  kinds := List.nodup_nil
  fresh := by simp [powerOn, listeners]
  callsFresh := by simp [powerOn]
  callers := by simp [powerOn]
  pending := by simp [powerOn]
  woken := by simp [powerOn]
  stops := by simp [powerOn]

section

variable {s : PollMode}

theorem flagged_iff : s.Flagged ↔ ∀ l ∈ s.listeners, s.running.get l.2 = true := by
  simp [Flagged, listeners]

/-- Running flags and the number of connecting tasks play no part, and tasks
may only leave and calls only end. -/
theorem Inv.mono {s' : PollMode} (h : s.Inv) (hlisteners : s'.listeners = s.listeners)
    (hstaying : s'.staying ⊆ s.staying) (hstopped : s'.stopped = s.stopped)
    (hwaits : s'.waits ⊆ s.waits) (hwoken : s'.woken ⊆ s.woken) (hnext : s'.nextId = s.nextId)
    (hreturns : s'.returns = s.returns) : s'.Inv where
  ids := hlisteners ▸ h.ids
  kinds := hlisteners ▸ h.kinds
  fresh := by rw [hlisteners, hnext]; exact h.fresh
  callsFresh c hc := by
    rw [hnext]
    exact h.callsFresh c (List.append_subset.mpr ⟨List.subset_append_of_subset_left _ hwaits,
      List.subset_append_of_subset_right _ hwoken⟩ hc)
  callers c hc := h.callers c (List.append_subset.mpr
    ⟨List.subset_append_of_subset_left _ hwaits, List.subset_append_of_subset_right _ hwoken⟩ hc)
  pending c hc l hl := by
    rw [hlisteners, hstopped]
    exact h.pending c (hwaits hc) l (hstaying hl)
  woken c hc l hl := h.woken c (hwoken hc) l (hstaying hl)
  stops := hreturns ▸ h.stops

/-- A task that stays takes another phase. -/
theorem Inv.setPhase (h : s.Inv) {t : PollTask} (ht : t ∈ s.tasks) (hstays : t.phase ≠ .leaving)
    (phase : PollPhase) : (s.setPhase t.id phase).Inv := by
  refine h.mono (listeners_setPhase s t.id phase) ?_ rfl (List.Subset.refl _)
    (List.Subset.refl _) rfl rfl
  intro l hl
  rw [mem_staying_setPhase] at hl
  split_ifs at hl with hid
  · have hmem : (t.id, t.kind) ∈ s.listeners := List.mem_map_of_mem ht
    obtain rfl : l = (t.id, t.kind) := List.inj_on_of_nodup_map h.ids hl.2 hmem hid
    exact mem_staying.mpr ⟨t, ht, hstays, rfl⟩
  · exact hl

theorem Inv.delete (h : s.Inv) (id : ℕ) : (s.delete id).Inv := by
  have hsub : ∀ l ∈ (s.delete id).listeners, l ∈ s.listeners := by
    intro l hl
    rw [listeners_delete] at hl
    exact List.mem_of_mem_filter hl
  have hsublist : List.Sublist (s.delete id).listeners s.listeners := by
    rw [listeners_delete]
    exact List.filter_sublist
  refine ⟨h.ids.sublist (hsublist.map _), h.kinds.sublist (hsublist.map _),
    fun l hl ↦ h.fresh l (hsub l hl), h.callsFresh, h.callers, ?_,
    fun c hc l hl ↦ h.woken c hc l (staying_delete s id hl), h.stops⟩
  intro c hc l hl hbefore
  obtain ⟨hbit, hsingle⟩ := h.pending c hc l (staying_delete s id hl) hbefore
  refine ⟨hbit, fun hone ↦ ⟨(hsingle hone).1, ?_⟩⟩
  have hmem := staying_subset _ hl
  rw [(hsingle hone).2] at hsublist
  exact hsublist.eq_of_length_le (List.length_pos_of_mem hmem)

theorem Inv.dropCalls (h : s.Inv) {waits woken : List StopCall} (hwaits : waits ⊆ s.waits)
    (hwoken : woken ⊆ s.woken) : Inv { s with waits := waits, woken := woken } :=
  h.mono rfl (List.Subset.refl _) rfl hwaits hwoken rfl rfl

/-- A stop that succeeds in time finds its own task gone. -/
theorem Inv.stopReturns (h : s.Inv) {ok : Bool} {c : StopCall} (hover : ok = true → s.Over c)
    (hcaller : ∀ id, c.caller = .udpTask id → id ∈ c.before) : (s.stopReturns ok c).Inv := by
  have hreturned : Inv { s with returns := s.returns ++ [⟨ok, c.before, s.alive⟩] } := by
    refine ⟨h.ids, h.kinds, h.fresh, h.callsFresh, h.callers, h.pending, h.woken, ?_⟩
    intro r hr
    rcases List.mem_append.mp hr with hr | hr
    · exact h.stops r hr
    · obtain rfl := List.mem_singleton.mp hr
      exact fun hok ↦ hover hok
  rw [PollMode.stopReturns]
  cases hc : c.caller with
  | udpTask id =>
      simp only
      split_ifs with hok
      · rw [setPhase_of_notMem]
        · exact hreturned
        · exact hover hok id (hcaller id hc)
      · exact hreturned.delete id
  | _ => exact hreturned

theorem Inv.setBits {kind : PollKind} (h : s.Inv) (hkind : ∀ l ∈ s.staying, l.2 ≠ kind)
    (hone : ∀ c ∈ s.waits, c.waitForAllTasks = false → ∀ l ∈ s.staying, l.1 ∉ c.before) :
    (s.setBits kind).Inv := by
  have hbit : ∀ c ∈ s.waits, ∀ l ∈ s.staying, l.1 ∈ c.before →
      (s.stopped.set kind).get l.2 = false := by
    intro c hc l hl hbefore
    rw [Flags.get_set, (h.pending c hc l hl hbefore).1, Bool.or_false]
    exact decide_eq_false (hkind l hl)
  have hleft : ∀ c ∈ s.waits, StopCall.satisfied (s.stopped.set kind) c = true →
      ∀ l ∈ s.staying, l.1 ∉ c.before := by
    intro c hc hsatisfied
    cases hall : c.waitForAllTasks with
    | false => exact hone c hc hall
    | true =>
        intro l hl hbefore
        have hclear := hbit c hc l hl hbefore
        simp only [StopCall.satisfied, hall, if_true, Bool.and_eq_true] at hsatisfied
        cases hl2 : l.2 <;> simp_all [Flags.get]
  have hcalls : ∀ c ∈ (s.setBits kind).waits ++ (s.setBits kind).woken, c ∈ s.waits ++ s.woken := by
    intro c hc
    simp only [PollMode.setBits, List.mem_append, List.mem_filter] at hc ⊢
    tauto
  refine ⟨h.ids, h.kinds, h.fresh, fun c hc ↦ h.callsFresh c (hcalls c hc),
    fun c hc ↦ h.callers c (hcalls c hc), ?_, ?_, h.stops⟩
  · intro c hc l hl hbefore
    have hmem : c ∈ s.waits := List.mem_of_mem_filter hc
    refine ⟨?_, fun hall ↦ absurd hbefore (hone c hmem hall l hl)⟩
    simp only [PollMode.setBits]
    split_ifs
    · exact hbit c hmem l hl hbefore
    · exact Flags.get_none l.2
  · intro c hc
    rcases List.mem_append.mp hc with hc | hc
    · exact h.woken c hc
    · obtain ⟨hmem, hsatisfied⟩ := List.mem_filter.mp hc
      exact hleft c hmem hsatisfied

theorem Inv.exit {t : PollTask} (h : s.Inv) (ht : t ∈ s.tasks) (hstays : t.phase ≠ .leaving) :
    (s.exit t).Inv := by
  have hmem : (t.id, t.kind) ∈ s.listeners := List.mem_map_of_mem ht
  have hleft : ∀ l ∈ (s.setPhase t.id .leaving).staying, l ∈ s.staying ∧ l.1 ≠ t.id := by
    intro l hl
    rw [mem_staying_setPhase] at hl
    split_ifs at hl with hid
    · exact absurd rfl hl.1
    · exact ⟨hl, hid⟩
  refine (h.setPhase ht hstays .leaving).setBits ?_ ?_
  · intro l hl hkind
    obtain ⟨hl, hid⟩ := hleft l hl
    have heq : l = (t.id, t.kind) :=
      List.inj_on_of_nodup_map h.kinds (staying_subset s hl) hmem hkind
    exact hid (by rw [heq])
  · intro c hc hall l hl hbefore
    obtain ⟨hl, hid⟩ := hleft l hl
    rw [((h.pending c hc l hl hbefore).2 hall).2, List.mem_singleton] at hmem
    exact hid (by rw [← hmem])

/-- If one kind has no running flag, at most one task is left. -/
theorem Inv.listeners_eq_singleton (h : s.Inv) (hflagged : s.Flagged)
    (hone : (s.running.udp && s.running.tcp) = false) {l : ℕ × PollKind} (hl : l ∈ s.listeners) :
    s.listeners = [l] := by
  have hsame : ∀ l' ∈ s.listeners, l' = l := by
    intro l' hl'
    apply List.inj_on_of_nodup_map h.kinds hl' hl
    have h1 := flagged_iff.mp hflagged l hl
    have h2 := flagged_iff.mp hflagged l' hl'
    cases hl2 : l.2 <;> cases hl2' : l'.2 <;> simp_all [Flags.get]
  have hnodup : s.listeners.Nodup := List.Nodup.of_map _ h.ids
  have hrep := List.eq_replicate_of_mem hsame
  have hlength : s.listeners.length ≤ 1 := by
    rw [hrep] at hnodup
    exact List.nodup_replicate.mp hnodup
  have hpos := List.length_pos_of_mem hl
  rw [hrep, show s.listeners.length = 1 by omega, List.replicate_one]

theorem Inv.stopPAnkerPollMode (h : s.Inv) {caller : StopCaller} (hflagged : s.Flagged)
    (hcaller : ∀ id, caller = .udpTask id → id ∈ s.alive) :
    (s.stopPAnkerPollMode caller).Inv := by
  unfold PollMode.stopPAnkerPollMode
  simp only
  split_ifs with hrun
  · have hcalls : ∀ {c c' : StopCall}, c ∈ (s.waits ++ [c']) ++ s.woken →
        c ∈ s.waits ++ s.woken ∨ c = c' := by
      intro c c' hc
      simp only [List.mem_append, List.mem_singleton] at hc ⊢
      tauto
    refine ⟨h.ids, h.kinds, h.fresh, ?_, ?_, ?_, h.woken, h.stops⟩
    · intro c hc id hid
      rcases hcalls hc with hc | rfl
      · exact h.callsFresh c hc id hid
      · rw [alive_eq] at hid
        obtain ⟨l, hl, rfl⟩ := List.mem_map.mp hid
        exact h.fresh l hl
    · intro c hc
      rcases hcalls hc with hc | rfl
      · exact h.callers c hc
      · exact hcaller
    · intro c hc l hl hbefore
      rcases List.mem_append.mp hc with hc | hc
      · exact ⟨Flags.get_none l.2, fun hone ↦ ⟨rfl, ((h.pending c hc l hl hbefore).2 hone).2⟩⟩
      · obtain rfl := List.mem_singleton.mp hc
        exact ⟨Flags.get_none l.2,
          fun hone ↦ ⟨rfl, h.listeners_eq_singleton hflagged hone (staying_subset s hl)⟩⟩
  · refine h.stopReturns (fun _ ↦ over_iff.mpr fun l hl ↦ ?_) hcaller
    have hflag := flagged_iff.mp hflagged l hl
    cases hl2 : l.2 <;> simp_all [Flags.get]

theorem Inv.startTask {kind : PollKind} (h : s.Inv)
    (horderly : s.running.get kind = false → s.Flagged ∧ ∀ c ∈ s.waits, s.Over c) :
    (s.startTask kind).Inv := by
  rw [PollMode.startTask]
  split_ifs with hrun
  · exact h
  · obtain ⟨hflagged, hover⟩ := horderly (by simpa using hrun)
    have hlisteners : listeners { s with
        running := s.running.set kind
        tasks := s.tasks ++ [⟨s.nextId, kind, .setup⟩]
        nextId := s.nextId + 1 } = s.listeners ++ [(s.nextId, kind)] := by
      simp [listeners]
    have hstaying : ∀ l ∈ staying { s with
        running := s.running.set kind
        tasks := s.tasks ++ [⟨s.nextId, kind, .setup⟩]
        nextId := s.nextId + 1 }, l ∈ s.staying ∨ l = (s.nextId, kind) := by
      simp [staying]
    have hnew : ∀ l ∈ s.listeners ++ [(s.nextId, kind)],
        l ∈ s.listeners ∨ l = (s.nextId, kind) := by
      simp
    constructor
    · rw [hlisteners, List.map_append, List.nodup_append]
      refine ⟨h.ids, by simp, ?_⟩
      intro id hid id' hid' heq
      obtain ⟨l, hl, rfl⟩ := List.mem_map.mp hid
      have hlt := h.fresh l hl
      simp at hid'
      omega
    · rw [hlisteners, List.map_append, List.nodup_append]
      refine ⟨h.kinds, by simp, ?_⟩
      intro k hk k' hk' heq
      obtain ⟨l, hl, rfl⟩ := List.mem_map.mp hk
      obtain rfl : k' = kind := by simpa using hk'
      exact hrun (heq ▸ flagged_iff.mp hflagged l hl)
    · rw [hlisteners]
      intro l hl
      rcases hnew l hl with hl | rfl
      · exact (h.fresh l hl).trans (Nat.lt_succ_self _)
      · exact Nat.lt_succ_self _
    · exact fun c hc id hid ↦ (h.callsFresh c hc id hid).trans (Nat.lt_succ_self _)
    · exact h.callers
    · intro c hc l hl hbefore
      rcases hstaying l hl with hl | rfl
      · exact absurd hbefore (over_iff.mp (hover c hc) l (staying_subset s hl))
      · exact absurd (h.callsFresh c (List.mem_append_left _ hc) _ hbefore) (lt_irrefl _)
    · intro c hc l hl hbefore
      rcases hstaying l hl with hl | rfl
      · exact h.woken c hc l hl hbefore
      · exact absurd (h.callsFresh c (List.mem_append_right _ hc) _ hbefore) (lt_irrefl _)
    · exact h.stops

theorem Inv.taskStep {t : PollTask} {r : Result} (h : s.Inv) (ht : t ∈ s.tasks)
    (hflagged : r = .getUpdateVersionAck → t.kind = .udp → t.phase = .body → s.Flagged) :
    (s.taskStep t r).Inv := by
  have hset (hstays : t.phase ≠ .leaving) (phase : PollPhase) := h.setPhase ht hstays phase
  rw [PollMode.taskStep]
  cases hphase : t.phase with
  | setup =>
      simp only
      split_ifs
      · exact h.exit ht (by simp [hphase])
      · exact (hset (by simp [hphase]) .test).mono rfl (List.Subset.refl _) rfl
          (List.Subset.refl _) (List.Subset.refl _) rfl rfl
  | test =>
      simp only
      split_ifs
      · exact hset (by simp [hphase]) .body
      · exact h.exit ht (by simp [hphase])
  | body =>
      simp only
      split_ifs with hconnect hversion
      · exact (hset (by simp [hphase]) .test).mono rfl (List.Subset.refl _) rfl
          (List.Subset.refl _) (List.Subset.refl _) rfl rfl
      · apply (hset (by simp [hphase]) .stopping).stopPAnkerPollMode
        · rw [flagged_iff, listeners_setPhase]
          exact flagged_iff.mp (hflagged hversion.2 hversion.1 hphase)
        · rintro id ⟨⟩
          rw [alive_eq, listeners_setPhase, ← alive_eq]
          exact List.mem_map_of_mem ht
      · exact hset (by simp [hphase]) .test
  | stopping => exact h
  | connecting => exact h.delete t.id
  | leaving => exact h.delete t.id

theorem Inv.expire {j : ℕ} (h : s.Inv)
    (hover : (s.stopped.udp || s.stopped.tcp) = true → ∀ c ∈ s.waits[j]?, s.Over c) :
    (s.expire j).Inv := by
  rw [PollMode.expire]
  cases hwait : s.waits[j]? with
  | none => exact h
  | some c =>
      have hdropped : Inv { s with waits := s.waits.eraseIdx j } :=
        h.dropCalls List.eraseIdx_subset (List.Subset.refl _)
      exact hdropped.stopReturns (fun hbits ↦ hover hbits c hwait)
        (h.callers c (List.mem_append_left _ (List.mem_of_getElem? hwait)))

theorem Inv.wake {j : ℕ} (h : s.Inv)
    (hleft : ∀ c ∈ s.woken[j]?, ∀ t ∈ s.tasks, t.id ∈ c.before → t.phase ≠ .leaving) :
    (s.wake j).Inv := by
  rw [PollMode.wake]
  cases hwoken : s.woken[j]? with
  | none => exact h
  | some c =>
      have hmem := List.mem_of_getElem? hwoken
      have hdropped : Inv { s with woken := s.woken.eraseIdx j } :=
        h.dropCalls (List.Subset.refl _) List.eraseIdx_subset
      have hover : s.Over c := by
        intro id hbefore halive
        obtain ⟨t, ht, rfl⟩ := List.mem_map.mp halive
        have hstays := hleft c hwoken t ht hbefore
        exact h.woken c hmem _ (mem_staying.mpr ⟨t, ht, hstays, rfl⟩) hbefore
      exact hdropped.stopReturns (fun _ ↦ hover) (h.callers c (List.mem_append_right _ hmem))

theorem Inv.restart (h : s.Inv) :
    Inv { powerOn with nextId := s.nextId, returns := s.returns } where
  ids := inv_powerOn.ids
  kinds := inv_powerOn.kinds
  fresh := by simp [powerOn, listeners]
  callsFresh := by simp [powerOn]
  callers := inv_powerOn.callers
  pending := inv_powerOn.pending
  woken := inv_powerOn.woken
  stops := h.stops

theorem Inv.step {a : Action} (h : s.Inv) (horderly : s.Orderly a) : (s.step a).Inv := by
  have hsame {s' : PollMode} (hs' : s'.Inv) (connectTasks : ℕ) (initialDone : Bool) :
      Inv { s' with connectTasks := connectTasks, initialDone := initialDone } :=
    hs'.mono rfl (List.Subset.refl _) rfl (List.Subset.refl _) (List.Subset.refl _) rfl rfl
  cases a with
  | start kind => exact hsame (h.startTask horderly) _ true
  | startInstalled =>
      simp only [PollMode.step]
      split_ifs
      · exact h
      · exact hsame h _ true
  | updaterStop =>
      apply h.stopPAnkerPollMode horderly
      rintro id ⟨⟩
  | connectTaskStops =>
      simp only [PollMode.step]
      split_ifs with hnone
      · exact h
      · apply (hsame h (s.connectTasks - 1) s.initialDone).stopPAnkerPollMode (horderly hnone)
        rintro id ⟨⟩
  | task id r =>
      simp only [PollMode.step]
      cases hfind : s.tasks.find? fun t ↦ t.id = id with
      | none => exact h
      | some t =>
          have ht := List.mem_of_find?_eq_some hfind
          have hid : t.id = id := by simpa using List.find?_some hfind
          exact h.taskStep ht fun hr hkind hphase ↦ horderly hr ⟨t, ht, hid, hkind, hphase⟩
  | expire j => exact h.expire horderly
  | wake j => exact h.wake horderly
  | restart => exact h.restart

theorem Inv.safe (h : s.Inv) : s.Safe where
  atMostOne kind := by
    have hkinds : (s.tasks.map PollTask.kind).Nodup := by
      simpa [listeners, Function.comp_def] using h.kinds
    have hcount := List.nodup_iff_count_le_one.mp hkinds kind
    rw [List.count, List.countP_map, List.countP_eq_length_filter] at hcount
    simpa [Function.comp_def, beq_eq_decide] using hcount
  stops := h.stops

end

instance (s : PollMode) : (a : Action) → Decidable (s.Orderly a)
  | .start kind => inferInstanceAs (Decidable (s.running.get kind = false →
      s.Flagged ∧ ∀ c ∈ s.waits, s.Over c))
  | .updaterStop => inferInstanceAs (Decidable s.Flagged)
  | .connectTaskStops => inferInstanceAs (Decidable (s.connectTasks ≠ 0 → s.Flagged))
  | .task id r => inferInstanceAs (Decidable (r = .getUpdateVersionAck →
      (∃ t ∈ s.tasks, t.id = id ∧ t.kind = .udp ∧ t.phase = .body) → s.Flagged))
  | .expire j => inferInstanceAs (Decidable ((s.stopped.udp || s.stopped.tcp) = true →
      ∀ c ∈ s.waits[j]?, s.Over c))
  | .wake j => inferInstanceAs (Decidable (∀ c ∈ s.woken[j]?, ∀ t ∈ s.tasks,
      t.id ∈ c.before → t.phase ≠ .leaving))
  | .startInstalled => .isTrue trivial
  | .restart => .isTrue trivial

instance (s : PollMode) : Decidable s.Safe :=
  decidable_of_iff ((∀ kind ∈ [PollKind.udp, .tcp],
      (s.tasks.filter fun t ↦ t.kind = kind).length ≤ 1) ∧
    ∀ r ∈ s.returns, r.ok = true → ∀ id ∈ r.before, id ∉ r.alive)
  ⟨fun h ↦ ⟨fun kind ↦ h.1 kind (by cases kind <;> simp), h.2⟩,
    fun h ↦ ⟨fun kind _ ↦ h.atMostOne kind, h.stops⟩⟩

theorem inv_run {actions : List Action} (horderly : Runs.Always step Orderly powerOn actions) :
    (run actions).Inv :=
  Runs.invariant Inv (fun _ _ ↦ Inv.step) inv_powerOn horderly

/-! ## The two listeners -/

theorem safe_of_orderly (actions : List Action)
    (horderly : Runs.Always step Orderly powerOn actions) :
    ∀ pre post, actions = pre ++ post → (run pre).Safe := by
  rintro pre post rfl
  exact (inv_run (Runs.always_append.mp horderly).1).safe

/-- Started, stopped, and started again when both tasks have left. -/
def startedTwice : List Action :=
  [.start .udp, .start .tcp, .task 0 .finished, .task 0 .finished, .task 1 .finished,
    .updaterStop, .task 1 .finished, .task 0 .finished, .task 0 .finished, .task 1 .finished,
    .task 0 .finished, .wake 0, .start .udp, .start .tcp]

theorem safe_startedTwice : (run startedTwice).Safe ∧ (run startedTwice).returns ≠ [] ∧
    (run startedTwice).tasks.length = 2 :=
  ⟨safe_of_orderly startedTwice (by decide) startedTwice [] rfl, by decide, by decide⟩

/-- The UDP task is in a long flash operation when poll mode is stopped: the
TCP task sets its bit, which is enough after 10 s. -/
def stoppedDuringFlash : List Action :=
  [.start .udp, .start .tcp, .task 0 .finished, .task 0 .finished, .task 1 .finished,
    .updaterStop, .task 1 .finished, .task 1 .finished, .expire 0]

theorem not_safe_stoppedDuringFlash :
    (¬∀ actions : List Action, (run actions).Safe) ∧
      ¬∀ (actions : List Action) (kind : PollKind),
        ((run actions).tasks.filter fun t ↦ t.kind = kind).length ≤ 1 := by
  constructor
  · intro h
    have hstopped := h stoppedDuringFlash
    revert hstopped
    decide
  · intro h
    have hstarted := h (stoppedDuringFlash ++ [.start .udp]) .udp
    revert hstarted
    decide

-- a stop of higher priority returns before the UDP task, which has set the last bit, is deleted
example : ¬(run [.start .udp, .start .tcp, .task 0 .finished, .task 0 .finished,
    .task 1 .finished, .updaterStop, .task 1 .finished, .task 0 .finished, .task 0 .finished,
    .wake 0]).Safe := by decide

end PollMode

end AnkerUpdater
