import AnkerUpdater.Hawkbit.Feedback
import AnkerUpdater.Lib.Runs

/-!
# Starting and stopping the client

`hawkbit_client_stop` sets BIT_STOP and waits for BIT_STOPPED, which the
task sets when it has left its loop.  Nobody clears BIT_STOPPED again, and
`hawkbit_client_start` sets `taskRunState` only after the new task exists.
-/

namespace AnkerUpdater.Hawkbit

/-! ## What starting and stopping promise -/

/-- A task runs, and no stop request is left that would end it. -/
structure Device.Serves (d : Device) : Prop where
  tasks : d.tasks ≠ []
  taskRunState : d.globals.taskRunState ≠ .inactive
  stop : d.globals.taskStatusBits.stop = false
  clientState : ∀ t ∈ d.tasks, t.clientState ≠ .stop

/-- A stop request finds BIT_STOPPED cleared, and a new task does not test
its loop condition before `hawkbit_client_start` has set `taskRunState`. -/
def Device.Orderly (d : Device) : Action → Prop
  | .stop => d.caller = .free → d.globals.taskRunState = .active →
      d.globals.taskStatusBits.stopped = false
  | .pass _ i => d.caller = .starting → d.tasks[i]? = none
  | _ => True

instance (d : Device) : (a : Action) → Decidable (d.Orderly a)
  | .stop => inferInstanceAs (Decidable (_ → _ → _))
  | .pass _ _ => inferInstanceAs (Decidable (_ → _))
  | .powerFails _ _ _ _ _ => .isTrue trivial
  | .start _ => .isTrue trivial
  | .callerContinues => .isTrue trivial
  | .triggerEvent => .isTrue trivial

/-! ## One pass -/

theorem foldl_apply_bits (events : List Event) (g : Globals) :
    (events.foldl Globals.apply g).taskStatusBits = g.taskStatusBits := by
  induction events generalizing g with
  | nil => rfl
  | cons e events ih =>
      rw [List.foldl_cons, ih]
      cases e <;> rfl

theorem foldl_apply_of_not_taskRunState {events : List Event} (g : Globals)
    (h : ∀ e ∈ events, ∀ s, e ≠ .taskRunState s) : events.foldl Globals.apply g = g := by
  induction events generalizing g with
  | nil => rfl
  | cons e events ih =>
      obtain ⟨he, hevents⟩ := List.forall_mem_cons.mp h
      have hsame : g.apply e = g := by
        cases e with
        | taskRunState s => exact absurd rfl (he s)
        | _ => rfl
      rw [List.foldl_cons, hsame, ih g hevents]

/-- A pass of CHECK ends with ACTIVE whatever state the round went through. -/
theorem taskRunState_check {E : CheckEnv} {flash : Flash} {g : Globals}
    (hactive : g.taskRunState = .active) :
    ((checkInstalledUpdates E flash).2.foldl Globals.apply g).taskRunState = .active := by
  by_cases hevaluates : ∃ info, Evaluates E flash info
  · obtain ⟨info, hinfo⟩ := hevaluates
    have hclose : ∀ e ∈ (closeUpdate E (afterRound E info.atRound)).2, ∀ s,
        e ≠ .taskRunState s := by
      intro e he s
      rw [closeUpdate] at he
      split_ifs at he <;> simp at he <;> rcases he with rfl | rfl <;> simp
    rw [checkInstalledUpdates_of_evaluates hinfo, eventsAfterRound, List.foldl_append,
      List.foldl_cons, List.foldl_append, List.foldl_cons, foldl_apply_of_not_taskRunState _ hclose]
    rfl
  · rw [checkInstalledUpdates_of_not_evaluates fun info h ↦ hevaluates ⟨info, h⟩]
    exact hactive

theorem taskRunState_emit {d : Device} (E : PassEnv) (t : Task)
    (hactive : d.globals.taskRunState = .active) :
    (d.emit (passEvents E d t)).globals.taskRunState = .active := by
  by_cases hcheck : t.clientState = .check
  · have hevents : passEvents E d t = (checkInstalledUpdates E.check d.flash).2 := by
      simp [passEvents, hactive, hcheck]
    rw [Device.emit, hevents]
    exact taskRunState_check hactive
  · have hnone : ∀ e ∈ passEvents E d t, ∀ s, e ≠ .taskRunState s := by
      intro e he s hs
      subst hs
      rcases (mem_passEvents he).2 with ⟨-, hdownload⟩ | ⟨-, -, hinstall⟩ | ⟨hstate, -⟩
      · have hevent := mem_downloadEvents hdownload
        simp at hevent
      · exact Event.noConfusion hinstall
      · exact hcheck hstate
    rw [Device.emit, foldl_apply_of_not_taskRunState _ hnone]
    exact hactive

/-- A pass outside STOP leaves the run state and BIT_STOPPED alone; only
IDLE takes the stop request, and only then STOP follows. -/
structure KeepsRunning (g g' : Globals) (t' : Task) : Prop where
  taskRunState : g'.taskRunState = g.taskRunState
  stopped : g'.taskStatusBits.stopped = g.taskStatusBits.stopped
  stop : (g.taskStatusBits.stop = true ∧ g'.taskStatusBits.stop = false ∧ t'.clientState = .stop) ∨
    (g'.taskStatusBits.stop = g.taskStatusBits.stop ∧ t'.clientState ≠ .stop)

theorem idlePass_keepsRunning (g : Globals) (t : Task) :
    KeepsRunning g (idlePass g t).globals (idlePass g t).task := by
  rw [idlePass]
  by_cases hstop : g.taskStatusBits.stop = true
  · simp only [if_pos hstop]
    exact ⟨rfl, rfl, .inl ⟨hstop, rfl, rfl⟩⟩
  · simp only [if_neg hstop]
    refine ⟨rfl, rfl, .inr ⟨?_, ?_⟩⟩
    · simpa using hstop
    · split_ifs <;> simp

theorem switchPass_keepsRunning (E : PassEnv) (flash : Flash) (g : Globals) {t : Task}
    (h : t.clientState ≠ .stop) :
    KeepsRunning g (switchPass E flash g t).globals (switchPass E flash g t).task := by
  cases hstate : t.clientState with
  | idle =>
      simp only [switchPass, hstate]
      exact idlePass_keepsRunning g t
  | poll =>
      simp only [switchPass, hstate]
      refine ⟨rfl, rfl, .inr ⟨rfl, ?_⟩⟩
      rw [pollPass]
      cases E.actions with
      | none => simp
      | some content =>
          simp only
          split_ifs <;> simp
  | download =>
      simp only [switchPass, hstate]
      refine ⟨rfl, rfl, .inr ⟨rfl, ?_⟩⟩
      rw [downloadPass]
      cases E.deployment with
      | requestFailed => simp
      | parseFailed left => simp
      | assigned dep =>
          cases E.toRetrieve with
          | none => simp
          | some dep =>
              simp only
              split_ifs <;> simp
  | stop => exact absurd hstate h
  | _ =>
      simp only [switchPass, hstate]
      exact ⟨rfl, rfl, .inr ⟨rfl, ClientState.noConfusion⟩⟩

/-- A pass of the only task restarts the device or keeps the task. -/
theorem Device.pass_active {d : Device} {t : Task} (E : PassEnv) (htasks : d.tasks = [t])
    (hactive : d.globals.taskRunState = .active) (hstate : t.clientState ≠ .stop) :
    ((d.pass E 0 t).caller = .free ∧ (d.pass E 0 t).tasks = [] ∧
        (d.pass E 0 t).globals = powerOnGlobals) ∨
      ∃ u, (d.pass E 0 t).caller = d.caller ∧ (d.pass E 0 t).tasks = [u] ∧
        KeepsRunning d.globals (d.pass E 0 t).globals u := by
  have hrunning : d.globals.taskRunState ≠ .inactive := by simp [hactive]
  rw [Device.pass]
  rw [if_neg hrunning]
  by_cases hrestart : t.clientState = .install ∧ restartsToInstall E t = true
  · simp only [if_pos hrestart]
    exact .inl ⟨rfl, rfl, rfl⟩
  · simp only [if_neg hrestart]
    refine .inr ⟨(switchPass E d.flash (d.emit (passEvents E d t)).globals t).task, rfl,
      by rw [htasks, List.set_cons_zero], ?_⟩
    have hkeeps := switchPass_keepsRunning E d.flash (d.emit (passEvents E d t)).globals hstate
    have hbits : (d.emit (passEvents E d t)).globals.taskStatusBits = d.globals.taskStatusBits :=
      foldl_apply_bits _ _
    refine ⟨?_, ?_, ?_⟩
    · rw [hkeeps.taskRunState, taskRunState_emit E t hactive, hactive]
    · rw [hkeeps.stopped, hbits]
    · simpa only [hbits] using hkeeps.stop

/-! ## Orderly runs -/

/-- How far a device gets with starting and stopping in an orderly run. -/
inductive Device.Stage (d : Device) : Prop
  | off (caller : d.caller = .free) (tasks : d.tasks = [])
      (taskRunState : d.globals.taskRunState = .inactive)
      (stop : d.globals.taskStatusBits.stop = false)
  | starting (caller : d.caller = .starting) (t : Task) (tasks : d.tasks = [t])
      (clientState : t.clientState ≠ .stop)
      (taskRunState : d.globals.taskRunState = .inactive)
      (stop : d.globals.taskStatusBits.stop = false)
  | running (caller : d.caller = .free) (t : Task) (tasks : d.tasks = [t])
      (clientState : t.clientState ≠ .stop)
      (taskRunState : d.globals.taskRunState = .active)
      (stop : d.globals.taskStatusBits.stop = false)
  | stopRequested (caller : d.caller = .stopping) (t : Task) (tasks : d.tasks = [t])
      (clientState : t.clientState ≠ .stop)
      (taskRunState : d.globals.taskRunState = .active)
      (stop : d.globals.taskStatusBits.stop = true)
      (stopped : d.globals.taskStatusBits.stopped = false)
  | stopSeen (caller : d.caller = .stopping) (t : Task) (tasks : d.tasks = [t])
      (clientState : t.clientState = .stop)
      (stop : d.globals.taskStatusBits.stop = false)
      (stopped : d.globals.taskStatusBits.stopped = false)
  | ended (caller : d.caller = .stopping) (tasks : d.tasks = [])
      (taskRunState : d.globals.taskRunState = .inactive)
      (stop : d.globals.taskStatusBits.stop = false)

theorem stage_powerOn {d : Device} (caller : d.caller = .free) (tasks : d.tasks = [])
    (globals : d.globals = powerOnGlobals) : d.Stage :=
  .off caller tasks (by rw [globals]; rfl) (by rw [globals]; rfl)

/-- The stage depends on five fields only. -/
theorem Device.Stage.congr {d d' : Device} (hd : d.Stage) (hcaller : d'.caller = d.caller)
    (htasks : d'.tasks = d.tasks) (hstate : d'.globals.taskRunState = d.globals.taskRunState)
    (hstop : d'.globals.taskStatusBits.stop = d.globals.taskStatusBits.stop)
    (hstopped : d'.globals.taskStatusBits.stopped = d.globals.taskStatusBits.stopped) :
    d'.Stage := by
  cases hd with
  | off caller tasks taskRunState stop =>
      exact .off (hcaller.trans caller) (htasks.trans tasks) (hstate.trans taskRunState)
        (hstop.trans stop)
  | starting caller t tasks clientState taskRunState stop =>
      exact .starting (hcaller.trans caller) t (htasks.trans tasks) clientState
        (hstate.trans taskRunState) (hstop.trans stop)
  | running caller t tasks clientState taskRunState stop =>
      exact .running (hcaller.trans caller) t (htasks.trans tasks) clientState
        (hstate.trans taskRunState) (hstop.trans stop)
  | stopRequested caller t tasks clientState taskRunState stop stopped =>
      exact .stopRequested (hcaller.trans caller) t (htasks.trans tasks) clientState
        (hstate.trans taskRunState) (hstop.trans stop) (hstopped.trans stopped)
  | stopSeen caller t tasks clientState stop stopped =>
      exact .stopSeen (hcaller.trans caller) t (htasks.trans tasks) clientState
        (hstop.trans stop) (hstopped.trans stopped)
  | ended caller tasks taskRunState stop =>
      exact .ended (hcaller.trans caller) (htasks.trans tasks) (hstate.trans taskRunState)
        (hstop.trans stop)

/-- Between two calls of the application the client is off or a task runs. -/
theorem Device.Stage.of_free {d : Device} (hd : d.Stage) (hfree : d.caller = .free) :
    (d.tasks = [] ∧ d.globals.taskRunState = .inactive ∧ d.globals.taskStatusBits.stop = false) ∨
      ∃ t, d.tasks = [t] ∧ t.clientState ≠ .stop ∧ d.globals.taskRunState = .active ∧
        d.globals.taskStatusBits.stop = false := by
  cases hd with
  | off caller tasks taskRunState stop => exact .inl ⟨tasks, taskRunState, stop⟩
  | running caller t tasks clientState taskRunState stop =>
      exact .inr ⟨t, tasks, clientState, taskRunState, stop⟩
  | starting caller => simp [caller] at hfree
  | stopRequested caller => simp [caller] at hfree
  | stopSeen caller => simp [caller] at hfree
  | ended caller => simp [caller] at hfree

theorem Device.Stage.pass {d : Device} (hd : d.Stage) (E : PassEnv) {i : ℕ} {t : Task}
    (ht : d.tasks[i]? = some t) (horderly : d.Orderly (.pass E i)) : (d.pass E i t).Stage := by
  have hsingle : ∀ u, d.tasks = [u] → i = 0 ∧ t = u := by
    intro u htasks
    rw [htasks, List.getElem?_singleton] at ht
    split_ifs at ht with hi
    exact ⟨hi, (Option.some.inj ht).symm⟩
  cases hd with
  | off caller tasks taskRunState stop => simp [tasks] at ht
  | starting caller u tasks clientState taskRunState stop =>
      have hnone := horderly caller
      simp [hnone] at ht
  | running caller u tasks clientState taskRunState stop =>
      obtain ⟨rfl, rfl⟩ := hsingle u tasks
      rcases Device.pass_active E tasks taskRunState clientState with
        ⟨hcaller, htasks, hglobals⟩ | ⟨v, hcaller, htasks, hkeeps⟩
      · exact stage_powerOn hcaller htasks hglobals
      · rcases hkeeps.stop with ⟨hstop, -, -⟩ | ⟨hstop, hstate⟩
        · rw [stop] at hstop
          exact absurd hstop Bool.false_ne_true
        · exact .running (hcaller.trans caller) v htasks hstate
            (hkeeps.taskRunState.trans taskRunState) (hstop.trans stop)
  | stopRequested caller u tasks clientState taskRunState stop stopped =>
      obtain ⟨rfl, rfl⟩ := hsingle u tasks
      rcases Device.pass_active E tasks taskRunState clientState with
        ⟨hcaller, htasks, hglobals⟩ | ⟨v, hcaller, htasks, hkeeps⟩
      · exact stage_powerOn hcaller htasks hglobals
      · rcases hkeeps.stop with ⟨-, hstop, hstate⟩ | ⟨hstop, hstate⟩
        · exact .stopSeen (hcaller.trans caller) v htasks hstate hstop
            (hkeeps.stopped.trans stopped)
        · exact .stopRequested (hcaller.trans caller) v htasks hstate
            (hkeeps.taskRunState.trans taskRunState) (hstop.trans stop)
            (hkeeps.stopped.trans stopped)
  | stopSeen caller u tasks clientState stop stopped =>
      obtain ⟨rfl, rfl⟩ := hsingle u tasks
      rw [Device.pass]
      by_cases hinactive : d.globals.taskRunState = .inactive
      · rw [if_pos hinactive]
        exact .ended caller (by simp [tasks]) hinactive stop
      · have hevents : passEvents E d t = [] := by simp [passEvents, hinactive, clientState]
        rw [if_neg hinactive]
        simp only [clientState, reduceCtorEq, false_and, if_false, hevents, switchPass]
        exact .stopSeen caller t (by rw [tasks, List.set_cons_zero]) clientState stop stopped
  | ended caller tasks taskRunState stop => simp [tasks] at ht

theorem Device.Stage.step {d : Device} (hd : d.Stage) {a : Action} (horderly : d.Orderly a) :
    (d.step a).Stage := by
  cases a with
  | pass E i =>
      simp only [Device.step]
      cases ht : d.tasks[i]? with
      | none => exact hd
      | some t => exact hd.pass E ht horderly
  | powerFails E i k boot running => exact stage_powerOn rfl rfl rfl
  | start created =>
      simp only [Device.step, Device.hawkbitClientStart]
      by_cases hfree : d.caller = .free
      · rw [if_pos hfree]
        rcases hd.of_free hfree with ⟨tasks, taskRunState, stop⟩ | ⟨t, tasks, -, taskRunState, -⟩
        · rw [if_neg (not_not.mpr taskRunState)]
          split_ifs
          · exact .starting rfl newTask (by simp [tasks]) ClientState.noConfusion taskRunState stop
          · exact hd
        · rw [if_pos (by simp [taskRunState])]
          exact hd.congr rfl rfl rfl rfl rfl
      · rw [if_neg hfree]
        exact hd
  | stop =>
      simp only [Device.step, Device.hawkbitClientStop]
      by_cases hfree : d.caller = .free
      · rw [if_pos hfree]
        split_ifs with hactive
        · rcases hd.of_free hfree with ⟨-, taskRunState, -⟩ | ⟨t, tasks, clientState, -, -⟩
          · simp [taskRunState] at hactive
          · exact .stopRequested rfl t tasks clientState hactive rfl (horderly hfree hactive)
        · exact hd
      · rw [if_neg hfree]
        exact hd
  | callerContinues =>
      simp only [Device.step, Device.callerContinues]
      cases hd with
      | off caller tasks taskRunState stop =>
          simp only [caller]
          exact .off caller tasks taskRunState stop
      | starting caller t tasks clientState taskRunState stop =>
          simp only [caller]
          exact .running rfl t tasks clientState rfl stop
      | running caller t tasks clientState taskRunState stop =>
          simp only [caller]
          exact .running caller t tasks clientState taskRunState stop
      | stopRequested caller t tasks clientState taskRunState stop stopped =>
          simp only [caller, stopped, Bool.false_eq_true, if_false]
          exact .stopRequested caller t tasks clientState taskRunState stop stopped
      | stopSeen caller t tasks clientState stop stopped =>
          simp only [caller, stopped, Bool.false_eq_true, if_false]
          exact .stopSeen caller t tasks clientState stop stopped
      | ended caller tasks taskRunState stop =>
          simp only [caller]
          split_ifs
          · exact .off rfl tasks taskRunState stop
          · exact .ended caller tasks taskRunState stop
  | triggerEvent =>
      simp only [Device.step, Device.hawkbitClientTriggerEvent]
      split_ifs with hblocked
      · exact hd.congr rfl rfl rfl rfl rfl
      · exact hd

theorem Device.Stage.running_of_serves {d : Device} (hd : d.Stage) (hserves : d.Serves) :
    d.caller = .free ∧ d.globals.taskRunState = .active ∧ ∃ t, d.tasks = [t] := by
  cases hd with
  | running caller t tasks clientState taskRunState stop => exact ⟨caller, taskRunState, t, tasks⟩
  | off caller tasks => exact absurd tasks hserves.tasks
  | starting caller t tasks clientState taskRunState =>
      exact absurd taskRunState hserves.taskRunState
  | stopRequested caller t tasks clientState taskRunState stop =>
      exact absurd (hserves.stop.symm.trans stop) Bool.false_ne_true
  | stopSeen caller t tasks clientState =>
      exact absurd clientState (hserves.clientState t (by simp [tasks]))
  | ended caller tasks => exact absurd tasks hserves.tasks

end AnkerUpdater.Hawkbit
