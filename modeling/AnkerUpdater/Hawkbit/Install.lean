import AnkerUpdater.Hawkbit.Feedback
import AnkerUpdater.Lib.Runs

/-!
# Restarting into a new image

INSTALL has three entries in the source.  Two of them need BLOCKED or
BIT_CP_STANDBY, which nothing ever sets, so the third one is left: a
DOWNLOAD whose artifacts were retrieved.
-/

namespace AnkerUpdater.Hawkbit

open UploadLog

/-! ## What a successful retrieval leaves -/

/-- The attempt is the successful call number `k`, and `boot` is the
partition it wrote and switched to. -/
structure Activates (E : RetrieveEnv) (k : ℕ) (r : DownloadResult) (boot : ℕ) : Prop where
  call : ∃ bootBefore, r = httpRequestDownloadData .anker (E.attempts k) bootBefore
  rc : r.rc = .ok
  activated : .ota (.activate true) ∈ r.log
  partition : (E.attempts k).nextUpdatePartition = some boot
  whole : body (E.attempts k).reads = some (written (otaCalls r.log))

/-- The boot partition is the image that `E` delivered, and `update.stat`
announces it for `dep`. -/
structure InPlace (E : RetrieveEnv) (dep : Deployment) (attempts : List DownloadResult)
    (flash : Flash) : Prop where
  image : ∃ k, ∃ r ∈ attempts, Activates E k r flash.boot
  status : ∃ info, flash.updateStat = some info ∧ info.status = .downloadSuccessful ∧
    info.updateId = dep.id

theorem activates_of_rc {E : RetrieveEnv} {k boot : ℕ}
    (hrc : (httpRequestDownloadData .anker (E.attempts k) boot).rc = .ok) :
    Activates E k (httpRequestDownloadData .anker (E.attempts k) boot)
      (httpRequestDownloadData .anker (E.attempts k) boot).boot := by
  have hok := (httpRequestDownloadData_rc_iff _ boot).mp hrc
  have hpartition := ((beforeCleanup_outcome (E.attempts k)).delivers hok.toDelivers).1
  obtain ⟨address, haddress⟩ := Option.ne_none_iff_exists'.mp hok.nextUpdatePartition
  refine ⟨⟨boot, rfl⟩, hrc, ?_, ?_, written_of_allCallsOk hok boot⟩
  · simp [httpRequestDownloadData, hok.clientInit, endSession, hok.otaEnd, hok.setBootPartition,
      hpartition, haddress]
  · simp [httpRequestDownloadData, hok.clientInit, endSession, hok.otaEnd, hok.setBootPartition,
      hpartition, haddress]

/-- A call that succeeds does so with its last attempt. -/
theorem downloadAndCheckUpdateFile_last (E : RetrieveEnv) (retries i boot : ℕ)
    (hrc : (downloadAndCheckUpdateFile .anker E.attempts retries i boot).rc = .ok) :
    ∃ k earlier r,
      (downloadAndCheckUpdateFile .anker E.attempts retries i boot).attempts = earlier ++ [r] ∧
      Activates E k r (downloadAndCheckUpdateFile .anker E.attempts retries i boot).boot ∧
      r.boot = (downloadAndCheckUpdateFile .anker E.attempts retries i boot).boot := by
  induction retries generalizing i boot with
  | zero =>
      rw [downloadAndCheckUpdateFile] at hrc ⊢
      by_cases hok : (httpRequestDownloadData .anker (E.attempts i) boot).rc = .ok
      · simp only [hok, if_true]
        exact ⟨i, [], _, rfl, activates_of_rc hok, rfl⟩
      · simp [hok] at hrc
  | succ retries ih =>
      rw [downloadAndCheckUpdateFile] at hrc ⊢
      by_cases hok : (httpRequestDownloadData .anker (E.attempts i) boot).rc = .ok
      · simp only [hok, if_true]
        exact ⟨i, [], _, rfl, activates_of_rc hok, rfl⟩
      · simp only [hok, if_false] at hrc ⊢
        obtain ⟨k, earlier, r, hattempts, hactivates, hboot⟩ := ih _ _ hrc
        exact ⟨k, _ :: earlier, r, by rw [hattempts, List.cons_append], hactivates, hboot⟩

/-- Only a download that was persisted leaves a URL behind. -/
theorem successful_of_retrieved {E : RetrieveEnv} {dep : Deployment} {boot : ℕ}
    (hrc : (retrieveUpdateArtifacts E dep boot).rc = .ok)
    (hurl : (retrieveUpdateArtifacts E dep boot).deployment.anker.downloadUrl ≠ []) :
    (artifactStatus E dep.anker boot).1 = .downloadSuccessful ∧ E.fileWritten = true := by
  have hunknown : (artifactStatus E dep.anker boot).1 = .unknown → dep.anker.downloadUrl = [] := by
    intro hstatus
    by_contra hdownload
    simp only [artifactStatus, hdownload, if_false] at hstatus
    split_ifs at hstatus
  simp only [retrieveUpdateArtifacts] at hrc hurl
  split_ifs at hrc hurl with hfile hfailed hinstalled
  · exact absurd rfl hurl
  · refine ⟨?_, by simpa using hfile⟩
    by_contra hstatus
    exact hurl (hunknown (by simpa [hstatus] using hinstalled))

theorem inPlace_of_retrieved {E : PassEnv} {dep : Deployment} {flash : Flash}
    (hretrieve : E.toRetrieve = some dep)
    (hrc : (retrieveUpdateArtifacts E.retrieve dep flash.boot).rc = .ok)
    (hurl : (retrieveUpdateArtifacts E.retrieve dep flash.boot).deployment.anker.downloadUrl ≠ []) :
    InPlace E.retrieve dep (retrieveUpdateArtifacts E.retrieve dep flash.boot).attempts
      ((downloadEvents E flash).foldl Flash.apply flash) := by
  obtain ⟨hstatus, hfile⟩ := successful_of_retrieved hrc hurl
  obtain ⟨k, hinstalls⟩ := (persisted_successful_iff E.retrieve dep flash.boot).mp (by
    simp [retrieveUpdateArtifacts, hfile, hstatus])
  have hattempts := attempts_of_installs flash.boot hinstalls
  have hdownloaded : (downloadAndCheckUpdateFile .anker E.retrieve.attempts downloadRetriesAnker 0
      flash.boot).rc = .ok :=
    (downloadAndCheckUpdateFile_spec E.retrieve.attempts downloadRetriesAnker 0 flash.boot).1.mpr
      ⟨k, hinstalls.first⟩
  obtain ⟨l, earlier, r, hlast, hactivates, hboot⟩ :=
    downloadAndCheckUpdateFile_last E.retrieve _ _ _ hdownloaded
  have hpersisted : (retrieveUpdateArtifacts E.retrieve dep flash.boot).persisted =
      some ⟨dep.id, .downloadSuccessful, E.retrieve.timeInfo dep.anker, E.retrieve.stack⟩ := by
    simp [retrieveUpdateArtifacts, hfile, hstatus]
  have hflash : ((downloadEvents E flash).foldl Flash.apply flash).boot = r.boot := by
    simp [downloadEvents, hretrieve, hattempts, hlast, hpersisted, Flash.apply]
  refine ⟨⟨l, r, ?_, ?_⟩, ⟨dep.id, .downloadSuccessful, E.retrieve.timeInfo dep.anker,
    E.retrieve.stack⟩, ?_, rfl, rfl⟩
  · rw [hattempts, hlast]
    exact List.mem_append_right _ List.mem_cons_self
  · rw [hflash, hboot]
    exact hactivates
  · simp [downloadEvents, hretrieve, hpersisted, Flash.apply]

/-! ## Nothing blocks the client -/

structure Globals.Unblocked (g : Globals) : Prop where
  taskRunState : g.taskRunState ≠ .blocked
  cpStandby : g.taskStatusBits.cpStandby = false

def Event.Unblocked (e : Event) : Prop := e ≠ .taskRunState .blocked

theorem Globals.Unblocked.foldl {g : Globals} {events : List Event} (hg : g.Unblocked)
    (h : ∀ e ∈ events, e.Unblocked) : (events.foldl Globals.apply g).Unblocked := by
  induction events generalizing g with
  | nil => exact hg
  | cons e events ih =>
      obtain ⟨he, hevents⟩ := List.forall_mem_cons.mp h
      refine ih ?_ hevents
      cases e with
      | taskRunState s => exact ⟨fun hs ↦ he (congrArg Event.taskRunState hs), hg.cpStandby⟩
      | _ => exact hg

theorem passEvents_unblocked (E : PassEnv) (d : Device) (t : Task) :
    ∀ e ∈ passEvents E d t, e.Unblocked := by
  intro e he hblocked
  subst hblocked
  rcases (mem_passEvents he).2 with ⟨-, hdownload⟩ | ⟨-, -, hinstall⟩ | ⟨-, hcheck⟩
  · have hevent := mem_downloadEvents hdownload
    simp at hevent
  · exact Event.noConfusion hinstall
  · obtain ⟨info, -, hevent⟩ := mem_checkInstalledUpdates hcheck
    simp at hevent

theorem switchPass_unblocked {g : Globals} (hg : g.Unblocked) (E : PassEnv) (flash : Flash)
    (t : Task) : (switchPass E flash g t).globals.Unblocked := by
  cases hstate : t.clientState with
  | idle =>
      simp only [switchPass, hstate, idlePass]
      by_cases hstop : g.taskStatusBits.stop = true
      · rw [if_pos hstop]
        exact ⟨hg.taskRunState, rfl⟩
      · rw [if_neg hstop]
        exact ⟨hg.taskRunState, rfl⟩
  | stop =>
      simp only [switchPass, hstate]
      exact ⟨TaskRunState.noConfusion, hg.cpStandby⟩
  | inform =>
      simp only [switchPass, hstate]
      exact ⟨hg.taskRunState, hg.cpStandby⟩
  | _ =>
      simp only [switchPass, hstate]
      exact hg

theorem unblocked_powerOn : powerOnGlobals.Unblocked := ⟨TaskRunState.noConfusion, rfl⟩

theorem Device.pass_unblocked {d : Device} (hd : d.globals.Unblocked) (E : PassEnv) (i : ℕ)
    (t : Task) : (d.pass E i t).globals.Unblocked := by
  rw [Device.pass]
  split_ifs with hinactive hinstall
  · exact ⟨hd.taskRunState, hd.cpStandby⟩
  · exact unblocked_powerOn
  · exact switchPass_unblocked (hd.foldl (passEvents_unblocked E d t)) E d.flash t

theorem Device.step_unblocked (d : Device) (a : Action) (hd : d.globals.Unblocked) :
    (d.step a).globals.Unblocked := by
  cases a with
  | pass E i =>
      simp only [Device.step]
      cases d.tasks[i]? with
      | none => exact hd
      | some t => exact Device.pass_unblocked hd E i t
  | powerFails E i k boot running => exact unblocked_powerOn
  | start created =>
      simp only [Device.step, Device.hawkbitClientStart]
      split_ifs
      · exact ⟨hd.taskRunState, hd.cpStandby⟩
      · exact hd
      · exact hd
      · exact hd
  | stop =>
      simp only [Device.step, Device.hawkbitClientStop]
      split_ifs
      · exact ⟨hd.taskRunState, hd.cpStandby⟩
      · exact hd
      · exact hd
  | callerContinues =>
      simp only [Device.step, Device.callerContinues]
      cases d.caller with
      | free => exact hd
      | starting => exact ⟨TaskRunState.noConfusion, hd.cpStandby⟩
      | stopping =>
          simp only
          split_ifs
          · exact hd
          · exact hd
  | triggerEvent =>
      simp only [Device.step, Device.hawkbitClientTriggerEvent]
      rw [if_neg hd.taskRunState]
      exact hd

theorem Device.run_unblocked (boot running : ℕ) (actions : List Action) :
    ((factoryNew boot running).run actions).globals.Unblocked := by
  exact Runs.invariant_of_step (fun d : Device ↦ d.globals.Unblocked)
    Device.step_unblocked unblocked_powerOn actions

/-! ## The passes of one task -/

/-- A pass of a task, with the device and the task as it met them. -/
structure Pass where
  device : Device
  task : Task
  env : PassEnv

/-- Where the task at `i` stands after an action, if it is still there. -/
def Device.place (d : Device) (i : ℕ) : Action → Option ℕ
  | .pass E j =>
      match d.tasks[j]? with
      | none => some i
      | some t =>
          if d.globals.taskRunState = .inactive then
            if j = i then none else if j < i then some (i - 1) else some i
          else if t.clientState = .install ∧ restartsToInstall E t = true then none
          else some i
  | .powerFails _ _ _ _ _ => none
  | _ => some i

def Device.passOf (d : Device) (i : ℕ) : Action → List Pass
  | .pass E j => if j = i then (d.tasks[i]?.map fun t ↦ ⟨d, t, E⟩).toList else []
  | _ => []

/-- A task that `hawkbit_client_start` created on some run has made the
passes `passes` so far and stands at `i` now. -/
inductive TaskRun (boot running : ℕ) : Device → ℕ → List Pass → Prop
  | start (actions : List Action)
      (free : ((factoryNew boot running).run actions).caller = .free)
      (inactive : ((factoryNew boot running).run actions).globals.taskRunState = .inactive) :
      TaskRun boot running (((factoryNew boot running).run actions).step (.start true))
        ((factoryNew boot running).run actions).tasks.length []
  | step {d : Device} {i j : ℕ} {passes : List Pass} (a : Action)
      (earlier : TaskRun boot running d i passes) (place : d.place i a = some j) :
      TaskRun boot running (d.step a) j (passes ++ d.passOf i a)

theorem TaskRun.unblocked {boot running i : ℕ} {d : Device} {passes : List Pass}
    (h : TaskRun boot running d i passes) : d.globals.Unblocked := by
  induction h with
  | start actions free inactive =>
      exact Device.step_unblocked _ _ (Device.run_unblocked boot running actions)
  | step a earlier place ih => exact Device.step_unblocked _ a ih

theorem eraseIdx_getElem? {α : Type*} {l : List α} {i j : ℕ} (h : j ≠ i) :
    (l.eraseIdx j)[if j < i then i - 1 else i]? = l[i]? := by
  rw [List.getElem?_eraseIdx]
  split_ifs with hlt
  · omega
  · rw [Nat.sub_add_cancel (by omega)]
  · rfl
  · omega

theorem Device.pass_outcome {d : Device} {i j k : ℕ} {t u : Task} {E : PassEnv}
    (ht : d.tasks[i]? = some t) (hu : d.tasks[k]? = some u)
    (h : d.place i (.pass E k) = some j) :
    (k ≠ i ∧ (d.pass E k u).tasks[j]? = some t) ∨
      (k = i ∧ d.globals.taskRunState ≠ .inactive ∧ (d.pass E k u).tasks[j]? =
        some (switchPass E d.flash (d.emit (passEvents E d u)).globals u).task) := by
  simp only [Device.place, hu] at h
  rw [Device.pass]
  split_ifs at h ⊢ with hinactive hself hbefore hrestart
  · refine .inl ⟨hself, ?_⟩
    have hrest := eraseIdx_getElem? (l := d.tasks) hself
    rw [if_pos hbefore, Option.some.inj h] at hrest
    exact hrest.trans ht
  · refine .inl ⟨hself, ?_⟩
    have hrest := eraseIdx_getElem? (l := d.tasks) hself
    rw [if_neg hbefore] at hrest
    obtain rfl := Option.some.inj h
    exact hrest.trans ht
  · obtain rfl := Option.some.inj h
    by_cases hself : k = i
    · subst hself
      obtain ⟨hlt, -⟩ := List.getElem?_eq_some_iff.mp hu
      refine .inr ⟨rfl, hinactive, ?_⟩
      simp [hlt]
    · refine .inl ⟨hself, ?_⟩
      simp only [List.getElem?_set, hself, if_false]
      exact ht

/-- A task that is still there was left alone or made a pass. -/
theorem Device.place_outcome {d : Device} {i j : ℕ} {t : Task} {a : Action}
    (ht : d.tasks[i]? = some t) (h : d.place i a = some j) :
    (d.passOf i a = [] ∧ (d.step a).tasks[j]? = some t) ∨
      ∃ E, d.passOf i a = [⟨d, t, E⟩] ∧ d.globals.taskRunState ≠ .inactive ∧
        (d.step a).tasks[j]? =
          some (switchPass E d.flash (d.emit (passEvents E d t)).globals t).task := by
  cases a with
  | pass E k =>
      cases hu : d.tasks[k]? with
      | none =>
          have hself : k ≠ i := by
            rintro rfl
            simp [ht] at hu
          simp only [Device.place, hu] at h
          obtain rfl := Option.some.inj h
          exact .inl ⟨by simp [Device.passOf, hself], by simp [Device.step, hu, ht]⟩
      | some u =>
          simp only [Device.step, hu, Device.passOf]
          rcases Device.pass_outcome ht hu h with ⟨hself, htask⟩ | ⟨rfl, hactive, htask⟩
          · exact .inl ⟨if_neg hself, htask⟩
          · obtain rfl := Option.some.inj (hu.symm.trans ht)
            exact .inr ⟨E, by simp [ht], hactive, htask⟩
  | powerFails E k n boot running => simp [Device.place] at h
  | start created =>
      obtain rfl := Option.some.inj h
      obtain ⟨hlt, -⟩ := List.getElem?_eq_some_iff.mp ht
      refine .inl ⟨rfl, ?_⟩
      simp only [Device.step, Device.hawkbitClientStart]
      split_ifs
      · exact ht
      · rw [List.getElem?_append_left hlt]
        exact ht
      · exact ht
      · exact ht
  | stop =>
      obtain rfl := Option.some.inj h
      refine .inl ⟨rfl, ?_⟩
      simp only [Device.step, Device.hawkbitClientStop]
      split_ifs
      · exact ht
      · exact ht
      · exact ht
  | callerContinues =>
      obtain rfl := Option.some.inj h
      refine .inl ⟨rfl, ?_⟩
      simp only [Device.step, Device.callerContinues]
      cases d.caller with
      | free => exact ht
      | starting => exact ht
      | stopping =>
          simp only
          split_ifs
          · exact ht
          · exact ht
  | triggerEvent =>
      obtain rfl := Option.some.inj h
      refine .inl ⟨rfl, ?_⟩
      simp only [Device.step, Device.hawkbitClientTriggerEvent]
      split_ifs
      · exact ht
      · exact ht

/-- The pass was a DOWNLOAD that retrieved the artifacts of `dep`, and it
left `t.deployment`. -/
structure Retrieved (p : Pass) (dep : Deployment) (t : Task) : Prop where
  running : p.device.globals.taskRunState ≠ .inactive
  download : p.task.clientState = .download
  toRetrieve : p.env.toRetrieve = some dep
  rc : (retrieveUpdateArtifacts p.env.retrieve dep p.device.flash.boot).rc = .ok
  deployment : t.deployment =
    some (retrieveUpdateArtifacts p.env.retrieve dep p.device.flash.boot).deployment

theorem retrieved_of_switchPass {d : Device} {t : Task} {E : PassEnv} {g : Globals}
    (hactive : d.globals.taskRunState ≠ .inactive) (hg : g.Unblocked)
    (hinstall : (switchPass E d.flash g t).task.clientState = .install) :
    ∃ dep, Retrieved ⟨d, t, E⟩ dep (switchPass E d.flash g t).task := by
  cases hstate : t.clientState with
  | download =>
      simp only [switchPass, hstate] at hinstall ⊢
      cases hreply : E.deployment with
      | requestFailed => simp [downloadPass, hreply] at hinstall
      | parseFailed left => simp [downloadPass, hreply] at hinstall
      | assigned assigned =>
          cases hretrieve : E.toRetrieve with
          | none => simp [downloadPass, hreply, hretrieve] at hinstall
          | some dep =>
              simp only [downloadPass, hreply, hretrieve] at hinstall ⊢
              refine ⟨dep, hactive, hstate, hretrieve, ?_, rfl⟩
              by_contra hrc
              rw [if_neg hrc] at hinstall
              split_ifs at hinstall
  | idle =>
      have hcpStandby : ¬ g.taskStatusBits.cpStandby = true := by simp [hg.cpStandby]
      simp only [switchPass, hstate, idlePass] at hinstall
      rw [if_neg hcpStandby, if_neg hg.taskRunState] at hinstall
      split_ifs at hinstall
  | poll =>
      simp only [switchPass, hstate, pollPass] at hinstall
      cases hactions : E.actions with
      | none => simp [hactions] at hinstall
      | some content =>
          simp only [hactions] at hinstall
          split_ifs at hinstall
  | stop => simp [switchPass, hstate] at hinstall
  | _ => simp [switchPass, hstate] at hinstall

/-- A task is in INSTALL only right after it retrieved artifacts. -/
theorem TaskRun.retrieved {boot running i : ℕ} {d : Device} {passes : List Pass}
    (h : TaskRun boot running d i passes) : ∃ t, d.tasks[i]? = some t ∧
      (t.clientState = .install → ∃ p dep, passes.getLast? = some p ∧ Retrieved p dep t) := by
  induction h with
  | start actions free inactive =>
      refine ⟨newTask, ?_, fun hinstall ↦ ClientState.noConfusion hinstall⟩
      simp [Device.step, free, Device.hawkbitClientStart, inactive]
  | @step d i j passes a earlier place ih =>
      obtain ⟨t, ht, hentered⟩ := ih
      rcases Device.place_outcome ht place with ⟨hpasses, htask⟩ | ⟨E, hpasses, hactive, htask⟩
      · rw [hpasses, List.append_nil]
        exact ⟨t, htask, hentered⟩
      · refine ⟨_, htask, fun hinstall ↦ ?_⟩
        have hg : (d.emit (passEvents E d t)).globals.Unblocked :=
          earlier.unblocked.foldl (passEvents_unblocked E d t)
        obtain ⟨dep, hretrieved⟩ := retrieved_of_switchPass hactive hg hinstall
        rw [hpasses]
        exact ⟨⟨d, t, E⟩, dep, by simp, hretrieved⟩

/-- INSTALL follows a successful retrieval, and it restarts the device only
into the image that this retrieval put in place. -/
theorem TaskRun.restarts_in_place {boot running i : ℕ} {d : Device} {passes : List Pass} {t : Task}
    (h : TaskRun boot running d i passes) (ht : d.tasks[i]? = some t)
    (hinstall : t.clientState = .install) :
    ∃ p dep, passes.getLast? = some p ∧ Retrieved p dep t ∧
      ∀ E, .restarted ∈ passEvents E d t →
        InPlace p.env.retrieve dep
          (retrieveUpdateArtifacts p.env.retrieve dep p.device.flash.boot).attempts
          (p.device.emit (passEvents p.env p.device p.task)).flash := by
  obtain ⟨t', ht', hentered⟩ := h.retrieved
  obtain rfl := Option.some.inj (ht'.symm.trans ht)
  obtain ⟨p, dep, hlast, hretrieved⟩ := hentered hinstall
  refine ⟨p, dep, hlast, hretrieved, fun E hrestarted ↦ ?_⟩
  have hurl : (retrieveUpdateArtifacts p.env.retrieve dep
      p.device.flash.boot).deployment.anker.downloadUrl ≠ [] := by
    rcases (mem_passEvents hrestarted).2 with ⟨hstate, -⟩ | ⟨-, hrestarts, -⟩ | ⟨hstate, -⟩
    · exact absurd (hstate.symm.trans hinstall) ClientState.noConfusion
    · simpa [restartsToInstall, hretrieved.deployment] using hrestarts
    · exact absurd (hstate.symm.trans hinstall) ClientState.noConfusion
  have hevents : passEvents p.env p.device p.task = downloadEvents p.env p.device.flash := by
    simp [passEvents, hretrieved.running, hretrieved.download]
  rw [hevents]
  exact inPlace_of_retrieved hretrieved.toRetrieve hretrieved.rc hurl

/-! ## An update that is installed -/

def threeBytes : Deployment := { fiveBytes with anker.artifactSize := 3 }

def delivering : PassEnv :=
  { failingDownload with
    deployment := .assigned threeBytes
    retrieve := { cutShort with attempts := fun _ ↦ wholeBody } }

/-- CHECK, INFORM, POLL and DOWNLOAD. -/
def deliveringRun (passes : ℕ) : Device :=
  (factoryNew 1 1).run
    ([.start true, .callerContinues] ++ List.replicate passes (.pass delivering 0))

theorem restarts_in_place_delivering : ∃ p dep, Retrieved p dep
      ⟨.install, 60000, 60000, some ⟨60000, [0x2F]⟩, some threeBytes⟩ ∧
    InPlace p.env.retrieve dep
      (retrieveUpdateArtifacts p.env.retrieve dep p.device.flash.boot).attempts
      (p.device.emit (passEvents p.env p.device p.task)).flash := by
  have hstart : TaskRun 1 1 (deliveringRun 0) 0 [] :=
    .step .callerContinues (.start [] rfl rfl) rfl
  have hrun : TaskRun 1 1 (deliveringRun 4) 0 _ :=
    .step (.pass delivering 0) (.step (.pass delivering 0) (.step (.pass delivering 0)
      (.step (.pass delivering 0) hstart rfl) rfl) rfl) rfl
  obtain ⟨p, dep, -, hretrieved, hinPlace⟩ := hrun.restarts_in_place rfl rfl
  exact ⟨p, dep, hretrieved, hinPlace delivering (by decide)⟩

end AnkerUpdater.Hawkbit
