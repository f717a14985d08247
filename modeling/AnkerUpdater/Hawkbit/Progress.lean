import AnkerUpdater.Hawkbit.Install
import AnkerUpdater.Hawkbit.Stopping

/-!
# From the assignment to the closed deployment

What the client gets done when the server assigns a deployment and nothing
fails any more, whatever went wrong before.
-/

namespace AnkerUpdater.Hawkbit

open Runs

/-- The server assigns `dep`, and one of the attempts to download it
succeeds. -/
structure PassEnv.Offers (E : PassEnv) (dep : Deployment) : Prop where
  actions : ∃ content, E.actions = some content ∧ content.deploymentUrl ≠ []
  toRetrieve : E.toRetrieve = some dep
  installs : ∃ k, Installs E.retrieve dep.anker k

/-- The server keeps assigning `dep`, and nobody stops the client. -/
def Action.Offers (dep : Deployment) : Action → Prop
  | .pass E _ => E.Offers dep
  | .powerFails .. => False
  | .stop => False
  | _ => True

/-- A pass of the first task. -/
def Action.isPass : Action → Bool
  | .pass _ i => i = 0
  | _ => false

/-- The new image runs for the first time, and every call of the pass
succeeds; the P-Anker round does not fail. -/
structure CheckEnv.Closes (E : CheckEnv) : Prop where
  imageQuery : E.imageQuery = .state .pendingVerify
  markValid : E.markValid = true
  existenceChecked : E.existenceChecked = true
  read : E.read = true
  readWhole : E.readWhole = true
  counts : ¬(0 < E.counts.cntToUpdate ∧ E.counts.cntUpdated = 0)
  closedAccepted : E.closedAccepted = true
  erased : E.erased = true

/-- An attempt has put an image of `dep` into the boot partition, and
`update.stat` announces it. -/
structure Installed (dep : Deployment) (flash : Flash) (trace : List Event) : Prop where
  image : ∃ E k r, PassEnv.Offers E dep ∧ .attempt r ∈ trace ∧
    Activates E.retrieve k r flash.boot
  status : ∃ info, flash.updateStat = some info ∧ info.status = .downloadSuccessful ∧
    info.updateId = dep.id

/-- How many passes lie before the one that restarts the device. -/
def ClientState.passesToInstall : ClientState → ℕ
  | .idle => 4
  | .check => 4
  | .inform => 3
  | .poll => 2
  | .download => 1
  | .install => 0
  | .stop => 0

/-- A single task, at most `n` passes away from the restart. -/
structure Device.Near (dep : Deployment) (n : ℕ) (d : Device) : Prop where
  caller : d.caller = .free
  unblocked : d.globals.Unblocked
  active : d.globals.taskRunState = .active
  stop : d.globals.taskStatusBits.stop = false
  task : ∃ t, d.tasks = [t] ∧ t.clientState ≠ .stop ∧ t.clientState.passesToInstall ≤ n ∧
    (t.clientState = .install → t.deployment = some dep ∧ dep.anker.downloadUrl ≠ [] ∧
      Installed dep d.flash d.trace)

/-- The pass finds that the update is installed, closes the deployment on the
server and removes the record. -/
structure Device.ClosedBy (d : Device) (E : PassEnv) (dep : Deployment) : Prop where
  evaluated : .evaluated dep.id .installSuccessful ∈ d.events (.pass E 0)
  feedback : ∃ details, .feedback ⟨dep.id, .success, .closed, details⟩ true ∈ d.events (.pass E 0)
  erased : (d.step (.pass E 0)).flash.updateStat = none

/-! ## One pass -/

section

variable {dep : Deployment} {E : PassEnv}

theorem retrieved_of_installs {E : RetrieveEnv} {k : ℕ} (h : Installs E dep.anker k) (boot : ℕ) :
    (retrieveUpdateArtifacts E dep boot).rc = .ok ∧
      (retrieveUpdateArtifacts E dep boot).deployment = dep := by
  have hrc := (downloadAndCheckUpdateFile_spec E.attempts downloadRetriesAnker 0 boot).1.mpr
    ⟨k, h.first⟩
  have hstatus : (artifactStatus E dep.anker boot).1 = .downloadSuccessful := by
    simp [artifactStatus, h.downloadUrl, h.nameMatches, h.artifactSize, h.version, hrc]
  simp [retrieveUpdateArtifacts, h.fileWritten, hstatus]

theorem assigned_of_toRetrieve (h : E.toRetrieve = some dep) : E.deployment = .assigned dep := by
  rw [PassEnv.toRetrieve] at h
  cases hreply : E.deployment with
  | requestFailed => simp [hreply] at h
  | parseFailed left => simp [hreply] at h
  | assigned d =>
      simp only [hreply] at h
      split_ifs at h
      rw [Option.some.inj h]

/-- DOWNLOAD leads to INSTALL. -/
theorem downloadPass_of_offers (h : E.Offers dep) (flash : Flash) (t : Task) :
    (downloadPass E flash t).clientState = .install ∧
      (downloadPass E flash t).deployment = some dep := by
  obtain ⟨k, hinstalls⟩ := h.installs
  obtain ⟨hrc, hdeployment⟩ := retrieved_of_installs hinstalls flash.boot
  simp only [downloadPass, assigned_of_toRetrieve h.toRetrieve, h.toRetrieve]
  exact ⟨if_pos hrc, congrArg some hdeployment⟩

/-- Every pass but that of INSTALL comes closer. -/
theorem passesToInstall_switchPass (h : E.Offers dep) (flash : Flash) {g : Globals} {t : Task}
    (hg : g.Unblocked) (hactive : g.taskRunState = .active) (hstop : g.taskStatusBits.stop = false)
    (hstate : t.clientState ≠ .stop) (hinstall : t.clientState ≠ .install) :
    (switchPass E flash g t).task.clientState.passesToInstall < t.clientState.passesToInstall ∧
      ((switchPass E flash g t).task.clientState = .install → t.clientState = .download) := by
  cases hclient : t.clientState with
  | idle =>
      have hnext : (idlePass g t).task.clientState =
          if g.statusMessageSend then .poll else .inform := by
        simp [idlePass, hstop, hg.cpStandby, hactive]
      simp only [switchPass, hclient, hnext]
      split_ifs <;> simp [ClientState.passesToInstall]
  | poll =>
      obtain ⟨content, hactions, hurl⟩ := h.actions
      simp [switchPass, hclient, pollPass, hactions, hurl, ClientState.passesToInstall]
  | download =>
      simp [switchPass, hclient, (downloadPass_of_offers h flash t).1, ClientState.passesToInstall]
  | install => exact absurd hclient hinstall
  | stop => exact absurd hclient hstate
  | _ => simp [switchPass, hclient, ClientState.passesToInstall]

/-- A pass that does not restart the device. -/
theorem Device.pass_of_not_install {d : Device} {t : Task}
    (hrunning : d.globals.taskRunState ≠ .inactive)
    (hinstall : t.clientState ≠ .install) (E : PassEnv) (i : ℕ) : d.pass E i t =
      { d.emit (passEvents E d t) with
        globals := (switchPass E d.flash (d.emit (passEvents E d t)).globals t).globals
        tasks :=
          d.tasks.set i (switchPass E d.flash (d.emit (passEvents E d t)).globals t).task } := by
  rw [Device.pass, if_neg hrunning]
  exact if_neg fun h ↦ hinstall h.1

/-- What DOWNLOAD has put in place. -/
theorem installed_of_download {d : Device} {t : Task} (h : E.Offers dep)
    (hrunning : d.globals.taskRunState ≠ .inactive) (hstate : t.clientState = .download) :
    Installed dep (d.emit (passEvents E d t)).flash (d.emit (passEvents E d t)).trace := by
  have hevents : passEvents E d t = downloadEvents E d.flash := by
    simp [passEvents, hrunning, hstate]
  obtain ⟨k, hinstalls⟩ := h.installs
  obtain ⟨hrc, hdeployment⟩ := retrieved_of_installs hinstalls d.flash.boot
  have hurl : (retrieveUpdateArtifacts E.retrieve dep d.flash.boot).deployment.anker.downloadUrl ≠
      [] := by
    rw [hdeployment]
    exact hinstalls.downloadUrl
  have hplace := inPlace_of_retrieved h.toRetrieve hrc hurl
  rw [hevents]
  refine ⟨?_, hplace.status⟩
  obtain ⟨l, r, hr, hactivates⟩ := hplace.image
  refine ⟨E, l, r, h, ?_, hactivates⟩
  rw [Device.emit_trace, downloadEvents]
  simp [h.toRetrieve, hr]

/-- A pass on the way comes closer, and the pass of INSTALL restarts. -/
theorem Device.Near.pass {d : Device} {n : ℕ} (hd : d.Near dep n) (h : E.Offers dep) :
    (d.events (.pass E 0) = [.restarted] ∧ Installed dep d.flash d.trace) ∨
      ∃ m < n, (d.step (.pass E 0)).Near dep m := by
  obtain ⟨t, htasks, hstate, hpasses, hready⟩ := hd.task
  have hrunning : d.globals.taskRunState ≠ .inactive := by simp [hd.active]
  have hfirst : d.tasks[0]? = some t := by simp [htasks]
  by_cases hinstall : t.clientState = .install
  · obtain ⟨hdeployment, hurl, hinstalled⟩ := hready hinstall
    refine .inl ⟨?_, hinstalled⟩
    simp [Device.events, hfirst, passEvents, hrunning, hinstall, restartsToInstall, hdeployment,
      hurl]
  · right
    have hunblocked := hd.unblocked.foldl (passEvents_unblocked E d t)
    have hactive := taskRunState_emit E t hd.active
    have hbits : (d.emit (passEvents E d t)).globals.taskStatusBits = d.globals.taskStatusBits :=
      foldl_apply_bits _ _
    have hkeeps := switchPass_keepsRunning E d.flash (d.emit (passEvents E d t)).globals hstate
    obtain ⟨hcloser, hdownload⟩ := passesToInstall_switchPass h d.flash hunblocked hactive
      (hbits ▸ hd.stop) hstate hinstall
    have hstop := hkeeps.stop
    rw [hbits, hd.stop] at hstop
    obtain ⟨hstop', hstate'⟩ := hstop.resolve_left fun h ↦ Bool.false_ne_true h.1
    refine ⟨_, hcloser.trans_le hpasses, ?_⟩
    simp only [Device.step, hfirst]
    rw [Device.pass_of_not_install hrunning hinstall]
    refine ⟨hd.caller, switchPass_unblocked hunblocked E d.flash t,
      hkeeps.taskRunState.trans hactive, hstop', ⟨_, ?_, hstate', le_rfl, fun hnext ↦ ?_⟩⟩
    · simp only [htasks, List.set_cons_zero]
    · have hdownloads := hdownload hnext
      obtain ⟨k, hinstalls⟩ := h.installs
      have hinstalled := installed_of_download h hrunning hdownloads
      refine ⟨?_, hinstalls.downloadUrl, hinstalled⟩
      simp only [switchPass, hdownloads]
      exact (downloadPass_of_offers h d.flash t).2

/-- Everything else leaves the distance as it is. -/
theorem Device.Near.other {d : Device} {n : ℕ} (hd : d.Near dep n) {a : Action}
    (ha : a.Offers dep) (hother : a.isPass = false) : (d.step a).Near dep n := by
  have hrunning : d.globals.taskRunState ≠ .inactive := by simp [hd.active]
  cases a with
  | pass E i =>
      obtain ⟨t, htasks, -⟩ := hd.task
      have hi : i ≠ 0 := by simpa [Action.isPass] using hother
      have hnone : d.tasks[i]? = none := by simp [htasks, hi]
      simpa only [Device.step, hnone] using hd
  | start created =>
      simp only [Device.step, hd.caller, if_true, Device.hawkbitClientStart, if_pos hrunning]
      exact ⟨rfl, ⟨hd.unblocked.taskRunState, hd.unblocked.cpStandby⟩, hd.active, hd.stop,
        hd.task⟩
  | callerContinues => simpa only [Device.step, Device.callerContinues, hd.caller] using hd
  | triggerEvent =>
      simpa only [Device.step, Device.hawkbitClientTriggerEvent, hd.active, reduceCtorEq,
        if_false] using hd
  | powerFails E i k boot running => exact ha.elim
  | stop => exact ha.elim

/-! ## After the restart -/

/-- The pass that restarts leaves a device that is off. -/
theorem Device.off_of_restarted {d : Device} (h : d.events (.pass E 0) = [.restarted]) :
    ((d.step (.pass E 0)).caller = .free ∧ (d.step (.pass E 0)).tasks = [] ∧
      (d.step (.pass E 0)).globals.taskRunState = .inactive) ∧
    (d.step (.pass E 0)).flash.updateStat = d.flash.updateStat := by
  have hrestarted : ∃ t, d.tasks[0]? = some t ∧ passEvents E d t = [.restarted] := by
    cases ht : d.tasks[0]? with
    | none => simp [Device.events, ht] at h
    | some t => exact ⟨t, rfl, by simpa [Device.events, ht] using h⟩
  obtain ⟨t, ht, hevents⟩ := hrestarted
  obtain ⟨hrunning, hcause⟩ := mem_passEvents (hevents ▸ List.mem_singleton_self Event.restarted)
  have hinstall : t.clientState = .install ∧ restartsToInstall E t = true := by
    rcases hcause with ⟨-, hdownload⟩ | ⟨hstate, hrestarts, -⟩ | ⟨-, hcheck⟩
    · have hevent := mem_downloadEvents hdownload
      simp at hevent
    · exact ⟨hstate, hrestarts⟩
    · obtain ⟨info, -, hevent⟩ := mem_checkInstalledUpdates hcheck
      simp at hevent
  simp only [Device.step, ht, Device.pass, if_neg hrunning, if_pos hinstall, hevents]
  exact ⟨⟨rfl, rfl, rfl⟩, rfl⟩

theorem closeUpdate_of_closes {E : CheckEnv} (h : E.Closes) (info : UpdateInfo) :
    ∃ details, (closeUpdate E (afterRound E info.atRound)).2 =
      [.feedback ⟨info.updateId, .success, .closed, details⟩ true, .statErased] := by
  have hstatus : (afterRound E info.atRound).status = .handledPAnkerUpdate := if_neg h.counts
  refine ⟨(closedFeedback E (afterRound E info.atRound)).details, ?_⟩
  simp only [closeUpdate, closedFeedback, h.closedAccepted, h.erased, hstatus, Bool.true_eq_false,
    if_false, true_or, if_true]
  rfl

/-- The first pass after the start closes the deployment of the record. -/
theorem Device.closedBy_of_off {d : Device} (hcaller : d.caller = .free) (htasks : d.tasks = [])
    (hinactive : d.globals.taskRunState = .inactive) {info : UpdateInfo}
    (hstat : d.flash.updateStat = some info) (hstatus : info.status = .downloadSuccessful)
    (hid : info.updateId = dep.id) (h : E.check.Closes) :
    (d.run [.start true, .callerContinues]).ClosedBy E dep := by
  have hrun : d.run [.start true, .callerContinues] =
      { d with globals.taskRunState := .active, tasks := [newTask] } := by
    simp [Device.run, Device.step, hcaller, Device.hawkbitClientStart, hinactive, htasks,
      Device.callerContinues]
  have hevaluates : Evaluates E.check d.flash info :=
    ⟨by simp [h.imageQuery], h.existenceChecked, hstat, h.read, h.readWhole⟩
  have hevents : (d.run [.start true, .callerContinues]).events (.pass E 0) =
      eventsBeforeRound E.check d.flash info ++ .pAnkerRound info.updateId E.check.counts ::
        eventsAfterRound E.check info := by
    rw [hrun, ← checkInstalledUpdates_of_evaluates hevaluates]
    rfl
  obtain ⟨details, hclose⟩ := closeUpdate_of_closes h info
  have hvalue : ankerUpdateValue E.check d.flash = 1 := by
    simp [ankerUpdateValue, h.imageQuery, h.markValid]
  refine ⟨?_, ⟨details, ?_⟩, ?_⟩
  · rw [hevents, eventsBeforeRound, hvalue]
    simp [evaluationEvents, evaluate, hstatus, hid]
  · rw [hevents, eventsAfterRound, hclose, hid]
    simp
  · have hflash : ((d.run [.start true, .callerContinues]).step (.pass E 0)).flash =
        ((d.run [.start true, .callerContinues]).events (.pass E 0)).foldl Flash.apply d.flash := by
      rw [hrun]
      rfl
    rw [hflash, hevents, eventsAfterRound, hclose]
    simp [Flash.apply]

end

/-- Whatever an orderly history has left, as soon as the client serves, five
passes in which the server assigns a deployment and one of the attempts to
download it succeeds restart the device with the image of this deployment in
the boot partition, and if the image runs, the next pass closes the
deployment. -/
theorem closed_of_offered (boot running : ℕ) (dep : Deployment) (history actions : List Action)
    (horderly : Always Device.step Device.Orderly (factoryNew boot running) history) {d : Device}
    (hd : (factoryNew boot running).run history = d) (hserves : d.Serves)
    (hstate : ∀ t ∈ d.tasks, t.clientState ≠ .install)
    (hoffers : ∀ a ∈ actions, a.Offers dep) (hpasses : 4 < actions.countP Action.isPass) :
    ∃ pre E post, actions = pre ++ .pass E 0 :: post ∧
      (d.run pre).events (.pass E 0) = [.restarted] ∧
      Installed dep (d.run pre).flash (d.run pre).trace ∧
      ∀ E' : PassEnv, E'.check.Closes →
        (((d.run pre).step (.pass E 0)).run [.start true, .callerContinues]).ClosedBy E' dep := by
  have hstage : d.Stage :=
    hd ▸ invariant Device.Stage (fun _ _ hs ha ↦ hs.step ha) (stage_powerOn rfl rfl rfl) horderly
  obtain ⟨hcaller, hactive, t, htasks⟩ := hstage.running_of_serves hserves
  have hnear : d.Near dep 4 := by
    refine ⟨hcaller, hd ▸ Device.run_unblocked boot running history, hactive, hserves.stop, t,
      htasks, hserves.clientState t (by simp [htasks]), ?_, fun hinstall ↦ ?_⟩
    · cases t.clientState <;> simp [ClientState.passesToInstall]
    · exact absurd hinstall (hstate t (by simp [htasks]))
  have hcloser : ∀ n (s : Device) (a : Action), s.Near dep n → a.Offers dep → a.isPass = true →
      (∃ E, a = .pass E 0 ∧ s.events a = [.restarted] ∧ Installed dep s.flash s.trace) ∨
        ∃ m < n, (s.step a).Near dep m := by
    intro n s a hs ha hpass
    cases a with
    | pass E i =>
        obtain rfl : i = 0 := by simpa [Action.isPass] using hpass
        rcases hs.pass ha with ⟨hrestarted, hinstalled⟩ | hcloser
        · exact .inl ⟨E, rfl, hrestarted, hinstalled⟩
        · exact .inr hcloser
    | _ => simp [Action.isPass] at hpass
  obtain ⟨pre, a, post, heq, -, E, rfl, hrestarted, hinstalled⟩ :=
    exists_reached (Device.Near dep) Action.isPass (fun d a ↦ ∃ E, a = .pass E 0 ∧
      d.events a = [.restarted] ∧ Installed dep d.flash d.trace)
      (fun n s a hs ha hother ↦ hs.other ha hother) hcloser hnear (always_const.mpr hoffers)
      hpasses
  obtain ⟨info, hstat, hstatus, hid⟩ := hinstalled.status
  refine ⟨pre, E, post, heq, hrestarted, hinstalled, fun E' hE' ↦ ?_⟩
  obtain ⟨hoff, hflash⟩ := Device.off_of_restarted hrestarted
  exact Device.closedBy_of_off hoff.1 hoff.2.1 hoff.2.2 (hflash.trans hstat) hstatus hid hE'

/-! ## An update that is closed -/

def closing : PassEnv :=
  { delivering with check := { quietCheck with imageQuery := .state .pendingVerify } }

theorem closes_closing : closing.check.Closes where
  imageQuery := rfl
  markValid := rfl
  existenceChecked := rfl
  read := rfl
  readWhole := rfl
  counts := by decide
  closedAccepted := rfl
  erased := rfl

theorem allCallsOk_wholeBody : AllCallsOk wholeBody where
  setHeaders := rfl
  clientOpen := rfl
  fetchHeaders := rfl
  statusCode := rfl
  contentLength := by decide
  malloc := rfl
  nextUpdatePartition := by decide
  otaBegin := rfl
  body := rfl
  clientInit := rfl
  otaEnd := rfl
  setBootPartition := rfl
  clientClose := rfl
  clientCleanup := rfl

theorem offers_delivering : delivering.Offers threeBytes where
  actions := ⟨⟨60000, [0x2F]⟩, rfl, by decide⟩
  toRetrieve := rfl
  installs := ⟨0, by decide, by decide, by decide, by decide,
    (firstOk_of_ok allCallsOk_wholeBody).mpr rfl, rfl⟩

theorem closed_of_offered_delivering :
    ∃ pre E post, List.replicate 5 (Action.pass delivering 0) = pre ++ .pass E 0 :: post ∧
      ((((deliveringRun 0).run pre).step (.pass E 0)).run
        [.start true, .callerContinues]).ClosedBy closing threeBytes := by
  have hserves : (deliveringRun 0).Serves := ⟨by decide, by decide, by decide, by decide⟩
  obtain ⟨pre, E, post, heq, -, -, hclosed⟩ := closed_of_offered 1 1 threeBytes
    [.start true, .callerContinues] (List.replicate 5 (.pass delivering 0)) (by decide) rfl hserves
    (by decide) (List.forall_mem_replicate.mpr (.inr offers_delivering)) (by decide)
  exact ⟨pre, E, post, heq, hclosed closing closes_closing⟩

end AnkerUpdater.Hawkbit
