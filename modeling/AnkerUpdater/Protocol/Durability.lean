import AnkerUpdater.Protocol.Provenance

/-!
# The record of an installed update

An installed update is resumed at every start, whatever restarts and power
failures come in between, until the UDP task has answered for it or the record
is written anew.
-/

namespace AnkerUpdater

open AtomicFiles EventLog Storage UploadLog

/-- The calls of `updater_start` up to the read succeed. -/
structure StartEnv.Works (E : StartEnv) : Prop where
  statePartition : E.statePartition ≠ .failed
  check : (E.check.filePath && E.check.tempPath) = true
  read : (E.read.filePath && E.read.fopen) = true
  fread : sizeofPAnkerUpdateInfo ≤ E.read.fread

section

variable {E : StartEnv} {disk : Disk} {serial : Serial}

/-- What a read of the record delivers, if it delivers all. -/
theorem InstalledRecord.info (h : InstalledRecord disk serial) {bytes : Bytes}
    {info : PAnkerUpdateInfo} {E : ReadEnv}
    (hread : readDataFromFile (some pAnkerUpdateStatus) readBinaryData sizeofPAnkerUpdateInfo E
      disk = (.ok, some bytes)) (hinfo : PAnkerUpdateInfo.ofBytes bytes = some info) :
    info.status = updateStatusInstalled ∧ info.serial = serial := by
  obtain ⟨content, info', hcontent, hinfo', hstatus, hserial⟩ := h
  obtain ⟨content', hcontent', hstart⟩ := exists_content_of_readDataFromFile hread
  obtain rfl := Option.some.inj (hcontent.symm.trans hcontent')
  rw [← PAnkerUpdateInfo.length_of_ofBytes hinfo, ← List.prefix_iff_eq_take.mp hstart, hinfo]
    at hinfo'
  obtain rfl := Option.some.inj hinfo'
  exact ⟨hstatus, hserial⟩

theorem InstalledRecord.congr {disk' : Disk} (h : InstalledRecord disk serial)
    (hsame : disk' pAnkerUpdateStatus = disk pAnkerUpdateStatus) :
    InstalledRecord disk' serial := by
  obtain ⟨content, info, hcontent, hinfo⟩ := h
  exact ⟨content, info, hsame.trans hcontent, hinfo⟩

/-- A start does not erase the record of an installed update, whatever fails. -/
theorem InstalledRecord.startFromRecord (h : InstalledRecord disk serial) :
    ∀ call ∈ (startFromRecord E disk).1,
      call = .checkExistence (some pAnkerUpdateStatus) E.check := by
  intro call hcall
  simp only [AnkerUpdater.startFromRecord] at hcall
  split_ifs at hcall
  · exact absurd hcall List.not_mem_nil
  · exact List.mem_singleton.mp hcall
  · split at hcall
    · next bytes hread =>
        split at hcall
        · exact List.mem_singleton.mp hcall
        · next info hinfo =>
            have hchecked := h.congr (step_check E.check disk)
            rw [if_pos (hchecked.info hread hinfo).1] at hcall
            exact List.mem_singleton.mp hcall
    · exact List.mem_singleton.mp hcall

/-- A start that can read the record resumes. -/
theorem InstalledRecord.resumes (h : InstalledRecord disk serial) (hworks : E.Works) :
    (AnkerUpdater.startFromRecord E disk).2 = some serial := by
  have hchecked := h.congr (step_check E.check disk)
  obtain ⟨content, info, hcontent, hinfo, -⟩ := id hchecked
  obtain ⟨content', -, hdisk, -⟩ := id h
  have hexists : ¬(Call.checkExistence (some pAnkerUpdateStatus) E.check).result disk ≠
      (.ok, some true) := by
    rw [not_not, Call.result, checkFileExistence_snd separate_pAnkerUpdateStatus rfl, if_neg]
    · simp [hdisk]
    · have hcheck := hworks.check
      simp only [Bool.and_eq_true] at hcheck
      simp [hcheck]
  have hlength := PAnkerUpdateInfo.length_of_ofBytes hinfo
  have hread : readDataFromFile (some pAnkerUpdateStatus) readBinaryData sizeofPAnkerUpdateInfo
      E.read (Storage.step disk (.returns (.checkExistence (some pAnkerUpdateStatus) E.check))) =
      (.ok, some (content.take sizeofPAnkerUpdateInfo)) := by
    have hopen := hworks.read
    rw [Bool.and_eq_true] at hopen
    have hsize : sizeofPAnkerUpdateInfo ≠ 0 := by decide
    have hshort : sizeofPAnkerUpdateInfo ≠ eof := by decide
    rw [readDataFromFile_of_content hcontent (by decide) hopen.1 hopen.2, if_neg (by simp [hsize]),
      if_neg (by simp [hsize]), freadContent]
    simp only [if_neg hsize, min_eq_left hworks.fread, hlength, if_neg hshort]
  obtain ⟨hstatus, hserial⟩ := hchecked.info hread hinfo
  simp only [AnkerUpdater.startFromRecord, if_neg hworks.statePartition, if_neg hexists, hread,
    hinfo, if_pos hstatus, hserial]

/-- Checks of the existence cannot be seen, also not a last one that is cut. -/
theorem foldl_step_check {actions : List Storage.Action} {E : CheckEnv}
    (h : ∀ action ∈ actions, action.call = .checkExistence (some pAnkerUpdateStatus) E)
    (disk : Disk) :
    actions.foldl Storage.step disk pAnkerUpdateStatus = disk pAnkerUpdateStatus := by
  induction actions generalizing disk with
  | nil => rfl
  | cons action actions ih =>
      obtain ⟨hcall, hrest⟩ := List.forall_mem_cons.mp h
      rw [List.foldl_cons, ih hrest]
      have htemp := onTemp_checkFileExistence pAnkerUpdateStatus E disk
      cases action with
      | returns call =>
          obtain rfl : call = _ := hcall
          exact step_check E disk
      | powerLoss call k debris =>
          obtain rfl : call = _ := hcall
          exact OnTemp.eqOn separate_pAnkerUpdateStatus rfl (htemp.take k) disk rfl

end

namespace PAnkerDevice

variable {sha256 : Sha256} {own : Anker} {s : PAnkerDevice} {serial : Serial}

/-- No record is written and the UDP task does not answer for one. -/
def Quiet (sha256 : Sha256) (own : Anker) (s : PAnkerDevice) (v : Move) : Prop :=
  match v.action with
  | .datagram id m r _ _ =>
      ¬(s.Listens id .udp ∧ (s.afterDatagram sha256 own id m r).phase = .restarted)
  | .request id m _ _ => ¬s.Obeys sha256 id m
  | .connectToDefaultAp id _ _ => ¬s.Connecting id
  | _ => True

theorem InstalledRecord.step (h : InstalledRecord s.disk serial) {v : Move}
    (hquiet : Quiet sha256 own s v) : InstalledRecord (s.step sha256 own v).disk serial := by
  have hcalls : ∃ E, ∀ call ∈ s.fileCalls sha256 own v.action,
      call = .checkExistence (some pAnkerUpdateStatus) E := by
    rw [Quiet] at hquiet
    cases ha : v.action with
    | updaterStart E =>
        refine ⟨E.check, fun call hcall ↦ ?_⟩
        rw [fileCalls, startRecord] at hcall
        split_ifs at hcall
        · exact absurd hcall List.not_mem_nil
        · exact h.startFromRecord call hcall
    | datagram id m r padding E =>
        rw [ha] at hquiet
        exact ⟨⟨true, true, true, true⟩, by simp [fileCalls, if_neg hquiet]⟩
    | request id m padding E =>
        rw [ha] at hquiet
        exact ⟨⟨true, true, true, true⟩, by simp [fileCalls, if_neg hquiet]⟩
    | connectToDefaultAp id results E =>
        rw [ha] at hquiet
        exact ⟨⟨true, true, true, true⟩, by simp [fileCalls, if_neg hquiet]⟩
    | updaterStop => exact ⟨⟨true, true, true, true⟩, by simp [fileCalls]⟩
    | connectTaskStops i => exact ⟨⟨true, true, true, true⟩, by simp [fileCalls]⟩
    | connectTaskConnects i stopped results => exact ⟨⟨true, true, true, true⟩, by simp [fileCalls]⟩
    | taskPasses id ok => exact ⟨⟨true, true, true, true⟩, by simp [fileCalls]⟩
    | expire j => exact ⟨⟨true, true, true, true⟩, by simp [fileCalls]⟩
    | wake j => exact ⟨⟨true, true, true, true⟩, by simp [fileCalls]⟩
    | restart => exact ⟨⟨true, true, true, true⟩, by simp [fileCalls]⟩
  obtain ⟨E, hcalls⟩ := hcalls
  exact h.congr (foldl_step_check (fun action haction ↦
    hcalls _ (call_mem_fileCalls haction)) s.disk)

/-- As long as nothing else is written to it, the record of an installed
update is there, and every start that can read it resumes. -/
theorem resumes_of_quiet (sha256 : Sha256) (own : Anker) (s : PAnkerDevice) (serial : Serial)
    (h : InstalledRecord s.disk serial) (moves : List Move)
    (hquiet : Runs.Always (step sha256 own) (Quiet sha256 own) s moves) (E : StartEnv)
    (hworks : E.Works) :
    let s' := (moves.foldl (step sha256 own) s).step sha256 own (.does .restart)
    InstalledRecord s'.disk serial ∧
      s'.logged sha256 own (.does (.updaterStart E)) = [.resumed serial] := by
  intro s'
  have hrecord : InstalledRecord (moves.foldl (step sha256 own) s).disk serial :=
    Runs.invariant (fun s : PAnkerDevice ↦ InstalledRecord s.disk serial)
      (fun _ _ h hquiet ↦ InstalledRecord.step h hquiet) h hquiet
  have hrestarted : InstalledRecord s'.disk serial := InstalledRecord.step hrecord trivial
  have hstart : s'.startRecord E = AnkerUpdater.startFromRecord E s'.disk := by
    rw [startRecord, if_neg]
    exact Bool.false_ne_true
  have hkept : InstalledRecord (s'.diskAfter sha256 own (.does (.updaterStart E))) serial := by
    have hstep : InstalledRecord (s'.step sha256 own (.does (.updaterStart E))).disk serial :=
      InstalledRecord.step hrestarted trivial
    exact hstep
  refine ⟨hrestarted, ?_⟩
  have hresumes : (s'.startRecord E).2 = some serial := by
    rw [hstart]
    exact hrestarted.resumes hworks
  obtain ⟨content, -, hcontent, -⟩ := hkept
  simp only [logged, lateEvents, events, Move.action, memoryAfter, next, hresumes, hcontent]
  simp

/-- The device of `updated` right after its image was activated. -/
def installed : PAnkerDevice := run headHash cAnker (fun _ ↦ none) (updated.take 4)

/-- The power fails in the first start, and the second one reads only three
bytes of the record. -/
def twoStarts : List Move :=
  [.powerLoss (.updaterStart okStart) 0 1 none,
    .does (.updaterStart { okStart with read := { okStart.read with fread := 3 } })]

theorem resumes_twoStarts :
    let s :=
      (twoStarts.foldl (step headHash cAnker) installed).step headHash cAnker (.does .restart)
    InstalledRecord s.disk cAnker.serial ∧
      s.logged headHash cAnker (.does (.updaterStart okStart)) = [.resumed cAnker.serial] := by
  let info : PAnkerUpdateInfo := ⟨updateStatusInstalled, cAnker.serial, Vector.replicate 3 0⟩
  refine resumes_of_quiet headHash cAnker installed cAnker.serial
    ⟨info.bytes, info, by decide, by decide, rfl, rfl⟩ twoStarts ?_ okStart
    ⟨by decide, by decide, by decide, by decide⟩
  exact Runs.always_cons.mpr ⟨trivial, Runs.always_cons.mpr ⟨trivial, Runs.always_nil⟩⟩

end PAnkerDevice

end AnkerUpdater
