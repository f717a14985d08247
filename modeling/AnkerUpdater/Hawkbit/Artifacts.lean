import AnkerUpdater.Hawkbit.Download
import AnkerUpdater.Protocol.Messages

/-!
# Retrieving the artifacts of a deployment

`download_and_check_update_file` and `retrieve_update_artifacts`.  Size and
hash of the artifact come with the deployment, and the hash reaches the
download, but nothing compares them with the bytes that arrive.
-/

namespace AnkerUpdater.Hawkbit

open UploadLog

def downloadRetriesAnker : ℕ := 3

def firmwareMaxSizeAnker : ℕ := 3145728

/-- `"firmware.bin"`. -/
def firmwareNameAnker : List UInt8 :=
  [0x66, 0x69, 0x72, 0x6D, 0x77, 0x61, 0x72, 0x65, 0x2E, 0x62, 0x69, 0x6E]

inductive UpdateType where
  | unknown
  | forced
  | soft
  | skip
  deriving DecidableEq, Repr

/-- `hawkbit_client_module_content_t`; `version` and `downloadUrl` list the
characters before the terminating zero. -/
structure ModuleContent where
  version : List UInt8
  artifactSize : ℕ
  hashSha1 : Vector UInt8 40
  downloadUrl : List UInt8
  deriving DecidableEq

structure Deployment where
  id : ℕ
  update : UpdateType
  anker : ModuleContent
  deriving DecidableEq

inductive UpdateStatus where
  | unknown
  | updateAvailable
  | alreadyInstalled
  | downloadSuccessful
  | downloadFailed
  | downloadInvalid
  | installSuccessful
  | installFailed
  | handlePAnkerUpdate
  | handledPAnkerUpdate
  deriving DecidableEq, Repr

structure TimeInfo where
  timeValid : Bool
  timeValue : ℕ
  deriving DecidableEq

structure UpdateCounts where
  cntToUpdate : ℕ
  cntJoined : ℕ
  cntUpdated : ℕ
  deriving DecidableEq

/-- `current_update_info_t`, the content of `update.stat`. -/
structure UpdateInfo where
  updateId : ℕ
  status : UpdateStatus
  timeInfo : TimeInfo
  counts : UpdateCounts
  deriving DecidableEq

/-! ## Download attempts -/

structure DownloadRun where
  rc : ClientRc
  boot : ℕ
  attempts : List DownloadResult
  deriving DecidableEq

/-- `download_and_check_update_file`, entered with `retries` left and the
attempt `i` next.  The parameter `hash` of the source is not used. -/
def downloadAndCheckUpdateFile (m : ModuleType) (E : ℕ → DownloadEnv) :
    ℕ → ℕ → ℕ → DownloadRun
  | 0, i, boot =>
      let r := httpRequestDownloadData m (E i) boot
      if r.rc = .ok then ⟨.ok, r.boot, [r]⟩ else ⟨.errRetriesExceeded, r.boot, [r]⟩
  | retries + 1, i, boot =>
      let r := httpRequestDownloadData m (E i) boot
      if r.rc = .ok then ⟨.ok, r.boot, [r]⟩
      else
        let rest := downloadAndCheckUpdateFile m E retries (i + 1) r.boot
        { rest with attempts := r :: rest.attempts }

/-- The `memcmp` of the last characters of the URL with the firmware name.
For a URL shorter than the name it starts in `hash_sha1`, which lies right
before the URL. -/
def ModuleContent.nameMatches (c : ModuleContent) : Bool :=
  (c.hashSha1.toList ++ c.downloadUrl).drop (40 + c.downloadUrl.length - 12) = firmwareNameAnker

/-- What the device and the network do in one call of
`retrieve_update_artifacts`.  `stack` is what the counts of the local
`update_info` hold, which nothing sets. -/
structure RetrieveEnv where
  runningVersion : List UInt8
  attempts : ℕ → DownloadEnv
  timestamp : Option ℕ
  uptime : ℕ
  stack : UpdateCounts
  fileWritten : Bool

structure RetrieveResult where
  rc : ClientRc
  boot : ℕ
  deployment : Deployment
  persisted : Option UpdateInfo
  attempts : List DownloadResult
  deriving DecidableEq

def artifactStatus (E : RetrieveEnv) (c : ModuleContent) (boot : ℕ) :
    UpdateStatus × ℕ × List DownloadResult :=
  if c.downloadUrl = [] then (.unknown, boot, [])
  else if c.nameMatches && c.artifactSize ≤ firmwareMaxSizeAnker then
    if c.version = E.runningVersion then (.alreadyInstalled, boot, [])
    else
      let d := downloadAndCheckUpdateFile .anker E.attempts downloadRetriesAnker 0 boot
      (if d.rc = .ok then .downloadSuccessful else .downloadFailed, d.boot, d.attempts)
  else (.downloadInvalid, boot, [])

def RetrieveEnv.timeInfo (E : RetrieveEnv) (c : ModuleContent) : TimeInfo :=
  if c.downloadUrl = [] then ⟨false, 0⟩
  else match E.timestamp with
    | some t => ⟨true, t⟩
    | none => ⟨false, E.uptime⟩

def Deployment.clearUrl (d : Deployment) : Deployment :=
  { d with anker := { d.anker with downloadUrl := [] } }

def retrieveUpdateArtifacts (E : RetrieveEnv) (d : Deployment) (boot : ℕ) : RetrieveResult :=
  let s := artifactStatus E d.anker boot
  let info : UpdateInfo := ⟨d.id, s.1, E.timeInfo d.anker, E.stack⟩
  if E.fileWritten = false then ⟨.errGeneral, s.2.1, d, none, s.2.2⟩
  else if s.1 ≠ .unknown ∧ s.1 ≠ .downloadSuccessful ∧ s.1 ≠ .alreadyInstalled then
    ⟨.errDownloading, s.2.1, d, some info, s.2.2⟩
  else if s.1 ≠ .unknown ∧ s.1 ≠ .downloadSuccessful then
    ⟨.ok, s.2.1, d.clearUrl, some info, s.2.2⟩
  else ⟨.ok, s.2.1, d, some info, s.2.2⟩

/-! ## Successful attempts -/

/-- Every call of the attempt succeeds.  The announced length plays no part
beyond being positive. -/
structure AllCallsOk (E : DownloadEnv) : Prop extends Delivers E where
  clientInit : E.clientInit = true
  otaEnd : E.otaEnd = true
  setBootPartition : E.setBootPartition = true
  clientClose : E.clientClose = true
  clientCleanup : E.clientCleanup = true

theorem httpRequestDownloadData_rc_iff (E : DownloadEnv) (boot : ℕ) :
    (httpRequestDownloadData .anker E boot).rc = .ok ↔ AllCallsOk E := by
  have hbefore := beforeCleanup_outcome E
  cases hinit : E.clientInit with
  | false =>
      simp only [httpRequestDownloadData, hinit, if_true, reduceCtorEq, false_iff]
      intro h
      simp [h.clientInit] at hinit
  | true =>
      have hall : AllCallsOk E ↔ Delivers E ∧ E.otaEnd = true ∧ E.setBootPartition = true ∧
          E.clientClose = true ∧ E.clientCleanup = true := by
        constructor
        · exact fun h ↦ ⟨h.toDelivers, h.otaEnd, h.setBootPartition, h.clientClose, h.clientCleanup⟩
        · exact fun h ↦ ⟨h.1, hinit, h.2.1, h.2.2.1, h.2.2.2.1, h.2.2.2.2⟩
      have hpartition : (beforeCleanup .anker E).1 = .ok → (beforeCleanup .anker E).2.1 ≠ none := by
        intro hrc
        have hdelivers := hbefore.rc_iff.mp hrc
        rw [(hbefore.delivers hdelivers).1]
        exact hdelivers.nextUpdatePartition
      rw [hall, ← hbefore.rc_iff]
      simp only [httpRequestDownloadData, hinit, Bool.true_eq_false, if_false, if_true, endSession]
      cases E.otaEnd <;> cases E.setBootPartition <;> cases E.clientClose <;>
        cases E.clientCleanup <;> cases hp : (beforeCleanup .anker E).2.1 <;> simp_all

theorem written_of_allCallsOk {E : DownloadEnv} (h : AllCallsOk E) (boot : ℕ) :
    body E.reads = some (written (otaCalls (httpRequestDownloadData .anker E boot).log)) := by
  obtain ⟨hpartition, hbody⟩ := (beforeCleanup_outcome E).delivers h.toDelivers
  obtain ⟨address, haddress⟩ := Option.ne_none_iff_exists'.mp h.nextUpdatePartition
  rw [hbody]
  simp [httpRequestDownloadData, h.clientInit, endSession, h.otaEnd, h.setBootPartition,
    hpartition, haddress, written, step]

structure FirstOk (E : ℕ → DownloadEnv) (i retries k : ℕ) : Prop where
  le : k ≤ retries
  ok : AllCallsOk (E (i + k))
  earlier : ∀ j < k, ¬ AllCallsOk (E (i + j))

theorem firstOk_succ_iff {E : ℕ → DownloadEnv} {i retries k : ℕ} (h : ¬ AllCallsOk (E i)) :
    FirstOk E i (retries + 1) k ↔ ∃ l, k = l + 1 ∧ FirstOk E (i + 1) retries l := by
  constructor
  · intro hfirst
    cases k with
    | zero => exact absurd hfirst.ok h
    | succ l =>
        refine ⟨l, rfl, Nat.le_of_succ_le_succ hfirst.le, ?_, ?_⟩
        · rw [show i + 1 + l = i + (l + 1) by omega]
          exact hfirst.ok
        · intro j hj
          rw [show i + 1 + j = i + (j + 1) by omega]
          exact hfirst.earlier (j + 1) (by omega)
  · intro hfirst
    obtain ⟨l, rfl, hle, hok, hearlier⟩ := hfirst
    refine ⟨by omega, ?_, ?_⟩
    · rw [show i + (l + 1) = i + 1 + l by omega]
      exact hok
    · intro j hj
      cases j with
      | zero => exact h
      | succ j =>
          rw [show i + (j + 1) = i + 1 + j by omega]
          exact hearlier j (by omega)

theorem firstOk_of_ok {E : ℕ → DownloadEnv} {i retries k : ℕ} (h : AllCallsOk (E i)) :
    FirstOk E i retries k ↔ k = 0 := by
  constructor
  · intro hfirst
    by_contra hk
    exact hfirst.earlier 0 (Nat.pos_of_ne_zero hk) h
  · rintro rfl
    exact ⟨Nat.zero_le _, h, by simp⟩

/-- A call whose first attempt is successful makes no other. -/
theorem downloadAndCheckUpdateFile_of_ok {E : ℕ → DownloadEnv} {i : ℕ} (hok : AllCallsOk (E i))
    (retries boot : ℕ) : downloadAndCheckUpdateFile .anker E retries i boot =
      let r := httpRequestDownloadData .anker (E i) boot
      ⟨.ok, r.boot, [r]⟩ := by
  have hrc := (httpRequestDownloadData_rc_iff (E i) boot).mpr hok
  cases retries <;> rw [downloadAndCheckUpdateFile] <;> simp [hrc]

theorem downloadAndCheckUpdateFile_spec_of_ok {E : ℕ → DownloadEnv} {i : ℕ}
    (hok : AllCallsOk (E i)) (retries boot : ℕ) :
    ((downloadAndCheckUpdateFile .anker E retries i boot).rc = .ok ↔
        ∃ k, FirstOk E i retries k) ∧
      ∀ bytes, (∃ r ∈ (downloadAndCheckUpdateFile .anker E retries i boot).attempts,
          r.rc = .ok ∧ written (otaCalls r.log) = bytes) ↔
        ∃ k, FirstOk E i retries k ∧ body (E (i + k)).reads = some bytes := by
  have hrc := (httpRequestDownloadData_rc_iff (E i) boot).mpr hok
  have hwritten := written_of_allCallsOk hok boot
  rw [downloadAndCheckUpdateFile_of_ok hok]
  simp [hrc, firstOk_of_ok hok, hwritten]

/-- The attempts of a call: it succeeds with the first successful attempt,
which is the only one among those it made. -/
theorem downloadAndCheckUpdateFile_spec (E : ℕ → DownloadEnv) (retries i boot : ℕ) :
    ((downloadAndCheckUpdateFile .anker E retries i boot).rc = .ok ↔
        ∃ k, FirstOk E i retries k) ∧
      ∀ bytes, (∃ r ∈ (downloadAndCheckUpdateFile .anker E retries i boot).attempts,
          r.rc = .ok ∧ written (otaCalls r.log) = bytes) ↔
        ∃ k, FirstOk E i retries k ∧ body (E (i + k)).reads = some bytes := by
  induction retries generalizing i boot with
  | zero =>
      by_cases hok : AllCallsOk (E i)
      · exact downloadAndCheckUpdateFile_spec_of_ok hok 0 boot
      · have hrc : (httpRequestDownloadData .anker (E i) boot).rc ≠ .ok := fun h ↦
          hok ((httpRequestDownloadData_rc_iff (E i) boot).mp h)
        rw [downloadAndCheckUpdateFile]
        have hnone : ∀ k, ¬ FirstOk E i 0 k := by
          intro k hfirst
          have hzero : k = 0 := Nat.le_zero.mp hfirst.le
          subst hzero
          exact hok hfirst.ok
        simp [hrc, hnone]
  | succ retries ih =>
      by_cases hok : AllCallsOk (E i)
      · exact downloadAndCheckUpdateFile_spec_of_ok hok (retries + 1) boot
      · have hrc : (httpRequestDownloadData .anker (E i) boot).rc ≠ .ok := fun h ↦
          hok ((httpRequestDownloadData_rc_iff (E i) boot).mp h)
        rw [downloadAndCheckUpdateFile]
        obtain ⟨hrest, hbytes⟩ := ih (i + 1) (httpRequestDownloadData .anker (E i) boot).boot
        simp only [hrc, if_false, firstOk_succ_iff hok]
        constructor
        · rw [hrest]
          constructor
          · rintro ⟨k, hfirst⟩
            exact ⟨k + 1, k, rfl, hfirst⟩
          · rintro ⟨_, k, -, hfirst⟩
            exact ⟨k, hfirst⟩
        · intro bytes
          simp only [List.exists_mem_cons_iff, hrc, false_and, false_or, hbytes bytes]
          constructor
          · rintro ⟨k, hfirst, hbody⟩
            refine ⟨k + 1, ⟨k, rfl, hfirst⟩, ?_⟩
            rwa [show i + (k + 1) = i + 1 + k by omega]
          · rintro ⟨_, ⟨k, rfl, hfirst⟩, hbody⟩
            refine ⟨k, hfirst, ?_⟩
            rwa [show i + 1 + k = i + (k + 1) by omega]

/-! ## What is installed -/

/-- The update is downloaded, the attempt `k` succeeds first, and the
status file is written. -/
structure Installs (E : RetrieveEnv) (c : ModuleContent) (k : ℕ) : Prop where
  downloadUrl : c.downloadUrl ≠ []
  nameMatches : c.nameMatches = true
  artifactSize : c.artifactSize ≤ firmwareMaxSizeAnker
  version : c.version ≠ E.runningVersion
  first : FirstOk E.attempts 0 downloadRetriesAnker k
  fileWritten : E.fileWritten = true

/-- If DOWNLOAD_SUCCESSFUL is persisted, the bytes handed to `esp_ota_write`
in the successful attempt have the size and the hash of the deployment. -/
def OnlyAssigned (sha1Hex : List UInt8 → List UInt8) (E : RetrieveEnv) (d : Deployment)
    (boot : ℕ) : Prop :=
  ∀ info, (retrieveUpdateArtifacts E d boot).persisted = some info →
    info.status = .downloadSuccessful →
      ∀ r ∈ (retrieveUpdateArtifacts E d boot).attempts, r.rc = .ok →
        (written (otaCalls r.log)).length = d.anker.artifactSize ∧
          sha1Hex (written (otaCalls r.log)) = d.anker.hashSha1.toList

theorem persisted_successful_iff (E : RetrieveEnv) (d : Deployment) (boot : ℕ) :
    (∃ info, (retrieveUpdateArtifacts E d boot).persisted = some info ∧
        info.status = .downloadSuccessful) ↔ ∃ k, Installs E d.anker k := by
  have hspec := (downloadAndCheckUpdateFile_spec E.attempts downloadRetriesAnker 0 boot).1
  have hpersisted : (∃ info, (retrieveUpdateArtifacts E d boot).persisted = some info ∧
      info.status = .downloadSuccessful) ↔
      E.fileWritten = true ∧ (artifactStatus E d.anker boot).1 = .downloadSuccessful := by
    simp only [retrieveUpdateArtifacts]
    split_ifs <;> simp_all
  rw [hpersisted]
  constructor
  · intro h
    obtain ⟨hwritten, hstatus⟩ := h
    rw [artifactStatus] at hstatus
    split_ifs at hstatus with hurl heligible hversion
    have hrc : (downloadAndCheckUpdateFile .anker E.attempts downloadRetriesAnker 0 boot).rc =
        .ok := by
      by_contra hrc
      simp [hrc] at hstatus
    obtain ⟨k, hfirst⟩ := hspec.mp hrc
    have heligible := Bool.and_eq_true_iff.mp heligible
    exact ⟨k, hurl, heligible.1, by simpa using heligible.2, hversion, hfirst, hwritten⟩
  · intro h
    obtain ⟨k, h⟩ := h
    have hrc := hspec.mpr ⟨k, h.first⟩
    refine ⟨h.fileWritten, ?_⟩
    simp [artifactStatus, h.downloadUrl, h.nameMatches, h.artifactSize, h.version, hrc]

theorem attempts_of_installs {E : RetrieveEnv} {d : Deployment} {k : ℕ} (boot : ℕ)
    (h : Installs E d.anker k) : (retrieveUpdateArtifacts E d boot).attempts =
      (downloadAndCheckUpdateFile .anker E.attempts downloadRetriesAnker 0 boot).attempts := by
  have hattempts : (retrieveUpdateArtifacts E d boot).attempts =
      (artifactStatus E d.anker boot).2.2 := by
    simp only [retrieveUpdateArtifacts]
    split_ifs <;> rfl
  rw [hattempts]
  simp [artifactStatus, h.downloadUrl, h.nameMatches, h.artifactSize, h.version]

/-- Only the assigned artifact is installed exactly if the stream of the
attempt that installs it happens to be that artifact. -/
theorem onlyAssigned_iff (sha1Hex : List UInt8 → List UInt8) (E : RetrieveEnv) (d : Deployment)
    (boot : ℕ) : OnlyAssigned sha1Hex E d boot ↔
      ∀ k bytes, Installs E d.anker k → body (E.attempts k).reads = some bytes →
        bytes.length = d.anker.artifactSize ∧ sha1Hex bytes = d.anker.hashSha1.toList := by
  have hspec := (downloadAndCheckUpdateFile_spec E.attempts downloadRetriesAnker 0 boot).2
  constructor
  · intro h k bytes hinstalls hbody
    obtain ⟨info, hpersisted, hstatus⟩ := (persisted_successful_iff E d boot).mpr ⟨k, hinstalls⟩
    obtain ⟨r, hr, hrc, rfl⟩ := (hspec bytes).mpr
      ⟨k, hinstalls.first, by rwa [Nat.zero_add]⟩
    rw [← attempts_of_installs boot hinstalls] at hr
    exact h info hpersisted hstatus r hr hrc
  · intro h info hpersisted hstatus r hr hrc
    obtain ⟨k, hinstalls⟩ := (persisted_successful_iff E d boot).mp ⟨info, hpersisted, hstatus⟩
    rw [attempts_of_installs boot hinstalls] at hr
    obtain ⟨l, hfirst, hbody⟩ := (hspec _).mp ⟨r, hr, hrc, rfl⟩
    rw [Nat.zero_add] at hbody
    exact h l _ { hinstalls with first := hfirst } hbody

def cutShort : RetrieveEnv where
  runningVersion := [0x31]
  attempts _ := { wholeBody with contentLength := 5 }
  timestamp := none
  uptime := 0
  stack := ⟨0, 0, 0⟩
  fileWritten := true

def fiveBytes : Deployment :=
  ⟨7, .forced, ⟨[0x32], 5, Vector.replicate 40 0x30, 0x2F :: firmwareNameAnker⟩⟩

theorem not_onlyAssigned_cutShort : ¬ ∃ sha1Hex, OnlyAssigned sha1Hex cutShort fiveBytes 1 := by
  rintro ⟨sha1Hex, h⟩
  obtain ⟨hlength, -⟩ := h ⟨7, .downloadSuccessful, ⟨false, 0⟩, ⟨0, 0, 0⟩⟩ (by decide) rfl
    (httpRequestDownloadData .anker { wholeBody with contentLength := 5 } 1) (by decide) (by decide)
  exact absurd hlength (by decide)

end AnkerUpdater.Hawkbit
