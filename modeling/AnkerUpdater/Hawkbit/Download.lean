import AnkerUpdater.Lib.UploadLog

/-!
# One download attempt

`http_request_download_data` with the results of its library calls as an
oracle.  Every path after the client handle is there ends at the label
`cleanup`, which ends the OTA session and switches the boot partition
whatever happened before.
-/

namespace AnkerUpdater.Hawkbit

open EventLog UploadLog

inductive ModuleType where
  | unknown
  | anker
  deriving DecidableEq, Repr

inductive ClientRc where
  | ok
  | errGeneral
  | errHttpClient
  | errRetriesExceeded
  | errDownloading
  | errEspOta
  deriving DecidableEq, Repr

/-- One call of `esp_http_client_read`: an error, or bytes together with
the result of writing them.  No bytes mean the end of the stream. -/
inductive Read where
  | failed
  | data (bytes : List UInt8) (otaWrite : Bool)
  deriving DecidableEq

/-- The results of the calls of one attempt; `true` stands for success.
`statusCode` and `contentLength` are the values in the `int32_t` variables
of these names, after the conversion of what the HTTP client returns.  A
list of reads that runs out ends the stream. -/
structure DownloadEnv where
  clientInit : Bool
  setHeaders : Bool
  clientOpen : Bool
  fetchHeaders : Bool
  statusCode : ℤ
  contentLength : ℤ
  malloc : Bool
  nextUpdatePartition : Option ℕ
  otaBegin : Bool
  reads : List Read
  otaEnd : Bool
  setBootPartition : Bool
  clientClose : Bool
  clientCleanup : Bool
  deriving DecidableEq

inductive DownloadEvent where
  | bodyEnd
  | ota (call : Call UInt8)
  deriving DecidableEq

/-- What an attempt returns, the address of the boot partition after it,
and the calls it made. -/
structure DownloadResult where
  rc : ClientRc
  boot : ℕ
  log : List DownloadEvent
  deriving DecidableEq

def otaCalls (log : List DownloadEvent) : List (Call UInt8) :=
  log.filterMap fun
    | .bodyEnd => none
    | .ota c => some c

def readLoop (m : ModuleType) : List Read → ClientRc × List DownloadEvent
  | [] => (.ok, [.bodyEnd])
  | .failed :: _ => (.errHttpClient, [])
  | .data bytes otaWrite :: rs =>
      if bytes = [] then (.ok, [.bodyEnd])
      else if m = .anker then
        if otaWrite = false then (.errEspOta, [.ota (.write bytes false)])
        else ((readLoop m rs).1, .ota (.write bytes true) :: (readLoop m rs).2)
      else readLoop m rs

/-- `err`, `updatePartition` and the calls up to the label `cleanup`. -/
def beforeCleanup (m : ModuleType) (E : DownloadEnv) :
    ClientRc × Option ℕ × List DownloadEvent :=
  if E.setHeaders = false then (.errHttpClient, none, [])
  else if E.clientOpen = false then (.errHttpClient, none, [])
  else if E.fetchHeaders = false then (.errHttpClient, none, [])
  else if E.statusCode ≠ 200 then (.errHttpClient, none, [])
  else if E.contentLength < 1 then (.errHttpClient, none, [])
  else if E.malloc = false then (.errHttpClient, none, [])
  else if m = .anker then
    match E.nextUpdatePartition with
    | none => (.errEspOta, none, [])
    | some address =>
        if E.otaBegin = false then (.errEspOta, some address, [.ota (.begin false)])
        else ((readLoop m E.reads).1, some address, .ota (.begin true) :: (readLoop m E.reads).2)
  else ((readLoop m E.reads).1, none, (readLoop m E.reads).2)

/-- The OTA part of the label `cleanup`: `err`, the boot partition and the
calls after it.  `esp_ota_set_boot_partition` refuses a null pointer. -/
def endSession (E : DownloadEnv) (err : ClientRc) (updatePartition : Option ℕ) (boot : ℕ)
    (log : List DownloadEvent) : ClientRc × ℕ × List DownloadEvent :=
  if E.otaEnd = false then (.errEspOta, boot, log ++ [.ota (.finish false)])
  else match updatePartition with
    | none => (.errEspOta, boot, log ++ [.ota (.finish true)] ++ [.ota (.activate false)])
    | some address =>
        if E.setBootPartition = false then
          (.errEspOta, boot, log ++ [.ota (.finish true)] ++ [.ota (.activate false)])
        else (err, address, log ++ [.ota (.finish true)] ++ [.ota (.activate true)])

def httpRequestDownloadData (m : ModuleType) (E : DownloadEnv) (boot : ℕ) : DownloadResult :=
  if E.clientInit = false then ⟨.errHttpClient, boot, []⟩
  else
    let before := beforeCleanup m E
    let ended :=
      if m = .anker then endSession E before.1 before.2.1 boot before.2.2
      else (before.1, boot, before.2.2)
    let err := if E.clientClose = false then .errHttpClient else ended.1
    let err := if E.clientCleanup = false then .errHttpClient else err
    ⟨if err = .ok then .ok else .errHttpClient, ended.2.1, ended.2.2⟩

/-! ## The body of a response -/

/-- The bytes up to the end of the stream, if no read and no write fails
before it. -/
def body : List Read → Option (List UInt8)
  | [] => some []
  | .failed :: _ => none
  | .data bytes otaWrite :: rs =>
      if bytes = [] then some []
      else if otaWrite then (body rs).map (bytes ++ ·)
      else none

@[simp] theorem otaCalls_nil : otaCalls [] = [] := rfl

@[simp] theorem otaCalls_cons_ota (c : Call UInt8) (log : List DownloadEvent) :
    otaCalls (.ota c :: log) = c :: otaCalls log := rfl

@[simp] theorem otaCalls_cons_bodyEnd (log : List DownloadEvent) :
    otaCalls (.bodyEnd :: log) = otaCalls log := rfl

@[simp] theorem otaCalls_append (log log' : List DownloadEvent) :
    otaCalls (log ++ log') = otaCalls log ++ otaCalls log' := List.filterMap_append

def DownloadEvent.closing : DownloadEvent → Bool
  | .ota (.finish _) => true
  | .ota (.activate _) => true
  | _ => false

theorem readLoop_not_closing (m : ModuleType) (reads : List Read) :
    ∀ e ∈ (readLoop m reads).2, e.closing = false := by
  induction reads with
  | nil => simp [readLoop, DownloadEvent.closing]
  | cons r rs ih =>
      cases r with
      | failed => simp [readLoop]
      | data bytes otaWrite =>
          rw [readLoop]
          split_ifs
          · simp [DownloadEvent.closing]
          · simp [DownloadEvent.closing]
          · simpa [DownloadEvent.closing] using ih
          · exact ih

structure ReadOutcome (reads : List Read) (rc : ClientRc) (log : List DownloadEvent) : Prop where
  rc_iff : rc = .ok ↔ (body reads).isSome = true
  bodyEnd_iff : .bodyEnd ∈ log ↔ (body reads).isSome = true
  written : ∀ bytes, body reads = some bytes → ∀ calls : List (Call UInt8),
    UploadLog.written (calls ++ otaCalls log) = UploadLog.written calls ++ bytes

theorem readLoop_outcome (reads : List Read) :
    ReadOutcome reads (readLoop .anker reads).1 (readLoop .anker reads).2 := by
  induction reads with
  | nil => exact ⟨by simp [readLoop, body], by simp [readLoop, body], by simp [readLoop, body]⟩
  | cons r rs ih =>
      cases r with
      | failed => exact ⟨by simp [readLoop, body], by simp [readLoop, body], by simp [body]⟩
      | data bytes otaWrite =>
          by_cases hempty : bytes = []
          · exact ⟨by simp [readLoop, body, hempty], by simp [readLoop, body, hempty],
              by simp [readLoop, body, hempty]⟩
          · cases otaWrite with
            | false => exact ⟨by simp [readLoop, body, hempty], by simp [readLoop, body, hempty],
                by simp [body, hempty]⟩
            | true =>
                have hloop : readLoop .anker (.data bytes true :: rs) =
                    ((readLoop .anker rs).1,
                      .ota (.write bytes true) :: (readLoop .anker rs).2) := by
                  simp [readLoop, hempty]
                have hbody : body (.data bytes true :: rs) = (body rs).map (bytes ++ ·) := by
                  simp [body, hempty]
                rw [hloop]
                refine ⟨by simpa [hbody] using ih.rc_iff, by simpa [hbody] using ih.bodyEnd_iff, ?_⟩
                intro total htotal calls
                rw [hbody] at htotal
                obtain ⟨rest, hrest, rfl⟩ := Option.map_eq_some_iff.mp htotal
                have hwritten := ih.written rest hrest (calls ++ [.write bytes true])
                rw [written_write_true, List.append_assoc, List.append_assoc] at hwritten
                simpa using hwritten

/-! ## When a failed attempt leaves the boot partition alone -/

def Finished (E : DownloadEnv) (log : List DownloadEvent) : Prop :=
  .ota (.begin true) ∈ log ∧ .bodyEnd ∈ log ∧
    ((written (otaCalls log)).length : ℤ) = E.contentLength

structure Delivers (E : DownloadEnv) : Prop where
  setHeaders : E.setHeaders = true
  clientOpen : E.clientOpen = true
  fetchHeaders : E.fetchHeaders = true
  statusCode : E.statusCode = 200
  contentLength : 1 ≤ E.contentLength
  malloc : E.malloc = true
  nextUpdatePartition : E.nextUpdatePartition ≠ none
  otaBegin : E.otaBegin = true
  body : (body E.reads).isSome = true

/-- Besides, the stream delivers the announced length. -/
structure Completes (E : DownloadEnv) : Prop extends Delivers E where
  length : ∀ bytes, Hawkbit.body E.reads = some bytes → (bytes.length : ℤ) = E.contentLength

structure BeforeOutcome (E : DownloadEnv) (rc : ClientRc) (updatePartition : Option ℕ)
    (log : List DownloadEvent) : Prop where
  rc_iff : rc = .ok ↔ Delivers E
  finished_iff : Finished E log ↔ Completes E
  not_closing : ∀ e ∈ log, e.closing = false
  delivers : Delivers E → updatePartition = E.nextUpdatePartition ∧
    body E.reads = some (written (otaCalls log))

theorem BeforeOutcome.of_failed {E : DownloadEnv} {rc : ClientRc} {updatePartition : Option ℕ}
    {log : List DownloadEvent} (hnot : ¬ Delivers E) (hrc : rc ≠ .ok)
    (hbegin : .ota (.begin true) ∉ log) (hclosing : ∀ e ∈ log, e.closing = false) :
    BeforeOutcome E rc updatePartition log where
  rc_iff := ⟨fun h ↦ absurd h hrc, fun h ↦ absurd h hnot⟩
  finished_iff := ⟨fun h ↦ absurd h.1 hbegin, fun h ↦ absurd h.toDelivers hnot⟩
  not_closing := hclosing
  delivers h := absurd h hnot

/-- Once the session is begun, the loop over the body decides. -/
theorem BeforeOutcome.of_begun {E : DownloadEnv} {address : ℕ}
    (hpartition : E.nextUpdatePartition = some address)
    (hdelivers : Delivers E ↔ (body E.reads).isSome = true) :
    BeforeOutcome E (readLoop .anker E.reads).1 (some address)
      (.ota (.begin true) :: (readLoop .anker E.reads).2) := by
  have hread := readLoop_outcome E.reads
  have hwritten : ∀ bytes, body E.reads = some bytes →
      written (otaCalls (.ota (.begin true) :: (readLoop .anker E.reads).2)) = bytes :=
    fun bytes hbytes ↦ hread.written bytes hbytes [.begin true]
  refine ⟨hread.rc_iff.trans hdelivers.symm, ?_, ?_, ?_⟩
  · constructor
    · intro h
      obtain ⟨-, hend, hlen⟩ := h
      have hbody := hread.bodyEnd_iff.mp (by simpa using hend)
      refine ⟨hdelivers.mpr hbody, ?_⟩
      intro bytes hbytes
      rwa [hwritten bytes hbytes] at hlen
    · intro h
      obtain ⟨bytes, hbytes⟩ := Option.isSome_iff_exists.mp h.body
      have hend := hread.bodyEnd_iff.mpr h.body
      refine ⟨List.mem_cons_self, List.mem_cons_of_mem _ hend, ?_⟩
      rw [hwritten bytes hbytes]
      exact h.length bytes hbytes
  · simpa [DownloadEvent.closing] using readLoop_not_closing .anker E.reads
  · intro h
    obtain ⟨bytes, hbytes⟩ := Option.isSome_iff_exists.mp h.body
    rw [hwritten bytes hbytes]
    exact ⟨hpartition.symm, hbytes⟩

theorem beforeCleanup_outcome (E : DownloadEnv) :
    BeforeOutcome E (beforeCleanup .anker E).1 (beforeCleanup .anker E).2.1
      (beforeCleanup .anker E).2.2 := by
  have hfailed : ¬ Delivers E → ∀ rc updatePartition, rc ≠ .ok →
      BeforeOutcome E rc updatePartition [] :=
    fun hnot _ _ hrc ↦ .of_failed hnot hrc (by simp) (by simp)
  rw [beforeCleanup]
  by_cases hheaders : E.setHeaders = false
  · rw [if_pos hheaders]
    exact hfailed (fun h ↦ by simp [h.setHeaders] at hheaders) _ _ (by simp)
  rw [if_neg hheaders]
  by_cases hopen : E.clientOpen = false
  · rw [if_pos hopen]
    exact hfailed (fun h ↦ by simp [h.clientOpen] at hopen) _ _ (by simp)
  rw [if_neg hopen]
  by_cases hfetch : E.fetchHeaders = false
  · rw [if_pos hfetch]
    exact hfailed (fun h ↦ by simp [h.fetchHeaders] at hfetch) _ _ (by simp)
  rw [if_neg hfetch]
  by_cases hstatus : E.statusCode ≠ 200
  · rw [if_pos hstatus]
    exact hfailed (fun h ↦ hstatus h.statusCode) _ _ (by simp)
  rw [if_neg hstatus]
  by_cases hlength : E.contentLength < 1
  · rw [if_pos hlength]
    exact hfailed (fun h ↦ absurd h.contentLength (not_le.mpr hlength)) _ _ (by simp)
  rw [if_neg hlength]
  by_cases hmalloc : E.malloc = false
  · rw [if_pos hmalloc]
    exact hfailed (fun h ↦ by simp [h.malloc] at hmalloc) _ _ (by simp)
  rw [if_neg hmalloc, if_pos rfl]
  cases hpartition : E.nextUpdatePartition with
  | none => exact hfailed (fun h ↦ h.nextUpdatePartition hpartition) _ _ (by simp)
  | some address =>
      by_cases hbegin : E.otaBegin = false
      · simp only [if_pos hbegin]
        exact .of_failed (fun h ↦ by simp [h.otaBegin] at hbegin) (by simp) (by simp)
          (by simp [DownloadEvent.closing])
      · simp only [if_neg hbegin]
        apply BeforeOutcome.of_begun hpartition
        constructor
        · exact fun h ↦ h.body
        · intro hbody
          exact ⟨by simpa using hheaders, by simpa using hopen, by simpa using hfetch,
            not_not.mp hstatus, not_lt.mp hlength, by simpa using hmalloc,
            by simp [hpartition], by simpa using hbegin, hbody⟩

def ClosesFinished (E : DownloadEnv) (log : List DownloadEvent) : Prop :=
  EachAt (fun pre e ↦ e.closing = true → Finished E pre) log

theorem closesFinished_of_not_closing {E : DownloadEnv} {log : List DownloadEvent}
    (h : ∀ e ∈ log, e.closing = false) : ClosesFinished E log := by
  intro pre e post hlog hclosing
  have hopen := h e (by simp [hlog])
  simp [hopen] at hclosing

theorem closesFinished_append_finish {E : DownloadEnv} {log : List DownloadEvent} (ok : Bool)
    (h : ∀ e ∈ log, e.closing = false) :
    ClosesFinished E (log ++ [.ota (.finish ok)]) ↔ Finished E log := by
  rw [ClosesFinished]
  rw [eachAt_append_singleton]
  constructor
  · exact fun hboth ↦ hboth.2 rfl
  · exact fun hfinished ↦ ⟨closesFinished_of_not_closing h, fun _ ↦ hfinished⟩

theorem closesFinished_append_activate {E : DownloadEnv} {log : List DownloadEvent} (ok ok' : Bool)
    (h : ∀ e ∈ log, e.closing = false) :
    ClosesFinished E (log ++ [.ota (.finish ok)] ++ [.ota (.activate ok')]) ↔ Finished E log := by
  have hfinish := closesFinished_append_finish (E := E) ok h
  unfold ClosesFinished at *
  rw [eachAt_append_singleton, hfinish]
  constructor
  · exact fun hboth ↦ hboth.1
  · intro hfinished
    refine ⟨hfinished, fun _ ↦ ?_⟩
    obtain ⟨hbegin, hend, hlen⟩ := hfinished
    exact ⟨by simp [hbegin], by simp [hend], by simpa [written, step] using hlen⟩

theorem closesFinished_endSession {E : DownloadEnv} {log : List DownloadEvent} (err : ClientRc)
    (updatePartition : Option ℕ) (boot : ℕ) (h : ∀ e ∈ log, e.closing = false) :
    ClosesFinished E (endSession E err updatePartition boot log).2.2 ↔ Finished E log := by
  unfold endSession
  by_cases hend : E.otaEnd = false
  · rw [if_pos hend]
    exact closesFinished_append_finish false h
  · rw [if_neg hend]
    cases updatePartition with
    | none => exact closesFinished_append_activate true false h
    | some address =>
        by_cases hset : E.setBootPartition = false
        · simp only [if_pos hset]
          exact closesFinished_append_activate true false h
        · simp only [if_neg hset]
          exact closesFinished_append_activate true true h

/-- A failed attempt keeps the boot partition, and the session is ended and
the boot partition set only after a finished body. -/
def BootSafe (m : ModuleType) (E : DownloadEnv) (boot : ℕ) : Prop :=
  ((httpRequestDownloadData m E boot).rc ≠ .ok →
      (httpRequestDownloadData m E boot).boot = boot) ∧
    ClosesFinished E (httpRequestDownloadData m E boot).log

theorem bootSafe_of_completes {E : DownloadEnv} {boot : ℕ} (hinit : E.clientInit = true)
    (h : Completes E) :
    BootSafe .anker E boot ↔ E.otaEnd = false ∨ E.setBootPartition = false ∨
      (E.clientClose = true ∧ E.clientCleanup = true) ∨ E.nextUpdatePartition = some boot := by
  have hbefore := beforeCleanup_outcome E
  have hrc := hbefore.rc_iff.mpr h.toDelivers
  have hpartition := (hbefore.delivers h.toDelivers).1
  have hcloses := fun err updatePartition ↦ (closesFinished_endSession err updatePartition boot
    hbefore.not_closing).mpr (hbefore.finished_iff.mpr h)
  obtain ⟨address, haddress⟩ := Option.ne_none_iff_exists'.mp h.nextUpdatePartition
  rw [BootSafe]
  simp only [httpRequestDownloadData, hinit, if_false, if_true, hcloses, and_true,
    Bool.true_eq_false]
  simp only [hrc, hpartition, haddress, endSession]
  cases hend : E.otaEnd with
  | false => simp
  | true =>
      cases hset : E.setBootPartition with
      | false => simp
      | true => cases E.clientClose <;> cases E.clientCleanup <;> simp

/-- An attempt is safe exactly if it is no download of the C-Anker's own
image, does not start, or completes and does not fail after the boot
partition was switched. -/
theorem bootSafe_iff (m : ModuleType) (E : DownloadEnv) (boot : ℕ) :
    BootSafe m E boot ↔ m ≠ .anker ∨ E.clientInit = false ∨
      (Completes E ∧ (E.otaEnd = false ∨ E.setBootPartition = false ∨
        (E.clientClose = true ∧ E.clientCleanup = true) ∨ E.nextUpdatePartition = some boot)) := by
  cases hinit : E.clientInit with
  | false =>
      simp only [true_or, or_true, iff_true]
      have hresult : httpRequestDownloadData m E boot = ⟨.errHttpClient, boot, []⟩ := by
        simp [httpRequestDownloadData, hinit]
      rw [BootSafe]
      rw [hresult]
      exact ⟨fun _ ↦ rfl, closesFinished_of_not_closing (by simp)⟩
  | true =>
      cases m with
      | unknown =>
          simp only [ne_eq, reduceCtorEq, not_false_iff, true_or, iff_true]
          have hlog : ∀ e ∈ (beforeCleanup .unknown E).2.2, e.closing = false := by
            have hread := readLoop_not_closing .unknown E.reads
            simp only [beforeCleanup, reduceCtorEq, if_false]
            split_ifs
            all_goals first | exact hread | simp
          rw [BootSafe]
          simp only [httpRequestDownloadData, hinit, reduceCtorEq, if_false, implies_true,
            true_and, Bool.true_eq_false]
          exact closesFinished_of_not_closing hlog
      | anker =>
          by_cases hcompletes : Completes E
          · rw [bootSafe_of_completes hinit hcompletes]
            simp [hcompletes]
          · have hbefore := beforeCleanup_outcome E
            have hnot : ¬ Finished E (beforeCleanup .anker E).2.2 :=
              fun hfinished ↦ hcompletes (hbefore.finished_iff.mp hfinished)
            simp only [ne_eq, not_true, hcompletes, false_and, or_false, Bool.true_eq_false,
              iff_false]
            intro hsafe
            have hcloses := hsafe.2
            apply hnot
            simp only [httpRequestDownloadData, hinit, Bool.true_eq_false, if_false,
              if_true] at hcloses
            exact (closesFinished_endSession _ _ boot hbefore.not_closing).mp hcloses

def wholeBody : DownloadEnv where
  clientInit := true
  setHeaders := true
  clientOpen := true
  fetchHeaders := true
  statusCode := 200
  contentLength := 3
  malloc := true
  nextUpdatePartition := some 2
  otaBegin := true
  reads := [.data [1, 2] true, .data [3] true]
  otaEnd := true
  setBootPartition := true
  clientClose := true
  clientCleanup := true

/-- A connection that does not close turns a finished switch into an error,
and one that does not open still ends a session that was never begun. -/
theorem not_bootSafe_wholeBody : ¬ BootSafe .anker { wholeBody with clientClose := false } 1 ∧
    ¬ BootSafe .anker { wholeBody with clientOpen := false } 1 := by
  constructor
  · intro hsafe
    exact absurd (hsafe.1 (by decide)) (by decide)
  · intro hsafe
    obtain ⟨hbegin, -⟩ := hsafe.2 [] (.ota (.finish true)) [.ota (.activate false)] rfl rfl
    simp at hbegin

end AnkerUpdater.Hawkbit
