import AnkerUpdater.Lib.HandleLog
import AnkerUpdater.Storage.ReadFile

/-!
# The streams of the whole-file functions

What `datastorage_check_file_existence`, the whole-file read and write and
`fcopy` open, use and close, between one start of the device and the next.
-/

namespace AnkerUpdater.Storage

open AtomicFiles HandleLog Runs

inductive StreamOp where
  | fseek
  | ftell
  | fread
  | fwrite
  deriving DecidableEq

abbrev Streams := Ledger StreamOp

def checkStreams (name : Option FileName) (E : CheckEnv) (disk : Disk) (v : Streams) : Streams :=
  match name with
  | none => v
  | some name =>
      if !E.filePath || !E.tempPath then v
      -- the stream of the temp file is only compared with NULL
      else if (disk name.temp).isSome && E.openTemp then v.opens
      else v

/-- The loop of `fcopy`. -/
def fcopyStreamsLoop (E : CopyEnv) (source dest : ℕ) : ℕ → ℕ → Bytes → Streams → Streams
  | 0, _, _, v => v
  | fuel + 1, i, content, v =>
      let bytes := content.take (min sizeofBuffer (E.read i))
      if bytes = [] then v.uses .fread source
      else
        fcopyStreamsLoop E source dest fuel (i + 1) (content.drop bytes.length)
          ((v.uses .fread source).uses .fwrite dest)

def fcopyStreams (E : CopyEnv) (source : Option Bytes) (v : Streams) : Streams :=
  match source with
  | none => v
  | some content =>
      if !E.source then v
      else if !E.dest then v.opens.closes v.next
      else
        let copied := fcopyStreamsLoop E v.next v.opens.next (content.length + 1) 0 content
          v.opens.opens
        (copied.closes v.next).closes v.opens.next

def writeStreams (name : Option FileName) (type : ℕ) (E : WriteEnv) (disk : Disk) (v : Streams) :
    Streams :=
  match name with
  | none => v
  | some name =>
      if 3 < type then v
      else if !E.filePath || !E.tempPath then v
      else
        let append := type ≠ writeData ∧ type ≠ writeBinaryData
        let removed := removeTempSteps name E.removeTemp
        let v := if append then fcopyStreams E.copy (applySteps removed disk name) v else v
        if !E.fopen then v else (v.opens.uses .fwrite v.next).closes v.next

/-- The read of a file that has been opened.  It is closed a second time
behind an `fread` that delivers the count which `ret == EOF` takes for an
error. -/
def readOpenStreams (cnt : ℕ) (E : ReadEnv) (content : Bytes) (v : Streams) : Streams :=
  let sought := v.opens.uses .fseek v.next
  let told := (sought.uses .ftell v.next).uses .fseek v.next
  if cnt = 0 ∧ !E.seekEnd then sought.closes v.next
  else if cnt = 0 ∧ !(E.seekSet && E.malloc) then told.closes v.next
  else
    let read := (if cnt = 0 then told else v.opens).uses .fread v.next
    if (freadContent cnt E content).2 = none then (read.closes v.next).closes v.next
    else read.closes v.next

def readStreams (name : Option FileName) (type cnt : ℕ) (E : ReadEnv) (disk : Disk) (v : Streams) :
    Streams :=
  match name with
  | none => v
  | some name =>
      if 1 < type then v
      else if !E.filePath then v
      else
        match if E.fopen then disk name else none with
        | none => v
        | some content => readOpenStreams cnt E content v

/-! ## Calls -/

inductive FileCall where
  | write (name : Option FileName) (type : ℕ) (data : Bytes) (E : WriteEnv)
  | erase (name : Option FileName) (E : EraseEnv)
  | checkExistence (name : Option FileName) (E : CheckEnv)
  | read (name : Option FileName) (type cnt : ℕ) (E : ReadEnv)

structure FileState where
  disk : Disk
  streams : Streams

namespace FileState

def start (disk : Disk) : FileState := ⟨disk, .init⟩

def step (s : FileState) : FileCall → FileState
  | .write name type data E =>
      ⟨applySteps (writeDataToFile name type data E s.disk).1 s.disk,
        writeStreams name type E s.disk s.streams⟩
  | .erase name E => { s with disk := applySteps (eraseFile name E s.disk).1 s.disk }
  | .checkExistence name E =>
      ⟨applySteps (checkFileExistence name E s.disk).1 s.disk,
        checkStreams name E s.disk s.streams⟩
  | .read name type cnt E => { s with streams := readStreams name type cnt E s.disk s.streams }

/-- Nothing is open, and every stream was used while it was open and closed
once. -/
def Clean (s : FileState) : Prop := s.streams.Holds ∅

/-- An existence check opens a temp file that is there. -/
def FindsTemp (s : FileState) : FileCall → Prop
  | .checkExistence (some name) E => E.filePath = true ∧ E.tempPath = true ∧
      (s.disk name.temp).isSome ∧ E.openTemp = true
  | _ => False

/-- `fread` delivers (uint32_t)EOF bytes. -/
def DeliversEof (s : FileState) : FileCall → Prop
  | .read name type cnt E => readDataFromFile name type cnt E s.disk = (.ok, none)
  | _ => False

end FileState

/-! ## What one call does -/

variable {v : Streams} {live : Set ℕ}

theorem holds_fcopyStreamsLoop (E : CopyEnv) {source dest : ℕ} (hsource : source ∈ live)
    (hdest : dest ∈ live) (fuel i : ℕ) (content : Bytes) (hv : v.Holds live) :
    (fcopyStreamsLoop E source dest fuel i content v).Holds live := by
  induction fuel generalizing i content v with
  | zero => exact hv
  | succ fuel ih =>
      rw [fcopyStreamsLoop]
      have hread := hv.uses hsource .fread
      split_ifs
      · exact hread
      · exact ih (i + 1) _ (hread.uses hdest .fwrite)

theorem holds_fcopyStreams (E : CopyEnv) (source : Option Bytes) (hv : v.Holds live) :
    (fcopyStreams E source v).Holds live := by
  cases source with
  | none => exact hv
  | some content =>
      rw [fcopyStreams]
      dsimp only
      split_ifs
      · exact hv
      · exact hv.bracket hv.opens
      · have hboth := hv.opens.opens
        have hsource : v.next ∈ insert v.opens.next (insert v.next live) := by simp
        have hcopied := holds_fcopyStreamsLoop E hsource (Set.mem_insert _ _)
          (content.length + 1) 0 content hboth
        have hne : v.next ∉ insert v.opens.next live := by
          have hlt : v.next ≠ v.opens.next := (Nat.succ_ne_self v.next).symm
          simp [hlt, hv.next_notMem]
        -- the source is closed before the destination, which was opened last
        have hdest := (hcopied.closes_first hne).closes (Set.mem_insert _ _)
        have hnew : v.opens.next ∉ live := fun hmem ↦
          hv.opens.next_notMem (Set.mem_insert_of_mem _ hmem)
        rwa [Set.insert_sdiff_self_of_notMem hnew] at hdest

theorem holds_writeStreams (name : Option FileName) (type : ℕ) (E : WriteEnv) (disk : Disk)
    (hv : v.Holds live) : (writeStreams name type E disk v).Holds live := by
  cases name with
  | none => exact hv
  | some name =>
      rw [writeStreams]
      dsimp only
      split_ifs
      · exact hv
      · exact hv
      · exact holds_fcopyStreams E.copy _ hv
      · exact hv
      · have hcopied := holds_fcopyStreams E.copy
          (applySteps (removeTempSteps name E.removeTemp) disk name) hv
        exact hcopied.bracket (hcopied.opens.uses (Set.mem_insert _ _) .fwrite)
      · exact hv.bracket (hv.opens.uses (Set.mem_insert _ _) .fwrite)

/-- Nothing is open after an existence check exactly if it found no temp file. -/
theorem holds_checkStreams_iff (name : Option FileName) (E : CheckEnv) (disk : Disk)
    (hv : v.Holds ∅) : (checkStreams name E disk v).Holds ∅ ↔
      ¬∃ n, name = some n ∧ E.filePath = true ∧ E.tempPath = true ∧ (disk n.temp).isSome ∧
        E.openTemp = true := by
  cases name with
  | none => exact iff_of_true hv (by simp)
  | some name =>
      rw [checkStreams]
      split_ifs with hpaths hopen
      · refine iff_of_true hv ?_
        rintro ⟨n, -, hfile, htemp, -⟩
        simp [hfile, htemp] at hpaths
      · obtain ⟨hfound, hopens⟩ := Bool.and_eq_true_iff.mp hopen
        have hok : E.filePath = true ∧ E.tempPath = true := by simpa using hpaths
        refine iff_of_false (fun hclean ↦ ?_) fun hnot ↦
          hnot ⟨name, rfl, hok.1, hok.2, hfound, hopens⟩
        exact ((hclean.live_iff v.next).mp ((hv.opens.live_iff v.next).mpr (by simp))).elim
      · refine iff_of_true hv ?_
        rintro ⟨n, heq, -, -, hfound, hopens⟩
        obtain rfl := Option.some.inj heq
        exact hopen (by simp [hfound, hopens])

/-- A read closes its stream once exactly if it does not take the count for
an error. -/
theorem holds_readOpenStreams_iff (cnt : ℕ) (E : ReadEnv) (content : Bytes) (hv : v.Holds ∅) :
    (readOpenStreams cnt E content v).Holds ∅ ↔
      ¬(if cnt = 0 ∧ !(E.seekEnd && E.seekSet) then (ReadRc.errFileRead, none)
        else if cnt = 0 ∧ !E.malloc then (.errNoMemoryLeft, none)
        else freadContent cnt E content) = (.ok, none) := by
  have hmem : v.next ∈ insert v.next (∅ : Set ℕ) := Set.mem_insert _ _
  have hsought := hv.opens.uses hmem .fseek
  have htold := (hsought.uses hmem .ftell).uses hmem .fseek
  have hclosed {w : Streams} (hw : w.Holds (insert v.next ∅)) : (w.closes v.next).Holds ∅ :=
    hv.bracket hw
  rw [readOpenStreams]
  by_cases hend : cnt = 0 ∧ (!E.seekEnd) = true
  · have hfailed : cnt = 0 ∧ (!(E.seekEnd && E.seekSet)) = true := by
      simpa [hend.1] using .inl (by simpa using hend.2)
    rw [if_pos hend, if_pos hfailed]
    exact iff_of_true (hclosed hsought) (by simp)
  by_cases hset : cnt = 0 ∧ (!(E.seekSet && E.malloc)) = true
  · rw [if_neg hend, if_pos hset]
    refine iff_of_true (hclosed htold) ?_
    have hfailed : E.seekSet = false ∨ E.malloc = false := by simpa using hset.2
    rcases hfailed with hfailed | hfailed
    · simp [hset.1, hfailed]
    · simp only [hset.1, hfailed]
      split_ifs <;> simp_all
  have hworks : ¬(cnt = 0 ∧ (!(E.seekEnd && E.seekSet)) = true) ∧
      ¬(cnt = 0 ∧ (!E.malloc) = true) := by
    constructor
    · rintro ⟨hcnt, hfailed⟩
      simp_all
    · rintro ⟨hcnt, hfailed⟩
      simp_all
  rw [if_neg hend, if_neg hset, if_neg hworks.1, if_neg hworks.2]
  have hread : Ledger.Holds ((if cnt = 0 then
      ((v.opens.uses .fseek v.next).uses .ftell v.next).uses .fseek v.next
      else v.opens).uses .fread v.next) (insert v.next ∅) := by
    split_ifs
    · exact htold.uses hmem .fread
    · exact hv.opens.uses hmem .fread
  generalize (if cnt = 0 then ((v.opens.uses .fseek v.next).uses .ftell v.next).uses .fseek v.next
    else v.opens).uses .fread v.next = read at hread
  have hok : (freadContent cnt E content).1 = .ok := by
    rw [freadContent]
    split_ifs <;> rfl
  generalize freadContent cnt E content = r at hok
  obtain ⟨rc, data⟩ := r
  obtain rfl : rc = .ok := hok
  cases data with
  | none =>
      refine iff_of_false (fun hclean ↦ ?_) (by simp)
      refine Ledger.not_disciplined_closes ?_ hclean.disciplined
      rw [(hclosed hread).live_iff]
      exact Set.notMem_empty _
  | some data => exact iff_of_true (hclosed hread) (by simp)

theorem holds_readStreams_iff (name : Option FileName) (type cnt : ℕ) (E : ReadEnv) (disk : Disk)
    (hv : v.Holds ∅) : (readStreams name type cnt E disk v).Holds ∅ ↔
      ¬readDataFromFile name type cnt E disk = (.ok, none) := by
  cases name with
  | none => exact iff_of_true hv (by simp [readDataFromFile])
  | some name =>
      rw [readStreams, readDataFromFile]
      by_cases htype : 1 < type
      · rw [if_pos htype, if_pos htype]
        exact iff_of_true hv (by simp)
      rw [if_neg htype, if_neg htype]
      cases hpath : E.filePath with
      | false => exact iff_of_true hv (by simp)
      | true =>
          simp only [Bool.not_true, Bool.false_eq_true, if_false]
          cases if E.fopen then disk name else none with
          | none => exact iff_of_true hv (by simp)
          | some content => exact holds_readOpenStreams_iff cnt E content hv

namespace FileState

/-- Between two starts, no call leaves a stream open or touches one that is
closed, exactly if no existence check comes upon a temp file and no read
delivers (uint32_t)EOF bytes. -/
theorem clean_iff (disk : Disk) (calls : List FileCall) :
    Always step (fun s a ↦ (s.step a).Clean) (start disk) calls ↔
      Always step (fun s a ↦ ¬s.FindsTemp a ∧ ¬s.DeliversEof a) (start disk) calls := by
  refine always_step_iff Clean (fun s a hs ↦ ?_) Ledger.holds_init
  cases a with
  | write name type data E =>
      exact iff_of_true (holds_writeStreams name type E s.disk hs) ⟨not_false, not_false⟩
  | erase name E => exact iff_of_true hs ⟨not_false, not_false⟩
  | checkExistence name E =>
      refine (holds_checkStreams_iff name E s.disk hs).trans ?_
      rw [and_iff_left (show ¬s.DeliversEof (.checkExistence name E) from not_false)]
      cases name with
      | none => simp [FindsTemp]
      | some name => simp [FindsTemp]
  | read name type cnt E =>
      refine (holds_readStreams_iff name type cnt E s.disk hs).trans ?_
      exact (and_iff_right (show ¬s.FindsTemp (.read name type cnt E) from not_false)).symm

end FileState

end AnkerUpdater.Storage
