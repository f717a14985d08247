import AnkerUpdater.Lib.AtomicFiles

/-!
# Whole files in the storage partition

`datastorage_check_file_existence`, `datastorage_erase_file_from_partition`
and `datastorage_write_data_to_file_in_partition`.  A call comes to a list of
file-system steps and a return code; which of its operations fail, and what a
failed or unfinished write leaves in the file being written, is given with it.
-/

namespace AnkerUpdater.Storage

open AtomicFiles

abbrev Bytes := List UInt8

/-- A name of a file right under the mount point. -/
structure FileName where
  bytes : List UInt8
  isFile : bytes ≠ [] ∧ 0x2f ∉ bytes ∧ bytes ≠ [0x2e] ∧ bytes ≠ [0x2e, 0x2e]
  deriving DecidableEq

/-- ".temp" -/
def dotTemp : List UInt8 := [0x2e, 0x74, 0x65, 0x6d, 0x70]

def FileName.temp (name : FileName) : FileName where
  bytes := name.bytes ++ dotTemp
  isFile := by
    obtain ⟨hne, hslash, -, -⟩ := name.isFile
    have hlength : 5 < (name.bytes ++ dotTemp).length := by
      have hpos := List.length_pos_iff.mpr hne
      simp [dotTemp]
      omega
    refine ⟨?_, ?_, ?_, ?_⟩
    · intro h
      simp [h] at hlength
    · simp [hslash, dotTemp]
    · intro h
      simp [h] at hlength
    · intro h
      simp [h] at hlength

abbrev Disk := Files FileName Bytes

inductive Rc where
  | ok
  | errGeneral
  | errNoMemoryLeft
  | errFileErase
  | errFileOpen
  | errFileWrite
  deriving DecidableEq, Repr

/-! ## Existence and erase -/

/-- Which operations of `datastorage_check_file_existence` succeed. -/
structure CheckEnv where
  filePath : Bool
  tempPath : Bool
  openTemp : Bool
  removeTemp : Bool

/-- The steps, the return code and what the call stores in `file_status`.
The stream of a temp file found stays open; what an open stream does to the
operations of later calls is left to the flags of their environments. -/
def checkFileExistence (name : Option FileName) (E : CheckEnv) (disk : Disk) :
    List (Step FileName Bytes) × Rc × Option Bool :=
  match name with
  | none => ([], .errGeneral, none)
  | some name =>
      if !E.filePath || !E.tempPath then ([], .errNoMemoryLeft, none)
      else
        let steps :=
          if (disk name.temp).isSome && E.openTemp && E.removeTemp then [.put name.temp none]
          else []
        (steps, .ok, some (applySteps steps disk name).isSome)

/-- Which operations of `datastorage_erase_file_from_partition` succeed. -/
structure EraseEnv where
  filePath : Bool
  tempPath : Bool
  removeTemp : Bool
  removeFile : Bool

def removeTempSteps (name : FileName) (removeTemp : Bool) : List (Step FileName Bytes) :=
  if removeTemp then [.put name.temp none] else []

def eraseFile (name : Option FileName) (E : EraseEnv) (disk : Disk) :
    List (Step FileName Bytes) × Rc :=
  match name with
  | none => ([], .errGeneral)
  | some name =>
      if !E.filePath || !E.tempPath then ([], .errNoMemoryLeft)
      else
        let steps := removeTempSteps name E.removeTemp
        if !(applySteps steps disk name).isSome || !E.removeFile then (steps, .errFileErase)
        else (steps ++ [.put name none], .ok)

/-! ## Write -/

/-- One run of `fcopy`: which files open, how many bytes each `fread` and
each `fwrite` of its loop delivers, and what is left if an operation fails. -/
structure CopyEnv where
  source : Bool
  dest : Bool
  afterOpen : Option Bytes
  read : ℕ → ℕ
  written : ℕ → ℕ
  fclose : Bool
  afterFclose : Bytes

/-- The size of the pointer `buffer`, which `fread` gets as the buffer size. -/
def sizeofBuffer : ℕ := 4

def fcopyLoop (E : CopyEnv) : ℕ → ℕ → Bytes → Bytes → Bytes
  | 0, _, _, dest => dest
  | fuel + 1, i, source, dest =>
      let bytes := source.take (min sizeofBuffer (E.read i))
      if bytes = [] then dest
      else fcopyLoop E fuel (i + 1) (source.drop bytes.length) (dest ++ bytes.take (E.written i))

def fcopy (E : CopyEnv) (source : Option Bytes) (destPath : FileName) :
    List (Step FileName Bytes) :=
  match source with
  | none => []
  | some bytes =>
      if !E.source then []
      else if !E.dest then [.put destPath E.afterOpen]
      else
        let copied := fcopyLoop E (bytes.length + 1) 0 bytes []
        [.put destPath (some []), .put destPath (some (if E.fclose then copied else E.afterFclose))]

/-- Which operations of `datastorage_write_data_to_file_in_partition`
succeed, and what is in the temp file after an `fopen` or `fclose` that
fails and between `fwrite` and `fclose`. -/
structure WriteEnv where
  filePath : Bool
  tempPath : Bool
  removeTemp : Bool
  copy : CopyEnv
  fopen : Bool
  afterFopen : Option Bytes
  fwrite : Bool
  afterFwrite : Bytes
  fclose : Bool
  afterFclose : Bytes
  rename : Bool

def writeData : ℕ := 0

def writeBinaryData : ℕ := 1

/-- `data` are the `*cnt` bytes. -/
def writeDataToFile (name : Option FileName) (type : ℕ) (data : Bytes) (E : WriteEnv)
    (disk : Disk) : List (Step FileName Bytes) × Rc :=
  match name with
  | none => ([], .errGeneral)
  | some name =>
      if 3 < type then ([], .errGeneral)
      else if !E.filePath || !E.tempPath then ([], .errNoMemoryLeft)
      else
        let append := type ≠ writeData ∧ type ≠ writeBinaryData
        let removed := removeTempSteps name E.removeTemp
        let copied :=
          if append then removed ++ fcopy E.copy (applySteps removed disk name) name.temp
          else removed
        let base := if append then (applySteps copied disk name.temp).getD [] else []
        if !E.fopen then (copied ++ [.put name.temp E.afterFopen], .errFileOpen)
        else
          let opened := copied ++ [.put name.temp (some base), .put name.temp (some E.afterFwrite)]
          if !E.fwrite then (opened ++ [.put name.temp (some E.afterFclose)], .errFileWrite)
          else
            -- the result of `fclose` is not looked at
            let closed := opened ++
              [.put name.temp (some (if E.fclose then base ++ data else E.afterFclose))]
            if !E.rename then (closed, .errFileWrite)
            else (closed ++ [.move name.temp name], .ok)

/-! ## Calls and power losses -/

inductive Call where
  | write (name : Option FileName) (binary : Bool) (data : Bytes) (E : WriteEnv)
  | erase (name : Option FileName) (E : EraseEnv)
  | checkExistence (name : Option FileName) (E : CheckEnv)

def Call.name : Call → Option FileName
  | .write name _ _ _ => name
  | .erase name _ => name
  | .checkExistence name _ => name

def Call.steps (disk : Disk) : Call → List (Step FileName Bytes)
  | .write name binary data E =>
      (writeDataToFile name (if binary then writeBinaryData else writeData) data E disk).1
  | .erase name E => (eraseFile name E disk).1
  | .checkExistence name E => (checkFileExistence name E disk).1

def Call.result (disk : Disk) : Call → Rc × Option Bool
  | .write name binary data E =>
      ((writeDataToFile name (if binary then writeBinaryData else writeData) data E disk).2, none)
  | .erase name E => ((eraseFile name E disk).2, none)
  | .checkExistence name E => (checkFileExistence name E disk).2

/-- The call returns, or the power fails after `k` of its steps; the temp
file of a write may then hold anything. -/
inductive Action where
  | returns (call : Call)
  | powerLoss (call : Call) (k : ℕ) (debris : Option Bytes)

def Action.call : Action → Call
  | .returns call => call
  | .powerLoss call _ _ => call

def step (disk : Disk) : Action → Disk
  | .returns call => applySteps (call.steps disk) disk
  | .powerLoss call k debris =>
      let disk' := applySteps ((call.steps disk).take k) disk
      match call with
      | .write (some name) _ _ _ => (Step.put name.temp debris).apply disk'
      | _ => disk'

/-- How an action ends: with a return, or with a power loss after which the
rename has taken place or not. -/
inductive Outcome where
  | returned (rc : Rc) (status : Option Bool)
  | interrupted (renamed : Bool)
  deriving DecidableEq

def outcome (disk : Disk) : Action → Outcome
  | .returns call => .returned (call.result disk).1 (call.result disk).2
  | .powerLoss call k _ => .interrupted (((call.steps disk).take k).any Step.isMove)

end AnkerUpdater.Storage
