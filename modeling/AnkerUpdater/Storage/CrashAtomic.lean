import AnkerUpdater.Lib.Runs
import AnkerUpdater.Storage.Datastorage

/-!
# The files as a map

The map that the storage partition is to be, what a call may do to it, and
how far the calls follow it through failures and power losses.
-/

namespace AnkerUpdater.Storage

open AtomicFiles

/-! ## What the calls promise -/

/-- A map from names to byte strings. -/
abbrev FileMap := FileName → Option Bytes

/-- What a call may do to the map before it returns or the power fails. -/
inductive Spec (m : FileMap) : Call → Outcome → FileMap → Prop
  | written (name : FileName) (binary : Bool) (data : Bytes) (E : WriteEnv) :
      Spec m (.write (some name) binary data E) (.returned .ok none)
        (Function.update m name (some data))
  | notWritten (name : Option FileName) (binary : Bool) (data : Bytes) (E : WriteEnv) (rc : Rc)
      (hrc : rc ≠ .ok) : Spec m (.write name binary data E) (.returned rc none) m
  | writeInterrupted (name : Option FileName) (binary : Bool) (data : Bytes) (E : WriteEnv) :
      Spec m (.write name binary data E) (.interrupted false) m
  | writeInterruptedAfterRename (name : FileName) (binary : Bool) (data : Bytes) (E : WriteEnv) :
      Spec m (.write (some name) binary data E) (.interrupted true)
        (Function.update m name (some data))
  | erased (name : FileName) (E : EraseEnv) :
      Spec m (.erase (some name) E) (.returned .ok none) (Function.update m name none)
  | notErased (name : Option FileName) (E : EraseEnv) (rc : Rc) (hrc : rc ≠ .ok) :
      Spec m (.erase name E) (.returned rc none) m
  | eraseInterrupted (name : Option FileName) (E : EraseEnv) :
      Spec m (.erase name E) (.interrupted false) m
  | eraseInterruptedAfterRemove (name : FileName) (E : EraseEnv) :
      Spec m (.erase (some name) E) (.interrupted false) (Function.update m name none)
  | checked (name : FileName) (E : CheckEnv) :
      Spec m (.checkExistence (some name) E) (.returned .ok (some (m name).isSome)) m
  | notChecked (name : Option FileName) (E : CheckEnv) (rc : Rc) (hrc : rc ≠ .ok) :
      Spec m (.checkExistence name E) (.returned rc none) m
  | checkInterrupted (name : Option FileName) (E : CheckEnv) :
      Spec m (.checkExistence name E) (.interrupted false) m

/-- The calls of a run do to the files at `names` what they may do to a map,
and what else is on the disk at any time changes nothing later. -/
structure CrashAtomic (names : Set FileName) (disk : Disk) (actions : List Action) : Prop where
  map : Runs.Simulated step outcome (fun m a o m' ↦ Spec m a.call o m')
    (fun disk m ↦ Set.EqOn disk m names) disk disk actions
  debris : ∀ pre post, actions = pre ++ post →
    ∀ disk', Set.EqOn (pre.foldl step disk) disk' names →
      Runs.labels step outcome (pre.foldl step disk) post = Runs.labels step outcome disk' post ∧
        Set.EqOn (actions.foldl step disk) (post.foldl step disk') names

/-- The number of steps of a write up to its `fclose`. -/
def WriteEnv.stepsToRename (E : WriteEnv) : ℕ := (if E.removeTemp then 1 else 0) + 3

/-- The operations up to `rename` succeed, as far as their results are looked at. -/
def WriteEnv.Renames (E : WriteEnv) : Prop :=
  (E.filePath && E.tempPath && E.fopen && E.fwrite && E.rename) = true

/-- `fclose` has brought all bytes into a temp file that is then renamed. -/
def Delivers : Action → Prop
  | .returns (.write (some _) _ data E) => E.Renames → E.fclose = true ∨ E.afterFclose = data
  | .powerLoss (.write (some _) _ data E) k _ =>
      E.Renames → E.stepsToRename < k → E.fclose = true ∨ E.afterFclose = data
  | _ => True

/-! ## What a write does -/

/-- The steps of a write before its rename. -/
def writeSteps (name : FileName) (data : Bytes) (E : WriteEnv) : List (Step FileName Bytes) :=
  removeTempSteps name E.removeTemp ++ [.put name.temp (some []),
    .put name.temp (some E.afterFwrite),
    .put name.temp (some (if E.fclose then data else E.afterFclose))]

/-- The steps touch the temp file of the name only. -/
def OnTemp (name : FileName) (steps : List (Step FileName Bytes)) : Prop :=
  ∀ s ∈ steps, ∃ content, s = .put name.temp content

theorem onTemp_removeTempSteps (name : FileName) (removeTemp : Bool) :
    OnTemp name (removeTempSteps name removeTemp) := by
  intro s hs
  rw [removeTempSteps] at hs
  split_ifs at hs
  · exact ⟨none, List.mem_singleton.mp hs⟩
  · simp at hs

theorem OnTemp.append {name : FileName} {steps more : List (Step FileName Bytes)}
    (h : OnTemp name steps) (hmore : OnTemp name more) : OnTemp name (steps ++ more) := by
  intro s hs
  rcases List.mem_append.mp hs with hs | hs
  · exact h s hs
  · exact hmore s hs

theorem OnTemp.puts {name : FileName} {steps : List (Step FileName Bytes)} (h : OnTemp name steps)
    (contents : List (Option Bytes)) : OnTemp name (steps ++ contents.map (.put name.temp)) := by
  apply h.append
  intro s hs
  obtain ⟨content, -, rfl⟩ := List.mem_map.mp hs
  exact ⟨content, rfl⟩

theorem onTemp_writeSteps (name : FileName) (data : Bytes) (E : WriteEnv) :
    OnTemp name (writeSteps name data E) :=
  (onTemp_removeTempSteps name E.removeTemp).puts [some [], some E.afterFwrite,
    some (if E.fclose then data else E.afterFclose)]

theorem length_writeSteps (name : FileName) (data : Bytes) (E : WriteEnv) :
    (writeSteps name data E).length = E.stepsToRename := by
  rw [writeSteps, removeTempSteps, WriteEnv.stepsToRename]
  split_ifs <;> rfl

theorem applySteps_writeSteps (name : FileName) (data : Bytes) (E : WriteEnv) (disk : Disk) :
    applySteps (writeSteps name data E) disk name.temp =
      some (if E.fclose then data else E.afterFclose) := by
  rw [writeSteps, applySteps_append]
  simp [Step.apply]

theorem writeDataToFile_of_renames {name : FileName} {type : ℕ} {E : WriteEnv}
    (htype : type = writeData ∨ type = writeBinaryData) (h : E.Renames) (data : Bytes)
    (disk : Disk) : writeDataToFile (some name) type data E disk =
      (writeSteps name data E ++ [.move name.temp name], .ok) := by
  simp only [WriteEnv.Renames, Bool.and_eq_true] at h
  obtain ⟨⟨⟨⟨hfile, htemp⟩, hopen⟩, hwrite⟩, hrename⟩ := h
  rcases htype with rfl | rfl <;>
    simp [writeDataToFile, writeSteps, writeData, writeBinaryData, hfile, htemp, hopen, hwrite,
      hrename]

theorem writeDataToFile_of_not_renames {name : FileName} {type : ℕ} {E : WriteEnv}
    (htype : type = writeData ∨ type = writeBinaryData) (h : ¬E.Renames) (data : Bytes) :
    ∃ steps rc, rc ≠ .ok ∧ OnTemp name steps ∧
      ∀ disk, writeDataToFile (some name) type data E disk = (steps, rc) := by
  have happend : ¬(type ≠ writeData ∧ type ≠ writeBinaryData) := by
    rintro ⟨hdata, hbinary⟩
    exact htype.elim hdata hbinary
  have hvalid : ¬3 < type := by rcases htype with rfl | rfl <;> decide
  have hputs := (onTemp_removeTempSteps name E.removeTemp).puts
  by_cases hpaths : (!E.filePath || !E.tempPath) = true
  · refine ⟨[], .errNoMemoryLeft, by decide, by simp [OnTemp], fun disk ↦ ?_⟩
    simp [writeDataToFile, hvalid, hpaths]
  by_cases hopen : E.fopen = true
  · by_cases hwrite : E.fwrite = true
    · have hrename : E.rename = false := by
        simp_all [WriteEnv.Renames]
      refine ⟨_, .errFileWrite, by decide,
        hputs [some [], some E.afterFwrite, some (if E.fclose then data else E.afterFclose)],
        fun disk ↦ ?_⟩
      simp [writeDataToFile, hvalid, hpaths, happend, hopen, hwrite, hrename]
    · refine ⟨_, .errFileWrite, by decide,
        hputs [some [], some E.afterFwrite, some E.afterFclose], fun disk ↦ ?_⟩
      simp [writeDataToFile, hvalid, hpaths, happend, hopen, hwrite]
  · refine ⟨_, .errFileOpen, by decide, hputs [E.afterFopen], fun disk ↦ ?_⟩
    simp [writeDataToFile, hvalid, hpaths, happend, hopen]

/-! ## What shows at the names -/

theorem OnTemp.any_isMove {name : FileName} {steps : List (Step FileName Bytes)}
    (h : OnTemp name steps) : steps.any Step.isMove = false := by
  rw [List.any_eq_false]
  intro s hs
  obtain ⟨content, rfl⟩ := h s hs
  exact Bool.false_ne_true

theorem OnTemp.take {name : FileName} {steps : List (Step FileName Bytes)} (h : OnTemp name steps)
    (k : ℕ) : OnTemp name (steps.take k) :=
  fun s hs ↦ h s (List.mem_of_mem_take hs)

theorem onTemp_checkFileExistence (name : FileName) (E : CheckEnv) (disk : Disk) :
    OnTemp name (checkFileExistence (some name) E disk).1 := by
  simp only [checkFileExistence]
  split_ifs
  · simp [OnTemp]
  · intro s hs
    exact ⟨none, List.mem_singleton.mp hs⟩
  · simp [OnTemp]

/-- The type of a write. -/
theorem type_eq (binary : Bool) : (if binary then writeBinaryData else writeData) = writeData ∨
    (if binary then writeBinaryData else writeData) = writeBinaryData := by
  cases binary <;> simp

section

variable {names : Set FileName} (hseparate : Separate FileName.temp names) {name : FileName}
  (hname : name ∈ names)

include hseparate hname

theorem OnTemp.hidden {steps : List (Step FileName Bytes)} (h : OnTemp name steps) :
    ∀ s ∈ steps, s.Hidden names := by
  intro s hs
  obtain ⟨content, rfl⟩ := h s hs
  exact hidden_put (hseparate.scratch_notMem hname) content

theorem OnTemp.eqOn {steps : List (Step FileName Bytes)} (h : OnTemp name steps) (disk : Disk) :
    Set.EqOn (applySteps steps disk) disk names :=
  eqOn_applySteps (OnTemp.hidden hseparate hname h) disk

/-- A write cut after its rename has stored what the temp file held. -/
theorem eqOn_write_of_renames {E : WriteEnv} (h : E.Renames) (binary : Bool) (data : Bytes)
    (disk : Disk) {k : ℕ} (hk : E.stepsToRename < k) :
    Set.EqOn (applySteps (((Call.write (some name) binary data E).steps disk).take k) disk)
        (Function.update disk name (some (if E.fclose then data else E.afterFclose))) names ∧
      (((Call.write (some name) binary data E).steps disk).take k).any Step.isMove = true := by
  have hsteps : (Call.write (some name) binary data E).steps disk =
      writeSteps name data E ++ [.move name.temp name] := by
    rw [Call.steps, writeDataToFile_of_renames (type_eq binary) h]
  have hcut : (writeSteps name data E ++ [Step.move name.temp name]).length ≤ k := by
    rw [List.length_append, length_writeSteps]
    exact hk
  rw [hsteps, List.take_of_length_le hcut]
  refine ⟨?_, by simp [Step.isMove]⟩
  rw [applySteps_append]
  have hmove := eqOn_move hseparate hname (applySteps (writeSteps name data E) disk)
  rw [applySteps_writeSteps] at hmove
  exact hmove.trans (eqOn_update (OnTemp.eqOn hseparate hname (onTemp_writeSteps name data E) disk)
    name _)

/-- A write cut before its rename shows nothing. -/
theorem eqOn_write_of_not_renames {E : WriteEnv} {k : ℕ} (h : ¬(E.Renames ∧ E.stepsToRename < k))
    (binary : Bool) (data : Bytes) (disk : Disk) :
    Set.EqOn (applySteps (((Call.write (some name) binary data E).steps disk).take k) disk) disk
        names ∧
      (((Call.write (some name) binary data E).steps disk).take k).any Step.isMove = false := by
  have htemp : OnTemp name (((Call.write (some name) binary data E).steps disk).take k) := by
    by_cases hrenames : E.Renames
    · have hk : k ≤ (writeSteps name data E).length := by
        rw [length_writeSteps]
        exact not_lt.mp fun hk ↦ h ⟨hrenames, hk⟩
      rw [Call.steps, writeDataToFile_of_renames (type_eq binary) hrenames,
        List.take_append_of_le_length hk]
      exact (onTemp_writeSteps name data E).take k
    · obtain ⟨steps, rc, -, hsteps, heq⟩ :=
        writeDataToFile_of_not_renames (type_eq binary) hrenames data
      rw [Call.steps, heq]
      exact hsteps.take k
  exact ⟨OnTemp.eqOn hseparate hname htemp disk, htemp.any_isMove⟩

theorem eraseFile_eq (E : EraseEnv) (disk : Disk) : eraseFile (some name) E disk =
    if !E.filePath || !E.tempPath then ([], .errNoMemoryLeft)
    else if !(disk name).isSome || !E.removeFile then
      (removeTempSteps name E.removeTemp, .errFileErase)
    else (removeTempSteps name E.removeTemp ++ [.put name none], .ok) := by
  have hsame := OnTemp.eqOn hseparate hname (onTemp_removeTempSteps name E.removeTemp) disk hname
  simp only [eraseFile, hsame]

theorem checkFileExistence_snd (E : CheckEnv) (disk : Disk) :
    (checkFileExistence (some name) E disk).2 =
      if !E.filePath || !E.tempPath then (.errNoMemoryLeft, none)
      else (.ok, some (disk name).isSome) := by
  have hsame := OnTemp.eqOn hseparate hname
    (onTemp_checkFileExistence name E disk) disk hname
  simp only [checkFileExistence] at hsame ⊢
  split_ifs at hsame ⊢
  · rfl
  · rw [hsame]
  · rfl

end

/-! ## One action -/

section

variable {names : Set FileName} (hseparate : Separate FileName.temp names) {disk disk' : Disk}
  {m : FileMap}

/-- What a write stores is what it was to store. -/
theorem eqOn_stored_iff {name : FileName} {held : Bytes} (data : Bytes) (hname : name ∈ names)
    (hm : Set.EqOn disk m names)
    (hstored : Set.EqOn disk' (Function.update disk name (some held)) names) :
    Set.EqOn disk' (Function.update m name (some data)) names ↔ held = data := by
  constructor
  · intro h
    have hheld := (hstored hname).symm.trans (h hname)
    simpa using hheld
  · rintro rfl
    exact hstored.trans (eqOn_update hm name _)

theorem held_eq_iff (E : WriteEnv) (data : Bytes) :
    (if E.fclose then data else E.afterFclose) = data ↔
      E.fclose = true ∨ E.afterFclose = data := by
  cases E.fclose <;> simp

include hseparate

theorem delivers_write_iff {name : FileName} (hname : name ∈ names) (hm : Set.EqOn disk m names)
    (binary : Bool) (data : Bytes) (E : WriteEnv) :
    Delivers (.returns (.write (some name) binary data E)) ↔
      ∃ m', Spec m (.write (some name) binary data E)
          (outcome disk (.returns (.write (some name) binary data E))) m' ∧
        Set.EqOn (step disk (.returns (.write (some name) binary data E))) m' names := by
  by_cases hrenames : E.Renames
  · have hresult : outcome disk (.returns (.write (some name) binary data E)) =
        .returned .ok none := by
      rw [outcome, Call.result, writeDataToFile_of_renames (type_eq binary) hrenames]
    have hlength : E.stepsToRename < ((Call.write (some name) binary data E).steps disk).length := by
      rw [Call.steps, writeDataToFile_of_renames (type_eq binary) hrenames, List.length_append,
        length_writeSteps]
      exact Nat.lt_succ_self _
    have hstored := (eqOn_write_of_renames hseparate hname hrenames binary data disk hlength).1
    rw [List.take_length] at hstored
    have hiff := eqOn_stored_iff data hname hm hstored
    rw [held_eq_iff] at hiff
    rw [hresult]
    constructor
    · intro h
      exact ⟨_, .written name binary data E, hiff.mpr (h hrenames)⟩
    · rintro ⟨m', hspec, hm'⟩ -
      cases hspec with
      | written => exact hiff.mp hm'
      | notWritten _ _ _ _ rc hrc => exact absurd rfl hrc
  · obtain ⟨steps, rc, hrc, hsteps, heq⟩ :=
      writeDataToFile_of_not_renames (type_eq binary) hrenames data
    have hresult : outcome disk (.returns (.write (some name) binary data E)) =
        .returned rc none := by
      rw [outcome, Call.result, heq]
    have hsame : Set.EqOn (step disk (.returns (.write (some name) binary data E))) disk names := by
      rw [step, Call.steps, heq]
      exact OnTemp.eqOn hseparate hname hsteps disk
    rw [hresult]
    refine iff_of_true (fun h ↦ absurd h hrenames) ⟨m, ?_, hsame.trans hm⟩
    exact .notWritten (some name) binary data E rc hrc

theorem delivers_writeInterrupted_iff {name : FileName} (hname : name ∈ names)
    (hm : Set.EqOn disk m names) (binary : Bool) (data : Bytes) (E : WriteEnv) (k : ℕ)
    (debris : Option Bytes) :
    Delivers (.powerLoss (.write (some name) binary data E) k debris) ↔
      ∃ m', Spec m (.write (some name) binary data E)
          (outcome disk (.powerLoss (.write (some name) binary data E) k debris)) m' ∧
        Set.EqOn (step disk (.powerLoss (.write (some name) binary data E) k debris)) m' names := by
  have hdebris := hidden_put (hseparate.scratch_notMem hname) debris
  by_cases hafter : E.Renames ∧ E.stepsToRename < k
  · obtain ⟨hstored, hmoved⟩ :=
      eqOn_write_of_renames hseparate hname hafter.1 binary data disk hafter.2
    have hiff := eqOn_stored_iff data hname hm ((hdebris _).trans hstored)
    rw [held_eq_iff] at hiff
    rw [outcome, hmoved]
    constructor
    · intro h
      exact ⟨_, .writeInterruptedAfterRename name binary data E, hiff.mpr (h hafter.1 hafter.2)⟩
    · rintro ⟨m', hspec, hm'⟩ - -
      cases hspec
      exact hiff.mp hm'
  · obtain ⟨hsame, hmoved⟩ := eqOn_write_of_not_renames hseparate hname hafter binary data disk
    rw [outcome, hmoved]
    refine iff_of_true (fun hrenames hk ↦ absurd ⟨hrenames, hk⟩ hafter) ⟨m, ?_, ?_⟩
    · exact .writeInterrupted (some name) binary data E
    · exact ((hdebris _).trans hsame).trans hm

/-- Erase does to the map what it may do, however it ends. -/
theorem exists_spec_erase {name : FileName} (hname : name ∈ names) (hm : Set.EqOn disk m names)
    (E : EraseEnv) (k : ℕ) (debris : Option Bytes) :
    (∃ m', Spec m (.erase (some name) E) (outcome disk (.returns (.erase (some name) E))) m' ∧
        Set.EqOn (step disk (.returns (.erase (some name) E))) m' names) ∧
      ∃ m', Spec m (.erase (some name) E)
          (outcome disk (.powerLoss (.erase (some name) E) k debris)) m' ∧
        Set.EqOn (step disk (.powerLoss (.erase (some name) E) k debris)) m' names := by
  have hremove := onTemp_removeTempSteps name E.removeTemp
  have hhidden := OnTemp.hidden hseparate hname hremove
  have hsame := fun disk ↦ OnTemp.eqOn hseparate hname hremove disk
  simp only [outcome, step, Call.steps, Call.result, eraseFile_eq hseparate hname]
  split_ifs with hpaths hfile
  · refine ⟨⟨m, .notErased _ E _ (by simp), hm⟩, m, ?_, by simpa using hm⟩
    simpa using Spec.eraseInterrupted (some name) E
  · refine ⟨⟨m, .notErased _ E _ (by simp), (hsame disk).trans hm⟩, m, ?_, ?_⟩
    · rw [(hremove.take k).any_isMove]
      exact .eraseInterrupted _ E
    · exact (OnTemp.eqOn hseparate hname (hremove.take k) disk).trans hm
  · have herased : Set.EqOn ((Step.put name none).apply
        (applySteps (removeTempSteps name E.removeTemp) disk)) (Function.update m name none) names :=
      eqOn_update ((hsame disk).trans hm) name none
    have hnoMove : ((removeTempSteps name E.removeTemp ++ [Step.put name none]).take k).any
        Step.isMove = false := by
      rw [List.any_eq_false]
      intro s hs
      rcases List.mem_append.mp (List.mem_of_mem_take hs) with hs | hs
      · obtain ⟨content, rfl⟩ := hremove s hs
        exact Bool.false_ne_true
      · obtain rfl := List.mem_singleton.mp hs
        exact Bool.false_ne_true
    refine ⟨⟨_, .erased name E, ?_⟩, ?_⟩
    · rw [applySteps_append]
      exact herased
    · rw [hnoMove]
      have hcut := eqOn_take hhidden (Step.put name none) k disk
      split_ifs at hcut
      · exact ⟨m, .eraseInterrupted _ E, hcut.trans hm⟩
      · rw [hcut]
        exact ⟨_, .eraseInterruptedAfterRemove name E, herased⟩

theorem exists_spec_check {name : FileName} (hname : name ∈ names) (hm : Set.EqOn disk m names)
    (E : CheckEnv) (k : ℕ) (debris : Option Bytes) :
    (∃ m', Spec m (.checkExistence (some name) E)
          (outcome disk (.returns (.checkExistence (some name) E))) m' ∧
        Set.EqOn (step disk (.returns (.checkExistence (some name) E))) m' names) ∧
      ∃ m', Spec m (.checkExistence (some name) E)
          (outcome disk (.powerLoss (.checkExistence (some name) E) k debris)) m' ∧
        Set.EqOn (step disk (.powerLoss (.checkExistence (some name) E) k debris)) m' names := by
  have hsteps := onTemp_checkFileExistence name E disk
  have hsame := OnTemp.eqOn hseparate hname hsteps disk
  have hcut := OnTemp.eqOn hseparate hname (hsteps.take k) disk
  simp only [outcome, step, Call.steps, Call.result, checkFileExistence_snd hseparate hname]
  constructor
  · refine ⟨m, ?_, hsame.trans hm⟩
    split_ifs
    · exact .notChecked _ E _ (by simp)
    · rw [hm hname]
      exact .checked name E
  · refine ⟨m, ?_, hcut.trans hm⟩
    rw [(hsteps.take k).any_isMove]
    exact .checkInterrupted _ E

omit hseparate in
/-- A call without a name does nothing. -/
theorem exists_spec_null {call : Call} (hnull : call.name = none) (hm : Set.EqOn disk m names)
    (k : ℕ) (debris : Option Bytes) :
    (∃ m', Spec m call (outcome disk (.returns call)) m' ∧
        Set.EqOn (step disk (.returns call)) m' names) ∧
      ∃ m', Spec m call (outcome disk (.powerLoss call k debris)) m' ∧
        Set.EqOn (step disk (.powerLoss call k debris)) m' names := by
  cases call with
  | write name binary data E =>
      obtain rfl : name = none := hnull
      refine ⟨⟨m, .notWritten none binary data E .errGeneral (by simp), hm⟩, m, ?_, ?_⟩
      · simpa [outcome, Call.steps, writeDataToFile] using Spec.writeInterrupted none binary data E
      · simpa [step, Call.steps, writeDataToFile] using hm
  | erase name E =>
      obtain rfl : name = none := hnull
      refine ⟨⟨m, .notErased none E .errGeneral (by simp), hm⟩, m, ?_, ?_⟩
      · simpa [outcome, Call.steps, eraseFile] using Spec.eraseInterrupted none E
      · simpa [step, Call.steps, eraseFile] using hm
  | checkExistence name E =>
      obtain rfl : name = none := hnull
      refine ⟨⟨m, .notChecked none E .errGeneral (by simp), hm⟩, m, ?_, ?_⟩
      · simpa [outcome, Call.steps, checkFileExistence] using Spec.checkInterrupted none E
      · simpa [step, Call.steps, checkFileExistence] using hm

theorem delivers_iff {a : Action} (hnames : ∀ name ∈ a.call.name, name ∈ names)
    (hm : Set.EqOn disk m names) :
    Delivers a ↔ ∃ m', Spec m a.call (outcome disk a) m' ∧ Set.EqOn (step disk a) m' names := by
  cases a with
  | returns call =>
      rcases call with ⟨_ | name, binary, data, E⟩ | ⟨_ | name, E⟩ | ⟨_ | name, E⟩
      · exact iff_of_true trivial (exists_spec_null rfl hm 0 none).1
      · exact delivers_write_iff hseparate (hnames name rfl) hm binary data E
      · exact iff_of_true trivial (exists_spec_null rfl hm 0 none).1
      · exact iff_of_true trivial (exists_spec_erase hseparate (hnames name rfl) hm E 0 none).1
      · exact iff_of_true trivial (exists_spec_null rfl hm 0 none).1
      · exact iff_of_true trivial (exists_spec_check hseparate (hnames name rfl) hm E 0 none).1
  | powerLoss call k debris =>
      rcases call with ⟨_ | name, binary, data, E⟩ | ⟨_ | name, E⟩ | ⟨_ | name, E⟩
      · exact iff_of_true trivial (exists_spec_null rfl hm k debris).2
      · exact delivers_writeInterrupted_iff hseparate (hnames name rfl) hm binary data E k debris
      · exact iff_of_true trivial (exists_spec_null rfl hm k debris).2
      · exact iff_of_true trivial (exists_spec_erase hseparate (hnames name rfl) hm E k debris).2
      · exact iff_of_true trivial (exists_spec_null rfl hm k debris).2
      · exact iff_of_true trivial (exists_spec_check hseparate (hnames name rfl) hm E k debris).2

/-! ## Debris -/

/-- The steps of a call, cut anywhere, on disks with the same files at the
names. -/
structure SameCall (names : Set FileName) (call : Call) (disk disk' : Disk) : Prop where
  result : call.result disk = call.result disk'
  moves : ∀ k, ((call.steps disk).take k).any Step.isMove =
    ((call.steps disk').take k).any Step.isMove
  files : ∀ k, Set.EqOn (applySteps ((call.steps disk).take k) disk)
    (applySteps ((call.steps disk').take k) disk') names

theorem sameCall_write {name : FileName} (hname : name ∈ names) (hdisk : Set.EqOn disk disk' names)
    (binary : Bool) (data : Bytes) (E : WriteEnv) :
    SameCall names (.write (some name) binary data E) disk disk' := by
  have hfree : ∃ steps rc, ∀ disk, writeDataToFile (some name)
      (if binary then writeBinaryData else writeData) data E disk = (steps, rc) := by
    by_cases hrenames : E.Renames
    · exact ⟨_, _, writeDataToFile_of_renames (type_eq binary) hrenames data⟩
    · obtain ⟨steps, rc, -, -, heq⟩ :=
        writeDataToFile_of_not_renames (type_eq binary) hrenames data
      exact ⟨steps, rc, heq⟩
  obtain ⟨steps, rc, heq⟩ := hfree
  refine ⟨by rw [Call.result, Call.result, heq, heq], fun k ↦ ?_, fun k ↦ ?_⟩
  · rw [Call.steps, Call.steps, heq, heq]
  · by_cases hafter : E.Renames ∧ E.stepsToRename < k
    · have hstored := fun disk ↦
        (eqOn_write_of_renames hseparate hname hafter.1 binary data disk hafter.2).1
      exact ((hstored disk).trans (eqOn_update hdisk name _)).trans (hstored disk').symm
    · have hsame := fun disk ↦
        (eqOn_write_of_not_renames hseparate hname hafter binary data disk).1
      exact ((hsame disk).trans hdisk).trans (hsame disk').symm

theorem sameCall_erase {name : FileName} (hname : name ∈ names) (hdisk : Set.EqOn disk disk' names)
    (E : EraseEnv) : SameCall names (.erase (some name) E) disk disk' := by
  have heq : eraseFile (some name) E disk = eraseFile (some name) E disk' := by
    rw [eraseFile_eq hseparate hname, eraseFile_eq hseparate hname, hdisk hname]
  have hputs : ∀ s ∈ (eraseFile (some name) E disk').1, ∃ path content,
      s = Step.put path content := by
    rw [eraseFile_eq hseparate hname]
    intro s hs
    have hremove : ∀ s ∈ removeTempSteps name E.removeTemp, ∃ path content,
        s = Step.put path content := by
      intro s hs
      obtain ⟨content, rfl⟩ := onTemp_removeTempSteps name E.removeTemp s hs
      exact ⟨_, content, rfl⟩
    split_ifs at hs
    · simp at hs
    · exact hremove s hs
    · rcases List.mem_append.mp hs with hs | hs
      · exact hremove s hs
      · exact ⟨_, _, List.mem_singleton.mp hs⟩
  refine ⟨by rw [Call.result, Call.result, heq], fun k ↦ by rw [Call.steps, Call.steps, heq], ?_⟩
  intro k
  rw [Call.steps, Call.steps, heq]
  exact eqOn_applySteps_congr (fun s hs ↦ hputs s (List.mem_of_mem_take hs)) hdisk

theorem sameCall_check {name : FileName} (hname : name ∈ names) (hdisk : Set.EqOn disk disk' names)
    (E : CheckEnv) : SameCall names (.checkExistence (some name) E) disk disk' := by
  have hsteps := fun disk ↦ onTemp_checkFileExistence name E disk
  refine ⟨?_, fun k ↦ ?_, fun k ↦ ?_⟩
  · rw [Call.result, Call.result, checkFileExistence_snd hseparate hname,
      checkFileExistence_snd hseparate hname, hdisk hname]
  · rw [Call.steps, Call.steps, ((hsteps disk).take k).any_isMove,
      ((hsteps disk').take k).any_isMove]
  · have hsame := fun disk ↦ OnTemp.eqOn hseparate hname ((hsteps disk).take k) disk
    exact ((hsame disk).trans hdisk).trans (hsame disk').symm

theorem sameCall {call : Call} (hnames : ∀ name ∈ call.name, name ∈ names)
    (hdisk : Set.EqOn disk disk' names) : SameCall names call disk disk' := by
  rcases call with ⟨_ | name, binary, data, E⟩ | ⟨_ | name, E⟩ | ⟨_ | name, E⟩
  · exact ⟨rfl, fun _ ↦ rfl, fun k ↦ by simpa [Call.steps, writeDataToFile] using hdisk⟩
  · exact sameCall_write hseparate (hnames name rfl) hdisk binary data E
  · exact ⟨rfl, fun _ ↦ rfl, fun k ↦ by simpa [Call.steps, eraseFile] using hdisk⟩
  · exact sameCall_erase hseparate (hnames name rfl) hdisk E
  · exact ⟨rfl, fun _ ↦ rfl, fun k ↦ by simpa [Call.steps, checkFileExistence] using hdisk⟩
  · exact sameCall_check hseparate (hnames name rfl) hdisk E

/-- Disks with the same files at the names take an action in the same way. -/
theorem outcome_eq {a : Action} (hnames : ∀ name ∈ a.call.name, name ∈ names)
    (hdisk : Set.EqOn disk disk' names) :
    outcome disk a = outcome disk' a ∧ Set.EqOn (step disk a) (step disk' a) names := by
  cases a with
  | returns call =>
      have hsame : SameCall names call disk disk' := sameCall hseparate hnames hdisk
      refine ⟨by rw [outcome, outcome, hsame.result], ?_⟩
      have hfiles := hsame.files (max (call.steps disk).length (call.steps disk').length)
      rwa [List.take_of_length_le (le_max_left _ _), List.take_of_length_le (le_max_right _ _)]
        at hfiles
  | powerLoss call k debris =>
      have hsame : SameCall names call disk disk' := sameCall hseparate hnames hdisk
      refine ⟨by rw [outcome, outcome, hsame.moves], ?_⟩
      rcases call with ⟨_ | name, binary, data, E⟩ | ⟨name, E⟩ | ⟨name, E⟩
      · exact hsame.files k
      · exact eqOn_update (hsame.files k) name.temp debris
      · exact hsame.files k
      · exact hsame.files k

end

/-! ## The store -/

theorem crashAtomic_iff {names : Set FileName} (hseparate : Separate FileName.temp names)
    (disk : Disk) {actions : List Action}
    (hnames : ∀ a ∈ actions, ∀ name ∈ a.call.name, name ∈ names) :
    CrashAtomic names disk actions ↔ ∀ a ∈ actions, Delivers a := by
  have hmap : Runs.Simulated step outcome (fun m a o m' ↦ Spec m a.call o m')
      (fun disk m ↦ Set.EqOn disk m names) disk disk actions ↔
      Runs.Always step (fun _ a ↦ Delivers a) disk actions :=
    Runs.simulated_iff (fun a ha disk m hm ↦ delivers_iff hseparate (hnames a ha) hm)
      (Set.eqOn_refl disk names)
  rw [← Runs.always_const, ← hmap]
  constructor
  · exact fun h ↦ h.map
  · refine fun h ↦ ⟨h, ?_⟩
    rintro pre post rfl disk' hdisk
    rw [List.foldl_append]
    exact Runs.labels_eq (fun disk disk' ↦ Set.EqOn disk disk' names) (fun a ha s s' hs ↦
      outcome_eq hseparate (hnames a (List.mem_append_right _ ha)) hs) hdisk

def okCopy : CopyEnv := ⟨true, true, none, fun _ ↦ 4, fun _ ↦ 4, true, []⟩

def okWrite : WriteEnv :=
  ⟨true, true, true, okCopy, true, none, true, [], true, [], true⟩

def updateStatus : FileName := ⟨[0x61], by decide⟩

/-- A write, a power loss before the rename of the next one, and a check. -/
def writtenTwice : List Action :=
  [.returns (.write (some updateStatus) true [1, 2] okWrite),
    .powerLoss (.write (some updateStatus) true [3, 4] okWrite) 3 (some [3]),
    .returns (.checkExistence (some updateStatus) ⟨true, true, true, true⟩)]

theorem separate_updateStatus : Separate FileName.temp {updateStatus} := by
  rintro a rfl b rfl
  decide

theorem crashAtomic_writtenTwice : CrashAtomic {updateStatus} (fun _ ↦ none) writtenTwice ∧
    writtenTwice.foldl step (fun _ ↦ none) updateStatus = some [1, 2] := by
  refine ⟨(crashAtomic_iff separate_updateStatus (fun _ ↦ none) ?_).mpr ?_, by decide⟩
  · intro a ha name hname
    simp only [writtenTwice, List.mem_cons, List.not_mem_nil, or_false] at ha
    rcases ha with rfl | rfl | rfl <;> exact (Option.some.inj hname).symm
  · intro a ha
    simp only [writtenTwice, List.mem_cons, List.not_mem_nil, or_false] at ha
    rcases ha with rfl | rfl | rfl
    · exact fun _ ↦ .inl rfl
    · exact fun _ _ ↦ .inl rfl
    · trivial

/-- The partition is full when `fclose` writes out the buffer. -/
def partitionFull : WriteEnv := { okWrite with fclose := false, afterFclose := [1] }

theorem not_crashAtomic_partitionFull :
    ¬∀ (names : Set FileName) (disk : Disk) (actions : List Action),
      Separate FileName.temp names →
        (∀ a ∈ actions, ∀ name ∈ a.call.name, name ∈ names) →
          CrashAtomic names disk actions := by
  intro h
  let call : Call := .write (some updateStatus) true [1, 2] partitionFull
  have hatomic := h {updateStatus} (fun _ ↦ none) [.returns call] separate_updateStatus (by
    intro a ha name hname
    obtain rfl := List.mem_singleton.mp ha
    exact (Option.some.inj hname).symm)
  obtain ⟨-, m', hspec, hfiles⟩ := hatomic.map
  have hfile := hfiles.related (Set.mem_singleton updateStatus)
  have hok : Spec (fun _ ↦ none) (.write (some updateStatus) true [1, 2] partitionFull)
      (.returned .ok none) m' := hspec
  cases hok with
  | written =>
      revert hfile
      decide
  | notWritten _ _ _ _ _ hrc => exact hrc rfl

end AnkerUpdater.Storage
