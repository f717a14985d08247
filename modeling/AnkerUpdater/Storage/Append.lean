import AnkerUpdater.Storage.CrashAtomic

/-!
# Appending to a file

An append copies the file to its temp file, appends to the copy and renames
it.  The result of `fcopy` is not looked at, so the old content survives
exactly when the copy happens to be complete.
-/

namespace AnkerUpdater.Storage

open AtomicFiles

def appendData : ℕ := 2

def appendBinaryData : ℕ := 3

/-! ## The copy loop -/

/-- How many bytes the `i`-th `fread` of `fcopy` asks for and can get. -/
def CopyEnv.piece (E : CopyEnv) (i : ℕ) : ℕ := min sizeofBuffer (E.read i)

/-- From the `i`-th round on, no read fails before the `n` bytes left are
read, and each write takes all that was read. -/
def CopyEnv.EveryPiece (E : CopyEnv) (i n : ℕ) : Prop :=
  ∀ k, ∑ j ∈ Finset.range k, E.piece (i + j) < n →
    0 < E.read (i + k) ∧
      min (E.piece (i + k)) (n - ∑ j ∈ Finset.range k, E.piece (i + j)) ≤ E.written (i + k)

section

variable (E : CopyEnv)

theorem CopyEnv.everyPiece_zero (i : ℕ) : E.EveryPiece i 0 :=
  fun _ hk ↦ absurd hk (Nat.not_lt_zero _)

theorem CopyEnv.everyPiece_iff {i n : ℕ} (hn : 0 < n) :
    E.EveryPiece i n ↔ 0 < E.read i ∧ min (E.piece i) n ≤ E.written i ∧
      E.EveryPiece (i + 1) (n - E.piece i) := by
  have hsum (k : ℕ) : ∑ j ∈ Finset.range (k + 1), E.piece (i + j) =
      ∑ j ∈ Finset.range k, E.piece (i + 1 + j) + E.piece i := by
    rw [Finset.sum_range_succ', Nat.add_zero]
    simp only [Nat.add_assoc, Nat.add_comm 1]
  constructor
  · intro h
    have hfirst := h 0 (by simpa using hn)
    simp only [Finset.range_zero, Finset.sum_empty, Nat.add_zero, Nat.sub_zero] at hfirst
    refine ⟨hfirst.1, hfirst.2, fun k hk ↦ ?_⟩
    have hnext := h (k + 1) (by rw [hsum]; omega)
    rw [hsum, Nat.add_comm (∑ j ∈ _, _), ← Nat.sub_sub] at hnext
    rwa [Nat.add_right_comm, Nat.add_assoc]
  · rintro ⟨hread, hwritten, hrest⟩ k hk
    cases k with
    | zero =>
        simp only [Finset.range_zero, Finset.sum_empty, Nat.add_zero, Nat.sub_zero]
        exact ⟨hread, hwritten⟩
    | succ k =>
        rw [hsum] at hk ⊢
        have hnext := hrest k (by omega)
        rw [Nat.add_comm (∑ j ∈ _, _), ← Nat.sub_sub]
        rwa [Nat.add_right_comm, Nat.add_assoc] at hnext

theorem length_fcopyLoop_le (fuel i : ℕ) (source dest : Bytes) :
    (fcopyLoop E fuel i source dest).length ≤ dest.length + source.length := by
  induction fuel generalizing i source dest with
  | zero => exact Nat.le_add_right _ _
  | succ fuel ih =>
      simp only [fcopyLoop]
      split_ifs with hbytes
      · exact Nat.le_add_right _ _
      · apply (ih _ _ _).trans
        simp only [List.length_append, List.length_take, List.length_drop]
        omega

/-- The copy is whole exactly when every piece of it is. -/
theorem fcopyLoop_eq_iff {fuel : ℕ} (i : ℕ) {source : Bytes} (dest : Bytes)
    (hfuel : source.length < fuel) :
    fcopyLoop E fuel i source dest = dest ++ source ↔ E.EveryPiece i source.length := by
  induction fuel generalizing i source dest with
  | zero => exact absurd hfuel (Nat.not_lt_zero _)
  | succ fuel ih =>
      rcases source.eq_nil_or_concat' with rfl | ⟨front, last, hsource⟩
      · simp [fcopyLoop, E.everyPiece_zero]
      have hpos : 0 < source.length := by simp [hsource]
      have htake : (source.take (E.piece i)).length = min (E.piece i) source.length :=
        List.length_take
      rw [E.everyPiece_iff hpos]
      simp only [fcopyLoop]
      change (if source.take (E.piece i) = [] then dest else
        fcopyLoop E fuel (i + 1) (source.drop (source.take (E.piece i)).length)
          (dest ++ (source.take (E.piece i)).take (E.written i))) = dest ++ source ↔ _
      split_ifs with hbytes
      · -- the read has failed with bytes left
        have hread : ¬0 < E.read i := by
          rw [hbytes, List.length_nil, CopyEnv.piece, sizeofBuffer] at htake
          omega
        have hne : dest ≠ dest ++ source := by
          intro h
          have hlength := congrArg List.length h
          rw [List.length_append] at hlength
          omega
        exact iff_of_false hne fun h ↦ hread h.1
      have hread : 0 < E.read i := by
        have hnonempty := List.length_pos_iff.mpr hbytes
        rw [htake, CopyEnv.piece] at hnonempty
        omega
      have hdrop : (source.drop (source.take (E.piece i)).length).length =
          source.length - E.piece i := by
        rw [List.length_drop, htake]
        omega
      by_cases hwritten : min (E.piece i) source.length ≤ E.written i
      · have hall : (source.take (E.piece i)).take (E.written i) = source.take (E.piece i) :=
          List.take_of_length_le (by rw [htake]; exact hwritten)
        have hsplit : dest ++ source = dest ++ source.take (E.piece i) ++
            source.drop (source.take (E.piece i)).length := by
          rw [htake, List.append_assoc]
          conv_lhs => rw [← List.take_append_drop (min (E.piece i) source.length) source]
          congr 2
          rw [← List.take_eq_take_min]
        have hlt : (source.drop (source.take (E.piece i)).length).length < fuel := by
          have hnonempty := List.length_pos_iff.mpr hbytes
          rw [htake] at hnonempty
          omega
        rw [hall, hsplit, ih (i + 1) _ hlt, hdrop]
        simp [hread, hwritten]
      · -- a byte that was read is not written
        refine iff_of_false (fun h ↦ ?_) fun h ↦ hwritten h.2.1
        have hle := length_fcopyLoop_le E fuel (i + 1)
          (source.drop (source.take (E.piece i)).length)
          (dest ++ (source.take (E.piece i)).take (E.written i))
        rw [h, hdrop] at hle
        simp only [List.length_append, List.length_take] at hle
        omega

end

/-- The copy of the old content, or of no file, is all of it. -/
def CopyEnv.Complete (E : CopyEnv) : Option Bytes → Prop
  | none => True
  | some bytes =>
      if E.source then
        if E.dest then E.EveryPiece 0 bytes.length else E.afterOpen.getD [] = bytes
      else bytes = []

/-! ## The write after the copy -/

/-- What an append is to do: with the return code OK the data stands after
the old content, and with any other the content is unchanged. -/
structure Appends (name : FileName) (type : ℕ) (data : Bytes) (E : WriteEnv) (disk : Disk) :
    Prop where
  appended : (writeDataToFile (some name) type data E disk).2 = .ok →
    applySteps (writeDataToFile (some name) type data E disk).1 disk name =
      some ((disk name).getD [] ++ data)
  unchanged : (writeDataToFile (some name) type data E disk).2 ≠ .ok →
    applySteps (writeDataToFile (some name) type data E disk).1 disk name = disk name

/-- The old temp file is gone and no `fclose` fails; the opens, reads, writes
and the rename may fail. -/
structure WriteEnv.Closes (E : WriteEnv) : Prop where
  removeTemp : E.removeTemp = true
  copy : E.copy.fclose = true
  file : E.fclose = true

theorem FileName.ne_temp (name : FileName) : name ≠ name.temp := by
  intro h
  have hlength := congrArg (fun n ↦ n.bytes.length) h
  simp [FileName.temp, dotTemp] at hlength

theorem OnTemp.same {name : FileName} {steps : List (Step FileName Bytes)} (h : OnTemp name steps)
    (disk : Disk) : applySteps steps disk name = disk name := by
  have hseparate : Separate FileName.temp {name} := by
    rintro _ rfl _ rfl
    exact FileName.ne_temp _
  exact OnTemp.eqOn hseparate rfl h disk rfl

theorem onTemp_fcopy (E : CopyEnv) (source : Option Bytes) (name : FileName) :
    OnTemp name (fcopy E source name.temp) := by
  intro s hs
  cases source with
  | none => simp [fcopy] at hs
  | some bytes =>
      simp only [fcopy] at hs
      split_ifs at hs <;> simp only [List.mem_cons, List.not_mem_nil, or_false] at hs
      · exact ⟨_, hs⟩
      · rcases hs with rfl | rfl <;> exact ⟨_, rfl⟩
      · rcases hs with rfl | rfl <;> exact ⟨_, rfl⟩

/-- The steps of an append before its `fopen`. -/
def copySteps (name : FileName) (E : WriteEnv) (disk : Disk) : List (Step FileName Bytes) :=
  removeTempSteps name E.removeTemp ++
    fcopy E.copy (applySteps (removeTempSteps name E.removeTemp) disk name) name.temp

section

variable {name : FileName} {type : ℕ} {E : WriteEnv} {disk : Disk}

theorem onTemp_copySteps : OnTemp name (copySteps name E disk) :=
  (onTemp_removeTempSteps name E.removeTemp).append (onTemp_fcopy E.copy _ name)

/-- What `fopen` finds in the temp file is the old content exactly when the
copy is complete. -/
theorem copied_eq_iff (hE : E.Closes) :
    (applySteps (copySteps name E disk) disk name.temp).getD [] = (disk name).getD [] ↔
      E.copy.Complete (disk name) := by
  have hremoved : removeTempSteps name E.removeTemp = [.put name.temp none] := by
    simp [removeTempSteps, hE.removeTemp]
  have hold := (onTemp_removeTempSteps name E.removeTemp).same disk
  rw [copySteps, hold, applySteps_append, hremoved]
  cases hname : disk name with
  | none => simp [fcopy, CopyEnv.Complete, Step.apply]
  | some bytes =>
      have hloop := fcopyLoop_eq_iff E.copy 0 [] (Nat.lt_succ_self bytes.length)
      rw [List.nil_append] at hloop
      cases hsource : E.copy.source with
      | false => simp [fcopy, CopyEnv.Complete, Step.apply, hsource, eq_comm]
      | true =>
          cases hdest : E.copy.dest with
          | false => simp [fcopy, CopyEnv.Complete, Step.apply, hsource, hdest]
          | true => simp [fcopy, CopyEnv.Complete, Step.apply, hsource, hdest, hE.copy, hloop]

theorem writeDataToFile_append (htype : type = appendData ∨ type = appendBinaryData)
    (h : E.Renames) (hclose : E.fclose = true) (data : Bytes) :
    writeDataToFile (some name) type data E disk =
      (copySteps name E disk ++
        [some ((applySteps (copySteps name E disk) disk name.temp).getD []), some E.afterFwrite,
          some ((applySteps (copySteps name E disk) disk name.temp).getD [] ++ data)].map
            (.put name.temp) ++ [.move name.temp name], .ok) := by
  simp only [WriteEnv.Renames, Bool.and_eq_true] at h
  obtain ⟨⟨⟨⟨hfile, htemp⟩, hopen⟩, hwrite⟩, hrename⟩ := h
  rcases htype with rfl | rfl <;>
    simp [writeDataToFile, copySteps, appendData, appendBinaryData, writeData, writeBinaryData,
      hfile, htemp, hopen, hwrite, hrename, hclose]

theorem writeDataToFile_append_error (htype : type = appendData ∨ type = appendBinaryData)
    (h : ¬E.Renames) (data : Bytes) :
    (writeDataToFile (some name) type data E disk).2 ≠ .ok ∧
      OnTemp name (writeDataToFile (some name) type data E disk).1 := by
  have hvalid : ¬3 < type := by rcases htype with rfl | rfl <;> decide
  have happend : type ≠ writeData ∧ type ≠ writeBinaryData := by
    rcases htype with rfl | rfl <;> decide
  let base := some ((applySteps (copySteps name E disk) disk name.temp).getD [])
  have hcopy : copySteps name E disk = removeTempSteps name E.removeTemp ++
      fcopy E.copy (applySteps (removeTempSteps name E.removeTemp) disk name) name.temp := rfl
  by_cases hpaths : (!E.filePath || !E.tempPath) = true
  · have heq : writeDataToFile (some name) type data E disk = ([], .errNoMemoryLeft) := by
      simp [writeDataToFile, hvalid, hpaths]
    rw [heq]
    exact ⟨by decide, by simp [OnTemp]⟩
  by_cases hopen : E.fopen = true
  · by_cases hwrite : E.fwrite = true
    · have hrename : E.rename = false := by
        simp_all [WriteEnv.Renames]
      have heq : writeDataToFile (some name) type data E disk = (copySteps name E disk ++
          [base, some E.afterFwrite,
            some (if E.fclose then base.getD [] ++ data else E.afterFclose)].map
              (.put name.temp), .errFileWrite) := by
        simp [writeDataToFile, hvalid, hpaths, happend, hopen, hwrite, hrename, base, ← hcopy]
      rw [heq]
      exact ⟨by simp, onTemp_copySteps.puts _⟩
    · have heq : writeDataToFile (some name) type data E disk = (copySteps name E disk ++
          [base, some E.afterFwrite, some E.afterFclose].map (.put name.temp), .errFileWrite) := by
        simp [writeDataToFile, hvalid, hpaths, happend, hopen, hwrite, base, ← hcopy]
      rw [heq]
      exact ⟨by simp, onTemp_copySteps.puts _⟩
  · have heq : writeDataToFile (some name) type data E disk =
        (copySteps name E disk ++ [E.afterFopen].map (.put name.temp), .errFileOpen) := by
      simp [writeDataToFile, hvalid, hpaths, happend, hopen, ← hcopy]
    rw [heq]
    exact ⟨by simp, onTemp_copySteps.puts _⟩

theorem applySteps_append_renamed (htype : type = appendData ∨ type = appendBinaryData)
    (h : E.Renames) (hclose : E.fclose = true) (data : Bytes) :
    applySteps (writeDataToFile (some name) type data E disk).1 disk name =
      some ((applySteps (copySteps name E disk) disk name.temp).getD [] ++ data) := by
  rw [writeDataToFile_append htype h hclose, applySteps_append, applySteps_append]
  simp [Step.apply]

/-- An append keeps the old content exactly when it fails or its copy is
complete. -/
theorem appends_iff (htype : type = appendData ∨ type = appendBinaryData) (hE : E.Closes)
    (data : Bytes) :
    Appends name type data E disk ↔ (E.Renames → E.copy.Complete (disk name)) := by
  by_cases h : E.Renames
  · have hok : (writeDataToFile (some name) type data E disk).2 = .ok := by
      rw [writeDataToFile_append htype h hE.file]
    have hcontent : applySteps (writeDataToFile (some name) type data E disk).1 disk name =
        some ((applySteps (copySteps name E disk) disk name.temp).getD [] ++ data) :=
      applySteps_append_renamed htype h hE.file data
    rw [← copied_eq_iff hE]
    constructor
    · intro happends _
      have happended := happends.appended hok
      rw [hcontent, Option.some_inj] at happended
      exact List.append_cancel_right happended
    · intro hcopied
      refine ⟨fun _ ↦ ?_, fun hne ↦ absurd hok hne⟩
      rw [hcontent, hcopied h]
  · obtain ⟨hrc, htemp⟩ : (writeDataToFile (some name) type data E disk).2 ≠ .ok ∧
        OnTemp name (writeDataToFile (some name) type data E disk).1 :=
      writeDataToFile_append_error htype h data
    exact iff_of_true ⟨fun hok ↦ absurd hok hrc, fun _ ↦ htemp.same disk⟩ fun hr ↦ absurd hr h

end

/-! ## A file that loses its end -/

/-- "stat" -/
def statFile : FileName where
  bytes := [0x73, 0x74, 0x61, 0x74]
  isFile := by decide

/-- The second `fread` of the copy fails, all else succeeds. -/
def shortCopyEnv : WriteEnv where
  filePath := true
  tempPath := true
  removeTemp := true
  copy :=
    { source := true
      dest := true
      afterOpen := none
      read := fun i ↦ if i = 0 then 4 else 0
      written := fun _ ↦ 4
      fclose := true
      afterFclose := [] }
  fopen := true
  afterFopen := none
  fwrite := true
  afterFwrite := []
  fclose := true
  afterFclose := []
  rename := true

def statDisk : Disk := Function.update (fun _ ↦ none) statFile (some [1, 2, 3, 4, 5])

theorem shortCopyEnv_closes : shortCopyEnv.Closes := ⟨rfl, rfl, rfl⟩

/-- The call returns OK, and the fifth byte of the file is lost. -/
theorem not_appends_shortCopy : shortCopyEnv.Closes ∧
    ¬Appends statFile appendData [9] shortCopyEnv statDisk := by
  refine ⟨shortCopyEnv_closes, fun h ↦ ?_⟩
  have hcontent := h.appended (by decide)
  revert hcontent
  decide

theorem appends_iff_shortCopy : (appendData = appendData ∨ appendData = appendBinaryData) ∧
    shortCopyEnv.Closes ∧ (Appends statFile appendData [9] shortCopyEnv statDisk ↔
      (shortCopyEnv.Renames → shortCopyEnv.copy.Complete (statDisk statFile))) :=
  ⟨.inl rfl, shortCopyEnv_closes, appends_iff (.inl rfl) shortCopyEnv_closes [9]⟩

end AnkerUpdater.Storage
