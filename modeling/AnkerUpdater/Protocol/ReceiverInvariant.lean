import AnkerUpdater.Protocol.Receiver

/-!
# What a P-Anker has stored

A task that only receives chunks of one image has written the chunks
below its `seq`.  The exception is a task whose final chunk is written but
whose session ended in an error: its handle is released, so the chunk can
never be written again, and `seq` stays at that chunk.
-/

namespace AnkerUpdater

open EventLog UploadLog

/-- `m` carries one chunk of the image under its index, and only the final
chunk may be flagged as last. -/
def UpdatePingInfo.ChunkOf (chunks : List (List UInt8)) (m : UpdatePingInfo) : Prop :=
  chunks[m.seq.toNat]? = some m.payload ∧ (m.isLast ≠ 0 → m.seq.toNat + 1 = chunks.length)

namespace PAnkerTask

def prefixOf (chunks : List (List UInt8)) (k : ℕ) : List UInt8 := (chunks.take k).flatten

structure TaskInv (chunks : List (List UInt8)) (t : PAnkerTask) : Prop where
  seq_le : t.seq.toNat ≤ chunks.length
  stored : t.phase ≠ .restarted → written t.calls = prefixOf chunks t.seq.toNat ∨
    (isOpen t.calls = false ∧ t.seq.toNat + 1 = chunks.length)
  complete : t.phase = .restarted → written t.calls = chunks.flatten
  activations : ActivatesOnly chunks.flatten t.calls

variable {chunks : List (List UInt8)} {t : PAnkerTask} {m : UpdatePingInfo}

@[simp] theorem prefixOf_zero : prefixOf chunks 0 = [] := rfl

theorem prefixOf_length {k : ℕ} (h : chunks.length ≤ k) : prefixOf chunks k = chunks.flatten := by
  rw [prefixOf, List.take_of_length_le h]

theorem prefixOf_succ {k : ℕ} {bytes : List UInt8} (h : chunks[k]? = some bytes) :
    prefixOf chunks (k + 1) = prefixOf chunks k ++ bytes := by
  rw [prefixOf, prefixOf, List.take_add_one, h]
  simp

theorem taskInv_start : TaskInv chunks start where
  seq_le := Nat.zero_le _
  stored _ := Or.inl rfl
  complete h := by simp [start] at h
  activations := activatesOnly_nil _

theorem TaskInv.opened (h : TaskInv chunks t) (hphase : t.phase = .running) :
    TaskInv chunks t.opened := by
  by_cases hseq : t.seq = 0
  · have heq : t.opened = t.log (.begin true) := by rw [PAnkerTask.opened, if_pos hseq]
    rw [heq]
    refine ⟨h.seq_le, fun _ ↦ Or.inl ?_, fun hr ↦ ?_, h.activations.append (by simp)⟩
    · simp [hseq]
    · simp [hphase] at hr
  · rwa [show t.opened = t by rw [PAnkerTask.opened, if_neg hseq]]

theorem TaskInv.written_of_isOpen (h : TaskInv chunks t) (hphase : t.phase = .running)
    (hopen : isOpen t.calls = true) : written t.calls = prefixOf chunks t.seq.toNat := by
  rcases h.stored (by simp [hphase]) with hw | ⟨hclosed, -⟩
  · exact hw
  · simp [hopen] at hclosed

theorem TaskInv.written_write (h : TaskInv chunks t) (hphase : t.phase = .running)
    (hopen : isOpen t.opened.calls = true) (hm : m.ChunkOf chunks) (hseq : t.seq = m.seq) :
    written (t.opened.log (.write m.payload true)).calls =
      prefixOf chunks (t.seq.toNat + 1) := by
  have hopened := (h.opened hphase).written_of_isOpen (by simpa using hphase) hopen
  rw [log_calls, written_write_true, hopened, opened_seq, hseq]
  exact (prefixOf_succ hm.1).symm

theorem UpdatePingInfo.ChunkOf.seq_lt (hm : m.ChunkOf chunks) : m.seq.toNat < chunks.length := by
  obtain ⟨hlt, -⟩ := List.getElem?_eq_some_iff.mp hm.1
  exact hlt

theorem toNat_succ_of_lt {x : UInt16} {n : ℕ} (hx : x.toNat < n) (hn : n ≤ 65535) :
    (x + 1).toNat = x.toNat + 1 := by
  rw [UInt16.toNat_add, show (1 : UInt16).toNat = 1 from rfl]
  omega

theorem TaskInv.store {t' : PAnkerTask} {type : AckType} (h : TaskInv chunks t)
    (hlen : chunks.length ≤ 65535) (hphase : t.phase = .running) (hm : m.ChunkOf chunks)
    (hseq : t.seq = m.seq) (hout : StoreOutcome m t t' type) : TaskInv chunks t' := by
  have hlt : t.seq.toNat < chunks.length := by
    rw [hseq]
    exact UpdatePingInfo.ChunkOf.seq_lt hm
  have ho := h.opened hphase
  cases hout with
  | noPartition hzero => exact h
  | beginFailed hzero =>
      refine ⟨h.seq_le, fun _ ↦ Or.inl ?_, fun hr ↦ ?_, h.activations.append (by simp)⟩
      · simp [hzero]
      · simp [hphase] at hr
  | writeFailed =>
      refine ⟨ho.seq_le, fun hr ↦ ?_, fun hr ↦ ?_, ho.activations.append (by simp)⟩
      · simpa using ho.stored hr
      · simp [hphase] at hr
  | stored hopen hlast =>
      have hw := h.written_write hphase hopen hm hseq
      have hsucc := toNat_succ_of_lt hlt hlen
      refine ⟨?_, fun _ ↦ Or.inl ?_, fun hr ↦ ?_, ho.activations.append (by simp)⟩
      · simp only [hsucc]
        omega
      · simpa only [hsucc] using hw
      · simp [hphase] at hr
  | endFailed hopen hlast =>
      have hfinal : t.seq.toNat + 1 = chunks.length := by
        rw [hseq]
        exact hm.2 hlast
      refine ⟨by simpa using h.seq_le,
        fun _ ↦ Or.inr ⟨by simp only [log_calls, isOpen_finish], by simpa using hfinal⟩,
        fun hr ↦ ?_, (ho.activations.append (by simp)).append (by simp)⟩
      simp [hphase] at hr
  | setBootFailed hopen hlast =>
      have hfinal : t.seq.toNat + 1 = chunks.length := by
        rw [hseq]
        exact hm.2 hlast
      have hw := h.written_write hphase hopen hm hseq
      rw [hfinal, prefixOf_length le_rfl] at hw
      refine ⟨by simpa using h.seq_le, fun _ ↦ Or.inr ⟨?_, by simpa using hfinal⟩,
        fun hr ↦ ?_, ?_⟩
      · simp only [log_calls, isOpen_activate, isOpen_finish]
      · simp [hphase] at hr
      · apply ActivatesOnly.activate
        · exact (ho.activations.append (by simp)).append (by simp)
        · simpa only [log_calls, written_finish] using hw
  | restarted hopen hlast =>
      have hfinal : t.seq.toNat + 1 = chunks.length := by
        rw [hseq]
        exact hm.2 hlast
      have hw := h.written_write hphase hopen hm hseq
      rw [hfinal, prefixOf_length le_rfl] at hw
      refine ⟨by simpa using h.seq_le, fun hr ↦ absurd rfl hr, fun _ ↦ ?_, ?_⟩
      · simpa only [log_calls, written_activate, written_finish] using hw
      · apply ActivatesOnly.activate
        · exact (ho.activations.append (by simp)).append (by simp)
        · simpa only [log_calls, written_finish] using hw

/-- One datagram keeps the invariant if it is a chunk of the image whenever
it is accepted firmware data. -/
theorem TaskInv.receive {sha256 : Sha256} {own : Anker} {r : LibResults} (h : TaskInv chunks t)
    (hlen : chunks.length ≤ 65535) (hm : m.acceptedFirmware sha256 → m.ChunkOf chunks) :
    TaskInv chunks (t.receive sha256 own r m).1 := by
  obtain ⟨t', acks, heq, hout⟩ := receive_outcome sha256 own r m t
  rw [heq]
  cases hout with
  | ignored => exact h
  | answered type seq htype => exact h
  | deleted type hphase htype =>
      refine ⟨h.seq_le, fun _ ↦ h.stored (by simp [hphase]), fun hr ↦ ?_, h.activations⟩
      simp at hr
  | resent hphase hfirmware hseq => exact h
  | store _ type hphase hfirmware hseq hstore =>
      exact h.store hlen hphase (hm hfirmware) hseq hstore

theorem TaskInv.receiveAll {sha256 : Sha256} {own : Anker} (h : TaskInv chunks t)
    (hlen : chunks.length ≤ 65535) (inputs : List (UpdatePingInfo × LibResults))
    (hm : ∀ x ∈ inputs, x.1.acceptedFirmware sha256 → x.1.ChunkOf chunks) :
    TaskInv chunks (t.receiveAll sha256 own inputs) := by
  induction inputs generalizing t with
  | nil => exact h
  | cons x inputs ih =>
      simp only [List.forall_mem_cons] at hm
      exact ih (h.receive hlen hm.1) hm.2

/-! ## Progress and acknowledgements -/

def storedCount (n : ℕ) (t : PAnkerTask) : ℕ := if t.phase = .restarted then n else t.seq.toNat

theorem storedCount_start (n : ℕ) : storedCount n start = 0 := by
  simp [storedCount, start]

theorem storedCount_of_ne {n : ℕ} (h : t.phase ≠ .restarted) :
    storedCount n t = t.seq.toNat := by
  rw [storedCount, if_neg h]

theorem storedCount_running {n : ℕ} (h : t.phase = .running) :
    storedCount n t = t.seq.toNat := by
  apply storedCount_of_ne
  simp [h]

theorem StoreOutcome.storedCount {t' : PAnkerTask} {type : AckType}
    (hlen : chunks.length ≤ 65535) (hphase : t.phase = .running) (hm : m.ChunkOf chunks)
    (hseq : t.seq = m.seq) (hout : StoreOutcome m t t' type) :
    (storedCount chunks.length t' = t.seq.toNat ∧ type ≠ .rcvdBinaryData) ∨
      storedCount chunks.length t' = t.seq.toNat + 1 := by
  have hlt : t.seq.toNat < chunks.length := by
    rw [hseq]
    exact UpdatePingInfo.ChunkOf.seq_lt hm
  cases hout with
  | noPartition hzero => exact Or.inl ⟨storedCount_running hphase, by simp⟩
  | beginFailed hzero => exact Or.inl ⟨storedCount_running hphase, by simp⟩
  | writeFailed =>
      exact Or.inl ⟨by rw [storedCount_running (by simpa using hphase)]; simp, by simp⟩
  | stored hopen hlast =>
      apply Or.inr
      rw [storedCount_running (by simpa using hphase)]
      exact toNat_succ_of_lt hlt hlen
  | endFailed hopen hlast =>
      exact Or.inl ⟨by rw [storedCount_running (by simpa using hphase)]; simp, by simp⟩
  | setBootFailed hopen hlast =>
      exact Or.inl ⟨by rw [storedCount_running (by simpa using hphase)]; simp, by simp⟩
  | restarted hopen hlast =>
      have hfinal : m.seq.toNat + 1 = chunks.length := hm.2 hlast
      apply Or.inr
      rw [PAnkerTask.storedCount, if_pos rfl, hseq, hfinal]

/-- What one datagram changes: nothing is forgotten, a chunk is stored only
if it is the next one, and every acknowledgement that is sent is for a
chunk that is stored. -/
structure Progress (n : ℕ) (sha256 : Sha256) (own : Anker) (m : UpdatePingInfo)
    (t t' : PAnkerTask) (acks : List UpdatePingAck) : Prop where
  stored : storedCount n t' = storedCount n t ∨
    storedCount n t' = storedCount n t + 1 ∧ m.acceptedFirmware sha256 ∧
      storedCount n t = m.seq.toNat
  acked : ∀ a ∈ acks, a.serial = own.serial ∧
    (a.type = AckType.rcvdBinaryData.code → a.seq.toNat < storedCount n t')

theorem receive_progress {sha256 : Sha256} {own : Anker} {r : LibResults}
    (hlen : chunks.length ≤ 65535) (hm : m.acceptedFirmware sha256 → m.ChunkOf chunks) :
    Progress chunks.length sha256 own m t (t.receive sha256 own r m).1
      (t.receive sha256 own r m).2 := by
  obtain ⟨t', acks, heq, hout⟩ := receive_outcome sha256 own r m t
  have hrcvd : ∀ type : AckType, type.code = AckType.rcvdBinaryData.code →
      type = .rcvdBinaryData := fun _ h ↦ AckType.code_injective h
  rw [heq]
  cases hout with
  | ignored => exact ⟨Or.inl rfl, by simp⟩
  | answered type seq htype =>
      refine ⟨Or.inl rfl, ?_⟩
      simpa using fun h ↦ absurd (hrcvd type h) htype
  | deleted type hphase htype =>
      refine ⟨Or.inl ?_, ?_⟩
      · rw [storedCount_running hphase, storedCount_of_ne (by simp)]
      · simpa using fun h ↦ absurd (hrcvd type h) htype
  | resent hphase hfirmware hseq =>
      refine ⟨Or.inl rfl, ?_⟩
      rw [storedCount_running hphase]
      simpa using UInt16.lt_iff_toNat_lt.mp hseq
  | store _ type hphase hfirmware hseq hstore =>
      have hcount := hstore.storedCount hlen hphase (hm hfirmware) hseq
      rcases hcount with ⟨hsame, htype⟩ | hnext
      · refine ⟨Or.inl (by rw [hsame, storedCount_running hphase]), ?_⟩
        simpa using fun h ↦ absurd (hrcvd type h) htype
      · refine ⟨Or.inr ⟨by rw [hnext, storedCount_running hphase], hfirmware, ?_⟩, ?_⟩
        · rw [storedCount_running hphase, hseq]
        · simp [hnext]

/-- Whatever order, repetition and failures a running task meets, whenever
it sets the boot partition it has written exactly the image since the last
`esp_ota_begin`. -/
theorem setBootPartition_only_whole_image (sha256 : Sha256) (own : Anker)
    (chunks : List (List UInt8)) (hlen : chunks.length ≤ 65535)
    (inputs : List (UpdatePingInfo × LibResults))
    (hm : ∀ x ∈ inputs, x.1.acceptedFirmware sha256 → x.1.ChunkOf chunks) :
    ActivatesOnly chunks.flatten (start.receiveAll sha256 own inputs).calls :=
  (taskInv_start.receiveAll hlen inputs hm).activations

/-- The image `[1, 2]` in two chunks, with a failed write, a late resend of
chunk 0 and a failed `esp_ota_set_boot_partition` on the way. -/
def resentInputs : List (UpdatePingInfo × LibResults) :=
  let own : Anker := ⟨Vector.replicate serialSize 7, []⟩
  let chunk (seq : UInt16) (isLast : Bool) (byte : UInt8) :=
    updatePingInfo headHash own .sendFirmwareData seq isLast [byte] 1
  let works : LibResults := ⟨true, true, true, true, true, true, none, true⟩
  [(chunk 0 false 1, { works with otaWrite := false }), (chunk 0 false 1, works),
    (chunk 0 false 1, works), (chunk 1 true 2, { works with setBootPartition := false }),
    (chunk 1 true 2, works)]

theorem setBootPartition_only_whole_image_resent :
    ActivatesOnly [1, 2]
        (start.receiveAll headHash ⟨Vector.replicate serialSize 9, []⟩ resentInputs).calls ∧
      .activate false ∈
        (start.receiveAll headHash ⟨Vector.replicate serialSize 9, []⟩ resentInputs).calls := by
  refine ⟨setBootPartition_only_whole_image headHash ⟨Vector.replicate serialSize 9, []⟩
    [[1], [2]] (by decide) resentInputs ?_, by decide⟩
  simp only [resentInputs, List.forall_mem_cons]
  simp [UpdatePingInfo.ChunkOf]

end PAnkerTask

end AnkerUpdater
