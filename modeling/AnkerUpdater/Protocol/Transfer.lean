import AnkerUpdater.Lib.StopAndWait
import AnkerUpdater.Protocol.ReceiverInvariant
import AnkerUpdater.Protocol.SendInvariant

/-!
# One firmware transfer

The firmware loop of the C-Anker, the tasks of the P-Ankers and the
datagrams between them as one transition system.  Whatever was sent stays
available, so that loss, delay, repetition and reordering are choices of
the steps.  A datagram that passes the hash check has the hashed bytes of
one that was sent; only senders outside the list of P-Ankers may send
other acknowledgements.
-/

namespace AnkerUpdater

open Relation UploadLog PAnkerTask

/-! ## The chunks of the running partition -/

namespace Session

variable (S : Session)

def chunks : List (List UInt8) :=
  (List.range S.chunkCount).map fun k ↦ S.chunkAt (S.chunkOffset k)

@[simp] theorem chunks_length : S.chunks.length = S.chunkCount := by
  simp [chunks]

theorem chunks_getElem? {k : ℕ} (h : k < S.chunkCount) :
    S.chunks[k]? = some (S.chunkAt (S.chunkOffset k)) := by
  simp [chunks, h]

theorem take_chunkOffset_succ (k : ℕ) :
    S.runningPartition.take (S.chunkOffset (k + 1)) =
      S.runningPartition.take (S.chunkOffset k) ++ S.chunkAt (S.chunkOffset k) := by
  rw [← S.chunkOffset_add_dataLen k, List.take_add, chunkAt]

theorem prefixOf_chunks {k : ℕ} (h : k ≤ S.chunkCount) :
    prefixOf S.chunks k = S.runningPartition.take (S.chunkOffset k) := by
  induction k with
  | zero => simp [chunkOffset]
  | succ k ih =>
      have hlt : k < S.chunkCount := h
      rw [prefixOf_succ (S.chunks_getElem? hlt), ih hlt.le, S.take_chunkOffset_succ]

theorem chunkOffset_chunkCount : S.chunkOffset S.chunkCount = S.size := by
  have hle : S.chunkOffset S.chunkCount ≤ S.size := Nat.min_le_right _ _
  have hge : ¬ S.chunkOffset S.chunkCount < S.size := by simp [S.chunkOffset_lt_size_iff]
  omega

/-- The chunks make up the partition, each byte once and in order. -/
theorem chunks_flatten : S.chunks.flatten = S.runningPartition := by
  have hall := S.prefixOf_chunks le_rfl
  rw [S.chunkOffset_chunkCount, prefixOf_length (by simp)] at hall
  rw [hall, size, List.take_length]

theorem dataLen_le (offset : ℕ) : S.dataLen offset ≤ dataMaxLen := by
  rw [S.dataLen_eq]
  split_ifs <;> omega

theorem payload_firmwareDatagram (s : SendState) :
    (S.firmwareDatagram s).payload = S.chunkAt s.offset := by
  have hle := S.dataLen_le s.offset
  have hlen : (UInt16.ofNat (S.dataLen s.offset)).toNat = S.dataLen s.offset :=
    UInt16.toNat_ofNat_of_lt' (hle.trans_lt (by decide))
  rw [firmwareDatagram, firmwareInfo_payload, hlen, chunkAt, List.take_take, Nat.min_self]

theorem overrunsAt_chunkOffset {k : ℕ} (h : k < S.chunkCount) :
    S.overrunsAt (S.chunkOffset k) = true ↔ k + 1 = S.chunkCount ∧ S.size % dataMaxLen ≠ 0 := by
  rw [S.overrunsAt_iff]
  simp only [chunkOffset, chunkCount, dataMaxLen] at *
  omega

variable {S} {s : SendState}

/-! ### What the loop sends -/

theorem SendInv.seq_le (h : S.SendInv s) (hchunks : S.chunkCount ≤ 65535) :
    s.seq.toNat ≤ S.chunkCount ∧ s.offset = S.chunkOffset s.seq.toNat := by
  obtain ⟨k, hk, hseq, hoffset⟩ := h.position
  have hlt : k < UInt16.size := lt_of_le_of_lt (hk.trans hchunks) (by decide)
  have hnat : s.seq.toNat = k := by rw [hseq, UInt16.toNat_ofNat_of_lt' hlt]
  rw [hnat]
  exact ⟨hk, hoffset⟩

theorem SendInv.seq_lt (h : S.SendInv s) (hchunks : S.chunkCount ≤ 65535)
    (hrun : s.offset < S.size) : s.seq.toNat < S.chunkCount := by
  obtain ⟨-, hoffset⟩ := h.seq_le hchunks
  rw [hoffset] at hrun
  exact S.chunkOffset_lt_size_iff.mp hrun

theorem SendInv.isLast_iff (h : S.SendInv s) :
    (S.firmwareDatagram s).isLast ≠ 0 ↔ S.overrunsAt s.offset = true := by
  have hflag : (S.prepare s).isLast = true ↔ S.overrunsAt s.offset = true := by
    constructor
    · exact h.prepare.isLast
    · intro hover
      simp [Session.prepare, hover]
  rw [firmwareDatagram, firmwareInfo_isLast, ← hflag]
  cases (S.prepare s).isLast <;> simp

theorem SendInv.chunkOf_firmwareDatagram (h : S.SendInv s) (hchunks : S.chunkCount ≤ 65535)
    (hrun : s.offset < S.size) : (S.firmwareDatagram s).ChunkOf S.chunks := by
  obtain ⟨-, hoffset⟩ := h.seq_le hchunks
  have hlt := h.seq_lt hchunks hrun
  have hseq : (S.firmwareDatagram s).seq = s.seq := rfl
  constructor
  · rw [hseq, S.chunks_getElem? hlt, S.payload_firmwareDatagram, hoffset]
  · intro hlast
    have hover : S.overrunsAt (S.chunkOffset s.seq.toNat) = true := by
      rw [← hoffset]
      exact h.isLast_iff.mp hlast
    rw [hseq, S.chunks_length]
    exact ((S.overrunsAt_chunkOffset hlt).mp hover).1

end Session

/-! ## The transition system -/

inductive SendPhase where
  | setup
  | looping
  | collecting (startMicros : ℕ) (polls : List Poll)
  | returned (rc : UpdaterRc)

/-- The call on the C-Anker, the tasks of the P-Ankers by serial, and every
datagram that was ever sent. -/
structure TransferState where
  phase : SendPhase
  sender : SendState
  tasks : Serial → PAnkerTask
  data : List UpdatePingInfo
  acks : List UpdatePingAck

namespace TransferState

variable (S : Session) (version : Serial → List UInt8)

def initial : TransferState := ⟨.setup, S.start, fun _ ↦ PAnkerTask.start, [], []⟩

def continueWith (t : TransferState) : Flow SendState → TransferState
  | .next s => { t with phase := .looping, sender := s }
  | .exit rc s => { t with phase := .returned rc, sender := s }

/-- What may arrive at the task of a P-Anker. -/
def Deliverable (t : TransferState) (m : UpdatePingInfo) : Prop :=
  m.acceptedFirmware S.sha256 → ∃ d ∈ t.data, m.hashed = d.hashed

def Answerable (t : TransferState) (a : UpdatePingAck) : Prop :=
  a.accepted S.sha256 = true → a.serial ∈ S.pAnkers.map PAnker.serial →
    ∃ b ∈ t.acks, a.hashed = b.hashed

def deliver (t : TransferState) (x : Serial) (r : LibResults) (m : UpdatePingInfo) :
    TransferState :=
  let out := (t.tasks x).receive S.sha256 ⟨x, version x⟩ r m
  { t with tasks := Function.update t.tasks x out.1, acks := t.acks ++ out.2 }

inductive Step : TransferState → TransferState → Prop where
  | setup (t : TransferState) (ok : Bool) (hphase : t.phase = .setup) :
      Step t { t with phase := if ok then .looping else .returned .error }
  | readFailed (t : TransferState) (hphase : t.phase = .looping) (hrun : t.sender.offset < S.size) :
      Step t (t.continueWith (S.turn t.sender .readFailed))
  | sendFailed (t : TransferState) (hphase : t.phase = .looping) (hrun : t.sender.offset < S.size) :
      Step t (t.continueWith (S.turn t.sender .sendFailed))
  | broadcast (t : TransferState) (startMicros : ℕ) (hphase : t.phase = .looping)
      (hrun : t.sender.offset < S.size) :
      Step t { t with
        phase := .collecting startMicros []
        data := t.data ++ [S.firmwareDatagram t.sender] }
  | poll (t : TransferState) {startMicros : ℕ} {polls : List Poll} (p : Poll)
      (hphase : t.phase = .collecting startMicros polls)
      (hanswer : ∀ d, p.datagram = some d → t.Answerable S d.info) :
      Step t { t with phase := .collecting startMicros (polls ++ [p]) }
  | finish (t : TransferState) {startMicros : ℕ} {polls : List Poll}
      (hphase : t.phase = .collecting startMicros polls) :
      Step t (t.continueWith (S.turn t.sender (.round startMicros polls)))
  | complete (t : TransferState) (hphase : t.phase = .looping)
      (hdone : ¬ t.sender.offset < S.size) :
      Step t { t with phase := .returned .ok }
  | receive (t : TransferState) (x : Serial) (r : LibResults) (m : UpdatePingInfo)
      (hdeliver : t.Deliverable S m) : Step t (t.deliver S version x r m)

def Reachable (t : TransferState) : Prop := ReflTransGen (Step S version) (initial S) t

end TransferState

end AnkerUpdater
