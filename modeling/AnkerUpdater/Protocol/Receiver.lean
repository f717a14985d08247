import AnkerUpdater.Lib.UploadLog
import AnkerUpdater.Protocol.Messages

/-!
# The broadcast task of a P-Anker

`p_anker_udp_broadcast_task` as a transition on its state: one received
datagram together with the results of the library calls it leads to.
`calls` logs the calls of the OTA library.  A write to a handle that
`esp_ota_end` has released fails, and `api_restart_anker` ends the task.
-/

namespace AnkerUpdater

open EventLog UploadLog

inductive ImgState where
  | new
  | pendingVerify
  | valid
  | invalid
  | aborted
  | undefined
  deriving DecidableEq, Repr

/-- The results of the library calls in one pass of the task loop; `true`
stands for success. -/
structure LibResults where
  getNextUpdatePartition : Bool
  otaBegin : Bool
  otaWrite : Bool
  otaEnd : Bool
  setBootPartition : Bool
  getRunningPartition : Bool
  getStatePartition : Option ImgState
  markAppValid : Bool
  deriving DecidableEq

inductive TaskPhase where
  | running
  | restarted
  | deleted
  deriving DecidableEq, Repr

structure PAnkerTask where
  phase : TaskPhase
  seq : UInt16
  calls : List (Call UInt8)
  deriving DecidableEq

namespace PAnkerTask

def start : PAnkerTask := ⟨.running, 0, []⟩

def log (t : PAnkerTask) (c : Call UInt8) : PAnkerTask := { t with calls := t.calls ++ [c] }

/-- The state in which `esp_ota_write` is called: chunk 0 begins a new
session first. -/
def opened (t : PAnkerTask) : PAnkerTask := if t.seq = 0 then t.log (.begin true) else t

variable (sha256 : Sha256) (own : Anker)

/-- The branch of SEND_FIRMWARE_DATA for a datagram with the expected
sequence number.  Every failed call answers with GENERAL_ERROR and leaves
`seq` as it is. -/
def storeChunk (r : LibResults) (m : UpdatePingInfo) (t : PAnkerTask) :
    PAnkerTask × List UpdatePingAck :=
  let refuse (t' : PAnkerTask) := (t', [ackInfo sha256 own .generalError t.seq])
  let confirm (t' : PAnkerTask) := (t', [ackInfo sha256 own .rcvdBinaryData t.seq])
  if t.seq = 0 ∧ r.getNextUpdatePartition = false then refuse t
  else if t.seq = 0 ∧ r.otaBegin = false then refuse (t.log (.begin false))
  else if (isOpen t.opened.calls && r.otaWrite) = false then
    refuse (t.opened.log (.write m.payload false))
  else
    let t := t.opened.log (.write m.payload true)
    if m.isLast = 0 then confirm { t with seq := t.seq + 1 }
    else if r.otaEnd = false then refuse (t.log (.finish false))
    else if r.setBootPartition = false then refuse ((t.log (.finish true)).log (.activate false))
    else confirm { (t.log (.finish true)).log (.activate true) with phase := .restarted }

def firmwareData (r : LibResults) (m : UpdatePingInfo) (t : PAnkerTask) :
    PAnkerTask × List UpdatePingAck :=
  if t.seq ≠ m.seq then
    if m.seq < t.seq then (t, [ackInfo sha256 own .rcvdBinaryData m.seq])
    else (t, [ackInfo sha256 own .seqError t.seq])
  else t.storeChunk sha256 own r m

def versionAckType (r : LibResults) : AckType :=
  if r.getRunningPartition = false then .failUpdate
  else match r.getStatePartition with
    | none => .failUpdate
    | some .pendingVerify => if r.markAppValid then .successUpdate else .failUpdate
    | some .aborted => .failUpdate
    | some .invalid => .failUpdate
    | some _ => .successUpdate

/-- One received datagram.  After its answer to GET_UPDATE_VERSION_ACK the
task runs `p_anker_connect_to_default_ap`, which deletes it. -/
def receive (r : LibResults) (m : UpdatePingInfo) (t : PAnkerTask) :
    PAnkerTask × List UpdatePingAck :=
  if t.phase ≠ .running then (t, [])
  else if m.magic ≠ magicBytes then (t, [])
  else if calculateUpdatePingInfoHash sha256 m ≠ m.hash then
    (t, [ackInfo sha256 own .hashError 0])
  else if m.type = UpdatePingType.sendFirmwareData.code then t.firmwareData sha256 own r m
  else if m.type = UpdatePingType.getUpdateVersionAck.code then
    ({ t with phase := .deleted }, [ackInfo sha256 own (versionAckType r) 0])
  else (t, [ackInfo sha256 own .version 0])

def receiveAll (inputs : List (UpdatePingInfo × LibResults)) (t : PAnkerTask) : PAnkerTask :=
  inputs.foldl (fun t x ↦ (t.receive sha256 own x.2 x.1).1) t

inductive StoreOutcome (m : UpdatePingInfo) (t : PAnkerTask) :
    PAnkerTask → AckType → Prop where
  | noPartition (hseq : t.seq = 0) : StoreOutcome m t t .generalError
  | beginFailed (hseq : t.seq = 0) :
      StoreOutcome m t (t.log (.begin false)) .generalError
  | writeFailed :
      StoreOutcome m t (t.opened.log (.write m.payload false)) .generalError
  | stored (hopen : isOpen t.opened.calls = true) (hlast : m.isLast = 0) :
      StoreOutcome m t
        { t.opened.log (.write m.payload true) with seq := t.seq + 1 } .rcvdBinaryData
  | endFailed (hopen : isOpen t.opened.calls = true) (hlast : m.isLast ≠ 0) :
      StoreOutcome m t
        ((t.opened.log (.write m.payload true)).log (.finish false)) .generalError
  | setBootFailed (hopen : isOpen t.opened.calls = true) (hlast : m.isLast ≠ 0) :
      StoreOutcome m t
        (((t.opened.log (.write m.payload true)).log (.finish true)).log (.activate false))
        .generalError
  | restarted (hopen : isOpen t.opened.calls = true) (hlast : m.isLast ≠ 0) :
      StoreOutcome m t
        { ((t.opened.log (.write m.payload true)).log (.finish true)).log (.activate true) with
          phase := .restarted } .rcvdBinaryData

variable {sha256 own} {r : LibResults} {m : UpdatePingInfo} {t : PAnkerTask}

@[simp] theorem log_seq (c : Call UInt8) : (t.log c).seq = t.seq := rfl

@[simp] theorem log_phase (c : Call UInt8) : (t.log c).phase = t.phase := rfl

@[simp] theorem log_calls (c : Call UInt8) : (t.log c).calls = t.calls ++ [c] := rfl

@[simp] theorem opened_seq : t.opened.seq = t.seq := by
  rw [opened]
  split_ifs <;> rfl

@[simp] theorem opened_phase : t.opened.phase = t.phase := by
  rw [opened]
  split_ifs <;> rfl

theorem storeChunk_outcome : ∃ t' type,
    t.storeChunk sha256 own r m = (t', [ackInfo sha256 own type t.seq]) ∧
      StoreOutcome m t t' type := by
  by_cases hpartition : t.seq = 0 ∧ r.getNextUpdatePartition = false
  · exact ⟨_, _, by simp only [storeChunk, if_pos hpartition], .noPartition hpartition.1⟩
  by_cases hbegin : t.seq = 0 ∧ r.otaBegin = false
  · exact ⟨_, _, by simp only [storeChunk, if_neg hpartition, if_pos hbegin],
      .beginFailed hbegin.1⟩
  by_cases hwrite : (isOpen t.opened.calls && r.otaWrite) = false
  · exact ⟨_, _, by simp only [storeChunk, if_neg hpartition, if_neg hbegin, if_pos hwrite],
      .writeFailed⟩
  have hopen : isOpen t.opened.calls = true := by
    by_contra h
    simp [h] at hwrite
  by_cases hlast : m.isLast = 0
  · refine ⟨_, _, ?_, .stored hopen hlast⟩
    simp only [storeChunk, if_neg hpartition, if_neg hbegin, if_neg hwrite, if_pos hlast, log_seq,
      opened_seq]
  by_cases hend : r.otaEnd = false
  · refine ⟨_, _, ?_, .endFailed hopen hlast⟩
    simp only [storeChunk, if_neg hpartition, if_neg hbegin, if_neg hwrite, if_neg hlast,
      if_pos hend]
  by_cases hboot : r.setBootPartition = false
  · refine ⟨_, _, ?_, .setBootFailed hopen hlast⟩
    simp only [storeChunk, if_neg hpartition, if_neg hbegin, if_neg hwrite, if_neg hlast,
      if_neg hend, if_pos hboot]
  · refine ⟨_, _, ?_, .restarted hopen hlast⟩
    simp only [storeChunk, if_neg hpartition, if_neg hbegin, if_neg hwrite, if_neg hlast,
      if_neg hend, if_neg hboot]

theorem versionAckType_eq :
    versionAckType r = .successUpdate ∨ versionAckType r = .failUpdate := by
  rw [versionAckType]
  split
  · simp
  · cases r.getStatePartition with
    | none => simp
    | some state => cases state <;> cases r.markAppValid <;> simp

theorem versionAckType_ne {type : AckType} (hsuccess : type ≠ .successUpdate)
    (hfail : type ≠ .failUpdate) : versionAckType r ≠ type := by
  rcases versionAckType_eq (r := r) with heq | heq
  · exact heq.trans_ne hsuccess.symm
  · exact heq.trans_ne hfail.symm

/-- What a received datagram can do.  Only accepted firmware data with the
expected sequence number changes `seq` or the log. -/
inductive ReceiveOutcome (sha256 : Sha256) (m : UpdatePingInfo) (t : PAnkerTask) :
    PAnkerTask → List (AckType × UInt16) → Prop where
  | ignored : ReceiveOutcome sha256 m t t []
  | answered (type : AckType) (seq : UInt16) (htype : type ≠ .rcvdBinaryData) :
      ReceiveOutcome sha256 m t t [(type, seq)]
  | deleted (type : AckType) (hphase : t.phase = .running) (htype : type ≠ .rcvdBinaryData) :
      ReceiveOutcome sha256 m t { t with phase := .deleted } [(type, 0)]
  | resent (hphase : t.phase = .running) (hfirmware : m.acceptedFirmware sha256)
      (hseq : m.seq < t.seq) : ReceiveOutcome sha256 m t t [(.rcvdBinaryData, m.seq)]
  | store (t' : PAnkerTask) (type : AckType) (hphase : t.phase = .running)
      (hfirmware : m.acceptedFirmware sha256) (hseq : t.seq = m.seq)
      (h : StoreOutcome m t t' type) : ReceiveOutcome sha256 m t t' [(type, t.seq)]

theorem firmwareData_outcome (hphase : t.phase = .running)
    (hfirmware : m.acceptedFirmware sha256) : ∃ t' acks,
    t.firmwareData sha256 own r m =
        (t', acks.map fun a : AckType × UInt16 ↦ ackInfo sha256 own a.1 a.2) ∧
      ReceiveOutcome sha256 m t t' acks := by
  by_cases hseq : t.seq = m.seq
  · obtain ⟨t', type, heq, hstore⟩ := storeChunk_outcome (t := t) (m := m) (r := r)
    refine ⟨t', [(type, t.seq)], ?_, .store t' type hphase hfirmware hseq hstore⟩
    rw [firmwareData, if_neg (not_not.mpr hseq)]
    exact heq
  · by_cases hlt : m.seq < t.seq
    · exact ⟨t, [(.rcvdBinaryData, m.seq)], by simp [firmwareData, hseq, hlt],
        .resent hphase hfirmware hlt⟩
    · exact ⟨t, [(.seqError, t.seq)], by simp [firmwareData, hseq, hlt],
        .answered _ _ (by simp)⟩

theorem receive_outcome (sha256 : Sha256) (own : Anker) (r : LibResults) (m : UpdatePingInfo)
    (t : PAnkerTask) : ∃ t' acks,
    t.receive sha256 own r m =
        (t', acks.map fun a : AckType × UInt16 ↦ ackInfo sha256 own a.1 a.2) ∧
      ReceiveOutcome sha256 m t t' acks := by
  rw [receive]
  split_ifs with hphase hmagic hhash hfirmware hversion
  · exact ⟨t, [], rfl, .ignored⟩
  · exact ⟨t, [], rfl, .ignored⟩
  · exact ⟨t, [(.hashError, 0)], rfl, .answered _ _ (by simp)⟩
  · refine firmwareData_outcome (not_not.mp hphase) ⟨?_, hfirmware⟩
    simp [UpdatePingInfo.accepted, not_not.mp hmagic, not_not.mp hhash]
  · exact ⟨_, [(versionAckType r, 0)], rfl,
      .deleted _ (not_not.mp hphase) (versionAckType_ne (by simp) (by simp))⟩
  · exact ⟨t, [(.version, 0)], rfl, .answered _ _ (by simp)⟩

theorem StoreOutcome.type_ne {t' : PAnkerTask} {type : AckType} (h : StoreOutcome m t t' type) :
    type ≠ .seqError := by
  cases h <;> simp

/-- SEQ_ERROR answers only accepted firmware data beyond the chunk that a
running task expects. -/
theorem receive_seqError {a : UpdatePingAck} (ha : a ∈ (t.receive sha256 own r m).2)
    (htype : a.type = AckType.seqError.code) :
    t.phase = .running ∧ m.acceptedFirmware sha256 ∧ t.seq < m.seq := by
  have hanswer : ∀ (type : AckType) (seq : UInt16), a ∈ [ackInfo sha256 own type seq] →
      type = .seqError := by
    intro type seq hmem
    rw [List.mem_singleton.mp hmem, ackInfo_type] at htype
    exact AckType.code_injective htype
  rw [receive] at ha
  split_ifs at ha with hphase hmagic hhash hfirmware hversion
  · exact absurd ha List.not_mem_nil
  · exact absurd ha List.not_mem_nil
  · exact absurd (hanswer _ _ ha) (by simp)
  · rw [firmwareData] at ha
    split_ifs at ha with hseq hlt
    · exact absurd (hanswer _ _ ha) (by simp)
    · refine ⟨not_not.mp hphase, ⟨?_, hfirmware⟩, ?_⟩
      · simp [UpdatePingInfo.accepted, not_not.mp hmagic, not_not.mp hhash]
      · exact UInt16.lt_of_le_of_ne (UInt16.not_lt.mp hlt) hseq
    · obtain ⟨t', type, heq, hstore⟩ := storeChunk_outcome (t := t) (m := m) (r := r)
      rw [heq] at ha
      exact absurd (hanswer _ _ ha) hstore.type_ne
  · exact absurd (hanswer _ _ ha) (versionAckType_ne (by simp) (by simp))
  · exact absurd (hanswer _ _ ha) (by simp)

def LibResults.allOk : LibResults := ⟨true, true, true, true, true, true, some .valid, true⟩

/-- A task whose calls all succeed stores the chunk it expects and
acknowledges it. -/
theorem receive_expected (own : Anker) (hphase : t.phase = .running)
    (hfirmware : m.acceptedFirmware sha256) (hseq : t.seq = m.seq)
    (hopen : t.seq = 0 ∨ isOpen t.calls = true) : ∃ t',
    t.receive sha256 own LibResults.allOk m = (t', [ackInfo sha256 own .rcvdBinaryData t.seq]) ∧
      (m.isLast = 0 → t'.phase = .running ∧ t'.seq = t.seq + 1 ∧ isOpen t'.calls = true) := by
  have hisOpen : isOpen t.opened.calls = true := by
    by_cases hzero : t.seq = 0
    · rw [opened, if_pos hzero, log_calls, isOpen_begin_true]
    · rw [opened, if_neg hzero]
      exact hopen.resolve_left hzero
  obtain ⟨haccepted, htype⟩ := hfirmware
  simp only [UpdatePingInfo.accepted, Bool.and_eq_true, decide_eq_true_eq] at haccepted
  have hreceive : t.receive sha256 own LibResults.allOk m =
      t.storeChunk sha256 own LibResults.allOk m := by
    simp [receive, firmwareData, hphase, haccepted, htype, hseq]
  rw [hreceive]
  by_cases hlast : m.isLast = 0
  · refine ⟨{ t.opened.log (.write m.payload true) with seq := t.seq + 1 }, ?_, ?_⟩
    · simp [storeChunk, LibResults.allOk, hisOpen, hlast]
    · intro _
      simp [hphase, hisOpen]
  · refine ⟨{ ((t.opened.log (.write m.payload true)).log (.finish true)).log (.activate true) with
      phase := .restarted }, ?_, fun h ↦ absurd h hlast⟩
    simp [storeChunk, LibResults.allOk, hisOpen, hlast]

end PAnkerTask

end AnkerUpdater
