import AnkerUpdater.Protocol.AckCollector
import AnkerUpdater.Protocol.Receiver
import AnkerUpdater.Protocol.Wire

/-!
# Indices into the message buffers

The hashes and `esp_ota_write` run over as many bytes as the length field of
the message says.  Only the termination of `version` is guarded.
-/

namespace AnkerUpdater

open EventLog UploadLog ByteMemory

/-- An index into `data` or into `version`. -/
inductive ArrayIndex where
  | data (i : ℕ)
  | version (i : ℕ)
  deriving DecidableEq

def ArrayIndex.InBounds : ArrayIndex → Prop
  | .data i => i < dataMaxLen
  | .version i => i < maxVersionSize

def UpdatePingInfo.dataIndices (m : UpdatePingInfo) : List ArrayIndex :=
  (List.range m.dataLen.toNat).map .data

def UpdatePingAck.versionIndices (m : UpdatePingAck) : List ArrayIndex :=
  (List.range m.versionLen.toNat).map .version

/-- `recv` straight into the struct. -/
def UpdatePingAck.receivedDirect (memory : Memory UInt8) (datagram : List UInt8) : UpdatePingAck :=
  .ofMemory (store memory 0 (datagram.take sizeofUpdatePingAck))

/-! ## The four receivers -/

/-- The task comes to `esp_ota_write` with the datagram. -/
def PAnkerTask.writes (sha256 : Sha256) (r : LibResults) (m : UpdatePingInfo) (t : PAnkerTask) :
    Bool :=
  m.accepted sha256 && m.type = UpdatePingType.sendFirmwareData.code && t.seq = m.seq &&
    (t.seq ≠ 0 || (r.getNextUpdatePartition && r.otaBegin))

section

variable (sha256 : Sha256) (buffer memory : Memory UInt8) (datagram : List UInt8)

/-- `p_anker_udp_broadcast_task` with one datagram; `response_len > 0` fails
for an empty one. -/
def udpIndices (r : LibResults) (t : PAnkerTask) : List ArrayIndex :=
  let m := UpdatePingInfo.received buffer memory datagram
  if datagram = [] then []
  else if m.magic = magicBytes then
    m.dataIndices ++ if t.writes sha256 r m then m.dataIndices else []
  else []

/-- `p_anker_tcp_task` with one request. -/
def tcpIndices : List ArrayIndex :=
  let m := UpdatePingInfo.received buffer memory datagram
  if datagram = [] then []
  else if m.magic = magicBytes then m.dataIndices
  else []

/-- `retrieve_update_ping_ack` with one ack, after it has collected `acc`. -/
def ackIndices (acc : List PAnker) : List ArrayIndex :=
  let m := UpdatePingAck.received buffer memory datagram
  if datagram = [] then []
  else if m.magic = magicBytes then
    m.versionIndices ++
      if m.accepted sha256 = true ∧ (∀ p ∈ acc, p.serial ≠ m.serial) ∧
          m.versionLen.toNat < maxVersionSize then
        [.version m.versionLen.toNat]
      else []
  else []

/-- `send_update_ping_info_direct` with one response. -/
def directIndices : List ArrayIndex :=
  let m := UpdatePingAck.receivedDirect memory datagram
  if datagram = [] then []
  else if m.magic = magicBytes then m.versionIndices
  else []

end

theorem PAnkerTask.opened_calls (t : PAnkerTask) :
    t.opened.calls = t.calls ++ if t.seq = 0 then [.begin true] else [] := by
  rw [opened]
  split_ifs <;> simp

/-- The task calls `esp_ota_write` unless chunk 0 fails before. -/
theorem PAnkerTask.storeChunk_writes {sha256 : Sha256} {own : Anker} {r : LibResults}
    {m : UpdatePingInfo} {t : PAnkerTask} :
    (t.seq ≠ 0 ∨ r.getNextUpdatePartition = true ∧ r.otaBegin = true) ↔
      ∃ calls ok, (t.storeChunk sha256 own r m).1.calls = t.calls ++ calls ∧
        .write m.payload ok ∈ calls := by
  by_cases hpartition : t.seq = 0 ∧ r.getNextUpdatePartition = false
  · apply iff_of_false (by simp [hpartition])
    rintro ⟨calls, ok, hcalls, hmem⟩
    rw [storeChunk, if_pos hpartition, List.self_eq_append_right] at hcalls
    simp [hcalls] at hmem
  by_cases hbegin : t.seq = 0 ∧ r.otaBegin = false
  · apply iff_of_false (by simp [hbegin])
    rintro ⟨calls, ok, hcalls, hmem⟩
    rw [storeChunk, if_neg hpartition, if_pos hbegin, log_calls,
      List.append_cancel_left_eq] at hcalls
    simp [← hcalls] at hmem
  have hgoes : t.seq ≠ 0 ∨ r.getNextUpdatePartition = true ∧ r.otaBegin = true := by
    by_cases hseq : t.seq = 0
    · simp_all
    · exact .inl hseq
  have hwrote : ∀ ok more, ∃ calls ok', t.opened.calls ++ .write m.payload ok :: more =
      t.calls ++ calls ∧ .write m.payload ok' ∈ calls := by
    intro ok more
    refine ⟨(if t.seq = 0 then [.begin true] else []) ++ .write m.payload ok :: more, ok, ?_, ?_⟩
    · rw [opened_calls, List.append_assoc]
    · simp
  apply iff_of_true hgoes
  simp only [storeChunk, if_neg hpartition, if_neg hbegin]
  split_ifs
  · exact hwrote false []
  · exact hwrote true []
  · simpa using hwrote true [.finish false]
  · simpa using hwrote true [.finish true, .activate false]
  · simpa using hwrote true [.finish true, .activate true]

/-- The calls of the task for the datagram contain a write exactly if
`writes` says so. -/
theorem PAnkerTask.writes_iff {sha256 : Sha256} {own : Anker} {r : LibResults} {m : UpdatePingInfo}
    {t : PAnkerTask} (hphase : t.phase = .running) : t.writes sha256 r m = true ↔
      ∃ calls ok, (t.receive sha256 own r m).1.calls = t.calls ++ calls ∧
        .write m.payload ok ∈ calls := by
  have hnone : ¬∃ calls ok, t.calls = t.calls ++ calls ∧ Call.write m.payload ok ∈ calls := by
    rintro ⟨calls, ok, hcalls, hmem⟩
    rw [List.self_eq_append_right] at hcalls
    simp [hcalls] at hmem
  rw [receive, writes]
  rw [if_neg (not_not.mpr hphase)]
  split_ifs with hmagic hhash htype hversion
  · exact iff_of_false (by simp [UpdatePingInfo.accepted, hmagic]) hnone
  · exact iff_of_false (by simp [UpdatePingInfo.accepted, hhash]) hnone
  · have haccepted : m.accepted sha256 = true := by
      simp [UpdatePingInfo.accepted, not_not.mp hmagic, not_not.mp hhash]
    rw [firmwareData]
    by_cases hseq : t.seq = m.seq
    · rw [if_neg (not_not.mpr hseq), ← storeChunk_writes]
      simp [haccepted, htype, hseq]
    · rw [if_pos hseq]
      apply iff_of_false (by simp [hseq])
      split_ifs <;> exact hnone
  · exact iff_of_false (by simp [htype]) hnone
  · exact iff_of_false (by simp [htype]) hnone

/-! ## Bounds -/

theorem dataIndices_inBounds_iff (m : UpdatePingInfo) :
    (∀ x ∈ m.dataIndices, x.InBounds) ↔ m.dataLen.toNat ≤ dataMaxLen := by
  simp only [UpdatePingInfo.dataIndices, List.forall_mem_map, List.mem_range,
    ArrayIndex.InBounds]
  exact forall_lt_iff_le

theorem versionIndices_inBounds_iff (m : UpdatePingAck) :
    (∀ x ∈ m.versionIndices, x.InBounds) ↔ m.versionLen.toNat ≤ maxVersionSize := by
  simp only [UpdatePingAck.versionIndices, List.forall_mem_map, List.mem_range,
    ArrayIndex.InBounds]
  exact forall_lt_iff_le

section

variable (sha256 : Sha256) (buffer memory : Memory UInt8) (datagram : List UInt8)

theorem udpIndices_inBounds_iff (r : LibResults) (t : PAnkerTask) :
    (∀ x ∈ udpIndices sha256 buffer memory datagram r t, x.InBounds) ↔
      (datagram ≠ [] → (UpdatePingInfo.received buffer memory datagram).magic = magicBytes →
        (UpdatePingInfo.received buffer memory datagram).dataLen.toNat ≤ dataMaxLen) := by
  simp only [udpIndices]
  split_ifs with hempty hmagic hwrites
  · simp [hempty]
  · rw [List.forall_mem_append, and_self_iff, dataIndices_inBounds_iff]
    simp [hempty, hmagic]
  · rw [List.append_nil, dataIndices_inBounds_iff]
    simp [hempty, hmagic]
  · simp [hmagic]

theorem tcpIndices_inBounds_iff : (∀ x ∈ tcpIndices buffer memory datagram, x.InBounds) ↔
    (datagram ≠ [] → (UpdatePingInfo.received buffer memory datagram).magic = magicBytes →
      (UpdatePingInfo.received buffer memory datagram).dataLen.toNat ≤ dataMaxLen) := by
  simp only [tcpIndices]
  split_ifs with hempty hmagic
  · simp [hempty]
  · rw [dataIndices_inBounds_iff]
    simp [hempty, hmagic]
  · simp [hmagic]

theorem ackIndices_inBounds_iff (acc : List PAnker) :
    (∀ x ∈ ackIndices sha256 buffer memory datagram acc, x.InBounds) ↔
      (datagram ≠ [] → (UpdatePingAck.received buffer memory datagram).magic = magicBytes →
        (UpdatePingAck.received buffer memory datagram).versionLen.toNat ≤ maxVersionSize) := by
  simp only [ackIndices]
  split_ifs with hempty hmagic hterminates
  · simp [hempty]
  · have hlast : ArrayIndex.InBounds
        (.version (UpdatePingAck.received buffer memory datagram).versionLen.toNat) :=
      hterminates.2.2
    rw [List.forall_mem_append, versionIndices_inBounds_iff]
    simp [hempty, hmagic, hlast]
  · rw [List.append_nil, versionIndices_inBounds_iff]
    simp [hempty, hmagic]
  · simp [hmagic]

theorem directIndices_inBounds_iff : (∀ x ∈ directIndices memory datagram, x.InBounds) ↔
    (datagram ≠ [] → (UpdatePingAck.receivedDirect memory datagram).magic = magicBytes →
      (UpdatePingAck.receivedDirect memory datagram).versionLen.toNat ≤ maxVersionSize) := by
  simp only [directIndices]
  split_ifs with hempty hmagic
  · simp [hempty]
  · rw [versionIndices_inBounds_iff]
    simp [hempty, hmagic]
  · simp [hmagic]

/-- A receiver stays inside the buffers exactly if nothing is received or the
message has other magic bytes or a length that fits. -/
theorem indices_inBounds_iff :
    (∀ (r : LibResults) (t : PAnkerTask),
      (∀ x ∈ udpIndices sha256 buffer memory datagram r t, x.InBounds) ↔
        (datagram ≠ [] → (UpdatePingInfo.received buffer memory datagram).magic = magicBytes →
          (UpdatePingInfo.received buffer memory datagram).dataLen.toNat ≤ dataMaxLen)) ∧
    ((∀ x ∈ tcpIndices buffer memory datagram, x.InBounds) ↔
      (datagram ≠ [] → (UpdatePingInfo.received buffer memory datagram).magic = magicBytes →
        (UpdatePingInfo.received buffer memory datagram).dataLen.toNat ≤ dataMaxLen)) ∧
    (∀ acc : List PAnker,
      (∀ x ∈ ackIndices sha256 buffer memory datagram acc, x.InBounds) ↔
        (datagram ≠ [] → (UpdatePingAck.received buffer memory datagram).magic = magicBytes →
          (UpdatePingAck.received buffer memory datagram).versionLen.toNat ≤ maxVersionSize)) ∧
    ((∀ x ∈ directIndices memory datagram, x.InBounds) ↔
      (datagram ≠ [] → (UpdatePingAck.receivedDirect memory datagram).magic = magicBytes →
        (UpdatePingAck.receivedDirect memory datagram).versionLen.toNat ≤ maxVersionSize)) :=
  ⟨udpIndices_inBounds_iff sha256 buffer memory datagram,
    tcpIndices_inBounds_iff buffer memory datagram,
    ackIndices_inBounds_iff sha256 buffer memory datagram,
    directIndices_inBounds_iff memory datagram⟩

end

/-- Magic bytes, zeros up to the length at offset `lengthAt`, and the
largest length. -/
def oversized (lengthAt : ℕ) : List UInt8 :=
  magicBytes.toList ++ List.replicate (lengthAt - 3) 0 ++ [0xFF, 0xFF]

theorem not_indices_inBounds_oversized :
    (¬∀ x ∈ udpIndices headHash (fun _ ↦ 0) (fun _ ↦ 0) (oversized 50)
      PAnkerTask.LibResults.allOk .start, x.InBounds) ∧
    (¬∀ x ∈ tcpIndices (fun _ ↦ 0) (fun _ ↦ 0) (oversized 50), x.InBounds) ∧
    (¬∀ x ∈ ackIndices headHash (fun _ ↦ 0) (fun _ ↦ 0) (oversized 48) [], x.InBounds) ∧
    ¬∀ x ∈ directIndices (fun _ ↦ 0) (oversized 48), x.InBounds := by
  rw [udpIndices_inBounds_iff, tcpIndices_inBounds_iff, ackIndices_inBounds_iff,
    directIndices_inBounds_iff]
  refine ⟨?_, ?_, ?_, ?_⟩ <;> decide

end AnkerUpdater
