import AnkerUpdater.Protocol.AckCollector
import AnkerUpdater.Protocol.Wire

/-!
# Acknowledgements on the wire

`send_ack` sends its struct without the unused end of `version`, and
`retrieve_update_ping_ack` copies a whole struct out of its buffer.
-/

namespace AnkerUpdater

open ByteMemory

variable {sha256 : Sha256} {own : Anker} {type : AckType} {seq : UInt16} {mem memory : Memory UInt8}

theorem ackVersion_ne_zero : ∀ b ∈ ackVersion own type, b ≠ 0 := by
  intro b hb
  rw [ackVersion] at hb
  split_ifs at hb
  · simpa using List.mem_takeWhile_imp hb
  · simp at hb

/-- The memory holds the members that `send_ack` writes before the hash. -/
structure HoldsAck (own : Anker) (type : AckType) (seq : UInt16) (mem : Memory UInt8) : Prop where
  magic : load mem 0 3 = magicBytes.toList
  typeByte : load mem 3 1 = [type.code]
  serial : load mem 4 serialSize = own.serial.toList
  seqBytes : load mem 46 2 = bytesOfUInt16 seq
  lengthByte : load mem 48 1 = [UInt8.ofNat (ackVersion own type).length]
  version : load mem 49 (ackVersion own type).length = ackVersion own type

theorem holdsAck_ackMembers (hlength : (ackVersion own type).length < maxVersionSize) :
    HoldsAck own type seq (ackMembers own type seq memory) := by
  have hfits : (UInt8.ofNat (ackVersion own type).length).toNat = (ackVersion own type).length := by
    simp only [maxVersionSize] at hlength
    rw [UInt8.toNat_ofNat', Nat.mod_eq_of_lt (by omega)]
  have hserial : own.serial.toList.length = 9 := own.serial.length_toList
  simp only [ackMembers, hfits, List.take_length]
  constructor
  · rw [load_store_of_disjoint (by simp), load_store_of_disjoint (by simp),
      load_store_of_disjoint (by simp), load_store (by simp)]
  · rw [load_store_of_disjoint (by simp), load_store_of_disjoint (by simp),
      load_store_of_disjoint (by simp), load_store_of_disjoint (by simp),
      load_store_of_disjoint (by simp), load_store (by simp)]
  · rw [load_store_of_disjoint (by simp [serialSize]), load_store_of_disjoint (by simp [serialSize]),
      load_store own.serial.length_toList]
  · rw [load_store_of_disjoint (by simp), load_store_of_disjoint (by simp),
      load_store_of_disjoint (by omega), load_store_of_disjoint (by simp),
      load_store (by simp [bytesOfUInt16])]
  · rw [load_store_of_disjoint (by simp), load_store (by simp)]
  · rw [load_store rfl]

/-- Outside the hash the memories agree on all that is sent. -/
def AgreeOnAck (own : Anker) (type : AckType) (mem mem' : Memory UInt8) : Prop :=
  ∀ a < 49 + (ackVersion own type).length, a < 13 ∨ 45 ≤ a → mem a = mem' a

theorem HoldsAck.congr {mem' : Memory UInt8} (h : HoldsAck own type seq mem)
    (hagree : AgreeOnAck own type mem mem') : HoldsAck own type seq mem' := by
  refine ⟨?_, ?_, ?_, ?_, ?_, ?_⟩
  · rw [← h.magic]
    exact load_congr fun a _ ha ↦ (hagree a (by omega) (by omega)).symm
  · rw [← h.typeByte]
    exact load_congr fun a _ ha ↦ (hagree a (by omega) (by omega)).symm
  · rw [← h.serial]
    refine load_congr fun a _ ha ↦ ?_
    simp only [serialSize] at ha
    exact (hagree a (by omega) (by omega)).symm
  · rw [← h.seqBytes]
    exact load_congr fun a _ ha ↦ (hagree a (by omega) (by omega)).symm
  · rw [← h.lengthByte]
    exact load_congr fun a _ ha ↦ (hagree a (by omega) (by omega)).symm
  · refine (load_congr fun a _ ha ↦ ?_).trans h.version
    exact (hagree a (by omega) (by omega)).symm

theorem HoldsAck.toNat_versionLen (h : HoldsAck own type seq mem)
    (hlength : (ackVersion own type).length < maxVersionSize) :
    (mem 48).toNat = (ackVersion own type).length := by
  have hbyte : mem 48 = UInt8.ofNat (ackVersion own type).length := by
    simpa [load] using h.lengthByte
  simp only [maxVersionSize] at hlength
  rw [hbyte, UInt8.toNat_ofNat', Nat.mod_eq_of_lt (by omega)]

/-- The hash does not cover itself. -/
theorem HoldsAck.hashed_congr {mem' : Memory UInt8} (h : HoldsAck own type seq mem)
    (hlength : (ackVersion own type).length < maxVersionSize)
    (hagree : AgreeOnAck own type mem mem') :
    (UpdatePingAck.ofMemory mem).hashed = (UpdatePingAck.ofMemory mem').hashed := by
  have hlen := h.toNat_versionLen hlength
  have hlen' := (h.congr hagree).toNat_versionLen hlength
  rw [UpdatePingAck.hashed_ofMemory, UpdatePingAck.hashed_ofMemory, hlen, hlen']
  congr 1
  · congr 1
    · exact load_congr fun a _ ha ↦ hagree a (by omega) (by omega)
    · exact load_congr fun a _ ha ↦ hagree a (by omega) (by omega)
  · exact load_congr fun a _ ha ↦ hagree a (by omega) (by omega)

/-- A memory that holds the members and their hash is accepted as the ack. -/
theorem HoldsAck.accepted (h : HoldsAck own type seq mem)
    (hlength : (ackVersion own type).length < maxVersionSize)
    (hhash : load mem 13 hashSize =
      (calculateUpdatePingAckHash sha256 (.ofMemory mem)).toList) :
    let m := UpdatePingAck.ofMemory mem
    m.accepted sha256 = true ∧ m.type = type.code ∧ m.serial = own.serial ∧ m.seq = seq ∧
      cString m.terminatedVersion = ackVersion own type := by
  have hmagic : loadVector mem 0 3 = magicBytes := loadVector_eq h.magic
  have hhash' : calculateUpdatePingAckHash sha256 (.ofMemory mem) =
      (UpdatePingAck.ofMemory mem).hash := (loadVector_eq hhash).symm
  have htype : mem 3 = type.code := by simpa [load] using h.typeByte
  have hlen := h.toNat_versionLen hlength
  have hversion : (UpdatePingAck.ofMemory mem).version.take (mem 48).toNat = ackVersion own type := by
    rw [UpdatePingAck.ofMemory, take_load, Nat.min_eq_left (le_max_right _ _), hlen, h.version]
  refine ⟨?_, htype, loadVector_eq h.serial, loadUInt16_eq h.seqBytes, ?_⟩
  · simp only [UpdatePingAck.accepted, Bool.and_eq_true, decide_eq_true_eq]
    exact ⟨hmagic, hhash'⟩
  · have hfits : (UpdatePingAck.ofMemory mem).versionLen.toNat < maxVersionSize := by
      rwa [← hlen] at hlength
    rw [UpdatePingAck.terminatedVersion, if_pos hfits]
    change cString ((UpdatePingAck.ofMemory mem).version.take (mem 48).toNat ++ _) = _
    rw [hversion, cString, List.takeWhile_append_of_pos (by simpa using ackVersion_ne_zero)]
    simp

theorem agreeOnAck_ackStruct (sha256 : Sha256) : AgreeOnAck own type (ackMembers own type seq memory)
    (ackStruct sha256 own type seq memory) := by
  intro a _ ha
  rw [ackStruct]
  rcases ha with ha | ha
  · exact (store_of_lt ha).symm
  · refine (store_of_le ?_).symm
    rwa [Vector.length_toList, hashSize]

/-- What the receiver copies agrees with the struct on all bytes that are
sent. -/
theorem received_sendAck (sha256 : Sha256) (seq : UInt16) (memory response ackInfo : Memory UInt8)
    (hlength : (ackVersion own type).length < maxVersionSize) {a : ℕ}
    (ha : a < 50 + (ackVersion own type).length) :
    copy sizeofUpdatePingAck (store response 0
        ((sendAck sha256 own type seq memory).take responseSize)) ackInfo a =
      ackStruct sha256 own type seq memory a := by
  have hmembers : HoldsAck own type seq (ackMembers own type seq memory) :=
    holdsAck_ackMembers hlength
  have hlen := (hmembers.congr (agreeOnAck_ackStruct sha256)).toNat_versionLen hlength
  simp only [maxVersionSize] at hlength
  have hsent : (sendAck sha256 own type seq memory).take responseSize =
      load (ackStruct sha256 own type seq memory) 0 (50 + (ackVersion own type).length) := by
    rw [sendAck, take_load, hlen, sizeofUpdatePingAck_eq, maxVersionSize, responseSize,
      Nat.min_eq_right (by omega)]
  rw [copy_of_lt (by rw [sizeofUpdatePingAck_eq]; omega), hsent]
  have hcells : a < (load (ackStruct sha256 own type seq memory) 0
      (50 + (ackVersion own type).length)).length := by simpa using ha
  have hstore := @store_add _ response 0 _ a hcells
  rw [Nat.zero_add] at hstore
  rw [hstore]
  simp [load]

/-- Whatever the struct of the sender, the buffer and the struct of the
receiver held before, the ack that is sent is the ack that is received. -/
theorem sendAck_received (sha256 : Sha256) (own : Anker) (type : AckType) (seq : UInt16)
    (memory response ackInfo : Memory UInt8) (hversion : (cString own.version).length ≤ 11) :
    let m := UpdatePingAck.received response ackInfo (sendAck sha256 own type seq memory)
    m.accepted sha256 = true ∧ m.type = type.code ∧ m.serial = own.serial ∧ m.seq = seq ∧
      cString m.terminatedVersion = ackVersion own type := by
  have hlength : (ackVersion own type).length < maxVersionSize := by
    rw [ackVersion]
    split_ifs
    · exact Nat.lt_succ_of_le hversion
    · decide
  have hsame {a : ℕ} := received_sendAck sha256 seq memory response ackInfo hlength (a := a)
  have hstruct : AgreeOnAck own type (ackMembers own type seq memory)
      (copy sizeofUpdatePingAck (store response 0
        ((sendAck sha256 own type seq memory).take responseSize)) ackInfo) := by
    intro a ha hout
    rw [hsame (by omega)]
    exact agreeOnAck_ackStruct sha256 a ha hout
  have hmembers : HoldsAck own type seq (ackMembers own type seq memory) :=
    holdsAck_ackMembers hlength
  apply (hmembers.congr hstruct).accepted hlength
  have hhash : load (ackStruct sha256 own type seq memory) 13 hashSize =
      (calculateUpdatePingAckHash sha256 (.ofMemory (ackMembers own type seq memory))).toList :=
    load_store Vector.length_toList
  have hsameHash := congrArg sha256 (hmembers.hashed_congr hlength hstruct)
  rw [calculateUpdatePingAckHash, hsameHash] at hhash
  rw [calculateUpdatePingAckHash, ← hhash]
  refine load_congr fun a _ ha ↦ hsame ?_
  simp only [hashSize] at ha
  omega

theorem sendAck_received_headHash :
    let own : Anker := ⟨Vector.replicate serialSize 1, [50, 46, 48, 0]⟩
    (cString own.version).length ≤ 11 ∧
      cString (UpdatePingAck.received (fun _ ↦ 7) (fun _ ↦ 9)
        (sendAck headHash own .version 0 fun _ ↦ 8)).terminatedVersion = [50, 46, 48] :=
  ⟨by decide, (sendAck_received headHash ⟨Vector.replicate serialSize 1, [50, 46, 48, 0]⟩ .version 0
    (fun _ ↦ 8) (fun _ ↦ 7) (fun _ ↦ 9) (by decide)).2.2.2.2⟩

end AnkerUpdater
