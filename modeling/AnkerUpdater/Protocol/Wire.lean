import AnkerUpdater.Lib.ByteMemory
import AnkerUpdater.Protocol.Messages

/-!
# The structs in memory

The members of `update_ping_info_t` and `update_ping_ack_t` at their offsets,
what a receiver finds in its struct after `recvfrom` and `memcpy`, and the
bytes that `send_ack` puts on the wire.
-/

namespace AnkerUpdater

open ByteMemory

def updatePingInfoMembers : List Member :=
  [⟨3, 1⟩, ⟨1, 1⟩, ⟨serialSize, 1⟩, ⟨hashSize, 1⟩, ⟨2, 2⟩, ⟨1, 1⟩, ⟨2, 2⟩, ⟨dataMaxLen, 1⟩]

def updatePingAckMembers : List Member :=
  [⟨3, 1⟩, ⟨1, 1⟩, ⟨serialSize, 1⟩, ⟨hashSize, 1⟩, ⟨2, 2⟩, ⟨1, 1⟩, ⟨maxVersionSize, 1⟩]

example : offsets updatePingInfoMembers = [0, 3, 4, 13, 46, 48, 50, 52] := rfl

example : offsets updatePingAckMembers = [0, 3, 4, 13, 46, 48, 49] := rfl

def sizeofUpdatePingInfo : ℕ := sizeof updatePingInfoMembers

def sizeofUpdatePingAck : ℕ := sizeof updatePingAckMembers

theorem sizeofUpdatePingInfo_eq : sizeofUpdatePingInfo = 1452 := rfl

theorem sizeofUpdatePingAck_eq : sizeofUpdatePingAck = 62 := rfl

def loadVector (mem : Memory UInt8) (offset n : ℕ) : Vector UInt8 n :=
  Vector.ofFn fun i ↦ mem (offset + i)

/-- A `uint16_t`, low byte first. -/
def loadUInt16 (mem : Memory UInt8) (offset : ℕ) : UInt16 :=
  (mem offset).toUInt16 + (mem (offset + 1)).toUInt16 <<< 8

def UpdatePingInfo.ofMemory (mem : Memory UInt8) : UpdatePingInfo where
  magic := loadVector mem 0 3
  type := mem 3
  serial := loadVector mem 4 serialSize
  hash := loadVector mem 13 hashSize
  seq := loadUInt16 mem 46
  isLast := mem 48
  dataLen := loadUInt16 mem 50
  data := load mem 52 (max dataMaxLen (loadUInt16 mem 50).toNat)

def UpdatePingAck.ofMemory (mem : Memory UInt8) : UpdatePingAck where
  magic := loadVector mem 0 3
  type := mem 3
  serial := loadVector mem 4 serialSize
  hash := loadVector mem 13 hashSize
  seq := loadUInt16 mem 46
  versionLen := mem 48
  version := load mem 49 (max maxVersionSize (mem 48).toNat)

/-! ## Receiving -/

/-- `recvfrom` into `buffer`, then `memcpy` to a struct in `memory`. -/
def UpdatePingInfo.received (buffer memory : Memory UInt8) (datagram : List UInt8) :
    UpdatePingInfo :=
  .ofMemory (copy sizeofUpdatePingInfo
    (store buffer 0 (datagram.take sizeofUpdatePingInfo)) memory)

/-- `char response[256]`. -/
def responseSize : ℕ := 256

def UpdatePingAck.received (response memory : Memory UInt8) (datagram : List UInt8) :
    UpdatePingAck :=
  .ofMemory (copy sizeofUpdatePingAck (store response 0 (datagram.take responseSize)) memory)

/-! ## Sending -/

/-- The version that an ack of the type carries. -/
def ackVersion (own : Anker) (type : AckType) : List UInt8 :=
  if type = .successUpdate ∨ type = .version then cString own.version else []

/-- What `send_ack` writes to its struct, which was `memory` before, up to
the hash. -/
def ackMembers (own : Anker) (type : AckType) (seq : UInt16) (memory : Memory UInt8) :
    Memory UInt8 :=
  let versionLen := UInt8.ofNat (ackVersion own type).length
  store (store (store (store (store (store memory
    3 [type.code]) 46 (bytesOfUInt16 seq)) 0 magicBytes.toList) 4 own.serial.toList)
    48 [versionLen]) 49 ((ackVersion own type).take versionLen.toNat)

def ackStruct (sha256 : Sha256) (own : Anker) (type : AckType) (seq : UInt16)
    (memory : Memory UInt8) : Memory UInt8 :=
  let filled := ackMembers own type seq memory
  store filled 13 (calculateUpdatePingAckHash sha256 (.ofMemory filled)).toList

/-- The datagram that `send_ack` sends. -/
def sendAck (sha256 : Sha256) (own : Anker) (type : AckType) (seq : UInt16)
    (memory : Memory UInt8) : List UInt8 :=
  let filled := ackStruct sha256 own type seq memory
  load filled 0 (sizeofUpdatePingAck - maxVersionSize + (filled 48).toNat)

/-! ## What the members depend on -/

variable {mem mem' : Memory UInt8} {offset n : ℕ}

theorem toList_loadVector : (loadVector mem offset n).toList = load mem offset n := by
  refine List.ext_getElem (by simp) fun i hi _ ↦ ?_
  simp [loadVector, load]

theorem loadVector_eq {v : Vector UInt8 n} (h : load mem offset n = v.toList) :
    loadVector mem offset n = v :=
  Vector.toList_inj.mp (toList_loadVector.trans h)

theorem loadVector_congr (h : ∀ a, offset ≤ a → a < offset + n → mem a = mem' a) :
    loadVector mem offset n = loadVector mem' offset n :=
  loadVector_eq ((load_congr h).trans toList_loadVector.symm)

theorem bytesOfUInt16_loadUInt16 : bytesOfUInt16 (loadUInt16 mem offset) = load mem offset 2 := by
  have hlow : (mem offset).toNat < 256 := (mem offset).toNat_lt
  have hhigh : (mem (offset + 1)).toNat < 256 := (mem (offset + 1)).toNat_lt
  have hfirst : (loadUInt16 mem offset).toUInt8 = mem offset := by
    apply UInt8.toNat_inj.mp
    simp [loadUInt16, Nat.shiftLeft_eq]
  have hsecond : (loadUInt16 mem offset >>> 8).toUInt8 = mem (offset + 1) := by
    apply UInt8.toNat_inj.mp
    simp [loadUInt16, Nat.shiftLeft_eq, Nat.shiftRight_eq_div_pow]
    omega
  rw [bytesOfUInt16, hfirst, hsecond]
  rfl

theorem loadUInt16_eq {x : UInt16} (h : load mem offset 2 = bytesOfUInt16 x) :
    loadUInt16 mem offset = x :=
  bytesOfUInt16_injective (bytesOfUInt16_loadUInt16.trans h)

theorem loadUInt16_congr (h : ∀ a, offset ≤ a → a < offset + 2 → mem a = mem' a) :
    loadUInt16 mem offset = loadUInt16 mem' offset :=
  loadUInt16_eq ((load_congr h).trans bytesOfUInt16_loadUInt16.symm)

theorem UpdatePingInfo.hashed_ofMemory : (UpdatePingInfo.ofMemory mem).hashed =
    load mem 3 10 ++ load mem 46 3 ++ load mem 50 (2 + (loadUInt16 mem 50).toNat) := by
  have hdata : (load mem 52 (max dataMaxLen (loadUInt16 mem 50).toNat)).take
      (loadUInt16 mem 50).toNat = load mem 52 (loadUInt16 mem 50).toNat := by
    rw [take_load, Nat.min_eq_left (le_max_right _ _)]
  simp only [UpdatePingInfo.hashed, UpdatePingInfo.ofMemory, toList_loadVector,
    bytesOfUInt16_loadUInt16, hdata]
  rw [load_add 9 (n := 1), load_add 1 (n := 2), load_add _ (n := 2)]
  simp [load, serialSize]

theorem UpdatePingAck.hashed_ofMemory : (UpdatePingAck.ofMemory mem).hashed =
    load mem 3 10 ++ load mem 46 3 ++ load mem 49 (mem 48).toNat := by
  have hversion : (load mem 49 (max maxVersionSize (mem 48).toNat)).take (mem 48).toNat =
      load mem 49 (mem 48).toNat := by
    rw [take_load, Nat.min_eq_left (le_max_right _ _)]
  simp only [UpdatePingAck.hashed, UpdatePingAck.ofMemory, toList_loadVector,
    bytesOfUInt16_loadUInt16, hversion]
  rw [load_add 9 (n := 1), load_add 1 (n := 2)]
  simp [load, serialSize]

/-! ## What the hash covers -/

/-- The message up to the last byte that its hash covers. -/
def UpdatePingInfo.covered (m : UpdatePingInfo) : UpdatePingInfo := { m with data := m.payload }

def UpdatePingAck.covered (m : UpdatePingAck) : UpdatePingAck :=
  { m with version := m.version.take m.versionLen.toNat }

theorem UpdatePingInfo.payload_covered (m : UpdatePingInfo) : m.covered.payload = m.payload := by
  simp [covered, payload]

theorem UpdatePingInfo.hashed_covered (m : UpdatePingInfo) : m.covered.hashed = m.hashed := by
  simp [covered, payload, hashed]

theorem UpdatePingAck.hashed_covered (m : UpdatePingAck) : m.covered.hashed = m.hashed := by
  simp [covered, hashed]

theorem UpdatePingInfo.covered_ofMemory_congr
    (h : ∀ a < 52 + (loadUInt16 mem 50).toNat, mem a = mem' a) :
    (ofMemory mem).covered = (ofMemory mem').covered := by
  have hlen : loadUInt16 mem 50 = loadUInt16 mem' 50 :=
    loadUInt16_congr fun a _ ha ↦ h a (by omega)
  have hdata : load mem 52 (loadUInt16 mem 50).toNat = load mem' 52 (loadUInt16 mem 50).toNat :=
    load_congr fun a _ ha ↦ h a ha
  simp only [covered, payload, ofMemory, take_load, Nat.min_eq_left (le_max_right _ _), ← hlen, hdata,
    UpdatePingInfo.mk.injEq, and_true]
  exact ⟨loadVector_congr fun a _ ha ↦ h a (by omega), h 3 (by omega),
    loadVector_congr fun a _ ha ↦ h a (by simp only [serialSize] at ha; omega),
    loadVector_congr fun a _ ha ↦ h a (by simp only [hashSize] at ha; omega),
    loadUInt16_congr fun a _ ha ↦ h a (by omega), h 48 (by omega)⟩

theorem UpdatePingAck.covered_ofMemory_congr (h : ∀ a < 49 + (mem 48).toNat, mem a = mem' a) :
    (ofMemory mem).covered = (ofMemory mem').covered := by
  have hlen : mem 48 = mem' 48 := h 48 (by omega)
  have hversion : load mem 49 (mem 48).toNat = load mem' 49 (mem 48).toNat :=
    load_congr fun a _ ha ↦ h a ha
  simp only [covered, ofMemory, take_load, Nat.min_eq_left (le_max_right _ _), ← hlen, hversion,
    UpdatePingAck.mk.injEq, and_true]
  exact ⟨loadVector_congr fun a _ ha ↦ h a (by omega), h 3 (by omega),
    loadVector_congr fun a _ ha ↦ h a (by simp only [serialSize] at ha; omega),
    loadVector_congr fun a _ ha ↦ h a (by simp only [hashSize] at ha; omega),
    loadUInt16_congr fun a _ ha ↦ h a (by omega)⟩

end AnkerUpdater
