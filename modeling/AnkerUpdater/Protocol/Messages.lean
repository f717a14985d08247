import Mathlib

/-!
# The datagrams of the update protocol

The two structs that C-Anker and P-Ankers exchange, their hashes and the
functions that fill them.  A struct is taken as the receiver sees it after
its `memcpy`: `data` and `version` list the memory from that member on, so
a length field that is too large reads on past the array as the code does.
-/

namespace AnkerUpdater

def serialSize : ℕ := 9

def hashSize : ℕ := 32

def dataMaxLen : ℕ := 1400

def maxVersionSize : ℕ := 12

abbrev Serial := Vector UInt8 serialSize

abbrev Hash := Vector UInt8 hashSize

abbrev Sha256 := List UInt8 → Hash

/-- A hash for concrete runs: the first bytes of the message. -/
def headHash : Sha256 := fun bytes ↦ Vector.ofFn fun i ↦ bytes.getD i 0

/-- What `api_get_serial_number` and `api_get_version` return on a device. -/
structure Anker where
  serial : Serial
  version : List UInt8

inductive AckType where
  | hashError
  | seqError
  | generalError
  | kickFromUpdate
  | version
  | rcvdBinaryData
  | apJoin
  | successUpdate
  | failUpdate
  deriving DecidableEq, Repr

def AckType.code : AckType → UInt8
  | .hashError => 0
  | .seqError => 1
  | .generalError => 2
  | .kickFromUpdate => 3
  | .version => 4
  | .rcvdBinaryData => 5
  | .apJoin => 6
  | .successUpdate => 7
  | .failUpdate => 8

theorem AckType.code_injective : Function.Injective AckType.code := by
  intro a b h
  cases a <;> cases b <;> first | rfl | exact absurd h (by decide)

inductive UpdatePingType where
  | getVersion
  | connectToAp
  | sendFirmwareData
  | getUpdateVersionAck
  deriving DecidableEq, Repr

def UpdatePingType.code : UpdatePingType → UInt8
  | .getVersion => 0
  | .connectToAp => 1
  | .sendFirmwareData => 2
  | .getUpdateVersionAck => 3

structure UpdatePingInfo where
  magic : Vector UInt8 3
  type : UInt8
  serial : Serial
  hash : Hash
  seq : UInt16
  isLast : UInt8
  dataLen : UInt16
  data : List UInt8
  deriving DecidableEq

structure UpdatePingAck where
  magic : Vector UInt8 3
  type : UInt8
  serial : Serial
  hash : Hash
  seq : UInt16
  versionLen : UInt8
  version : List UInt8
  deriving DecidableEq

def magicBytes : Vector UInt8 3 := #v[0x41, 0x4E, 0x4B]

/-- The two bytes of a `uint16_t` in memory, low byte first. -/
def bytesOfUInt16 (x : UInt16) : List UInt8 := [x.toUInt8, (x >>> 8).toUInt8]

/-- The bytes that `calculate_update_ping_info_hash` feeds to the hash. -/
def UpdatePingInfo.hashed (m : UpdatePingInfo) : List UInt8 :=
  [m.type] ++ m.serial.toList ++ bytesOfUInt16 m.seq ++ [m.isLast] ++
    bytesOfUInt16 m.dataLen ++ m.data.take m.dataLen.toNat

def UpdatePingAck.hashed (m : UpdatePingAck) : List UInt8 :=
  [m.type] ++ m.serial.toList ++ bytesOfUInt16 m.seq ++ [m.versionLen] ++
    m.version.take m.versionLen.toNat

def calculateUpdatePingInfoHash (sha256 : Sha256) (m : UpdatePingInfo) : Hash :=
  sha256 m.hashed

def calculateUpdatePingAckHash (sha256 : Sha256) (m : UpdatePingAck) : Hash :=
  sha256 m.hashed

def UpdatePingInfo.payload (m : UpdatePingInfo) : List UInt8 :=
  m.data.take m.dataLen.toNat

/-- The datagram that `send_update_ping_info_broadcast` sends for `type`;
only firmware data carries a sequence number and data. -/
def updatePingInfo (sha256 : Sha256) (own : Anker) (type : UpdatePingType) (seq : UInt16)
    (isLast : Bool) (data : List UInt8) (dataLen : UInt16) : UpdatePingInfo :=
  let m : UpdatePingInfo :=
    if type = .sendFirmwareData then
      ⟨magicBytes, type.code, own.serial, Vector.replicate hashSize 0, seq,
        if isLast then 1 else 0, dataLen, data⟩
    else
      ⟨magicBytes, type.code, own.serial, Vector.replicate hashSize 0, 0, 0, 0, []⟩
  { m with hash := calculateUpdatePingInfoHash sha256 m }

def cString (bytes : List UInt8) : List UInt8 := bytes.takeWhile (· ≠ 0)

/-- `strncmp(a, b, n) == 0`. -/
def strncmpEq (a b : List UInt8) (n : ℕ) : Bool := cString (a.take n) = cString (b.take n)

/-- The datagram that `send_ack` sends; only two types carry the version. -/
def ackInfo (sha256 : Sha256) (own : Anker) (type : AckType) (seq : UInt16) : UpdatePingAck :=
  let version := if type = .successUpdate ∨ type = .version then cString own.version else []
  let m : UpdatePingAck :=
    ⟨magicBytes, type.code, own.serial, Vector.replicate hashSize 0, seq,
      UInt8.ofNat version.length, version⟩
  { m with hash := calculateUpdatePingAckHash sha256 m }

/-- The receivers' checks of magic bytes and hash. -/
def UpdatePingInfo.accepted (sha256 : Sha256) (m : UpdatePingInfo) : Bool :=
  m.magic = magicBytes && calculateUpdatePingInfoHash sha256 m = m.hash

def UpdatePingAck.accepted (sha256 : Sha256) (m : UpdatePingAck) : Bool :=
  m.magic = magicBytes && calculateUpdatePingAckHash sha256 m = m.hash

def UpdatePingInfo.acceptedFirmware (sha256 : Sha256) (m : UpdatePingInfo) : Prop :=
  m.accepted sha256 = true ∧ m.type = UpdatePingType.sendFirmwareData.code

theorem bytesOfUInt16_injective : Function.Injective bytesOfUInt16 := by
  intro x y h
  obtain ⟨hlow, hhigh, -⟩ : x.toUInt8 = y.toUInt8 ∧ (x >>> 8).toUInt8 = (y >>> 8).toUInt8 ∧
      True := by simpa [bytesOfUInt16] using h
  have hl : x.toNat % 256 = y.toNat % 256 := by simpa using congrArg UInt8.toNat hlow
  have hh : x.toNat / 256 % 256 = y.toNat / 256 % 256 := by
    simpa [Nat.shiftRight_eq_div_pow] using congrArg UInt8.toNat hhigh
  have hx : x.toNat < 65536 := x.toNat_lt
  have hy : y.toNat < 65536 := y.toNat_lt
  apply UInt16.toNat_inj.mp
  omega

/-- The fields that the hash of a datagram covers. -/
structure UpdatePingInfo.SameFields (m m' : UpdatePingInfo) : Prop where
  type : m.type = m'.type
  serial : m.serial = m'.serial
  seq : m.seq = m'.seq
  isLast : m.isLast = m'.isLast
  dataLen : m.dataLen = m'.dataLen
  payload : m.payload = m'.payload

structure UpdatePingAck.SameFields (m m' : UpdatePingAck) : Prop where
  type : m.type = m'.type
  serial : m.serial = m'.serial
  seq : m.seq = m'.seq
  versionLen : m.versionLen = m'.versionLen
  version : m.version.take m.versionLen.toNat = m'.version.take m'.versionLen.toNat

/-- The hashed bytes can be read back: everything before the data has a
fixed length. -/
theorem UpdatePingInfo.sameFields_of_hashed {m m' : UpdatePingInfo} (h : m.hashed = m'.hashed) :
    m.SameFields m' := by
  simp only [UpdatePingInfo.hashed, List.append_assoc] at h
  obtain ⟨htype, h⟩ := List.append_inj h rfl
  obtain ⟨hserial, h⟩ := List.append_inj h (by simp)
  obtain ⟨hseq, h⟩ := List.append_inj h rfl
  obtain ⟨hlast, h⟩ := List.append_inj h rfl
  obtain ⟨hlen, hdata⟩ := List.append_inj h rfl
  exact ⟨by simpa using htype, Vector.toList_inj.mp hserial, bytesOfUInt16_injective hseq,
    by simpa using hlast, bytesOfUInt16_injective hlen, hdata⟩

theorem UpdatePingAck.sameFields_of_hashed {m m' : UpdatePingAck} (h : m.hashed = m'.hashed) :
    m.SameFields m' := by
  simp only [UpdatePingAck.hashed, List.append_assoc] at h
  obtain ⟨htype, h⟩ := List.append_inj h rfl
  obtain ⟨hserial, h⟩ := List.append_inj h (by simp)
  obtain ⟨hseq, h⟩ := List.append_inj h rfl
  obtain ⟨hlen, hversion⟩ := List.append_inj h rfl
  exact ⟨by simpa using htype, Vector.toList_inj.mp hserial, bytesOfUInt16_injective hseq,
    by simpa using hlen, hversion⟩

theorem UpdatePingInfo.hash_of_accepted {sha256 : Sha256} {m : UpdatePingInfo}
    (h : m.accepted sha256 = true) : calculateUpdatePingInfoHash sha256 m = m.hash := by
  simp only [UpdatePingInfo.accepted, Bool.and_eq_true, decide_eq_true_eq] at h
  exact h.2

theorem UpdatePingAck.hash_of_accepted {sha256 : Sha256} {m : UpdatePingAck}
    (h : m.accepted sha256 = true) : calculateUpdatePingAckHash sha256 m = m.hash := by
  simp only [UpdatePingAck.accepted, Bool.and_eq_true, decide_eq_true_eq] at h
  exact h.2

/-- Without a collision among the byte strings `messages`, equal hashes come
from equal fields, and no message with other fields under the hash of an
accepted one is accepted. -/
theorem sameFields_of_hash (sha256 : Sha256) (messages : Set (List UInt8))
    (hfree : Set.InjOn sha256 messages) :
    (∀ m m' : UpdatePingInfo, m.hashed ∈ messages → m'.hashed ∈ messages →
      (calculateUpdatePingInfoHash sha256 m = calculateUpdatePingInfoHash sha256 m' →
        m.SameFields m') ∧
      (m.accepted sha256 = true → m'.accepted sha256 = true → m'.hash = m.hash →
        m.SameFields m')) ∧
    ∀ m m' : UpdatePingAck, m.hashed ∈ messages → m'.hashed ∈ messages →
      (calculateUpdatePingAckHash sha256 m = calculateUpdatePingAckHash sha256 m' →
        m.SameFields m') ∧
      (m.accepted sha256 = true → m'.accepted sha256 = true → m'.hash = m.hash →
        m.SameFields m') := by
  constructor
  · intro m m' hm hm'
    have hpin : calculateUpdatePingInfoHash sha256 m = calculateUpdatePingInfoHash sha256 m' →
        m.SameFields m' := fun h ↦ UpdatePingInfo.sameFields_of_hashed (hfree hm hm' h)
    refine ⟨hpin, fun haccepted haccepted' hhash ↦ hpin ?_⟩
    rw [UpdatePingInfo.hash_of_accepted haccepted, UpdatePingInfo.hash_of_accepted haccepted', hhash]
  · intro m m' hm hm'
    have hpin : calculateUpdatePingAckHash sha256 m = calculateUpdatePingAckHash sha256 m' →
        m.SameFields m' := fun h ↦ UpdatePingAck.sameFields_of_hashed (hfree hm hm' h)
    refine ⟨hpin, fun haccepted haccepted' hhash ↦ hpin ?_⟩
    rw [UpdatePingAck.hash_of_accepted haccepted, UpdatePingAck.hash_of_accepted haccepted', hhash]

/-- Two acks that differ in the last byte of the version only. -/
def twoVersions (last : UInt8) : UpdatePingAck :=
  ackInfo headHash ⟨Vector.replicate serialSize 1, [50, last]⟩ .version 0

theorem sameFields_of_hash_twoVersions :
    Set.InjOn headHash {(twoVersions 49).hashed, (twoVersions 50).hashed} ∧
      calculateUpdatePingAckHash headHash (twoVersions 49) ≠
        calculateUpdatePingAckHash headHash (twoVersions 50) := by
  have hfree : Set.InjOn headHash {(twoVersions 49).hashed, (twoVersions 50).hashed} := by
    rintro x (rfl | rfl) y (rfl | rfl) h
    · rfl
    · exact absurd h (by decide)
    · exact absurd h (by decide)
    · rfl
  refine ⟨hfree, fun h ↦ ?_⟩
  have hfields := ((sameFields_of_hash headHash _ hfree).2 (twoVersions 49) (twoVersions 50)
    (by simp) (by simp)).1 h
  exact absurd hfields.version (by decide)

section Sent

variable (sha256 : Sha256) (own : Anker)

@[simp] theorem ackInfo_type (type : AckType) (seq : UInt16) :
    (ackInfo sha256 own type seq).type = type.code := rfl

@[simp] theorem ackInfo_serial (type : AckType) (seq : UInt16) :
    (ackInfo sha256 own type seq).serial = own.serial := rfl

@[simp] theorem ackInfo_seq (type : AckType) (seq : UInt16) :
    (ackInfo sha256 own type seq).seq = seq := rfl

@[simp] theorem ackInfo_accepted (type : AckType) (seq : UInt16) :
    (ackInfo sha256 own type seq).accepted sha256 = true := by
  simp [UpdatePingAck.accepted, ackInfo, calculateUpdatePingAckHash, UpdatePingAck.hashed]

variable (seq : UInt16) (isLast : Bool) (data : List UInt8) (dataLen : UInt16)

@[simp] theorem firmwareInfo_type :
    (updatePingInfo sha256 own .sendFirmwareData seq isLast data dataLen).type =
      UpdatePingType.sendFirmwareData.code := rfl

@[simp] theorem updatePingInfo_accepted (type : UpdatePingType) :
    (updatePingInfo sha256 own type seq isLast data dataLen).accepted sha256 = true := by
  cases type <;>
    simp [UpdatePingInfo.accepted, updatePingInfo, calculateUpdatePingInfoHash,
      UpdatePingInfo.hashed]

@[simp] theorem firmwareInfo_seq :
    (updatePingInfo sha256 own .sendFirmwareData seq isLast data dataLen).seq = seq := rfl

@[simp] theorem firmwareInfo_isLast :
    (updatePingInfo sha256 own .sendFirmwareData seq isLast data dataLen).isLast =
      if isLast then 1 else 0 := rfl

@[simp] theorem firmwareInfo_payload :
    (updatePingInfo sha256 own .sendFirmwareData seq isLast data dataLen).payload =
      data.take dataLen.toNat := rfl

end Sent

end AnkerUpdater
