import AnkerUpdater.Protocol.Receiver
import AnkerUpdater.Protocol.Wire
import AnkerUpdater.Storage.ReadFile

/-!
# The update status of a P-Anker

`p_anker_update_info_t` as it lies in `update.stat`, and what `updater_start`
makes of the file on its first call after power on.
-/

namespace AnkerUpdater

open AtomicFiles ByteMemory Storage

/-- `p_anker_update_info_t`; the padding after the serial is what the memory
held before. -/
structure PAnkerUpdateInfo where
  status : UInt32
  serial : Serial
  padding : Vector UInt8 3
  deriving DecidableEq

def updateStatusDownloading : UInt32 := 0

def updateStatusInstalled : UInt32 := 1

def sizeofPAnkerUpdateInfo : ℕ := sizeof [⟨4, 4⟩, ⟨serialSize, 1⟩]

example : sizeofPAnkerUpdateInfo = 16 := rfl

/-- The four bytes of an enum in memory, low byte first. -/
def bytesOfUInt32 (x : UInt32) : List UInt8 :=
  [x.toUInt8, (x >>> 8).toUInt8, (x >>> 16).toUInt8, (x >>> 24).toUInt8]

def uint32OfBytes (bytes : List UInt8) : UInt32 :=
  UInt32.ofNat ((bytes.getD 0 0).toNat + 256 * (bytes.getD 1 0).toNat +
    65536 * (bytes.getD 2 0).toNat + 16777216 * (bytes.getD 3 0).toNat)

namespace PAnkerUpdateInfo

def bytes (info : PAnkerUpdateInfo) : List UInt8 :=
  bytesOfUInt32 info.status ++ info.serial.toList ++ info.padding.toList

/-- The struct after a read of `bytes`, unless their number is wrong. -/
def ofBytes (bytes : List UInt8) : Option PAnkerUpdateInfo :=
  if bytes.length ≠ sizeofPAnkerUpdateInfo then none
  else some ⟨uint32OfBytes bytes, Vector.ofFn fun i ↦ bytes.getD (4 + i) 0,
    Vector.ofFn fun i ↦ bytes.getD (4 + serialSize + i) 0⟩

end PAnkerUpdateInfo

theorem uint32OfBytes_append (x : UInt32) (rest : List UInt8) :
    uint32OfBytes (bytesOfUInt32 x ++ rest) = x := by
  apply UInt32.toNat_inj.mp
  have hlt : x.toNat < 4294967296 := x.toNat_lt
  have hbyte : ∀ k : ℕ, x.toNat >>> k = x.toNat / 2 ^ k := fun k ↦ Nat.shiftRight_eq_div_pow _ k
  simp [uint32OfBytes, bytesOfUInt32, hbyte]
  omega

/-- A vector that lies among other bytes. -/
theorem ofFn_getD_append {n : ℕ} (before : List UInt8) (v : Vector UInt8 n)
    (after : List UInt8) :
    (Vector.ofFn fun i : Fin n ↦ (before ++ (v.toList ++ after)).getD (before.length + i) 0) =
      v := by
  refine Vector.ext fun i hi ↦ ?_
  have hv : i < v.toList.length := by rwa [Vector.length_toList]
  rw [Vector.getElem_ofFn, List.getD_append_right _ _ _ _ (Nat.le_add_right _ _),
    Nat.add_sub_cancel_left, List.getD_append _ _ _ _ hv, List.getD_eq_getElem _ _ hv,
    Vector.getElem_toList]

namespace PAnkerUpdateInfo

variable (info : PAnkerUpdateInfo)

@[simp] theorem length_bytes : info.bytes.length = sizeofPAnkerUpdateInfo := by
  have hserial : info.serial.toList.length = 9 := Vector.length_toList
  simp only [bytes, bytesOfUInt32, List.length_append, hserial, Vector.length_toList]
  rfl

/-- What is written is read back. -/
theorem ofBytes_bytes : ofBytes info.bytes = some info := by
  have hbytes : info.bytes = bytesOfUInt32 info.status ++
      (info.serial.toList ++ info.padding.toList) := List.append_assoc _ _ _
  have hpadded : info.bytes = (bytesOfUInt32 info.status ++ info.serial.toList) ++
      (info.padding.toList ++ []) := by rw [List.append_nil, bytes]
  have hlength : (bytesOfUInt32 info.status ++ info.serial.toList).length = 4 + serialSize := by
    rw [List.length_append, Vector.length_toList]
    rfl
  have hserial := ofFn_getD_append (bytesOfUInt32 info.status) info.serial info.padding.toList
  have hpadding := ofFn_getD_append (bytesOfUInt32 info.status ++ info.serial.toList)
    info.padding []
  rw [← hbytes, show (bytesOfUInt32 info.status).length = 4 from rfl] at hserial
  rw [← hpadded, hlength] at hpadding
  rw [ofBytes, if_neg (not_not.mpr info.length_bytes)]
  rw [hserial, hpadding, hbytes, uint32OfBytes_append]

theorem length_of_ofBytes {info : PAnkerUpdateInfo} {bytes : List UInt8}
    (h : ofBytes bytes = some info) : bytes.length = sizeofPAnkerUpdateInfo := by
  by_contra hne
  rw [ofBytes, if_pos hne] at h
  exact absurd h (by simp)

end PAnkerUpdateInfo

/-! ## The first call of `updater_start` -/

/-- P_ANKER_UPDATE_STATUS, "update.stat" -/
def pAnkerUpdateStatus : FileName :=
  ⟨[0x75, 0x70, 0x64, 0x61, 0x74, 0x65, 0x2e, 0x73, 0x74, 0x61, 0x74], by decide⟩

/-- DATASTORAGE_READ_BINARY_DATA -/
def readBinaryData : ℕ := 1

/-- What `esp_ota_get_state_partition` comes to. -/
inductive StateQuery where
  | notSupported
  | failed
  | state (image : ImgState)
  deriving DecidableEq

/-- The results of the library and file calls; that of
`esp_ota_mark_app_valid_cancel_rollback` is only logged. -/
structure StartEnv where
  statePartition : StateQuery
  check : CheckEnv
  read : ReadEnv
  erase : EraseEnv

/-- The calls that can change files, and the serial of the C-Anker whose
access point the P-Anker is to join.  Without one it goes into poll mode. -/
def startFromRecord (E : StartEnv) (disk : Disk) : List Call × Option Serial :=
  if E.statePartition = .failed then ([], none)
  else
    let check : Call := .checkExistence (some pAnkerUpdateStatus) E.check
    if check.result disk ≠ (.ok, some true) then ([check], none)
    else
      match readDataFromFile (some pAnkerUpdateStatus) readBinaryData sizeofPAnkerUpdateInfo
          E.read (Storage.step disk (.returns check)) with
      | (.ok, some bytes) =>
          match PAnkerUpdateInfo.ofBytes bytes with
          | none => ([check], none)
          | some info =>
              if info.status = updateStatusInstalled then ([check], some info.serial)
              else ([check, .erase (some pAnkerUpdateStatus) E.erase], none)
      | _ => ([check], none)

/-- The file holds the record that an update from this C-Anker is installed. -/
def InstalledRecord (disk : Disk) (serial : Serial) : Prop :=
  ∃ content info, disk pAnkerUpdateStatus = some content ∧
    PAnkerUpdateInfo.ofBytes (content.take sizeofPAnkerUpdateInfo) = some info ∧
    info.status = updateStatusInstalled ∧ info.serial = serial

theorem separate_pAnkerUpdateStatus : Separate FileName.temp {pAnkerUpdateStatus} := by
  rintro a rfl b rfl
  decide

/-- A check of the existence cannot be seen. -/
theorem step_check (E : CheckEnv) (disk : Disk) :
    Storage.step disk (.returns (.checkExistence (some pAnkerUpdateStatus) E))
      pAnkerUpdateStatus = disk pAnkerUpdateStatus :=
  OnTemp.eqOn separate_pAnkerUpdateStatus rfl
    (onTemp_checkFileExistence pAnkerUpdateStatus E disk) disk rfl

end AnkerUpdater
