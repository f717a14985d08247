import AnkerUpdater.Lib.ByteMemory
import AnkerUpdater.Protocol.Messages

/-!
# The access point of a C-Anker

`calculate_c_anker_ap_ssid_and_password` derives both names from the serial,
character by character in four passes.  Two characters that fall on
different sides of the six signs between `Z` and `a` can become the same.
-/

namespace AnkerUpdater

open ByteMemory

def apSsidSize : ℕ := 32

def apPasswordSize : ℕ := 32

/-- `x` is `serial[j] + i + j`.  The last branch would take what lies
above `z` to the digits. -/
def ssidChar (x : ℕ) : ℕ :=
  let c := x % 58 + 65
  let c := if 91 ≤ c ∧ c ≤ 96 then c + 6 else c
  if 123 ≤ c then 48 + (c - 123) else c

def passwordChar (x : ℕ) : ℕ :=
  let c := (x + 40) % 90
  if 40 ≤ c ∧ c ≤ 59 then c
  else if 65 ≤ c ∧ c ≤ 90 then c
  else if 97 ≤ c ∧ c ≤ 122 then c
  else 40 + x % 20

/-- The values of `i` and `j` for which the double loop comes to its end. -/
def loopSteps : List (ℕ × ℕ) :=
  (List.range 4).flatMap fun i ↦
    ((List.range (serialSize - 1)).takeWhile fun j ↦ ¬(i = 3 ∧ j = serialSize - 2)).map fun j ↦
      (i, j)

/-- The writes to one of the two buffers of 32 characters. -/
def bufferWrites (char : ℕ → ℕ) (serial : Serial) : List (ℕ × UInt8) :=
  (loopSteps.map fun s ↦ (s.2 + (serialSize - 1) * s.1,
    UInt8.ofNat (char ((serial.toList.getD s.2 0).toNat + s.1 + s.2)))) ++ [(apSsidSize - 1, 0)]

def applyWrites (writes : List (ℕ × UInt8)) (buffer : Memory UInt8) : Memory UInt8 :=
  writes.foldl (fun buffer w ↦ store buffer w.1 [w.2]) buffer

/-- What `ssid` and `password` hold afterwards. -/
def calculateCAnkerApSsidAndPassword (serial : Serial) (ssid password : Memory UInt8) :
    Memory UInt8 × Memory UInt8 :=
  (applyWrites (bufferWrites ssidChar serial) ssid,
    applyWrites (bufferWrites passwordChar serial) password)

/-- The SSID as a string. -/
def apSsid (serial : Serial) (ssid password : Memory UInt8) : List UInt8 :=
  cString (load (calculateCAnkerApSsidAndPassword serial ssid password).1 0 apSsidSize)

/-- Eight digits and capitals. -/
structure SerialNumber where
  chars : Vector UInt8 (serialSize - 1)
  alnum : ∀ c ∈ chars.toList, (48 ≤ c.toNat ∧ c.toNat ≤ 57) ∨ (65 ≤ c.toNat ∧ c.toNat ≤ 90)

def SerialNumber.serial (s : SerialNumber) : Serial := s.chars.push 0

/-! ## The characters of an SSID -/

theorem ssidChar_eq (x : ℕ) :
    ssidChar x = if 26 ≤ x % 58 ∧ x % 58 ≤ 31 then x % 58 + 71 else x % 58 + 65 := by
  simp only [ssidChar]
  split_ifs <;> omega

theorem ssidChar_lt (x : ℕ) : ssidChar x < 123 := by
  rw [ssidChar_eq]
  split_ifs <;> omega

theorem ssidChar_pos (x : ℕ) : 65 ≤ ssidChar x := by
  rw [ssidChar_eq]
  split_ifs <;> omega

/-- The two sums are six apart, the smaller between `Z` and `a`. -/
def Folds (x y : ℕ) : Prop := 26 ≤ x % 58 ∧ x % 58 ≤ 31 ∧ y % 58 = x % 58 + 6

theorem ssidChar_eq_iff {x y : ℕ} :
    ssidChar x = ssidChar y ↔ x % 58 = y % 58 ∨ Folds x y ∨ Folds y x := by
  unfold Folds
  rw [ssidChar_eq, ssidChar_eq]
  split_ifs <;> omega

theorem loopSteps_eq : loopSteps = (List.range 31).map fun k ↦ (k / 8, k % 8) := by decide

/-- The character at position `k` of a buffer. -/
def charAt (char : ℕ → ℕ) (serial : Serial) (k : ℕ) : UInt8 :=
  UInt8.ofNat (char ((serial.toList.getD (k % 8) 0).toNat + k / 8 + k % 8))

theorem bufferWrites_eq (char : ℕ → ℕ) (serial : Serial) :
    bufferWrites char serial =
      (List.range 31).map (fun k ↦ (k, charAt char serial k)) ++ [(apSsidSize - 1, 0)] := by
  rw [bufferWrites, loopSteps_eq, List.map_map]
  refine congrArg (· ++ _) (List.map_congr_left fun k _ ↦ ?_)
  have hindex : k % 8 + (serialSize - 1) * (k / 8) = k := Nat.mod_add_div k 8
  simp only [Function.comp_apply, hindex]
  rfl

/-- The writes leave one string in the buffer. -/
theorem applyWrites_bufferWrites (char : ℕ → ℕ) (serial : Serial) (buffer : Memory UInt8) :
    applyWrites (bufferWrites char serial) buffer =
      store buffer 0 ((List.range 31).map (charAt char serial) ++ [0]) := by
  rw [applyWrites, bufferWrites_eq, List.foldl_append, List.foldl_map, foldl_store_range,
    store_append]
  simp [apSsidSize]

theorem charAt_ssidChar_ne_zero (serial : Serial) (k : ℕ) : charAt ssidChar serial k ≠ 0 := by
  have hlt := ssidChar_lt ((serial.toList.getD (k % 8) 0).toNat + k / 8 + k % 8)
  have hpos := ssidChar_pos ((serial.toList.getD (k % 8) 0).toNat + k / 8 + k % 8)
  intro hzero
  have hnat := congrArg UInt8.toNat hzero
  rw [charAt, UInt8.toNat_ofNat', Nat.mod_eq_of_lt (by omega)] at hnat
  have h0 : (0 : UInt8).toNat = 0 := rfl
  omega

/-- All 31 characters of a buffer belong to its string. -/
theorem cString_filled {char : ℕ → ℕ} {serial : Serial} (hne : ∀ k, charAt char serial k ≠ 0)
    (buffer : Memory UInt8) :
    cString (load (applyWrites (bufferWrites char serial) buffer) 0 32) =
      (List.range 31).map (charAt char serial) := by
  rw [applyWrites_bufferWrites, load_store (by simp), cString, List.takeWhile_append_of_pos]
  · simp
  · intro c hc
    obtain ⟨k, -, rfl⟩ := List.mem_map.mp hc
    simpa using hne k

theorem apSsid_eq (serial : Serial) (ssid password : Memory UInt8) :
    apSsid serial ssid password = (List.range 31).map (charAt ssidChar serial) :=
  cString_filled (charAt_ssidChar_ne_zero serial) ssid

/-! ## Serials with the same SSID -/

/-- At position `j` the two characters become the same in every pass: they
are six apart, and every pass leaves the smaller between `Z` and `a`.  The
last position has no fourth pass. -/
def BecomeSame (j c d : ℕ) : Prop :=
  d = c + 6 ∧ 84 ≤ c + j ∧ c + j ≤ if j = 7 then 87 else 86

def SerialNumber.char (s : SerialNumber) (j : Fin 8) : ℕ := (s.chars.get j).toNat

theorem SerialNumber.char_bounds (s : SerialNumber) (j : Fin 8) :
    48 ≤ s.char j ∧ s.char j ≤ 90 := by
  rcases s.alnum (s.chars.get j) (by simp [Vector.get]) with h | h <;>
    exact ⟨by unfold char; omega, by unfold char; omega⟩

theorem SerialNumber.charAt_serial (char : ℕ → ℕ) (s : SerialNumber) (i : ℕ) (j : Fin 8) :
    charAt char s.serial (j + 8 * i) = UInt8.ofNat (char (s.char j + i + j)) := by
  have hj := j.isLt
  have hmod : (j + 8 * i) % 8 = j := by omega
  have hdiv : (j + 8 * i) / 8 = i := by omega
  have hchar : s.serial.toList.getD j 0 = s.chars.get j := by
    have hlen : (j : ℕ) < s.chars.toList.length := by
      rw [Vector.length_toList]
      exact hj
    have hlist : s.serial.toList = s.chars.toList ++ [0] := Vector.toList_push
    rw [hlist, List.getD_append _ _ _ _ hlen, List.getD_eq_getElem _ _ hlen]
    rfl
  rw [charAt, hmod, hdiv, hchar, SerialNumber.char]

theorem ofNat_ssidChar_inj {x y : ℕ} (h : UInt8.ofNat (ssidChar x) = UInt8.ofNat (ssidChar y)) :
    ssidChar x = ssidChar y := by
  have hx := ssidChar_lt x
  have hy := ssidChar_lt y
  have hnat := congrArg UInt8.toNat h
  rwa [UInt8.toNat_ofNat', UInt8.toNat_ofNat', Nat.mod_eq_of_lt (by omega),
    Nat.mod_eq_of_lt (by omega)] at hnat

/-- The passes that come to position `j`. -/
def passes (j : Fin 8) : ℕ := if (j : ℕ) = 7 then 3 else 4

theorem becomeSame_iff {c d : ℕ} (j : Fin 8) (hc : 48 ≤ c ∧ c ≤ 90) (hd : 48 ≤ d ∧ d ≤ 90) :
    (∀ i < passes j, ssidChar (c + i + j) = ssidChar (d + i + j)) ↔
      c = d ∨ BecomeSame j c d ∨ BecomeSame j d c := by
  simp only [ssidChar_eq_iff]
  unfold passes BecomeSame Folds
  constructor
  · intro h
    have hfirst := h 0 (by split_ifs <;> omega)
    have hlast := h (if (j : ℕ) = 7 then 2 else 3) (by split_ifs <;> omega)
    split_ifs at hlast ⊢ <;> omega
  · intro h i hi
    split_ifs at h hi <;> omega

theorem apSsid_eq_iff (s s' : SerialNumber) (ssid password ssid' password' : Memory UInt8) :
    apSsid s.serial ssid password = apSsid s'.serial ssid' password' ↔
      ∀ j : Fin 8, s.char j = s'.char j ∨ BecomeSame j (s.char j) (s'.char j) ∨
        BecomeSame j (s'.char j) (s.char j) := by
  rw [apSsid_eq, apSsid_eq, List.map_inj_left]
  constructor
  · intro h j
    apply (becomeSame_iff j (s.char_bounds j) (s'.char_bounds j)).mp
    intro i hi
    have hk : (j : ℕ) + 8 * i < 31 := by
      have hj := j.isLt
      rw [passes] at hi
      split_ifs at hi <;> omega
    have hchar := h (j + 8 * i) (List.mem_range.mpr hk)
    rw [SerialNumber.charAt_serial, SerialNumber.charAt_serial] at hchar
    exact ofNat_ssidChar_inj hchar
  · intro h k hk
    have hk : k < 31 := List.mem_range.mp hk
    let j : Fin 8 := ⟨k % 8, Nat.mod_lt _ (by decide)⟩
    have hi : k / 8 < passes j := by
      change k / 8 < if k % 8 = 7 then 3 else 4
      split_ifs <;> omega
    have hchar := (becomeSame_iff j (s.char_bounds j) (s'.char_bounds j)).mpr (h j) _ hi
    have hs := s.charAt_serial ssidChar (k / 8) j
    have hs' := s'.charAt_serial ssidChar (k / 8) j
    have hindex : (j : ℕ) + 8 * (k / 8) = k := Nat.mod_add_div k 8
    rw [hindex] at hs hs'
    rw [hs, hs', hchar]

/-- Two serials have different SSIDs exactly if they differ at a position
where the characters do not become the same. -/
theorem apSsid_ne_iff (s s' : SerialNumber) (ssid password ssid' password' : Memory UInt8) :
    apSsid s.serial ssid password ≠ apSsid s'.serial ssid' password' ↔
      ∃ j : Fin 8, s.char j ≠ s'.char j ∧ ¬BecomeSame j (s.char j) (s'.char j) ∧
        ¬BecomeSame j (s'.char j) (s.char j) := by
  rw [ne_eq, apSsid_eq_iff, not_forall]
  simp only [not_or]

def serialT : SerialNumber := ⟨#v[84, 65, 65, 65, 65, 65, 65, 65], by decide +kernel⟩

def serialZ : SerialNumber := ⟨#v[90, 65, 65, 65, 65, 65, 65, 65], by decide +kernel⟩

theorem apSsid_serialT_serialZ : serialT.serial ≠ serialZ.serial ∧
    apSsid serialT.serial (fun _ ↦ 0) (fun _ ↦ 0) =
      apSsid serialZ.serial (fun _ ↦ 0) (fun _ ↦ 0) := by
  constructor <;> decide +kernel

end AnkerUpdater
