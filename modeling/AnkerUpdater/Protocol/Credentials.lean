import AnkerUpdater.Protocol.AccessPoint
import AnkerUpdater.Wifi.Handling

/-!
# Usable credentials

The double loop of `calculate_c_anker_ap_ssid_and_password` goes through the
first 31 places of both buffers in order.  What it writes there are signs
that `wifi_create_ap` and `change_config` take for a name and a password,
and the password tells apart the serials whose SSIDs are the same.
-/

namespace AnkerUpdater

open ByteMemory

/-- The password as a string. -/
def apPassword (serial : Serial) (ssid password : Memory UInt8) : List UInt8 :=
  cString (load (calculateCAnkerApSsidAndPassword serial ssid password).2 0 apPasswordSize)

/-- Every place is written once, in order. -/
theorem bufferWrites_places (char : ℕ → ℕ) (serial : Serial) :
    (bufferWrites char serial).map Prod.fst = List.range 32 := by
  have hlast : List.range 32 = List.range 31 ++ [31] := List.range_succ
  rw [bufferWrites_eq, List.map_append, List.map_map, hlast]
  simp [Function.comp_def, apSsidSize]

/-! ## The characters -/

theorem ssidChar_letter (x : ℕ) :
    (65 ≤ ssidChar x ∧ ssidChar x ≤ 90) ∨ (97 ≤ ssidChar x ∧ ssidChar x ≤ 122) := by
  rw [ssidChar_eq]
  split_ifs <;> omega

theorem passwordChar_range (x : ℕ) :
    (40 ≤ passwordChar x ∧ passwordChar x ≤ 59) ∨ (65 ≤ passwordChar x ∧ passwordChar x ≤ 89) := by
  simp only [passwordChar]
  split_ifs <;> omega

theorem toNat_charAt {char : ℕ → ℕ} (hchar : ∀ x, char x < 256) (serial : Serial) (k : ℕ) :
    (charAt char serial k).toNat =
      char ((serial.toList.getD (k % 8) 0).toNat + k / 8 + k % 8) := by
  rw [charAt, UInt8.toNat_ofNat', Nat.mod_eq_of_lt (hchar _)]

theorem toNat_charAt_ssidChar (serial : Serial) (k : ℕ) :
    (charAt ssidChar serial k).toNat =
      ssidChar ((serial.toList.getD (k % 8) 0).toNat + k / 8 + k % 8) :=
  toNat_charAt (fun x ↦ (ssidChar_lt x).trans (by decide)) serial k

theorem passwordChar_lt (x : ℕ) : passwordChar x < 90 := by
  rcases passwordChar_range x with h | h <;> omega

theorem toNat_charAt_passwordChar (serial : Serial) (k : ℕ) :
    (charAt passwordChar serial k).toNat =
      passwordChar ((serial.toList.getD (k % 8) 0).toNat + k / 8 + k % 8) :=
  toNat_charAt (fun x ↦ (passwordChar_lt x).trans (by decide)) serial k

theorem charAt_passwordChar_ne_zero (serial : Serial) (k : ℕ) :
    charAt passwordChar serial k ≠ 0 := by
  intro hzero
  have hnat := congrArg UInt8.toNat hzero
  rw [toNat_charAt_passwordChar] at hnat
  have h0 : (0 : UInt8).toNat = 0 := rfl
  rcases passwordChar_range ((serial.toList.getD (k % 8) 0).toNat + k / 8 + k % 8) with h | h <;>
    omega

theorem apPassword_eq (serial : Serial) (ssid password : Memory UInt8) :
    apPassword serial ssid password = (List.range 31).map (charAt passwordChar serial) :=
  cString_filled (charAt_passwordChar_ne_zero serial) password

/-! ## What the WiFi component makes of them -/

def SsidCharacter (c : UInt8) : Prop :=
  (65 ≤ c.toNat ∧ c.toNat ≤ 90) ∨ (97 ≤ c.toNat ∧ c.toNat ≤ 122)

def PasswordCharacter (c : UInt8) : Prop :=
  (40 ≤ c.toNat ∧ c.toNat ≤ 59) ∨ (65 ≤ c.toNat ∧ c.toNat ≤ 89)

/-- Every place of the buffer is written once, the first 31 with allowed
characters and the last with NUL. -/
structure Fills (allowed : UInt8 → Prop) (writes : List (ℕ × UInt8)) : Prop where
  places : writes.map Prod.fst = List.range 32
  characters : ∀ w ∈ writes, w.1 < 31 → allowed w.2 ∧ w.2 ≠ 0
  terminator : ∀ w ∈ writes, w.1 = 31 → w.2 = 0

/-- Both buffers are filled, and `wifi_create_ap` and `change_config` take
them. -/
structure Usable (serial : Serial) (ssid password : Memory UInt8) : Prop where
  writes : calculateCAnkerApSsidAndPassword serial ssid password =
    (applyWrites (bufferWrites ssidChar serial) ssid,
      applyWrites (bufferWrites passwordChar serial) password)
  fillsSsid : Fills SsidCharacter (bufferWrites ssidChar serial)
  fillsPassword : Fills PasswordCharacter (bufferWrites passwordChar serial)
  length_ssid : (apSsid serial ssid password).length = 31
  length_password : (apPassword serial ssid password).length = 31
  createAp : ∀ w : Wifi.State, w.createAp
      (some (load (calculateCAnkerApSsidAndPassword serial ssid password).1 0 apSsidSize))
      (some (load (calculateCAnkerApSsidAndPassword serial ssid password).2 0 apPasswordSize)) =
    w.storesCall .createAp ⟨apSsid serial ssid password, apPassword serial ssid password⟩
  changeConfig : ∀ (w : Wifi.State) (D : Wifi.Driver), (Wifi.State.changeConfig { w with
      stored := ⟨apSsid serial ssid password, apPassword serial ssid password⟩ } D false).1 =
    (D.wifiStop && D.setMode && D.setConfig && D.wifiStart)

theorem fills_bufferWrites {allowed : UInt8 → Prop} {char : ℕ → ℕ} {serial : Serial}
    (hallowed : ∀ k, allowed (charAt char serial k)) (hne : ∀ k, charAt char serial k ≠ 0) :
    Fills allowed (bufferWrites char serial) where
  places := bufferWrites_places char serial
  characters w hw hlt := by
    rw [bufferWrites_eq, List.mem_append, List.mem_singleton] at hw
    rcases hw with hw | rfl
    · obtain ⟨k, -, rfl⟩ := List.mem_map.mp hw
      exact ⟨hallowed k, hne k⟩
    · simp [apSsidSize] at hlt
  terminator w hw hlast := by
    rw [bufferWrites_eq, List.mem_append, List.mem_singleton] at hw
    rcases hw with hw | rfl
    · obtain ⟨k, hk, rfl⟩ := List.mem_map.mp hw
      exact absurd hlast (List.mem_range.mp hk).ne
    · rfl

theorem storedString_load (mem : Memory UInt8) (size : ℕ) :
    Wifi.storedString (some (load mem 0 size)) size = cString (load mem 0 size) := by
  rw [Wifi.storedString, Option.getD_some, take_load, min_self]

theorem usable (serial : Serial) (ssid password : Memory UInt8) : Usable serial ssid password := by
  have hssid : (apSsid serial ssid password).length = 31 := by simp [apSsid_eq]
  have hpassword : (apPassword serial ssid password).length = 31 := by simp [apPassword_eq]
  have hssid' : apSsid serial ssid password ≠ [] := List.ne_nil_of_length_pos (by omega)
  have hpassword' : apPassword serial ssid password ≠ [] := List.ne_nil_of_length_pos (by omega)
  constructor
  · rfl
  · refine fills_bufferWrites (fun k ↦ ?_) (charAt_ssidChar_ne_zero serial)
    rw [SsidCharacter, toNat_charAt_ssidChar]
    exact ssidChar_letter _
  · refine fills_bufferWrites (fun k ↦ ?_) (charAt_passwordChar_ne_zero serial)
    rw [PasswordCharacter, toNat_charAt_passwordChar]
    exact passwordChar_range _
  · exact hssid
  · exact hpassword
  · intro w
    have hname : Wifi.storedString (some (load
        (calculateCAnkerApSsidAndPassword serial ssid password).1 0 apSsidSize)) Wifi.apSsidSize =
        apSsid serial ssid password := storedString_load _ _
    have hword : Wifi.storedString (some (load
        (calculateCAnkerApSsidAndPassword serial ssid password).2 0 apPasswordSize))
        Wifi.apPasswordSize = apPassword serial ssid password := storedString_load _ _
    rw [Wifi.State.createAp, hname, hword, if_neg (by simp [hssid', hpassword'])]
  · intro w D
    rw [Wifi.State.changeConfig]
    cases D.wifiStop <;> cases D.setMode <;> cases D.setConfig <;> cases D.wifiStart <;>
      simp [hssid', hpassword']

/-! ## Serials with the same credentials -/

theorem SerialNumber.eq_of_char {s s' : SerialNumber} (h : ∀ j, s.char j = s'.char j) : s = s' := by
  obtain ⟨chars, alnum⟩ := s
  obtain ⟨chars', alnum'⟩ := s'
  obtain rfl : chars = chars' := by
    refine Vector.ext fun i hi ↦ UInt8.toNat_inj.mp ?_
    exact h ⟨i, hi⟩
  rfl

/-- The character of a serial at its place in a buffer. -/
theorem SerialNumber.charAt_first (char : ℕ → ℕ) (s : SerialNumber) (j : Fin 8) :
    charAt char s.serial j = UInt8.ofNat (char (s.char j + j)) := by
  simpa using s.charAt_serial char 0 j

/-- Characters that become the same in the SSID differ in the password. -/
theorem passwordChar_ne_of_becomeSame {j : Fin 8} {c d : ℕ} (h : BecomeSame j c d) :
    passwordChar (c + j) ≠ passwordChar (d + j) := by
  obtain ⟨rfl, hle, hlt⟩ := h
  simp only [passwordChar]
  split_ifs at hlt <;> split_ifs <;> omega

theorem credentials_eq_iff (s s' : SerialNumber) (ssid password ssid' password' : Memory UInt8) :
    (apSsid s.serial ssid password = apSsid s'.serial ssid' password' ∧
      apPassword s.serial ssid password = apPassword s'.serial ssid' password') ↔ s = s' := by
  constructor
  · rintro ⟨hssid, hpassword⟩
    rw [apPassword_eq, apPassword_eq, List.map_inj_left] at hpassword
    have hsame : ∀ j : Fin 8, passwordChar (s.char j + j) = passwordChar (s'.char j + j) := by
      intro j
      have hchar := hpassword j (List.mem_range.mpr (by omega))
      have hnat := congrArg UInt8.toNat hchar
      rw [s.charAt_first, s'.charAt_first] at hnat
      have hlt := passwordChar_lt (s.char j + j)
      have hlt' := passwordChar_lt (s'.char j + j)
      rwa [UInt8.toNat_ofNat', UInt8.toNat_ofNat', Nat.mod_eq_of_lt (by omega),
        Nat.mod_eq_of_lt (by omega)] at hnat
    apply SerialNumber.eq_of_char
    intro j
    rcases (apSsid_eq_iff s s' ssid password ssid' password').mp hssid j with heq | hfold | hfold
    · exact heq
    · exact absurd (hsame j) (passwordChar_ne_of_becomeSame hfold)
    · exact absurd (hsame j).symm (passwordChar_ne_of_becomeSame hfold)
  · rintro rfl
    rw [apSsid_eq, apSsid_eq, apPassword_eq, apPassword_eq]
    exact ⟨rfl, rfl⟩

/-- Every serial gives usable credentials, and different serial numbers give
different ones. -/
theorem credentials_usable (ssid password ssid' password' : Memory UInt8) :
    (∀ serial : Serial, Usable serial ssid password) ∧
      ∀ s s' : SerialNumber, (apSsid s.serial ssid password = apSsid s'.serial ssid' password' ∧
        apPassword s.serial ssid password = apPassword s'.serial ssid' password') ↔ s = s' :=
  ⟨fun serial ↦ usable serial ssid password,
    fun s s' ↦ credentials_eq_iff s s' ssid password ssid' password'⟩

end AnkerUpdater
