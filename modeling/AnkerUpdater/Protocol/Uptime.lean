import AnkerUpdater.Protocol.AckCollector

/-!
# The ack window and the uptime

The loop condition of `retrieve_update_ping_ack` in machine integers.  The
start time is kept in 32 bits and the current time in 64, so their
difference is right for the first `2 ^ 32` milliseconds after the boot only.
-/

namespace AnkerUpdater

/-- `esp_timer_get_time() / 1000` in exact integers. -/
def millis (t : Int64) : ℤ := t.toInt.tdiv 1000

/-- `uint32_t start_time = esp_timer_get_time() / 1000`. -/
def startTime (t0 : Int64) : UInt32 := (t0 / 1000).toUInt64.toUInt32

/-- `esp_timer_get_time() / 1000 - start_time < timeout_ms`, both unsigned
operands converted to `int64_t`. -/
def receiveCondition (t0 : Int64) (timeoutMs : UInt32) (t : Int64) : Bool :=
  t / 1000 - (startTime t0).toUInt64.toInt64 < timeoutMs.toUInt64.toInt64

theorem toInt_millis (t : Int64) : (t / 1000).toInt = millis t :=
  Int64.toInt_div_of_ne_right _ _ (by decide)

theorem millis_eq (t : Int64) :
    millis t = t.toInt / 1000 + if 0 ≤ t.toInt ∨ 1000 ∣ t.toInt then 0 else 1 := by
  rw [millis, Int.tdiv_eq_ediv]
  rfl

theorem millis_mono {t t' : Int64} (h : t.toInt ≤ t'.toInt) : millis t ≤ millis t' := by
  rw [millis_eq, millis_eq]
  split_ifs <;> omega

theorem abs_millis_lt (t : Int64) : -2 ^ 54 < millis t ∧ millis t < 2 ^ 54 := by
  have hle : -2 ^ 63 ≤ t.toInt := t.le_toInt
  have hlt : t.toInt < 2 ^ 63 := t.toInt_lt
  rw [millis_eq]
  split_ifs <;> omega

theorem exists_toInt {x : ℤ} (hle : -2 ^ 63 ≤ x) (hlt : x < 2 ^ 63) : ∃ t : Int64, t.toInt = x :=
  ⟨Int64.ofInt x, by rw [Int64.toInt_ofInt]; exact Int.bmod_eq_of_le hle hlt⟩

theorem toInt_widened (x : UInt32) : x.toUInt64.toInt64.toInt = x.toNat := by
  have hx : x.toNat < 2 ^ 32 := x.toNat_lt
  have hnat : x.toUInt64.toInt64.toBitVec.toNat = x.toNat := by simp
  rw [← Int64.toInt_toBitVec, BitVec.toInt_eq_toNat_cond, hnat, if_pos (by omega)]

theorem toNat_startTime (t0 : Int64) : ((startTime t0).toNat : ℤ) = millis t0 % 2 ^ 32 := by
  have hnat : (startTime t0).toNat = (t0 / 1000).toBitVec.toNat % 2 ^ 32 := by
    rw [startTime, UInt64.toNat_toUInt32, Int64.toNat_toBitVec]
  have hint := BitVec.toInt_eq_toNat_cond (t0 / 1000).toBitVec
  rw [Int64.toInt_toBitVec, toInt_millis] at hint
  rw [hnat, hint]
  split_ifs <;> omega

/-- The condition in exact integers, with the start time as it is kept. -/
theorem receiveCondition_iff {t0 t : Int64} {timeoutMs : UInt32} :
    receiveCondition t0 timeoutMs t = true ↔
      millis t - millis t0 % 2 ^ 32 < timeoutMs.toNat := by
  have hbounds := abs_millis_lt t
  rw [receiveCondition, decide_eq_true_iff, Int64.lt_iff_toInt_lt, Int64.toInt_sub, toInt_widened,
    toInt_widened, toNat_startTime, toInt_millis, Int.bmod_eq_of_le (by omega) (by omega)]

/-- The condition that the loop tests, for times since the boot. -/
theorem windowOpen_eq_receiveCondition {t0 t : Int64} (ht0 : 0 ≤ t0.toInt) (ht : 0 ≤ t.toInt)
    (timeoutMs : UInt32) : windowOpen t0.toInt.toNat timeoutMs.toNat t.toInt.toNat =
      receiveCondition t0 timeoutMs t := by
  have hmillis : ∀ {t : Int64}, 0 ≤ t.toInt → millis t = (t.toInt.toNat / 1000 : ℕ) := by
    intro t ht
    rw [millis, Int.tdiv_eq_ediv_of_nonneg ht]
    omega
  rw [Bool.eq_iff_iff, receiveCondition_iff, hmillis ht0, hmillis ht, windowOpen,
    decide_eq_true_iff]
  push_cast
  rfl

/-- A window that opens later than the start time can say is closed from the
beginning: no ack of any phase is read. -/
theorem retrieveUpdatePingAck_late {startMicros timeoutMs : ℕ} (hlate : 2 ^ 32 ≤ startMicros / 1000)
    (htimeout : timeoutMs < 2 ^ 32) (sha256 : Sha256) (own : Anker) (type : UpdatePingType)
    (seq : UInt16) (maxCntPAnkers : ℕ) {polls : List Poll}
    (hpolls : ∀ p ∈ polls, startMicros ≤ p.time) :
    retrieveUpdatePingAck sha256 own type seq startMicros timeoutMs maxCntPAnkers polls = [] := by
  have hwindow : ackWindow startMicros timeoutMs polls = [] := by
    cases polls with
    | nil => rfl
    | cons p polls =>
        have htime := hpolls p (by simp)
        have hclosed : windowOpen startMicros timeoutMs p.time = false := by
          rw [windowOpen, decide_eq_false_iff_not]
          omega
        rw [ackWindow, List.takeWhile_cons_of_neg (by simp [hclosed])]
        rfl
  rw [retrieveUpdatePingAck, hwindow]
  rfl

/-- The window has its full length exactly if the device was started less
than `2 ^ 32` milliseconds ago, or the window is empty. -/
theorem receiveCondition_exact_iff (t0 : Int64) (timeoutMs : UInt32) :
    (∀ t : Int64, t0.toInt ≤ t.toInt →
      (receiveCondition t0 timeoutMs t = true ↔ millis t - millis t0 < timeoutMs.toNat)) ↔
      0 ≤ millis t0 ∧ (millis t0 < 2 ^ 32 ∨ timeoutMs = 0) := by
  have htimeout : timeoutMs.toNat < 2 ^ 32 := timeoutMs.toNat_lt
  constructor
  · intro h
    have hnonneg : 0 ≤ millis t0 := by
      by_contra hneg
      have hmin : -2 ^ 63 ≤ t0.toInt := t0.le_toInt
      have hstart : t0.toInt ≤ millis t0 * 1000 := by
        rw [millis_eq] at hneg ⊢
        split_ifs at hneg ⊢ <;> omega
      -- the first millisecond after the exact window
      obtain ⟨t, ht⟩ := exists_toInt (x := (millis t0 + timeoutMs.toNat) * 1000)
        (by omega) (by omega)
      have hmillis := millis_eq t
      have hclosed := h t (by omega)
      rw [receiveCondition_iff] at hclosed
      rw [ht] at hmillis
      split_ifs at hmillis <;> omega
    have hstart := h t0 le_rfl
    rw [receiveCondition_iff] at hstart
    refine ⟨hnonneg, or_iff_not_imp_left.mpr fun hlate ↦ ?_⟩
    apply UInt32.toNat_inj.mp
    change timeoutMs.toNat = 0
    omega
  · rintro ⟨hnonneg, hsmall⟩ t ht
    have hmono := millis_mono ht
    rw [receiveCondition_iff]
    rcases hsmall with hsmall | rfl
    · rw [Int.emod_eq_of_lt hnonneg hsmall]
    · have hzero : ((0 : UInt32).toNat : ℤ) = 0 := rfl
      rw [hzero]
      omega

/-- 49.7 days after the boot the loop is left before the first `recvfrom`. -/
theorem not_receiveCondition_exact :
    ¬∀ t : Int64, (4294967296000 : Int64).toInt ≤ t.toInt →
      (receiveCondition 4294967296000 1000 t = true ↔
        millis t - millis 4294967296000 < (1000 : UInt32).toNat) := by
  intro h
  have hstart := h 4294967296000 le_rfl
  revert hstart
  decide

end AnkerUpdater
