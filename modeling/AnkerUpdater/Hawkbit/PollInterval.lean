import AnkerUpdater.Hawkbit.Feedback
import AnkerUpdater.Hawkbit.JsonParse

/-!
# The polling interval

The idle timeout after a poll, as a function of the string
`config.polling.sleep` and of what `str_time_to_int` finds on the stack.
-/

namespace AnkerUpdater.Hawkbit

open CText

/-- The content that retrieve_actions_to_do leaves for a reply. -/
def retrievedActions (json : Option Json) (stack stackSim : TimeStack) (content : BaseContentT) :
    Option BaseContent :=
  match jsonParseActionsToDo json stack stackSim content with
  | (.ok, content) => some content.content
  | (.errJsonParsing, _) => none

/-- Hours, minutes and seconds in milliseconds; missing ones count as zero. -/
def timeOf (fields : List ℕ) : ℕ :=
  fields.getD 0 0 * 3600000 + fields.getD 1 0 * 60000 + fields.getD 2 0 * 1000

def InRange (time : ℕ) : Prop := timeMsUntilNextPollMin ≤ time ∧ time ≤ timeMsUntilNextPollMax

instance decidableInRange (time : ℕ) : Decidable (InRange time) :=
  inferInstanceAs (Decidable (_ ∧ _))

/-- The string starts with three decimal numbers of at most 255. -/
def IsTime (fields : List ℕ) : Prop := fields.length = 3 ∧ ∀ v ∈ fields, v ≤ 255

instance decidableIsTime (fields : List ℕ) : Decidable (IsTime fields) :=
  inferInstanceAs (Decidable (_ ∧ _))

/-- The decimal numbers at the front of the string. -/
def decimals (sleep : CString) : List ℕ := colonFields decimalField 3 sleep.1

/-- The values that `sscanf` assigns. -/
def assigned (sleep : CString) : List ℕ := colonFields scanByte 3 sleep.1

/-- The interval that the string stands for. -/
def sleepInterval (sleep : CString) : ℕ :=
  if IsTime (decimals sleep) ∧ InRange (timeOf (decimals sleep)) then timeOf (decimals sleep)
  else timeMsUntilNextPollDefaultWifi

/-- Hour, minute and second as `str_time_to_int` adds them up. -/
def addedUp (sleep : CString) (stack : TimeStack) : List ℕ :=
  [(assigned sleep).getD 0 stack.h.toNat, (assigned sleep).getD 1 stack.m.toNat,
    (assigned sleep).getD 2 stack.s.toNat]

/-- Whatever is on the stack, the idle timeout after a poll is the interval of
the string. -/
def IntervalDetermined (E : PassEnv) (t : Task) (sleep : CString) : Prop :=
  ∀ json : Json, json.stringAt ["config", "polling"] "sleep" = some sleep →
    ∀ (stack stackSim : TimeStack) (content : BaseContentT),
      let timeout := (pollPass { E with
        actions := retrievedActions (some json) stack stackSim content } t).idleTimeout
      timeout = sleepInterval sleep ∧ InRange timeout ∧ timeOf (addedUp sleep stack) < 2 ^ 32

/-- All three values are assigned, from decimal numbers or to a time that is
out of range or the default; or the values assigned exceed the maximum. -/
def Settles (sleep : CString) : Prop :=
  if (assigned sleep).length = 3 then
    IsTime (decimals sleep) ∨ ¬InRange (timeOf (assigned sleep)) ∨
      timeOf (assigned sleep) = timeMsUntilNextPollDefaultWifi
  else timeMsUntilNextPollMax < timeOf (assigned sleep)

/-- The test of `update_polling_timeout`. -/
def clampInterval (time : ℕ) : ℕ :=
  if InRange time then time else timeMsUntilNextPollDefaultWifi

theorem inRange_clampInterval (time : ℕ) : InRange (clampInterval time) := by
  rw [clampInterval]
  split_ifs with h
  · exact h
  · decide

theorem clampInterval_eq_default_iff (time : ℕ) :
    clampInterval time = timeMsUntilNextPollDefaultWifi ↔
      ¬InRange time ∨ time = timeMsUntilNextPollDefaultWifi := by
  rw [clampInterval]
  split_ifs with h <;> simp [h]

theorem updatePollingTimeout_eq (content : BaseContent) :
    updatePollingTimeout content = clampInterval content.timeUntilNextPoll := by
  have hrange : InRange content.timeUntilNextPoll ↔
      ¬(content.timeUntilNextPoll < timeMsUntilNextPollMin ∨
        timeMsUntilNextPollMax < content.timeUntilNextPoll) := by
    rw [not_or, not_lt, not_lt]
    rfl
  rw [updatePollingTimeout, clampInterval]
  rw [if_congr hrange rfl rfl, ite_not]

/-! ## The values of a string -/

theorem assigned_lt (sleep : CString) : ∀ v ∈ assigned sleep, v < 256 := by
  intro v hv
  obtain ⟨s, rest, hs⟩ := exists_of_mem_colonFields hv
  exact scanByte_lt hs

theorem getD_assigned_lt (sleep : CString) (i : ℕ) (left : UInt8) :
    (assigned sleep).getD i left.toNat < 256 := by
  cases hi : (assigned sleep)[i]? with
  | none =>
      rw [List.getD_eq_getElem?_getD, hi]
      exact left.toNat_lt
  | some v =>
      rw [List.getD_eq_getElem?_getD, hi]
      exact assigned_lt sleep v (List.mem_of_getElem? hi)

theorem timeOf_addedUp_lt (sleep : CString) (stack : TimeStack) :
    timeOf (addedUp sleep stack) < 2 ^ 32 := by
  have hh := getD_assigned_lt sleep 0 stack.h
  have hm := getD_assigned_lt sleep 1 stack.m
  have hs := getD_assigned_lt sleep 2 stack.s
  simp only [timeOf, addedUp, List.getD_cons_zero, List.getD_cons_succ]
  omega

/-- Nothing wraps around. -/
theorem strTimeToInt_eq (sleep : CString) (stack : TimeStack) :
    strTimeToInt sleep stack = timeOf (addedUp sleep stack) := by
  have hlt := timeOf_addedUp_lt sleep stack
  have hunits (h m s : ℕ) : h * 60 * 60 * 1000 + m * 60 * 1000 + s * 1000 =
      h * 3600000 + m * 60000 + s * 1000 := by
    omega
  have hsum : strTimeToInt sleep stack = timeOf (addedUp sleep stack) % 2 ^ 32 := by
    simp only [strTimeToInt, hunits, timeOf, addedUp, assigned, List.getD_cons_zero,
      List.getD_cons_succ]
  rw [hsum, Nat.mod_eq_of_lt hlt]

/-- Decimal numbers that fit a byte are assigned as they are. -/
theorem assigned_of_isTime {sleep : CString} (h : IsTime (decimals sleep)) :
    assigned sleep = decimals sleep := by
  have hmap := colonFields_eq_map (fun v ↦ strtoul false v % 2 ^ 8)
    (fun s v rest hs ↦ scanByte_of_decimalField hs) h.1
  refine hmap.trans ((List.map_congr_left fun v hv ↦ ?_).trans (List.map_id _))
  have hv := h.2 v hv
  have hsmall : ¬2 ^ 32 ≤ v := by omega
  simp only [strtoul, if_neg hsmall, Bool.false_eq_true, if_false, id]
  omega

/-- The numbers at the front are missing where no value is assigned. -/
theorem not_isTime_of_assigned {sleep : CString} (h : (assigned sleep).length ≠ 3) :
    ¬IsTime (decimals sleep) := by
  intro htime
  rw [assigned_of_isTime htime] at h
  exact h htime.1

/-! ## The timeout -/

section

variable {sleep : CString}

theorem idleTimeout_pollPass {json : Json}
    (h : json.stringAt ["config", "polling"] "sleep" = some sleep) (E : PassEnv) (t : Task)
    (stack stackSim : TimeStack) (content : BaseContentT) :
    (pollPass { E with actions := retrievedActions (some json) stack stackSim content }
      t).idleTimeout = clampInterval (timeOf (addedUp sleep stack)) := by
  simp only [pollPass, retrievedActions, jsonParseActionsToDo, h, updatePollingTimeout_eq,
    BaseContentT.content, strTimeToInt_eq]

theorem intervalDetermined_iff_forall (E : PassEnv) (t : Task) (sleep : CString) :
    IntervalDetermined E t sleep ↔
      ∀ stack, clampInterval (timeOf (addedUp sleep stack)) = sleepInterval sleep := by
  constructor
  · intro h stack
    have hjson := Json.stringAt_nest sleep ["config", "polling"] "sleep"
    have htimeout := (h _ hjson stack stack ⟨0, 0, Vector.replicate _ 0⟩).1
    rwa [idleTimeout_pollPass hjson] at htimeout
  · intro h json hjson stack stackSim content
    simp only [idleTimeout_pollPass hjson]
    exact ⟨h stack, inRange_clampInterval _, timeOf_addedUp_lt sleep stack⟩

theorem addedUp_of_length (h : (assigned sleep).length = 3) (stack : TimeStack) :
    timeOf (addedUp sleep stack) = timeOf (assigned sleep) := by
  obtain ⟨a, b, c, habc⟩ := List.length_eq_three.mp h
  simp [timeOf, addedUp, habc]

/-- Without a value for the seconds the values assigned are a lower bound. -/
theorem timeOf_assigned_le (sleep : CString) (stack : TimeStack) :
    timeOf (assigned sleep) ≤ timeOf (addedUp sleep stack) := by
  have hle (i : ℕ) (left : UInt8) :
      (assigned sleep).getD i 0 ≤ (assigned sleep).getD i left.toNat := by
    rw [List.getD_eq_getElem?_getD, List.getD_eq_getElem?_getD]
    cases (assigned sleep)[i]? <;> simp
  have hh := hle 0 stack.h
  have hm := hle 1 stack.m
  have hs := hle 2 stack.s
  simp only [timeOf, addedUp, List.getD_cons_zero, List.getD_cons_succ]
  omega

/-- Seconds that are left over from before. -/
theorem timeOf_addedUp_seconds (h : (assigned sleep).length < 3) (s : UInt8) :
    timeOf (addedUp sleep ⟨0, 0, s⟩) = timeOf (assigned sleep) + s.toNat * 1000 := by
  have hnone : (assigned sleep)[2]? = none := List.getElem?_eq_none (Nat.le_of_lt_succ h)
  simp [timeOf, addedUp, hnone]

theorem sleepInterval_of_not_isTime (h : ¬IsTime (decimals sleep)) :
    sleepInterval sleep = timeMsUntilNextPollDefaultWifi :=
  if_neg fun hboth ↦ h hboth.1

/-- Fewer than three values settle the interval exactly if they exceed the
maximum. -/
theorem settles_of_short (h : (assigned sleep).length < 3) :
    (∀ stack, clampInterval (timeOf (addedUp sleep stack)) = timeMsUntilNextPollDefaultWifi) ↔
      timeMsUntilNextPollMax < timeOf (assigned sleep) := by
  constructor
  · intro hdefault
    by_contra hle
    have hseconds (s : UInt8) : ¬InRange (timeOf (assigned sleep) + s.toNat * 1000) ∨
        timeOf (assigned sleep) + s.toNat * 1000 = timeMsUntilNextPollDefaultWifi := by
      rw [← timeOf_addedUp_seconds h, ← clampInterval_eq_default_iff]
      exact hdefault ⟨0, 0, s⟩
    -- no second, one second and ten seconds left over
    have hzero := hseconds 0
    have hone := hseconds 1
    have hten := hseconds 10
    simp only [InRange, timeMsUntilNextPollMin, timeMsUntilNextPollMax,
      timeMsUntilNextPollDefaultWifi, UInt8.reduceToNat] at hle hzero hone hten
    omega
  · intro hmax stack
    have hle := timeOf_assigned_le sleep stack
    apply (clampInterval_eq_default_iff _).mpr
    exact .inl fun hrange ↦ absurd hrange.2 (not_le.mpr (hmax.trans_le hle))

theorem settles_of_whole (sleep : CString) :
    clampInterval (timeOf (assigned sleep)) = sleepInterval sleep ↔
      IsTime (decimals sleep) ∨ ¬InRange (timeOf (assigned sleep)) ∨
        timeOf (assigned sleep) = timeMsUntilNextPollDefaultWifi := by
  by_cases htime : IsTime (decimals sleep)
  · have hclamp : clampInterval (timeOf (decimals sleep)) = sleepInterval sleep := by
      simp [clampInterval, sleepInterval, htime]
    rw [assigned_of_isTime htime]
    exact iff_of_true hclamp (.inl htime)
  · rw [sleepInterval_of_not_isTime htime, clampInterval_eq_default_iff, or_iff_right htime]

end

/-- The interval is determined by the string exactly if the string settles
it. -/
theorem intervalDetermined_iff (E : PassEnv) (t : Task) (sleep : CString) :
    IntervalDetermined E t sleep ↔ Settles sleep := by
  rw [intervalDetermined_iff_forall]
  rw [Settles]
  split_ifs with hlength
  · simp only [addedUp_of_length hlength, ← settles_of_whole sleep]
    exact ⟨fun h ↦ h ⟨0, 0, 0⟩, fun h _ ↦ h⟩
  · have hshort : (assigned sleep).length < 3 :=
      lt_of_le_of_ne (length_colonFields_le 3 sleep.1) hlength
    rw [sleepInterval_of_not_isTime (not_isTime_of_assigned hlength)]
    exact settles_of_short hshort

/-- "02": the minutes and seconds come from the stack. -/
def strHoursOnly : CString := ⟨[0x30, 0x32], by decide⟩

theorem not_intervalDetermined_hoursOnly :
    ¬IntervalDetermined failingDownload newTask strHoursOnly := by
  rw [intervalDetermined_iff_forall]
  intro h
  have hzero := h ⟨0, 0, 0⟩
  revert hzero
  decide

end AnkerUpdater.Hawkbit
