import AnkerUpdater.Lib.Runs

/-!
# The clock and its sources

`timecontroller_core_handle_rtc_update` and
`timecontroller_core_sync_timestamps`.  Times are exact integers; what
`get_timestamp`, `calloc` and `settimeofday` return is given with each call.
-/

namespace AnkerUpdater.TimeController

open Runs

/-- `timestamp_sync_type` -/
inductive SyncType where
  | unsynced
  | nrgcp
  | gps
  | sntp
  deriving DecidableEq, Repr

def SyncType.value : SyncType → ℕ
  | unsynced => 0
  | nrgcp => 1
  | gps => 2
  | sntp => 3

theorem SyncType.value_injective : Function.Injective SyncType.value := by
  intro a b
  cases a <;> cases b <;> simp [value]

inductive Rc where
  | ok
  | errGeneral
  | invalidValueErr
  | memoryErr
  | notSyncedErr
  deriving DecidableEq, Repr

structure Core where
  tsSyncStatus : Bool
  tsSyncType : SyncType
  tsBeforeRtc : ℤ
  tsRtcSync : ℤ
  deriving DecidableEq

def Core.init : Core := ⟨false, .unsynced, 0, 0⟩

/-- One call for an RTC update: its arguments, the system time that the two
`get_timestamp` calls deliver unless they fail, and which other operations
succeed; `restore` is the `settimeofday` that brings the previous time back. -/
structure Update where
  timestamp : ℤ
  syncType : SyncType
  getTimestamp : Option ℤ
  calloc : Bool
  getTimestampAgain : Option ℤ
  settimeofday : Bool
  restore : Bool

/-- What was put into the clock. -/
inductive ClockSet where
  | toTimestamp (timestamp : ℤ)
  | toPrevious (timestamp : ℤ)
  deriving DecidableEq

/-- `update_system_time` -/
def updateSystemTime (value : ClockSet) (settimeofday : Bool) : Rc × List ClockSet :=
  if settimeofday then (.ok, [value]) else (.errGeneral, [])

namespace Core

variable (validation : ℤ)

/-- `handle_change_to_rtc` -/
def handleChangeToRtc (s : Core) (u : Update) : Rc × Core × List ClockSet :=
  if !u.calloc then (.memoryErr, s, [])
  else
    match u.getTimestampAgain with
    | none => (.errGeneral, s, [])
    | some before =>
        let s := { s with tsBeforeRtc := before }
        match updateSystemTime (.toTimestamp u.timestamp) u.settimeofday with
        | (.ok, sets) => (.ok, { s with tsRtcSync := u.timestamp }, sets)
        | (rc, sets) => (rc, s, sets)

/-- `timecontroller_core_handle_rtc_update`; `validation` is the time of the
build. -/
def handleRtcUpdate (s : Core) (u : Update) : Rc × Core × List ClockSet :=
  if u.timestamp < validation then (.invalidValueErr, s, [])
  else if !s.tsSyncStatus then
    match u.getTimestamp with
    | none => (.errGeneral, s, [])
    | some previous =>
        match s.handleChangeToRtc u with
        | (.ok, s, sets) => (.ok, { s with tsSyncStatus := true, tsSyncType := u.syncType }, sets)
        | (rc, s, sets) => (rc, s, sets ++ (updateSystemTime (.toPrevious previous) u.restore).2)
  else if s.tsSyncType.value ≤ u.syncType.value then
    -- the result of `update_system_time` is not looked at
    (.ok, { s with tsSyncStatus := true, tsSyncType := u.syncType },
      (updateSystemTime (.toTimestamp u.timestamp) u.settimeofday).2)
  else (.ok, s, [])

end Core

/-! ## The back-dated timestamps -/

structure TimestampStatus where
  timestamp : ℤ
  syncStatus : Bool
  deriving DecidableEq

/-- The body of the loop of `sync_timestamps`. -/
def TimestampStatus.sync (rtcSync beforeRtc : ℤ) (ts : TimestampStatus) : TimestampStatus :=
  if !ts.syncStatus && ts.timestamp > 0 then ⟨rtcSync - (beforeRtc - ts.timestamp), true⟩ else ts

/-- `timecontroller_core_sync_timestamps`; the array is `NULL` or has
`array_size` entries. -/
def Core.syncTimestamps (s : Core) (tsArr : Option (List TimestampStatus)) :
    Rc × Option (List TimestampStatus) :=
  match tsArr with
  | none => (.invalidValueErr, none)
  | some arr =>
      if s.tsSyncStatus then (.ok, some (arr.map (TimestampStatus.sync s.tsRtcSync s.tsBeforeRtc)))
      else (.notSyncedErr, some arr)

/-! ## What one update does -/

namespace Core

variable {validation : ℤ} {s : Core} {u : Update}

/-- The call puts its timestamp into the clock. -/
def Sets (validation : ℤ) (s : Core) (u : Update) : Prop :=
  .toTimestamp u.timestamp ∈ (s.handleRtcUpdate validation u).2.2

instance decidableSets (validation : ℤ) (s : Core) (u : Update) :
    Decidable (s.Sets validation u) :=
  inferInstanceAs (Decidable (_ ∈ _))

/-- `handle_change_to_rtc` sets the clock and notes both times, or fails. -/
theorem handleChangeToRtc_cases (s : Core) (u : Update) :
    (∃ before, u.getTimestampAgain = some before ∧ s.handleChangeToRtc u =
      (.ok, { s with tsBeforeRtc := before, tsRtcSync := u.timestamp },
        [.toTimestamp u.timestamp])) ∨
    (∃ rc before, rc ≠ .ok ∧
      s.handleChangeToRtc u = (rc, { s with tsBeforeRtc := before }, [])) := by
  rw [handleChangeToRtc]
  split_ifs with hcalloc
  · exact .inr ⟨.memoryErr, s.tsBeforeRtc, by decide, rfl⟩
  cases hagain : u.getTimestampAgain with
  | none => exact .inr ⟨.errGeneral, s.tsBeforeRtc, by decide, rfl⟩
  | some before =>
      cases hset : u.settimeofday with
      | false => exact .inr ⟨.errGeneral, before, by decide, rfl⟩
      | true => exact .inl ⟨before, rfl, rfl⟩

/-- A call up to and with the first one that sets the clock. -/
theorem handleRtcUpdate_unsynced (validation : ℤ) (u : Update) (hs : s.tsSyncStatus = false) :
    (∃ before, u.getTimestampAgain = some before ∧ s.Sets validation u ∧
      (s.handleRtcUpdate validation u).1 = .ok ∧
      (s.handleRtcUpdate validation u).2.1 = ⟨true, u.syncType, before, u.timestamp⟩) ∨
    (¬s.Sets validation u ∧ (s.handleRtcUpdate validation u).1 ≠ .ok ∧
      ∃ before, (s.handleRtcUpdate validation u).2.1 = { s with tsBeforeRtc := before }) := by
  rw [Sets, handleRtcUpdate]
  by_cases hvalid : u.timestamp < validation
  · rw [if_pos hvalid]
    exact .inr ⟨List.not_mem_nil, by simp, s.tsBeforeRtc, rfl⟩
  have hunsynced : (!s.tsSyncStatus) = true := by rw [hs]; rfl
  rw [if_neg hvalid, if_pos hunsynced]
  cases hfirst : u.getTimestamp with
  | none => exact .inr ⟨List.not_mem_nil, by simp, s.tsBeforeRtc, rfl⟩
  | some previous =>
      rcases s.handleChangeToRtc_cases u with ⟨before, hagain, hok⟩ | ⟨rc, before, hrc, hfailed⟩
      · rw [hok]
        exact .inl ⟨before, hagain, List.mem_singleton_self _, rfl, rfl⟩
      · rw [hfailed]
        refine .inr ⟨?_, ?_, before, ?_⟩
        · cases rc <;> cases u.restore <;> simp_all [updateSystemTime]
        · cases rc <;> simp_all
        · cases rc <;> simp_all

/-- A call after it changes the sync type at most. -/
theorem handleRtcUpdate_synced (validation : ℤ) (u : Update) (hs : s.tsSyncStatus = true) :
    (s.handleRtcUpdate validation u).2.1 = { s with
      tsSyncType := if validation ≤ u.timestamp ∧ s.tsSyncType.value ≤ u.syncType.value then
        u.syncType else s.tsSyncType } ∧
    (s.Sets validation u ↔ validation ≤ u.timestamp ∧
      s.tsSyncType.value ≤ u.syncType.value ∧ u.settimeofday = true) := by
  rw [Sets, handleRtcUpdate]
  by_cases hvalid : u.timestamp < validation
  · have hnot : ¬validation ≤ u.timestamp := not_le.mpr hvalid
    simp [hvalid, hnot]
  have hle : validation ≤ u.timestamp := not_lt.mp hvalid
  by_cases htype : s.tsSyncType.value ≤ u.syncType.value
  · cases hset : u.settimeofday <;> simp [hvalid, hle, hs, htype, updateSystemTime]
  · have hsame : s = { s with tsSyncStatus := true } := by rw [← hs]
    simpa [hvalid, hs, htype] using hsame

end Core

/-! ## The priority of the source -/

/-- The state together with the sync type of the last call that has put its
timestamp into the clock. -/
structure Clocked where
  core : Core
  lastSet : Option SyncType

namespace Clocked

def init : Clocked := ⟨.init, none⟩

def step (validation : ℤ) (x : Clocked) (u : Update) : Clocked where
  core := (x.core.handleRtcUpdate validation u).2.1
  lastSet := if x.core.Sets validation u then some u.syncType else x.lastSet

/-- Status and type are those of the clock, after every call of the run. -/
structure Reflects (validation : ℤ) (updates : List Update) : Prop where
  neverLower : Always (step validation)
    (fun x u ↦ x.core.tsSyncType.value ≤ (x.step validation u).core.tsSyncType.value) init updates
  status : ∀ pre, pre <+: updates →
    ((pre.foldl (step validation) init).core.tsSyncStatus = true ↔
      (pre.foldl (step validation) init).lastSet.isSome)
  type : ∀ pre, pre <+: updates → ∀ t, (pre.foldl (step validation) init).lastSet = some t →
    (pre.foldl (step validation) init).core.tsSyncType = t
  unchanged : Always (step validation) (fun x u ↦ ¬x.core.Sets validation u →
    (x.step validation u).core.tsSyncStatus = x.core.tsSyncStatus ∧
      (x.step validation u).core.tsSyncType = x.core.tsSyncType) init updates

/-- Once the clock is set, an update that raises the sync type can set it. -/
def RaisesSet (validation : ℤ) (x : Clocked) (u : Update) : Prop :=
  x.core.tsSyncStatus = true → validation ≤ u.timestamp →
    x.core.tsSyncType.value < u.syncType.value → u.settimeofday = true

/-- What holds after any call. -/
structure Inv (x : Clocked) : Prop where
  status : x.core.tsSyncStatus = x.lastSet.isSome
  unsynced : x.core.tsSyncStatus = false → x.core.tsSyncType = .unsynced

variable {validation : ℤ} {x : Clocked} {u : Update}

theorem step_core : (x.step validation u).core = (x.core.handleRtcUpdate validation u).2.1 := rfl

theorem inv_init : init.Inv := ⟨rfl, fun _ ↦ rfl⟩

theorem inv_step (hx : x.Inv) (u : Update) : (x.step validation u).Inv := by
  cases hs : x.core.tsSyncStatus with
  | false =>
      rcases x.core.handleRtcUpdate_unsynced validation u hs with
        ⟨before, -, hsets, -, hcore⟩ | ⟨hsets, -, before, hcore⟩
      · refine ⟨?_, ?_⟩ <;> simp [step, hsets, hcore]
      · have hstatus := hx.status
        have hunsynced := hx.unsynced
        refine ⟨?_, ?_⟩ <;> simp_all [step]
  | true =>
      have hstatus : (x.step validation u).core.tsSyncStatus = true := by
        rw [step_core, (x.core.handleRtcUpdate_synced validation u hs).1]
        exact hs
      have hlast : x.lastSet.isSome := hx.status.symm.trans hs
      refine ⟨?_, fun hfalse ↦ absurd hfalse (by simp [hstatus])⟩
      rw [hstatus, step]
      split_ifs
      · rfl
      · exact hlast.symm

theorem type_le_step (hx : x.Inv) (u : Update) :
    x.core.tsSyncType.value ≤ (x.step validation u).core.tsSyncType.value := by
  cases hs : x.core.tsSyncStatus with
  | false =>
      rw [hx.unsynced hs]
      exact Nat.zero_le _
  | true =>
      rw [step_core, (x.core.handleRtcUpdate_synced validation u hs).1]
      change x.core.tsSyncType.value ≤ (if _ then _ else _ : SyncType).value
      split_ifs with h
      · exact h.2
      · exact le_rfl

/-- A call that does not set the clock leaves status and type alone exactly
when it would not have raised the type. -/
theorem unchanged_iff (x : Clocked) (u : Update) :
    (¬x.core.Sets validation u →
      (x.step validation u).core.tsSyncStatus = x.core.tsSyncStatus ∧
        (x.step validation u).core.tsSyncType = x.core.tsSyncType) ↔
      x.RaisesSet validation u := by
  cases hs : x.core.tsSyncStatus with
  | false =>
      have hraises : x.RaisesSet validation u := fun htrue ↦ absurd htrue (by simp [hs])
      refine iff_of_true (fun hnot ↦ ?_) hraises
      rcases x.core.handleRtcUpdate_unsynced validation u hs with
        ⟨before, -, hsets, -⟩ | ⟨-, -, before, hcore⟩
      · exact absurd hsets hnot
      · rw [step, hcore]
        exact ⟨hs, rfl⟩
  | true =>
      obtain ⟨hcore, hsets⟩ := x.core.handleRtcUpdate_synced validation u hs
      have hstatus : (x.step validation u).core.tsSyncStatus = true := by
        rw [step_core, hcore]
        exact hs
      have htype : (x.step validation u).core.tsSyncType =
          if validation ≤ u.timestamp ∧ x.core.tsSyncType.value ≤ u.syncType.value then u.syncType
          else x.core.tsSyncType := by
        rw [step_core, hcore]
      rw [hsets, hstatus, htype]
      constructor
      · intro h _ hvalid hlt
        by_contra hset
        obtain ⟨-, heq⟩ := h fun hall ↦ hset hall.2.2
        rw [if_pos ⟨hvalid, hlt.le⟩] at heq
        rw [heq] at hlt
        exact hlt.false
      · intro h hnot
        refine ⟨rfl, ?_⟩
        split_ifs with hraise
        · by_contra hne
          have hlt : x.core.tsSyncType.value < u.syncType.value :=
            lt_of_le_of_ne hraise.2 fun heq ↦ hne (SyncType.value_injective heq).symm
          exact hnot ⟨hraise.1, hraise.2, h hs hraise.1 hlt⟩
        · rfl

/-- A call that sets the clock has its sync type afterwards. -/
theorem type_of_sets (hsets : x.core.Sets validation u) :
    (x.step validation u).core.tsSyncType = u.syncType := by
  cases hs : x.core.tsSyncStatus with
  | false =>
      rcases x.core.handleRtcUpdate_unsynced validation u hs with
        ⟨before, -, -, -, hcore⟩ | ⟨hnot, -⟩
      · rw [step_core, hcore]
      · exact absurd hsets hnot
  | true =>
      obtain ⟨hcore, hiff⟩ := x.core.handleRtcUpdate_synced validation u hs
      obtain ⟨hvalid, htype, -⟩ := hiff.mp hsets
      rw [step_core, hcore]
      exact if_pos ⟨hvalid, htype⟩

theorem type_step (htype : ∀ t, x.lastSet = some t → x.core.tsSyncType = t)
    (hraises : x.RaisesSet validation u) :
    ∀ t, (x.step validation u).lastSet = some t → (x.step validation u).core.tsSyncType = t := by
  intro t ht
  by_cases hsets : x.core.Sets validation u
  · obtain rfl : u.syncType = t := by simpa [step, hsets] using ht
    exact type_of_sets hsets
  · have hlast : x.lastSet = some t := by simpa [step, hsets] using ht
    rw [((unchanged_iff x u).mpr hraises hsets).2]
    exact htype t hlast

/-- Status and type reflect the clock exactly if no update that raises the
sync type fails to set it. -/
theorem reflects_iff (validation : ℤ) (updates : List Update) :
    Reflects validation updates ↔ Always (step validation) (RaisesSet validation) init updates := by
  have hinv : ∀ x u, Inv x → (x.step validation u).Inv := fun _ u hx ↦ inv_step hx u
  have hreached : ∀ pre : List Update, (pre.foldl (step validation) init).Inv :=
    invariant_of_step Inv hinv inv_init
  constructor
  · intro h
    simpa only [unchanged_iff] using h.unchanged
  · intro h
    refine ⟨fun pre u _ _ ↦ type_le_step (hreached pre) u, fun pre _ ↦ ?_, fun pre hpre ↦ ?_, ?_⟩
    · rw [(hreached pre).status]
    · have hboth := invariant (fun x ↦ x.Inv ∧ ∀ t, x.lastSet = some t → x.core.tsSyncType = t)
        (fun x u hx hraises ↦ ⟨inv_step hx.1 u, type_step hx.2 hraises⟩)
        ⟨inv_init, fun t ht ↦ by simp [init] at ht⟩ (h.initial hpre)
      exact hboth.2
    · simpa only [unchanged_iff] using h

/-- The clock is set by GPS; a later SNTP time cannot be set. -/
def failedRaise : List Update :=
  [⟨10, .gps, some 1, true, some 1, true, true⟩, ⟨20, .sntp, some 11, true, some 11, false, true⟩]

/-- The sync type is that of the time that was not set. -/
theorem not_reflects_failedRaise : ¬Reflects 0 failedRaise := by
  intro h
  have htype := h.type failedRaise (List.prefix_refl _) .gps (by decide)
  revert htype
  decide

end Clocked

/-! ## Back-dating over a run -/

inductive Action where
  | rtcUpdate (u : Update)
  | syncTimestamps (tsArr : Option (List TimestampStatus))

namespace Core

def step (validation : ℤ) (s : Core) : Action → Core
  | .rtcUpdate u => (s.handleRtcUpdate validation u).2.1
  | .syncTimestamps _ => s

/-- The action is not an RTC update that succeeds. -/
def NoSuccess (validation : ℤ) (s : Core) : Action → Prop
  | .rtcUpdate u => (s.handleRtcUpdate validation u).1 ≠ .ok
  | .syncTimestamps _ => True

end Core

/-- An unsynced positive entry moves by the constant and is marked. -/
def TimestampStatus.shift (c : ℤ) (ts : TimestampStatus) : TimestampStatus :=
  if ts.syncStatus = false ∧ 0 < ts.timestamp then ⟨ts.timestamp + c, true⟩ else ts

/-- What `sync_timestamps` does after a run: nothing before the first RTC
update that succeeds, then the shift by the difference of the two times of
that update. -/
structure BackDates (validation : ℤ) (actions : List Action) : Prop where
  before : Always (Core.step validation) (Core.NoSuccess validation) .init actions →
    ∀ arr, (actions.foldl (Core.step validation) .init).syncTimestamps (some arr) =
      (.notSyncedErr, some arr)
  after : ∀ pre u post, actions = pre ++ .rtcUpdate u :: post →
    Always (Core.step validation) (Core.NoSuccess validation) .init pre →
    ((pre.foldl (Core.step validation) .init).handleRtcUpdate validation u).1 = .ok →
    ∃ systemTime, u.getTimestampAgain = some systemTime ∧
      ∀ arr, (actions.foldl (Core.step validation) .init).syncTimestamps (some arr) =
        (.ok, some (arr.map (.shift (u.timestamp - systemTime))))
  again : ∀ arr, let s := actions.foldl (Core.step validation) .init
    (s.syncTimestamps (s.syncTimestamps (some arr)).2).2 = (s.syncTimestamps (some arr)).2

theorem TimestampStatus.sync_eq_shift (rtcSync beforeRtc : ℤ) :
    TimestampStatus.sync rtcSync beforeRtc = .shift (rtcSync - beforeRtc) := by
  funext ts
  have hsum : rtcSync - (beforeRtc - ts.timestamp) = ts.timestamp + (rtcSync - beforeRtc) := by
    ring
  simp [sync, shift, hsum]

theorem TimestampStatus.shift_shift (c : ℤ) (ts : TimestampStatus) :
    (ts.shift c).shift c = ts.shift c := by
  by_cases h : ts.syncStatus = false ∧ 0 < ts.timestamp
  · simp [shift, h]
  · simp only [shift, if_neg h]

namespace Core

variable {validation : ℤ} {s : Core} {actions : List Action}

/-- Before the first success the status stays. -/
theorem status_step (hs : s.tsSyncStatus = false) (a : Action) (ha : s.NoSuccess validation a) :
    (s.step validation a).tsSyncStatus = false := by
  cases a with
  | rtcUpdate u =>
      rcases s.handleRtcUpdate_unsynced validation u hs with
        ⟨before, -, -, hok, -⟩ | ⟨-, -, before, hcore⟩
      · exact absurd hok ha
      · rw [step, hcore]
        exact hs
  | syncTimestamps tsArr => exact hs

theorem status_run (h : Always (step validation) (NoSuccess validation) .init actions) :
    (actions.foldl (step validation) .init).tsSyncStatus = false :=
  invariant (fun s ↦ s.tsSyncStatus = false) (fun _ a hs ha ↦ status_step hs a ha) rfl h

/-- After it the two times stay. -/
structure Times (rtcSync beforeRtc : ℤ) (s : Core) : Prop where
  status : s.tsSyncStatus = true
  rtcSync : s.tsRtcSync = rtcSync
  beforeRtc : s.tsBeforeRtc = beforeRtc

theorem Times.step {rtcSync beforeRtc : ℤ} (hs : s.Times rtcSync beforeRtc) (a : Action) :
    (s.step validation a).Times rtcSync beforeRtc := by
  cases a with
  | rtcUpdate u =>
      rw [Core.step, (s.handleRtcUpdate_synced validation u hs.status).1]
      exact ⟨hs.status, hs.rtcSync, hs.beforeRtc⟩
  | syncTimestamps tsArr => exact hs

theorem Times.syncTimestamps {rtcSync beforeRtc : ℤ} (hs : s.Times rtcSync beforeRtc)
    (arr : List TimestampStatus) : s.syncTimestamps (some arr) =
      (.ok, some (arr.map (.shift (rtcSync - beforeRtc)))) := by
  rw [Core.syncTimestamps, hs.status, hs.rtcSync, hs.beforeRtc,
    TimestampStatus.sync_eq_shift, if_pos rfl]

theorem syncTimestamps_again (s : Core) (arr : List TimestampStatus) :
    (s.syncTimestamps (s.syncTimestamps (some arr)).2).2 = (s.syncTimestamps (some arr)).2 := by
  cases hs : s.tsSyncStatus with
  | false => simp [syncTimestamps, hs]
  | true =>
      have htimes : s.Times s.tsRtcSync s.tsBeforeRtc := ⟨hs, rfl, rfl⟩
      simp only [htimes.syncTimestamps, List.map_map, Function.comp_def,
        TimestampStatus.shift_shift]

end Core

/-- Over every run the entries are shifted by one constant. -/
theorem backDates (validation : ℤ) (actions : List Action) : BackDates validation actions := by
  refine ⟨fun h arr ↦ ?_, ?_, fun arr ↦ Core.syncTimestamps_again _ arr⟩
  · simp [Core.syncTimestamps, Core.status_run h]
  · rintro pre u post rfl hpre hok
    have hstatus := Core.status_run hpre
    rcases Core.handleRtcUpdate_unsynced validation u hstatus with
      ⟨systemTime, hagain, -, -, hcore⟩ | ⟨-, hfailed, -⟩
    · have htimes : Core.Times u.timestamp systemTime
          ((pre.foldl (Core.step validation) .init).step validation (.rtcUpdate u)) := by
        rw [Core.step, hcore]
        exact ⟨rfl, rfl, rfl⟩
      refine ⟨systemTime, hagain, fun arr ↦ ?_⟩
      rw [List.foldl_append, List.foldl_cons]
      exact (invariant_of_step (Core.Times u.timestamp systemTime)
        (fun _ a hs ↦ hs.step a) htimes post).syncTimestamps arr
    · exact absurd hok hfailed

/-- The clock cannot be set at first, is set to 1000 when it shows 7, and to
2000 later on. -/
def setAtSeven : List Action :=
  [.rtcUpdate ⟨900, .sntp, some 5, true, some 5, false, true⟩,
    .rtcUpdate ⟨1000, .sntp, some 7, true, some 7, true, true⟩,
    .rtcUpdate ⟨2000, .sntp, some 1100, true, some 1100, true, true⟩]

theorem backDates_setAtSeven :
    (setAtSeven.foldl (Core.step 0) .init).syncTimestamps
        (some [⟨3, false⟩, ⟨0, false⟩, ⟨4, true⟩]) =
      (.ok, some [⟨996, true⟩, ⟨0, false⟩, ⟨4, true⟩]) := by
  have hfirst : Always (Core.step 0) (Core.NoSuccess 0) .init (setAtSeven.take 1) := by
    refine always_cons.mpr ⟨?_, always_nil⟩
    change _ ≠ _
    decide
  obtain ⟨systemTime, hagain, hshift⟩ := (backDates 0 setAtSeven).after (setAtSeven.take 1)
    ⟨1000, .sntp, some 7, true, some 7, true, true⟩ (setAtSeven.drop 2) rfl hfirst (by decide)
  obtain rfl : 7 = systemTime := Option.some.inj hagain
  rw [hshift]
  decide

end AnkerUpdater.TimeController
