import AnkerUpdater.Storage.NvStorageMan
import AnkerUpdater.TimeController.Core

/-!
# The clock over restarts

The time controller with the NVS behind it, from `timecontroller_module_init`
to the next restart.  A time is saved as 32 bits; `time_t` has 64.  The NVS
changes no other entry, and a set that fails leaves the old value or the new
one.
-/

namespace AnkerUpdater.TimeController

open EventLog NvStorageMan Runs

/-- `NVSM_KEY_TIMECONTROLLER_TIME_ZONE`: "_tctimzn". -/
def keyTimeZone : Key := [0x5F, 0x74, 0x63, 0x74, 0x69, 0x6D, 0x7A, 0x6E]

/-- `NVSM_KEY_TIMECONTROLLER_CURRENT_TIMESTAMP`: "_tc_localts". -/
def keyCurrentTimestamp : Key :=
  [0x5F, 0x74, 0x63, 0x5F, 0x6C, 0x6F, 0x63, 0x61, 0x6C, 0x74, 0x73]

def timezoneGmt0 : ℕ := 16

def timezoneMax : ℕ := 112

/-- The calls of one set; `written` tells whether a set that fails has left
the new value. -/
structure SaveEnv where
  nvsOpen : Bool
  nvsSet : Bool
  nvsCommit : Bool
  written : Bool

def SaveEnv.results (E : SaveEnv) (stored : Store) (type : NvsmType) (key : Key)
    (value : type.Value) : SetResults :=
  ⟨E.nvsOpen, E.nvsSet, E.nvsCommit, if E.written then stored.put type key value else stored⟩

/-- The NVS holds the value afterwards. -/
def SaveEnv.stores (E : SaveEnv) : Bool :=
  E.nvsOpen && (E.written || (E.nvsSet && E.nvsCommit))

/-- A write of a time to the NVS, and the start of the time controller that
sets the clock. -/
inductive ClockEvent where
  | saved (ts : UInt32)
  | started (build clock : ℤ)

/-- The static variables of the time controller, the system time, the build
time of the running firmware and the NVS. -/
structure Device where
  client : Bool
  core : Core
  cacheTimezone : ℕ
  timestampInit : ℤ
  clock : ℤ
  build : ℤ
  nvs : Store
  log : List ClockEvent

structure StartEnv where
  getTz : GetResults
  setTz : SaveEnv
  loadTs : GetResults
  settimeofday : Bool
  saveTs : SaveEnv

/-- `first` and `again` belong to the saves of `get_timestamp`, `saveTs` to
the one of `update_system_time`. -/
structure RtcEnv where
  first : SaveEnv
  calloc : Bool
  again : SaveEnv
  settimeofday : Bool
  restore : Bool
  saveTs : SaveEnv

/-- `client` and what the core returns. -/
inductive ClientRc where
  | clientErr
  | core (rc : Rc)
  deriving DecidableEq

namespace Device

variable (s : Device)

def factoryNew (clock build : ℤ) : Device :=
  ⟨false, .init, 0, 0, clock, build, fun _ _ ↦ none, []⟩

/-! ## The time zone -/

/-- `get_current_timezone`; the caller's variable is 0 before. -/
def getCurrentTimezone (R : GetResults) : ℕ × Device :=
  if s.cacheTimezone ≠ 0 then (s.cacheTimezone, s)
  else
    match nvsmGetU8 (some keyTimeZone) R s.nvs with
    | (rc, tz) =>
        if rc < 0 then (timezoneGmt0, s)
        else
          let tz := (tz.map (UInt8.toNat ·)).getD 0
          (tz, { s with cacheTimezone := tz })

def verifyTimezone (tz : ℕ) : Bool := tz ≠ 0 && tz ≤ timezoneMax

def setCurrentTimezone (tz : ℕ) (E : SaveEnv) : Device :=
  if !verifyTimezone tz then s
  else
    let value := UInt8.ofNat tz
    match nvsmSetU8 value (some keyTimeZone) (E.results s.nvs .u8 keyTimeZone value) s.nvs with
    | (rc, nvs) => { s with nvs := nvs, cacheTimezone := if rc < 0 then s.cacheTimezone else tz }

def initTimezone (get : GetResults) (set : SaveEnv) : Device :=
  let r := s.getCurrentTimezone get
  r.2.setCurrentTimezone r.1 set

/-! ## The time -/

/-- The cast to `uint32_t`. -/
def word (ts : ℤ) : UInt32 := UInt32.ofInt ts

/-- `timecontroller_core_save_ts_to_storage` -/
def saveTsToStorage (ts : ℤ) (E : SaveEnv) : Rc × Device :=
  let results := E.results s.nvs .u32 keyCurrentTimestamp (word ts)
  match nvsmSetU32 (word ts) (some keyCurrentTimestamp) results s.nvs with
  | (rc, nvs) =>
      (if rc < 0 then .errGeneral else .ok,
        { s with nvs := nvs, log := s.log ++ if E.stores then [.saved (word ts)] else [] })

/-- `timecontroller_core_load_ts_from_storage` writes to `timestamp_init`. -/
def loadTsFromStorage (R : GetResults) : Rc × Device :=
  match nvsmGetU32 (some keyCurrentTimestamp) R s.nvs with
  | (rc, ts) =>
      (if rc < 0 then .errGeneral else .ok,
        { s with timestampInit := (ts.map fun v : UInt32 ↦ (v.toNat : ℤ)).getD s.timestampInit })

/-- What `update_system_time` does once `settimeofday` has set the clock. -/
def setClock (ts : ℤ) (E : SaveEnv) : Device := ({ s with clock := ts }.saveTsToStorage ts E).2

def initTimestamp (E : StartEnv) : Device :=
  let s :=
    match s.loadTsFromStorage E.loadTs with
    | (.ok, s) => s
    | (_, s) => { s with timestampInit := s.build }
  if E.settimeofday then
    { s with log := s.log ++ [ClockEvent.started s.build s.timestampInit] }.setClock
      s.timestampInit E.saveTs
  else s

/-- `timecontroller_init` -/
def start (E : StartEnv) : Device :=
  if s.client then s else ({ s with client := true }.initTimezone E.getTz E.setTz).initTimestamp E

/-- `timecontroller_get_timestamp_without_timezone`; `none` is
TIMCON_CLIENT_ERR. -/
def getTimestampWithoutTimezone (forceTimesave : Bool) (E : SaveEnv) :
    Option TimestampStatus × Device :=
  if !s.client then (none, s)
  else
    (some ⟨s.clock, s.core.tsSyncStatus⟩,
      if forceTimesave then (s.saveTsToStorage s.clock E).2 else s)

def ClockSet.value : ClockSet → ℤ
  | .toTimestamp ts => ts
  | .toPrevious ts => ts

/-- The saves of the `get_timestamp` calls of one RTC update. -/
def forcedSaves (timestamp : ℤ) (E : RtcEnv) : Device :=
  if timestamp < s.build || s.core.tsSyncStatus then s
  else
    let s := (s.getTimestampWithoutTimezone true E.first).2
    if E.calloc then (s.getTimestampWithoutTimezone true E.again).2 else s

/-- `timecontroller_handle_rtc_update` -/
def handleRtcUpdate (timestamp : ℤ) (syncType : SyncType) (E : RtcEnv) : ClientRc × Device :=
  if !s.client then (.clientErr, s)
  else
    match s.core.handleRtcUpdate s.build
      ⟨timestamp, syncType, some s.clock, E.calloc, some s.clock, E.settimeofday, E.restore⟩ with
    | (rc, core, sets) =>
        let s := s.forcedSaves timestamp E
        (.core rc,
          { sets.foldl (fun s v ↦ s.setClock (ClockSet.value v) E.saveTs) s with core := core })

/-- `timecontroller_update_last_timestamp` -/
def updateLastTimestamp (E : SaveEnv) : Rc × Device := s.saveTsToStorage s.clock E

/-- `timecontroller_update_invalid_timestamp` -/
def updateInvalidTimestamp (timestamp : ℤ) (settimeofday : Bool) (E again : SaveEnv) :
    Rc × Device :=
  if settimeofday then (s.setClock timestamp E).saveTsToStorage timestamp again
  else (.errGeneral, s)

/-! ## Runs -/

/-- Only the NVS survives a restart; the system time may. -/
def restart (clock build : ℤ) : Device :=
  { factoryNew clock build with nvs := s.nvs, log := s.log }

inductive Action where
  | start (E : StartEnv)
  | seconds (n : ℕ)
  | getTimestamp (forceTimesave : Bool) (E : SaveEnv)
  | handleRtcUpdate (timestamp : ℤ) (syncType : SyncType) (E : RtcEnv)
  | updateLastTimestamp (E : SaveEnv)
  | updateInvalidTimestamp (timestamp : ℤ) (settimeofday : Bool) (E again : SaveEnv)
  | restart (clock build : ℤ)

def step : Action → Device
  | .start E => s.start E
  | .seconds n => { s with clock := s.clock + n }
  | .getTimestamp forceTimesave E => (s.getTimestampWithoutTimezone forceTimesave E).2
  | .handleRtcUpdate timestamp syncType E => (s.handleRtcUpdate timestamp syncType E).2
  | .updateLastTimestamp E => if s.client then (s.updateLastTimestamp E).2 else s
  | .updateInvalidTimestamp timestamp settimeofday E again =>
      if s.client then (s.updateInvalidTimestamp timestamp settimeofday E again).2 else s
  | .restart clock build => s.restart clock build

def run (clock build : ℤ) (actions : List Action) : Device :=
  actions.foldl step (factoryNew clock build)

end Device

/-! ## The time after a start -/

/-- The time that was saved last, over all restarts. -/
def lastSaved (log : List ClockEvent) : Option UInt32 :=
  log.foldl (fun last e ↦ match e with
    | .saved ts => some ts
    | .started .. => last) none

def startTime (saved : Option UInt32) (build : ℤ) : ℤ :=
  (saved.map fun v ↦ (v.toNat : ℤ)).getD build

/-- A start goes on from the time saved last, or from the build time. -/
def Continues (pre : List ClockEvent) : ClockEvent → Prop
  | .saved _ => True
  | .started build clock => clock = startTime (lastSaved pre) build

namespace Device

def savedTs (s : Device) : Option UInt32 := s.nvs .u32 keyCurrentTimestamp

/-- A start that sets the clock can read what is saved, or nothing hangs on
it: a read that fails gives the build time, an NVS that cannot be opened 0. -/
def ReadsBack (s : Device) : Action → Prop
  | .start E => s.client = false → E.settimeofday = true →
      (E.loadTs.nvsOpen = false → startTime s.savedTs s.build = 0) ∧
      (E.loadTs.nvsOpen = true → E.loadTs.nvsGet = false →
        startTime s.savedTs s.build = s.build)
  | _ => True

structure Inv (s : Device) : Prop where
  saved : lastSaved s.log = s.savedTs
  fresh : s.client = false → s.timestampInit = 0

/-- Some times have been saved. -/
structure Saves (s s' : Device) : Prop where
  client : s'.client = s.client
  timestampInit : s'.timestampInit = s.timestampInit
  build : s'.build = s.build
  log : ∃ words : List UInt32, s'.log = s.log ++ words.map .saved
  saved : lastSaved s.log = s.savedTs → lastSaved s'.log = s'.savedTs

variable {s s' s'' : Device}

theorem Saves.refl (s : Device) : Saves s s :=
  ⟨rfl, rfl, rfl, ⟨[], by simp⟩, id⟩

theorem Saves.trans (h : Saves s s') (h' : Saves s' s'') : Saves s s'' := by
  obtain ⟨words, hwords⟩ := h.log
  obtain ⟨words', hwords'⟩ := h'.log
  refine ⟨h'.client.trans h.client, h'.timestampInit.trans h.timestampInit,
    h'.build.trans h.build, ⟨words ++ words', ?_⟩, h'.saved ∘ h.saved⟩
  rw [hwords', hwords, List.map_append, List.append_assoc]

theorem Saves.inv (h : Saves s s') (hs : s.Inv) : s'.Inv :=
  ⟨h.saved hs.saved, fun hclient ↦ h.timestampInit.trans (hs.fresh (h.client ▸ hclient))⟩

theorem eachAt_continues_saved {log : List ClockEvent} (words : List UInt32) :
    EachAt Continues (log ++ words.map .saved) ↔ EachAt Continues log := by
  rw [eachAt_append]
  refine and_iff_left (eachAt_of_forall fun e he pre ↦ ?_)
  obtain ⟨ts, -, rfl⟩ := List.mem_map.mp he
  exact trivial

theorem Saves.eachAt_continues_iff (h : Saves s s') :
    EachAt Continues s'.log ↔ EachAt Continues s.log := by
  obtain ⟨words, hwords⟩ := h.log
  rw [hwords, eachAt_continues_saved]

theorem lastSaved_append_saved (log : List ClockEvent) (ts : UInt32) :
    lastSaved (log ++ [.saved ts]) = some ts := by
  rw [lastSaved, List.foldl_append]
  rfl

theorem lastSaved_append_started (log : List ClockEvent) (build clock : ℤ) :
    lastSaved (log ++ [.started build clock]) = lastSaved log := by
  rw [lastSaved, List.foldl_append]
  rfl

/-! ## The operations -/

theorem set_saved (E : SaveEnv) (stored : Store) (ts : UInt32) :
    (nvsmSetU32 ts (some keyCurrentTimestamp)
      (E.results stored .u32 keyCurrentTimestamp ts) stored).2 .u32 keyCurrentTimestamp =
      if E.stores then some ts else stored .u32 keyCurrentTimestamp := by
  obtain ⟨nvsOpen, nvsSet, nvsCommit, written⟩ := E
  cases nvsOpen <;> cases nvsSet <;> cases nvsCommit <;> cases written <;> rfl

/-- The time zone is another entry. -/
theorem set_timezone (E : SaveEnv) (stored : Store) (tz : UInt8) :
    (nvsmSetU8 tz (some keyTimeZone) (E.results stored .u8 keyTimeZone tz) stored).2 .u32
      keyCurrentTimestamp = stored .u32 keyCurrentTimestamp := by
  obtain ⟨nvsOpen, nvsSet, nvsCommit, written⟩ := E
  cases nvsOpen <;> cases nvsSet <;> cases nvsCommit <;> cases written <;>
    simp [nvsmSetU8, NvStorageMan.set, SaveEnv.results, Values.get, Store.put]

theorem saves_saveTsToStorage (s : Device) (ts : ℤ) (E : SaveEnv) :
    Saves s (s.saveTsToStorage ts E).2 := by
  have hset := set_saved E s.nvs (word ts)
  refine ⟨rfl, rfl, rfl, ⟨if E.stores then [word ts] else [], ?_⟩, fun h ↦ ?_⟩
  · simp only [saveTsToStorage]
    split_ifs <;> rfl
  · simp only [saveTsToStorage, savedTs, hset]
    cases E.stores with
    | false => simpa [savedTs] using h
    | true => exact lastSaved_append_saved s.log (word ts)

theorem saves_setClock (s : Device) (ts : ℤ) (E : SaveEnv) : Saves s (s.setClock ts E) := by
  have hsaves := saves_saveTsToStorage { s with clock := ts } ts E
  exact ⟨hsaves.client, hsaves.timestampInit, hsaves.build, hsaves.log, hsaves.saved⟩

theorem saves_getTimestamp (s : Device) (forceTimesave : Bool) (E : SaveEnv) :
    Saves s (s.getTimestampWithoutTimezone forceTimesave E).2 := by
  rw [getTimestampWithoutTimezone]
  cases hclient : s.client with
  | false => exact .refl s
  | true =>
      cases forceTimesave with
      | false => exact .refl s
      | true => exact saves_saveTsToStorage s s.clock E

/-- `init_timezone` changes the cached time zone and its entry in the NVS. -/
theorem initTimezone_spec (s : Device) (get : GetResults) (set : SaveEnv) :
    ∃ cache nvs, s.initTimezone get set = { s with cacheTimezone := cache, nvs := nvs } ∧
      nvs .u32 keyCurrentTimestamp = s.nvs .u32 keyCurrentTimestamp := by
  have hget : ∃ cache, (s.getCurrentTimezone get).2 = { s with cacheTimezone := cache } := by
    simp only [getCurrentTimezone]
    split_ifs
    · exact ⟨_, rfl⟩
    · exact ⟨_, rfl⟩
    · exact ⟨_, rfl⟩
  obtain ⟨cache, hcache⟩ := hget
  rw [initTimezone, hcache, setCurrentTimezone]
  split_ifs
  · exact ⟨_, _, rfl, rfl⟩
  · exact ⟨_, _, rfl, set_timezone set s.nvs _⟩

theorem saves_handleRtcUpdate (s : Device) (timestamp : ℤ) (syncType : SyncType) (E : RtcEnv) :
    Saves s (s.handleRtcUpdate timestamp syncType E).2 := by
  simp only [handleRtcUpdate]
  split_ifs
  · exact .refl s
  have hforced : Saves s (s.forcedSaves timestamp E) := by
    rw [forcedSaves]
    split_ifs
    · exact .refl s
    · exact (saves_getTimestamp s true E.first).trans (saves_getTimestamp _ true E.again)
    · exact saves_getTimestamp s true E.first
  have hsets (sets : List ClockSet) (s : Device) :
      Saves s (sets.foldl (fun s v ↦ s.setClock (ClockSet.value v) E.saveTs) s) := by
    induction sets generalizing s with
    | nil => exact .refl s
    | cons v sets ih => exact (saves_setClock s (ClockSet.value v) E.saveTs).trans (ih _)
  generalize s.core.handleRtcUpdate s.build _ = r
  have hall := hforced.trans (hsets r.2.2 _)
  exact ⟨hall.client, hall.timestampInit, hall.build, hall.log, hall.saved⟩

/-- The time that `init_timestamp` puts into the clock. -/
def initialTime (s : Device) (R : GetResults) : ℤ :=
  if R.nvsOpen then if R.nvsGet then startTime s.savedTs s.build else s.build
  else s.timestampInit

theorem initTimestamp_eq (s : Device) (E : StartEnv) :
    s.initTimestamp E =
      let s' := { s with timestampInit := s.initialTime E.loadTs }
      if E.settimeofday then
        { s' with log := s.log ++ [ClockEvent.started s.build (s.initialTime E.loadTs)] }.setClock
          (s.initialTime E.loadTs) E.saveTs
      else s' := by
  have hload : (match s.loadTsFromStorage E.loadTs with
      | (.ok, s) => s
      | (_, s) => { s with timestampInit := s.build }) =
      { s with timestampInit := s.initialTime E.loadTs } := by
    obtain ⟨nvsOpen, nvsGet⟩ := E.loadTs
    cases nvsOpen with
    | false => rfl
    | true =>
        cases nvsGet with
        | false => rfl
        | true =>
            simp only [loadTsFromStorage, nvsmGetU32, NvStorageMan.get, initialTime, startTime,
              savedTs, if_pos]
            cases s.nvs .u32 keyCurrentTimestamp with
            | none => rfl
            | some ts => rfl
  rw [initTimestamp, hload]

theorem initTimestamp_continues (hsaved : lastSaved s.log = s.savedTs) (hclient : s.client = true)
    (E : StartEnv) : (s.initTimestamp E).Inv ∧ (EachAt Continues (s.initTimestamp E).log ↔
      EachAt Continues s.log ∧ (E.settimeofday = true →
        s.initialTime E.loadTs = startTime s.savedTs s.build)) := by
  have hinv (s : Device) (hsaved : lastSaved s.log = s.savedTs) (hclient : s.client = true) :
      s.Inv := ⟨hsaved, fun hfalse ↦ by simp [hclient] at hfalse⟩
  rw [initTimestamp_eq]
  cases hset : E.settimeofday with
  | false => exact ⟨hinv _ hsaved hclient, by simp⟩
  | true =>
      have hstarted :=
        (lastSaved_append_started s.log s.build (s.initialTime E.loadTs)).trans hsaved
      have hsaves := saves_setClock { s with
        timestampInit := s.initialTime E.loadTs
        log := s.log ++ [ClockEvent.started s.build (s.initialTime E.loadTs)] }
        (s.initialTime E.loadTs) E.saveTs
      refine ⟨hsaves.inv (hinv _ hstarted hclient), hsaves.eachAt_continues_iff.trans ?_⟩
      rw [eachAt_append_singleton, Continues, hsaved]
      simp

theorem Inv.start (hs : s.Inv) (E : StartEnv) : (s.start E).Inv ∧
    (EachAt Continues (s.start E).log ↔ EachAt Continues s.log ∧ s.ReadsBack (.start E)) := by
  rw [Device.start]
  split_ifs with hclient
  · exact ⟨hs, (and_iff_left fun hnot ↦ absurd hclient (by simp [hnot])).symm⟩
  have hfalse : s.client = false := by simpa using hclient
  obtain ⟨cache, nvs, htz, hnvs⟩ := { s with client := true }.initTimezone_spec E.getTz E.setTz
  have hsaved : lastSaved s.log = nvs .u32 keyCurrentTimestamp := hs.saved.trans hnvs.symm
  obtain ⟨hinv, hiff⟩ := initTimestamp_continues
    (s := { s with client := true, cacheTimezone := cache, nvs := nvs }) hsaved rfl E
  rw [htz]
  refine ⟨hinv, hiff.trans (and_congr_right fun _ ↦ ?_)⟩
  rw [ReadsBack, forall_prop_of_true hfalse]
  refine imp_congr_right fun _ ↦ ?_
  simp only [initialTime, savedTs, hnvs, hs.fresh hfalse]
  cases E.loadTs.nvsOpen <;> cases E.loadTs.nvsGet <;> simp [eq_comm]

theorem Inv.step (hs : s.Inv) (a : Action) : (s.step a).Inv ∧
    (EachAt Continues (s.step a).log ↔ EachAt Continues s.log ∧ s.ReadsBack a) := by
  have hsaves {s' : Device} (h : Saves s s') :
      s'.Inv ∧ (EachAt Continues s'.log ↔ EachAt Continues s.log ∧ True) :=
    ⟨h.inv hs, h.eachAt_continues_iff.trans (and_iff_left trivial).symm⟩
  cases a with
  | start E => exact hs.start E
  | seconds n => exact hsaves ⟨rfl, rfl, rfl, ⟨[], by simp [Device.step]⟩, id⟩
  | getTimestamp forceTimesave E => exact hsaves (saves_getTimestamp s forceTimesave E)
  | handleRtcUpdate timestamp syncType E =>
      exact hsaves (saves_handleRtcUpdate s timestamp syncType E)
  | updateLastTimestamp E =>
      refine hsaves ?_
      rw [Device.step]
      split_ifs
      · exact saves_saveTsToStorage s s.clock E
      · exact .refl s
  | updateInvalidTimestamp timestamp settimeofday E again =>
      refine hsaves ?_
      rw [Device.step, Device.updateInvalidTimestamp]
      split_ifs
      · exact (saves_setClock s timestamp E).trans (saves_saveTsToStorage _ timestamp again)
      · exact .refl s
      · exact .refl s
  | restart clock build => exact ⟨⟨hs.saved, fun _ ↦ rfl⟩, (and_iff_left trivial).symm⟩

/-- Over all restarts, every start that sets the clock goes on from the time
saved last, exactly if it can read it or nothing hangs on the read. -/
theorem continues_iff (clock build : ℤ) (actions : List Action) :
    EachAt Continues (run clock build actions).log ↔
      Always step ReadsBack (factoryNew clock build) actions :=
  holds_iff (fun s ↦ EachAt Continues s.log) Inv (fun _ a hs ↦ (hs.step a).1)
    (fun _ a hs ↦ (hs.step a).2) ⟨rfl, fun _ ↦ rfl⟩ eachAt_nil

end Device

end AnkerUpdater.TimeController
