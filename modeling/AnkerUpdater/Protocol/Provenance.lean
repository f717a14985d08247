import AnkerUpdater.Lib.Runs
import AnkerUpdater.Protocol.Lifecycle

/-!
# Why a P-Anker joins an access point

Whatever restarts and power failures come, a P-Anker joins the access point
of a C-Anker only after an accepted request from it or because of the record
in `update.stat`, the record only stands for an image that was made the boot
partition, and that image is a whole sequence of accepted chunks.
-/

namespace AnkerUpdater

open AtomicFiles EventLog Storage UploadLog

/-! ## What the log shows -/

/-- Accepted chunks 0, 1, ... that came since the last restart. -/
structure Gathered (log : List LifeEvent) (ms : List UpdatePingInfo) : Prop where
  index : ∀ (i : ℕ) (m : UpdatePingInfo), ms[i]? = some m → m.seq.toNat = i
  received : ∀ m ∈ ms, Since (· = .restarted) (· = .received m) log

/-- The image is made of such chunks, the last one flagged and sent by the
C-Anker. -/
def WholeImage (log : List LifeEvent) (serial : Serial) (image : List UInt8) : Prop :=
  ∃ ms last, Gathered log (ms ++ [last]) ∧ last.isLast ≠ 0 ∧ last.serial = serial ∧
    image = ((ms ++ [last]).map UpdatePingInfo.payload).flatten

/-- An image of the C-Anker was activated, and the record not removed since. -/
def Installed (log : List LifeEvent) (serial : Serial) : Prop :=
  Since (· = .recordRemoved) (fun e ↦ ∃ image, e = .activated serial image) log

/-- Since the last restart the C-Anker has sent a request, or the record was
resumed. -/
def Wanted (log : List LifeEvent) (serial : Serial) : Prop :=
  Since (· = .restarted)
    (fun e ↦ (∃ m, m.serial = serial ∧ e = .requested m) ∨ e = .resumed serial) log

/-- An event with its reasons in the log before it. -/
def Authentic (sha256 : Sha256) (log : List LifeEvent) : LifeEvent → Prop
  | .received m => m.acceptedFirmware sha256
  | .requested m => m.accepted sha256 = true ∧ m.type = UpdatePingType.connectToAp.code
  | .activated serial image => WholeImage log serial image
  | .resumed serial => Installed log serial
  | .wifiConnect (some serial) => Wanted log serial
  | .wifiConnect none => True
  | .recordRemoved => True
  | .restarted => True

section

variable {log more : List LifeEvent} {ms : List UpdatePingInfo} {serial : Serial}

theorem Gathered.append (h : Gathered log ms) (hmore : ∀ e ∈ more, e ≠ .restarted) :
    Gathered (log ++ more) ms :=
  ⟨h.index, fun m hm ↦ (h.received m hm).append hmore⟩

theorem gathered_nil : Gathered log [] := ⟨by simp, by simp⟩

/-- The next chunk comes in. -/
theorem Gathered.concat {m : UpdatePingInfo} (h : Gathered log ms)
    (hseq : m.seq.toNat = ms.length) (hm : .received m ∈ more)
    (hmore : ∀ e ∈ more, e ≠ .restarted) : Gathered (log ++ more) (ms ++ [m]) := by
  constructor
  · intro i m' hi
    rcases Nat.lt_trichotomy i ms.length with hlt | rfl | hgt
    · rw [List.getElem?_append_left hlt] at hi
      exact h.index i m' hi
    · rw [List.getElem?_concat_length] at hi
      obtain rfl := Option.some.inj hi
      exact hseq
    · rw [List.getElem?_eq_none (by simpa using hgt)] at hi
      exact absurd hi (by simp)
  · intro m' hm'
    rcases List.mem_append.mp hm' with hm' | hm'
    · exact (h.received m' hm').append hmore
    · rw [List.mem_singleton.mp hm']
      exact since_of_mem hm rfl hmore

end

/-! ## The UDP task -/

/-- What an open session holds are the gathered chunks below `seq`. -/
structure TaskGathers (log : List LifeEvent) (t : PAnkerTask) : Prop where
  running : t.phase ≠ .restarted
  stored : t.seq ≠ 0 → isOpen t.calls = true → ∃ ms, Gathered log ms ∧
    ms.length = t.seq.toNat ∧ written t.calls = (ms.map UpdatePingInfo.payload).flatten

namespace TaskGathers

variable {log more : List LifeEvent} {t : PAnkerTask} {m : UpdatePingInfo}

theorem start : TaskGathers log .start := ⟨by simp [PAnkerTask.start], by simp [PAnkerTask.start]⟩

theorem append (h : TaskGathers log t) (hmore : ∀ e ∈ more, e ≠ .restarted) :
    TaskGathers (log ++ more) t := by
  refine ⟨h.running, fun hseq hopen ↦ ?_⟩
  obtain ⟨ms, hms, hlength, hwritten⟩ := h.stored hseq hopen
  exact ⟨ms, hms.append hmore, hlength, hwritten⟩

/-- The chunks in the session that a write meets. -/
theorem opened (h : TaskGathers log t) (hopen : isOpen t.opened.calls = true) :
    ∃ ms, Gathered log ms ∧ ms.length = t.seq.toNat ∧
      written t.opened.calls = (ms.map UpdatePingInfo.payload).flatten := by
  by_cases hseq : t.seq = 0
  · refine ⟨[], gathered_nil, by simp [hseq], ?_⟩
    rw [PAnkerTask.opened, if_pos hseq, PAnkerTask.log_calls, written_begin]
    rfl
  · rw [PAnkerTask.opened, if_neg hseq] at hopen ⊢
    exact h.stored hseq hopen

/-- The chunks in the session after the write of one more. -/
theorem wrote (h : TaskGathers log t) (hopen : isOpen t.opened.calls = true)
    (hseq : t.seq = m.seq) (hm : .received m ∈ more) (hmore : ∀ e ∈ more, e ≠ .restarted) :
    ∃ ms, Gathered (log ++ more) (ms ++ [m]) ∧ ms.length = t.seq.toNat ∧
      written (t.opened.log (.write m.payload true)).calls =
        ((ms ++ [m]).map UpdatePingInfo.payload).flatten := by
  obtain ⟨ms, hms, hlength, hwritten⟩ := h.opened hopen
  refine ⟨ms, hms.concat (by rw [hlength, hseq]) hm hmore, hlength, ?_⟩
  rw [PAnkerTask.log_calls, written_write_true, hwritten]
  simp

theorem toNat_add_one {x : UInt16} (h : x + 1 ≠ 0) : (x + 1).toNat = x.toNat + 1 := by
  have hlt : x.toNat < 65536 := x.toNat_lt
  have hone : (1 : UInt16).toNat = 1 := rfl
  by_contra hne
  rw [UInt16.toNat_add, hone] at hne
  apply h
  apply UInt16.toNat_inj.mp
  rw [UInt16.toNat_add, hone]
  have hzero : (0 : UInt16).toNat = 0 := rfl
  omega

theorem store {t' : PAnkerTask} {type : AckType} (h : TaskGathers log t)
    (hphase : t.phase = .running) (hseq : t.seq = m.seq) (hm : .received m ∈ more)
    (hmore : ∀ e ∈ more, e ≠ .restarted) (hout : PAnkerTask.StoreOutcome m t t' type) :
    (t'.phase ≠ .restarted → TaskGathers (log ++ more) t') ∧
      (t'.phase = .restarted → WholeImage (log ++ more) m.serial (written t'.calls)) := by
  have hrunning : t.opened.phase ≠ .restarted := by
    rw [PAnkerTask.opened_phase, hphase]
    simp
  cases hout with
  | noPartition hzero => exact ⟨fun _ ↦ h.append hmore, fun hr ↦ absurd hr h.running⟩
  | beginFailed hzero =>
      exact ⟨fun hr ↦ ⟨hr, fun hne ↦ absurd hzero hne⟩, fun hr ↦ absurd hr h.running⟩
  | writeFailed =>
      refine ⟨fun hr ↦ ⟨hr, fun hne hopen ↦ ?_⟩, fun hr ↦ absurd hr hrunning⟩
      rw [PAnkerTask.log_calls, isOpen_write] at hopen
      rw [PAnkerTask.log_calls, written_write_false, PAnkerTask.log_seq, PAnkerTask.opened_seq]
      obtain ⟨ms, hms, hlength, hwritten⟩ := h.opened hopen
      exact ⟨ms, hms.append hmore, hlength, hwritten⟩
  | stored hopen hlast =>
      refine ⟨fun hr ↦ ⟨hr, fun hne _ ↦ ?_⟩, fun hr ↦ absurd hr hrunning⟩
      obtain ⟨ms, hms, hlength, hwritten⟩ := h.wrote hopen hseq hm hmore
      refine ⟨ms ++ [m], hms, ?_, hwritten⟩
      rw [List.length_append, hlength, toNat_add_one hne]
      rfl
  | endFailed hopen hlast =>
      refine ⟨fun hr ↦ ⟨hr, fun _ hclosed ↦ ?_⟩, fun hr ↦ absurd hr hrunning⟩
      simp only [PAnkerTask.log_calls, isOpen_finish, Bool.false_eq_true] at hclosed
  | setBootFailed hopen hlast =>
      refine ⟨fun hr ↦ ⟨hr, fun _ hclosed ↦ ?_⟩, fun hr ↦ absurd hr hrunning⟩
      simp only [PAnkerTask.log_calls, isOpen_activate, isOpen_finish, Bool.false_eq_true]
        at hclosed
  | restarted hopen hlast =>
      refine ⟨fun hr ↦ absurd rfl hr, fun _ ↦ ?_⟩
      obtain ⟨ms, hms, -, hwritten⟩ := h.wrote hopen hseq hm hmore
      refine ⟨ms, m, hms, hlast, rfl, ?_⟩
      rw [← hwritten]
      simp only [PAnkerTask.log_calls, written_activate, written_finish]

/-- One datagram, logged if it is accepted firmware data. -/
theorem receive {sha256 : Sha256} {own : Anker} {r : LibResults} (h : TaskGathers log t)
    (hmore : ∀ e ∈ more, e ≠ .restarted)
    (hm : m.acceptedFirmware sha256 → .received m ∈ more) :
    ((t.receive sha256 own r m).1.phase ≠ .restarted →
      TaskGathers (log ++ more) (t.receive sha256 own r m).1) ∧
    ((t.receive sha256 own r m).1.phase = .restarted →
      WholeImage (log ++ more) m.serial (written (t.receive sha256 own r m).1.calls)) := by
  obtain ⟨t', acks, heq, hout⟩ := PAnkerTask.receive_outcome sha256 own r m t
  have hsame : (t.phase ≠ .restarted → TaskGathers (log ++ more) t) ∧ (t.phase = .restarted →
      WholeImage (log ++ more) m.serial (written t.calls)) :=
    ⟨fun _ ↦ h.append hmore, fun hr ↦ absurd hr h.running⟩
  rw [heq]
  cases hout with
  | ignored => exact hsame
  | answered type seq htype => exact hsame
  | deleted type hphase htype =>
      exact ⟨fun hr ↦ ⟨hr, (h.append hmore).stored⟩, fun hr ↦ absurd hr (by simp)⟩
  | resent hphase hfirmware hseq => exact hsame
  | store _ type hphase hfirmware hseq hstore =>
      exact h.store hphase hseq (hm hfirmware) hmore hstore

end TaskGathers

/-! ## The record -/

/-- `updater_start` resumes only from the record of an installed update. -/
theorem installedRecord_of_startFromRecord {E : StartEnv} {disk : Disk} {serial : Serial}
    (h : (startFromRecord E disk).2 = some serial) : InstalledRecord disk serial := by
  by_cases hfailed : E.statePartition = .failed
  · simp [startFromRecord, hfailed] at h
  by_cases hcheck :
      (Call.checkExistence (some pAnkerUpdateStatus) E.check).result disk ≠ (.ok, some true)
  · simp only [startFromRecord, if_neg hfailed, if_pos hcheck] at h
    exact absurd h (by simp)
  simp only [startFromRecord, if_neg hfailed, if_neg hcheck] at h
  rcases hread : readDataFromFile (some pAnkerUpdateStatus) readBinaryData sizeofPAnkerUpdateInfo
    E.read (Storage.step disk (.returns (.checkExistence (some pAnkerUpdateStatus) E.check)))
    with ⟨rc, _ | bytes⟩
  · cases rc <;> simp [hread] at h
  cases rc with
  | ok =>
      obtain ⟨content, hcontent, hstart⟩ := exists_content_of_readDataFromFile hread
      rw [step_check] at hcontent
      simp only [hread] at h
      cases hinfo : PAnkerUpdateInfo.ofBytes bytes with
      | none => simp [hinfo] at h
      | some info =>
          simp only [hinfo] at h
          split_ifs at h with hstatus
          refine ⟨content, info, hcontent, ?_, hstatus, Option.some.inj h⟩
          rw [← PAnkerUpdateInfo.length_of_ofBytes hinfo, ← List.prefix_iff_eq_take.mp hstart,
            hinfo]
  | errGeneral => simp [hread] at h
  | errNoMemoryLeft => simp [hread] at h
  | errFileOpen => simp [hread] at h
  | errFileRead => simp [hread] at h

/-- The calls of `updater_start` check the file and may erase it. -/
theorem mem_startFromRecord {E : StartEnv} {disk : Disk} {call : Call}
    (h : call ∈ (startFromRecord E disk).1) :
    call = .checkExistence (some pAnkerUpdateStatus) E.check ∨
      call = .erase (some pAnkerUpdateStatus) E.erase := by
  simp only [startFromRecord] at h
  split_ifs at h
  · exact absurd h List.not_mem_nil
  · exact .inl (List.mem_singleton.mp h)
  · split at h
    · split at h
      · exact .inl (List.mem_singleton.mp h)
      · split_ifs at h
        · exact .inl (List.mem_singleton.mp h)
        · simpa using h
    · exact .inl (List.mem_singleton.mp h)

theorem InstalledRecord.of_bytes {disk : Disk} {serial : Serial} {info : PAnkerUpdateInfo}
    (h : InstalledRecord disk serial) (hdisk : disk pAnkerUpdateStatus = some info.bytes) :
    info.status = updateStatusInstalled ∧ info.serial = serial := by
  obtain ⟨content, info', hcontent, hinfo, hstatus, hserial⟩ := h
  rw [hdisk] at hcontent
  obtain rfl := Option.some.inj hcontent
  rw [List.take_of_length_le info.length_bytes.le, PAnkerUpdateInfo.ofBytes_bytes] at hinfo
  obtain rfl := Option.some.inj hinfo
  exact ⟨hstatus, hserial⟩

namespace PAnkerDevice

section

variable {sha256 : Sha256} {own : Anker} {s : PAnkerDevice} {a : LifeAction} {v : Move}

/-! ## One move -/

/-- What holds in every state of a run. -/
structure Inv (sha256 : Sha256) (s : PAnkerDevice) : Prop where
  record : ∀ serial, InstalledRecord s.disk serial → Installed s.log serial
  joins : ∀ j ∈ s.volatile.joins, Wanted s.log j.serial
  tasks : ∀ id, TaskGathers s.log (s.volatile.udp id)
  log : EachAt (Authentic sha256) s.log

/-- A record that is written as installed stands for an image that has just
been activated. -/
def Justified (sha256 : Sha256) (own : Anker) (s : PAnkerDevice) (a : LifeAction)
    (data : Bytes) : Prop :=
  ∃ info : PAnkerUpdateInfo, data = info.bytes ∧ (info.status = updateStatusInstalled →
    ∃ image, .activated info.serial image ∈ s.events sha256 own a)

theorem mem_fileCalls {call : Call} (h : call ∈ s.fileCalls sha256 own a) :
    call.name = some pAnkerUpdateStatus ∧ ∀ name binary data E,
      call = .write name binary data E → Justified sha256 own s a data ∧ a.writeEnv = some E := by
  cases a with
  | updaterStart E =>
      simp only [fileCalls, startRecord] at h
      split_ifs at h
      · exact absurd h List.not_mem_nil
      · rcases mem_startFromRecord h with rfl | rfl
        · exact ⟨rfl, by simp⟩
        · exact ⟨rfl, by simp⟩
  | datagram id m r padding E =>
      simp only [fileCalls] at h
      split_ifs at h with hrestarts
      · obtain rfl := List.mem_singleton.mp h
        refine ⟨rfl, fun name binary data E' heq ↦ ?_⟩
        obtain ⟨-, -, rfl, rfl⟩ := Storage.Call.write.inj heq
        refine ⟨⟨_, rfl, fun _ ↦ ⟨written (s.afterDatagram sha256 own id m r).calls, ?_⟩⟩, rfl⟩
        simp only [events, if_pos hrestarts.1, if_pos hrestarts.2]
        exact List.mem_append_right _ (List.mem_singleton_self _)
      · exact absurd h List.not_mem_nil
  | request id m padding E =>
      simp only [fileCalls] at h
      split_ifs at h
      · obtain rfl := List.mem_singleton.mp h
        refine ⟨rfl, fun name binary data E' heq ↦ ?_⟩
        obtain ⟨-, -, rfl, rfl⟩ := Storage.Call.write.inj heq
        exact ⟨⟨_, rfl, fun hstatus ↦ absurd hstatus (by simp [updateStatusDownloading,
          updateStatusInstalled])⟩, rfl⟩
      · exact absurd h List.not_mem_nil
  | connectToDefaultAp id results E =>
      simp only [fileCalls] at h
      split_ifs at h
      · obtain rfl := List.mem_singleton.mp h
        exact ⟨rfl, by simp⟩
      · exact absurd h List.not_mem_nil
  | updaterStop => exact absurd h List.not_mem_nil
  | connectTaskStops i => exact absurd h List.not_mem_nil
  | connectTaskConnects i stopped results => exact absurd h List.not_mem_nil
  | taskPasses id ok => exact absurd h List.not_mem_nil
  | expire j => exact absurd h List.not_mem_nil
  | wake j => exact absurd h List.not_mem_nil
  | restart => exact absurd h List.not_mem_nil

theorem call_mem_fileCalls {action : Storage.Action} (h : action ∈ s.fileActions sha256 own v) :
    action.call ∈ s.fileCalls sha256 own v.action := by
  cases v with
  | does a =>
      obtain ⟨call, hcall, rfl⟩ := List.mem_map.mp h
      exact hcall
  | powerLoss a done k debris =>
      rcases List.mem_append.mp h with h | h
      · obtain ⟨call, hcall, rfl⟩ := List.mem_map.mp h
        exact List.mem_of_mem_take hcall
      · obtain ⟨call, hcall, rfl⟩ := List.mem_map.mp h
        exact List.mem_of_getElem? (Option.mem_toList.mp hcall)

/-- A write whose `fclose` succeeds delivers. -/
theorem delivers_of_fclose (h : v.action.writeEnv.all WriteEnv.fclose = true) :
    ∀ action ∈ s.fileActions sha256 own v, Delivers action := by
  intro action haction
  have hclose : ∀ name binary data E, action.call = .write name binary data E →
      E.fclose = true := by
    intro name binary data E heq
    have hE := ((mem_fileCalls (call_mem_fileCalls haction)).2 name binary data E heq).2
    simpa [hE] using h
  rcases action with call | ⟨call, k, debris⟩
  · rcases call with ⟨_ | name, binary, data, E⟩ | ⟨name, E⟩ | ⟨name, E⟩
    · trivial
    · exact fun _ ↦ .inl (hclose _ _ _ _ rfl)
    · trivial
    · trivial
  · rcases call with ⟨_ | name, binary, data, E⟩ | ⟨name, E⟩ | ⟨name, E⟩
    · trivial
    · exact fun _ _ ↦ .inl (hclose _ _ _ _ rfl)
    · trivial
    · trivial

/-- The file after a move. -/
theorem diskAfter_cases (hdelivers : ∀ action ∈ s.fileActions sha256 own v, Delivers action) :
    s.diskAfter sha256 own v pAnkerUpdateStatus = s.disk pAnkerUpdateStatus ∨
      s.diskAfter sha256 own v pAnkerUpdateStatus = none ∨
      ∃ data, Justified sha256 own s v.action data ∧
        s.diskAfter sha256 own v pAnkerUpdateStatus = some data := by
  apply foldl_step_content separate_pAnkerUpdateStatus _ hdelivers
  · intro action haction binary data E heq
    exact ((mem_fileCalls (call_mem_fileCalls haction)).2 _ binary data E heq).1
  · intro action haction
    exact (mem_fileCalls (call_mem_fileCalls haction)).1

/-- No event before the file calls ends what came before. -/
theorem events_ne {e : LifeEvent} (h : e ∈ s.events sha256 own a) :
    e ≠ .recordRemoved ∧ e ≠ .restarted := by
  cases a with
  | updaterStart E => exact absurd h List.not_mem_nil
  | connectTaskConnects i stopped results =>
      simp only [events] at h
      split at h
      · exact absurd h List.not_mem_nil
      · split_ifs at h
        · rw [(List.mem_replicate.mp h).2]
          simp
        · exact absurd h List.not_mem_nil
  | datagram id m r padding E =>
      simp only [events] at h
      split_ifs at h <;> simp_all
      rcases h with rfl | rfl <;> simp
  | request id m padding E =>
      simp only [events] at h
      split_ifs at h <;> simp_all
  | connectToDefaultAp id results E =>
      simp only [events] at h
      split_ifs at h
      · rw [(List.mem_replicate.mp h).2]
        simp
      · exact absurd h List.not_mem_nil
  | updaterStop => exact absurd h List.not_mem_nil
  | connectTaskStops i => exact absurd h List.not_mem_nil
  | taskPasses id ok => exact absurd h List.not_mem_nil
  | expire j => exact absurd h List.not_mem_nil
  | wake j => exact absurd h List.not_mem_nil
  | restart => exact absurd h List.not_mem_nil

theorem eachAt_replicate {P : List LifeEvent → LifeEvent → Prop} {e : LifeEvent} {n : ℕ}
    (h : ∀ pre : List LifeEvent, (∀ b ∈ pre, b = e) → P pre e) :
    EachAt P (List.replicate n e) := by
  intro pre b post heq
  have hmem : ∀ c ∈ pre ++ b :: post, c = e := by
    rw [← heq]
    exact fun c hc ↦ (List.mem_replicate.mp hc).2
  rw [hmem b (by simp)]
  exact h pre fun c hc ↦ hmem c (by simp [hc])

theorem eachAt_singleton {P : List LifeEvent → LifeEvent → Prop} {e : LifeEvent} (h : P [] e) :
    EachAt P [e] :=
  eachAt_cons.mpr ⟨h, eachAt_nil⟩

/-- The reasons of an event are in the log when it comes. -/
theorem Inv.events (h : s.Inv sha256) :
    EachAt (fun pre e ↦ Authentic sha256 (s.log ++ pre) e) (s.events sha256 own a) := by
  cases a with
  | updaterStart E => exact eachAt_nil
  | connectTaskConnects i stopped results =>
      simp only [PAnkerDevice.events]
      cases hjoin : s.volatile.joins[i]? with
      | none => exact eachAt_nil
      | some j =>
          dsimp only
          split_ifs
          · refine eachAt_replicate fun pre hpre ↦ ?_
            refine (h.joins j (List.mem_of_getElem? hjoin)).append fun b hb ↦ ?_
            rw [hpre b hb]
            simp
          · exact eachAt_nil
  | datagram id m r padding E =>
      simp only [PAnkerDevice.events]
      split_ifs with hlistens hfirmware hrestarts hrestarts
      · refine eachAt_cons.mpr ⟨hfirmware, eachAt_singleton ?_⟩
        have hmore : ∀ e ∈ [LifeEvent.received m], e ≠ .restarted := by simp
        exact ((h.tasks id).receive hmore fun _ ↦ List.mem_singleton_self _).2 hrestarts
      · exact eachAt_singleton hfirmware
      · apply eachAt_singleton
        have hmore : ∀ e ∈ ([] : List LifeEvent), e ≠ .restarted := by simp
        exact ((h.tasks id).receive hmore fun hm ↦ absurd hm hfirmware).2 hrestarts
      · exact eachAt_nil
      · exact eachAt_nil
  | request id m padding E =>
      simp only [PAnkerDevice.events]
      split_ifs with hobeys
      · exact eachAt_singleton hobeys.2
      · exact eachAt_nil
  | connectToDefaultAp id results E =>
      simp only [PAnkerDevice.events]
      split_ifs
      · exact eachAt_replicate fun _ _ ↦ trivial
      · exact eachAt_nil
  | updaterStop => exact eachAt_nil
  | connectTaskStops i => exact eachAt_nil
  | taskPasses id ok => exact eachAt_nil
  | expire j => exact eachAt_nil
  | wake j => exact eachAt_nil
  | restart => exact eachAt_nil

theorem mem_lateEvents {e : LifeEvent} (h : e ∈ s.lateEvents sha256 own v) :
    (∃ E serial, v = .does (.updaterStart E) ∧ (s.startRecord E).2 = some serial ∧
      e = .resumed serial) ∨
    (e = .restarted ∧ s.memoryAfter sha256 own v = none) ∨
    (e = .recordRemoved ∧ s.diskAfter sha256 own v pAnkerUpdateStatus = none) := by
  rcases List.mem_append.mp h with h | h
  · split at h
    · next E hmemory haction =>
        obtain ⟨serial, hserial, rfl⟩ := List.mem_map.mp h
        cases v with
        | powerLoss a done k debris => exact absurd hmemory (by simp [memoryAfter])
        | does a =>
            obtain rfl : a = .updaterStart E := haction
            exact .inl ⟨E, serial, rfl, Option.mem_toList.mp hserial, rfl⟩
    · exact absurd h List.not_mem_nil
    · next hmemory => exact .inr (.inl ⟨List.mem_singleton.mp h, hmemory⟩)
  · obtain ⟨hremoved, h⟩ := List.mem_ite_nil_right.mp h
    exact .inr (.inr ⟨List.mem_singleton.mp h, hremoved.2⟩)

/-- What the memory holds after an action is backed by the log. -/
theorem Inv.next {memory : Volatile} (h : s.Inv sha256)
    (hnext : s.next sha256 own a = some memory) :
    (∀ j ∈ memory.joins, Wanted (s.log ++ s.logged sha256 own (.does a)) j.serial) ∧
      ∀ id, TaskGathers (s.log ++ s.logged sha256 own (.does a)) (memory.udp id) := by
  have hlogged : ∀ e ∈ s.logged sha256 own (.does a), e ≠ .restarted := by
    intro e he
    rcases List.mem_append.mp he with he | he
    · exact (events_ne he).2
    · rcases mem_lateEvents he with ⟨E, serial, -, -, rfl⟩ | ⟨-, hnone⟩ | ⟨rfl, -⟩
      · simp
      · exact absurd (hnone.symm.trans hnext) (by simp)
      · simp
  have hearly : ∀ {e}, e ∈ s.events sha256 own a → e ∈ s.logged sha256 own (.does a) :=
    fun he ↦ List.mem_append_left _ he
  have hjoins : ∀ j ∈ s.volatile.joins, Wanted (s.log ++ s.logged sha256 own (.does a)) j.serial :=
    fun j hj ↦ (h.joins j hj).append hlogged
  have htasks : ∀ id, TaskGathers (s.log ++ s.logged sha256 own (.does a)) (s.volatile.udp id) :=
    fun id ↦ (h.tasks id).append hlogged
  cases a with
  | updaterStart E =>
      simp only [PAnkerDevice.next] at hnext
      cases hserial : (s.startRecord E).2 with
      | none =>
          rw [hserial] at hnext
          obtain rfl := Option.some.inj hnext
          exact ⟨hjoins, htasks⟩
      | some serial =>
          have hresumed : .resumed serial ∈ s.logged sha256 own (.does (.updaterStart E)) := by
            apply List.mem_append_right
            apply List.mem_append_left
            simp [memoryAfter, PAnkerDevice.next, Move.action, hserial]
          rw [hserial] at hnext
          obtain rfl := Option.some.inj hnext
          refine ⟨fun j hj ↦ ?_, htasks⟩
          rcases List.mem_append.mp hj with hj | hj
          · exact hjoins j hj
          · rw [List.mem_singleton.mp hj]
            exact since_of_mem hresumed (.inr rfl) hlogged
  | connectTaskStops i =>
      simp only [PAnkerDevice.next] at hnext
      split at hnext
      · next serial hjoin =>
          obtain rfl := Option.some.inj hnext
          refine ⟨fun j hj ↦ ?_, htasks⟩
          rcases List.mem_or_eq_of_mem_set hj with hj | rfl
          · exact hjoins j hj
          · exact hjoins ⟨serial, false⟩ (List.mem_of_getElem? hjoin)
      · obtain rfl := Option.some.inj hnext
        exact ⟨hjoins, htasks⟩
  | connectTaskConnects i stopped results =>
      simp only [PAnkerDevice.next] at hnext
      split at hnext
      · obtain rfl := Option.some.inj hnext
        exact ⟨fun j hj ↦ hjoins j (List.mem_of_mem_eraseIdx hj), htasks⟩
      · obtain rfl := Option.some.inj hnext
        exact ⟨hjoins, htasks⟩
  | datagram id m r padding E =>
      simp only [PAnkerDevice.next] at hnext
      split_ifs at hnext with hlistens
      · have htask : (s.afterDatagram sha256 own id m r).phase ≠ .restarted →
            ∀ id', TaskGathers (s.log ++ s.logged sha256 own (.does (.datagram id m r padding E)))
              (Function.update s.volatile.udp id (s.afterDatagram sha256 own id m r) id') := by
          intro hphase id'
          by_cases heq : id' = id
          · subst heq
            rw [Function.update_self]
            refine ((h.tasks id').receive hlogged fun hm ↦ hearly ?_).1 hphase
            have hfirmware : m.accepted sha256 = true ∧
                m.type = UpdatePingType.sendFirmwareData.code := hm
            rw [PAnkerDevice.events, if_pos hlistens, if_pos hfirmware]
            exact List.mem_append_left _ (List.mem_singleton_self _)
          · rw [Function.update_of_ne heq]
            exact htasks id'
        split at hnext
        · exact absurd hnext (by simp)
        · next hphase =>
            obtain rfl := Option.some.inj hnext
            exact ⟨hjoins, htask (by simp [hphase])⟩
        · next hphase =>
            obtain rfl := Option.some.inj hnext
            exact ⟨hjoins, htask (by simp [hphase])⟩
      · obtain rfl := Option.some.inj hnext
        exact ⟨hjoins, htasks⟩
  | request id m padding E =>
      simp only [PAnkerDevice.next] at hnext
      split_ifs at hnext with hobeys hlistens
      · obtain rfl := Option.some.inj hnext
        refine ⟨fun j hj ↦ ?_, htasks⟩
        rcases List.mem_append.mp hj with hj | hj
        · exact hjoins j hj
        · rw [List.mem_singleton.mp hj]
          refine since_of_mem (hearly ?_) (.inl ⟨m, rfl, rfl⟩) hlogged
          simp [PAnkerDevice.events, hobeys]
      · obtain rfl := Option.some.inj hnext
        exact ⟨hjoins, htasks⟩
      · obtain rfl := Option.some.inj hnext
        exact ⟨hjoins, htasks⟩
  | taskPasses id ok =>
      simp only [PAnkerDevice.next] at hnext
      split_ifs at hnext <;> obtain rfl := Option.some.inj hnext <;> exact ⟨hjoins, htasks⟩
  | connectToDefaultAp id results E =>
      simp only [PAnkerDevice.next] at hnext
      split_ifs at hnext <;> obtain rfl := Option.some.inj hnext <;> exact ⟨hjoins, htasks⟩
  | updaterStop =>
      obtain rfl := Option.some.inj hnext
      exact ⟨hjoins, htasks⟩
  | expire j =>
      obtain rfl := Option.some.inj hnext
      exact ⟨hjoins, htasks⟩
  | wake j =>
      obtain rfl := Option.some.inj hnext
      exact ⟨hjoins, htasks⟩
  | restart => exact absurd hnext (by simp [PAnkerDevice.next])

theorem installedRecord_of_startRecord {E : StartEnv} {serial : Serial}
    (h : (s.startRecord E).2 = some serial) : InstalledRecord s.disk serial := by
  rw [startRecord] at h
  split_ifs at h
  exact installedRecord_of_startFromRecord h

theorem Inv.lateEvents (h : s.Inv sha256) :
    EachAt (fun pre e ↦ Authentic sha256 (s.log ++ (s.events sha256 own v.action ++ pre)) e)
      (s.lateEvents sha256 own v) := by
  rw [PAnkerDevice.lateEvents, eachAt_append]
  constructor
  · split
    · next E _ haction =>
        cases hserial : (s.startRecord E).2 with
        | none => exact eachAt_nil
        | some serial =>
            apply eachAt_singleton
            rw [haction, List.append_nil]
            apply (h.record serial (installedRecord_of_startRecord hserial)).append
            simp [PAnkerDevice.events]
    · exact eachAt_nil
    · exact eachAt_singleton trivial
  · split_ifs
    · exact eachAt_singleton trivial
    · exact eachAt_nil

theorem Inv.logged (h : s.Inv sha256) :
    EachAt (fun pre e ↦ Authentic sha256 (s.log ++ pre) e) (s.logged sha256 own v) :=
  eachAt_append.mpr ⟨h.events, h.lateEvents⟩

theorem Inv.step (h : s.Inv sha256)
    (hdelivers : ∀ action ∈ s.fileActions sha256 own v, Delivers action) :
    (s.step sha256 own v).Inv sha256 := by
  have hmemory : (∀ j ∈ (s.step sha256 own v).volatile.joins,
      Wanted (s.step sha256 own v).log j.serial) ∧
      ∀ id, TaskGathers (s.step sha256 own v).log ((s.step sha256 own v).volatile.udp id) := by
    simp only [PAnkerDevice.step]
    cases hafter : s.memoryAfter sha256 own v with
    | none => exact ⟨by simp [afterRestart], fun _ ↦ TaskGathers.start⟩
    | some memory =>
        cases v with
        | powerLoss a done k debris => exact absurd hafter (by simp [memoryAfter])
        | does a => exact h.next hafter
  refine ⟨fun serial hrecord ↦ ?_, hmemory.1, hmemory.2, eachAt_append.mpr ⟨h.log, h.logged⟩⟩
  have hkept : ∀ e ∈ s.logged sha256 own v, e ≠ .recordRemoved := by
    obtain ⟨content, -, hcontent, -⟩ := hrecord
    intro e he
    rcases List.mem_append.mp he with he | he
    · exact (events_ne he).1
    · rcases mem_lateEvents he with ⟨E, serial, -, -, rfl⟩ | ⟨rfl, -⟩ | ⟨-, hnone⟩
      · simp
      · simp
      · exact absurd (hnone.symm.trans hcontent) (by simp)
  rcases diskAfter_cases hdelivers with hsame | hnone | ⟨data, ⟨info, rfl, hjustified⟩, hdata⟩
  · have hbefore : InstalledRecord s.disk serial := by
      obtain ⟨content, info, hcontent, hinfo⟩ := hrecord
      exact ⟨content, info, hsame ▸ hcontent, hinfo⟩
    exact (h.record serial hbefore).append hkept
  · obtain ⟨content, -, hcontent, -⟩ := hrecord
    exact absurd (hnone.symm.trans hcontent) (by simp)
  · obtain ⟨hstatus, rfl⟩ := hrecord.of_bytes hdata
    obtain ⟨image, himage⟩ := hjustified hstatus
    exact since_of_mem (List.mem_append_left _ himage) ⟨image, rfl⟩ hkept

theorem inv_powerOn {disk : Disk} (hfresh : ∀ serial, ¬InstalledRecord disk serial) :
    (powerOn disk).Inv sha256 where
  record serial hserial := absurd hserial (hfresh serial)
  joins := by simp [powerOn]
  tasks _ := TaskGathers.start
  log := eachAt_nil

end

/-- Everything a device does for an update has its reasons, over all
restarts and power failures. -/
theorem authentic_run (sha256 : Sha256) (own : Anker) (disk : Disk)
    (hfresh : ∀ serial, ¬InstalledRecord disk serial) (moves : List Move)
    (hdelivers : Runs.Always (step sha256 own)
      (fun s v ↦ ∀ action ∈ s.fileActions sha256 own v, Delivers action) (powerOn disk) moves) :
    EachAt (Authentic sha256) (run sha256 own disk moves).log :=
  (Runs.invariant (Inv sha256) (fun _ _ h hgood ↦ h.step hgood) (inv_powerOn hfresh) hdelivers).log

def okStart : StartEnv :=
  ⟨.state .valid, ⟨true, true, true, true⟩, ⟨true, true, true, true, true, true, 16⟩,
    ⟨true, true, true, true⟩⟩

def cAnker : Anker := ⟨Vector.replicate serialSize 7, []⟩

/-- The only chunk of an image comes, the power fails while `updater_start`
looks for the record, and the next start resumes. -/
def updated : List Move :=
  let chunk := updatePingInfo headHash cAnker .sendFirmwareData 0 true [1, 2] 2
  [.does (.updaterStart okStart), .does (.taskPasses 0 true), .does (.taskPasses 0 true),
    .does (.datagram 0 chunk PAnkerTask.LibResults.allOk (Vector.replicate 3 0) okWrite),
    .powerLoss (.updaterStart okStart) 0 0 none, .does (.updaterStart okStart),
    .does (.connectTaskStops 0), .does (.connectTaskConnects 0 true fun _ ↦ true)]

theorem authentic_updated :
    EachAt (Authentic headHash) (run headHash cAnker (fun _ ↦ none) updated).log ∧
      .wifiConnect (some cAnker.serial) ∈
        (run headHash cAnker (fun _ ↦ none) updated).log := by
  refine ⟨authentic_run headHash cAnker (fun _ ↦ none) ?_ updated ?_, by decide⟩
  · rintro serial ⟨content, info, hcontent, -⟩
    exact absurd hcontent (by simp)
  · intro pre v post heq
    have hclose : ∀ v ∈ updated, v.action.writeEnv.all WriteEnv.fclose = true := by decide
    exact delivers_of_fclose (hclose v (by simp [heq]))

end PAnkerDevice

end AnkerUpdater
