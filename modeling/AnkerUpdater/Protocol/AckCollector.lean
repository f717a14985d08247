import AnkerUpdater.Lib.Collect
import AnkerUpdater.Protocol.Messages

/-!
# The collector of acknowledgements

`retrieve_update_ping_ack` reads datagrams from the ack socket until its
window is over.  It is the collector of `Collect` for a rule that depends
on the phase: the rule's key is the serial, and its verdict is what the
body of the receive loop does with a datagram of an unseen serial.
-/

namespace AnkerUpdater

open Collect

/-- `p_ankers_to_update_t`.  The phases that ask for versions leave
`fail_cnt` unset in the entries they allocate and nothing reads it there;
the model writes 0. -/
structure PAnker where
  serial : Serial
  ip : UInt32
  acknowledged : Bool
  failCnt : ℕ
  deriving DecidableEq

structure AckDatagram where
  ip : UInt32
  info : UpdatePingAck
  deriving DecidableEq

/-- One turn of the receive loop: `esp_timer_get_time` when the loop
condition is tested, and what `recvfrom` returns after it. -/
structure Poll where
  time : ℕ
  datagram : Option AckDatagram
  deriving DecidableEq

/-- The loop condition, in 64-bit integers except for the start time, which
is kept in 32 bits. -/
def windowOpen (startMicros timeoutMs : ℕ) (now : ℕ) : Bool :=
  (now / 1000 : ℤ) - ((startMicros / 1000 % 2 ^ 32 : ℕ) : ℤ) < timeoutMs

def ackWindow (startMicros timeoutMs : ℕ) (polls : List Poll) : List AckDatagram :=
  (polls.takeWhile fun p ↦ windowOpen startMicros timeoutMs p.time).filterMap Poll.datagram

/-- `ack_info.version[ack_info.version_len] = '\0'` where it fits. -/
def UpdatePingAck.terminatedVersion (m : UpdatePingAck) : List UInt8 :=
  if m.versionLen.toNat < maxVersionSize then
    m.version.take m.versionLen.toNat ++ 0 :: m.version.drop (m.versionLen.toNat + 1)
  else m.version

def UpdatePingAck.sameVersion (own : Anker) (m : UpdatePingAck) : Bool :=
  strncmpEq m.terminatedVersion own.version maxVersionSize

def AckDatagram.entry (d : AckDatagram) (acknowledged : Bool) (failCnt : ℕ) : PAnker :=
  ⟨d.info.serial, d.ip, acknowledged, failCnt⟩

/-- The body of the receive loop for an accepted datagram whose serial is
not in the list yet. -/
def typeVerdict (own : Anker) (type : UpdatePingType) (seq : UInt16) (d : AckDatagram) :
    Verdict PAnker :=
  match type with
  | .getVersion =>
      if d.info.type ≠ AckType.version.code then .skip
      else if d.info.sameVersion own then .skip
      else .take (d.entry false 0)
  | .connectToAp =>
      if d.info.type ≠ AckType.apJoin.code then .skip
      else if d.info.sameVersion own then .skip
      else .take (d.entry false 0)
  | .getUpdateVersionAck =>
      if d.info.type ≠ AckType.successUpdate.code ∧ d.info.type ≠ AckType.failUpdate.code then
        .skip
      else
        .take (d.entry (d.info.type = AckType.successUpdate.code && d.info.sameVersion own) 0)
  | .sendFirmwareData =>
      if d.info.type = AckType.rcvdBinaryData.code then
        if d.info.seq < seq then .skip
        else if seq < d.info.seq then .skip
        else .take (d.entry true 0)
      else if d.info.type = AckType.kickFromUpdate.code then .take (d.entry false 0)
      else if d.info.type = AckType.generalError.code then .take (d.entry true 1)
      -- every other type ends the collection, whoever sent it
      else .stop

def ackVerdict (sha256 : Sha256) (own : Anker) (type : UpdatePingType) (seq : UInt16)
    (d : AckDatagram) : Verdict PAnker :=
  if d.info.accepted sha256 then typeVerdict own type seq d else .skip

theorem typeVerdict_take_serial {own : Anker} {type : UpdatePingType} {seq : UInt16}
    {d : AckDatagram} {p : PAnker} (h : typeVerdict own type seq d = .take p) :
    p.serial = d.info.serial := by
  unfold typeVerdict at h
  cases type <;> simp only at h <;> split_ifs at h <;> cases h <;> rfl

theorem ackVerdict_take_iff {sha256 : Sha256} {own : Anker} {type : UpdatePingType}
    {seq : UInt16} {d : AckDatagram} {p : PAnker} :
    ackVerdict sha256 own type seq d = .take p ↔
      d.info.accepted sha256 = true ∧ typeVerdict own type seq d = .take p := by
  rw [ackVerdict]
  split_ifs with h <;> simp [h]

def ackRule (sha256 : Sha256) (own : Anker) (type : UpdatePingType) (seq : UInt16) :
    Rule AckDatagram PAnker Serial where
  key d := d.info.serial
  verdict := ackVerdict sha256 own type seq
  keyOf := PAnker.serial
  keyOf_take h := typeVerdict_take_serial (ackVerdict_take_iff.mp h).2

/-- The list that `retrieve_update_ping_ack` leaves in its out parameters. -/
def retrieveUpdatePingAck (sha256 : Sha256) (own : Anker) (type : UpdatePingType) (seq : UInt16)
    (startMicros timeoutMs maxCntPAnkers : ℕ) (polls : List Poll) : List PAnker :=
  (ackRule sha256 own type seq).collect maxCntPAnkers [] (ackWindow startMicros timeoutMs polls)

section Collected

variable {sha256 : Sha256} {own : Anker} {type : UpdatePingType} {seq : UInt16}
  {startMicros timeoutMs maxCntPAnkers : ℕ} {polls : List Poll}

theorem nodup_retrieveUpdatePingAck :
    ((retrieveUpdatePingAck sha256 own type seq startMicros timeoutMs maxCntPAnkers polls).map
      PAnker.serial).Nodup :=
  (ackRule sha256 own type seq).nodup_collect maxCntPAnkers [] _ List.nodup_nil

theorem length_retrieveUpdatePingAck_le (hmax : 0 < maxCntPAnkers) :
    (retrieveUpdatePingAck sha256 own type seq startMicros timeoutMs maxCntPAnkers polls).length ≤
      maxCntPAnkers :=
  (ackRule sha256 own type seq).length_collect_le maxCntPAnkers [] _ hmax

theorem mem_ackWindow {d : AckDatagram} (h : d ∈ ackWindow startMicros timeoutMs polls) :
    ∃ p ∈ polls, p.datagram = some d := by
  obtain ⟨p, hp, hd⟩ := List.mem_filterMap.mp h
  exact ⟨p, (List.takeWhile_sublist _).subset hp, hd⟩

theorem mem_retrieveUpdatePingAck {p : PAnker}
    (h : p ∈ retrieveUpdatePingAck sha256 own type seq startMicros timeoutMs maxCntPAnkers
      polls) :
    ∃ d ∈ ackWindow startMicros timeoutMs polls, d.info.accepted sha256 = true ∧
      typeVerdict own type seq d = .take p := by
  rcases (ackRule sha256 own type seq).mem_collect maxCntPAnkers h with h | ⟨d, hd, hv⟩
  · simp at h
  · exact ⟨d, hd, ackVerdict_take_iff.mp hv⟩

theorem typeVerdict_firmware_correct {d : AckDatagram} {p : PAnker}
    (h : typeVerdict own .sendFirmwareData seq d = .take p) (hack : p.acknowledged = true)
    (hfail : p.failCnt = 0) :
    d.info.type = AckType.rcvdBinaryData.code ∧ d.info.seq = seq ∧ p.serial = d.info.serial := by
  refine ⟨?_, ?_, typeVerdict_take_serial h⟩
  all_goals
    simp only [typeVerdict] at h
    split_ifs at h with h₁ h₂ h₃ h₄ h₅
    all_goals cases h
  · exact h₁
  · simp [AckDatagram.entry] at hack
  · simp [AckDatagram.entry] at hfail
  · exact UInt16.le_antisymm (UInt16.not_lt.mp h₃) (UInt16.not_lt.mp h₂)
  · simp [AckDatagram.entry] at hack
  · simp [AckDatagram.entry] at hfail

end Collected

/-! ## A round that hears exactly the given P-Ankers -/

def answer (sha256 : Sha256) (seq : UInt16) (anker : Anker) : Poll :=
  ⟨0, some ⟨0, ackInfo sha256 anker .rcvdBinaryData seq⟩⟩

theorem ackWindow_answers (sha256 : Sha256) (seq : UInt16) {timeoutMs : ℕ} (htimeout : 0 < timeoutMs)
    (ankers : List Anker) :
    ackWindow 0 timeoutMs (ankers.map (answer sha256 seq)) =
      ankers.map fun a ↦ ⟨0, ackInfo sha256 a .rcvdBinaryData seq⟩ := by
  have hopen : windowOpen 0 timeoutMs 0 = true := by simpa [windowOpen] using htimeout
  rw [ackWindow, List.takeWhile_eq_self_iff.mpr, List.filterMap_map]
  · induction ankers with
    | nil => rfl
    | cons a ankers ih => simpa [answer] using ih
  · intro p hp
    obtain ⟨a, -, rfl⟩ := List.mem_map.mp hp
    exact hopen

theorem retrieveUpdatePingAck_answers (sha256 : Sha256) (own : Anker) (seq : UInt16)
    (ankers : List Anker) {timeoutMs maxCntPAnkers : ℕ} (htimeout : 0 < timeoutMs)
    (hnodup : (ankers.map Anker.serial).Nodup) (hlen : ankers.length ≤ maxCntPAnkers) :
    retrieveUpdatePingAck sha256 own .sendFirmwareData seq 0 timeoutMs maxCntPAnkers
        (ankers.map (answer sha256 seq)) =
      ankers.map fun a ↦ ⟨a.serial, 0, true, 0⟩ := by
  have hcollect := (ackRule sha256 own .sendFirmwareData seq).collect_of_take maxCntPAnkers
    (fun d ↦ d.entry true 0) []
    (ankers.map fun a ↦ ⟨0, ackInfo sha256 a .rcvdBinaryData seq⟩)
  rw [retrieveUpdatePingAck, ackWindow_answers sha256 seq htimeout, hcollect]
  · simp [AckDatagram.entry, Function.comp_def]
  · intro d hd
    obtain ⟨a, -, rfl⟩ := List.mem_map.mp hd
    simp [ackRule, ackVerdict, typeVerdict]
  · simpa [ackRule, Function.comp_def] using hnodup
  · simpa using hlen

end AnkerUpdater
