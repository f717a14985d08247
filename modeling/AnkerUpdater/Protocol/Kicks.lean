import AnkerUpdater.Protocol.Rounds

/-!
# Kicks in the firmware loop

The loop of SEND_UPDATE_FILE for any array of P-Ankers and any lists of
acknowledgements.  The counter `num_remaining_p_ankers` is the bound of the
scan that decrements it.
-/

namespace AnkerUpdater

open Relation

/-- The arguments of a call: the size of the running partition and the array
with all `fail_cnt` 0. -/
structure SendCall where
  size : ℕ
  pAnkers : List PAnker
  length_le : pAnkers.length ≤ 255
  fresh : ∀ p ∈ pAnkers, p.failCnt = 0

/-- A turn of the loop with the list that retrieve_update_ping_ack leaves. -/
inductive AckTurn where
  | readFailed
  | sendFailed
  | round (acks : List PAnker)

/-- The state in which a turn leaves the loop's variables. -/
def Flow.state {σ : Type*} : Flow σ → σ
  | .next s => s
  | .exit _ s => s

namespace SendCall

variable (C : SendCall)

def start : SendState := ⟨0, 0, false, 0, 0, 0, C.pAnkers.length, C.pAnkers⟩

def overruns (offset : ℕ) : Bool := C.size < offset + dataMaxLen

def dataLen (offset : ℕ) : ℕ := if C.overruns offset then C.size - offset else dataMaxLen

def prepare (s : SendState) : SendState := { s with isLast := s.isLast || C.overruns s.offset }

def sent (s : SendState) : SendState := { C.prepare s with readPartitionFailCnt := 0, sendFailCnt := 0 }

def roundTally (acks : List PAnker) (s : SendState) : Tally :=
  tallyAcks acks 0 s.numRemaining 0 s.pAnkers

def tallied (acks : List PAnker) (s : SendState) : SendState :=
  { C.sent s with
    allAcksFailCnt := 0
    numRemaining := (roundTally acks s).numRemaining
    pAnkers := (roundTally acks s).pAnkers }

/-- One turn of `while (offset < running_partition->size)`. -/
def turn (s : SendState) : AckTurn → Flow SendState
  | .readFailed =>
      if s.readPartitionFailCnt < maxPartitionReadFails then
        .next { C.prepare s with readPartitionFailCnt := s.readPartitionFailCnt + 1 }
      else .exit .error (C.prepare s)
  | .sendFailed =>
      if s.sendFailCnt < maxSendFirmwareBroadcastFails then
        .next { C.prepare s with readPartitionFailCnt := 0, sendFailCnt := s.sendFailCnt + 1 }
      else .exit .error { C.prepare s with readPartitionFailCnt := 0 }
  | .round acks =>
      if acks = [] then
        if s.allAcksFailCnt < maxRetrieveFirmwareAllAcksFails then
          .next { C.sent s with allAcksFailCnt := s.allAcksFailCnt + 1 }
        else .exit .error (C.sent s)
      else if (roundTally acks s).numRemaining = 0 then .exit .error (C.tallied acks s)
      else if (roundTally acks s).numCorrectAnswered ≠ (roundTally acks s).numRemaining then
        .next (C.tallied acks s)
      else
        .next { C.tallied acks s with
          offset := s.offset + C.dataLen s.offset
          seq := s.seq + 1 }

end SendCall

/-- The call that a session makes. -/
def Session.call (S : Session) : SendCall := ⟨S.size, S.pAnkers, S.length_le, S.fresh⟩

/-- What a turn of a session leaves in the out parameters. -/
def Session.ackTurn (S : Session) (s : SendState) : Turn → AckTurn
  | .readFailed => .readFailed
  | .sendFailed => .sendFailed
  | .round startMicros polls => .round (S.roundAcks s startMicros polls)

/-- The loop of a session is the loop of its call. -/
theorem Session.turn_eq (S : Session) (s : SendState) (t : Turn) :
    S.turn s t = S.call.turn s (S.ackTurn s t) := by
  cases t <;> rfl

namespace SendCall

variable {C : SendCall}

def Next (C : SendCall) (s s' : SendState) : Prop :=
  s.offset < C.size ∧ ∃ t, C.turn s t = .next s'

def Reachable (C : SendCall) (s : SendState) : Prop := ReflTransGen C.Next C.start s

/-! ## The counters -/

/-- What holds of the counters at any time. -/
structure Counted (s : SendState) : Prop where
  remaining : s.numRemaining = s.pAnkers.countP PAnker.active
  fits : s.numRemaining ≤ 255
  failCnt_le : ∀ p ∈ s.pAnkers, p.failCnt ≤ maxRetrieveFirmwareAcksFailsToKickAnker

/-- What a turn does to the counters; `s'` is the state it leaves, whether the
loop goes on or not. -/
structure Accounts (s : SendState) (t : AckTurn) (s' : SendState) : Prop where
  counted : Counted s'
  decrements : ∀ acks, t = .round acks → acks ≠ [] →
    s'.numRemaining + (roundTally acks s).marks.count .kicked = s.numRemaining
  kicked : ∀ (i : ℕ) (p : PAnker), s.pAnkers[i]? = some p → p.kicked = true →
    s'.pAnkers[i]? = some p
  advance : s'.offset ≠ s.offset ∨ s'.seq ≠ s.seq → ∃ acks, t = .round acks ∧
    ∀ p ∈ s'.pAnkers, p.active = true → Acked acks p.serial
  current : ∀ sha256 own startMicros timeoutMs cap polls,
    t = .round (retrieveUpdatePingAck sha256 own .sendFirmwareData s.seq startMicros timeoutMs cap
      polls) → s'.offset ≠ s.offset ∨ s'.seq ≠ s.seq →
    ∀ p ∈ s'.pAnkers, p.active = true → ∃ d ∈ ackWindow startMicros timeoutMs polls,
      d.info.accepted sha256 = true ∧ d.info.type = AckType.rcvdBinaryData.code ∧
        d.info.seq = s.seq ∧ d.info.serial = p.serial

/-- The accounting of a whole call. -/
structure KicksExact (C : SendCall) : Prop where
  counted : ∀ s, C.Reachable s → Counted s
  next : ∀ s t s', C.Reachable s → s.offset < C.size → C.turn s t = .next s' → Accounts s t s'
  exit : ∀ s t rc s', C.Reachable s → s.offset < C.size → C.turn s t = .exit rc s' →
    Accounts s t s'

theorem counted_start (C : SendCall) : Counted C.start where
  remaining := by
    refine (List.countP_eq_length.mpr fun p hp ↦ ?_).symm
    rw [PAnker.active_iff, C.fresh p hp]
    exact Nat.succ_pos _
  fits := C.length_le
  failCnt_le p hp := by
    rw [C.fresh p hp]
    exact Nat.zero_le _

/-! ## The tally -/

/-- Every kick takes one off the counter, which is positive then. -/
theorem numRemaining_add_kicked (acks : List PAnker) (i nr nc : ℕ) (ps : List PAnker) :
    (tallyAcks acks i nr nc ps).numRemaining +
      (tallyAcks acks i nr nc ps).marks.count .kicked = nr := by
  induction ps generalizing i nr nc with
  | nil => rfl
  | cons p ps ih =>
      by_cases h : i < nr
      · rw [tallyAcks_cons_lt acks p ps h]
        have hrest := ih (i + 1) (if p.mark acks = .kicked then nr - 1 else nr)
          (if p.mark acks = .correct then nc + 1 else nc)
        simp only [List.count_cons, beq_iff_eq]
        split_ifs at hrest ⊢ <;> omega
      · rw [tallyAcks_cons_ge acks p ps (by omega)]
        have hnone : Mark.kicked ∉ (p :: ps).map fun _ ↦ Mark.passedOver := by simp
        rw [List.count_eq_zero.mpr hnone, Nat.add_zero]

/-- A kicked entry is passed over. -/
theorem kicked_stays (acks : List PAnker) (i nr nc : ℕ) {ps : List PAnker} {j : ℕ} {p : PAnker}
    (hp : ps[j]? = some p) (hkicked : p.kicked = true) :
    (tallyAcks acks i nr nc ps).pAnkers[j]? = some p := by
  have hactive : p.active = false := by simp [PAnker.active, hkicked]
  have hmark := tallyAcks_marks_getElem? acks i nr nc ps j hp
  rw [PAnker.mark_of_kicked hactive, ite_self] at hmark
  rw [tallyAcks_pAnkers, List.getElem?_zipWith, hp, hmark]
  rfl

theorem counted_roundTally {s : SendState} (h : Counted s) (acks : List PAnker) :
    (roundTally acks s).numRemaining = (roundTally acks s).pAnkers.countP PAnker.active := by
  have hcount := tallyAcks_remaining acks 0 s.numRemaining 0 s.pAnkers
  rw [h.remaining] at hcount
  simp only [roundTally, h.remaining]
  omega

/-! ## One turn -/

section

variable {s s' : SendState} {t : AckTurn}

/-- A turn that tallies no acknowledgements. -/
theorem accounts_of_same (h : Counted s) (ht : ∀ acks, t = .round acks → acks = [])
    (hremaining : s'.numRemaining = s.numRemaining) (hpAnkers : s'.pAnkers = s.pAnkers)
    (hoffset : s'.offset = s.offset) (hseq : s'.seq = s.seq) : Accounts s t s' where
  counted := by
    refine ⟨?_, ?_, ?_⟩
    · rw [hremaining, hpAnkers, h.remaining]
    · rw [hremaining]
      exact h.fits
    · rw [hpAnkers]
      exact h.failCnt_le
  decrements acks hround hne := absurd (ht acks hround) hne
  kicked i p hp _ := by rw [hpAnkers, hp]
  advance hadvance := by
    rcases hadvance with hne | hne
    · exact absurd hoffset hne
    · exact absurd hseq hne
  current _ _ _ _ _ _ _ hadvance := by
    rcases hadvance with hne | hne
    · exact absurd hoffset hne
    · exact absurd hseq hne

/-- A correct acknowledgement is one of the current chunk. -/
theorem heard_of_acked {sha256 : Sha256} {own : Anker} {seq : UInt16}
    {startMicros timeoutMs cap : ℕ} {polls : List Poll} {serial : Serial}
    (h : Acked (retrieveUpdatePingAck sha256 own .sendFirmwareData seq startMicros timeoutMs cap
      polls) serial) :
    ∃ d ∈ ackWindow startMicros timeoutMs polls, d.info.accepted sha256 = true ∧
      d.info.type = AckType.rcvdBinaryData.code ∧ d.info.seq = seq ∧ d.info.serial = serial := by
  obtain ⟨a, hmem, hserial, hack, hfail⟩ := h
  obtain ⟨d, hd, haccepted, hv⟩ := mem_retrieveUpdatePingAck hmem
  obtain ⟨htype, hseq, hentry⟩ := typeVerdict_firmware_correct hv hack hfail
  exact ⟨d, hd, haccepted, htype, hseq, hentry.symm.trans hserial⟩

/-- A turn that tallies them, and may advance if all that remain answered. -/
theorem accounts_of_tallied (h : Counted s) {acks : List PAnker}
    (hremaining : s'.numRemaining = (roundTally acks s).numRemaining)
    (hpAnkers : s'.pAnkers = (roundTally acks s).pAnkers)
    (hadvance : s'.offset ≠ s.offset ∨ s'.seq ≠ s.seq →
      (roundTally acks s).numCorrectAnswered = (roundTally acks s).numRemaining) :
    Accounts s (.round acks) s' := by
  have hkicks := numRemaining_add_kicked acks 0 s.numRemaining 0 s.pAnkers
  have hacked : s'.offset ≠ s.offset ∨ s'.seq ≠ s.seq →
      ∀ p ∈ s'.pAnkers, p.active = true → Acked acks p.serial := by
    intro hne
    rw [hpAnkers]
    apply (tallyAcks_correct acks 0 s.numRemaining 0 s.pAnkers).2
    rw [Nat.zero_add]
    exact (hadvance hne).trans (counted_roundTally h acks)
  refine ⟨⟨?_, ?_, ?_⟩, ?_, ?_, ?_, ?_⟩
  · rw [hremaining, hpAnkers]
    exact counted_roundTally h acks
  · have hle : (roundTally acks s).numRemaining ≤ s.numRemaining := Nat.le.intro hkicks
    rw [hremaining]
    exact hle.trans h.fits
  · rw [hpAnkers]
    exact tallyAcks_failCnt_le acks 0 s.numRemaining 0 s.pAnkers h.failCnt_le
  · intro acks' heq _
    obtain rfl := AckTurn.round.inj heq
    rw [hremaining]
    exact hkicks
  · intro i p hp hkicked
    rw [hpAnkers]
    exact kicked_stays acks 0 s.numRemaining 0 hp hkicked
  · exact fun hne ↦ ⟨acks, rfl, hacked hne⟩
  · intro sha256 own startMicros timeoutMs cap polls heq hne p hp hactive
    have hp := hacked hne p hp hactive
    rw [AckTurn.round.inj heq] at hp
    exact heard_of_acked hp

/-- Every turn, whether it ends the loop or not. -/
theorem accounts_turn (h : Counted s) (t : AckTurn) : Accounts s t (C.turn s t).state := by
  cases t with
  | readFailed =>
      simp only [turn]
      split_ifs
      · exact accounts_of_same h (by simp) rfl rfl rfl rfl
      · exact accounts_of_same h (by simp) rfl rfl rfl rfl
  | sendFailed =>
      simp only [turn]
      split_ifs
      · exact accounts_of_same h (by simp) rfl rfl rfl rfl
      · exact accounts_of_same h (by simp) rfl rfl rfl rfl
  | round acks =>
      have hstay : (C.tallied acks s).offset = s.offset ∧ (C.tallied acks s).seq = s.seq :=
        ⟨rfl, rfl⟩
      simp only [turn]
      split_ifs with hacks hcnt hremaining hcorrect
      · exact accounts_of_same h (by simp [hacks]) rfl rfl rfl rfl
      · exact accounts_of_same h (by simp [hacks]) rfl rfl rfl rfl
      · apply accounts_of_tallied h rfl rfl
        rintro (hne | hne)
        · exact absurd hstay.1 hne
        · exact absurd hstay.2 hne
      · apply accounts_of_tallied h rfl rfl
        rintro (hne | hne)
        · exact absurd hstay.1 hne
        · exact absurd hstay.2 hne
      · exact accounts_of_tallied h rfl rfl fun _ ↦ not_not.mp hcorrect

theorem accounts_of_next (h : Counted s) (hturn : C.turn s t = .next s') : Accounts s t s' := by
  have hafter := accounts_turn (C := C) h t
  rwa [hturn] at hafter

theorem accounts_of_exit (h : Counted s) {rc : UpdaterRc} (hturn : C.turn s t = .exit rc s') :
    Accounts s t s' := by
  have hafter := accounts_turn (C := C) h t
  rwa [hturn] at hafter

end

/-! ## Whole calls -/

theorem Reachable.counted {s : SendState} (h : C.Reachable s) : Counted s := by
  induction h with
  | refl => exact counted_start C
  | tail _ hnext ih =>
      obtain ⟨-, t, hturn⟩ := hnext
      exact (accounts_of_next ih hturn).counted

/-- Over every call the counters are exact. -/
theorem kicksExact (C : SendCall) : C.KicksExact where
  counted _ h := h.counted
  next _ _ _ h _ hturn := accounts_of_next h.counted hturn
  exit _ _ _ _ h _ hturn := accounts_of_exit h.counted hturn

end SendCall

end AnkerUpdater
