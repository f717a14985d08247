import AnkerUpdater.Protocol.Rounds

/-!
# How others keep an acknowledgement from being counted

A correct acknowledgement can be lost in two places.  The collector may
leave before it: on a HASH_ERROR, a SEQ_ERROR or any other type it does
not expect, or when kicked and foreign devices have filled its list.  The
tally may stop before the entry: every kick of the same round lowers the
bound of the loop.
-/

namespace AnkerUpdater

open Collect

namespace Session

variable (S : Session) (s : SendState) (startMicros : ℕ) (polls : List Poll)

def roundWindow : List AckDatagram := ackWindow startMicros (ackTimeoutMs s.seq) polls

def Arrived (serial : Serial) : Prop :=
  ∃ d ∈ roundWindow s startMicros polls, d.info.accepted S.sha256 = true ∧
    d.info.type = AckType.rcvdBinaryData.code ∧ d.info.serial = serial ∧ d.info.seq = s.seq

/-- The answer `a` is the first admissible one of its serial, fewer serials
than P-Ankers left come before it, and no datagram before it ends the
collection. -/
def Heard (a : PAnker) : Prop :=
  (ackRule S.sha256 S.own .sendFirmwareData s.seq).Reaches s.numRemaining ∅
    (roundWindow s startMicros polls) a

/-- The round kicks `p` if it looks at it. -/
def Ousted (p : PAnker) : Prop :=
  p.active = true ∧
    ((∃ a, S.Heard s startMicros polls a ∧ a.serial = p.serial ∧ a.failCnt = 0 ∧
        a.acknowledged = false) ∨
      (p.failCnt + 1 = maxRetrieveFirmwareAcksFailsToKickAnker ∧
        ¬ ∃ a, S.Heard s startMicros polls a ∧ a.serial = p.serial ∧ a.failCnt = 0))

open Classical in
/-- Nothing that other devices send keeps the entry `p` at index `i` from
being counted as correct. -/
structure Undisturbed (i : ℕ) (p : PAnker) : Prop where
  heard : ∃ a, S.Heard s startMicros polls a ∧ a.serial = p.serial ∧ a.acknowledged = true ∧
    a.failCnt = 0
  examined : i + (s.pAnkers.take i).countP (fun q ↦ S.Ousted s startMicros polls q) <
    s.numRemaining

/-- The round counts the entry at index `i` as correct and resets its
`fail_cnt`. -/
def Recorded (i : ℕ) : Prop := (S.roundTally s startMicros polls).marks[i]? = some .correct

variable {S s startMicros polls}

theorem Recorded.counted {i : ℕ} (h : S.Recorded s startMicros polls i) :
    0 < (S.roundTally s startMicros polls).numCorrectAnswered ∧
      ∀ p, (S.roundTally s startMicros polls).pAnkers[i]? = some p → p.failCnt = 0 := by
  constructor
  · rw [roundTally, tallyAcks_correct_eq_count, Nat.zero_add, List.count_pos_iff]
    exact List.mem_of_getElem? h
  · intro p hp
    rw [roundTally, tallyAcks_pAnkers, List.getElem?_zipWith] at hp
    cases hq : s.pAnkers[i]? with
    | none => simp [hq] at hp
    | some q =>
        have hmark : (tallyAcks (S.roundAcks s startMicros polls) 0 s.numRemaining 0
          s.pAnkers).marks[i]? = some .correct := h
        rw [hq, hmark] at hp
        obtain rfl := Option.some.inj hp
        rfl

theorem SendInv.mem_roundAcks_iff (h : S.SendInv s) {a : PAnker} :
    a ∈ S.roundAcks s startMicros polls ↔ S.Heard s startMicros polls a :=
  (ackRule S.sha256 S.own .sendFirmwareData s.seq).mem_collect_iff s.numRemaining
    (roundWindow s startMicros polls) a h.remaining_pos

theorem SendInv.mark_eq_kicked_iff (h : S.SendInv s) (p : PAnker) :
    p.mark (S.roundAcks s startMicros polls) = .kicked ↔ S.Ousted s startMicros polls p := by
  rw [PAnker.mark_eq_kicked_iff (nodup_roundAcks s startMicros polls)]
  simp only [Ousted, ← h.mem_roundAcks_iff]

theorem SendInv.recorded_iff (h : S.SendInv s) {i : ℕ} {p : PAnker}
    (hp : s.pAnkers[i]? = some p) (hactive : p.active = true) :
    S.Recorded s startMicros polls i ↔ S.Undisturbed s startMicros polls i p := by
  classical
  have hcount : (s.pAnkers.take i).countP
      (fun q ↦ q.mark (S.roundAcks s startMicros polls) = .kicked) =
      (s.pAnkers.take i).countP (fun q ↦ S.Ousted s startMicros polls q) := by
    apply List.countP_congr
    intro q _
    simpa using h.mark_eq_kicked_iff q
  have hmark := tallyAcks_marks_getElem? (S.roundAcks s startMicros polls) 0 s.numRemaining 0
    s.pAnkers i hp
  have hcorrect : p.mark (S.roundAcks s startMicros polls) = .correct ↔
      ∃ a, S.Heard s startMicros polls a ∧ a.serial = p.serial ∧ a.acknowledged = true ∧
        a.failCnt = 0 := by
    rw [PAnker.mark_eq_correct_iff (nodup_roundAcks s startMicros polls)]
    simp only [hactive, true_and, Acked, ← h.mem_roundAcks_iff]
  rw [Recorded, roundTally, hmark, Option.some.injEq, hcount, Nat.zero_add]
  constructor
  · intro hrecorded
    split_ifs at hrecorded with hexamined
    exact ⟨hcorrect.mp hrecorded, hexamined⟩
  · intro hundisturbed
    rw [if_pos (by convert hundisturbed.examined)]
    exact hcorrect.mpr hundisturbed.heard

/-- A P-Anker that is not kicked and whose acknowledgement arrives in time
is recorded as correct exactly if no other device interferes. -/
theorem recorded_iff_undisturbed (S : Session) (s : SendState) (hreach : S.Reachable s)
    (startMicros : ℕ) (polls : List Poll) (i : ℕ) (p : PAnker) (hp : s.pAnkers[i]? = some p)
    (hactive : p.active = true) (_harrived : S.Arrived s startMicros polls p.serial) :
    S.Recorded s startMicros polls i ↔ S.Undisturbed s startMicros polls i p :=
  hreach.sendInv.recorded_iff hp hactive

theorem undisturbed_pair : pair.Undisturbed pair.start 0 [pairAnswer 2, pairAnswer 1] 0
    ⟨Vector.replicate serialSize 1, 1, false, 0⟩ := by
  refine (recorded_iff_undisturbed pair pair.start .refl 0 [pairAnswer 2, pairAnswer 1] 0 _ rfl
    (by decide) ?_).mp ?_
  · rw [Arrived]
    decide
  · rw [Recorded]
    decide

/-- A HASH_ERROR from a device that is not in the list, read before the
acknowledgement of the first P-Anker. -/
def hashErrorFirst : List Poll :=
  [⟨0, some ⟨5, ackInfo headHash ⟨Vector.replicate serialSize 5, []⟩ .hashError 0⟩⟩, pairAnswer 1]

theorem not_recorded_hashErrorFirst : ∃ p, pair.Reachable pair.start ∧
    pair.start.pAnkers[0]? = some p ∧ p.active = true ∧
    pair.Arrived pair.start 0 hashErrorFirst p.serial ∧
    ¬ pair.Recorded pair.start 0 hashErrorFirst 0 := by
  refine ⟨⟨Vector.replicate serialSize 1, 1, false, 0⟩, .refl, rfl, by decide, ?_, ?_⟩
  · rw [Arrived]
    decide
  · rw [Recorded]
    decide

end Session

end AnkerUpdater
