import AnkerUpdater.Protocol.AckCollector

/-!
# The firmware loop of the C-Anker

`communicate_with_p_ankers` with SEND_UPDATE_FILE: each turn of the loop
reads one chunk of the running partition, broadcasts it, collects
acknowledgements and tallies them against the array of P-Ankers.  What
the partition, the socket and the network do in a turn is its `Turn`.
-/

namespace AnkerUpdater

def maxPartitionReadFails : ℕ := 3

def maxSendFirmwareBroadcastFails : ℕ := 10

def maxRetrieveFirmwareAllAcksFails : ℕ := 5

def maxRetrieveFirmwareAcksFailsToKickAnker : ℕ := 5

inductive UpdaterRc where
  | ok
  | error
  deriving DecidableEq, Repr

/-! ## Tallying one list of acknowledgements -/

def PAnker.kicked (p : PAnker) : Bool := maxRetrieveFirmwareAcksFailsToKickAnker ≤ p.failCnt

/-- What the body of the tally loop does to one entry of the array. -/
inductive Mark where
  | passedOver
  | correct
  | failed
  | kicked
  deriving DecidableEq, Repr

def PAnker.failMark (p : PAnker) : Mark :=
  if p.failCnt + 1 < maxRetrieveFirmwareAcksFailsToKickAnker then .failed else .kicked

def PAnker.mark (p : PAnker) (acks : List PAnker) : Mark :=
  if p.kicked then .passedOver
  else match acks.find? fun a ↦ a.serial = p.serial with
    | none => p.failMark
    | some a =>
        if a.failCnt ≠ 0 then p.failMark
        else if !a.acknowledged then .kicked
        else .correct

def PAnker.apply (p : PAnker) : Mark → PAnker
  | .passedOver => p
  | .correct => { p with failCnt := 0 }
  | .failed => { p with failCnt := p.failCnt + 1 }
  | .kicked => { p with failCnt := maxRetrieveFirmwareAcksFailsToKickAnker }

/-- The outcome of the tally loop.  `marks` records, for every entry of the
array, what the loop did to it. -/
structure Tally where
  pAnkers : List PAnker
  numRemaining : ℕ
  numCorrectAnswered : ℕ
  marks : List Mark

/-- `for (i = 0; i < num_remaining_p_ankers; i++)` over the array, entered
at index `i`.  The bound is the counter that the body decrements, which is
positive whenever the body runs. -/
def tallyAcks (acks : List PAnker) : ℕ → ℕ → ℕ → List PAnker → Tally
  | _, numRemaining, numCorrect, [] => ⟨[], numRemaining, numCorrect, []⟩
  | i, numRemaining, numCorrect, p :: ps =>
      if i < numRemaining then
        let m := p.mark acks
        let t := tallyAcks acks (i + 1)
          (if m = .kicked then numRemaining - 1 else numRemaining)
          (if m = .correct then numCorrect + 1 else numCorrect) ps
        ⟨p.apply m :: t.pAnkers, t.numRemaining, t.numCorrectAnswered, m :: t.marks⟩
      else ⟨p :: ps, numRemaining, numCorrect, (p :: ps).map fun _ ↦ .passedOver⟩

/-! ## The loop -/

/-- One SEND_UPDATE_FILE call as `handle_p_anker_updates` makes it: the
joined P-Ankers have distinct serials and `fail_cnt` 0, there is at least
one, and their number fits a byte. -/
structure Session where
  sha256 : Sha256
  own : Anker
  runningPartition : List UInt8
  pAnkers : List PAnker
  pAnkers_ne_nil : pAnkers ≠ []
  length_le : pAnkers.length ≤ 255
  nodup : (pAnkers.map PAnker.serial).Nodup
  fresh : ∀ p ∈ pAnkers, p.failCnt = 0

structure SendState where
  seq : UInt16
  offset : ℕ
  isLast : Bool
  readPartitionFailCnt : ℕ
  sendFailCnt : ℕ
  allAcksFailCnt : ℕ
  numRemaining : ℕ
  pAnkers : List PAnker
  deriving DecidableEq

/-- What the environment does in one turn of the loop: the partition read
fails, the broadcast fails, or the chunk is sent and acknowledgements are
polled. -/
inductive Turn where
  | readFailed
  | sendFailed
  | round (startMicros : ℕ) (polls : List Poll)

inductive Flow (σ : Type*) where
  | next (s : σ)
  | exit (rc : UpdaterRc) (s : σ)

namespace Session

variable (S : Session)

def size : ℕ := S.runningPartition.length

def start : SendState :=
  ⟨0, 0, false, 0, 0, 0, S.pAnkers.length, S.pAnkers⟩

/-- `offset + data_len > running_partition->size` with the full length. -/
def overrunsAt (offset : ℕ) : Bool := S.size < offset + dataMaxLen

def dataLen (offset : ℕ) : ℕ := if S.overrunsAt offset then S.size - offset else dataMaxLen

def chunkAt (offset : ℕ) : List UInt8 := (S.runningPartition.drop offset).take (S.dataLen offset)

/-- The state after the chunk computation; `is_last` is only ever set. -/
def prepare (s : SendState) : SendState := { s with isLast := s.isLast || S.overrunsAt s.offset }

def firmwareDatagram (s : SendState) : UpdatePingInfo :=
  updatePingInfo S.sha256 S.own .sendFirmwareData s.seq (S.prepare s).isLast (S.chunkAt s.offset)
    (UInt16.ofNat (S.dataLen s.offset))

def ackTimeoutMs (seq : UInt16) : ℕ := if seq = 0 then 2000 else 1000

def roundAcks (s : SendState) (startMicros : ℕ) (polls : List Poll) : List PAnker :=
  retrieveUpdatePingAck S.sha256 S.own .sendFirmwareData s.seq startMicros (ackTimeoutMs s.seq)
    s.numRemaining polls

def roundTally (s : SendState) (startMicros : ℕ) (polls : List Poll) : Tally :=
  tallyAcks (S.roundAcks s startMicros polls) 0 s.numRemaining 0 s.pAnkers

def sent (s : SendState) : SendState :=
  { S.prepare s with readPartitionFailCnt := 0, sendFailCnt := 0 }

def tallied (s : SendState) (startMicros : ℕ) (polls : List Poll) : SendState :=
  { S.sent s with
    allAcksFailCnt := 0
    numRemaining := (S.roundTally s startMicros polls).numRemaining
    pAnkers := (S.roundTally s startMicros polls).pAnkers }

/-- One turn of `while (offset < running_partition->size)`. -/
def turn (s : SendState) : Turn → Flow SendState
  | .readFailed =>
      if s.readPartitionFailCnt < maxPartitionReadFails then
        .next { S.prepare s with readPartitionFailCnt := s.readPartitionFailCnt + 1 }
      else .exit .error (S.prepare s)
  | .sendFailed =>
      if s.sendFailCnt < maxSendFirmwareBroadcastFails then
        .next { S.prepare s with readPartitionFailCnt := 0, sendFailCnt := s.sendFailCnt + 1 }
      else .exit .error { S.prepare s with readPartitionFailCnt := 0 }
  | .round startMicros polls =>
      if S.roundAcks s startMicros polls = [] then
        if s.allAcksFailCnt < maxRetrieveFirmwareAllAcksFails then
          .next { S.sent s with allAcksFailCnt := s.allAcksFailCnt + 1 }
        else .exit .error (S.sent s)
      else if (S.roundTally s startMicros polls).numRemaining = 0 then
        .exit .error (S.tallied s startMicros polls)
      else if (S.roundTally s startMicros polls).numCorrectAnswered ≠
          (S.roundTally s startMicros polls).numRemaining then
        .next (S.tallied s startMicros polls)
      else
        .next { S.tallied s startMicros polls with
          offset := s.offset + S.dataLen s.offset
          seq := s.seq + 1 }

/-- The whole loop for a list of turns: its return code with the final
state, or nothing when the turns end before the loop does. -/
def run : List Turn → SendState → Option (UpdaterRc × SendState)
  | [], s => if s.offset < S.size then none else some (.ok, s)
  | t :: ts, s =>
      if s.offset < S.size then
        match S.turn s t with
        | .next s' => run ts s'
        | .exit rc s' => some (rc, s')
      else some (.ok, s)

def after : List Turn → SendState → Option SendState
  | [], s => some s
  | t :: ts, s =>
      if s.offset < S.size then
        match S.turn s t with
        | .next s' => after ts s'
        | .exit _ _ => none
      else none

inductive TurnOutcome (s : SendState) : Turn → SendState → Prop where
  | readFailed (h : s.readPartitionFailCnt < maxPartitionReadFails) :
      TurnOutcome s .readFailed
        { S.prepare s with readPartitionFailCnt := s.readPartitionFailCnt + 1 }
  | sendFailed (h : s.sendFailCnt < maxSendFirmwareBroadcastFails) :
      TurnOutcome s .sendFailed
        { S.prepare s with readPartitionFailCnt := 0, sendFailCnt := s.sendFailCnt + 1 }
  | silent (startMicros : ℕ) (polls : List Poll)
      (hacks : S.roundAcks s startMicros polls = [])
      (h : s.allAcksFailCnt < maxRetrieveFirmwareAllAcksFails) :
      TurnOutcome s (.round startMicros polls)
        { S.sent s with allAcksFailCnt := s.allAcksFailCnt + 1 }
  | retried (startMicros : ℕ) (polls : List Poll)
      (hacks : S.roundAcks s startMicros polls ≠ [])
      (hremaining : (S.roundTally s startMicros polls).numRemaining ≠ 0)
      (hcorrect : (S.roundTally s startMicros polls).numCorrectAnswered ≠
        (S.roundTally s startMicros polls).numRemaining) :
      TurnOutcome s (.round startMicros polls) (S.tallied s startMicros polls)
  | advanced (startMicros : ℕ) (polls : List Poll)
      (hacks : S.roundAcks s startMicros polls ≠ [])
      (hremaining : (S.roundTally s startMicros polls).numRemaining ≠ 0)
      (hcorrect : (S.roundTally s startMicros polls).numCorrectAnswered =
        (S.roundTally s startMicros polls).numRemaining) :
      TurnOutcome s (.round startMicros polls)
        { S.tallied s startMicros polls with
          offset := s.offset + S.dataLen s.offset
          seq := s.seq + 1 }

/-- What the exits of the loop leave. -/
inductive ExitOutcome (s : SendState) : Turn → SendState → Prop where
  | readFailed : ExitOutcome s .readFailed (S.prepare s)
  | sendFailed : ExitOutcome s .sendFailed { S.prepare s with readPartitionFailCnt := 0 }
  | silent (startMicros : ℕ) (polls : List Poll) (hacks : S.roundAcks s startMicros polls = []) :
      ExitOutcome s (.round startMicros polls) (S.sent s)
  | allKicked (startMicros : ℕ) (polls : List Poll)
      (hremaining : (S.roundTally s startMicros polls).numRemaining = 0) :
      ExitOutcome s (.round startMicros polls) (S.tallied s startMicros polls)

variable {S}

theorem turn_outcome {s s' : SendState} {t : Turn} (h : S.turn s t = .next s') :
    S.TurnOutcome s t s' := by
  cases t with
  | readFailed =>
      simp only [turn] at h
      split_ifs at h with hcnt
      cases h
      exact .readFailed hcnt
  | sendFailed =>
      simp only [turn] at h
      split_ifs at h with hcnt
      cases h
      exact .sendFailed hcnt
  | round startMicros polls =>
      simp only [turn] at h
      split_ifs at h with hacks hcnt hremaining hcorrect
      · cases h
        exact .silent startMicros polls hacks hcnt
      · cases h
        exact .retried startMicros polls hacks hremaining hcorrect
      · cases h
        exact .advanced startMicros polls hacks hremaining (not_not.mp hcorrect)

def Next (S : Session) (s s' : SendState) : Prop :=
  s.offset < S.size ∧ ∃ t, S.turn s t = .next s'

def Reachable (S : Session) (s : SendState) : Prop := Relation.ReflTransGen S.Next S.start s

theorem after_cons_eq_some {t : Turn} {ts : List Turn} {s s' : SendState} :
    S.after (t :: ts) s = some s' ↔
      s.offset < S.size ∧ ∃ s₁, S.turn s t = .next s₁ ∧ S.after ts s₁ = some s' := by
  rw [after]
  split_ifs with hrun
  · cases S.turn s t with
    | next s₁ => simp [hrun]
    | exit rc s₁ => simp
  · simp [hrun]

theorem Reachable.after {s s' : SendState} {ts : List Turn} (h : S.Reachable s)
    (hafter : S.after ts s = some s') : S.Reachable s' := by
  induction ts generalizing s with
  | nil =>
      cases hafter
      exact h
  | cons t ts ih =>
      obtain ⟨hrun, s₁, hturn, hrest⟩ := after_cons_eq_some.mp hafter
      exact ih (h.tail ⟨hrun, t, hturn⟩) hrest

theorem turn_exit_outcome {s s' : SendState} {t : Turn} {rc : UpdaterRc}
    (h : S.turn s t = .exit rc s') : rc = .error ∧ S.ExitOutcome s t s' := by
  cases t with
  | readFailed =>
      simp only [turn] at h
      split_ifs at h
      cases h
      exact ⟨rfl, .readFailed⟩
  | sendFailed =>
      simp only [turn] at h
      split_ifs at h
      cases h
      exact ⟨rfl, .sendFailed⟩
  | round startMicros polls =>
      simp only [turn] at h
      split_ifs at h with hacks hcnt hremaining
      · cases h
        exact ⟨rfl, .silent startMicros polls hacks⟩
      · cases h
        exact ⟨rfl, .allKicked startMicros polls hremaining⟩

theorem turn_exit {s s' : SendState} {t : Turn} {rc : UpdaterRc} (h : S.turn s t = .exit rc s') :
    rc = .error :=
  (turn_exit_outcome h).1

theorem Reachable.run_ok {s s' : SendState} {ts : List Turn} (h : S.Reachable s)
    (hrun : S.run ts s = some (.ok, s')) : S.Reachable s' ∧ ¬ s'.offset < S.size := by
  induction ts generalizing s with
  | nil =>
      rw [run] at hrun
      split_ifs at hrun with hoffset
      cases hrun
      exact ⟨h, hoffset⟩
  | cons t ts ih =>
      rw [run] at hrun
      split_ifs at hrun with hoffset
      · cases hturn : S.turn s t with
        | next s₁ =>
            rw [hturn] at hrun
            exact ih (h.tail ⟨hoffset, t, hturn⟩) hrun
        | exit rc s₁ =>
            rw [hturn] at hrun
            obtain ⟨rfl, -⟩ := Prod.mk.inj (Option.some.inj hrun)
            exact absurd (turn_exit hturn) (by simp)
      · cases hrun
        exact ⟨h, hoffset⟩

end Session

end AnkerUpdater
