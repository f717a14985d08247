import AnkerUpdater.Protocol.SendInvariant

/-!
# The four phases of an update

`handle_p_anker_updates` with the phases of `communicate_with_p_ankers` it
calls: SET_INTO_AP_MODE, ACK_CONNECT, SEND_UPDATE_FILE and ACK_UPDATE.
`HandleEnv` holds what sockets, WiFi and the network do in one call.
-/

namespace AnkerUpdater

def maxPAnkerToUpdate : ℕ := 2

def setPAnkerIntoApModeMaxRetries : ℕ := 10

def maxApCreateRetries : ℕ := 10

def maxApJoinedAckGetRetries : ℕ := 10

def maxRetriesAcksUpdatedPAnkers : ℕ := 29

structure Window where
  startMicros : ℕ
  polls : List Poll

structure HandleEnv where
  sha256 : Sha256
  own : Anker
  runningPartition : List UInt8
  searchSetup : Bool
  searchWindows : ℕ → Window
  directAcked : ℕ → Bool
  apCreated : ℕ → Bool
  joinSetup : Bool
  joinWindows : ℕ → Window
  sendSetup : Bool
  turns : List Turn
  updateSetup : Bool
  updateWindows : ℕ → Window

/-- Retrieves lists until one has `cap` entries, at most `fuel` times, and
keeps the last one. -/
def retrieveUntil (retrieve : ℕ → List PAnker) (cap : ℕ) : ℕ → ℕ → List PAnker → List PAnker
  | 0, _, last => last
  | fuel + 1, i, _ =>
      if (retrieve i).length = cap then retrieve i
      else retrieveUntil retrieve cap fuel (i + 1) (retrieve i)

/-! ## Counting updated P-Ankers -/

structure UpdateTally where
  pAnkers : List PAnker
  numAnswered : ℕ
  numCorrectAnswered : ℕ
  deriving DecidableEq

/-- The loop over the joined P-Ankers after one round of ACK_UPDATE. -/
def tallyUpdateAcks (acks : List PAnker) : ℕ → ℕ → List PAnker → UpdateTally
  | numAnswered, numCorrect, [] => ⟨[], numAnswered, numCorrect⟩
  | numAnswered, numCorrect, p :: ps =>
      if p.kicked || p.acknowledged then
        let t := tallyUpdateAcks acks numAnswered numCorrect ps
        { t with pAnkers := p :: t.pAnkers }
      else match acks.find? fun a ↦ a.serial = p.serial with
        | none =>
            let t := tallyUpdateAcks acks numAnswered numCorrect ps
            { t with pAnkers := p :: t.pAnkers }
        | some a =>
            let t := tallyUpdateAcks acks (numAnswered + 1)
              (if a.acknowledged then numCorrect + 1 else numCorrect) ps
            { t with pAnkers := { p with acknowledged := a.acknowledged } :: t.pAnkers }

/-- `for (y = 0; y < MAX_RETRIES_ACKS_UPDATED_P_ANKERS; y++)`, entered at
`y` with `fuel` rounds left; the value of `y` it ends with comes second. -/
def updateRounds (acks : ℕ → List PAnker) (numAcknowledged : ℕ) :
    ℕ → ℕ → UpdateTally → UpdateTally × ℕ
  | 0, y, t => (t, y)
  | fuel + 1, y, t =>
      let t' := tallyUpdateAcks (acks y) t.numAnswered t.numCorrectAnswered t.pAnkers
      if t'.numAnswered = numAcknowledged then (t', y)
      else updateRounds acks numAcknowledged fuel (y + 1) t'

namespace HandleEnv

variable (E : HandleEnv)

def setIntoApMode : List PAnker :=
  if E.searchSetup then
    (retrieveUntil (fun i ↦ retrieveUpdatePingAck E.sha256 E.own .getVersion 0
        (E.searchWindows i).startMicros 1000 maxPAnkerToUpdate (E.searchWindows i).polls)
      maxPAnkerToUpdate setPAnkerIntoApModeMaxRetries 0 []).mapIdx
        fun i p ↦ { p with acknowledged := E.directAcked i }
  else []

def numAcknowledged : ℕ := E.setIntoApMode.countP PAnker.acknowledged

def ackConnect : List PAnker :=
  if E.joinSetup then
    retrieveUntil (fun i ↦ retrieveUpdatePingAck E.sha256 E.own .getVersion 0
        (E.joinWindows i).startMicros 1000 E.numAcknowledged (E.joinWindows i).polls)
      E.numAcknowledged maxApJoinedAckGetRetries 0 []
  else []

theorem retrieveUntil_induction {P : List PAnker → Prop} {retrieve : ℕ → List PAnker} (cap : ℕ)
    (h : ∀ i, P (retrieve i)) (fuel i : ℕ) {last : List PAnker} (hlast : P last) :
    P (retrieveUntil retrieve cap fuel i last) := by
  induction fuel generalizing i last with
  | zero => exact hlast
  | succ fuel ih =>
      rw [retrieveUntil]
      split_ifs
      · exact h i
      · exact ih (i + 1) (h i)

theorem length_setIntoApMode_le : E.setIntoApMode.length ≤ maxPAnkerToUpdate := by
  rw [setIntoApMode]
  split_ifs
  · rw [List.length_mapIdx]
    apply retrieveUntil_induction (P := fun l ↦ l.length ≤ maxPAnkerToUpdate)
    · exact fun i ↦ length_retrieveUpdatePingAck_le (by decide)
    · exact Nat.zero_le _
  · exact Nat.zero_le _

theorem numAcknowledged_le : E.numAcknowledged ≤ E.setIntoApMode.length := List.countP_le_length

theorem length_ackConnect_le (h : 0 < E.numAcknowledged) :
    E.ackConnect.length ≤ E.numAcknowledged := by
  rw [ackConnect]
  split_ifs
  · apply retrieveUntil_induction (P := fun l ↦ l.length ≤ E.numAcknowledged)
    · exact fun i ↦ length_retrieveUpdatePingAck_le h
    · exact Nat.zero_le _
  · exact Nat.zero_le _

theorem nodup_ackConnect : (E.ackConnect.map PAnker.serial).Nodup := by
  rw [ackConnect]
  split_ifs
  · apply retrieveUntil_induction (P := fun l ↦ (l.map PAnker.serial).Nodup)
    · exact fun i ↦ nodup_retrieveUpdatePingAck
    · exact List.nodup_nil
  · exact List.nodup_nil

def session (hacknowledged : 0 < E.numAcknowledged) (hjoined : E.ackConnect ≠ []) : Session where
  sha256 := E.sha256
  own := E.own
  runningPartition := E.runningPartition
  pAnkers := E.ackConnect.map fun p ↦ { p with failCnt := 0 }
  pAnkers_ne_nil := by simpa using hjoined
  length_le := by
    have hjoin := E.length_ackConnect_le hacknowledged
    have hfound := E.length_setIntoApMode_le
    have hle := E.numAcknowledged_le
    simp only [maxPAnkerToUpdate] at hfound
    rw [List.length_map]
    omega
  nodup := by simpa [Function.comp_def] using E.nodup_ackConnect
  fresh := by simp

def updateAcks (numPAnkers y : ℕ) : List PAnker :=
  retrieveUpdatePingAck E.sha256 E.own .getUpdateVersionAck 0 (E.updateWindows y).startMicros
    10000 numPAnkers (E.updateWindows y).polls

def ackUpdate (joined : List PAnker) (numAcknowledged : ℕ) : UpdateTally × ℕ :=
  updateRounds (E.updateAcks joined.length) numAcknowledged maxRetriesAcksUpdatedPAnkers 0
    ⟨joined, 0, 0⟩

/-- What `handle_p_anker_updates` returns.  `joined` and `lastRound` keep
the joined P-Ankers as ACK_UPDATE met them and the `y` its loop ended
with. -/
structure Outcome where
  rc : UpdaterRc
  cntToUpdate : ℕ
  cntJoined : ℕ
  cntUpdated : ℕ
  joined : List PAnker
  lastRound : ℕ
  deriving DecidableEq

/-- `handle_p_anker_updates`; nothing if the turns end before the firmware
loop does. -/
def handlePAnkerUpdates : Option Outcome :=
  if hacknowledged : E.numAcknowledged = 0 then some ⟨.error, 0, 0, 0, [], 0⟩
  else
    let numPAnkers := E.setIntoApMode.length
    if (List.range maxApCreateRetries).all fun x ↦ !E.apCreated x then
      some ⟨.error, numPAnkers, 0, 0, [], 0⟩
    else if hjoined : E.ackConnect = [] then some ⟨.error, numPAnkers, 0, 0, [], 0⟩
    else
      let S := E.session (Nat.pos_of_ne_zero hacknowledged) hjoined
      let numJoined := E.ackConnect.length
      if E.sendSetup = false then some ⟨.error, numPAnkers, numJoined, 0, [], 0⟩
      else match S.run E.turns S.start with
        | none => none
        | some (.error, _) => some ⟨.error, numPAnkers, numJoined, 0, [], 0⟩
        | some (.ok, s) =>
            let u := E.ackUpdate s.pAnkers s.numRemaining
            if E.updateSetup = false then some ⟨.error, numPAnkers, numJoined, 0, [], 0⟩
            -- the check for silence names a value that ends no unbroken loop
            else if u.2 = 20 ∧ u.1.numAnswered = 0 then
              some ⟨.error, numPAnkers, numJoined, 0, [], 0⟩
            else some ⟨.ok, numPAnkers, numJoined, u.1.numCorrectAnswered, s.pAnkers, u.2⟩

end HandleEnv

end AnkerUpdater
