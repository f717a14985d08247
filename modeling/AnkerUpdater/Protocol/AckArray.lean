import AnkerUpdater.Protocol.Slots

/-!
# The array of the collector

`retrieve_update_ping_ack` with the array that it fills, and the calls that
one run of `handle_p_anker_updates` makes to it.  The loop ends at the limit
only when the count meets it, so the limit must be neither 0 nor beyond the
slots.
-/

namespace AnkerUpdater

open Collect

/-! ## Filling an array -/

/-- What `retrieve_update_ping_ack` leaves in its out parameters, and the
indices of the slots in the order in which it wrote them. -/
structure Collected where
  numPAnkers : ℕ
  pAnkers : AckSlots
  written : List ℕ
  deriving DecidableEq

/-- The loop over the entries that looks for the serial of a datagram. -/
def AckSlots.holdsSerial (pAnkers : AckSlots) (numPAnkers : ℕ) (serial : Serial) : Bool :=
  (pAnkers.take numPAnkers).any fun slot ↦ slot.any fun p ↦ p.serial = serial

/-- The receive loop on the datagrams of its window, entered with
`numPAnkers` entries in the array. -/
def collectInto (sha256 : Sha256) (own : Anker) (type : UpdatePingType) (seq : UInt16)
    (maxCntPAnkers : ℕ) : List AckDatagram → ℕ → AckSlots → Collected
  | [], numPAnkers, pAnkers => ⟨numPAnkers, pAnkers, []⟩
  | d :: ds, numPAnkers, pAnkers =>
      if d.info.accepted sha256 = false then
        collectInto sha256 own type seq maxCntPAnkers ds numPAnkers pAnkers
      else if pAnkers.holdsSerial numPAnkers d.info.serial then
        collectInto sha256 own type seq maxCntPAnkers ds numPAnkers pAnkers
      else match typeVerdict own type seq d with
        | .skip => collectInto sha256 own type seq maxCntPAnkers ds numPAnkers pAnkers
        | .stop => ⟨numPAnkers, pAnkers, []⟩
        | .take p =>
            let pAnkers := pAnkers.set numPAnkers (some p)
            if numPAnkers + 1 = maxCntPAnkers then ⟨numPAnkers + 1, pAnkers, [numPAnkers]⟩
            else
              let c := collectInto sha256 own type seq maxCntPAnkers ds (numPAnkers + 1) pAnkers
              { c with written := numPAnkers :: c.written }

section

variable {sha256 : Sha256} {own : Anker} {type : UpdatePingType} {seq : UInt16}
  {maxCntPAnkers : ℕ} {acc : List PAnker} {pAnkers : AckSlots}

theorem holdsSerial_iff (hpAnkers : pAnkers.take acc.length = acc.map some) (serial : Serial) :
    pAnkers.holdsSerial acc.length serial = true ↔ serial ∈ acc.map PAnker.serial := by
  rw [AckSlots.holdsSerial, hpAnkers]
  simp

theorem take_set_append {p : PAnker} (hpAnkers : pAnkers.take acc.length = acc.map some)
    (hlt : acc.length < pAnkers.length) :
    (pAnkers.set acc.length (some p)).take (acc ++ [p]).length = (acc ++ [p]).map some := by
  rw [List.length_append, List.length_singleton, List.take_add_one, List.take_set_of_le le_rfl,
    hpAnkers]
  simp [hlt]

/-- The array with a list in its first slots, of which those from `start` on
were written. -/
def AckSlots.filled (pAnkers : AckSlots) (start : ℕ) (acks : List PAnker) : Collected :=
  ⟨acks.length, acks.map some ++ pAnkers.drop acks.length,
    List.range' start (acks.length - start)⟩

theorem filled_pAnkers (start : ℕ) {acks : List PAnker} (hle : acks.length ≤ pAnkers.length) :
    (pAnkers.filled start acks).pAnkers = pAnkers.fill acks := by
  apply List.ext_getElem?
  intro i
  simp only [AckSlots.filled, AckSlots.fill, List.getElem?_mapIdx]
  by_cases hi : i < acks.length
  · have hlt : i < pAnkers.length := hi.trans_le hle
    rw [List.getElem?_append_left (by simpa using hi)]
    simp [hi, hlt]
  · rw [List.getElem?_append_right (by simpa using hi)]
    have hindex : acks.length + (i - acks.length) = i := by omega
    simp [hi, hindex]

theorem filled_self (hpAnkers : pAnkers.take acc.length = acc.map some) :
    pAnkers.filled acc.length acc = ⟨acc.length, pAnkers, []⟩ := by
  rw [AckSlots.filled, ← hpAnkers, List.take_append_drop, Nat.sub_self, List.range'_zero]

theorem filled_set {n : ℕ} (slot : Option PAnker) {acks : List PAnker} (hn : n < acks.length) :
    { (AckSlots.filled (pAnkers.set n slot) (n + 1) acks) with
      written := n :: (AckSlots.filled (pAnkers.set n slot) (n + 1) acks).written } =
      pAnkers.filled n acks := by
  have hrange : acks.length - n = acks.length - (n + 1) + 1 := by omega
  simp only [AckSlots.filled, List.drop_set_of_lt hn, hrange, List.range'_succ]

/-- While the limit is positive and within the array, the loop keeps the
list of the collector in the first slots and leaves the others alone. -/
theorem collectInto_eq (ds : List AckDatagram)
    (hpAnkers : pAnkers.take acc.length = acc.map some) (hlt : acc.length < maxCntPAnkers)
    (hle : maxCntPAnkers ≤ pAnkers.length) :
    collectInto sha256 own type seq maxCntPAnkers ds acc.length pAnkers =
      pAnkers.filled acc.length
        ((ackRule sha256 own type seq).collect maxCntPAnkers acc ds) := by
  induction ds generalizing acc pAnkers with
  | nil => exact (filled_self hpAnkers).symm
  | cons d ds ih =>
      rw [collectInto]
      by_cases haccepted : d.info.accepted sha256 = false
      · have hskip : ackVerdict sha256 own type seq d = .skip := by simp [ackVerdict, haccepted]
        rw [if_pos haccepted, (ackRule sha256 own type seq).collect_skip _ _ _ hskip]
        exact ih hpAnkers hlt hle
      rw [if_neg haccepted]
      by_cases hholds : pAnkers.holdsSerial acc.length d.info.serial = true
      · have hseen := (holdsSerial_iff hpAnkers _).mp hholds
        rw [if_pos hholds, (ackRule sha256 own type seq).collect_seen _ _ hseen]
        exact ih hpAnkers hlt hle
      have hseen := fun h ↦ hholds ((holdsSerial_iff hpAnkers _).mpr h)
      have htype : ackVerdict sha256 own type seq d = typeVerdict own type seq d :=
        if_pos (by simpa using haccepted)
      rw [if_neg hholds]
      cases hv : typeVerdict own type seq d with
      | skip =>
          rw [(ackRule sha256 own type seq).collect_skip _ _ _ (htype.trans hv)]
          exact ih hpAnkers hlt hle
      | stop =>
          rw [(ackRule sha256 own type seq).collect_stop _ _ hseen (htype.trans hv)]
          exact (filled_self hpAnkers).symm
      | take p =>
          have hset := take_set_append (p := p) hpAnkers (hlt.trans_le hle)
          have hlength : (acc ++ [p]).length = acc.length + 1 := by simp
          have hself := filled_self hset
          rw [(ackRule sha256 own type seq).collect_take _ _ hseen (htype.trans hv)]
          simp only
          by_cases hfull : acc.length + 1 = maxCntPAnkers
          · rw [if_pos hfull, if_pos hfull, ← filled_set (some p) (by simp), ← hlength, hself]
          · have hnext : acc.length + 1 < maxCntPAnkers := by omega
            have hrest := ih hset (by rwa [hlength]) (by rwa [List.length_set])
            have hle' := (ackRule sha256 own type seq).le_length_collect maxCntPAnkers
              (acc ++ [p]) ds
            rw [hlength] at hrest hle'
            rw [if_neg hfull, if_neg hfull, hrest, filled_set (some p) hle']

end

/-! ## One call -/

/-- What the phase asks of an acknowledgement. -/
def UpdatePingAck.AcceptedBy (own : Anker) (type : UpdatePingType) (seq : UInt16)
    (m : UpdatePingAck) : Prop :=
  match type with
  | .getVersion => m.type = AckType.version.code ∧ m.sameVersion own = false
  | .connectToAp => m.type = AckType.apJoin.code ∧ m.sameVersion own = false
  | .getUpdateVersionAck =>
      m.type = AckType.successUpdate.code ∨ m.type = AckType.failUpdate.code
  | .sendFirmwareData => m.type = AckType.rcvdBinaryData.code ∧ m.seq = seq ∨
      m.type = AckType.kickFromUpdate.code ∨ m.type = AckType.generalError.code

theorem acceptedBy_of_take {own : Anker} {type : UpdatePingType} {seq : UInt16}
    {d : AckDatagram} {p : PAnker} (h : typeVerdict own type seq d = .take p) :
    d.info.AcceptedBy own type seq := by
  unfold typeVerdict at h
  cases type with
  | getVersion =>
      simp only at h
      split_ifs at h with htype hversion
      exact ⟨not_not.mp htype, by simpa using hversion⟩
  | connectToAp =>
      simp only at h
      split_ifs at h with htype hversion
      exact ⟨not_not.mp htype, by simpa using hversion⟩
  | sendFirmwareData =>
      simp only at h
      split_ifs at h with htype hold hnew hkick herror
      · have hseq := UInt16.le_antisymm (UInt16.not_lt.mp hnew) (UInt16.not_lt.mp hold)
        exact Or.inl ⟨htype, hseq⟩
      · exact Or.inr (Or.inl hkick)
      · exact Or.inr (Or.inr herror)
  | getUpdateVersionAck =>
      simp only at h
      split_ifs at h with htype
      unfold UpdatePingAck.AcceptedBy
      tauto

/-- One call of `retrieve_update_ping_ack` with what arrives during it, and
the number of slots allocated for the array that it is given. -/
structure RetrieveCall where
  sha256 : Sha256
  own : Anker
  type : UpdatePingType
  seq : UInt16
  startMicros : ℕ
  timeoutMs : ℕ
  maxCntPAnkers : ℕ
  polls : List Poll
  allocated : ℕ

namespace RetrieveCall

variable (C : RetrieveCall)

def acks : List PAnker :=
  retrieveUpdatePingAck C.sha256 C.own C.type C.seq C.startMicros C.timeoutMs C.maxCntPAnkers
    C.polls

/-- The call on an array with whatever the slots hold before. -/
def collected (pAnkers : AckSlots) : Collected :=
  collectInto C.sha256 C.own C.type C.seq C.maxCntPAnkers
    (ackWindow C.startMicros C.timeoutMs C.polls) 0 pAnkers

structure WellFormed : Prop where
  max_pos : 1 ≤ C.maxCntPAnkers
  max_le : C.maxCntPAnkers ≤ C.allocated
  written : ∀ pAnkers : AckSlots, pAnkers.length = C.allocated →
    ∀ i ∈ (C.collected pAnkers).written, i < C.maxCntPAnkers
  count : ∀ pAnkers : AckSlots, pAnkers.length = C.allocated →
    (C.collected pAnkers).numPAnkers = C.acks.length
  entries : ∀ pAnkers : AckSlots, pAnkers.length = C.allocated →
    (C.collected pAnkers).pAnkers.take (C.collected pAnkers).numPAnkers = C.acks.map some
  distinct : (C.acks.map PAnker.serial).Nodup
  valid : ∀ p ∈ C.acks, ∃ poll ∈ C.polls, ∃ d, poll.datagram = some d ∧
    d.info.accepted C.sha256 = true ∧ d.info.AcceptedBy C.own C.type C.seq ∧
    p.serial = d.info.serial

variable {C}

theorem collected_eq (hpos : 1 ≤ C.maxCntPAnkers) {pAnkers : AckSlots}
    (hle : C.maxCntPAnkers ≤ pAnkers.length) :
    C.collected pAnkers = pAnkers.filled 0 C.acks := by
  have hempty : pAnkers.take ([] : List PAnker).length = [].map some := by simp
  exact collectInto_eq _ hempty hpos hle

/-- The array holds what `AckSlots.fill` puts there. -/
theorem collected_pAnkers (hpos : 1 ≤ C.maxCntPAnkers) {pAnkers : AckSlots}
    (hle : C.maxCntPAnkers ≤ pAnkers.length) :
    (C.collected pAnkers).pAnkers = pAnkers.fill C.acks := by
  have hlength : C.acks.length ≤ C.maxCntPAnkers := length_retrieveUpdatePingAck_le hpos
  rw [collected_eq hpos hle, filled_pAnkers 0 (hlength.trans hle)]

/-- A limit within the array is all that the call needs. -/
theorem wellFormed_of_max (hpos : 1 ≤ C.maxCntPAnkers) (hle : C.maxCntPAnkers ≤ C.allocated) :
    C.WellFormed where
  max_pos := hpos
  max_le := hle
  written := by
    intro pAnkers hallocated i hi
    have hlength : C.acks.length ≤ C.maxCntPAnkers := length_retrieveUpdatePingAck_le hpos
    rw [collected_eq hpos (hallocated ▸ hle), AckSlots.filled, List.mem_range'_1] at hi
    omega
  count := by
    intro pAnkers hallocated
    rw [collected_eq hpos (hallocated ▸ hle), AckSlots.filled]
  entries := by
    intro pAnkers hallocated
    rw [collected_eq hpos (hallocated ▸ hle), AckSlots.filled]
    exact List.take_left' (by simp)
  distinct := nodup_retrieveUpdatePingAck
  valid := by
    intro p hp
    obtain ⟨d, hd, haccepted, htake⟩ := mem_retrieveUpdatePingAck hp
    obtain ⟨poll, hpoll, hdatagram⟩ := mem_ackWindow hd
    exact ⟨poll, hpoll, d, hdatagram, haccepted, acceptedBy_of_take htake,
      typeVerdict_take_serial htake⟩

end RetrieveCall

/-! ## The calls of one run -/

/-- The calls that `retrieveUntil` makes. -/
def callsUntil (call : ℕ → RetrieveCall) (cap : ℕ) : ℕ → ℕ → List RetrieveCall
  | 0, _ => []
  | fuel + 1, i =>
      if (call i).acks.length = cap then [call i]
      else call i :: callsUntil call cap fuel (i + 1)

theorem retrieveUntil_eq (call : ℕ → RetrieveCall) (cap fuel i : ℕ) (last : List PAnker) :
    retrieveUntil (fun i ↦ (call i).acks) cap fuel i last =
      (((callsUntil call cap fuel i).map RetrieveCall.acks).getLast?).getD last := by
  induction fuel generalizing i last with
  | zero => rfl
  | succ fuel ih =>
      rw [retrieveUntil, callsUntil]
      by_cases hcap : (call i).acks.length = cap
      · rw [if_pos hcap, if_pos hcap]
        simp
      · rw [if_neg hcap, if_neg hcap, ih]
        simp [List.getLast?_cons]

theorem mem_callsUntil {call : ℕ → RetrieveCall} {cap fuel i : ℕ} {C : RetrieveCall}
    (h : C ∈ callsUntil call cap fuel i) : ∃ j, C = call j := by
  induction fuel generalizing i with
  | zero => simp [callsUntil] at h
  | succ fuel ih =>
      rw [callsUntil] at h
      split_ifs at h with hcap
      · exact ⟨i, List.mem_singleton.mp h⟩
      · rcases List.mem_cons.mp h with h | h
        · exact ⟨i, h⟩
        · exact ih h

namespace Session

variable (S : Session)

/-- The call of a round; `ack_p_ankers` has a slot for each P-Anker. -/
def roundCall (s : SendState) (startMicros : ℕ) (polls : List Poll) : RetrieveCall :=
  ⟨S.sha256, S.own, .sendFirmwareData, s.seq, startMicros, ackTimeoutMs s.seq, s.numRemaining,
    polls, S.pAnkers.length⟩

@[simp] theorem roundCall_acks (s : SendState) (startMicros : ℕ) (polls : List Poll) :
    (S.roundCall s startMicros polls).acks = S.roundAcks s startMicros polls := rfl

def turnCalls (s : SendState) : Turn → List RetrieveCall
  | .readFailed => []
  | .sendFailed => []
  | .round startMicros polls => [S.roundCall s startMicros polls]

/-- The calls that the loop makes on a list of turns. -/
def roundCalls : List Turn → SendState → List RetrieveCall
  | [], _ => []
  | t :: ts, s =>
      if s.offset < S.size then
        match S.turn s t with
        | .next s' => S.turnCalls s t ++ roundCalls ts s'
        | .exit _ _ => S.turnCalls s t
      else []

variable {S}

theorem SendInv.length_pAnkers {s : SendState} (h : S.SendInv s) :
    s.pAnkers.length = S.pAnkers.length := by
  have hserials := congrArg List.length h.serials
  simpa using hserials

theorem SendInv.roundCall {s : SendState} (h : S.SendInv s) (startMicros : ℕ)
    (polls : List Poll) : (S.roundCall s startMicros polls).WellFormed := by
  apply RetrieveCall.wellFormed_of_max
  · exact h.remaining_pos
  · have hcount : s.pAnkers.countP PAnker.active ≤ s.pAnkers.length := List.countP_le_length
    rw [h.length_pAnkers, ← h.remaining] at hcount
    exact hcount

theorem SendInv.turnCalls {s : SendState} (h : S.SendInv s) (t : Turn) :
    ∀ C ∈ S.turnCalls s t, C.WellFormed := by
  cases t with
  | readFailed => simp [Session.turnCalls]
  | sendFailed => simp [Session.turnCalls]
  | round startMicros polls =>
      intro C hC
      rw [List.mem_singleton.mp hC]
      exact h.roundCall startMicros polls

theorem SendInv.roundCalls {s : SendState} (h : S.SendInv s) (ts : List Turn) :
    ∀ C ∈ S.roundCalls ts s, C.WellFormed := by
  induction ts generalizing s with
  | nil => simp [Session.roundCalls]
  | cons t ts ih =>
      intro C hC
      rw [Session.roundCalls, List.mem_ite_nil_right] at hC
      obtain ⟨hrun, hC⟩ := hC
      cases hturn : S.turn s t with
      | next s' =>
          rw [hturn] at hC
          rcases List.mem_append.mp hC with hC | hC
          · exact h.turnCalls t C hC
          · exact ih (h.turn hrun hturn) C hC
      | exit rc s' =>
          rw [hturn] at hC
          exact h.turnCalls t C hC

end Session

/-- The calls of the rounds of ACK_UPDATE. -/
def updateCalls (call : ℕ → RetrieveCall) (numAcknowledged : ℕ) :
    ℕ → ℕ → UpdateTally → List RetrieveCall
  | 0, _, _ => []
  | fuel + 1, y, t =>
      let t' := tallyUpdateAcks (call y).acks t.numAnswered t.numCorrectAnswered t.pAnkers
      if t'.numAnswered = numAcknowledged then [call y]
      else call y :: updateCalls call numAcknowledged fuel (y + 1) t'

theorem mem_updateCalls {call : ℕ → RetrieveCall} {numAcknowledged fuel y : ℕ} {t : UpdateTally}
    {C : RetrieveCall} (h : C ∈ updateCalls call numAcknowledged fuel y t) : ∃ j, C = call j := by
  induction fuel generalizing y t with
  | zero => simp [updateCalls] at h
  | succ fuel ih =>
      rw [updateCalls] at h
      split_ifs at h with hend
      · exact ⟨y, List.mem_singleton.mp h⟩
      · rcases List.mem_cons.mp h with h | h
        · exact ⟨y, h⟩
        · exact ih h

namespace HandleEnv

variable (E : HandleEnv)

def searchCall (i : ℕ) : RetrieveCall :=
  ⟨E.sha256, E.own, .getVersion, 0, (E.searchWindows i).startMicros, 1000, maxPAnkerToUpdate,
    (E.searchWindows i).polls, maxPAnkerToUpdate⟩

def joinCall (i : ℕ) : RetrieveCall :=
  ⟨E.sha256, E.own, .getVersion, 0, (E.joinWindows i).startMicros, 1000, E.numAcknowledged,
    (E.joinWindows i).polls, E.numAcknowledged⟩

def updateCall (numPAnkers y : ℕ) : RetrieveCall :=
  ⟨E.sha256, E.own, .getUpdateVersionAck, 0, (E.updateWindows y).startMicros, 10000, numPAnkers,
    (E.updateWindows y).polls, numPAnkers⟩

theorem ackUpdate_eq_updateCall (joined : List PAnker) (numAcknowledged : ℕ) :
    E.ackUpdate joined numAcknowledged =
      updateRounds (fun y ↦ (E.updateCall joined.length y).acks) numAcknowledged
        maxRetriesAcksUpdatedPAnkers 0 ⟨joined, 0, 0⟩ := rfl

def searchCalls : List RetrieveCall :=
  if E.searchSetup then callsUntil E.searchCall maxPAnkerToUpdate setPAnkerIntoApModeMaxRetries 0
  else []

def joinCalls : List RetrieveCall :=
  if E.joinSetup then callsUntil E.joinCall E.numAcknowledged maxApJoinedAckGetRetries 0
  else []

/-- The list that SET_INTO_AP_MODE works on is that of its last call. -/
theorem setIntoApMode_eq_last : E.setIntoApMode =
    (((E.searchCalls.map RetrieveCall.acks).getLast?).getD []).mapIdx
      fun i p ↦ { p with acknowledged := E.directAcked i } := by
  rw [setIntoApMode, searchCalls]
  by_cases hsetup : E.searchSetup = true
  · rw [if_pos hsetup, if_pos hsetup, ← retrieveUntil_eq]
    rfl
  · rw [if_neg hsetup, if_neg hsetup]
    rfl

theorem ackConnect_eq_last : E.ackConnect =
    ((E.joinCalls.map RetrieveCall.acks).getLast?).getD [] := by
  rw [ackConnect, joinCalls]
  by_cases hsetup : E.joinSetup = true
  · rw [if_pos hsetup, if_pos hsetup, ← retrieveUntil_eq]
    rfl
  · rw [if_neg hsetup, if_neg hsetup]
    rfl

/-- The calls of SEND_UPDATE_FILE and ACK_UPDATE. -/
def sendCalls (S : Session) : List RetrieveCall :=
  if E.sendSetup = false then []
  else S.roundCalls E.turns S.start ++ match S.run E.turns S.start with
    | some (.ok, s) =>
        if E.updateSetup = false then []
        else updateCalls (E.updateCall s.pAnkers.length) s.numRemaining
          maxRetriesAcksUpdatedPAnkers 0 ⟨s.pAnkers, 0, 0⟩
    | _ => []

/-- Every call that `handle_p_anker_updates` makes, in order. -/
def retrieveCalls : List RetrieveCall :=
  E.searchCalls ++
    if hacknowledged : 0 < E.numAcknowledged then
      if (List.range maxApCreateRetries).all fun x ↦ !E.apCreated x then []
      else E.joinCalls ++
        if hjoined : E.ackConnect ≠ [] then E.sendCalls (E.session hacknowledged hjoined)
        else []
    else []

theorem wellFormed_searchCalls : ∀ C ∈ E.searchCalls, C.WellFormed := by
  intro C hC
  rw [searchCalls, List.mem_ite_nil_right] at hC
  obtain ⟨i, rfl⟩ := mem_callsUntil hC.2
  exact RetrieveCall.wellFormed_of_max (Nat.succ_pos 1) le_rfl

theorem wellFormed_joinCalls (hacknowledged : 0 < E.numAcknowledged) :
    ∀ C ∈ E.joinCalls, C.WellFormed := by
  intro C hC
  rw [joinCalls, List.mem_ite_nil_right] at hC
  obtain ⟨i, rfl⟩ := mem_callsUntil hC.2
  exact RetrieveCall.wellFormed_of_max hacknowledged le_rfl

theorem wellFormed_updateCalls {pAnkers : List PAnker} (hpAnkers : pAnkers ≠ [])
    {numAcknowledged fuel y : ℕ} {t : UpdateTally} :
    ∀ C ∈ updateCalls (E.updateCall pAnkers.length) numAcknowledged fuel y t, C.WellFormed := by
  intro C hC
  obtain ⟨j, rfl⟩ := mem_updateCalls hC
  exact RetrieveCall.wellFormed_of_max (List.length_pos_of_ne_nil hpAnkers) le_rfl

theorem wellFormed_sendCalls (S : Session) : ∀ C ∈ E.sendCalls S, C.WellFormed := by
  intro C hC
  rw [sendCalls, List.mem_ite_nil_left] at hC
  rcases List.mem_append.mp hC.2 with hC | hC
  · exact S.sendInv_start.roundCalls E.turns C hC
  split at hC
  · rename_i s hrun
    rw [List.mem_ite_nil_left] at hC
    have hreach : S.Reachable s := (Session.Reachable.run_ok .refl hrun).1
    have hlength := hreach.sendInv.length_pAnkers
    have hne : s.pAnkers ≠ [] := by
      intro hnil
      rw [hnil] at hlength
      exact S.pAnkers_ne_nil (List.length_eq_zero_iff.mp hlength.symm)
    exact E.wellFormed_updateCalls hne C hC.2
  · exact absurd hC List.not_mem_nil

def CallsWellFormed : Prop := ∀ C ∈ E.retrieveCalls, C.WellFormed

/-- In every run of `handle_p_anker_updates` every call of
`retrieve_update_ping_ack` has a limit within its array and fills it with
entries of distinct serials from acknowledgements of its phase. -/
theorem callsWellFormed : E.CallsWellFormed := by
  intro C hC
  rw [retrieveCalls] at hC
  rcases List.mem_append.mp hC with hC | hC
  · exact E.wellFormed_searchCalls C hC
  rw [List.mem_dite_nil_right] at hC
  obtain ⟨hacknowledged, hC⟩ := hC
  rw [List.mem_ite_nil_left] at hC
  rcases List.mem_append.mp hC.2 with hC | hC
  · exact E.wellFormed_joinCalls hacknowledged C hC
  · rw [List.mem_dite_nil_right] at hC
    obtain ⟨hjoined, hC⟩ := hC
    exact E.wellFormed_sendCalls _ C hC

end HandleEnv

/-! ## What a run learns -/

/-- Turns that differ at most in what is polled. -/
inductive Turn.Alike : Turn → Turn → Prop where
  | readFailed : Alike .readFailed .readFailed
  | sendFailed : Alike .sendFailed .sendFailed
  | round (startMicros startMicros' : ℕ) (polls polls' : List Poll) :
      Alike (.round startMicros polls) (.round startMicros' polls')

section

variable {call call' : ℕ → RetrieveCall} {rest rest' : List (List PAnker)}

theorem callsUntil_congr {cap fuel i i' : ℕ}
    (h : (callsUntil call cap fuel i).map RetrieveCall.acks ++ rest =
      (callsUntil call' cap fuel i').map RetrieveCall.acks ++ rest') :
    (callsUntil call cap fuel i).map RetrieveCall.acks =
      (callsUntil call' cap fuel i').map RetrieveCall.acks ∧ rest = rest' := by
  induction fuel generalizing i i' with
  | zero => exact ⟨rfl, h⟩
  | succ fuel ih =>
      have hhead : (call i).acks = (call' i').acks := by
        have hheads := congrArg List.head? h
        rw [callsUntil, callsUntil] at hheads
        split_ifs at hheads <;> simpa using hheads
      simp only [callsUntil, hhead] at h ⊢
      split_ifs at h ⊢ with hcap
      · simpa [hhead] using h
      · simp only [List.map_cons, List.cons_append, hhead, List.cons.injEq, true_and] at h ⊢
        exact ih h

theorem updateCalls_congr {numAcknowledged fuel y : ℕ} {t : UpdateTally}
    (h : (updateCalls call numAcknowledged fuel y t).map RetrieveCall.acks =
      (updateCalls call' numAcknowledged fuel y t).map RetrieveCall.acks) :
    updateRounds (fun y ↦ (call y).acks) numAcknowledged fuel y t =
      updateRounds (fun y ↦ (call' y).acks) numAcknowledged fuel y t := by
  induction fuel generalizing y t with
  | zero => rfl
  | succ fuel ih =>
      have hhead : (call y).acks = (call' y).acks := by
        have hheads := congrArg List.head? h
        simp only [updateCalls] at hheads
        split_ifs at hheads <;> simpa using hheads
      simp only [updateCalls, updateRounds, hhead] at h ⊢
      split_ifs at h ⊢
      · rfl
      · simp only [List.map_cons, List.cons.injEq] at h
        exact ih h.2

theorem Session.roundCalls_congr {S : Session} {ts ts' : List Turn} {s : SendState}
    (halike : List.Forall₂ Turn.Alike ts ts')
    (h : (S.roundCalls ts s).map RetrieveCall.acks ++ rest =
      (S.roundCalls ts' s).map RetrieveCall.acks ++ rest') :
    S.run ts s = S.run ts' s ∧ rest = rest' := by
  induction halike generalizing s with
  | nil => exact ⟨rfl, h⟩
  | @cons t t' ts ts' hturn _ ih =>
      rw [Session.roundCalls, Session.roundCalls] at h
      rw [Session.run, Session.run]
      by_cases hrun : s.offset < S.size
      · rw [if_pos hrun] at h ⊢
        rw [if_pos hrun] at h ⊢
        -- the acks of the turn decide where it goes
        have hsame : S.turn s t = S.turn s t' ∧
            (S.turnCalls s t).map RetrieveCall.acks =
              (S.turnCalls s t').map RetrieveCall.acks := by
          cases hturn with
          | readFailed => exact ⟨rfl, rfl⟩
          | sendFailed => exact ⟨rfl, rfl⟩
          | round startMicros startMicros' polls polls' =>
              have hacks : S.roundAcks s startMicros polls =
                  S.roundAcks s startMicros' polls' := by
                have hheads := congrArg List.head? h
                cases hnext : S.turn s (.round startMicros polls) <;>
                  cases hnext' : S.turn s (.round startMicros' polls') <;>
                  simpa [hnext, hnext', Session.turnCalls] using hheads
              have htally : S.roundTally s startMicros polls =
                  S.roundTally s startMicros' polls' := by
                rw [Session.roundTally, Session.roundTally, hacks]
              have htallied : S.tallied s startMicros polls =
                  S.tallied s startMicros' polls' := by
                rw [Session.tallied, Session.tallied, htally]
              refine ⟨?_, by simp [Session.turnCalls, hacks]⟩
              rw [Session.turn, Session.turn, hacks, htally, htallied]
        rw [hsame.1] at h ⊢
        cases hnext : S.turn s t' with
        | next s' =>
            simp only [hnext, List.map_append, List.append_assoc, hsame.2,
              List.append_cancel_left_eq] at h ⊢
            exact ih h
        | exit rc s' =>
            simp only [hnext, hsame.2, List.append_cancel_left_eq, true_and] at h ⊢
            exact h
      · rw [if_neg hrun] at h ⊢
        rw [if_neg hrun] at h ⊢
        exact ⟨rfl, h⟩

end

namespace HandleEnv

variable {E E' : HandleEnv}

/-- Environments that differ at most in what is polled and when. -/
structure Alike (E E' : HandleEnv) : Prop where
  sha256 : E.sha256 = E'.sha256
  own : E.own = E'.own
  runningPartition : E.runningPartition = E'.runningPartition
  searchSetup : E.searchSetup = E'.searchSetup
  directAcked : E.directAcked = E'.directAcked
  apCreated : E.apCreated = E'.apCreated
  joinSetup : E.joinSetup = E'.joinSetup
  sendSetup : E.sendSetup = E'.sendSetup
  turns : List.Forall₂ Turn.Alike E.turns E'.turns
  updateSetup : E.updateSetup = E'.updateSetup

theorem Alike.search (h : E.Alike E') {rest rest' : List (List PAnker)}
    (hacks : E.searchCalls.map RetrieveCall.acks ++ rest =
      E'.searchCalls.map RetrieveCall.acks ++ rest') :
    E.setIntoApMode = E'.setIntoApMode ∧ rest = rest' := by
  rw [setIntoApMode_eq_last, setIntoApMode_eq_last, h.directAcked]
  simp only [searchCalls, h.searchSetup] at hacks ⊢
  split_ifs at hacks ⊢
  · obtain ⟨hsame, hrest⟩ := callsUntil_congr hacks
    exact ⟨by rw [hsame], hrest⟩
  · exact ⟨rfl, hacks⟩

theorem Alike.join (h : E.Alike E') (hnum : E.numAcknowledged = E'.numAcknowledged)
    {rest rest' : List (List PAnker)}
    (hacks : E.joinCalls.map RetrieveCall.acks ++ rest =
      E'.joinCalls.map RetrieveCall.acks ++ rest') :
    E.ackConnect = E'.ackConnect ∧ rest = rest' := by
  rw [ackConnect_eq_last, ackConnect_eq_last]
  simp only [joinCalls, h.joinSetup, hnum] at hacks ⊢
  split_ifs at hacks ⊢
  · obtain ⟨hsame, hrest⟩ := callsUntil_congr hacks
    exact ⟨by rw [hsame], hrest⟩
  · exact ⟨rfl, hacks⟩

theorem Alike.send (h : E.Alike E') {S : Session} (hsend : E'.sendSetup ≠ false)
    (hacks : (E.sendCalls S).map RetrieveCall.acks = (E'.sendCalls S).map RetrieveCall.acks) :
    S.run E.turns S.start = S.run E'.turns S.start ∧
      ∀ s, S.run E'.turns S.start = some (.ok, s) → E'.updateSetup ≠ false →
        E.ackUpdate s.pAnkers s.numRemaining = E'.ackUpdate s.pAnkers s.numRemaining := by
  simp only [sendCalls, h.sendSetup, if_neg hsend, List.map_append] at hacks
  obtain ⟨hrun, hrest⟩ := Session.roundCalls_congr h.turns hacks
  refine ⟨hrun, fun s hs hupdate ↦ ?_⟩
  rw [ackUpdate_eq_updateCall, ackUpdate_eq_updateCall]
  simp only [hrun, hs, h.updateSetup, if_neg hupdate] at hrest
  exact updateCalls_congr hrest

/-- What `handle_p_anker_updates` returns comes from the acknowledgements of
the listed calls: whatever else arrives in its windows, if the calls of two
runs return the same, so do the runs. -/
theorem handlePAnkerUpdates_congr (h : E.Alike E')
    (hacks : E.retrieveCalls.map RetrieveCall.acks = E'.retrieveCalls.map RetrieveCall.acks) :
    E.handlePAnkerUpdates = E'.handlePAnkerUpdates := by
  simp only [retrieveCalls, List.map_append] at hacks
  obtain ⟨hsearch, hacks⟩ := h.search hacks
  have hnum : E.numAcknowledged = E'.numAcknowledged := by
    rw [numAcknowledged, numAcknowledged, hsearch]
  rw [handlePAnkerUpdates, handlePAnkerUpdates]
  simp only [hsearch, hnum, h.apCreated]
  by_cases hzero : E'.numAcknowledged = 0
  · rw [dif_pos hzero, dif_pos hzero]
  have hpos : 0 < E'.numAcknowledged := Nat.pos_of_ne_zero hzero
  rw [dif_neg hzero, dif_neg hzero]
  rw [dif_pos (hnum ▸ hpos), dif_pos hpos, h.apCreated] at hacks
  by_cases hcreated : ((List.range maxApCreateRetries).all fun x ↦ !E'.apCreated x) = true
  · rw [if_pos hcreated, if_pos hcreated]
  rw [if_neg hcreated, if_neg hcreated, List.map_append, List.map_append] at hacks
  rw [if_neg hcreated, if_neg hcreated]
  obtain ⟨hjoin, hacks⟩ := h.join hnum hacks
  by_cases hjoined : E'.ackConnect = []
  · rw [dif_pos (hjoin.trans hjoined), dif_pos hjoined]
  have hjoined' : E.ackConnect ≠ [] := fun hnil ↦ hjoined (hjoin.symm.trans hnil)
  have hsession : E.session (hnum ▸ hpos) hjoined' = E'.session hpos hjoined := by
    simp only [session, h.sha256, h.own, h.runningPartition, hjoin]
  rw [dif_pos hjoined', dif_pos hjoined, hsession] at hacks
  rw [dif_neg hjoined', dif_neg hjoined, hsession, hjoin, h.sendSetup]
  by_cases hsend : E'.sendSetup = false
  · rw [if_pos hsend, if_pos hsend]
  obtain ⟨hrun, hupdate⟩ := h.send hsend hacks
  rw [if_neg hsend, if_neg hsend, hrun, h.updateSetup]
  cases hresult : (E'.session hpos hjoined).run E'.turns (E'.session hpos hjoined).start with
  | none => rfl
  | some result =>
      obtain ⟨rc, s⟩ := result
      cases rc with
      | error => rfl
      | ok =>
          by_cases hsetup : E'.updateSetup = false
          · simp only [if_pos hsetup]
          · simp only [if_neg hsetup, hupdate s hresult hsetup]

end HandleEnv

end AnkerUpdater
