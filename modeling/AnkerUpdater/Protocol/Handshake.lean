import AnkerUpdater.Protocol.AckTransport
import AnkerUpdater.Protocol.Bounds
import AnkerUpdater.Protocol.LeftOver
import AnkerUpdater.Protocol.Lifecycle
import AnkerUpdater.Protocol.Phases

/-!
# The request to join the access point

One call of `send_update_ping_info_direct` and the TCP task of the P-Anker
that it reaches.  Each direction of the connection is a stream of bytes, of
which a `recv` takes as many as it likes.  A message is taken out of a struct
that keeps what the bytes do not overwrite.
-/

namespace AnkerUpdater

open ByteMemory Runs

/-- MAX_TCP_PING_RETRIES -/
def maxTcpPingRetries : ℕ := 3

/-- The struct of `send_update_ping_info_direct`, which was `memory` before;
`is_last`, the padding and `data` are never assigned. -/
def directMembers (cAnker : Anker) (memory : Memory UInt8) : Memory UInt8 :=
  store (store (store (store (store memory
    0 magicBytes.toList) 3 [UpdatePingType.connectToAp.code]) 4 cAnker.serial.toList)
    46 (bytesOfUInt16 0)) 50 (bytesOfUInt16 0)

def directStruct (sha256 : Sha256) (cAnker : Anker) (memory : Memory UInt8) : Memory UInt8 :=
  let filled := directMembers cAnker memory
  store filled 13 (calculateUpdatePingInfoHash sha256 (.ofMemory filled)).toList

/-- The bytes that one `send` is given. -/
def directRequest (sha256 : Sha256) (cAnker : Anker) (memory : Memory UInt8) : List UInt8 :=
  load (directStruct sha256 cAnker memory) 0 sizeofUpdatePingInfo

/-- The types of the acks with which the TCP task answers a request. -/
def tcpAnswers (sha256 : Sha256) (m : UpdatePingInfo) : List AckType :=
  if m.magic ≠ magicBytes then []
  else if calculateUpdatePingInfoHash sha256 m ≠ m.hash then [.hashError]
  else if m.type = UpdatePingType.connectToAp.code then [.apJoin]
  else []

/-- The ack that ends the loop over the sends. -/
def UpdatePingAck.joins (sha256 : Sha256) (m : UpdatePingAck) : Bool :=
  m.accepted sha256 && m.type = AckType.apJoin.code

inductive DirectPhase where
  | connecting
  | sending
  | receiving
  | returned (rc : UpdaterRc)
  deriving DecidableEq

/-- `isOpen` says that the TCP task can still read from the connection; the
streams hold what has been sent and not been read.  `obeyed` is the request
that the task has obeyed, and `heard` that the C-Anker has read some byte of
an answer. -/
structure Handshake where
  phase : DirectPhase
  turn : ℕ
  ackInfo : Memory UInt8
  isOpen : Bool
  toPAnker : List UInt8
  toCAnker : List UInt8
  pAnker : PAnkerDevice
  obeyed : Option UpdatePingInfo
  heard : Bool

/-- One pass of the TCP task with this connection.  It takes `taken` bytes
into `request`, copies them over `updateInfo`, and of its ack `ackSent` bytes
are sent; `cut` is a power failure while it writes the record. -/
structure Serving where
  id : ℕ
  taken : ℕ
  request : Memory UInt8
  updateInfo : Memory UInt8
  ackMemory : Memory UInt8
  ackSent : ℕ
  padding : Vector UInt8 3
  write : Storage.WriteEnv
  cut : Option (ℕ × ℕ × Option Bytes)

inductive HandshakeAction where
  | connect (ok : Bool)
  | send (sent : Option ℕ)
  | recv (taken : ℕ)
  | serve (v : Serving)
  | device (v : Move)

/-- The devices, and what the struct of the request held before. -/
structure DirectCall where
  sha256 : Sha256
  cAnker : Anker
  pAnker : Anker
  memory : Memory UInt8

namespace DirectCall

variable (D : DirectCall) (s : Handshake)

def request : List UInt8 := directRequest D.sha256 D.cAnker D.memory

/-- The next pass of the loop over the sends. -/
def retry : Handshake :=
  if s.turn + 1 = maxTcpPingRetries then
    { s with turn := s.turn + 1, phase := .returned .error }
  else { s with turn := s.turn + 1, phase := .sending }

/-- What follows a `recv` of the C-Anker. -/
def afterRecv (bytes : List UInt8) : Handshake :=
  let s := { s with ackInfo := store s.ackInfo 0 bytes, toCAnker := s.toCAnker.drop bytes.length }
  if bytes = [] then retry s
  else
    let s := { s with heard := true }
    if (UpdatePingAck.ofMemory s.ackInfo).joins D.sha256 then { s with phase := .returned .ok }
    else retry s

/-- The P-Anker makes the move; a restart takes the connection with it. -/
def moves (v : Move) : Handshake :=
  { s with
    pAnker := s.pAnker.step D.sha256 D.pAnker v
    isOpen := s.isOpen && (s.pAnker.memoryAfter D.sha256 D.pAnker v).isSome }

/-- The bytes of the acks, as far as they are sent. -/
def answerBytes (v : Serving) (m : UpdatePingInfo) : List UInt8 :=
  (tcpAnswers D.sha256 m).flatMap fun type ↦
    (sendAck D.sha256 D.pAnker type 0 v.ackMemory).take v.ackSent

def servedMove (v : Serving) (m : UpdatePingInfo) : Move :=
  match v.cut with
  | none => .does (.request v.id m v.padding v.write)
  | some (done, k, debris) => .powerLoss (.request v.id m v.padding v.write) done k debris

/-- The TCP task reads, answers, obeys and closes the connection. -/
def served (v : Serving) (bytes : List UInt8) : Handshake :=
  let m := UpdatePingInfo.received v.request v.updateInfo bytes
  { moves D s (servedMove v m) with
    isOpen := false
    toPAnker := []
    toCAnker := s.toCAnker ++ D.answerBytes v m
    obeyed := if s.pAnker.Obeys D.sha256 v.id m then some m else s.obeyed }

def step : HandshakeAction → Handshake
  | .connect ok =>
      if s.phase ≠ .connecting then s
      else if ok then { s with phase := .sending, isOpen := true }
      else { s with phase := .returned .error }
  | .send sent =>
      if s.phase ≠ .sending then s
      else
        match sent with
        | none => { s with phase := .returned .error }
        | some n => { s with
            phase := .receiving
            toPAnker := if s.isOpen then s.toPAnker ++ D.request.take n else s.toPAnker }
  | .recv taken =>
      if s.phase ≠ .receiving then s
      else D.afterRecv s (s.toCAnker.take (min taken sizeofUpdatePingAck))
  | .serve v =>
      if s.isOpen = false ∨ ¬s.pAnker.Listens v.id .tcp then s
      else
        let bytes := s.toPAnker.take (min v.taken sizeofUpdatePingInfo)
        -- `recv` fails, and the task closes the connection
        if bytes = [] then { moves D s (.does (.taskPasses v.id true)) with isOpen := false }
        else D.served s v bytes
  | .device v => moves D s v

def start (pAnker : PAnkerDevice) (ackInfo : Memory UInt8) : Handshake :=
  ⟨.connecting, 0, ackInfo, false, [], [], pAnker, none, false⟩

def run (pAnker : PAnkerDevice) (ackInfo : Memory UInt8) (actions : List HandshakeAction) :
    Handshake :=
  actions.foldl D.step (start pAnker ackInfo)

end DirectCall

/-! ## The heads of the messages -/

/-- Magic bytes, type and serial come first in both structs. -/
def headSize : ℕ := 13

section

variable {sha256 : Sha256} {own cAnker : Anker} {type : AckType} {m : UpdatePingInfo}
  {mem memory buffer : Memory UInt8} {bytes cells : List UInt8}

theorem take_of_initial {k : ℕ} (hpre : bytes <+: cells) (hk : k ≤ bytes.length) :
    bytes.take k = cells.take k := by
  conv_lhs => rw [List.prefix_iff_eq_take.mp hpre]
  rw [List.take_take, Nat.min_eq_left hk]

theorem take_sendAck : (sendAck sha256 own type 0 memory).take headSize =
    load (ackStruct sha256 own type 0 memory) 0 headSize := by
  rw [sendAck, take_load, sizeofUpdatePingAck_eq, maxVersionSize, headSize,
    Nat.min_eq_left (by omega)]

/-- The type of an ack whose head has come is the one that was sent. -/
theorem type_of_head (hbytes : headSize ≤ bytes.length)
    (hpre : bytes <+: sendAck sha256 own type 0 memory) :
    (UpdatePingAck.ofMemory (store mem 0 bytes)).type = type.code := by
  have hhead : bytes.take headSize = load (ackStruct sha256 own type 0 memory) 0 headSize :=
    (take_of_initial hpre hbytes).trans take_sendAck
  have htype : store mem 0 bytes 3 = ackStruct sha256 own type 0 memory 3 :=
    store_eq_of_take hhead (by decide)
  have hstruct : ackStruct sha256 own type 0 memory 3 = ackMembers own type 0 memory 3 :=
    store_of_lt (by decide)
  have hmembers : ackMembers own type 0 memory 3 = type.code := by
    simp [ackMembers, store, magicBytes]
  exact htype.trans (hstruct.trans hmembers)

theorem take_directRequest : (directRequest sha256 cAnker memory).take headSize =
    load (directMembers cAnker memory) 0 headSize := by
  rw [directRequest, take_load, sizeofUpdatePingInfo_eq, headSize, Nat.min_eq_left (by omega)]
  exact load_store_of_disjoint (.inl le_rfl)

/-- The head of a request is that of the C-Anker, whatever else the struct
of the TCP task holds. -/
theorem serial_of_head (hlen : bytes.length ≤ sizeofUpdatePingInfo)
    (htake : bytes.take headSize = (directRequest sha256 cAnker memory).take headSize) :
    (UpdatePingInfo.received buffer mem bytes).serial = cAnker.serial := by
  have hhead : bytes.take headSize = load (directMembers cAnker memory) 0 headSize :=
    htake.trans take_directRequest
  have hserial : load (directMembers cAnker memory) 4 serialSize = cAnker.serial.toList := by
    rw [directMembers, load_store_of_disjoint (by simp [bytesOfUInt16, serialSize]),
      load_store_of_disjoint (by simp [bytesOfUInt16, serialSize]), load_store Vector.length_toList]
  rw [UpdatePingInfo.received, List.take_of_length_le hlen]
  apply loadVector_eq
  rw [← hserial]
  refine load_congr fun a _ ha ↦ ?_
  have ha : a < headSize := by simpa [serialSize, headSize] using ha
  rw [copy_of_lt (ha.trans (by decide)), store_eq_of_take hhead ha]

/-! ## Whole messages -/

/-- The hash is the only member that comes after the others. -/
theorem load_directStruct {offset n : ℕ} (h : offset + n ≤ 13 ∨ 45 ≤ offset) :
    load (directStruct sha256 cAnker memory) offset n =
      load (directMembers cAnker memory) offset n := by
  rw [directStruct]
  refine load_store_of_disjoint (h.imp_right fun h ↦ ?_)
  rwa [Vector.length_toList, hashSize]

theorem load_dataLen : load (directMembers cAnker memory) 50 2 = bytesOfUInt16 0 :=
  load_store (by simp [bytesOfUInt16])

theorem dataLen_directStruct : loadUInt16 (directStruct sha256 cAnker memory) 50 = 0 :=
  loadUInt16_eq ((load_directStruct (.inr (by omega))).trans load_dataLen)

/-- What the C-Anker fills in passes the checks of the TCP task, whatever the
members hold that it leaves alone. -/
theorem accepted_directStruct :
    (UpdatePingInfo.ofMemory (directStruct sha256 cAnker memory)).accepted sha256 = true ∧
      (UpdatePingInfo.ofMemory (directStruct sha256 cAnker memory)).type =
        UpdatePingType.connectToAp.code := by
  have hmagic : load (directStruct sha256 cAnker memory) 0 3 = magicBytes.toList := by
    rw [load_directStruct (.inl (by omega)), directMembers,
      load_store_of_disjoint (by simp), load_store_of_disjoint (by simp),
      load_store_of_disjoint (by simp), load_store_of_disjoint (by simp), load_store (by simp)]
  have htype : load (directStruct sha256 cAnker memory) 3 1 =
      [UpdatePingType.connectToAp.code] := by
    rw [load_directStruct (.inl (by omega)), directMembers,
      load_store_of_disjoint (by simp), load_store_of_disjoint (by simp),
      load_store_of_disjoint (by simp), load_store (by simp)]
  have hhash : load (directStruct sha256 cAnker memory) 13 hashSize =
      (calculateUpdatePingInfoHash sha256 (.ofMemory (directMembers cAnker memory))).toList :=
    load_store Vector.length_toList
  have hlen : loadUInt16 (directMembers cAnker memory) 50 = 0 := loadUInt16_eq load_dataLen
  have hhashed : (UpdatePingInfo.ofMemory (directStruct sha256 cAnker memory)).hashed =
      (UpdatePingInfo.ofMemory (directMembers cAnker memory)).hashed := by
    rw [UpdatePingInfo.hashed_ofMemory, UpdatePingInfo.hashed_ofMemory, dataLen_directStruct, hlen,
      load_directStruct (.inl (by omega)), load_directStruct (.inr (by omega)),
      load_directStruct (.inr (by omega))]
  have hchecks : calculateUpdatePingInfoHash sha256
      (.ofMemory (directStruct sha256 cAnker memory)) =
      (UpdatePingInfo.ofMemory (directStruct sha256 cAnker memory)).hash := by
    rw [calculateUpdatePingInfoHash, hhashed]
    exact (loadVector_eq hhash).symm
  have hbyte : directStruct sha256 cAnker memory 3 = UpdatePingType.connectToAp.code := by
    simpa [load] using htype
  refine ⟨?_, hbyte⟩
  simp only [UpdatePingInfo.accepted, Bool.and_eq_true, decide_eq_true_eq]
  exact ⟨loadVector_eq hmagic, hchecks⟩

theorem length_directRequest :
    (directRequest sha256 cAnker memory).length = sizeofUpdatePingInfo := length_load

/-- A request that is read whole is obeyed. -/
theorem received_directRequest :
    (UpdatePingInfo.received buffer mem (directRequest sha256 cAnker memory)).accepted sha256 =
        true ∧
      (UpdatePingInfo.received buffer mem (directRequest sha256 cAnker memory)).type =
        UpdatePingType.connectToAp.code := by
  have hwhole : (directRequest sha256 cAnker memory).take sizeofUpdatePingInfo =
      load (directStruct sha256 cAnker memory) 0 sizeofUpdatePingInfo :=
    List.take_of_length_le length_directRequest.le
  have hsame : ∀ a < 52, copy sizeofUpdatePingInfo (store buffer 0
      ((directRequest sha256 cAnker memory).take sizeofUpdatePingInfo)) mem a =
      directStruct sha256 cAnker memory a := by
    intro a ha
    have hlt : a < sizeofUpdatePingInfo := by
      rw [sizeofUpdatePingInfo_eq]
      omega
    rw [copy_of_lt hlt, hwhole]
    exact store_eq_of_take (List.take_of_length_le length_load.le) hlt
  have hcovered : (UpdatePingInfo.received buffer mem (directRequest sha256 cAnker memory)).covered =
      (UpdatePingInfo.ofMemory (directStruct sha256 cAnker memory)).covered := by
    refine (UpdatePingInfo.covered_ofMemory_congr fun a ha ↦ ?_).symm
    rw [dataLen_directStruct] at ha
    exact (hsame a ha).symm
  have haccepted (m : UpdatePingInfo) : m.covered.accepted sha256 = m.accepted sha256 :=
    (infoFormat_lawful sha256).accepted_covered m
  have htype (m : UpdatePingInfo) : m.covered.type = m.type := rfl
  rw [← haccepted, ← htype, hcovered, haccepted, htype]
  exact accepted_directStruct

theorem length_sendAck (hversion : ackVersion own type = []) :
    (sendAck sha256 own type 0 memory).length = 50 := by
  have hafter : ackStruct sha256 own type 0 memory 48 = ackMembers own type 0 memory 48 := by
    apply store_of_le
    rw [Vector.length_toList, hashSize]
    omega
  have hlen : ackMembers own type 0 memory 48 = 0 := by simp [ackMembers, hversion, store]
  rw [sendAck, length_load, hafter, hlen, sizeofUpdatePingAck_eq]
  rfl

/-- An AP_JOIN that is read whole ends the loop of the C-Anker. -/
theorem joins_sendAck :
    (UpdatePingAck.ofMemory (store mem 0 (sendAck sha256 own .apJoin 0 memory))).joins sha256 =
      true := by
  have hserialOnly : sendAck sha256 own .apJoin 0 memory =
      sendAck sha256 ⟨own.serial, []⟩ .apJoin 0 memory := by
    simp [sendAck, ackStruct, ackMembers, ackVersion]
  have hbytes : (sendAck sha256 own .apJoin 0 memory).length ≤ sizeofUpdatePingAck := by
    rw [length_sendAck (by simp [ackVersion]), sizeofUpdatePingAck_eq]
    omega
  have hcopy : copy sizeofUpdatePingAck (store mem 0
      ((sendAck sha256 own .apJoin 0 memory).take responseSize)) mem =
      store mem 0 (sendAck sha256 own .apJoin 0 memory) := by
    rw [List.take_of_length_le (hbytes.trans (by decide))]
    funext a
    by_cases ha : a < sizeofUpdatePingAck
    · exact copy_of_lt ha
    · rw [copy, if_neg ha, store_of_le (by omega)]
  have hreceived := sendAck_received sha256 ⟨own.serial, []⟩ .apJoin 0 memory mem mem
    (Nat.zero_le _)
  rw [← hserialOnly, UpdatePingAck.received, hcopy] at hreceived
  simp [UpdatePingAck.joins, hreceived.1, hreceived.2.1]

end

end AnkerUpdater
