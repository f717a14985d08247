import AnkerUpdater.Protocol.AckCollector
import AnkerUpdater.Protocol.Receiver
import AnkerUpdater.Protocol.Wire

/-!
# What earlier datagrams leave in the buffers

The receivers compare the received length with 0 only, and copy a whole
struct out of a buffer that still holds the end of earlier datagrams.
-/

namespace AnkerUpdater

open Collect ByteMemory

structure Datagram (size : ℕ) where
  bytes : List UInt8
  nonempty : bytes ≠ []
  fits : bytes.length ≤ size

/-- The buffer of a receiver, `initial` at first, after earlier receives. -/
def leftOver {size : ℕ} (initial : Memory UInt8) (earlier : List (Datagram size)) :
    Memory UInt8 :=
  earlier.foldl (fun buffer d ↦ store buffer 0 d.bytes) initial

/-! ## Reactions -/

/-- `p_anker_tcp_task` with one request: its answers, and the serial that it
stores and hands to `p_anker_connect_to_c_anker_ap_task`. -/
def tcpRequest (sha256 : Sha256) (own : Anker) (m : UpdatePingInfo) :
    List UpdatePingAck × Option Serial :=
  if m.magic ≠ magicBytes then ([], none)
  else if calculateUpdatePingInfoHash sha256 m ≠ m.hash then
    ([ackInfo sha256 own .hashError 0], none)
  else if m.type = UpdatePingType.connectToAp.code then
    ([ackInfo sha256 own .apJoin 0], some m.serial)
  else ([], none)

/-- `retrieve_update_ping_ack` with one ack, after it has collected `acc`. -/
def ackReaction (sha256 : Sha256) (own : Anker) (type : UpdatePingType) (seq : UInt16)
    (m : UpdatePingAck) (ip : UInt32) (acc : List PAnker) : Verdict PAnker :=
  if m.serial ∈ acc.map PAnker.serial then .skip else ackVerdict sha256 own type seq ⟨ip, m⟩

/-- A message in memory, and how a receiver comes to it.  Its hash covers it
up to `hashEnd`. -/
structure Format (M : Type) where
  size : ℕ
  ofMemory : Memory UInt8 → M
  received : Memory UInt8 → Memory UInt8 → List UInt8 → M
  hashEnd : Memory UInt8 → ℕ
  magic : M → Vector UInt8 3
  accepted : Sha256 → M → Bool
  covered : M → M

def infoFormat : Format UpdatePingInfo where
  size := sizeofUpdatePingInfo
  ofMemory := .ofMemory
  received := .received
  hashEnd mem := 52 + (loadUInt16 mem 50).toNat
  magic := UpdatePingInfo.magic
  accepted := UpdatePingInfo.accepted
  covered := UpdatePingInfo.covered

def ackFormat : Format UpdatePingAck where
  size := sizeofUpdatePingAck
  ofMemory := .ofMemory
  received := .received
  hashEnd mem := 49 + (mem 48).toNat
  magic := UpdatePingAck.magic
  accepted := UpdatePingAck.accepted
  covered := UpdatePingAck.covered

namespace Format

variable {M γ : Type} (F : Format M) (sha256 : Sha256)

/-- The datagram does not end before the last byte that its hash covers. -/
def Complete (d : Datagram F.size) : Prop :=
  F.hashEnd (store (fun _ ↦ 0) 0 d.bytes) ≤ d.bytes.length

/-- Some bytes after the datagram make it a message that passes the checks. -/
def BeginsAccepted (d : Datagram F.size) : Prop :=
  ∃ mem, load mem 0 d.bytes.length = d.bytes ∧ F.accepted sha256 (F.ofMemory mem) = true

/-- The fields that a receiver goes on with. -/
def used (m : M) : Option M := if F.accepted sha256 m then some (F.covered m) else none

/-- Whatever earlier receives left in the buffer, the reaction to the
datagram is the same and uses the same fields, and only a complete datagram
is accepted. -/
structure OnDatagramOnly (bufferSize : ℕ) (reaction : M → γ) (d : Datagram F.size) : Prop where
  same : ∀ (memory initial : Memory UInt8) (earlier earlier' : List (Datagram bufferSize)),
    reaction (F.received (leftOver initial earlier) memory d.bytes) =
      reaction (F.received (leftOver initial earlier') memory d.bytes) ∧
    F.used sha256 (F.received (leftOver initial earlier) memory d.bytes) =
      F.used sha256 (F.received (leftOver initial earlier') memory d.bytes)
  complete : ∀ (memory initial : Memory UInt8) (earlier : List (Datagram bufferSize)),
    F.accepted sha256 (F.received (leftOver initial earlier) memory d.bytes) = true → F.Complete d

/-- What the two formats have in common. -/
structure Lawful : Prop where
  le_size : 3 ≤ F.size
  received_eq : ∀ buffer memory bytes, bytes.length ≤ F.size →
    F.received buffer memory bytes = F.ofMemory (copy F.size (store buffer 0 bytes) memory)
  magic_ofMemory : ∀ mem, F.magic (F.ofMemory mem) = loadVector mem 0 3
  covered_congr : ∀ mem mem', (∀ a < F.hashEnd mem, mem a = mem' a) →
    F.covered (F.ofMemory mem) = F.covered (F.ofMemory mem')
  accepted_covered : ∀ m, F.accepted sha256 (F.covered m) = F.accepted sha256 m

/-- The reaction checks the magic bytes and the hash, and then looks only at
what the hash covers. -/
structure Checks (ignored refused : γ) (reaction : M → γ) : Prop where
  ignores : ∀ m, F.magic m ≠ magicBytes → reaction m = ignored
  refuses : ∀ m, F.magic m = magicBytes → F.accepted sha256 m = false → reaction m = refused
  covers : ∀ m m', F.covered m = F.covered m' → reaction m = reaction m'

variable {F sha256} {ignored refused : γ} {reaction : M → γ} {d : Datagram F.size}
  {buffer memory mem mem' : Memory UInt8} {bufferSize : ℕ}

/-- The memory begins with the datagram. -/
def Begins (mem : Memory UInt8) (d : Datagram F.size) : Prop :=
  load mem 0 d.bytes.length = d.bytes

theorem Begins.eq_of_lt (h : Begins mem d) (h' : Begins mem' d) {a : ℕ}
    (ha : a < d.bytes.length) : mem a = mem' a := by
  have hload : load mem 0 d.bytes.length = load mem' 0 d.bytes.length := h.trans h'.symm
  have hget := congrArg (fun cells ↦ cells[a]?) hload
  simpa [load, ha] using hget

theorem begins_copy_store : Begins (copy F.size (store buffer 0 d.bytes) memory) d := by
  have hfits := d.fits
  refine Eq.trans (load_congr fun a _ ha ↦ copy_of_lt ?_) (load_store rfl)
  omega

theorem begins_store : Begins (F := F) (store buffer 0 d.bytes) d := load_store rfl

theorem accepted_eq_false (hrejected : ¬F.BeginsAccepted sha256 d) (h : Begins mem d) :
    F.accepted sha256 (F.ofMemory mem) = false :=
  Bool.eq_false_iff.mpr fun haccepted ↦ hrejected ⟨mem, h, haccepted⟩

/-- The datagram is a message by itself, or it is none whatever follows. -/
def Decided (sha256 : Sha256) (d : Datagram F.size) : Prop :=
  F.Complete d ∨ ¬F.BeginsAccepted sha256 d ∧
    (3 ≤ d.bytes.length ∨ ¬d.bytes <+: magicBytes.toList)

namespace Lawful

variable (L : F.Lawful sha256)

include L

theorem begins_received (buffer memory : Memory UInt8) (d : Datagram F.size) :
    ∃ mem, Begins mem d ∧ F.received buffer memory d.bytes = F.ofMemory mem :=
  ⟨_, begins_copy_store, L.received_eq _ _ _ d.fits⟩

/-- A full datagram can leave every struct behind. -/
theorem exists_leftOver (hbuffer : F.size ≤ bufferSize) (h : Begins mem d)
    (hmem : ∀ a, F.size ≤ a → mem a = memory a) : ∃ earlier : List (Datagram bufferSize),
    ∀ initial, F.received (leftOver initial earlier) memory d.bytes = F.ofMemory mem := by
  have hsize := L.le_size
  have hfits := d.fits
  let full : Datagram bufferSize :=
    ⟨load mem 0 F.size, by simp [load]; omega, by simpa using hbuffer⟩
  refine ⟨[full], fun initial ↦ ?_⟩
  rw [L.received_eq _ _ _ d.fits]
  congr 1
  funext a
  by_cases ha : a < F.size
  · rw [copy_of_lt ha]
    by_cases hbytes : a < d.bytes.length
    · exact begins_store.eq_of_lt h hbytes
    · rw [store_of_le (by omega)]
      have hfull : store initial 0 (load mem 0 F.size) a = store mem 0 (load mem 0 F.size) a :=
        store_eq_of_lt (by simpa using ha)
      rw [store_load] at hfull
      exact hfull
  · rw [copy, if_neg ha, hmem a (by omega)]

/-- The bytes that the hash of a complete datagram covers are its own. -/
theorem covered_eq (hcomplete : F.Complete d) (h : Begins mem d) (h' : Begins mem' d) :
    F.covered (F.ofMemory mem) = F.covered (F.ofMemory mem') := by
  have hzero : ∀ {mem}, Begins mem d → F.covered (F.ofMemory (store (fun _ ↦ 0) 0 d.bytes)) =
      F.covered (F.ofMemory mem) := fun h ↦
    L.covered_congr _ _ fun a ha ↦ begins_store.eq_of_lt h (ha.trans_le hcomplete)
  exact (hzero h).symm.trans (hzero h')

theorem accepted_congr {m m' : M} (h : F.covered m = F.covered m') :
    F.accepted sha256 m = F.accepted sha256 m' := by
  rw [← L.accepted_covered m, h, L.accepted_covered m']

theorem used_congr {m m' : M} (h : F.covered m = F.covered m') :
    F.used sha256 m = F.used sha256 m' := by
  rw [used, used, L.accepted_congr h, h]

/-- Two memories that begin with the datagram have the same magic bytes, or
neither has the right ones. -/
theorem magic_iff (hmagic : 3 ≤ d.bytes.length ∨ ¬d.bytes <+: magicBytes.toList)
    (h : Begins mem d) (h' : Begins mem' d) :
    F.magic (F.ofMemory mem) = magicBytes ↔ F.magic (F.ofMemory mem') = magicBytes := by
  rw [L.magic_ofMemory, L.magic_ofMemory]
  by_cases hlen : 3 ≤ d.bytes.length
  · rw [loadVector_congr fun a _ ha ↦ h.eq_of_lt h' (by omega)]
  · have hprefix := hmagic.resolve_left hlen
    have hnot : ∀ {mem}, Begins mem d → loadVector mem 0 3 ≠ magicBytes := by
      intro mem h heq
      have htake : (load mem 0 3).take d.bytes.length = d.bytes := by
        rw [take_load, Nat.min_eq_left (by omega), h]
      rw [← heq, toList_loadVector, ← htake] at hprefix
      exact hprefix (List.take_prefix _ _)
    exact iff_of_false (hnot h) (hnot h')

theorem not_beginsAccepted (hbuffer : F.size ≤ bufferSize)
    (hdepends : F.OnDatagramOnly sha256 bufferSize reaction d) (hcomplete : ¬F.Complete d) :
    ¬F.BeginsAccepted sha256 d := by
  rintro ⟨mem, h, haccepted⟩
  obtain ⟨earlier, hleft⟩ := L.exists_leftOver hbuffer h fun _ _ ↦ rfl
  refine hcomplete (hdepends.complete mem mem earlier ?_)
  rwa [hleft mem]

/-- Only a complete datagram is accepted, or none that goes on from this one. -/
theorem onDatagramOnly_of_decided (hchecks : F.Checks sha256 ignored refused reaction)
    (hdecided : F.Complete d ∨ ¬F.BeginsAccepted sha256 d ∧
      (ignored = refused ∨ 3 ≤ d.bytes.length ∨ ¬d.bytes <+: magicBytes.toList)) :
    F.OnDatagramOnly sha256 bufferSize reaction d := by
  refine ⟨fun memory initial earlier earlier' ↦ ?_, fun memory initial earlier haccepted ↦ ?_⟩
  · obtain ⟨mem, h, hmem⟩ := L.begins_received (leftOver initial earlier) memory d
    obtain ⟨mem', h', hmem'⟩ := L.begins_received (leftOver initial earlier') memory d
    rw [hmem, hmem']
    rcases hdecided with hcomplete | ⟨hrejected, hmagic⟩
    · have hcovered := L.covered_eq hcomplete h h'
      exact ⟨hchecks.covers _ _ hcovered, L.used_congr hcovered⟩
    have hrej := accepted_eq_false hrejected h
    have hrej' := accepted_eq_false hrejected h'
    refine ⟨?_, by simp [used, hrej, hrej']⟩
    have hreacts : ∀ m, F.accepted sha256 m = false →
        reaction m = if F.magic m = magicBytes then refused else ignored := by
      intro m hm
      split_ifs with hmagic
      · exact hchecks.refuses m hmagic hm
      · exact hchecks.ignores m hmagic
    rw [hreacts _ hrej, hreacts _ hrej']
    rcases hmagic with rfl | hmagic
    · rw [ite_self, ite_self]
    · simp only [L.magic_iff hmagic h h']
  · rcases hdecided with hcomplete | ⟨hrejected, -⟩
    · exact hcomplete
    · obtain ⟨mem, h, hmem⟩ := L.begins_received (leftOver initial earlier) memory d
      rw [hmem, accepted_eq_false hrejected h] at haccepted
      exact absurd haccepted (by simp)

/-- A short datagram that begins like the magic bytes is ignored or refused,
depending on what follows in the buffer. -/
theorem magic_decided (hbuffer : F.size ≤ bufferSize) (hne : ignored ≠ refused)
    (hchecks : F.Checks sha256 ignored refused reaction)
    (hdepends : F.OnDatagramOnly sha256 bufferSize reaction d)
    (hrejected : ¬F.BeginsAccepted sha256 d) :
    3 ≤ d.bytes.length ∨ ¬d.bytes <+: magicBytes.toList := by
  by_contra hshort
  obtain ⟨hlen, hprefix⟩ := not_or.mp hshort
  have hsize := L.le_size
  have hmagic : Begins (store (fun _ ↦ 0) 0 magicBytes.toList) d := by
    have htake := List.prefix_iff_eq_take.mp (not_not.mp hprefix)
    have hall : load (store (fun _ ↦ 0) 0 magicBytes.toList) 0 3 = magicBytes.toList :=
      load_store rfl
    rw [← hall, take_load, Nat.min_eq_left (by omega)] at htake
    exact htake.symm
  have hzero : Begins (store (fun _ ↦ 0) 0 d.bytes) d := begins_store
  have hleave {cells : List UInt8} (hlen : cells.length ≤ F.size)
      (h : Begins (store (fun _ ↦ 0) 0 cells) d) : ∃ earlier : List (Datagram bufferSize),
      ∀ initial, F.received (leftOver initial earlier) (fun _ ↦ 0) d.bytes =
        F.ofMemory (store (fun _ ↦ 0) 0 cells) :=
    L.exists_leftOver hbuffer h fun a ha ↦ store_of_le (by simpa using hlen.trans ha)
  obtain ⟨earlier, hleft⟩ := hleave (by simpa using hsize) hmagic
  obtain ⟨earlier', hleft'⟩ := hleave d.fits hzero
  have hsame := (hdepends.same (fun _ ↦ 0) (fun _ ↦ 0) earlier earlier').1
  rw [hleft, hleft'] at hsame
  rw [hchecks.refuses _ ?_ (accepted_eq_false hrejected hmagic), hchecks.ignores] at hsame
  · exact hne hsame.symm
  · rw [L.magic_ofMemory]
    intro hzeros
    have hget := congrArg (fun v ↦ v.toList[2]?) hzeros
    have hend : 0 + d.bytes.length ≤ 2 := by omega
    simp [toList_loadVector, load, store_of_le hend, magicBytes] at hget
  · rw [L.magic_ofMemory]
    exact loadVector_eq (load_store rfl)

theorem onDatagramOnly_iff_decided (hbuffer : F.size ≤ bufferSize) (hne : ignored ≠ refused)
    (hchecks : F.Checks sha256 ignored refused reaction) :
    F.OnDatagramOnly sha256 bufferSize reaction d ↔ F.Decided sha256 d := by
  refine ⟨fun hdepends ↦ ?_, fun hdecided ↦ L.onDatagramOnly_of_decided hchecks ?_⟩
  · apply or_iff_not_imp_left.mpr
    intro hcomplete
    have hrejected := L.not_beginsAccepted hbuffer hdepends hcomplete
    exact ⟨hrejected, L.magic_decided hbuffer hne hchecks hdepends hrejected⟩
  · exact hdecided.imp_right fun h ↦ ⟨h.1, .inr h.2⟩

end Lawful

end Format

theorem infoFormat_lawful (sha256 : Sha256) : infoFormat.Lawful sha256 where
  le_size := by
    change 3 ≤ sizeofUpdatePingInfo
    rw [sizeofUpdatePingInfo_eq]
    omega
  received_eq buffer memory bytes hfits := by
    have htake : bytes.take sizeofUpdatePingInfo = bytes := List.take_of_length_le hfits
    change UpdatePingInfo.received buffer memory bytes = _
    rw [UpdatePingInfo.received, htake]
    rfl
  magic_ofMemory _ := rfl
  covered_congr _ _ h := UpdatePingInfo.covered_ofMemory_congr h
  accepted_covered m := by
    change m.covered.accepted sha256 = m.accepted sha256
    rw [UpdatePingInfo.accepted, UpdatePingInfo.accepted, calculateUpdatePingInfoHash,
      m.hashed_covered]
    rfl

theorem ackFormat_lawful (sha256 : Sha256) : ackFormat.Lawful sha256 where
  le_size := by
    change 3 ≤ sizeofUpdatePingAck
    rw [sizeofUpdatePingAck_eq]
    omega
  received_eq buffer memory bytes hfits := by
    have hresponse : bytes.length ≤ responseSize := hfits.trans (by decide)
    change UpdatePingAck.received buffer memory bytes = _
    rw [UpdatePingAck.received, List.take_of_length_le hresponse]
    rfl
  magic_ofMemory _ := rfl
  covered_congr _ _ h := UpdatePingAck.covered_ofMemory_congr h
  accepted_covered m := by
    change m.covered.accepted sha256 = m.accepted sha256
    rw [UpdatePingAck.accepted, UpdatePingAck.accepted, calculateUpdatePingAckHash,
      m.hashed_covered]
    rfl

/-! ## The three receivers -/

/-- `p_anker_udp_broadcast_task` with one datagram. -/
def udpReaction (sha256 : Sha256) (own : Anker) (m : UpdatePingInfo) (r : LibResults)
    (t : PAnkerTask) : PAnkerTask × List UpdatePingAck := t.receive sha256 own r m

theorem PAnkerTask.receive_covered (sha256 : Sha256) (own : Anker) (r : LibResults)
    (m : UpdatePingInfo) (t : PAnkerTask) :
    t.receive sha256 own r m.covered = t.receive sha256 own r m := by
  rw [receive, firmwareData, storeChunk, calculateUpdatePingInfoHash]
  rw [m.hashed_covered, m.payload_covered]
  rfl

theorem tcpRequest_covered (sha256 : Sha256) (own : Anker) (m : UpdatePingInfo) :
    tcpRequest sha256 own m.covered = tcpRequest sha256 own m := by
  rw [tcpRequest, calculateUpdatePingInfoHash]
  rw [m.hashed_covered]
  rfl

theorem cString_take_zero (xs ys : List UInt8) (n : ℕ) :
    cString ((xs ++ 0 :: ys).take n) = cString (xs.take n) := by
  rw [List.take_append]
  cases n - xs.length with
  | zero => rw [List.take_zero, List.append_nil]
  | succ k =>
      rw [List.take_succ_cons, cString, cString, List.takeWhile_append]
      split_ifs with h
      · rw [(List.takeWhile_prefix _).eq_of_length h]
        simp
      · rfl

/-- `strncmp` reads no byte of the version that the hash does not cover. -/
theorem UpdatePingAck.sameVersion_covered (own : Anker) (m : UpdatePingAck) :
    m.covered.sameVersion own = m.sameVersion own := by
  unfold sameVersion strncmpEq terminatedVersion
  by_cases hlen : m.versionLen.toNat < maxVersionSize
  · have hlen' : m.covered.versionLen.toNat < maxVersionSize := hlen
    rw [if_pos hlen, if_pos hlen', cString_take_zero, cString_take_zero]
    simp only [covered, List.take_take, min_self]
  · have hlen' : ¬m.covered.versionLen.toNat < maxVersionSize := hlen
    rw [if_neg hlen, if_neg hlen']
    simp [covered, List.take_take, Nat.min_eq_left (not_lt.mp hlen)]

theorem ackVerdict_covered (sha256 : Sha256) (own : Anker) (type : UpdatePingType) (seq : UInt16)
    (ip : UInt32) (m : UpdatePingAck) :
    ackVerdict sha256 own type seq ⟨ip, m.covered⟩ = ackVerdict sha256 own type seq ⟨ip, m⟩ := by
  unfold ackVerdict typeVerdict UpdatePingAck.accepted calculateUpdatePingAckHash
  rw [m.hashed_covered, m.sameVersion_covered]
  rfl

theorem UpdatePingInfo.hash_ne_of_rejected {sha256 : Sha256} {m : UpdatePingInfo}
    (hmagic : m.magic = magicBytes) (hrejected : m.accepted sha256 = false) :
    calculateUpdatePingInfoHash sha256 m ≠ m.hash := by
  simpa [UpdatePingInfo.accepted, hmagic] using hrejected

theorem udpReaction_checks (sha256 : Sha256) (own : Anker) :
    infoFormat.Checks sha256 (fun _ t ↦ (t, []))
      (fun _ t ↦ (t, if t.phase = .running then [ackInfo sha256 own .hashError 0] else []))
      (udpReaction sha256 own) where
  ignores m hmagic := by
    have hmagic : m.magic ≠ magicBytes := hmagic
    funext r t
    simp only [udpReaction, PAnkerTask.receive, if_pos hmagic, ite_self]
  refuses m hmagic hrejected := by
    have hmagic : m.magic = magicBytes := hmagic
    have hhash := UpdatePingInfo.hash_ne_of_rejected hmagic hrejected
    funext r t
    by_cases hphase : t.phase = .running
    · simp [udpReaction, PAnkerTask.receive, hphase, hmagic, hhash]
    · simp [udpReaction, PAnkerTask.receive, hphase]
  covers m m' h := by
    funext r t
    have hm : m.covered = m'.covered := h
    rw [udpReaction, ← PAnkerTask.receive_covered, hm, PAnkerTask.receive_covered]
    rfl

theorem tcpRequest_checks (sha256 : Sha256) (own : Anker) :
    infoFormat.Checks sha256 ([], none) ([ackInfo sha256 own .hashError 0], none)
      (tcpRequest sha256 own) where
  ignores m hmagic := if_pos hmagic
  refuses m hmagic hrejected := by
    have hmagic : m.magic = magicBytes := hmagic
    have hhash := UpdatePingInfo.hash_ne_of_rejected hmagic hrejected
    rw [tcpRequest, if_neg (not_not.mpr hmagic), if_pos hhash]
  covers m m' h := by
    have hm : m.covered = m'.covered := h
    rw [← tcpRequest_covered, hm, tcpRequest_covered]

theorem ackReaction_checks (sha256 : Sha256) (own : Anker) (type : UpdatePingType) (seq : UInt16) :
    ackFormat.Checks sha256 (fun _ _ ↦ .skip) (fun _ _ ↦ .skip)
      (ackReaction sha256 own type seq) where
  ignores m hmagic := by
    have hmagic : m.magic ≠ magicBytes := hmagic
    have hrejected : m.accepted sha256 = false := by simp [UpdatePingAck.accepted, hmagic]
    funext ip acc
    simp [ackReaction, ackVerdict, hrejected]
  refuses m _ hrejected := by
    have hrejected : m.accepted sha256 = false := hrejected
    funext ip acc
    simp [ackReaction, ackVerdict, hrejected]
  covers m m' h := by
    funext ip acc
    have hm : m.covered = m'.covered := h
    have hserial : m.serial = m'.serial := by
      change m.covered.serial = m'.covered.serial
      rw [hm]
    rw [ackReaction, hserial, ← ackVerdict_covered, hm, ackVerdict_covered]
    rfl

/-- The two receivers of `update_ping_info_t` react to a datagram only if it
is decided, and the receiver of acks if it is complete or belongs to no
accepted ack. -/
theorem onDatagramOnly_iff (sha256 : Sha256) (own : Anker) :
    (∀ d : Datagram sizeofUpdatePingInfo,
      infoFormat.OnDatagramOnly sha256 sizeofUpdatePingInfo (udpReaction sha256 own) d ↔
        infoFormat.Decided sha256 d) ∧
    (∀ d : Datagram sizeofUpdatePingInfo,
      infoFormat.OnDatagramOnly sha256 sizeofUpdatePingInfo (tcpRequest sha256 own) d ↔
        infoFormat.Decided sha256 d) ∧
    ∀ (type : UpdatePingType) (seq : UInt16) (d : Datagram sizeofUpdatePingAck),
      ackFormat.OnDatagramOnly sha256 responseSize (ackReaction sha256 own type seq) d ↔
        ackFormat.Complete d ∨ ¬ackFormat.BeginsAccepted sha256 d := by
  refine ⟨fun d ↦ ?_, fun d ↦ ?_, fun type seq d ↦ ?_⟩
  · refine (infoFormat_lawful sha256).onDatagramOnly_iff_decided le_rfl ?_
      (udpReaction_checks sha256 own)
    intro h
    have hstart := congrFun (congrFun h PAnkerTask.LibResults.allOk) .start
    simp [PAnkerTask.start] at hstart
  · exact (infoFormat_lawful sha256).onDatagramOnly_iff_decided le_rfl (by simp)
      (tcpRequest_checks sha256 own)
  · refine ⟨fun hdepends ↦ or_iff_not_imp_left.mpr fun hcomplete ↦ ?_, fun h ↦ ?_⟩
    · exact (ackFormat_lawful sha256).not_beginsAccepted (by decide) hdepends hcomplete
    · exact (ackFormat_lawful sha256).onDatagramOnly_of_decided
        (ackReaction_checks sha256 own type seq) (h.imp_right fun h ↦ ⟨h, .inl rfl⟩)

/-- A request for the version, as `headHash` accepts it. -/
def versionRequest : Datagram sizeofUpdatePingInfo where
  bytes := magicBytes.toList ++ List.replicate 49 0
  nonempty := by decide
  fits := by decide

def hashErrorAck : Datagram responseSize where
  bytes := magicBytes.toList ++ List.replicate 46 0
  nonempty := by decide
  fits := by decide

/-- The first of the magic bytes alone. -/
def firstByte {size : ℕ} (hsize : 1 ≤ size) : Datagram size := ⟨[0x41], by decide, hsize⟩

theorem not_onDatagramOnly_firstByte :
    let own : Anker := ⟨Vector.replicate serialSize 1, [50, 46, 48, 0]⟩
    ¬infoFormat.OnDatagramOnly headHash sizeofUpdatePingInfo (udpReaction headHash own)
      (firstByte (by decide)) ∧
    ¬infoFormat.OnDatagramOnly headHash sizeofUpdatePingInfo (tcpRequest headHash own)
      (firstByte (by decide)) ∧
    ¬ackFormat.OnDatagramOnly headHash responseSize (ackReaction headHash own .getVersion 0)
      (firstByte (by decide)) := by
  intro own
  refine ⟨fun h ↦ ?_, fun h ↦ ?_, fun h ↦ ?_⟩
  · have hcomplete := h.complete (fun _ ↦ 0) (fun _ ↦ 0) [versionRequest] (by decide)
    exact absurd hcomplete (by unfold Format.Complete; decide)
  · have hcomplete := h.complete (fun _ ↦ 0) (fun _ ↦ 0) [versionRequest] (by decide)
    exact absurd hcomplete (by unfold Format.Complete; decide)
  · have hcomplete := h.complete (fun _ ↦ 0) (fun _ ↦ 0) [hashErrorAck] (by decide)
    exact absurd hcomplete (by unfold Format.Complete; decide)

end AnkerUpdater
