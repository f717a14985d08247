import AnkerUpdater.Protocol.Counts
import AnkerUpdater.Protocol.Handshake
import AnkerUpdater.Protocol.Provenance

/-!
# A P-Anker that is marked has obeyed

The C-Anker marks a P-Anker as acknowledged only if the P-Anker has obeyed
its request.  Messages may get lost and struct members may be left over, as
long as no message is cut within its head.
-/

namespace AnkerUpdater

open ByteMemory Runs

namespace DirectCall

variable {D : DirectCall} {s : Handshake} {m : UpdatePingInfo}

/-- A request of the C-Anker that the TCP task obeys. -/
structure Obeyed (D : DirectCall) (log : List LifeEvent) (m : UpdatePingInfo) : Prop where
  serial : m.serial = D.cAnker.serial
  accepted : m.accepted D.sha256 = true
  logged : .requested m ∈ log

/-- No message is cut before the end of its serial, and an ack is not read in
parts. -/
def KeepsHeads (s : Handshake) : HandshakeAction → Prop
  | .send (some n) => headSize ≤ n
  | .recv taken => taken = 0 ∨ s.toCAnker.length ≤ taken
  | .serve v => (v.taken = 0 ∨ headSize ≤ v.taken) ∧ (v.ackSent = 0 ∨ headSize ≤ v.ackSent)
  | _ => True

/-- What is sent of one ack, and what an AP_JOIN stands for. -/
structure Answer (D : DirectCall) (bytes : List UInt8) (obeyed : Option UpdatePingInfo)
    (type : AckType) (memory : Memory UInt8) : Prop where
  sent : bytes <+: sendAck D.sha256 D.pAnker type 0 memory
  head : headSize ≤ bytes.length
  noVersion : ackVersion D.pAnker type = []
  obeyed : type = .apJoin → obeyed.isSome

structure Inv (D : DirectCall) (s : Handshake) : Prop where
  request : s.toPAnker = [] ∨ D.request.take headSize <+: s.toPAnker
  answer : s.toCAnker = [] ∨ ∃ type memory, Answer D s.toCAnker s.obeyed type memory
  fresh : s.phase = .connecting ∨ s.isOpen = true → s.toCAnker = []
  connected : s.isOpen = true → s.phase ≠ .connecting
  obeyed : ∀ m, s.obeyed = some m → Obeyed D s.pAnker.log m
  ok : s.phase = .returned .ok → s.obeyed.isSome

theorem inv_start (pAnker : PAnkerDevice) (ackInfo : Memory UInt8) :
    Inv D (start pAnker ackInfo) where
  request := .inl rfl
  answer := .inl rfl
  fresh _ := rfl
  connected h := absurd h (by simp [start])
  obeyed m h := absurd h (by simp [start])
  ok h := absurd h (by simp [start])

theorem Inv.enter (h : Inv D s) (phase : DirectPhase) (turn : ℕ) (hne : phase ≠ .connecting)
    (hok : phase = .returned .ok → s.obeyed.isSome) :
    Inv D { s with phase := phase, turn := turn } where
  request := h.request
  answer := h.answer
  fresh hopen := h.fresh (.inr (hopen.resolve_left hne))
  connected _ := hne
  obeyed := h.obeyed
  ok := hok

theorem Inv.retry (h : Inv D s) : Inv D (DirectCall.retry s) := by
  rw [DirectCall.retry]
  split_ifs
  · exact h.enter (.returned .error) _ (by simp) (by simp)
  · exact h.enter .sending _ (by simp) (by simp)

/-- A move of the P-Anker only adds to its log. -/
theorem Inv.moves (h : Inv D s) (v : Move) : Inv D (D.moves s v) where
  request := h.request
  answer := h.answer
  fresh hopen := h.fresh (hopen.imp_right fun hopen ↦ (Bool.and_eq_true_iff.mp hopen).1)
  connected hopen := h.connected (Bool.and_eq_true_iff.mp hopen).1
  obeyed m hm := ⟨(h.obeyed m hm).serial, (h.obeyed m hm).accepted,
    List.mem_append_left _ (h.obeyed m hm).logged⟩
  ok := h.ok

theorem afterRecv_nil : D.afterRecv s [] = DirectCall.retry s := by
  have hstore : store s.ackInfo 0 [] = s.ackInfo := store_load (n := 0)
  rw [DirectCall.afterRecv, if_pos rfl, List.length_nil, List.drop_zero, hstore]

/-- Everything that is sent of an ack is read at once, or nothing. -/
theorem Inv.afterRecv (h : Inv D s) {taken : ℕ} (hphase : s.phase = .receiving)
    (htaken : taken = 0 ∨ s.toCAnker.length ≤ taken) :
    Inv D (D.afterRecv s (s.toCAnker.take (min taken sizeofUpdatePingAck))) := by
  have hnothing : s.toCAnker.take (min taken sizeofUpdatePingAck) = [] →
      Inv D (D.afterRecv s (s.toCAnker.take (min taken sizeofUpdatePingAck))) := by
    intro hempty
    rw [hempty, afterRecv_nil]
    exact h.retry
  rcases h.answer with hempty | ⟨type, memory, ha⟩
  · exact hnothing (by rw [hempty, List.take_nil])
  rcases htaken with rfl | htaken
  · exact hnothing (by rw [Nat.zero_min, List.take_zero])
  have hlen : s.toCAnker.length ≤ sizeofUpdatePingAck := by
    have hle := ha.sent.length_le
    rw [length_sendAck ha.noVersion] at hle
    rw [sizeofUpdatePingAck_eq]
    omega
  have hhead := ha.head
  have hne : s.toCAnker ≠ [] := by
    intro hempty
    simp [hempty, headSize] at hhead
  rw [List.take_of_length_le (le_min htaken hlen), DirectCall.afterRecv, if_neg hne]
  have hread : Inv D { s with
      ackInfo := store s.ackInfo 0 s.toCAnker
      toCAnker := s.toCAnker.drop s.toCAnker.length
      heard := true } :=
    ⟨h.request, .inl List.drop_length, fun _ ↦ List.drop_length, h.connected, h.obeyed,
      fun hok ↦ absurd hok (by simp [hphase])⟩
  dsimp only
  split_ifs with hjoins
  · refine hread.enter (.returned .ok) s.turn (by simp) fun _ ↦ ha.obeyed ?_
    have htype : (UpdatePingAck.ofMemory (store s.ackInfo 0 s.toCAnker)).type = _ :=
      type_of_head ha.head ha.sent
    simp only [UpdatePingAck.joins, Bool.and_eq_true, decide_eq_true_eq] at hjoins
    exact AckType.code_injective (htype.symm.trans hjoins.2)
  · exact hread.retry

theorem length_request : D.request.length = sizeofUpdatePingInfo := length_directRequest

theorem take_request (v : Serving) (h : s.toPAnker = [] ∨ D.request.take headSize <+: s.toPAnker)
    (htaken : v.taken = 0 ∨ headSize ≤ v.taken)
    (hne : s.toPAnker.take (min v.taken sizeofUpdatePingInfo) ≠ []) :
    (s.toPAnker.take (min v.taken sizeofUpdatePingInfo)).take headSize =
      D.request.take headSize := by
  have hlen : (D.request.take headSize).length = headSize := by
    rw [List.length_take, length_request]
    rfl
  have hpre := h.resolve_left fun hempty ↦ hne (by rw [hempty, List.take_nil])
  have htaken : headSize ≤ v.taken := htaken.resolve_left fun hzero ↦ hne (by simp [hzero])
  have hsize : headSize ≤ sizeofUpdatePingInfo := by decide
  rw [List.take_take, Nat.min_eq_left (le_min htaken hsize)]
  have heq := List.prefix_iff_eq_take.mp hpre
  rw [hlen] at heq
  exact heq.symm

/-- What the TCP task answers to a request that it reads. -/
theorem answerBytes_cases (v : Serving) (m : UpdatePingInfo) :
    D.answerBytes v m = [] ∨ ∃ type, (type = .hashError ∨ type = .apJoin ∧
      m.accepted D.sha256 = true ∧ m.type = UpdatePingType.connectToAp.code) ∧
      D.answerBytes v m = (sendAck D.sha256 D.pAnker type 0 v.ackMemory).take v.ackSent := by
  rw [answerBytes, tcpAnswers]
  split_ifs with hmagic hhash htype
  · exact .inl rfl
  · exact .inr ⟨.hashError, .inl rfl, List.flatMap_singleton _ _⟩
  · refine .inr ⟨.apJoin, .inr ⟨rfl, ?_, htype⟩, List.flatMap_singleton _ _⟩
    simp [UpdatePingInfo.accepted, not_not.mp hmagic, not_not.mp hhash]
  · exact .inl rfl

theorem tcpAnswers_of_accepted {sha256 : Sha256} (haccepted : m.accepted sha256 = true)
    (htype : m.type = UpdatePingType.connectToAp.code) : tcpAnswers sha256 m = [.apJoin] := by
  simp only [UpdatePingInfo.accepted, Bool.and_eq_true, decide_eq_true_eq] at haccepted
  rw [tcpAnswers, if_neg (not_not.mpr haccepted.1), if_neg (not_not.mpr haccepted.2), if_pos htype]

theorem requested_mem_log (v : Serving) (h : s.pAnker.Obeys D.sha256 v.id m) :
    .requested m ∈ (s.pAnker.step D.sha256 D.pAnker (servedMove v m)).log := by
  refine List.mem_append_right _ (List.mem_append_left _ ?_)
  have haction : (servedMove v m).action = .request v.id m v.padding v.write := by
    rw [servedMove]
    split <;> rfl
  rw [haction, PAnkerDevice.events, if_pos h]
  exact List.mem_singleton_self _

theorem Inv.served (h : Inv D s) (v : Serving) (hopen : s.isOpen = true)
    (hlistens : s.pAnker.Listens v.id .tcp)
    (hgood : (v.taken = 0 ∨ headSize ≤ v.taken) ∧ (v.ackSent = 0 ∨ headSize ≤ v.ackSent))
    (hne : s.toPAnker.take (min v.taken sizeofUpdatePingInfo) ≠ []) :
    Inv D (D.served s v (s.toPAnker.take (min v.taken sizeofUpdatePingInfo))) := by
  have hserial : (UpdatePingInfo.received v.request v.updateInfo
      (s.toPAnker.take (min v.taken sizeofUpdatePingInfo))).serial = D.cAnker.serial :=
    serial_of_head ((List.length_take_le _ _).trans (Nat.min_le_right _ _))
      (take_request v h.request hgood.1 hne)
  rw [DirectCall.served]
  generalize UpdatePingInfo.received v.request v.updateInfo
    (s.toPAnker.take (min v.taken sizeofUpdatePingInfo)) = m at hserial ⊢
  have hmoves := h.moves (servedMove v m)
  have hphase : s.phase ≠ .connecting := h.connected hopen
  have hobeys : m.accepted D.sha256 = true → m.type = UpdatePingType.connectToAp.code →
      s.pAnker.Obeys D.sha256 v.id m := fun haccepted htype ↦ ⟨hlistens, haccepted, htype⟩
  refine ⟨.inl rfl, ?_, ?_, ?_, ?_, ?_⟩
  · -- the ack, if one is sent
    dsimp only [DirectCall.moves]
    rw [h.fresh (.inr hopen), List.nil_append]
    rcases answerBytes_cases v m with hnone | ⟨type, htype, hbytes⟩
    · exact .inl hnone
    rw [hbytes]
    rcases hgood.2 with hzero | hsent
    · exact .inl (by rw [hzero, List.take_zero])
    have hversion : ackVersion D.pAnker type = [] := by
      rcases htype with rfl | ⟨rfl, -⟩ <;> simp [ackVersion]
    refine .inr ⟨type, v.ackMemory, List.take_prefix _ _, ?_, hversion, ?_⟩
    · rw [List.length_take, length_sendAck hversion]
      exact le_min hsent (by decide)
    · rintro rfl
      obtain ⟨-, haccepted, hconnect⟩ := htype.resolve_left (by simp)
      rw [if_pos (hobeys haccepted hconnect), Option.isSome_some]
  · rintro (hconnecting | hopen')
    · exact absurd hconnecting hphase
    · exact absurd hopen' (by simp)
  · exact fun hopen' ↦ absurd hopen' (by simp)
  · intro m' hm'
    dsimp only at hm'
    split_ifs at hm' with hdoes
    · obtain rfl := Option.some.inj hm'
      exact ⟨hserial, hdoes.2.1, requested_mem_log v hdoes⟩
    · exact hmoves.obeyed m' hm'
  · intro hok
    dsimp only
    split_ifs
    · exact Option.isSome_some
    · exact h.ok hok

theorem Inv.step (h : Inv D s) (a : HandshakeAction) (hgood : KeepsHeads s a) :
    Inv D (D.step s a) := by
  cases a with
  | connect ok =>
      rw [DirectCall.step]
      split_ifs with hphase hok
      · exact h
      · have hempty := h.fresh (.inl (not_not.mp hphase))
        exact ⟨h.request, h.answer, fun _ ↦ hempty, by simp, h.obeyed, by simp⟩
      · exact h.enter (.returned .error) s.turn (by simp) (by simp)
  | send sent =>
      cases sent with
      | none =>
          rw [DirectCall.step]
          split_ifs with hphase
          · exact h
          · exact h.enter (.returned .error) s.turn (by simp) (by simp)
      | some n =>
          rw [DirectCall.step]
          by_cases hphase : s.phase ≠ .sending
          · rw [if_pos hphase]
            exact h
          rw [if_neg hphase]
          have hreceiving := h.enter .receiving s.turn (by simp) (by simp)
          refine ⟨?_, hreceiving.answer, hreceiving.fresh, hreceiving.connected, hreceiving.obeyed,
            hreceiving.ok⟩
          dsimp only
          split_ifs
          · rcases h.request with hempty | hpre
            · rw [hempty, List.nil_append]
              exact .inr (List.take_prefix_take_left hgood)
            · exact .inr (hpre.trans (List.prefix_append _ _))
          · exact h.request
  | recv taken =>
      rw [DirectCall.step]
      split_ifs with hphase
      · exact h
      · exact h.afterRecv (not_not.mp hphase) hgood
  | serve v =>
      rw [DirectCall.step]
      split_ifs with hclosed
      · exact h
      obtain ⟨hopen, hlistens⟩ := not_or.mp hclosed
      dsimp only
      split_ifs with hempty
      · have hmoves := h.moves (.does (.taskPasses v.id true))
        exact ⟨hmoves.request, hmoves.answer,
          fun hf ↦ hmoves.fresh (.inl (hf.resolve_right (by simp))),
          by simp, hmoves.obeyed, hmoves.ok⟩
      · exact h.served v (Bool.eq_true_of_not_eq_false hopen) (not_not.mp hlistens) hgood hempty
  | device v => exact h.moves v

/-- Whatever else happens, `send_update_ping_info_direct` returns UPDATER_OK
only after the TCP task has obeyed a request of this C-Anker. -/
theorem obeyed_of_ok (pAnker : PAnkerDevice) (ackInfo : Memory UInt8)
    (actions : List HandshakeAction)
    (hheads : Always D.step KeepsHeads (start pAnker ackInfo) actions)
    (hok : (D.run pAnker ackInfo actions).phase = .returned .ok) :
    ∃ m, (D.run pAnker ackInfo actions).obeyed = some m ∧
      Obeyed D (D.run pAnker ackInfo actions).pAnker.log m := by
  have hinv := invariant (Inv D) (fun s a h hgood ↦ h.step a hgood) (inv_start pAnker ackInfo)
    hheads
  obtain ⟨m, hm⟩ := Option.isSome_iff_exists.mp (hinv.ok hok)
  exact ⟨m, hm, hinv.obeyed m hm⟩

/-! ## Whole messages -/

/-- Every message comes whole or not at all. -/
def Whole (s : Handshake) : HandshakeAction → Prop
  | .send (some n) => sizeofUpdatePingInfo ≤ n
  | .recv taken => taken = 0 ∨ s.toCAnker.length ≤ taken
  | .serve v => (v.taken = 0 ∨ sizeofUpdatePingInfo ≤ v.taken) ∧
      (v.ackSent = 0 ∨ sizeofUpdatePingAck ≤ v.ackSent)
  | _ => True

theorem Whole.keepsHeads {a : HandshakeAction} (h : Whole s a) : KeepsHeads s a := by
  have hinfo : headSize ≤ sizeofUpdatePingInfo := by decide
  have hack : headSize ≤ sizeofUpdatePingAck := by decide
  cases a with
  | connect ok => trivial
  | send sent =>
      cases sent with
      | none => trivial
      | some n => exact hinfo.trans h
  | recv taken => exact h
  | serve v => exact ⟨h.1.imp_right hinfo.trans, h.2.imp_right hack.trans⟩
  | device v => trivial

structure WholeInv (D : DirectCall) (s : Handshake) : Prop extends Inv D s where
  requestWhole : s.toPAnker = [] ∨ D.request <+: s.toPAnker
  answerWhole : s.toCAnker = [] ∨
    ∃ memory, s.toCAnker = sendAck D.sha256 D.pAnker .apJoin 0 memory
  okHeard : s.phase = .returned .ok ↔ s.heard = true

theorem WholeInv.retry (h : WholeInv D s) (hphase : s.phase = .receiving) :
    WholeInv D (DirectCall.retry s) := by
  have hheard : ¬s.heard = true := fun hheard ↦ absurd (h.okHeard.mpr hheard) (by simp [hphase])
  refine ⟨h.toInv.retry, ?_, ?_, ?_⟩
  · rw [DirectCall.retry]
    split_ifs <;> exact h.requestWhole
  · rw [DirectCall.retry]
    split_ifs <;> exact h.answerWhole
  · rw [DirectCall.retry]
    split_ifs <;> simpa using hheard

theorem WholeInv.afterRecv (h : WholeInv D s) {taken : ℕ} (hphase : s.phase = .receiving)
    (htaken : taken = 0 ∨ s.toCAnker.length ≤ taken) :
    WholeInv D (D.afterRecv s (s.toCAnker.take (min taken sizeofUpdatePingAck))) := by
  have hinv := h.toInv.afterRecv hphase htaken
  by_cases hempty : s.toCAnker.take (min taken sizeofUpdatePingAck) = []
  · rw [hempty, afterRecv_nil]
    exact h.retry hphase
  have hne : s.toCAnker ≠ [] := fun hnil ↦ hempty (by rw [hnil, List.take_nil])
  have htaken : s.toCAnker.length ≤ taken :=
    htaken.resolve_left fun hzero ↦ hempty (by rw [hzero, Nat.zero_min, List.take_zero])
  obtain ⟨memory, hbytes⟩ := h.answerWhole.resolve_left hne
  have hlen : s.toCAnker.length ≤ sizeofUpdatePingAck := by
    rw [hbytes, length_sendAck (by simp [ackVersion]), sizeofUpdatePingAck_eq]
    omega
  rw [List.take_of_length_le (le_min htaken hlen)] at hinv ⊢
  have hjoins : (UpdatePingAck.ofMemory (store s.ackInfo 0 s.toCAnker)).joins D.sha256 = true := by
    rw [hbytes]
    exact joins_sendAck
  rw [DirectCall.afterRecv, if_neg hne] at hinv ⊢
  dsimp only at hinv ⊢
  rw [if_pos hjoins] at hinv ⊢
  exact ⟨hinv, h.requestWhole, .inl List.drop_length, by simp⟩

/-- A whole request is answered by AP_JOIN. -/
theorem answerBytes_request (v : Serving) :
    D.answerBytes v (UpdatePingInfo.received v.request v.updateInfo D.request) =
      (sendAck D.sha256 D.pAnker .apJoin 0 v.ackMemory).take v.ackSent := by
  obtain ⟨haccepted, htype⟩ : (UpdatePingInfo.received v.request v.updateInfo D.request).accepted
      D.sha256 = true ∧ _ := received_directRequest
  rw [answerBytes, tcpAnswers_of_accepted haccepted htype, List.flatMap_singleton]

theorem take_sendAck_apJoin {own : Anker} {sha256 : Sha256} {memory : Memory UInt8} {n : ℕ}
    (h : sizeofUpdatePingAck ≤ n) :
    (sendAck sha256 own .apJoin 0 memory).take n = sendAck sha256 own .apJoin 0 memory := by
  apply List.take_of_length_le
  rw [length_sendAck (by simp [ackVersion])]
  rw [sizeofUpdatePingAck_eq] at h
  omega

theorem WholeInv.served (h : WholeInv D s) (v : Serving) (hopen : s.isOpen = true)
    (hlistens : s.pAnker.Listens v.id .tcp)
    (hgood : (v.taken = 0 ∨ sizeofUpdatePingInfo ≤ v.taken) ∧
      (v.ackSent = 0 ∨ sizeofUpdatePingAck ≤ v.ackSent))
    (hne : s.toPAnker.take (min v.taken sizeofUpdatePingInfo) ≠ []) :
    WholeInv D (D.served s v (s.toPAnker.take (min v.taken sizeofUpdatePingInfo))) := by
  have hheads : KeepsHeads s (.serve v) := Whole.keepsHeads hgood
  have hinv := h.toInv.served v hopen hlistens hheads hne
  refine ⟨hinv, .inl rfl, ?_, h.okHeard⟩
  have htaken : sizeofUpdatePingInfo ≤ v.taken :=
    hgood.1.resolve_left fun hzero ↦ hne (by rw [hzero, Nat.zero_min, List.take_zero])
  obtain ⟨more, hmore⟩ := h.requestWhole.resolve_left fun hnil ↦ hne (by rw [hnil, List.take_nil])
  have hrequest : s.toPAnker.take (min v.taken sizeofUpdatePingInfo) = D.request := by
    rw [Nat.min_eq_right htaken, ← hmore]
    exact List.take_left' length_request
  rw [DirectCall.served, hrequest]
  dsimp only
  rw [h.fresh (.inr hopen), List.nil_append]
  rw [answerBytes_request]
  rcases hgood.2 with hzero | hsent
  · exact .inl (by rw [hzero, List.take_zero])
  · exact .inr ⟨v.ackMemory, take_sendAck_apJoin hsent⟩

theorem WholeInv.enter (h : WholeInv D s) (phase : DirectPhase) (hs : s.phase ≠ .returned .ok)
    (hconnecting : phase ≠ .connecting) (hok : phase ≠ .returned .ok) :
    WholeInv D { s with phase := phase } where
  toInv := h.toInv.enter phase s.turn hconnecting fun heq ↦ absurd heq hok
  requestWhole := h.requestWhole
  answerWhole := h.answerWhole
  okHeard := iff_of_false hok fun hheard ↦ hs (h.okHeard.mpr hheard)

theorem WholeInv.step (h : WholeInv D s) (a : HandshakeAction) (hgood : Whole s a) :
    WholeInv D (D.step s a) := by
  have hinv := h.toInv.step a hgood.keepsHeads
  cases a with
  | connect ok =>
      rw [DirectCall.step] at hinv ⊢
      split_ifs at hinv ⊢ with hphase hok
      · exact h
      · have hsending := h.enter .sending (by simp [not_not.mp hphase]) (by simp) (by simp)
        exact ⟨hinv, h.requestWhole, h.answerWhole, hsending.okHeard⟩
      · exact h.enter (.returned .error) (by simp [not_not.mp hphase]) (by simp) (by simp)
  | send sent =>
      cases sent with
      | none =>
          rw [DirectCall.step]
          split_ifs with hphase
          · exact h
          · exact h.enter (.returned .error) (by simp [not_not.mp hphase]) (by simp) (by simp)
      | some n =>
          rw [DirectCall.step] at hinv ⊢
          by_cases hphase : s.phase ≠ .sending
          · rw [if_pos hphase]
            exact h
          rw [if_neg hphase] at hinv ⊢
          have hreceiving := h.enter .receiving (by simp [not_not.mp hphase]) (by simp) (by simp)
          refine ⟨hinv, ?_, h.answerWhole, hreceiving.okHeard⟩
          dsimp only
          rw [List.take_of_length_le (length_request.le.trans hgood)]
          split_ifs
          · rcases h.requestWhole with hempty | hpre
            · rw [hempty, List.nil_append]
              exact .inr (List.prefix_refl _)
            · exact .inr (hpre.trans (List.prefix_append _ _))
          · exact h.requestWhole
  | recv taken =>
      rw [DirectCall.step]
      split_ifs with hphase
      · exact h
      · exact h.afterRecv (not_not.mp hphase) hgood
  | serve v =>
      rw [DirectCall.step] at hinv ⊢
      split_ifs at hinv ⊢ with hclosed
      · exact h
      obtain ⟨hopen, hlistens⟩ := not_or.mp hclosed
      dsimp only at hinv ⊢
      split_ifs at hinv ⊢ with hempty
      · exact ⟨hinv, h.requestWhole, h.answerWhole, h.okHeard⟩
      · exact h.served v (Bool.eq_true_of_not_eq_false hopen) (not_not.mp hlistens) hgood hempty
  | device v => exact ⟨hinv, h.requestWhole, h.answerWhole, h.okHeard⟩

theorem wholeInv_start (pAnker : PAnkerDevice) (ackInfo : Memory UInt8) :
    WholeInv D (start pAnker ackInfo) :=
  ⟨inv_start pAnker ackInfo, .inl rfl, .inl rfl, by simp [start]⟩

/-- If messages come whole, the call returns UPDATER_OK exactly if it hears
anything from the P-Anker, and then the P-Anker has obeyed. -/
theorem ok_iff_heard (pAnker : PAnkerDevice) (ackInfo : Memory UInt8)
    (actions : List HandshakeAction)
    (hwhole : Always D.step Whole (start pAnker ackInfo) actions) :
    ((D.run pAnker ackInfo actions).phase = .returned .ok ↔
      (D.run pAnker ackInfo actions).heard = true) ∧
    ((D.run pAnker ackInfo actions).heard = true → ∃ m,
      (D.run pAnker ackInfo actions).obeyed = some m ∧
        Obeyed D (D.run pAnker ackInfo actions).pAnker.log m) := by
  have hinv := invariant (WholeInv D) (fun s a h hgood ↦ h.step a hgood)
    (wholeInv_start pAnker ackInfo) hwhole
  refine ⟨hinv.okHeard, fun hheard ↦ ?_⟩
  obtain ⟨m, hm⟩ := Option.isSome_iff_exists.mp (hinv.ok (hinv.okHeard.mpr hheard))
  exact ⟨m, hm, hinv.obeyed m hm⟩

/-! ## An undisturbed call -/

/-- The request and the ack arrive whole. -/
def undisturbed (v : Serving) : List HandshakeAction :=
  [.connect true, .send (some sizeofUpdatePingInfo), .serve v, .recv sizeofUpdatePingAck]

theorem heard_afterRecv {bytes : List UInt8} (hne : bytes ≠ []) :
    (D.afterRecv s bytes).heard = true := by
  rw [DirectCall.afterRecv, if_neg hne]
  dsimp only
  split_ifs
  · rfl
  · rw [DirectCall.retry]
    split_ifs <;> rfl

theorem run_undisturbed (pAnker : PAnkerDevice) (ackInfo : Memory UInt8) (v : Serving)
    (hlistens : pAnker.Listens v.id .tcp) (htaken : sizeofUpdatePingInfo ≤ v.taken)
    (hsent : sizeofUpdatePingAck ≤ v.ackSent) :
    Always D.step Whole (start pAnker ackInfo) (undisturbed v) ∧
      (D.run pAnker ackInfo (undisturbed v)).phase = .returned .ok := by
  have hne : D.request ≠ [] := List.ne_nil_of_length_pos (by rw [length_request]; decide)
  have hrequest : D.request.take (min v.taken sizeofUpdatePingInfo) = D.request := by
    rw [Nat.min_eq_right htaken]
    exact List.take_of_length_le length_request.le
  let sent : Handshake := { start pAnker ackInfo with
    phase := .receiving
    isOpen := true
    toPAnker := D.request }
  have hsend : [HandshakeAction.connect true, .send (some sizeofUpdatePingInfo)].foldl D.step
      (start pAnker ackInfo) = sent := by
    have htake : D.request.take sizeofUpdatePingInfo = D.request :=
      List.take_of_length_le length_request.le
    simp [DirectCall.step, start, sent, htake]
  have hserve : D.step sent (.serve v) = D.served sent v D.request := by
    rw [DirectCall.step, if_neg (by simp [sent, start, hlistens])]
    dsimp only [sent]
    rw [hrequest, if_neg hne]
  have hanswer : (D.served sent v D.request).toCAnker =
      sendAck D.sha256 D.pAnker .apJoin 0 v.ackMemory := by
    rw [DirectCall.served]
    dsimp only [sent, start]
    rw [answerBytes_request, take_sendAck_apJoin hsent, List.nil_append]
  have hlen : (D.served sent v D.request).toCAnker.length ≤ sizeofUpdatePingAck := by
    rw [hanswer, length_sendAck (by simp [ackVersion]), sizeofUpdatePingAck_eq]
    omega
  have hwhole : Always D.step Whole (start pAnker ackInfo) (undisturbed v) := by
    have hfirst : Always D.step Whole (start pAnker ackInfo)
        [.connect true, .send (some sizeofUpdatePingInfo)] :=
      always_cons.mpr ⟨trivial, always_cons.mpr ⟨le_rfl, always_nil⟩⟩
    have hserving : Whole sent (.serve v) := ⟨.inr htaken, .inr hsent⟩
    have hreading : Whole (D.served sent v D.request) (.recv sizeofUpdatePingAck) := .inr hlen
    have hlast : Always D.step Whole sent [.serve v, .recv sizeofUpdatePingAck] := by
      refine always_cons.mpr ⟨hserving, ?_⟩
      rw [hserve]
      exact always_cons.mpr ⟨hreading, always_nil⟩
    have hall := always_append.mpr ⟨hfirst, by rwa [hsend]⟩
    exact hall
  have hrun : D.run pAnker ackInfo (undisturbed v) =
      D.step (D.step sent (.serve v)) (.recv sizeofUpdatePingAck) := by
    rw [← hsend]
    rfl
  have hreceiving : ¬(D.served sent v D.request).phase ≠ .receiving := not_not.mpr rfl
  have hread : (D.served sent v D.request).toCAnker.take
      (min sizeofUpdatePingAck sizeofUpdatePingAck) ≠ [] := by
    rw [min_self, List.take_of_length_le hlen, hanswer]
    exact List.ne_nil_of_length_pos (by rw [length_sendAck (by simp [ackVersion])]; omega)
  have hheard : (D.run pAnker ackInfo (undisturbed v)).heard = true := by
    rw [hrun, hserve, DirectCall.step, if_neg hreceiving]
    exact heard_afterRecv hread
  exact ⟨hwhole, (ok_iff_heard pAnker ackInfo (undisturbed v) hwhole).1.mpr hheard⟩

end DirectCall

/-! ## All P-Ankers of the search -/

/-- One P-Anker that the C-Anker calls, and what happens during the call. -/
structure Contact where
  call : DirectCall
  pAnker : PAnkerDevice
  ackInfo : Memory UInt8
  actions : List HandshakeAction

namespace Contact

variable (c : Contact)

def final : Handshake := c.call.run c.pAnker c.ackInfo c.actions

def acked : Bool := c.final.phase = .returned .ok

def KeepsHeads : Prop :=
  Always c.call.step DirectCall.KeepsHeads (DirectCall.start c.pAnker c.ackInfo) c.actions

end Contact

/-- The calls come to what the contacts end with. -/
def HandleEnv.withContacts (E : HandleEnv) (contacts : ℕ → Contact) : HandleEnv :=
  { E with directAcked := fun i ↦ (contacts i).acked }

theorem HandleEnv.directAcked_withContacts (E : HandleEnv) (contacts : ℕ → Contact) (i : ℕ) :
    (E.withContacts contacts).directAcked i = (contacts i).acked := rfl

theorem HandleEnv.length_withContacts (E : HandleEnv) (contacts : ℕ → Contact) :
    (E.withContacts contacts).setIntoApMode.length = E.setIntoApMode.length := by
  have hsetup : (E.withContacts contacts).searchSetup = E.searchSetup := rfl
  rw [setIntoApMode, setIntoApMode, hsetup]
  split_ifs
  · rw [List.length_mapIdx, List.length_mapIdx]
    rfl
  · rfl

theorem HandleEnv.acknowledged_setIntoApMode {E : HandleEnv} {i : ℕ} {p : PAnker}
    (h : E.setIntoApMode[i]? = some p) : p.acknowledged = E.directAcked i := by
  rw [setIntoApMode] at h
  split_ifs at h
  · rw [List.getElem?_mapIdx] at h
    obtain ⟨q, -, rfl⟩ := Option.map_eq_some_iff.mp h
    rfl
  · simp at h

theorem countP_le_countP_range {α : Type*} {l : List α} {P : α → Bool} {Q : ℕ → Bool}
    (h : ∀ i a, l[i]? = some a → P a = true → Q i = true) :
    l.countP P ≤ (List.range l.length).countP Q := by
  induction l using List.reverseRecOn with
  | nil => exact le_rfl
  | append_singleton l a ih =>
      have hinit : ∀ i b, l[i]? = some b → P b = true → Q i = true := fun i b hb ↦
        h i b (by rw [List.getElem?_append_left (List.getElem?_eq_some_iff.mp hb).1, hb])
      have hlast := h l.length a List.getElem?_concat_length
      rw [List.length_append, List.length_singleton, List.range_succ, List.countP_append,
        List.countP_append]
      refine Nat.add_le_add (ih hinit) ?_
      cases hP : P a with
      | false => simp [hP]
      | true => simp [hP, hlast hP]

/-- Every P-Anker that SET_INTO_AP_MODE marks as acknowledged has obeyed a
request with the serial of the C-Anker, so that no more are counted than have
obeyed. -/
theorem HandleEnv.marked_obeyed (E : HandleEnv) (contacts : ℕ → Contact)
    (hown : ∀ i, (contacts i).call.cAnker = E.own) (hheads : ∀ i, (contacts i).KeepsHeads) :
    (∀ (i : ℕ) (p : PAnker), (E.withContacts contacts).setIntoApMode[i]? = some p →
      p.acknowledged = true → ∃ m, (contacts i).final.obeyed = some m ∧
        m.serial = E.own.serial ∧ .requested m ∈ (contacts i).final.pAnker.log) ∧
    (E.withContacts contacts).numAcknowledged ≤
      (List.range (E.withContacts contacts).setIntoApMode.length).countP
        fun i ↦ (contacts i).final.obeyed.isSome := by
  have hmarked : ∀ (i : ℕ) (p : PAnker), (E.withContacts contacts).setIntoApMode[i]? = some p →
      p.acknowledged = true → ∃ m, (contacts i).final.obeyed = some m ∧
        m.serial = E.own.serial ∧ .requested m ∈ (contacts i).final.pAnker.log := by
    intro i p hp hacknowledged
    rw [acknowledged_setIntoApMode hp] at hacknowledged
    have hacked : (contacts i).final.phase = .returned .ok := of_decide_eq_true hacknowledged
    obtain ⟨m, hm, hobeyed⟩ := DirectCall.obeyed_of_ok _ _ _ (hheads i) hacked
    exact ⟨m, hm, hobeyed.serial.trans (by rw [hown]), hobeyed.logged⟩
  refine ⟨hmarked, countP_le_countP_range fun i p hp hacknowledged ↦ ?_⟩
  obtain ⟨m, hm, -⟩ := hmarked i p hp hacknowledged
  rw [hm, Option.isSome_some]

/-- A P-Anker whose TCP task, the task 1, waits for a connection. -/
def listening : PAnkerDevice :=
  PAnkerDevice.run headHash PAnkerDevice.cAnker (fun _ ↦ none)
    [.does (.updaterStart PAnkerDevice.okStart), .does (.taskPasses 1 true),
      .does (.taskPasses 1 true)]

theorem listens_listening : listening.Listens 1 .tcp := by decide

def wholeServing : Serving where
  id := 1
  taken := 1452
  request _ := 1
  updateInfo _ := 2
  ackMemory _ := 3
  ackSent := 62
  padding := Vector.replicate 3 0
  write := Storage.okWrite
  cut := none

/-- The first P-Anker is reached, and no connection to the other comes about. -/
def firstReached (i : ℕ) : Contact where
  call := ⟨headHash, HandleEnv.oneOfTwo.own, PAnkerDevice.cAnker, fun _ ↦ 4⟩
  pAnker := listening
  ackInfo _ := 5
  actions := if i = 0 then DirectCall.undisturbed wholeServing else [.connect false]

theorem undisturbed_firstReached (D : DirectCall) :
    Always D.step DirectCall.Whole (DirectCall.start listening fun _ ↦ 5)
      (DirectCall.undisturbed wholeServing) ∧
    (D.run listening (fun _ ↦ 5) (DirectCall.undisturbed wholeServing)).phase = .returned .ok :=
  DirectCall.run_undisturbed listening _ wholeServing listens_listening (by decide) (by decide)

theorem ok_iff_heard_firstReached : ∃ m,
    ((firstReached 0).call.run listening (fun _ ↦ 5)
      (DirectCall.undisturbed wholeServing)).obeyed = some m ∧
    m.serial = HandleEnv.oneOfTwo.own.serial := by
  obtain ⟨hwhole, hok⟩ := undisturbed_firstReached (firstReached 0).call
  obtain ⟨hiff, hobeyed⟩ := DirectCall.ok_iff_heard listening (fun _ ↦ 5) _ hwhole
  obtain ⟨m, hm, hrequest⟩ := hobeyed (hiff.mp hok)
  exact ⟨m, hm, hrequest.serial⟩

theorem HandleEnv.marked_obeyed_firstReached :
    ∃ p, (oneOfTwo.withContacts firstReached).setIntoApMode[0]? = some p ∧
      p.acknowledged = true ∧ ∃ m, (firstReached 0).final.obeyed = some m ∧
        m.serial = oneOfTwo.own.serial := by
  have hheads : ∀ i, (firstReached i).KeepsHeads := by
    intro i
    by_cases hi : i = 0
    · subst hi
      intro pre a post heq
      exact ((undisturbed_firstReached _).1 pre a post heq).keepsHeads
    · intro pre a post heq
      have hmem : a ∈ (firstReached i).actions := by simp [heq]
      rw [firstReached, if_neg hi, List.mem_singleton] at hmem
      rw [hmem]
      trivial
  have hacked : (firstReached 0).acked = true :=
    decide_eq_true (undisturbed_firstReached (firstReached 0).call).2
  have hlen : 0 < (oneOfTwo.withContacts firstReached).setIntoApMode.length := by
    rw [length_withContacts]
    decide
  obtain ⟨p, hp⟩ : ∃ p, (oneOfTwo.withContacts firstReached).setIntoApMode[0]? = some p :=
    ⟨_, List.getElem?_eq_getElem hlen⟩
  have hacknowledged : p.acknowledged = true := by
    rw [acknowledged_setIntoApMode hp, directAcked_withContacts]
    exact hacked
  obtain ⟨m, hm, hserial, -⟩ :=
    (marked_obeyed oneOfTwo firstReached (fun _ ↦ rfl) hheads).1 0 p hp hacknowledged
  exact ⟨p, hp, hacknowledged, m, hm, hserial⟩

end AnkerUpdater
