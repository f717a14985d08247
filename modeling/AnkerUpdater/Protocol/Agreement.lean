import AnkerUpdater.Protocol.Delivery

/-!
# Agreement of one transfer

The transfer refines stop-and-wait: the position is `seq` of the loop, an
item is stored when a task has written the chunk for good, and a receiver
is dropped when its entry is kicked.  Acknowledgements on their way are
for chunks that their sender has stored, which is what an advancing round
relies on.
-/

namespace AnkerUpdater

open Relation UploadLog PAnkerTask

namespace TransferState

variable {S : Session} {version : Serial → List UInt8} {t t' : TransferState}

def position (t : TransferState) : ℕ := t.sender.seq.toNat

def stored (S : Session) (t : TransferState) (x : Serial) : ℕ :=
  storedCount S.chunks.length (t.tasks x)

/-- If `a` acknowledges a chunk, its sender has stored it. -/
def Covered (S : Session) (t : TransferState) (a : UpdatePingAck) : Prop :=
  a.type = AckType.rcvdBinaryData.code → a.seq.toNat < t.stored S a.serial

/-- Every datagram of `polls` that counts for a listed P-Anker is covered. -/
def PollsCovered (S : Session) (t : TransferState) (polls : List Poll) : Prop :=
  ∀ p ∈ polls, ∀ d, p.datagram = some d → d.info.accepted S.sha256 = true →
    d.info.serial ∈ S.pAnkers.map PAnker.serial → t.Covered S d.info

/-- Every datagram of `polls` from the P-Anker `x` is covered. -/
def PollsCoveredFrom (S : Session) (t : TransferState) (polls : List Poll) (x : Serial) : Prop :=
  ∀ p ∈ polls, ∀ d, p.datagram = some d → d.info.accepted S.sha256 = true →
    d.info.serial = x → t.Covered S d.info

/-- All data that was sent are chunks up to the position of the loop. -/
def DataSent (S : Session) (t : TransferState) : Prop :=
  ∀ m ∈ t.data, m.ChunkOf S.chunks ∧ m.seq.toNat ≤ t.position

structure TransferInv (S : Session) (t : TransferState) : Prop where
  sender : S.SendInv t.sender
  data : ∀ m ∈ t.data, m.ChunkOf S.chunks ∧ m.seq.toNat ≤ t.position
  tasks : ∀ x, TaskInv S.chunks (t.tasks x)
  acks : ∀ a ∈ t.acks, t.Covered S a
  collecting : ∀ startMicros polls, t.phase = .collecting startMicros polls →
    t.sender.offset < S.size ∧ t.PollsCovered S polls
  returned : t.phase = .returned .ok → ¬ t.sender.offset < S.size

/-- The state of the transfer as stop-and-wait sees it. -/
def abstract (S : Session) (t : TransferState) : StopAndWait.State Serial where
  pos := t.position
  stored := t.stored S
  dropped := {x | ∀ p ∈ t.sender.pAnkers, p.serial = x → p.active = false}

theorem transferInv_initial : TransferInv S (initial S) where
  sender := S.sendInv_start
  data := by simp [initial]
  tasks _ := taskInv_start
  acks := by simp [initial]
  collecting := by simp [initial]
  returned := by simp [initial]

theorem abstract_initial :
    abstract S (initial S) = StopAndWait.State.initial (abstract S (initial S)).dropped := by
  have hstored : (initial S).stored S = fun _ ↦ 0 := by
    funext x
    exact storedCount_start _
  simp only [abstract, hstored]
  rfl

theorem PollsCovered.from {polls : List Poll} (h : t.PollsCovered S polls) {x : Serial}
    (hx : x ∈ S.pAnkers.map PAnker.serial) : t.PollsCoveredFrom S polls x := by
  intro p hp d hd haccepted hserial
  exact h p hp d hd haccepted (hserial ▸ hx)

theorem covered_of_hashed {a b : UpdatePingAck} (hhashed : a.hashed = b.hashed)
    (hb : t.Covered S b) : t.Covered S a := by
  obtain ⟨htype, hserial, hseq, -, -⟩ := UpdatePingAck.sameFields_of_hashed hhashed
  unfold Covered at *
  rwa [htype, hserial, hseq]

theorem TransferInv.covered_of_answerable (h : TransferInv S t) {a : UpdatePingAck}
    (ha : t.Answerable S a) (haccepted : a.accepted S.sha256 = true)
    (hserial : a.serial ∈ S.pAnkers.map PAnker.serial) : t.Covered S a := by
  obtain ⟨b, hb, hhashed⟩ := ha haccepted hserial
  exact covered_of_hashed hhashed (h.acks b hb)

theorem DataSent.chunkOf (h : t.DataSent S) {m : UpdatePingInfo} (hm : t.Deliverable S m)
    (hfirmware : m.acceptedFirmware S.sha256) :
    m.ChunkOf S.chunks ∧ m.seq.toNat ≤ t.position := by
  obtain ⟨d, hd, hhashed⟩ := hm hfirmware
  obtain ⟨-, -, hseq, hlast, -, hpayload⟩ := UpdatePingInfo.sameFields_of_hashed hhashed
  have hchunk := h d hd
  unfold UpdatePingInfo.ChunkOf at *
  rwa [hseq, hlast, hpayload]

theorem TransferInv.dataSent (h : TransferInv S t) : t.DataSent S := h.data

theorem DataSent.broadcast (h : t.DataSent S) (hsender : S.SendInv t.sender)
    (hchunks : S.chunkCount ≤ 65535) (hrun : t.sender.offset < S.size) (phase : SendPhase) :
    DataSent S { t with phase := phase, data := t.data ++ [S.firmwareDatagram t.sender] } := by
  intro m hm
  rcases List.mem_append.mp hm with hm | hm
  · exact h m hm
  · obtain rfl := List.mem_singleton.mp hm
    exact ⟨hsender.chunkOf_firmwareDatagram hchunks hrun, le_rfl⟩

/-! ## A turn of the loop -/

theorem abstract_drop (hposition : t'.position = t.position) (htasks : t'.tasks = t.tasks)
    (hkept : ∀ q ∈ t'.sender.pAnkers, q.active = true →
      ∃ p ∈ t.sender.pAnkers, p.serial = q.serial ∧ p.active = true) :
    StopAndWait.Step (abstract S t) (abstract S t') := by
  have hstored : t'.stored S = t.stored S := by
    funext x
    rw [stored, stored, htasks]
  have heq : abstract S t' = { abstract S t with dropped := (abstract S t').dropped } := by
    simp only [abstract, hposition, hstored]
  rw [heq]
  apply StopAndWait.Step.drop
  intro x hx q hq hserial
  by_contra hactive
  have hactive : q.active = true := by simpa using hactive
  obtain ⟨p, hp, hpserial, hpactive⟩ := hkept q hq hactive
  have hkicked := hx p hp (hpserial.trans hserial)
  simp [hpactive] at hkicked

theorem abstract_tallied (t : TransferState) (startMicros : ℕ) (polls : List Poll) :
    StopAndWait.Step (abstract S t)
      (abstract S { t with
        phase := .looping, sender := S.tallied t.sender startMicros polls }) :=
  abstract_drop rfl rfl (tallyAcks_active _ _ _ _ _)

/-- After the tally of a round with as many correct answers as entries that
are left, a P-Anker that is still in has stored the current chunk if what
arrived from it is covered. -/
theorem stored_of_advance (hsender : S.SendInv t.sender) {startMicros : ℕ} {polls : List Poll}
    (hremaining : (S.roundTally t.sender startMicros polls).numRemaining ≠ 0)
    (hcorrect : (S.roundTally t.sender startMicros polls).numCorrectAnswered =
      (S.roundTally t.sender startMicros polls).numRemaining)
    {p : PAnker} (hp : p ∈ (S.roundTally t.sender startMicros polls).pAnkers)
    (hactive : p.active = true) (hpolls : t.PollsCoveredFrom S polls p.serial) :
    t.position < t.stored S p.serial := by
  have hacked := hsender.acked_of_advance hcorrect hremaining p hp hactive
  obtain ⟨poll, hpoll, d, hd, haccepted, htype, hserial, hseq⟩ := Session.arrived_of_acked hacked
  have hlt := hpolls poll hpoll d hd haccepted hserial htype
  rwa [hseq, hserial] at hlt

theorem listed_of_tallied (hsender : S.SendInv t.sender) {startMicros : ℕ} {polls : List Poll}
    {p : PAnker} (hp : p ∈ (S.roundTally t.sender startMicros polls).pAnkers) :
    p.serial ∈ S.pAnkers.map PAnker.serial := by
  rw [← hsender.serials, ← tallyAcks_map (S.roundAcks t.sender startMicros polls)
    PAnker.apply_serial 0 t.sender.numRemaining 0 t.sender.pAnkers]
  exact List.mem_map_of_mem hp

/-- Whatever serials are out besides the kicked ones: a turn that goes on is
no step, a drop, or a drop and an advance of stop-and-wait. -/
theorem steps_turn (hsender : S.SendInv t.sender) (hchunks : S.chunkCount ≤ 65535)
    (hrun : t.sender.offset < S.size) {turn : Turn} {s' : SendState} (out : Set Serial)
    (hpolls : ∀ startMicros polls, turn = .round startMicros polls →
      ∀ x ∈ S.pAnkers.map PAnker.serial, x ∉ out → t.PollsCoveredFrom S polls x)
    (hturn : S.turn t.sender turn = .next s') :
    t.position ≤ s'.seq.toNat ∧
      ReflTransGen StopAndWait.Step ((abstract S t).without out)
        ((abstract S { t with phase := .looping, sender := s' }).without out) := by
  cases Session.turn_outcome hturn with
  | readFailed hcnt => exact ⟨le_rfl, .refl⟩
  | sendFailed hcnt => exact ⟨le_rfl, .refl⟩
  | silent startMicros polls hacks hcnt => exact ⟨le_rfl, .refl⟩
  | retried startMicros polls hacks hremaining hcorrect =>
      exact ⟨le_rfl, .single ((abstract_tallied t startMicros polls).without out)⟩
  | advanced startMicros polls hacks hremaining hcorrect =>
      have hlt := hsender.seq_lt hchunks hrun
      have hsucc : (t.sender.seq + 1).toNat = t.position + 1 := toNat_succ_of_lt hlt hchunks
      refine ⟨?_, .tail (.single ((abstract_tallied t startMicros polls).without out)) ?_⟩
      · simp only [hsucc]
        omega
      · have hadvance := StopAndWait.Step.advance
          ((abstract S { t with
            phase := .looping, sender := S.tallied t.sender startMicros polls }).without out) (by
          intro x hx
          simp only [StopAndWait.State.without, abstract, Set.mem_union, Set.mem_ofPred_eq, not_or,
            not_forall, Bool.not_eq_false] at hx
          obtain ⟨⟨p, hp, rfl, hactive⟩, hout⟩ := hx
          exact stored_of_advance hsender hremaining hcorrect hp hactive
            (hpolls _ _ rfl _ (listed_of_tallied hsender hp) hout))
        have heq : (abstract S { t with
            phase := .looping
            sender := { S.tallied t.sender startMicros polls with
              offset := t.sender.offset + S.dataLen t.sender.offset
              seq := t.sender.seq + 1 } }).without out =
            { (abstract S { t with
                phase := .looping, sender := S.tallied t.sender startMicros polls }).without out with
              pos := t.position + 1 } := by
          simp only [StopAndWait.State.without, abstract, position, hsucc]
          rfl
        rw [heq]
        exact hadvance

theorem TransferInv.turn (h : TransferInv S t) (hchunks : S.chunkCount ≤ 65535)
    (hrun : t.sender.offset < S.size) {turn : Turn} {s' : SendState}
    (hpolls : ∀ startMicros polls, turn = .round startMicros polls → t.PollsCovered S polls)
    (hturn : S.turn t.sender turn = .next s') :
    TransferInv S { t with phase := .looping, sender := s' } ∧
      ReflTransGen StopAndWait.Step (abstract S t)
        (abstract S { t with phase := .looping, sender := s' }) := by
  obtain ⟨hle, hsteps⟩ := steps_turn h.sender hchunks hrun ∅
    (fun startMicros polls hround x hx _ ↦ (hpolls startMicros polls hround).from hx) hturn
  rw [StopAndWait.without_empty, StopAndWait.without_empty] at hsteps
  refine ⟨⟨h.sender.turn hrun hturn, fun m hm ↦ ?_, h.tasks, h.acks, by simp, by simp⟩, hsteps⟩
  obtain ⟨hchunk, hseq⟩ := h.data m hm
  exact ⟨hchunk, hseq.trans hle⟩

/-! ## A datagram at a P-Anker -/

@[simp] theorem deliver_tasks_self (x : Serial) (r : LibResults) (m : UpdatePingInfo) :
    (t.deliver S version x r m).tasks x = ((t.tasks x).receive S.sha256 ⟨x, version x⟩ r m).1 := by
  simp [deliver]

theorem deliver_tasks_of_ne {x y : Serial} (hne : y ≠ x) (r : LibResults) (m : UpdatePingInfo) :
    (t.deliver S version x r m).tasks y = t.tasks y := by
  simp [deliver, hne]

theorem DataSent.progress (h : t.DataSent S) (hchunks : S.chunkCount ≤ 65535) {x : Serial}
    {r : LibResults} {m : UpdatePingInfo} (hm : t.Deliverable S m) :
    Progress S.chunks.length S.sha256 ⟨x, version x⟩ m (t.tasks x)
      ((t.tasks x).receive S.sha256 ⟨x, version x⟩ r m).1
      ((t.tasks x).receive S.sha256 ⟨x, version x⟩ r m).2 := by
  apply receive_progress
  · rwa [S.chunks_length]
  · intro hfirmware
    exact (h.chunkOf hm hfirmware).1

theorem stored_deliver_self (t : TransferState) (x : Serial) (r : LibResults)
    (m : UpdatePingInfo) : (t.deliver S version x r m).stored S x =
      storedCount S.chunks.length ((t.tasks x).receive S.sha256 ⟨x, version x⟩ r m).1 := by
  simp [stored]

theorem stored_deliver_of_ne {x y : Serial} (hne : y ≠ x) (r : LibResults) (m : UpdatePingInfo) :
    (t.deliver S version x r m).stored S y = t.stored S y := by
  simp only [stored, deliver_tasks_of_ne hne]

theorem DataSent.stored_le_deliver (h : t.DataSent S) (hchunks : S.chunkCount ≤ 65535)
    {x : Serial} {r : LibResults} {m : UpdatePingInfo} (hm : t.Deliverable S m) (y : Serial) :
    t.stored S y ≤ (t.deliver S version x r m).stored S y := by
  by_cases hne : y = x
  · subst hne
    rw [stored_deliver_self]
    rcases (h.progress hchunks hm).stored with hsame | ⟨hnext, -⟩
    · exact hsame.ge
    · simp only [stored, hnext]
      omega
  · exact (stored_deliver_of_ne hne r m).ge

/-- A delivery is no step of stop-and-wait, or it stores one item. -/
theorem DataSent.abstract_deliver (h : t.DataSent S) (hchunks : S.chunkCount ≤ 65535)
    {x : Serial} {r : LibResults} {m : UpdatePingInfo} (hm : t.Deliverable S m) :
    ReflTransGen StopAndWait.Step (abstract S t) (abstract S (t.deliver S version x r m)) := by
  rcases (h.progress hchunks hm).stored with hsame | ⟨hnext, hfirmware, hseq⟩
  · have heq : (t.deliver S version x r m).stored S = t.stored S := by
      funext y
      by_cases hne : y = x
      · subst hne
        exact (stored_deliver_self t y r m).trans hsame
      · exact stored_deliver_of_ne hne r m
    have habs : abstract S (t.deliver S version x r m) = abstract S t := by
      simp only [abstract, heq]
      rfl
    rw [habs]
  · have hle : t.stored S x ≤ t.position := by
      rw [stored, hseq]
      exact (h.chunkOf hm hfirmware).2
    have heq : (t.deliver S version x r m).stored S =
        Function.update (t.stored S) x (t.stored S x + 1) := by
      funext y
      by_cases hne : y = x
      · subst hne
        rw [Function.update_self]
        exact (stored_deliver_self t y r m).trans hnext
      · rw [Function.update_of_ne hne]
        exact stored_deliver_of_ne hne r m
    have hstore := StopAndWait.Step.store (abstract S t) x hle
    apply ReflTransGen.single
    simp only [abstract, heq] at hstore ⊢
    exact hstore

theorem DataSent.covered_deliver (h : t.DataSent S) (hchunks : S.chunkCount ≤ 65535)
    {x : Serial} {r : LibResults} {m : UpdatePingInfo} (hm : t.Deliverable S m)
    {a : UpdatePingAck} (ha : t.Covered S a) : (t.deliver S version x r m).Covered S a := by
  intro htype
  exact (ha htype).trans_le (h.stored_le_deliver hchunks hm a.serial)

/-- What the task answers is covered. -/
theorem DataSent.covered_answer (h : t.DataSent S) (hchunks : S.chunkCount ≤ 65535)
    {x : Serial} {r : LibResults} {m : UpdatePingInfo} (hm : t.Deliverable S m)
    {a : UpdatePingAck} (ha : a ∈ ((t.tasks x).receive S.sha256 ⟨x, version x⟩ r m).2) :
    a.serial = x ∧ (t.deliver S version x r m).Covered S a := by
  obtain ⟨hserial, hstored⟩ := (h.progress hchunks hm).acked a ha
  refine ⟨hserial, fun htype ↦ ?_⟩
  rw [hserial, stored_deliver_self]
  exact hstored htype

theorem TransferInv.deliver (h : TransferInv S t) (hchunks : S.chunkCount ≤ 65535) {x : Serial}
    {r : LibResults} {m : UpdatePingInfo} (hm : t.Deliverable S m) :
    TransferInv S (t.deliver S version x r m) := by
  have hdata := h.dataSent
  refine ⟨h.sender, h.data, ?_, ?_, ?_, h.returned⟩
  · intro y
    by_cases hne : y = x
    · subst hne
      rw [deliver_tasks_self]
      apply (h.tasks y).receive
      · rwa [S.chunks_length]
      · exact fun hfirmware ↦ (hdata.chunkOf hm hfirmware).1
    · rw [deliver_tasks_of_ne hne]
      exact h.tasks y
  · intro a ha
    rcases List.mem_append.mp ha with ha | ha
    · exact hdata.covered_deliver hchunks hm (h.acks a ha)
    · exact (hdata.covered_answer hchunks hm ha).2
  · intro startMicros polls hphase
    obtain ⟨hrun, hpolls⟩ := h.collecting startMicros polls hphase
    refine ⟨hrun, ?_⟩
    intro p hp d hd haccepted hserial
    exact hdata.covered_deliver hchunks hm (hpolls p hp d hd haccepted hserial)

/-! ## Runs -/

/-- Every step of the transfer keeps the invariant and is a run of
stop-and-wait, unless the call has failed. -/
theorem TransferInv.step (h : TransferInv S t) (hchunks : S.chunkCount ≤ 65535)
    (hstep : Step S version t t') : t'.phase = .returned .error ∨
      (TransferInv S t' ∧ ReflTransGen StopAndWait.Step (abstract S t) (abstract S t')) := by
  have hturn : ∀ turn : Turn, t.sender.offset < S.size →
      (∀ startMicros polls, turn = .round startMicros polls → t.PollsCovered S polls) →
      (t.continueWith (S.turn t.sender turn)).phase = .returned .error ∨
        (TransferInv S (t.continueWith (S.turn t.sender turn)) ∧
          ReflTransGen StopAndWait.Step (abstract S t)
            (abstract S (t.continueWith (S.turn t.sender turn)))) := by
    intro turn hrun hpolls
    cases hflow : S.turn t.sender turn with
    | next s' => exact Or.inr (h.turn hchunks hrun hpolls hflow)
    | exit rc s' =>
        obtain rfl := Session.turn_exit hflow
        exact Or.inl rfl
  cases hstep with
  | setup ok hphase =>
      cases ok with
      | false => exact Or.inl rfl
      | true =>
          refine Or.inr ⟨⟨h.sender, h.data, h.tasks, h.acks, ?_, ?_⟩, .refl⟩
          · intro startMicros polls hcollecting
            cases hcollecting
          · intro hreturned
            cases hreturned
  | readFailed hphase hrun => exact hturn .readFailed hrun (fun _ _ heq ↦ by cases heq)
  | sendFailed hphase hrun => exact hturn .sendFailed hrun (fun _ _ heq ↦ by cases heq)
  | broadcast startMicros hphase hrun =>
      have hdata := h.dataSent.broadcast h.sender hchunks hrun (.collecting startMicros [])
      refine Or.inr ⟨⟨h.sender, hdata, h.tasks, h.acks, ?_, ?_⟩, .refl⟩
      · intro _ polls hcollecting
        cases hcollecting
        exact ⟨hrun, fun p hp ↦ absurd hp List.not_mem_nil⟩
      · intro hreturned
        cases hreturned
  | @poll startMicros polls p hphase hanswer =>
      obtain ⟨hrun, hpolls⟩ := h.collecting startMicros polls hphase
      refine Or.inr ⟨⟨h.sender, h.data, h.tasks, h.acks, ?_, ?_⟩, .refl⟩
      · intro _ polls' hcollecting
        cases hcollecting
        refine ⟨hrun, ?_⟩
        intro q hq d hd haccepted hserial
        rcases List.mem_append.mp hq with hq | hq
        · exact hpolls q hq d hd haccepted hserial
        · obtain rfl := List.mem_singleton.mp hq
          exact h.covered_of_answerable (hanswer d hd) haccepted hserial
      · intro hreturned
        cases hreturned
  | @finish startMicros polls hphase =>
      obtain ⟨hrun, hpolls⟩ := h.collecting startMicros polls hphase
      apply hturn (.round startMicros polls) hrun
      intro _ _ heq
      cases heq
      exact hpolls
  | complete hphase hdone =>
      refine Or.inr ⟨⟨h.sender, h.data, h.tasks, h.acks, ?_, fun _ ↦ hdone⟩, .refl⟩
      intro startMicros polls hcollecting
      cases hcollecting
  | receive x r m hdeliver =>
      exact Or.inr ⟨h.deliver hchunks hdeliver, h.dataSent.abstract_deliver hchunks hdeliver⟩

theorem step_of_failed (h : t.phase = .returned .error) (hstep : Step S version t t') :
    t'.phase = .returned .error := by
  cases hstep with
  | receive x r m hdeliver => exact h
  | _ => simp_all

theorem Reachable.refines (h : Reachable S version t) (hchunks : S.chunkCount ≤ 65535) :
    t.phase = .returned .error ∨ (TransferInv S t ∧
      ReflTransGen StopAndWait.Step (abstract S (initial S)) (abstract S t)) := by
  induction h with
  | refl => exact Or.inr ⟨transferInv_initial, .refl⟩
  | tail _ hstep ih =>
      rcases ih with hfailed | ⟨hinv, hrun⟩
      · exact Or.inl (step_of_failed hfailed hstep)
      · rcases hinv.step hchunks hstep with hfailed | ⟨hinv', hrun'⟩
        · exact Or.inl hfailed
        · exact Or.inr ⟨hinv', hrun.trans hrun'⟩

/-- In a call that has not failed, a P-Anker that is not kicked is in
lockstep with the loop. -/
theorem Reachable.lockstep (h : Reachable S version t) (hchunks : S.chunkCount ≤ 65535)
    (hok : t.phase ≠ .returned .error) :
    TransferInv S t ∧ StopAndWait.Lockstep (abstract S t) := by
  rcases h.refines hchunks with hfailed | ⟨hinv, hrun⟩
  · exact absurd hfailed hok
  · have hstart := StopAndWait.lockstep_initial (abstract S (initial S)).dropped
    rw [← abstract_initial] at hstart
    exact ⟨hinv, hstart.steps hrun⟩

theorem written_of_stored {task : PAnkerTask} (htask : TaskInv S.chunks task)
    (hstored : S.chunkCount ≤ storedCount S.chunks.length task) :
    written task.calls = S.runningPartition := by
  rw [← S.chunks_flatten]
  by_cases hphase : task.phase = .restarted
  · exact htask.complete hphase
  · rw [storedCount_of_ne hphase, ← S.chunks_length] at hstored
    rcases htask.stored hphase with hwritten | ⟨-, hfinal⟩
    · rw [hwritten, prefixOf_length hstored]
    · omega

/-- After a call that returned UPDATER_OK, every P-Anker that is not kicked
has written exactly the running partition since its last `esp_ota_begin`. -/
theorem written_of_returned_ok (S : Session) (version : Serial → List UInt8)
    (hchunks : S.chunkCount ≤ 65535) (t : TransferState) (hreach : Reachable S version t)
    (hok : t.phase = .returned .ok) :
    ∀ p ∈ t.sender.pAnkers, p.failCnt < maxRetrieveFirmwareAcksFailsToKickAnker →
      written (t.tasks p.serial).calls = S.runningPartition := by
  intro p hp hfail
  obtain ⟨hinv, hlockstep⟩ := hreach.lockstep hchunks (by simp [hok])
  have hin : p.serial ∉ (abstract S t).dropped := by
    intro hdropped
    have hkicked := hdropped p hp rfl
    rw [PAnker.active_iff.mpr hfail] at hkicked
    cases hkicked
  have hreached : t.position ≤ t.stored S p.serial := hlockstep.reached p.serial hin
  have hposition : S.chunkCount ≤ t.position := by
    obtain ⟨-, hoffset⟩ := hinv.sender.seq_le hchunks
    have hdone := hinv.returned hok
    rw [hoffset, S.chunkOffset_lt_size_iff] at hdone
    exact not_lt.mp hdone
  exact written_of_stored (hinv.tasks p.serial) (hposition.trans hreached)

theorem written_of_returned_ok_single : ∃ t p,
    Reachable (Session.single (List.replicate 1401 3)) (fun _ ↦ [1, 0]) t ∧
      t.phase = .returned .ok ∧ t.sender.pAnkers = [p] ∧
      written (t.tasks p.serial).calls = List.replicate 1401 3 := by
  have hchunks : (Session.single (List.replicate 1401 3)).chunkCount ≤ 65535 := by
    rw [Session.chunkCount, Session.single_size, List.length_replicate]
    decide
  obtain ⟨t, hreach, hok, hpAnkers⟩ := exists_returned_ok
    (S := Session.single (List.replicate 1401 3)) (fun _ ↦ [1, 0]) rfl
  refine ⟨t, _, hreach, hok, hpAnkers, ?_⟩
  have hall := written_of_returned_ok _ _ hchunks t hreach hok
  rw [hpAnkers] at hall
  exact hall _ List.mem_cons_self (by decide)

end TransferState

end AnkerUpdater
