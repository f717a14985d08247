import AnkerUpdater.Protocol.Agreement

/-!
# Lockstep of the loop and the tasks

The transfer with P-Ankers that may restart in the middle of it.  Their
tasks begin anew while acknowledgements from before are still on their
way, so the loop can run ahead of them.  Every other P-Anker that is not
kicked expects the chunk of the loop or the one after it.
-/

namespace AnkerUpdater

open Relation PAnkerTask

/-- An exit of the loop keeps its position and kicks at most. -/
theorem Session.turn_exit_state {S : Session} {s s' : SendState} {turn : Turn} {rc : UpdaterRc}
    (h : S.turn s turn = .exit rc s') :
    s'.seq = s.seq ∧ s'.offset = s.offset ∧ ∀ q ∈ s'.pAnkers, q.active = true →
      ∃ p ∈ s.pAnkers, p.serial = q.serial ∧ p.active = true := by
  have hsame : ∀ q ∈ s.pAnkers, q.active = true →
      ∃ p ∈ s.pAnkers, p.serial = q.serial ∧ p.active = true :=
    fun q hq hactive ↦ ⟨q, hq, rfl, hactive⟩
  cases (Session.turn_exit_outcome h).2 with
  | readFailed => exact ⟨rfl, rfl, hsame⟩
  | sendFailed => exact ⟨rfl, rfl, hsame⟩
  | silent startMicros polls hacks => exact ⟨rfl, rfl, hsame⟩
  | allKicked startMicros polls hremaining => exact ⟨rfl, rfl, tallyAcks_active _ _ _ _ _⟩

namespace TransferState

variable {S : Session} {version : Serial → List UInt8} {restarted : Set Serial}
  {t t' : TransferState}

/-- What holds of a transfer in which the P-Ankers of `restarted` may have
lost what they had stored. -/
structure RestartInv (S : Session) (restarted : Set Serial) (t : TransferState) : Prop where
  position : t.position ≤ S.chunkCount ∧ t.sender.offset = S.chunkOffset t.position
  sender : t.phase ≠ .returned .error → S.SendInv t.sender
  data : t.DataSent S
  acks : ∀ a ∈ t.acks, a.serial ∉ restarted → t.Covered S a
  collecting : ∀ startMicros polls, t.phase = .collecting startMicros polls →
    t.sender.offset < S.size ∧
      ∀ x ∈ S.pAnkers.map PAnker.serial, x ∉ restarted → t.PollsCoveredFrom S polls x
  lockstep : StopAndWait.Lockstep ((abstract S t).without restarted)
  seqErrors : ∀ a ∈ t.acks, a.type = AckType.seqError.code →
    a.serial ∈ ((abstract S t).without restarted).dropped

theorem restartInv_initial : RestartInv S ∅ (initial S) where
  position := by simp [initial, position, Session.start, Session.chunkOffset]
  sender _ := S.sendInv_start
  data := by simp [DataSent, initial]
  acks := by simp [initial]
  collecting := by simp [initial]
  lockstep := by
    rw [StopAndWait.without_empty, abstract_initial]
    exact StopAndWait.lockstep_initial _
  seqErrors := by simp [initial]

/-! ## Steps of the loop -/

theorem RestartInv.withPhase (h : RestartInv S restarted t) {phase : SendPhase}
    (hsender : S.SendInv t.sender)
    (hcollecting : ∀ startMicros polls, phase = .collecting startMicros polls →
      t.sender.offset < S.size ∧
        ∀ x ∈ S.pAnkers.map PAnker.serial, x ∉ restarted → t.PollsCoveredFrom S polls x) :
    RestartInv S restarted { t with phase := phase } :=
  ⟨h.position, fun _ ↦ hsender, h.data, h.acks, hcollecting, h.lockstep, h.seqErrors⟩

/-- A turn keeps the invariant, whether the loop goes on or exits. -/
theorem RestartInv.turn (h : RestartInv S restarted t) (hchunks : S.chunkCount ≤ 65535)
    (hsender : S.SendInv t.sender) (hrun : t.sender.offset < S.size) {turn : Turn}
    (hpolls : ∀ startMicros polls, turn = .round startMicros polls →
      ∀ x ∈ S.pAnkers.map PAnker.serial, x ∉ restarted → t.PollsCoveredFrom S polls x) :
    RestartInv S restarted (t.continueWith (S.turn t.sender turn)) := by
  cases hflow : S.turn t.sender turn with
  | next s' =>
      have hsender' := hsender.turn hrun hflow
      obtain ⟨hle, hsteps⟩ := steps_turn hsender hchunks hrun restarted hpolls hflow
      refine ⟨hsender'.seq_le hchunks, fun _ ↦ hsender', fun m hm ↦ ?_, h.acks, ?_,
        h.lockstep.steps hsteps, fun a ha htype ↦ ?_⟩
      · obtain ⟨hchunk, hseq⟩ := h.data m hm
        exact ⟨hchunk, hseq.trans hle⟩
      · intro startMicros polls hphase
        cases hphase
      · exact StopAndWait.dropped_subset_of_steps hsteps (h.seqErrors a ha htype)
  | exit rc s' =>
      obtain ⟨hseq, hoffset, hkept⟩ := Session.turn_exit_state hflow
      obtain rfl := Session.turn_exit hflow
      have hposition : (t.continueWith (.exit .error s')).position = t.position :=
        congrArg UInt16.toNat hseq
      have hdrop : StopAndWait.Step ((abstract S t).without restarted)
          ((abstract S (t.continueWith (.exit .error s'))).without restarted) :=
        (abstract_drop hposition rfl hkept).without restarted
      refine ⟨?_, fun hok ↦ absurd rfl hok, fun m hm ↦ ?_, h.acks, ?_, h.lockstep.step hdrop,
        fun a ha htype ↦ ?_⟩
      · rw [hposition]
        exact ⟨h.position.1, hoffset.trans h.position.2⟩
      · rw [hposition]
        exact h.data m hm
      · intro startMicros polls hphase
        cases hphase
      · exact StopAndWait.dropped_subset_of_steps (.single hdrop) (h.seqErrors a ha htype)

/-! ## A datagram at a P-Anker -/

/-- A task that is sent a chunk beyond its own is not of a P-Anker that is
still in. -/
theorem RestartInv.dropped_of_seqError (h : RestartInv S restarted t) {x : Serial}
    {r : LibResults} {m : UpdatePingInfo} (hm : t.Deliverable S m) {a : UpdatePingAck}
    (ha : a ∈ ((t.tasks x).receive S.sha256 ⟨x, version x⟩ r m).2)
    (htype : a.type = AckType.seqError.code) :
    x ∈ ((abstract S t).without restarted).dropped := by
  by_contra hin
  have hreached : t.position ≤ storedCount S.chunks.length (t.tasks x) :=
    h.lockstep.reached x hin
  obtain ⟨hphase, hfirmware, hlt⟩ := receive_seqError ha htype
  have hle := (h.data.chunkOf hm hfirmware).2
  have hlt := UInt16.lt_iff_toNat_lt.mp hlt
  rw [storedCount_running hphase] at hreached
  omega

theorem RestartInv.deliver (h : RestartInv S restarted t) (hchunks : S.chunkCount ≤ 65535)
    {x : Serial} {r : LibResults} {m : UpdatePingInfo} (hm : t.Deliverable S m) :
    RestartInv S restarted (t.deliver S version x r m) where
  position := h.position
  sender := h.sender
  data := h.data
  acks := by
    intro a ha hserial
    rcases List.mem_append.mp ha with ha | ha
    · exact h.data.covered_deliver hchunks hm (h.acks a ha hserial)
    · exact (h.data.covered_answer hchunks hm ha).2
  collecting := by
    intro startMicros polls hphase
    obtain ⟨hrun, hpolls⟩ := h.collecting startMicros polls hphase
    refine ⟨hrun, ?_⟩
    intro y hy hin p hp d hd haccepted hserial
    exact h.data.covered_deliver hchunks hm (hpolls y hy hin p hp d hd haccepted hserial)
  lockstep := by
    have hsteps : ReflTransGen StopAndWait.Step (abstract S t)
        (abstract S (t.deliver S version x r m)) := h.data.abstract_deliver hchunks hm
    exact h.lockstep.steps (StopAndWait.steps_without hsteps restarted)
  seqErrors := by
    intro a ha htype
    rcases List.mem_append.mp ha with ha | ha
    · exact h.seqErrors a ha htype
    · rw [(h.data.covered_answer hchunks hm ha).1]
      exact h.dropped_of_seqError hm ha htype

theorem RestartInv.step (h : RestartInv S restarted t) (hchunks : S.chunkCount ≤ 65535)
    (hstep : Step S version t t') : RestartInv S restarted t' := by
  cases hstep with
  | setup ok hphase =>
      apply h.withPhase (h.sender (by simp [hphase]))
      intro startMicros polls hcollecting
      cases ok <;> cases hcollecting
  | readFailed hphase hrun =>
      exact h.turn hchunks (h.sender (by simp [hphase])) hrun (fun _ _ heq ↦ by cases heq)
  | sendFailed hphase hrun =>
      exact h.turn hchunks (h.sender (by simp [hphase])) hrun (fun _ _ heq ↦ by cases heq)
  | broadcast startMicros hphase hrun =>
      have hsender := h.sender (by simp [hphase])
      have hdata := h.data.broadcast hsender hchunks hrun (.collecting startMicros [])
      refine ⟨h.position, fun _ ↦ hsender, hdata, h.acks, ?_, h.lockstep, h.seqErrors⟩
      intro _ polls hcollecting
      cases hcollecting
      exact ⟨hrun, fun x hx hin p hp ↦ absurd hp List.not_mem_nil⟩
  | @poll startMicros polls p hphase hanswer =>
      obtain ⟨hrun, hpolls⟩ := h.collecting startMicros polls hphase
      apply h.withPhase (h.sender (by simp [hphase]))
      intro _ polls' hcollecting
      cases hcollecting
      refine ⟨hrun, ?_⟩
      intro x hx hin q hq d hd haccepted hserial
      rcases List.mem_append.mp hq with hq | hq
      · exact hpolls x hx hin q hq d hd haccepted hserial
      · obtain rfl := List.mem_singleton.mp hq
        obtain ⟨b, hb, hhashed⟩ := hanswer d hd haccepted (hserial ▸ hx)
        have hsame := (UpdatePingAck.sameFields_of_hashed hhashed).serial
        exact covered_of_hashed hhashed (h.acks b hb (by rwa [← hsame, hserial]))
  | @finish startMicros polls hphase =>
      obtain ⟨hrun, hpolls⟩ := h.collecting startMicros polls hphase
      apply h.turn hchunks (h.sender (by simp [hphase])) hrun
      intro _ _ heq
      cases heq
      exact hpolls
  | complete hphase hdone =>
      apply h.withPhase (h.sender (by simp [hphase]))
      intro startMicros polls hcollecting
      cases hcollecting
  | receive x r m hdeliver => exact h.deliver hchunks hdeliver

/-! ## Restarts -/

def restart (t : TransferState) (x : Serial) : TransferState :=
  { t with tasks := Function.update t.tasks x PAnkerTask.start }

@[simp] theorem restart_tasks (t : TransferState) (x : Serial) :
    (t.restart x).tasks = Function.update t.tasks x PAnkerTask.start := rfl

theorem stored_restart (t : TransferState) (x : Serial) :
    (t.restart x).stored S = Function.update (t.stored S) x 0 := by
  funext y
  by_cases hyx : y = x
  · subst hyx
    rw [Function.update_self, stored, restart_tasks, Function.update_self]
    exact storedCount_start _
  · rw [Function.update_of_ne hyx, stored, stored, restart_tasks, Function.update_of_ne hyx]

theorem abstract_restart (t : TransferState) (x : Serial) (restarted : Set Serial) :
    (abstract S (t.restart x)).without (insert x restarted) =
      ((abstract S t).without restarted).forget x := by
  simp only [abstract, stored_restart, StopAndWait.State.without, StopAndWait.State.forget,
    Set.union_insert]
  rfl

theorem covered_restart {x : Serial} {a : UpdatePingAck} (hserial : a.serial ≠ x)
    (ha : t.Covered S a) : (t.restart x).Covered S a := by
  intro htype
  rw [stored_restart, Function.update_of_ne hserial]
  exact ha htype

theorem RestartInv.restart (h : RestartInv S restarted t) (x : Serial) :
    RestartInv S (insert x restarted) (t.restart x) where
  position := h.position
  sender := h.sender
  data := h.data
  acks := by
    intro a ha hserial
    simp only [Set.mem_insert_iff, not_or] at hserial
    exact covered_restart hserial.1 (h.acks a ha hserial.2)
  collecting := by
    intro startMicros polls hphase
    obtain ⟨hrun, hpolls⟩ := h.collecting startMicros polls hphase
    refine ⟨hrun, ?_⟩
    intro y hy hin p hp d hd haccepted hserial
    simp only [Set.mem_insert_iff, not_or] at hin
    apply covered_restart
    · rw [hserial]
      exact hin.1
    · exact hpolls y hy hin.2 p hp d hd haccepted hserial
  lockstep := by
    rw [abstract_restart]
    exact h.lockstep.forget x
  seqErrors := by
    intro a ha htype
    rw [abstract_restart]
    exact Set.mem_insert_of_mem x (h.seqErrors a ha htype)

end TransferState

/-! ## Transfers with restarts -/

/-- A transfer with the versions that the P-Ankers run and the serials of
those that restarted since it began. -/
structure RestartState where
  transfer : TransferState
  version : Serial → List UInt8
  restarted : Set Serial

namespace RestartState

variable (S : Session)

def initial (version : Serial → List UInt8) : RestartState :=
  ⟨TransferState.initial S, version, ∅⟩

/-- The P-Anker `x` comes up again and starts its task, perhaps with
another version. -/
def restart (s : RestartState) (x : Serial) (version : List UInt8) : RestartState :=
  ⟨s.transfer.restart x, Function.update s.version x version, insert x s.restarted⟩

inductive Step : RestartState → RestartState → Prop where
  | transfer (s : RestartState) {t : TransferState}
      (h : TransferState.Step S s.version s.transfer t) : Step s { s with transfer := t }
  | restart (s : RestartState) (x : Serial) (version : List UInt8) :
      Step s (s.restart x version)

def Reachable (version : Serial → List UInt8) (s : RestartState) : Prop :=
  ReflTransGen (Step S) (initial S version) s

variable {S} {version : Serial → List UInt8} {s : RestartState}

/-- A transfer in which nobody restarts. -/
theorem reachable_of_transfer {t : TransferState}
    (h : TransferState.Reachable S version t) : Reachable S version ⟨t, version, ∅⟩ := by
  induction h with
  | refl => exact .refl
  | @tail t t' _ hstep ih => exact ih.tail (.transfer ⟨t, version, ∅⟩ hstep)

theorem Reachable.restartInv (h : Reachable S version s) (hchunks : S.chunkCount ≤ 65535) :
    TransferState.RestartInv S s.restarted s.transfer := by
  induction h with
  | refl => exact TransferState.restartInv_initial
  | tail _ hstep ih =>
      cases hstep with
      | transfer h => exact ih.step hchunks h
      | restart x version => exact ih.restart x

/-- `p` is neither kicked nor was it restarted from outside. -/
structure StillIn (s : RestartState) (p : PAnker) : Prop where
  mem : p ∈ s.transfer.sender.pAnkers
  not_kicked : p.failCnt < maxRetrieveFirmwareAcksFailsToKickAnker
  not_restarted : p.serial ∉ s.restarted

theorem StillIn.not_dropped {p : PAnker} (h : s.StillIn p) :
    p.serial ∉ ((TransferState.abstract S s.transfer).without s.restarted).dropped := by
  rintro (hkicked | hrestarted)
  · have hinactive := hkicked p h.mem rfl
    rw [PAnker.active_iff.mpr h.not_kicked] at hinactive
    cases hinactive
  · exact h.not_restarted hrestarted

/-- The loop and the P-Ankers that are still in agree on the chunk.  A
P-Anker with the whole image restarts by itself and has no `seq` then. -/
structure InLockstep (S : Session) (s : RestartState) : Prop where
  seq : ∀ p, s.StillIn p → (s.transfer.tasks p.serial).phase ≠ .restarted →
    (s.transfer.tasks p.serial).seq.toNat = s.transfer.sender.seq.toNat ∨
      (s.transfer.tasks p.serial).seq.toNat = s.transfer.sender.seq.toNat + 1
  offset : s.transfer.sender.offset < S.size →
    s.transfer.sender.offset = s.transfer.sender.seq.toNat * dataMaxLen
  noSeqError : ∀ p, s.StillIn p → ∀ a ∈ s.transfer.acks, a.serial = p.serial →
    a.type ≠ AckType.seqError.code

/-- In every state of a transfer the loop is in lockstep with all P-Ankers
that are neither kicked nor restarted. -/
theorem inLockstep (S : Session) (version : Serial → List UInt8)
    (hchunks : S.chunkCount ≤ 65535) (s : RestartState) (hreach : Reachable S version s) :
    InLockstep S s := by
  have hinv := hreach.restartInv hchunks
  constructor
  · intro p hp hphase
    have hreached := hinv.lockstep.reached p.serial hp.not_dropped
    have hbounded := hinv.lockstep.bounded p.serial
    have hstored : s.transfer.stored S p.serial = (s.transfer.tasks p.serial).seq.toNat :=
      storedCount_of_ne hphase
    simp only [StopAndWait.State.without, TransferState.abstract, hstored,
      TransferState.position] at hreached hbounded
    omega
  · intro hrun
    have hoffset := hinv.position.2
    rw [hoffset, Session.chunkOffset] at hrun ⊢
    rw [TransferState.position] at *
    omega
  · intro p hp a ha hserial htype
    have hdropped := hinv.seqErrors a ha htype
    rw [hserial] at hdropped
    exact hp.not_dropped hdropped

/-- The only P-Anker expects the second of three chunks, which the loop is
about to send. -/
theorem inLockstep_second_chunk : ∃ s p,
    Reachable (Session.single (List.replicate 2801 3)) (fun _ ↦ [1, 0]) s ∧
      s.StillIn p ∧ s.transfer.sender.seq = 1 ∧ (s.transfer.tasks p.serial).phase = .running ∧
      InLockstep (Session.single (List.replicate 2801 3)) s := by
  have hcount : (Session.single (List.replicate 2801 3)).chunkCount = 3 := by
    rw [Session.chunkCount, Session.single_size, List.length_replicate]
    decide
  have hchunks : (Session.single (List.replicate 2801 3)).chunkCount ≤ 65535 := by
    rw [hcount]
    decide
  have hle : 1 ≤ (Session.single (List.replicate 2801 3)).chunkCount := by
    rw [hcount]
    decide
  have hlt : 1 < (Session.single (List.replicate 2801 3)).chunkCount := by
    rw [hcount]
    decide
  obtain ⟨t, ht⟩ := TransferState.exists_inSync
    (S := Session.single (List.replicate 2801 3)) (fun _ ↦ [1, 0]) rfl hle
  have hreach := reachable_of_transfer ht.reachable
  refine ⟨⟨t, fun _ ↦ [1, 0], ∅⟩, _, hreach, ⟨?_, ?_, Set.notMem_empty _⟩, ht.seq,
    (ht.task hlt).1, inLockstep _ _ hchunks _ hreach⟩
  · simp [ht.pAnkers]
  · exact Nat.succ_pos 4

end RestartState

end AnkerUpdater
