import AnkerUpdater.Protocol.Transfer

/-!
# A transfer without loss

For one P-Anker and a network that delivers every datagram once, each
round moves the loop and the task on by one chunk, so the call returns
UPDATER_OK.
-/

namespace AnkerUpdater

open Relation UploadLog PAnkerTask

namespace TransferState

variable {S : Session} {version : Serial → List UInt8} {p : PAnker} {k : ℕ} {t : TransferState}

structure InSync (S : Session) (version : Serial → List UInt8) (p : PAnker) (k : ℕ)
    (t : TransferState) : Prop where
  reachable : Reachable S version t
  phase : t.phase = .looping
  sender : S.SendInv t.sender
  seq : t.sender.seq = UInt16.ofNat k
  offset : t.sender.offset = S.chunkOffset k
  pAnkers : t.sender.pAnkers = [p]
  task : k < S.chunkCount → (t.tasks p.serial).phase = .running ∧
    (t.tasks p.serial).seq = UInt16.ofNat k ∧ (k = 0 ∨ isOpen (t.tasks p.serial).calls = true)

theorem exists_inSync_zero (hsingle : S.pAnkers = [p]) : ∃ t, InSync S version p 0 t := by
  refine ⟨_, .single (.setup (initial S) true rfl), rfl, S.sendInv_start, rfl, ?_, hsingle, ?_⟩
  · simp [initial, Session.start, Session.chunkOffset]
  · intro _
    exact ⟨rfl, rfl, Or.inl rfl⟩

/-- The only P-Anker is heard, so the round advances. -/
theorem InSync.turn (h : InSync S version p k t) (hfail : p.failCnt = 0) :
    S.turn t.sender (.round 0 [answer S.sha256 t.sender.seq ⟨p.serial, version p.serial⟩]) =
      .next { S.sent t.sender with
        allAcksFailCnt := 0
        offset := t.sender.offset + S.dataLen t.sender.offset
        seq := t.sender.seq + 1
        pAnkers := t.sender.pAnkers.map fun q ↦ { q with failCnt := 0 } } := by
  let anker : Anker := ⟨p.serial, version p.serial⟩
  have hremaining : t.sender.numRemaining = 1 := by
    rw [h.sender.remaining, h.pAnkers]
    simp [PAnker.active, PAnker.kicked, hfail, maxRetrieveFirmwareAcksFailsToKickAnker]
  have hacks : S.roundAcks t.sender 0 [answer S.sha256 t.sender.seq anker] =
      [⟨p.serial, 0, true, 0⟩] := by
    have hnodup : ([anker].map Anker.serial).Nodup := List.nodup_singleton anker.serial
    exact S.roundAcks_answers t.sender hnodup hremaining.ge
  apply h.sender.turn_of_acked
  rw [h.pAnkers, hacks]
  simp [Acked, PAnker.active, PAnker.kicked, hfail, maxRetrieveFirmwareAcksFailsToKickAnker]

/-- The steps of one round: the chunk is sent, the P-Anker `x` gets it and
acknowledges it, and the loop hears that. -/
theorem Reachable.round (h : Reachable S version t) (hphase : t.phase = .looping)
    (hrun : t.sender.offset < S.size) {x : Serial} {task : PAnkerTask}
    (hreceive : (t.tasks x).receive S.sha256 ⟨x, version x⟩ LibResults.allOk
        (S.firmwareDatagram t.sender) =
      (task, [ackInfo S.sha256 ⟨x, version x⟩ .rcvdBinaryData t.sender.seq]))
    {s' : SendState}
    (hturn : S.turn t.sender (.round 0 [answer S.sha256 t.sender.seq ⟨x, version x⟩]) = .next s') :
    ∃ t', Reachable S version t' ∧ t'.phase = .looping ∧ t'.sender = s' ∧ t'.tasks x = task := by
  let m := S.firmwareDatagram t.sender
  let t₁ : TransferState := { t with phase := .collecting 0 [], data := t.data ++ [m] }
  let t₂ := t₁.deliver S version x LibResults.allOk m
  let poll := answer S.sha256 t.sender.seq ⟨x, version x⟩
  let t₃ : TransferState := { t₂ with phase := .collecting 0 ([] ++ [poll]) }
  have h₁ : Step S version t t₁ := .broadcast t 0 hphase hrun
  have h₂ : Step S version t₁ t₂ :=
    .receive t₁ x LibResults.allOk m fun _ ↦ ⟨m, by simp [t₁], rfl⟩
  have hack : ackInfo S.sha256 ⟨x, version x⟩ .rcvdBinaryData t.sender.seq ∈ t₂.acks := by
    simp [t₂, t₁, m, TransferState.deliver, hreceive]
  have h₃ : Step S version t₂ t₃ := by
    apply Step.poll t₂ poll rfl
    intro d hd _ _
    obtain rfl : (⟨0, ackInfo S.sha256 ⟨x, version x⟩ .rcvdBinaryData t.sender.seq⟩ :
        AckDatagram) = d := by
      simpa [poll, answer] using hd
    exact ⟨_, hack, rfl⟩
  have h₄ : Step S version t₃ (t₃.continueWith (S.turn t₃.sender (.round 0 ([] ++ [poll])))) :=
    .finish t₃ rfl
  have hflow : S.turn t₃.sender (.round 0 ([] ++ [poll])) = .next s' := hturn
  rw [hflow] at h₄
  refine ⟨_, (((h.tail h₁).tail h₂).tail h₃).tail h₄, rfl, rfl, ?_⟩
  simp [continueWith, t₃, t₂, t₁, m, TransferState.deliver, hreceive]

theorem InSync.round (h : InSync S version p k t) (hfail : p.failCnt = 0)
    (hk : k < S.chunkCount) : ∃ t', InSync S version p (k + 1) t' := by
  have hrun : t.sender.offset < S.size := by
    rw [h.offset]
    exact S.chunkOffset_lt_size_iff.mpr hk
  obtain ⟨hphase, hseq, hopen⟩ := h.task hk
  have hopen : (t.tasks p.serial).seq = 0 ∨ isOpen (t.tasks p.serial).calls = true := by
    rw [hseq]
    exact hopen.imp_left fun hzero ↦ by simp [hzero]
  -- the datagram of the round and what the task answers to it
  let m := S.firmwareDatagram t.sender
  have hsame : (t.tasks p.serial).seq = t.sender.seq := hseq.trans h.seq.symm
  have hfirmware : m.acceptedFirmware S.sha256 := ⟨updatePingInfo_accepted _ _ _ _ _ _ _, rfl⟩
  obtain ⟨task, hreceive, htask⟩ :=
    receive_expected ⟨p.serial, version p.serial⟩ hphase hfirmware hsame hopen
  rw [hsame] at hreceive
  have hturn := h.turn hfail
  obtain ⟨t', hreach, hphase', hsender, htask'⟩ := h.reachable.round h.phase hrun hreceive hturn
  refine ⟨t', hreach, hphase', ?_, ?_, ?_, ?_, ?_⟩
  · rw [hsender]
    exact h.sender.turn hrun hturn
  · simp [hsender, h.seq]
  · simp only [hsender, h.offset]
    exact S.chunkOffset_add_dataLen k
  · simp only [hsender, h.pAnkers, List.map_singleton, ← hfail]
  · intro hnext
    have hlast : m.isLast = 0 := by
      by_contra hlast
      obtain ⟨hfinal, -⟩ := (S.overrunsAt_chunkOffset hk).mp
        (h.offset ▸ h.sender.isLast_iff.mp hlast)
      omega
    obtain ⟨hrunning, hseq', hopen'⟩ := htask hlast
    rw [htask', hseq', hseq]
    exact ⟨hrunning, by simp, Or.inr hopen'⟩

theorem exists_inSync (version : Serial → List UInt8) (hsingle : S.pAnkers = [p])
    (hk : k ≤ S.chunkCount) : ∃ t, InSync S version p k t := by
  have hfail : p.failCnt = 0 := S.fresh p (by simp [hsingle])
  induction k with
  | zero => exact exists_inSync_zero hsingle
  | succ k ih =>
      obtain ⟨t, ht⟩ := ih (Nat.le_of_succ_le hk)
      exact ht.round hfail hk

theorem exists_returned_ok (version : Serial → List UInt8) (hsingle : S.pAnkers = [p]) :
    ∃ t, Reachable S version t ∧ t.phase = .returned .ok ∧ t.sender.pAnkers = [p] := by
  obtain ⟨t, ht⟩ := exists_inSync version hsingle le_rfl
  have hdone : ¬ t.sender.offset < S.size := by
    rw [ht.offset, S.chunkOffset_lt_size_iff]
    exact lt_irrefl _
  exact ⟨_, ht.reachable.tail (.complete t ht.phase hdone), rfl, ht.pAnkers⟩

end TransferState

/-- A call for the running partition `image` and one P-Anker. -/
def Session.single (image : List UInt8) : Session where
  sha256 := headHash
  own := ⟨Vector.replicate serialSize 1, [2, 0]⟩
  runningPartition := image
  pAnkers := [⟨Vector.replicate serialSize 7, 0, false, 0⟩]
  pAnkers_ne_nil := by simp
  length_le := by simp
  nodup := by simp
  fresh := by simp

@[simp] theorem Session.single_size (image : List UInt8) :
    (Session.single image).size = image.length := rfl

end AnkerUpdater
