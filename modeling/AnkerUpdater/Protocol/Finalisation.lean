import AnkerUpdater.Protocol.Agreement

/-!
# The flag on the final chunk

A P-Anker ends its OTA session only for a chunk that carries `is_last`.
The loop computes the flag from `offset + data_len > size`, which holds
for the final chunk unless the size is a multiple of `DATA_MAX_LEN`.
-/

namespace AnkerUpdater

open Relation UploadLog PAnkerTask

namespace PAnkerTask

/-- With a flagged final chunk, a task gets past it only by the restart,
and then it has ended the session and set the boot partition. -/
structure FinalInv (n : ℕ) (t : PAnkerTask) : Prop where
  seq_lt : t.phase ≠ .restarted → t.seq.toNat < n
  finished : t.phase = .restarted → .finish true ∈ t.calls ∧ .activate true ∈ t.calls

theorem finalInv_start {n : ℕ} (hn : 0 < n) : FinalInv n start where
  seq_lt _ := hn
  finished h := by simp [start] at h

theorem FinalInv.receive {sha256 : Sha256} {own : Anker} {r : LibResults} {m : UpdatePingInfo}
    {t : PAnkerTask} {n : ℕ} (h : FinalInv n t) (hn : n ≤ 65535)
    (hlast : m.acceptedFirmware sha256 → m.seq.toNat + 1 = n → m.isLast ≠ 0) :
    FinalInv n (t.receive sha256 own r m).1 := by
  have hkeep : ∀ t' : PAnkerTask, t.phase = .running → t'.phase ≠ .restarted → t'.seq = t.seq →
      FinalInv n t' := by
    intro t' hphase hphase' hseq
    refine ⟨fun _ ↦ ?_, fun hr ↦ absurd hr hphase'⟩
    rw [hseq]
    exact h.seq_lt (by simp [hphase])
  obtain ⟨t', acks, heq, hout⟩ := receive_outcome sha256 own r m t
  rw [heq]
  cases hout with
  | ignored => exact h
  | answered type seq htype => exact h
  | deleted type hphase htype => exact hkeep _ hphase (by simp) rfl
  | resent hphase hfirmware hseq => exact h
  | store _ type hphase hfirmware hseq hstore =>
      have hlt := h.seq_lt (by simp [hphase])
      cases hstore with
      | noPartition hzero => exact h
      | beginFailed hzero => exact hkeep _ hphase (by simp [hphase]) (by simp)
      | writeFailed => exact hkeep _ hphase (by simp [hphase]) (by simp)
      | stored hopen hflag =>
          have hnot : m.seq.toNat + 1 ≠ n := fun hfinal ↦ hlast hfirmware hfinal hflag
          have hsucc := toNat_succ_of_lt hlt hn
          rw [← hseq] at hnot
          refine ⟨fun _ ↦ ?_, fun hr ↦ ?_⟩
          · simp only [hsucc]
            omega
          · simp [hphase] at hr
      | endFailed hopen hflag => exact hkeep _ hphase (by simp [hphase]) (by simp)
      | setBootFailed hopen hflag => exact hkeep _ hphase (by simp [hphase]) (by simp)
      | restarted hopen hflag => exact ⟨fun hr ↦ absurd rfl hr, fun _ ↦ ⟨by simp, by simp⟩⟩

end PAnkerTask

namespace TransferState

variable {S : Session} {version : Serial → List UInt8} {t t' : TransferState}

def sentCount (t : TransferState) : ℕ :=
  match t.phase with
  | .collecting _ _ => t.position + 1
  | _ => t.position

structure FlagInv (S : Session) (t : TransferState) : Prop where
  flags : ∀ m ∈ t.data, m.isLast ≠ 0 ↔
    m.seq.toNat + 1 = S.chunkCount ∧ S.size % dataMaxLen ≠ 0
  sent : ∀ k < t.sentCount, ∃ m ∈ t.data, m.seq.toNat = k
  tasks : S.size % dataMaxLen ≠ 0 → ∀ x, FinalInv S.chunkCount (t.tasks x)

theorem flagInv_initial (hsize : 0 < S.size) : FlagInv S (initial S) where
  flags := by simp [initial]
  sent := by simp [initial, sentCount, position, Session.start]
  tasks _ _ := by
    apply finalInv_start
    simp only [Session.chunkCount, dataMaxLen]
    omega

theorem seq_of_turn {s s' : SendState} {turn : Turn} (h : S.turn s turn = .next s') :
    s'.seq = s.seq ∨ (∃ startMicros polls, turn = .round startMicros polls) ∧
      s'.seq = s.seq + 1 := by
  cases Session.turn_outcome h with
  | advanced startMicros polls hacks hremaining hcorrect =>
      exact Or.inr ⟨⟨startMicros, polls, rfl⟩, rfl⟩
  | _ => exact Or.inl rfl

theorem FlagInv.turn (hflag : FlagInv S t) (hinv : TransferInv S t)
    (hchunks : S.chunkCount ≤ 65535) (hrun : t.sender.offset < S.size) {turn : Turn}
    (hsent : (∃ startMicros polls, turn = .round startMicros polls) →
      t.sentCount = t.position + 1)
    (hok : (t.continueWith (S.turn t.sender turn)).phase ≠ .returned .error) :
    FlagInv S (t.continueWith (S.turn t.sender turn)) := by
  cases hflow : S.turn t.sender turn with
  | exit rc s' =>
      obtain rfl := Session.turn_exit hflow
      rw [hflow] at hok
      exact absurd rfl hok
  | next s' =>
      refine ⟨hflag.flags, ?_, hflag.tasks⟩
      intro k hk
      have hk : k < s'.seq.toNat := hk
      have hlt := hinv.sender.seq_lt hchunks hrun
      have hle : t.position ≤ t.sentCount := by
        rw [sentCount]
        split <;> omega
      apply hflag.sent
      rcases seq_of_turn hflow with hsame | ⟨hround, hnext⟩
      · rw [hsame] at hk
        exact lt_of_lt_of_le hk hle
      · rw [hnext, toNat_succ_of_lt hlt hchunks] at hk
        rw [hsent hround]
        exact hk

theorem FlagInv.step (hflag : FlagInv S t) (hinv : TransferInv S t)
    (hchunks : S.chunkCount ≤ 65535) (hstep : Step S version t t')
    (hok : t'.phase ≠ .returned .error) : FlagInv S t' := by
  cases hstep with
  | setup ok hphase =>
      refine ⟨hflag.flags, ?_, hflag.tasks⟩
      have hsent := hflag.sent
      cases ok <;> simpa [sentCount, hphase, position] using hsent
  | readFailed hphase hrun =>
      exact hflag.turn hinv hchunks hrun (by rintro ⟨_, _, heq⟩; cases heq) hok
  | sendFailed hphase hrun =>
      exact hflag.turn hinv hchunks hrun (by rintro ⟨_, _, heq⟩; cases heq) hok
  | broadcast startMicros hphase hrun =>
      have hlt := hinv.sender.seq_lt hchunks hrun
      obtain ⟨-, hoffset⟩ := hinv.sender.seq_le hchunks
      refine ⟨?_, ?_, hflag.tasks⟩
      · intro m hm
        rcases List.mem_append.mp hm with hm | hm
        · exact hflag.flags m hm
        · obtain rfl := List.mem_singleton.mp hm
          rw [hinv.sender.isLast_iff, hoffset]
          exact S.overrunsAt_chunkOffset hlt
      · intro k hk
        have hk : k < t.position + 1 := hk
        rcases Nat.lt_succ_iff_lt_or_eq.mp hk with hk | rfl
        · obtain ⟨m, hm, hseq⟩ := hflag.sent k (by simpa [sentCount, hphase] using hk)
          exact ⟨m, List.mem_append_left _ hm, hseq⟩
        · exact ⟨S.firmwareDatagram t.sender, by simp, rfl⟩
  | @poll startMicros polls p hphase hanswer =>
      refine ⟨hflag.flags, ?_, hflag.tasks⟩
      intro k hk
      apply hflag.sent
      simpa [sentCount, position, hphase] using hk
  | @finish startMicros polls hphase =>
      obtain ⟨hrun, -⟩ := hinv.collecting startMicros polls hphase
      exact hflag.turn hinv hchunks hrun (fun _ ↦ by simp [sentCount, hphase]) hok
  | complete hphase hdone =>
      refine ⟨hflag.flags, ?_, hflag.tasks⟩
      intro k hk
      apply hflag.sent
      simpa [sentCount, position, hphase] using hk
  | receive x r m hdeliver =>
      refine ⟨hflag.flags, hflag.sent, ?_⟩
      intro hmod y
      by_cases hne : y = x
      · subst hne
        rw [deliver_tasks_self]
        apply (hflag.tasks hmod y).receive hchunks
        intro hfirmware hfinal
        obtain ⟨d, hd, hhashed⟩ := hdeliver hfirmware
        obtain ⟨-, -, hseq, hlast, -, -⟩ := UpdatePingInfo.sameFields_of_hashed hhashed
        rw [hlast]
        exact (hflag.flags d hd).mpr ⟨hseq ▸ hfinal, hmod⟩
      · rw [deliver_tasks_of_ne hne]
        exact hflag.tasks hmod y

theorem Reachable.flagInv (h : Reachable S version t) (hsize : 0 < S.size)
    (hchunks : S.chunkCount ≤ 65535) (hok : t.phase ≠ .returned .error) : FlagInv S t := by
  induction h with
  | refl => exact flagInv_initial hsize
  | tail hreach hstep ih =>
      have hok' : _ ≠ SendPhase.returned .error := fun hfailed ↦
        hok (step_of_failed hfailed hstep)
      have hinv := (Reachable.lockstep hreach hchunks hok').1
      exact (ih hok').step hinv hchunks hstep hok

/-! ## When a transfer is finalised -/

def AckedAll (t : TransferState) (p : PAnker) : Prop :=
  ∀ m ∈ t.data, ∃ a ∈ t.acks, a.type = AckType.rcvdBinaryData.code ∧ a.serial = p.serial ∧
    a.seq = m.seq

/-- The chunk sent with the highest number is flagged and no lower one is,
and whoever acknowledged all chunks has ended its session and set its boot
partition. -/
structure Finalised (S : Session) (t : TransferState) : Prop where
  highest : ∀ m ∈ t.data, (∀ m' ∈ t.data, m'.seq ≤ m.seq) → m.isLast ≠ 0
  lower : ∀ m ∈ t.data, (∃ m' ∈ t.data, m.seq < m'.seq) → m.isLast = 0
  finished : ∀ p ∈ S.pAnkers, t.AckedAll p →
    (∃ ok, .finish ok ∈ (t.tasks p.serial).calls) ∧
      ∃ ok, .activate ok ∈ (t.tasks p.serial).calls

/-- What a finished call has sent: chunks below `chunkCount`, among them
the final one. -/
theorem Reachable.final_sent (h : Reachable S version t) (hsize : 0 < S.size)
    (hchunks : S.chunkCount ≤ 65535) (hok : t.phase = .returned .ok) :
    (∀ m ∈ t.data, m.seq.toNat < S.chunkCount) ∧
      ∃ m ∈ t.data, m.seq.toNat + 1 = S.chunkCount := by
  obtain ⟨hinv, -⟩ := h.lockstep hchunks (by simp [hok])
  have hflag := h.flagInv hsize hchunks (by simp [hok])
  constructor
  · intro m hm
    have hlt := UpdatePingInfo.ChunkOf.seq_lt (hinv.data m hm).1
    rwa [S.chunks_length] at hlt
  · obtain ⟨-, hoffset⟩ := hinv.sender.seq_le hchunks
    have hdone := hinv.returned hok
    rw [hoffset, S.chunkOffset_lt_size_iff] at hdone
    have hpos : 0 < S.chunkCount := by
      simp only [Session.chunkCount, dataMaxLen]
      omega
    obtain ⟨m, hm, hseq⟩ := hflag.sent (S.chunkCount - 1) (by
      simp only [sentCount, hok, position]
      omega)
    exact ⟨m, hm, by omega⟩

theorem Reachable.finalised (h : Reachable S version t) (hsize : 0 < S.size)
    (hchunks : S.chunkCount ≤ 65535) (hok : t.phase = .returned .ok)
    (hmod : S.size % dataMaxLen ≠ 0) : Finalised S t := by
  obtain ⟨hinv, -⟩ := h.lockstep hchunks (by simp [hok])
  have hflag := h.flagInv hsize hchunks (by simp [hok])
  obtain ⟨hbelow, final, hfinal, hcount⟩ := h.final_sent hsize hchunks hok
  refine ⟨?_, ?_, ?_⟩
  · intro m hm hhighest
    have hle := UInt16.le_iff_toNat_le.mp (hhighest final hfinal)
    have hlt := hbelow m hm
    exact (hflag.flags m hm).mpr ⟨by omega, hmod⟩
  · intro m hm hlower
    obtain ⟨m', hm', hlt⟩ := hlower
    have hlt := UInt16.lt_iff_toNat_lt.mp hlt
    have hlt' := hbelow m' hm'
    by_contra hlast
    have hseq := ((hflag.flags m hm).mp hlast).1
    omega
  · intro p _ hacked
    obtain ⟨a, ha, htype, hserial, hseq⟩ := hacked final hfinal
    have hstored := hinv.acks a ha htype
    rw [hserial, hseq] at hstored
    have htask := hflag.tasks hmod p.serial
    have hphase : (t.tasks p.serial).phase = .restarted := by
      by_contra hphase
      have hlt := htask.seq_lt hphase
      rw [stored, storedCount_of_ne hphase] at hstored
      omega
    obtain ⟨hend, hboot⟩ := htask.finished hphase
    exact ⟨⟨true, hend⟩, ⟨true, hboot⟩⟩

theorem Reachable.mod_of_finalised (h : Reachable S version t) (hsize : 0 < S.size)
    (hchunks : S.chunkCount ≤ 65535) (hok : t.phase = .returned .ok) (hfinalised : Finalised S t) :
    S.size % dataMaxLen ≠ 0 := by
  have hflag := h.flagInv hsize hchunks (by simp [hok])
  obtain ⟨hbelow, final, hfinal, hcount⟩ := h.final_sent hsize hchunks hok
  have hlast : final.isLast ≠ 0 := by
    apply hfinalised.highest final hfinal
    intro m hm
    have hlt := hbelow m hm
    exact UInt16.le_iff_toNat_le.mpr (by omega)
  exact ((hflag.flags final hfinal).mp hlast).2

/-- A call that returned UPDATER_OK has finalised the transfer exactly if
the size of the partition is not a multiple of `DATA_MAX_LEN`. -/
theorem finalised_iff (S : Session) (version : Serial → List UInt8) (hsize : 0 < S.size)
    (hchunks : S.chunkCount ≤ 65535) (t : TransferState) (hreach : Reachable S version t)
    (hok : t.phase = .returned .ok) : Finalised S t ↔ S.size % dataMaxLen ≠ 0 :=
  ⟨hreach.mod_of_finalised hsize hchunks hok, hreach.finalised hsize hchunks hok⟩

theorem finalised_single : ∃ t,
    Reachable (Session.single (List.replicate 4096 3)) (fun _ ↦ [1, 0]) t ∧
      t.phase = .returned .ok ∧ Finalised (Session.single (List.replicate 4096 3)) t := by
  have hsize : (Session.single (List.replicate 4096 3)).size = 4096 := by
    rw [Session.single_size, List.length_replicate]
  have hchunks : (Session.single (List.replicate 4096 3)).chunkCount ≤ 65535 := by
    rw [Session.chunkCount, hsize]
    decide
  obtain ⟨t, hreach, hok, -⟩ := exists_returned_ok
    (S := Session.single (List.replicate 4096 3)) (fun _ ↦ [1, 0]) rfl
  refine ⟨t, hreach, hok, ?_⟩
  apply (finalised_iff _ _ (by rw [hsize]; decide) hchunks t hreach hok).mpr
  rw [hsize]
  decide

/-- A partition of 175 flash sectors is 512 full chunks, and no chunk of it
is flagged. -/
theorem not_finalised_716800 : ∃ t,
    Reachable (Session.single (List.replicate 716800 3)) (fun _ ↦ [1, 0]) t ∧
      t.phase = .returned .ok ∧ ¬ Finalised (Session.single (List.replicate 716800 3)) t := by
  have hsize : (Session.single (List.replicate 716800 3)).size = 716800 := by
    rw [Session.single_size, List.length_replicate]
  have hchunks : (Session.single (List.replicate 716800 3)).chunkCount ≤ 65535 := by
    rw [Session.chunkCount, hsize]
    decide
  obtain ⟨t, hreach, hok, -⟩ := exists_returned_ok
    (S := Session.single (List.replicate 716800 3)) (fun _ ↦ [1, 0]) rfl
  refine ⟨t, hreach, hok, fun hfinalised ↦ ?_⟩
  have hmod := hreach.mod_of_finalised (by rw [hsize]; decide) hchunks hok hfinalised
  rw [hsize] at hmod
  exact hmod (by decide)

end TransferState

end AnkerUpdater
