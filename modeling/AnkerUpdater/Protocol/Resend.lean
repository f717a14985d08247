import AnkerUpdater.Lib.Runs
import AnkerUpdater.Protocol.ReceiverInvariant

/-!
# Acknowledging without storing

A running task takes every firmware datagram below its `seq` for a resend
and acknowledges it unseen, and stores every one at its `seq`.  Nothing in it
says which session or which sender the number belongs to.
-/

namespace AnkerUpdater.PAnkerTask

open UploadLog

variable {sha256 : Sha256} {own : Anker} {t : PAnkerTask} {m : UpdatePingInfo} {r : LibResults}

def receiveStep (sha256 : Sha256) (own : Anker) (t : PAnkerTask)
    (x : UpdatePingInfo × LibResults) : PAnkerTask :=
  (t.receive sha256 own x.2 x.1).1

/-- If the datagram is acknowledged under its number, its data is what the
session of the task holds under this number. -/
def AcksStored (sha256 : Sha256) (own : Anker) (t : PAnkerTask)
    (x : UpdatePingInfo × LibResults) : Prop :=
  ackInfo sha256 own .rcvdBinaryData x.1.seq ∈ (t.receive sha256 own x.2 x.1).2 →
    (pieces (receiveStep sha256 own t x).calls)[x.1.seq.toNat]? = some x.1.payload

/-- A datagram that looks like a resend is one. -/
def ResendsStored (sha256 : Sha256) (t : PAnkerTask) (x : UpdatePingInfo × LibResults) : Prop :=
  t.phase = .running → x.1.acceptedFirmware sha256 → x.1.seq < t.seq →
    (pieces t.calls)[x.1.seq.toNat]? = some x.1.payload

/-- An open session holds as many chunks as `seq` says, unless the task is
about to begin a new one. -/
def SeqCounts (t : PAnkerTask) : Prop :=
  t.seq ≠ 0 → isOpen t.calls = true → (pieces t.calls).length = t.seq.toNat

theorem seqCounts_start : start.SeqCounts := fun h ↦ absurd rfl h

theorem SeqCounts.opened (h : t.SeqCounts) (hopen : isOpen t.opened.calls = true) :
    (pieces t.opened.calls).length = t.seq.toNat := by
  by_cases hseq : t.seq = 0
  · simp [PAnkerTask.opened, hseq]
  · rw [PAnkerTask.opened, if_neg hseq] at hopen ⊢
    exact h hseq hopen

theorem toNat_succ_of_ne_zero {x : UInt16} (h : x + 1 ≠ 0) : (x + 1).toNat = x.toNat + 1 := by
  have hlt : x.toNat + 1 < 65536 := by
    by_contra hle
    have hx := x.toNat_lt
    apply h
    rw [← UInt16.toNat_inj, UInt16.toNat_add, show (1 : UInt16).toNat = 1 from rfl,
      show (0 : UInt16).toNat = 0 from rfl]
    omega
  rw [UInt16.toNat_add, show (1 : UInt16).toNat = 1 from rfl]
  omega

theorem SeqCounts.store {t' : PAnkerTask} {type : AckType} (h : t.SeqCounts)
    (hout : StoreOutcome m t t' type) : t'.SeqCounts := by
  cases hout with
  | noPartition hzero => exact h
  | beginFailed hzero => exact fun hseq ↦ absurd hzero hseq
  | writeFailed =>
      intro hseq hopen
      simp only [log_calls, isOpen_write, log_seq, opened_seq, pieces_write_false] at hopen ⊢
      exact h.opened hopen
  | stored hopen hlast =>
      intro hseq _
      have hcount := h.opened hopen
      simp only [log_calls, pieces_write_true, List.length_append, List.length_singleton, hcount]
      exact (toNat_succ_of_ne_zero hseq).symm
  | endFailed hopen hlast =>
      intro _ hclosed
      simp only [log_calls, isOpen_finish, Bool.false_eq_true] at hclosed
  | setBootFailed hopen hlast =>
      intro _ hclosed
      simp only [log_calls, isOpen_activate, isOpen_finish, Bool.false_eq_true] at hclosed
  | restarted hopen hlast =>
      intro _ hclosed
      simp only [log_calls, isOpen_activate, isOpen_finish, Bool.false_eq_true] at hclosed

theorem SeqCounts.receive (h : t.SeqCounts) (x : UpdatePingInfo × LibResults) :
    (receiveStep sha256 own t x).SeqCounts := by
  obtain ⟨t', acks, heq, hout⟩ := receive_outcome sha256 own x.2 x.1 t
  rw [receiveStep, heq]
  cases hout with
  | ignored => exact h
  | answered type seq htype => exact h
  | deleted type hphase htype => exact h
  | resent hphase hfirmware hseq => exact h
  | store _ type hphase hfirmware hseq hstore => exact h.store hstore

theorem StoreOutcome.stored_of_rcvd {t' : PAnkerTask} (h : t.SeqCounts) (hseq : t.seq = m.seq)
    (hout : StoreOutcome m t t' .rcvdBinaryData) :
    (pieces t'.calls)[m.seq.toNat]? = some m.payload := by
  cases hout with
  | stored hopen hlast =>
      rw [← hseq, ← h.opened hopen]
      simp only [log_calls, pieces_write_true, List.getElem?_concat_length]
  | restarted hopen hlast =>
      rw [← hseq, ← h.opened hopen]
      simp only [log_calls, pieces_activate, pieces_finish, pieces_write_true,
        List.getElem?_concat_length]

theorem eq_of_ackInfo_eq {type type' : AckType} {seq seq' : UInt16}
    (h : ackInfo sha256 own type seq = ackInfo sha256 own type' seq') :
    type = type' ∧ seq = seq' :=
  ⟨AckType.code_injective (congrArg UpdatePingAck.type h), congrArg UpdatePingAck.seq h⟩

theorem receive_resend (own : Anker) (r : LibResults) (hphase : t.phase = .running)
    (hfirmware : m.acceptedFirmware sha256) (hlt : m.seq < t.seq) :
    t.receive sha256 own r m = (t, [ackInfo sha256 own .rcvdBinaryData m.seq]) := by
  obtain ⟨haccepted, htype⟩ := hfirmware
  simp only [UpdatePingInfo.accepted, Bool.and_eq_true, decide_eq_true_eq] at haccepted
  have hne : t.seq ≠ m.seq := by
    intro hseq
    rw [hseq] at hlt
    exact UInt16.lt_irrefl _ hlt
  simp [receive, firmwareData, hphase, haccepted, htype, hne, hlt]

/-- In one step, only the answer to a resend can be wrong. -/
theorem acksStored_iff (h : t.SeqCounts) (x : UpdatePingInfo × LibResults) :
    AcksStored sha256 own t x ↔ ResendsStored sha256 t x := by
  constructor
  · intro hacks hphase hfirmware hlt
    have hreceive := receive_resend own x.2 hphase hfirmware hlt
    rw [AcksStored, receiveStep] at hacks
    rw [hreceive] at hacks
    exact hacks List.mem_cons_self
  · intro hresends
    obtain ⟨t', acks, heq, hout⟩ := receive_outcome sha256 own x.2 x.1 t
    rw [AcksStored, receiveStep]
    rw [heq]
    intro hack
    obtain ⟨answer, hanswer, hinfo⟩ := List.mem_map.mp hack
    obtain ⟨htype, -⟩ := eq_of_ackInfo_eq hinfo
    cases hout with
    | ignored => exact absurd hanswer List.not_mem_nil
    | answered type seq hne =>
        rw [List.mem_singleton.mp hanswer] at htype
        exact absurd htype hne
    | deleted type hphase hne =>
        rw [List.mem_singleton.mp hanswer] at htype
        exact absurd htype hne
    | resent hphase hfirmware hlt => exact hresends hphase hfirmware hlt
    | store _ type hphase hfirmware hseq hstore =>
        rw [List.mem_singleton.mp hanswer] at htype
        obtain rfl : type = .rcvdBinaryData := htype
        exact hstore.stored_of_rcvd h hseq

theorem receive_eq_storeChunk (own : Anker) (r : LibResults) (hphase : t.phase = .running)
    (hfirmware : m.acceptedFirmware sha256) (hseq : t.seq = m.seq) :
    t.receive sha256 own r m = t.storeChunk sha256 own r m := by
  obtain ⟨haccepted, htype⟩ := hfirmware
  simp only [UpdatePingInfo.accepted, Bool.and_eq_true, decide_eq_true_eq] at haccepted
  simp [receive, firmwareData, hphase, haccepted, htype, hseq]

/-! ## Chunks of several images -/

section

variable {ι : Type*} {image : ι} {s : PAnkerTask × List (ι × UpdatePingInfo × LibResults)}
  {log more : List (ι × UpdatePingInfo × LibResults)} {chunks : List (List UInt8)}

/-- A datagram of the log says that chunk `k` of the image is `bytes`. -/
def Supplies (sha256 : Sha256) (log : List (ι × UpdatePingInfo × LibResults)) (image : ι) (k : ℕ)
    (bytes : List UInt8) : Prop :=
  ∃ x ∈ log, x.1 = image ∧ x.2.1.acceptedFirmware sha256 ∧ x.2.1.seq.toNat = k ∧
    x.2.1.payload = bytes

def SuppliedBy (sha256 : Sha256) (log : List (ι × UpdatePingInfo × LibResults)) (image : ι)
    (chunks : List (List UInt8)) : Prop :=
  ∀ (k : ℕ) (_ : k < chunks.length), Supplies sha256 log image k chunks[k]

/-- The chunks are no mixture of two images. -/
def OfOneImage (sha256 : Sha256) (log : List (ι × UpdatePingInfo × LibResults))
    (chunks : List (List UInt8)) : Prop :=
  chunks = [] ∨ ∃ image, SuppliedBy sha256 log image chunks

/-- A task and the datagrams that it has received so far, each with the image
that its sender sends.  The datagram itself does not tell its image. -/
def receiveOf (sha256 : Sha256) (own : Anker)
    (s : PAnkerTask × List (ι × UpdatePingInfo × LibResults))
    (x : ι × UpdatePingInfo × LibResults) :
    PAnkerTask × List (ι × UpdatePingInfo × LibResults) :=
  (receiveStep sha256 own s.1 x.2, s.2 ++ [x])

/-- An acknowledgement means that the chunk is stored, and what the session
holds is no mixture. -/
def StoresOneImage (sha256 : Sha256) (own : Anker)
    (s : PAnkerTask × List (ι × UpdatePingInfo × LibResults))
    (x : ι × UpdatePingInfo × LibResults) : Prop :=
  AcksStored sha256 own s.1 x.2 ∧
    OfOneImage sha256 (receiveOf sha256 own s x).2 (pieces (receiveOf sha256 own s x).1.calls)

/-- A datagram that is written behind chunk 0 and the chunks that the session
holds are of one image. -/
def ContinuesImage (sha256 : Sha256) (s : PAnkerTask × List (ι × UpdatePingInfo × LibResults))
    (x : ι × UpdatePingInfo × LibResults) : Prop :=
  s.1.phase = .running → x.2.1.acceptedFirmware sha256 → s.1.seq = x.2.1.seq → s.1.seq ≠ 0 →
    isOpen s.1.calls = true → x.2.2.otaWrite = true →
      OfOneImage sha256 (s.2 ++ [x]) (pieces s.1.calls ++ [x.2.1.payload])

instance [DecidableEq ι] (k : ℕ) (bytes : List UInt8) :
    Decidable (Supplies sha256 log image k bytes) :=
  inferInstanceAs (Decidable (∃ x ∈ log, x.1 = image ∧
    (x.2.1.accepted sha256 = true ∧ x.2.1.type = UpdatePingType.sendFirmwareData.code) ∧
    x.2.1.seq.toNat = k ∧ x.2.1.payload = bytes))

instance [DecidableEq ι] : Decidable (SuppliedBy sha256 log image chunks) :=
  inferInstanceAs (Decidable (∀ (k : ℕ) (_ : k < chunks.length),
    Supplies sha256 log image k chunks[k]))

instance [DecidableEq ι] [Fintype ι] : Decidable (OfOneImage sha256 log chunks) :=
  inferInstanceAs (Decidable (chunks = [] ∨ ∃ image, SuppliedBy sha256 log image chunks))

theorem suppliedBy_nil : SuppliedBy sha256 log image [] :=
  fun k hk ↦ absurd hk (Nat.not_lt_zero k)

theorem SuppliedBy.mono (h : SuppliedBy sha256 log image chunks) (hmore : log ⊆ more) :
    SuppliedBy sha256 more image chunks := by
  intro k hk
  obtain ⟨x, hx, hsupplies⟩ := h k hk
  exact ⟨x, hmore hx, hsupplies⟩

theorem SuppliedBy.append {bytes : List UInt8} (h : SuppliedBy sha256 log image chunks)
    (hbytes : Supplies sha256 log image chunks.length bytes) :
    SuppliedBy sha256 log image (chunks ++ [bytes]) := by
  intro k hk
  rw [List.length_append, List.length_singleton] at hk
  by_cases hlt : k < chunks.length
  · rw [List.getElem_append_left hlt]
    exact h k hlt
  · obtain rfl : k = chunks.length := by omega
    simpa using hbytes

theorem OfOneImage.mono (h : OfOneImage sha256 log chunks) (hmore : log ⊆ more) :
    OfOneImage sha256 more chunks :=
  h.imp_right fun ⟨image, himage⟩ ↦ ⟨image, himage.mono hmore⟩

theorem ofOneImage_singleton {x : ι × UpdatePingInfo × LibResults}
    (hfirmware : x.2.1.acceptedFirmware sha256) (hseq : x.2.1.seq = 0) :
    OfOneImage sha256 (log ++ [x]) [x.2.1.payload] := by
  refine .inr ⟨x.1, fun k hk ↦ ⟨x, by simp, rfl, hfirmware, ?_⟩⟩
  obtain rfl : k = 0 := by simpa using hk
  exact ⟨by simp [hseq], rfl⟩

theorem pieces_storeChunk (own : Anker) (r : LibResults) (m : UpdatePingInfo)
    (hseq : t.seq ≠ 0) : pieces (t.storeChunk sha256 own r m).1.calls =
      if isOpen t.calls = true ∧ r.otaWrite = true then pieces t.calls ++ [m.payload]
      else pieces t.calls := by
  have hopened : t.opened = t := if_neg hseq
  by_cases hwrite : isOpen t.calls = true ∧ r.otaWrite = true
  · simp only [storeChunk, hopened, hseq, hwrite, false_and, if_false, and_self, Bool.and_self,
      Bool.true_eq_false, if_true]
    split_ifs <;> simp only [log_calls, pieces_activate, pieces_finish, pieces_write_true]
  · have hfails : (isOpen t.calls && r.otaWrite) = false := by
      simpa [Bool.and_eq_true] using hwrite
    simp [storeChunk, hopened, hseq, hfails, hwrite]

/-- Chunk 0 begins a session, and any other chunk is written behind the rest. -/
theorem ofOneImage_receive (own : Anker) {x : ι × UpdatePingInfo × LibResults}
    (h : OfOneImage sha256 s.2 (pieces s.1.calls)) :
    OfOneImage sha256 (receiveOf sha256 own s x).2 (pieces (receiveOf sha256 own s x).1.calls) ↔
      ContinuesImage sha256 s x := by
  have hbefore : OfOneImage sha256 (s.2 ++ [x]) (pieces s.1.calls) :=
    h.mono (List.subset_append_left _ _)
  simp only [receiveOf, receiveStep]
  by_cases hstores : s.1.phase = .running ∧ x.2.1.acceptedFirmware sha256 ∧ s.1.seq = x.2.1.seq
  · obtain ⟨hphase, hfirmware, hseq⟩ := hstores
    rw [receive_eq_storeChunk own _ hphase hfirmware hseq]
    by_cases hzero : s.1.seq = 0
    · refine iff_of_true ?_ fun _ _ _ hne ↦ absurd hzero hne
      have hfirst : OfOneImage sha256 (s.2 ++ [x]) [x.2.1.payload] :=
        ofOneImage_singleton hfirmware (hseq ▸ hzero)
      have hopened : pieces s.1.opened.calls = [] := by
        rw [PAnkerTask.opened, if_pos hzero, log_calls, pieces_begin]
      obtain ⟨t', type, heq, hout⟩ := @storeChunk_outcome sha256 own x.2.2 x.2.1 s.1
      rw [heq]
      cases hout with
      | noPartition => exact hbefore
      | beginFailed => exact .inl (by simp)
      | writeFailed => exact .inl (by simp [hopened])
      | _ =>
          simpa only [log_calls, pieces_activate, pieces_finish, pieces_write_true, hopened,
            List.nil_append] using hfirst
    · rw [pieces_storeChunk own _ _ hzero]
      split_ifs with hwrite
      · exact ⟨fun hone _ _ _ _ _ _ ↦ hone,
          fun hcontinues ↦ hcontinues hphase hfirmware hseq hzero hwrite.1 hwrite.2⟩
      · exact iff_of_true hbefore fun _ _ _ _ hopen hok ↦ absurd ⟨hopen, hok⟩ hwrite
  · refine iff_of_true ?_ fun hphase hfirmware hseq ↦ absurd ⟨hphase, hfirmware, hseq⟩ hstores
    obtain ⟨t', acks, heq, hout⟩ := receive_outcome sha256 own x.2.2 x.2.1 s.1
    rw [heq]
    cases hout with
    | store _ type hphase hfirmware hseq hstore =>
        exact absurd ⟨hphase, hfirmware, hseq⟩ hstores
    | _ => exact hbefore

/-- Along a run, every acknowledged chunk is stored and no session mixes two
images exactly if whatever looks like a resend carries the data of the chunk
it repeats, and every further chunk is of the image of the chunks before it. -/
theorem always_storesOneImage_iff (sha256 : Sha256) (own : Anker)
    (inputs : List (ι × UpdatePingInfo × LibResults)) :
    Runs.Always (receiveOf sha256 own) (StoresOneImage sha256 own) (start, []) inputs ↔
      Runs.Always (receiveOf sha256 own)
        (fun s x ↦ ResendsStored sha256 s.1 x.2 ∧ ContinuesImage sha256 s x)
        (start, []) inputs := by
  let Inv (s : PAnkerTask × List (ι × UpdatePingInfo × LibResults)) : Prop :=
    s.1.SeqCounts ∧ OfOneImage sha256 s.2 (pieces s.1.calls)
  have hstart : Inv (start, []) := ⟨seqCounts_start, .inl rfl⟩
  have hiff : ∀ s x, Inv s → (StoresOneImage sha256 own s x ↔
      ResendsStored sha256 s.1 x.2 ∧ ContinuesImage sha256 s x) := fun s x hs ↦
    and_congr (acksStored_iff hs.1 x.2) (ofOneImage_receive own hs.2)
  have hstep : ∀ s x, Inv s → StoresOneImage sha256 own s x → Inv (receiveOf sha256 own s x) :=
    fun s x hs hgood ↦ ⟨hs.1.receive x.2, hgood.2⟩
  constructor
  · exact Runs.always_of_invariant Inv hstep (fun s x hs ↦ (hiff s x hs).mp) hstart
  · exact Runs.always_of_invariant Inv (fun s x hs hgood ↦ hstep s x hs ((hiff s x hs).mpr hgood))
      (fun s x hs ↦ (hiff s x hs).mpr) hstart

end

/-! ## Resends of one image -/

/-- Below `seq` the session holds the chunks of the image. -/
def HoldsChunks (chunks : List (List UInt8)) (t : PAnkerTask) : Prop :=
  ∀ i < t.seq.toNat, (pieces t.calls)[i]? = chunks[i]?

theorem SeqCounts.getElem?_write (h : t.SeqCounts) (hopen : isOpen t.opened.calls = true)
    (bytes : List UInt8) {i : ℕ} (hi : i < t.seq.toNat) :
    (pieces (t.opened.calls ++ [.write bytes true]))[i]? = (pieces t.calls)[i]? := by
  have hseq : t.seq ≠ 0 := by
    intro hzero
    simp [hzero] at hi
  have hcount := h.opened hopen
  rw [PAnkerTask.opened, if_neg hseq] at hcount ⊢
  rw [pieces_write_true, List.getElem?_append_left (by omega)]

theorem HoldsChunks.store {chunks : List (List UInt8)} {t' : PAnkerTask} {type : AckType}
    (h : HoldsChunks chunks t) (hcounts : t.SeqCounts) (hm : m.ChunkOf chunks)
    (hseq : t.seq = m.seq) (hout : StoreOutcome m t t' type) : HoldsChunks chunks t' := by
  cases hout with
  | noPartition hzero => exact h
  | beginFailed hzero =>
      intro i hi
      simp [hzero] at hi
  | writeFailed =>
      intro i hi
      simp only [log_seq, opened_seq] at hi
      have hne : t.seq ≠ 0 := by
        intro hzero
        simp [hzero] at hi
      rw [log_calls, pieces_write_false, PAnkerTask.opened, if_neg hne]
      exact h i hi
  | stored hopen hlast =>
      intro i hi
      have hsucc : i < t.seq.toNat ∨ i = t.seq.toNat := by
        have hle : (t.seq + 1).toNat ≤ t.seq.toNat + 1 := by
          rw [UInt16.toNat_add, show (1 : UInt16).toNat = 1 from rfl]
          exact Nat.mod_le _ _
        have hlt : i < (t.seq + 1).toNat := hi
        omega
      rcases hsucc with hlt | rfl
      · rw [← h i hlt]
        exact hcounts.getElem?_write hopen m.payload hlt
      · rw [← hcounts.opened hopen]
        simp only [log_calls, pieces_write_true, List.getElem?_concat_length]
        rw [hcounts.opened hopen, hseq]
        exact hm.1.symm
  | endFailed hopen hlast =>
      intro i hi
      simp only [log_seq, opened_seq] at hi
      rw [← h i hi, log_calls, pieces_finish]
      exact hcounts.getElem?_write hopen m.payload hi
  | setBootFailed hopen hlast =>
      intro i hi
      simp only [log_seq, opened_seq] at hi
      rw [← h i hi, log_calls, pieces_activate, log_calls, pieces_finish]
      exact hcounts.getElem?_write hopen m.payload hi
  | restarted hopen hlast =>
      intro i hi
      simp only [log_seq, opened_seq] at hi
      rw [← h i hi]
      simp only [log_calls, pieces_activate, pieces_finish]
      exact hcounts.getElem?_write hopen m.payload hi

/-- Sessions of one image may break off and begin again as they like. -/
theorem always_resendsStored_of_chunks {chunks : List (List UInt8)} (own : Anker)
    (inputs : List (UpdatePingInfo × LibResults))
    (hm : ∀ x ∈ inputs, x.1.acceptedFirmware sha256 → x.1.ChunkOf chunks) :
    Runs.Always (receiveStep sha256 own) (ResendsStored sha256) start inputs := by
  have hchunks : Runs.Always (receiveStep sha256 own)
      (fun _ x ↦ x.1.acceptedFirmware sha256 → x.1.ChunkOf chunks) start inputs :=
    EventLog.eachAt_of_forall fun x hx _ ↦ hm x hx
  intro pre x post heq
  have hpre := hchunks
  rw [heq, Runs.always_append] at hpre
  have hstart : HoldsChunks chunks start := fun i hi ↦ absurd hi (by simp [start])
  have hinv := Runs.invariant (fun t ↦ t.SeqCounts ∧ HoldsChunks chunks t) ?_
    ⟨seqCounts_start, hstart⟩ hpre.1
  · intro hphase hfirmware hlt
    rw [hinv.2 _ (UInt16.lt_iff_toNat_lt.mp hlt)]
    exact (hm x (by simp [heq]) hfirmware).1
  · rintro t y ⟨hcounts, hholds⟩ hy
    refine ⟨hcounts.receive y, ?_⟩
    obtain ⟨t', acks, hreceive, hout⟩ := receive_outcome sha256 own y.2 y.1 t
    rw [receiveStep, hreceive]
    cases hout with
    | store _ type hphase hfirmware hseq hstore =>
        exact hholds.store hcounts (hy hfirmware) hseq hstore
    | _ => exact hholds

section

variable {ι : Type*} {image : ι}

/-- If only one image is sent, what the session holds is of that image. -/
theorem suppliedBy_receive (own : Anker)
    {s : PAnkerTask × List (ι × UpdatePingInfo × LibResults)}
    {x : ι × UpdatePingInfo × LibResults} (hcounts : s.1.SeqCounts)
    (h : SuppliedBy sha256 s.2 image (pieces s.1.calls))
    (hx : x.2.1.acceptedFirmware sha256 → x.1 = image) :
    SuppliedBy sha256 (receiveOf sha256 own s x).2 image
      (pieces (receiveOf sha256 own s x).1.calls) := by
  have hbefore : SuppliedBy sha256 (s.2 ++ [x]) image (pieces s.1.calls) :=
    h.mono (List.subset_append_left _ _)
  obtain ⟨t', acks, heq, hout⟩ := receive_outcome sha256 own x.2.2 x.2.1 s.1
  simp only [receiveOf, receiveStep, heq]
  cases hout with
  | store _ type hphase hfirmware hseq hstore =>
      have hopened : SuppliedBy sha256 (s.2 ++ [x]) image (pieces s.1.opened.calls) := by
        by_cases hzero : s.1.seq = 0
        · rw [PAnkerTask.opened, if_pos hzero, log_calls, pieces_begin]
          exact suppliedBy_nil
        · rw [PAnkerTask.opened, if_neg hzero]
          exact hbefore
      have hwritten (hopen : isOpen s.1.opened.calls = true) :
          SuppliedBy sha256 (s.2 ++ [x]) image (pieces s.1.opened.calls ++ [x.2.1.payload]) := by
        refine hopened.append ⟨x, by simp, hx hfirmware, hfirmware, ?_, rfl⟩
        rw [hcounts.opened hopen, hseq]
      cases hstore with
      | noPartition => exact hbefore
      | beginFailed => simpa only [log_calls, pieces_begin] using suppliedBy_nil
      | writeFailed => simpa using hopened
      | stored hopen hlast => simpa only [log_calls, pieces_write_true] using hwritten hopen
      | endFailed hopen hlast =>
          simpa only [log_calls, pieces_finish, pieces_write_true] using hwritten hopen
      | setBootFailed hopen hlast =>
          simpa only [log_calls, pieces_activate, pieces_finish, pieces_write_true]
            using hwritten hopen
      | restarted hopen hlast =>
          simpa only [log_calls, pieces_activate, pieces_finish, pieces_write_true]
            using hwritten hopen
  | _ => exact hbefore

theorem always_continuesImage_of_one (own : Anker)
    (inputs : List (ι × UpdatePingInfo × LibResults))
    (hone : ∀ x ∈ inputs, x.2.1.acceptedFirmware sha256 → x.1 = image) :
    Runs.Always (receiveOf sha256 own) (ContinuesImage sha256) (start, []) inputs := by
  let Inv (s : PAnkerTask × List (ι × UpdatePingInfo × LibResults)) : Prop :=
    s.1.SeqCounts ∧ SuppliedBy sha256 s.2 image (pieces s.1.calls)
  have hstart : Inv (start, []) := ⟨seqCounts_start, suppliedBy_nil⟩
  have hinputs : Runs.Always (receiveOf sha256 own)
      (fun _ x ↦ x.2.1.acceptedFirmware sha256 → x.1 = image) (start, []) inputs :=
    Runs.always_const.mpr hone
  refine Runs.always_of_invariant Inv
    (fun s x hs hx ↦ ⟨hs.1.receive x.2, suppliedBy_receive own hs.1 hs.2 hx⟩) ?_ hstart hinputs
  intro s x hs hx
  have hafter := suppliedBy_receive own hs.1 hs.2 hx
  exact (ofOneImage_receive own (.inr ⟨image, hs.2⟩)).mp (.inr ⟨image, hafter⟩)

/-- The datagrams of one image meet both conditions. -/
theorem always_storesOneImage_of_chunks {chunks : List (List UInt8)} (own : Anker)
    (inputs : List (ι × UpdatePingInfo × LibResults))
    (hm : ∀ x ∈ inputs, x.2.1.acceptedFirmware sha256 →
      x.1 = image ∧ x.2.1.ChunkOf chunks) :
    Runs.Always (receiveOf sha256 own)
      (fun s x ↦ ResendsStored sha256 s.1 x.2 ∧ ContinuesImage sha256 s x) (start, []) inputs := by
  have hresends : Runs.Always (receiveOf sha256 own)
      (fun s x ↦ ResendsStored sha256 s.1 x.2) (start, []) inputs := by
    have hmap : Runs.Always (receiveOf sha256 own)
        (fun s x ↦ ResendsStored sha256 s.1 x.2) (start, []) inputs ↔
          Runs.Always (receiveStep sha256 own) (ResendsStored sha256) start
            (inputs.map Prod.snd) := Runs.always_map Prod.fst Prod.snd fun _ _ ↦ rfl
    rw [hmap]
    apply always_resendsStored_of_chunks own
    intro y hy hfirmware
    obtain ⟨x, hx, rfl⟩ := List.mem_map.mp hy
    exact (hm x hx hfirmware).2
  have hcontinues := always_continuesImage_of_one own inputs fun x hx hf ↦ (hm x hx hf).1
  exact fun pre x post heq ↦ ⟨hresends pre x post heq, hcontinues pre x post heq⟩

end

/-- The chunk of a C-Anker with one byte. -/
def byteChunk (serial : UInt8) (seq : UInt16) (isLast : Bool) (byte : UInt8) :
    Bool × UpdatePingInfo × LibResults :=
  (serial = 7, updatePingInfo headHash ⟨Vector.replicate serialSize serial, []⟩ .sendFirmwareData
    seq isLast [byte] 1, LibResults.allOk)

/-- A C-Anker gives up after its first chunk, and another one with another
image begins. -/
def mixedInputs : List (Bool × UpdatePingInfo × LibResults) :=
  [byteChunk 7 0 false 10, byteChunk 8 0 false 20, byteChunk 8 1 true 21]

/-- The task acknowledges chunk 0 of the second image and installs chunk 0
of the first one with chunk 1 of the second.  The mixture does not need the
chunk in between. -/
theorem not_always_storesOneImage_mixed :
    let own : Anker := ⟨Vector.replicate serialSize 9, []⟩
    (¬ Runs.Always (receiveOf headHash own) (fun s x ↦ AcksStored headHash own s.1 x.2)
        (start, []) mixedInputs ∧
      ¬ Runs.Always (receiveOf headHash own) (StoresOneImage headHash own)
        (start, []) mixedInputs ∧
      (mixedInputs.foldl (receiveOf headHash own) (start, [])).1.phase = .restarted ∧
      pieces (mixedInputs.foldl (receiveOf headHash own) (start, [])).1.calls = [[10], [21]]) ∧
    ¬ Runs.Always (receiveOf headHash own) (StoresOneImage headHash own) (start, [])
      [byteChunk 7 0 false 10, byteChunk 8 1 true 21] := by
  intro own
  have hunstored : ¬ Runs.Always (receiveOf headHash own)
      (fun s x ↦ AcksStored headHash own s.1 x.2) (start, []) mixedInputs := by
    intro h
    have hsecond := h (mixedInputs.take 1) (mixedInputs[1]) (mixedInputs.drop 2) rfl
    exact absurd (hsecond (by decide)) (by decide)
  refine ⟨⟨hunstored, fun h ↦ ?_, by decide, by decide⟩, fun h ↦ ?_⟩
  · exact hunstored fun pre x post heq ↦ (h pre x post heq).1
  · have hlast := (h [byteChunk 7 0 false 10] (byteChunk 8 1 true 21) [] rfl).2
    revert hlast
    decide

end AnkerUpdater.PAnkerTask
