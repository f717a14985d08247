import AnkerUpdater.Protocol.Resend

/-!
# When an update can still be finished

Failed calls, resends and datagrams of any other kind leave a running task
in a state from which the missing chunks still complete the image.  Only
the end of a session takes this away: if a final chunk behind chunk 0 is
written and its session cannot be ended, or its image not be activated, `seq`
stays where no new session begins, and the task never gets out of that.
-/

namespace AnkerUpdater.PAnkerTask

open UploadLog

variable {sha256 : Sha256} {own : Anker} {t : PAnkerTask} {m : UpdatePingInfo} {r : LibResults}

/-- The datagrams with the chunks from `seq` to the end of an image, none of
which meets a failing call. -/
def restOf (sha256 : Sha256) (cAnker : Anker) :
    UInt16 → List (List UInt8) → List (UpdatePingInfo × LibResults)
  | _, [] => []
  | seq, chunk :: rest =>
      (updatePingInfo sha256 cAnker .sendFirmwareData seq rest.isEmpty chunk
        (UInt16.ofNat chunk.length), LibResults.allOk) :: restOf sha256 cAnker (seq + 1) rest

/-- Whatever the chunks from `seq` on are, the task installs what it holds
with these chunks behind it. -/
def Finishes (sha256 : Sha256) (own : Anker) (t : PAnkerTask) : Prop :=
  ∀ (cAnker : Anker) (chunks : List (List UInt8)), chunks ≠ [] →
    (∀ chunk ∈ chunks, chunk.length ≤ dataMaxLen) → t.seq.toNat + chunks.length ≤ 65536 →
    ((restOf sha256 cAnker t.seq chunks).foldl (receiveStep sha256 own) t).phase = .restarted ∧
      pieces ((restOf sha256 cAnker t.seq chunks).foldl (receiveStep sha256 own) t).calls =
        (if t.seq = 0 then [] else pieces t.calls) ++ chunks

/-- Whatever it receives, the task installs nothing. -/
def Stuck (sha256 : Sha256) (own : Anker) (t : PAnkerTask) : Prop :=
  ∀ inputs : List (UpdatePingInfo × LibResults),
    (inputs.foldl (receiveStep sha256 own) t).phase ≠ .restarted

/-- A final chunk behind chunk 0 is written, and the session cannot be ended
or its image not be activated. -/
@[mk_iff]
structure LosesSession (sha256 : Sha256) (t : PAnkerTask) (x : UpdatePingInfo × LibResults) :
    Prop where
  running : t.phase = .running
  firmware : x.1.acceptedFirmware sha256
  seq : t.seq = x.1.seq
  behind : t.seq ≠ 0
  isOpen : isOpen t.calls = true
  isLast : x.1.isLast ≠ 0
  otaWrite : x.2.otaWrite = true
  fails : (x.2.otaEnd && x.2.setBootPartition) = false

instance (x : UpdatePingInfo × LibResults) : Decidable (LosesSession sha256 t x) :=
  have : Decidable (x.1.acceptedFirmware sha256) := inferInstanceAs (Decidable (_ ∧ _))
  decidable_of_iff' _ (losesSession_iff sha256 t x)

/-- The next chunk begins a session or meets an open one. -/
def Writable (t : PAnkerTask) : Prop := t.seq = 0 ∨ isOpen t.calls = true

theorem Writable.opened (h : t.Writable) : isOpen t.opened.calls = true := by
  by_cases hzero : t.seq = 0
  · rw [PAnkerTask.opened, if_pos hzero, log_calls, isOpen_begin_true]
  · rw [PAnkerTask.opened, if_neg hzero]
    exact h.resolve_left hzero

theorem pieces_opened (t : PAnkerTask) :
    pieces t.opened.calls = if t.seq = 0 then [] else pieces t.calls := by
  rw [opened]
  split_ifs with hzero
  · rw [log_calls, pieces_begin]
  · rfl

/-! ## The rest of an image -/

theorem receiveStep_stored (hphase : t.phase = .running) (hfirmware : m.acceptedFirmware sha256)
    (hseq : t.seq = m.seq) (h : t.Writable) (hlast : m.isLast = 0) :
    receiveStep sha256 own t (m, LibResults.allOk) =
      { t.opened.log (.write m.payload true) with seq := t.seq + 1 } := by
  rw [receiveStep, receive_eq_storeChunk own _ hphase hfirmware hseq]
  simp [storeChunk, LibResults.allOk, h.opened, hlast]

theorem receiveStep_restarted (hphase : t.phase = .running)
    (hfirmware : m.acceptedFirmware sha256) (hseq : t.seq = m.seq) (h : t.Writable)
    (hlast : m.isLast ≠ 0) :
    receiveStep sha256 own t (m, LibResults.allOk) =
      { ((t.opened.log (.write m.payload true)).log (.finish true)).log (.activate true) with
        phase := .restarted } := by
  rw [receiveStep, receive_eq_storeChunk own _ hphase hfirmware hseq]
  simp [storeChunk, LibResults.allOk, h.opened, hlast]

theorem take_ofNat_length {chunk : List UInt8} (hlen : chunk.length ≤ dataMaxLen) :
    chunk.take (UInt16.ofNat chunk.length).toNat = chunk := by
  rw [List.take_eq_self_iff, UInt16.toNat_ofNat', Nat.mod_eq_of_lt]
  exact hlen.trans_lt (by decide)

theorem Writable.finishes (h : t.Writable) (hphase : t.phase = .running) :
    Finishes sha256 own t := by
  intro cAnker chunks hne hlen hfit
  induction chunks generalizing t with
  | nil => exact absurd rfl hne
  | cons chunk rest ih =>
      have hpayload := take_ofNat_length (hlen chunk List.mem_cons_self)
      have hfirmware : (updatePingInfo sha256 cAnker .sendFirmwareData t.seq rest.isEmpty chunk
          (UInt16.ofNat chunk.length)).acceptedFirmware sha256 :=
        ⟨updatePingInfo_accepted _ _ _ _ _ _ _, rfl⟩
      rw [restOf, List.foldl_cons]
      cases rest with
      | nil =>
          rw [receiveStep_restarted hphase hfirmware rfl h (by simp)]
          refine ⟨rfl, ?_⟩
          simp only [restOf, List.foldl_nil, log_calls, pieces_activate, pieces_finish,
            pieces_write_true, pieces_opened, firmwareInfo_payload, hpayload]
      | cons next rest =>
          have hsucc : (t.seq + 1).toNat = t.seq.toNat + 1 := by
            simp only [List.length_cons] at hfit
            exact toNat_succ_of_lt (Nat.lt_succ_self _) (by omega)
          have hseq : t.seq + 1 ≠ 0 := by
            intro hzero
            rw [hzero] at hsucc
            exact Nat.succ_ne_zero _ hsucc.symm
          rw [receiveStep_stored hphase hfirmware rfl h (by simp)]
          obtain ⟨hrestarted, hpieces⟩ := ih
            (t := { t.opened.log (.write chunk true) with seq := t.seq + 1 })
            (.inr (by simpa using h.opened)) (by simpa using hphase) (List.cons_ne_nil _ _)
            (fun c hc ↦ hlen c (List.mem_cons_of_mem _ hc)) (by
              simp only [hsucc]
              simp only [List.length_cons] at hfit ⊢
              omega)
          rw [firmwareInfo_payload, hpayload]
          refine ⟨hrestarted, hpieces.trans ?_⟩
          rw [if_neg hseq, log_calls, pieces_write_true, pieces_opened, List.append_assoc,
            List.singleton_append]

/-! ## One step -/

/-- A running task stays able to write unless it loses its session. -/
theorem writable_receiveStep_iff (hphase : t.phase = .running) (h : t.Writable)
    (x : UpdatePingInfo × LibResults) :
    ((receiveStep sha256 own t x).phase = .running → (receiveStep sha256 own t x).Writable) ↔
      ¬LosesSession sha256 t x := by
  by_cases hbehind : x.1.acceptedFirmware sha256 ∧ t.seq = x.1.seq ∧ t.seq ≠ 0
  · obtain ⟨hfirmware, hseq, hzero⟩ := hbehind
    have hopen : isOpen t.calls = true := h.resolve_left hzero
    have hopened : t.opened = t := if_neg hzero
    have hloses : LosesSession sha256 t x ↔ x.1.isLast ≠ 0 ∧ x.2.otaWrite = true ∧
        (x.2.otaEnd && x.2.setBootPartition) = false := by
      rw [hseq] at hzero
      simp [losesSession_iff, hphase, hfirmware, hseq, hzero, hopen]
    rw [hloses, receiveStep, receive_eq_storeChunk own _ hphase hfirmware hseq]
    simp only [storeChunk, hopened, hzero, hopen]
    cases hwrite : x.2.otaWrite with
    | false => simp [Writable, hopen]
    | true =>
        by_cases hlast : x.1.isLast = 0
        · simp [hlast, Writable, hopen]
        · cases hend : x.2.otaEnd with
          | false => simp [hlast, Writable, hphase, hzero, isOpen, openStep]
          | true =>
              cases hboot : x.2.setBootPartition <;>
                simp [hlast, Writable, hphase, hzero, isOpen, openStep]
  · refine iff_of_true (fun hrunning ↦ ?_) fun hloses ↦
      hbehind ⟨hloses.firmware, hloses.seq, hloses.behind⟩
    obtain ⟨t', acks, heq, hout⟩ := receive_outcome sha256 own x.2 x.1 t
    rw [receiveStep, heq] at hrunning ⊢
    cases hout with
    | deleted type _ htype => exact absurd hrunning (by simp)
    | store _ type _ hfirmware hseq hstore =>
        have hzero : t.seq = 0 := by
          by_contra hne
          exact hbehind ⟨hfirmware, hseq, hne⟩
        cases hstore with
        | stored hopen hlast => exact .inr (by simpa using hopen)
        | restarted hopen hlast => exact absurd hrunning (by simp)
        | _ => exact .inl (by simpa using hzero)
    | _ => exact h

theorem receiveStep_of_not_running (hphase : t.phase ≠ .running)
    (x : UpdatePingInfo × LibResults) : receiveStep sha256 own t x = t := by
  simp [receiveStep, receive, hphase]

/-! ## A lost session -/

/-- No session is open, and none begins. -/
structure Lost (t : PAnkerTask) : Prop where
  phase : t.phase ≠ .restarted
  closed : t.phase = .running → ¬t.Writable

theorem Lost.receive (h : t.Lost) (x : UpdatePingInfo × LibResults) :
    (receiveStep sha256 own t x).Lost := by
  obtain ⟨t', acks, heq, hout⟩ := receive_outcome sha256 own x.2 x.1 t
  rw [receiveStep, heq]
  cases hout with
  | deleted type hphase htype => exact ⟨by simp, by simp⟩
  | store _ type hphase hfirmware hseq hstore =>
      obtain ⟨hzero, hshut⟩ := not_or.mp (h.closed hphase)
      have hopened : t.opened = t := if_neg hzero
      cases hstore with
      | noPartition hseq0 => exact absurd hseq0 hzero
      | beginFailed hseq0 => exact absurd hseq0 hzero
      | writeFailed =>
          rw [hopened]
          exact ⟨h.phase, fun _ hwritable ↦ h.closed hphase (by simpa [Writable] using hwritable)⟩
      | stored hopen hlast => exact absurd (hopened ▸ hopen) hshut
      | endFailed hopen hlast => exact absurd (hopened ▸ hopen) hshut
      | setBootFailed hopen hlast => exact absurd (hopened ▸ hopen) hshut
      | restarted hopen hlast => exact absurd (hopened ▸ hopen) hshut
  | _ => exact h

theorem Lost.stuck (h : t.Lost) : Stuck sha256 own t := fun inputs ↦
  (Runs.invariant_of_step Lost (fun _ x ht ↦ ht.receive x) h inputs).phase

theorem LosesSession.lost {x : UpdatePingInfo × LibResults} (h : LosesSession sha256 t x) :
    (receiveStep sha256 own t x).Lost := by
  have hopens : ¬((receiveStep sha256 own t x).phase = .running →
      (receiveStep sha256 own t x).Writable) := fun hkeeps ↦
    (writable_receiveStep_iff h.running (.inr h.isOpen) x).mp hkeeps h
  obtain ⟨hrunning, hclosed⟩ := Classical.not_imp.mp hopens
  exact ⟨by simp [hrunning], fun _ ↦ hclosed⟩

/-! ## The runs -/

/-- A running task finishes with the rest of an image, whatever it has
received so far, unless it has lost a session; then it is stuck. -/
theorem finishes_or_stuck (sha256 : Sha256) (own : Anker)
    (inputs : List (UpdatePingInfo × LibResults))
    (hrunning : (inputs.foldl (receiveStep sha256 own) start).phase = .running) :
    (Runs.Always (receiveStep sha256 own) (fun t x ↦ ¬LosesSession sha256 t x) start inputs →
      Finishes sha256 own (inputs.foldl (receiveStep sha256 own) start)) ∧
    (¬Runs.Always (receiveStep sha256 own) (fun t x ↦ ¬LosesSession sha256 t x) start inputs →
      Stuck sha256 own (inputs.foldl (receiveStep sha256 own) start)) := by
  constructor
  · intro hkeeps
    have hwritable := Runs.invariant (fun t : PAnkerTask ↦ t.phase = .running → t.Writable)
      (fun t x h hx ↦ ?_) (fun _ ↦ .inl rfl) hkeeps hrunning
    · exact hwritable.finishes hrunning
    · by_cases hphase : t.phase = .running
      · exact (writable_receiveStep_iff hphase (h hphase) x).mpr hx
      · rw [receiveStep_of_not_running hphase]
        exact h
  · intro hloses
    simp only [Runs.Always, EventLog.EachAt, not_forall, not_not] at hloses
    obtain ⟨pre, x, post, rfl, hloses⟩ := hloses
    rw [List.foldl_append, List.foldl_cons]
    exact (Runs.invariant_of_step Lost (fun _ y ht ↦ ht.receive y) hloses.lost post).stuck

/-- The session of the last chunk cannot be ended. -/
def endFailed : List (UpdatePingInfo × LibResults) :=
  [(byteChunk 7 0 false 10).2,
    ((byteChunk 7 1 true 11).2.1, { LibResults.allOk with otaEnd := false })]

theorem finishes_or_stuck_endFailed :
    let own : Anker := ⟨Vector.replicate serialSize 9, []⟩
    Stuck headHash own (endFailed.foldl (receiveStep headHash own) start) ∧
      Finishes headHash own ((endFailed.take 1).foldl (receiveStep headHash own) start) :=
  ⟨(finishes_or_stuck headHash _ endFailed (by decide)).2 (by decide),
    (finishes_or_stuck headHash _ (endFailed.take 1) (by decide)).1 (by decide)⟩

end AnkerUpdater.PAnkerTask
