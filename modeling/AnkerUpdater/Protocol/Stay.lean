import AnkerUpdater.Protocol.Rounds

/-!
# How long the loop stays on one chunk

Each of the retry counters bounds the turns of its own kind, and a round
that is heard but does not advance brings some P-Anker closer to its kick.
The last holds only if the round looks at an entry without a correct
answer and forgives nobody an earlier failure.  Both can fail, but not for
a single P-Anker.
-/

namespace AnkerUpdater

/-! ## Failures that a round adds -/

section Tally

variable (acks : List PAnker)

/-- How many failures are left before all entries are kicked. -/
def failuresLeft (ps : List PAnker) : ℕ :=
  (ps.map fun p ↦ maxRetrieveFirmwareAcksFailsToKickAnker - p.failCnt).sum

/-- If no entry with earlier failures answers correctly, a tally forgives
nothing, and it adds a failure for an entry without a correct answer. -/
theorem tallyAcks_failuresLeft (i nr nc : ℕ) (ps : List PAnker)
    (hkept : ∀ p ∈ ps.take (nr - i), p.active = true → Acked acks p.serial → p.failCnt = 0) :
    failuresLeft (tallyAcks acks i nr nc ps).pAnkers ≤ failuresLeft ps ∧
      ((∃ p ∈ ps.take (nr - i), p.active = true ∧ ¬ Acked acks p.serial) →
        failuresLeft (tallyAcks acks i nr nc ps).pAnkers < failuresLeft ps) := by
  induction ps generalizing i nr nc with
  | nil => simp [tallyAcks]
  | cons p ps ih =>
      by_cases h : i < nr
      · rw [tallyAcks_cons_lt acks p ps h]
        rw [show nr - i = nr - (i + 1) + 1 by omega] at hkept ⊢
        simp only [List.take_succ_cons, List.forall_mem_cons, List.exists_mem_cons_iff] at hkept ⊢
        simp only [failuresLeft, List.map_cons, List.sum_cons] at ih ⊢
        cases hm : p.mark acks with
        | passedOver =>
            obtain ⟨hle, hlt⟩ := ih (i + 1) nr nc hkept.2
            have hp : p.active = false := PAnker.not_active_of_mark hm
            simp only [reduceCtorEq, if_false, PAnker.apply, hp, Bool.false_eq_true, false_and,
              false_or]
            exact ⟨by omega, fun hex ↦ by have := hlt hex; omega⟩
        | correct =>
            obtain ⟨hle, hlt⟩ := ih (i + 1) nr (nc + 1) hkept.2
            have hactive : p.active = true := PAnker.active_of_mark hm (by simp)
            have hacked := PAnker.acked_of_mark_correct hm
            have hzero := hkept.1 hactive hacked
            simp only [reduceCtorEq, if_false, if_true, PAnker.apply, hzero, hacked, not_true,
              and_false, false_or]
            exact ⟨by omega, fun hex ↦ by have := hlt hex; omega⟩
        | failed =>
            obtain ⟨hle, -⟩ := ih (i + 1) nr nc hkept.2
            have hcnt := PAnker.failCnt_of_mark_failed hm
            simp only [reduceCtorEq, if_false, PAnker.apply]
            exact ⟨by omega, fun _ ↦ by omega⟩
        | kicked =>
            have hsub : ∀ q ∈ ps.take (nr - 1 - (i + 1)), q.active = true →
                Acked acks q.serial → q.failCnt = 0 := by
              intro q hq
              exact hkept.2 q ((List.take_sublist_take_left (by omega)).subset hq)
            obtain ⟨hle, -⟩ := ih (i + 1) (nr - 1) nc hsub
            have hactive : p.active = true := PAnker.active_of_mark hm (by simp)
            have hcnt := PAnker.active_iff.mp hactive
            simp only [reduceCtorEq, if_false, if_true, PAnker.apply]
            exact ⟨by omega, fun _ ↦ by omega⟩
      · rw [tallyAcks_cons_ge acks p ps (by omega), show nr - i = 0 by omega]
        simp

theorem failuresLeft_le (ps : List PAnker) :
    failuresLeft ps ≤ maxRetrieveFirmwareAcksFailsToKickAnker * ps.length := by
  induction ps with
  | nil => simp [failuresLeft]
  | cons p ps ih =>
      simp only [failuresLeft, List.map_cons, List.sum_cons, List.length_cons] at ih ⊢
      rw [Nat.mul_succ]
      omega

end Tally

namespace Session

variable {S : Session} {s s' : SendState}

/-! ## The measure of a stay -/

/-- The turn is no round that is heard, or its round looks at an entry
without a correct answer and resets no failure. -/
def Gaining (S : Session) (s : SendState) : Turn → Prop
  | .round startMicros polls => S.roundAcks s startMicros polls = [] ∨
      ((∃ p ∈ s.pAnkers.take s.numRemaining,
          p.active = true ∧ ¬ Acked (S.roundAcks s startMicros polls) p.serial) ∧
        ∀ p ∈ s.pAnkers.take s.numRemaining, p.active = true →
          Acked (S.roundAcks s startMicros polls) p.serial → p.failCnt = 0)
  | _ => True

def GainingRun (S : Session) : List Turn → SendState → Prop
  | [], _ => True
  | t :: ts, s => S.Gaining s t ∧ ∀ s', S.turn s t = .next s' → GainingRun S ts s'

/-- The turns that are left at one chunk: failures of P-Ankers first, then
silent rounds, failed broadcasts and failed reads. -/
def stayMeasure (s : SendState) : ℕ :=
  ((failuresLeft s.pAnkers * (maxRetrieveFirmwareAllAcksFails + 1) +
      (maxRetrieveFirmwareAllAcksFails - s.allAcksFailCnt)) *
        (maxSendFirmwareBroadcastFails + 1) +
      (maxSendFirmwareBroadcastFails - s.sendFailCnt)) * (maxPartitionReadFails + 1) +
    (maxPartitionReadFails - s.readPartitionFailCnt)

theorem dataLen_pos {offset : ℕ} (hrun : offset < S.size) : 0 < S.dataLen offset := by
  by_cases hover : S.size < offset + dataMaxLen
  · rw [S.dataLen_eq, if_pos hover]
    omega
  · rw [S.dataLen_eq, if_neg hover]
    decide

theorem stayMeasure_lt {t : Turn} (hrun : s.offset < S.size) (hgain : S.Gaining s t)
    (hturn : S.turn s t = .next s') (hstay : s'.offset = s.offset) :
    stayMeasure s' < stayMeasure s := by
  cases turn_outcome hturn with
  | readFailed hcnt =>
      simp only [stayMeasure, prepare]
      omega
  | sendFailed hcnt =>
      simp only [stayMeasure, prepare, maxSendFirmwareBroadcastFails, maxPartitionReadFails] at *
      omega
  | silent startMicros polls hacks hcnt =>
      simp only [stayMeasure, sent, prepare, maxSendFirmwareBroadcastFails, maxPartitionReadFails,
        maxRetrieveFirmwareAllAcksFails] at *
      omega
  | retried startMicros polls hacks hremaining hcorrect =>
      obtain ⟨hfailed, hkept⟩ := hgain.resolve_left hacks
      have hlt : failuresLeft (S.roundTally s startMicros polls).pAnkers <
          failuresLeft s.pAnkers :=
        (tallyAcks_failuresLeft _ 0 s.numRemaining 0 s.pAnkers hkept).2 hfailed
      simp only [stayMeasure, tallied, sent, prepare, maxSendFirmwareBroadcastFails,
        maxPartitionReadFails, maxRetrieveFirmwareAllAcksFails] at *
      omega
  | advanced startMicros polls hacks hremaining hcorrect =>
      have hpos := dataLen_pos hrun
      simp only at hstay
      omega

theorem offset_le_of_turn {t : Turn} (hturn : S.turn s t = .next s') : s.offset ≤ s'.offset := by
  cases turn_outcome hturn with
  | advanced startMicros polls hacks hremaining hcorrect => exact Nat.le_add_right _ _
  | _ => exact le_rfl

theorem offset_le_of_after {ts : List Turn} (h : S.after ts s = some s') :
    s.offset ≤ s'.offset := by
  induction ts generalizing s with
  | nil =>
      cases h
      exact le_rfl
  | cons t ts ih =>
      obtain ⟨-, s₁, hturn, hrest⟩ := after_cons_eq_some.mp h
      exact (offset_le_of_turn hturn).trans (ih hrest)

/-- A turn of a run that ends with the offset it began with keeps it. -/
theorem offset_eq_of_turn {t : Turn} {ts : List Turn} {s₁ : SendState}
    (hturn : S.turn s t = .next s₁) (hrest : S.after ts s₁ = some s')
    (hstay : s'.offset = s.offset) : s₁.offset = s.offset :=
  le_antisymm ((offset_le_of_after hrest).trans hstay.le) (offset_le_of_turn hturn)

theorem length_le_stayMeasure {ts : List Turn} (hafter : S.after ts s = some s')
    (hstay : s'.offset = s.offset) (hgain : S.GainingRun ts s) :
    ts.length ≤ stayMeasure s := by
  induction ts generalizing s with
  | nil => exact Nat.zero_le _
  | cons t ts ih =>
      obtain ⟨hrun, s₁, hturn, hrest⟩ := after_cons_eq_some.mp hafter
      have hsame := offset_eq_of_turn hturn hrest hstay
      have hlen := ih hrest (by omega) (hgain.2 s₁ hturn)
      have hlt := stayMeasure_lt hrun hgain.1 hturn hsame
      rw [List.length_cons]
      omega

def stayBound (n : ℕ) : ℕ :=
  ((maxRetrieveFirmwareAcksFailsToKickAnker * n * (maxRetrieveFirmwareAllAcksFails + 1) +
      maxRetrieveFirmwareAllAcksFails) * (maxSendFirmwareBroadcastFails + 1) +
      maxSendFirmwareBroadcastFails) * (maxPartitionReadFails + 1) + maxPartitionReadFails

theorem SendInv.length_eq (h : S.SendInv s) : s.pAnkers.length = S.pAnkers.length := by
  simpa using congrArg List.length h.serials

theorem SendInv.stayMeasure_le (h : S.SendInv s) :
    stayMeasure s ≤ stayBound S.pAnkers.length := by
  have hle := failuresLeft_le s.pAnkers
  rw [h.length_eq] at hle
  simp only [stayMeasure, stayBound, maxSendFirmwareBroadcastFails, maxPartitionReadFails,
    maxRetrieveFirmwareAllAcksFails, maxRetrieveFirmwareAcksFailsToKickAnker] at *
  omega

/-! ## A single P-Anker -/

/-- With one P-Anker, a round that is heard and does not advance is a
failure of that P-Anker. -/
theorem SendInv.gaining_of_single (h : S.SendInv s) (hsingle : S.pAnkers.length = 1)
    (hrun : s.offset < S.size) {t : Turn} (hturn : S.turn s t = .next s')
    (hstay : s'.offset = s.offset) : S.Gaining s t := by
  cases turn_outcome hturn with
  | readFailed hcnt => exact trivial
  | sendFailed hcnt => exact trivial
  | silent startMicros polls hacks hcnt => exact Or.inl hacks
  | advanced startMicros polls hacks hremaining hcorrect =>
      have hpos := dataLen_pos hrun
      simp only at hstay
      omega
  | retried startMicros polls hacks hremaining hcorrect =>
      obtain ⟨p, hp⟩ := List.length_eq_one_iff.mp (h.length_eq.trans hsingle)
      have hpos := h.remaining_pos
      rw [h.remaining, hp] at hpos
      have hactive : p.active = true := by
        obtain ⟨q, hq, hactive⟩ := List.countP_pos_iff.mp hpos
        rwa [List.mem_singleton.mp hq] at hactive
      have hone : s.numRemaining = 1 := by simp [h.remaining, hp, hactive]
      have hsilent : ¬ Acked (S.roundAcks s startMicros polls) p.serial := by
        intro hacked
        have hall : ∀ q ∈ s.pAnkers, q.active = true ∧
            Acked (S.roundAcks s startMicros polls) q.serial := by
          intro q hq
          rw [hp, List.mem_singleton] at hq
          rw [hq]
          exact ⟨hactive, hacked⟩
        rw [h.turn_of_acked hall] at hturn
        have hoffset := congrArg SendState.offset (Flow.next.inj hturn)
        have hpos := dataLen_pos hrun
        simp only at hoffset hstay
        omega
      apply Or.inr
      rw [hp, hone]
      simp only [List.take_succ_cons, List.take_zero, List.mem_singleton, exists_eq_left, forall_eq]
      exact ⟨⟨hactive, hsilent⟩, fun _ hacked ↦ absurd hacked hsilent⟩

theorem gainingRun_of_single (hsingle : S.pAnkers.length = 1) {ts : List Turn}
    (hreach : S.Reachable s) (hafter : S.after ts s = some s') (hstay : s'.offset = s.offset) :
    S.GainingRun ts s := by
  induction ts generalizing s with
  | nil => exact trivial
  | cons t ts ih =>
      obtain ⟨hrun, s₁, hturn, hrest⟩ := after_cons_eq_some.mp hafter
      have hsame := offset_eq_of_turn hturn hrest hstay
      refine ⟨hreach.sendInv.gaining_of_single hsingle hrun hturn hsame, ?_⟩
      intro s₂ hturn'
      obtain rfl : s₁ = s₂ := Flow.next.inj (hturn.symm.trans hturn')
      exact ih (hreach.tail ⟨hrun, t, hturn⟩) hrest (by omega)

/-! ## Two P-Ankers that are silent by turns -/

def silentRound (S : Session) (seq : UInt16) (y : Serial) : Turn :=
  .round 0 ((((S.pAnkers.map PAnker.serial).filter (· ≠ y)).map fun x ↦ ⟨x, []⟩).map
    (answer S.sha256 seq))

/-- Nobody is kicked, and at most `x` has a failure, a single one. -/
structure Hovering (S : Session) (x : Serial) (s : SendState) : Prop where
  inv : S.SendInv s
  all : s.numRemaining = s.pAnkers.length
  failCnt_le : ∀ p ∈ s.pAnkers, p.failCnt ≤ 1
  only : ∀ p ∈ s.pAnkers, p.serial ≠ x → p.failCnt = 0

theorem hovering_start (S : Session) (x : Serial) : S.Hovering x S.start where
  inv := S.sendInv_start
  all := rfl
  failCnt_le p hp := by rw [S.fresh p hp]; exact Nat.zero_le 1
  only p hp _ := S.fresh p hp

/-- The devices that a silent round hears. -/
def others (S : Session) (y : Serial) : List Anker :=
  ((S.pAnkers.map PAnker.serial).filter (· ≠ y)).map fun x ↦ ⟨x, []⟩

theorem serial_others (y : Serial) :
    (S.others y).map Anker.serial = (S.pAnkers.map PAnker.serial).filter (· ≠ y) := by
  simp [others, Function.comp_def]

theorem mem_serial_others {y z : Serial} :
    z ∈ (S.others y).map Anker.serial ↔ z ∈ S.pAnkers.map PAnker.serial ∧ z ≠ y := by
  rw [serial_others, List.mem_filter, decide_eq_true_eq]

theorem Hovering.roundAcks_others {x : Serial} (h : S.Hovering x s) (y : Serial) :
    S.roundAcks s 0 ((S.others y).map (answer S.sha256 s.seq)) =
      (S.others y).map fun a ↦ ⟨a.serial, 0, true, 0⟩ := by
  apply S.roundAcks_answers s
  · rw [serial_others]
    exact S.nodup.filter _
  · rw [h.all, h.inv.length_eq]
    simpa [others] using List.length_filter_le (· ≠ y) (S.pAnkers.map PAnker.serial)

theorem Hovering.active {x : Serial} (h : S.Hovering x s) {p : PAnker} (hp : p ∈ s.pAnkers) :
    p.active = true :=
  PAnker.active_iff.mpr ((h.failCnt_le p hp).trans_lt (by decide))

/-- A silent round marks everybody but `y` as correct, and `y` as failed. -/
theorem Hovering.mark_others {x y : Serial} (h : S.Hovering x s) {p : PAnker}
    (hp : p ∈ s.pAnkers) :
    p.mark (S.roundAcks s 0 ((S.others y).map (answer S.sha256 s.seq))) =
      if p.serial = y then .failed else .correct := by
  have hacks := h.roundAcks_others y
  have hnodup := S.nodup_roundAcks s 0 ((S.others y).map (answer S.sha256 s.seq))
  have hacked : Acked (S.roundAcks s 0 ((S.others y).map (answer S.sha256 s.seq))) p.serial ↔
      p.serial ∈ S.pAnkers.map PAnker.serial ∧ p.serial ≠ y := by
    rw [← mem_serial_others, hacks]
    simp [Acked]
  have hlisted : p.serial ∈ S.pAnkers.map PAnker.serial := by
    rw [← h.inv.serials]
    exact List.mem_map_of_mem hp
  split_ifs with hpy
  · cases hm : p.mark (S.roundAcks s 0 ((S.others y).map (answer S.sha256 s.seq))) with
    | passedOver => exact absurd hm (PAnker.mark_ne_passedOver (h.active hp))
    | correct => exact absurd hpy (hacked.mp (PAnker.acked_of_mark_correct hm)).2
    | failed => rfl
    | kicked =>
        have hle := h.failCnt_le p hp
        rcases ((PAnker.mark_eq_kicked_iff hnodup).mp hm).2 with ⟨a, ha, -, -, hack⟩ | hlast
        · rw [hacks] at ha
          obtain ⟨b, -, rfl⟩ := List.mem_map.mp ha
          cases hack
        · simp only [maxRetrieveFirmwareAcksFailsToKickAnker] at hlast
          omega
  · exact PAnker.mark_of_acked hnodup (h.active hp) (hacked.mpr ⟨hlisted, hpy⟩)

/-- If `y` has no failure and misses one round, it takes the place of `x`. -/
theorem Hovering.silentRound {x y : Serial} (h : S.Hovering x s) (hne : x ≠ y)
    (hx : x ∈ S.pAnkers.map PAnker.serial) (hy : y ∈ S.pAnkers.map PAnker.serial) :
    ∃ s', S.turn s (S.silentRound s.seq y) = .next s' ∧ S.Hovering y s' ∧
      s'.offset = s.offset := by
  let polls := (S.others y).map (answer S.sha256 s.seq)
  have hkept : ∀ p ∈ s.pAnkers, p.mark (S.roundAcks s 0 polls) ≠ .kicked := by
    intro p hp
    rw [h.mark_others hp]
    split_ifs <;> decide
  have htally := roundTally_of_not_kicked h.all.ge hkept
  have hremaining : (S.roundTally s 0 polls).numRemaining = s.numRemaining := by rw [htally]
  have hpos : s.numRemaining ≠ 0 := Nat.ne_of_gt h.inv.remaining_pos
  have hmissing : (S.roundTally s 0 polls).numCorrectAnswered ≠ s.numRemaining := by
    rw [htally, h.all]
    intro hcount
    obtain ⟨p, hp, hpy⟩ := List.mem_map.mp (h.inv.serials ▸ hy)
    have hm := List.countP_eq_length.mp hcount p hp
    simp [polls, h.mark_others hp, hpy] at hm
  have hne_nil : S.roundAcks s 0 polls ≠ [] := by
    obtain ⟨a, ha, -⟩ := List.mem_map.mp (mem_serial_others.mpr ⟨hx, hne⟩)
    rw [h.roundAcks_others y]
    exact List.ne_nil_of_mem (List.mem_map_of_mem ha)
  refine ⟨S.tallied s 0 polls, ?_, ⟨?_, ?_, ?_, ?_⟩, rfl⟩
  · change S.turn s (.round 0 polls) = _
    simp only [turn, if_neg hne_nil, hremaining, if_neg hpos, ne_eq, hmissing, not_false_iff,
      if_true]
  · exact h.inv.tallied 0 polls (hremaining ▸ hpos)
  · simp only [tallied, htally, List.length_map]
    exact h.all
  · intro q hq
    simp only [tallied, htally] at hq
    obtain ⟨p, hp, rfl⟩ := List.mem_map.mp hq
    rw [h.mark_others hp]
    split_ifs with hpy
    · rw [PAnker.apply, h.only p hp (hpy ▸ hne.symm)]
    · exact Nat.zero_le 1
  · intro q hq hqy
    simp only [tallied, htally] at hq
    obtain ⟨p, hp, rfl⟩ := List.mem_map.mp hq
    rw [PAnker.apply_serial] at hqy
    rw [h.mark_others hp, if_neg hqy, PAnker.apply]

theorem Hovering.exists_stay {x y : Serial} (h : S.Hovering x s) (hne : x ≠ y)
    (hx : x ∈ S.pAnkers.map PAnker.serial) (hy : y ∈ S.pAnkers.map PAnker.serial)
    (hrun : s.offset < S.size) (k : ℕ) :
    ∃ ts s', ts.length = k ∧ S.after ts s = some s' ∧ s'.offset = s.offset := by
  induction k generalizing s x y with
  | zero => exact ⟨[], s, rfl, rfl, rfl⟩
  | succ k ih =>
      obtain ⟨s₁, hturn, hhover, hsame⟩ := h.silentRound hne hx hy
      obtain ⟨ts, s', hlen, hafter, hstay⟩ := ih hhover hne.symm hy hx (hsame ▸ hrun)
      refine ⟨S.silentRound s.seq y :: ts, s', by simp [hlen], ?_, hstay.trans hsame⟩
      exact after_cons_eq_some.mpr ⟨hrun, s₁, hturn, hafter⟩

/-! ## Which calls have a bound -/

def StaysWithin (S : Session) (K : ℕ) : Prop :=
  ∀ s ts s', S.Reachable s → S.after ts s = some s' → s'.offset = s.offset → ts.length ≤ K

theorem not_staysWithin (htwo : 2 ≤ S.pAnkers.length) (hsize : 0 < S.size) (K : ℕ) :
    ¬ S.StaysWithin K := by
  intro hbound
  have hlt : 1 < (S.pAnkers.map PAnker.serial).length := by
    rw [List.length_map]
    exact htwo
  have hne : (S.pAnkers.map PAnker.serial)[0] ≠ (S.pAnkers.map PAnker.serial)[1] := by
    intro heq
    have hindex := (List.Nodup.getElem_inj_iff S.nodup).mp heq
    omega
  obtain ⟨ts, s', hlen, hafter, hstay⟩ := (S.hovering_start _).exists_stay hne
    (List.getElem_mem _) (List.getElem_mem _) hsize (K + 1)
  have hle := hbound S.start ts s' .refl hafter hstay
  omega

def many (n : ℕ) (hpos : 1 ≤ n) (hle : n ≤ 255) : Session where
  sha256 := headHash
  own := ⟨Vector.replicate serialSize 255, [2, 0]⟩
  runningPartition := [10, 20, 30]
  pAnkers := (List.range n).map fun i ↦ ⟨Vector.replicate serialSize (UInt8.ofNat i), 0, false, 0⟩
  pAnkers_ne_nil := by simpa using Nat.ne_of_gt hpos
  length_le := by simpa using hle
  nodup := by
    rw [List.map_map]
    apply List.Nodup.map_on _ List.nodup_range
    intro i hi j hj heq
    rw [List.mem_range] at hi hj
    have hbyte : UInt8.ofNat i = UInt8.ofNat j := by
      have hhead := congrArg (fun v : Serial ↦ v.toList.head?) heq
      simpa [serialSize, List.replicate_succ] using hhead
    have hnat := congrArg UInt8.toNat hbyte
    rw [UInt8.toNat_ofNat_of_lt' (by simp [UInt8.size]; omega),
      UInt8.toNat_ofNat_of_lt' (by simp [UInt8.size]; omega)] at hnat
    exact hnat
  fresh := by
    intro p hp
    obtain ⟨i, -, rfl⟩ := List.mem_map.mp hp
    rfl

/-- A run whose rounds are all gaining leaves each chunk after a number of
turns that depends on the number of P-Ankers only.  Without that a bound
exists for a single P-Anker and for no larger number. -/
theorem stays_bounded (n : ℕ) (hpos : 1 ≤ n) (hle : n ≤ 255) :
    (∀ S : Session, S.pAnkers.length = n → ∀ s ts s', S.Reachable s → S.after ts s = some s' →
      s'.offset = s.offset → S.GainingRun ts s → ts.length ≤ stayBound n) ∧
      ((∃ K, ∀ S : Session, S.pAnkers.length = n → S.StaysWithin K) ↔ n = 1) := by
  constructor
  · intro S hS s ts s' hreach hafter hstay hgain
    have hlen := length_le_stayMeasure hafter hstay hgain
    rw [← hS]
    exact hlen.trans hreach.sendInv.stayMeasure_le
  · constructor
    · intro hbound
      obtain ⟨K, hK⟩ := hbound
      by_contra hne
      have htwo : 2 ≤ (many n hpos hle).pAnkers.length := by
        simp only [many, List.length_map, List.length_range]
        omega
      exact not_staysWithin htwo (Nat.succ_pos 2) K (hK (many n hpos hle) (by simp [many]))
    · intro hone
      refine ⟨stayBound 1, ?_⟩
      intro S hS s ts s' hreach hafter hstay
      have hsingle : S.pAnkers.length = 1 := hS.trans hone
      have hgain := gainingRun_of_single hsingle hreach hafter hstay
      have hlen := length_le_stayMeasure hafter hstay hgain
      rw [← hsingle]
      exact hlen.trans hreach.sendInv.stayMeasure_le

theorem stays_bounded_pair : [Turn.round 0 [pairAnswer 2]].length ≤ stayBound 2 ∧
    ∃ K, ∀ S : Session, S.pAnkers.length = 1 → S.StaysWithin K := by
  refine ⟨?_, (stays_bounded 1 (by decide) (by decide)).2.mpr rfl⟩
  exact (stays_bounded 2 (by decide) (by decide)).1 pair rfl pair.start
    [.round 0 [pairAnswer 2]]
    ⟨0, 0, true, 0, 0, 0, 2, [⟨Vector.replicate serialSize 1, 1, false, 1⟩,
      ⟨Vector.replicate serialSize 2, 2, false, 0⟩]⟩
    .refl (by decide) rfl ⟨Or.inr (by decide), fun _ _ ↦ trivial⟩

/-- Two P-Ankers that miss every other round in turn keep the loop on the
first chunk for any number of turns. -/
theorem not_staysWithin_pair : ¬ ∃ K, ∀ S : Session, S.pAnkers.length = 2 → S.StaysWithin K := by
  intro hbound
  obtain ⟨K, hK⟩ := hbound
  exact not_staysWithin (S := pair) (by decide) (by decide) K (hK pair rfl)

end Session

end AnkerUpdater
