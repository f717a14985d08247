import AnkerUpdater.Protocol.SendLoop

/-!
# Invariants of the firmware loop

The tally loop keeps `num_remaining_p_ankers` equal to the number of
entries that are not kicked, and it counts at most one correct answer for
each of them.  So a round advances only if every entry that is not kicked
answered correctly in it.
-/

namespace AnkerUpdater

open Relation

def PAnker.active (p : PAnker) : Bool := !p.kicked

def Acked (acks : List PAnker) (serial : Serial) : Prop :=
  ∃ a ∈ acks, a.serial = serial ∧ a.acknowledged = true ∧ a.failCnt = 0

instance (acks : List PAnker) (serial : Serial) : Decidable (Acked acks serial) :=
  inferInstanceAs (Decidable (∃ a ∈ acks, a.serial = serial ∧ a.acknowledged = true ∧ a.failCnt = 0))

theorem PAnker.active_iff {p : PAnker} :
    p.active = true ↔ p.failCnt < maxRetrieveFirmwareAcksFailsToKickAnker := by
  simp [PAnker.active, PAnker.kicked]

theorem PAnker.failMark_ne_correct (p : PAnker) : p.failMark ≠ .correct := by
  rw [PAnker.failMark]
  split_ifs <;> simp

theorem PAnker.failMark_ne_passedOver (p : PAnker) : p.failMark ≠ .passedOver := by
  rw [PAnker.failMark]
  split_ifs <;> simp

section Mark

variable {p : PAnker} {acks : List PAnker}

theorem PAnker.mark_of_kicked (h : p.active = false) : p.mark acks = .passedOver := by
  have hk : p.kicked = true := by simpa [PAnker.active] using h
  simp [PAnker.mark, hk]

theorem PAnker.mark_ne_passedOver (h : p.active = true) : p.mark acks ≠ .passedOver := by
  have hk : p.kicked = false := by simpa [PAnker.active] using h
  simp only [PAnker.mark, hk, Bool.false_eq_true, if_false]
  split
  · exact p.failMark_ne_passedOver
  · split_ifs
    · exact p.failMark_ne_passedOver
    · simp
    · simp

theorem PAnker.acked_of_mark_correct (h : p.mark acks = .correct) : Acked acks p.serial := by
  rw [PAnker.mark] at h
  split_ifs at h
  split at h
  · exact absurd h p.failMark_ne_correct
  · rename_i a hfind
    split_ifs at h with hfail hack
    · exact absurd h p.failMark_ne_correct
    · refine ⟨a, List.mem_of_find?_eq_some hfind, ?_, ?_, not_not.mp hfail⟩
      · simpa using List.find?_some hfind
      · simpa using hack

theorem PAnker.active_of_mark {m : Mark} (hm : p.mark acks = m) (hne : m ≠ .passedOver) :
    p.active = true := by
  by_contra hk
  exact hne (hm.symm.trans (PAnker.mark_of_kicked (by simpa using hk)))

theorem find?_serial_eq_some {x : Serial} {a : PAnker} (hnodup : (acks.map PAnker.serial).Nodup) :
    (acks.find? fun b ↦ b.serial = x) = some a ↔ a ∈ acks ∧ a.serial = x := by
  constructor
  · intro h
    exact ⟨List.mem_of_find?_eq_some h, by simpa using List.find?_some h⟩
  · intro h
    obtain ⟨hmem, hserial⟩ := h
    cases hf : acks.find? fun b ↦ b.serial = x with
    | none =>
        have hnone := List.find?_eq_none.mp hf a hmem
        simp [hserial] at hnone
    | some b =>
        have hb : b.serial = x := by simpa using List.find?_some hf
        have hab : b = a := List.inj_on_of_nodup_map hnodup (List.mem_of_find?_eq_some hf) hmem
          (hb.trans hserial.symm)
        rw [hab]

theorem PAnker.mark_of_acked (hnodup : (acks.map PAnker.serial).Nodup)
    (hactive : p.active = true) (h : Acked acks p.serial) : p.mark acks = .correct := by
  obtain ⟨a, hmem, hserial, hack, hfail⟩ := h
  have hk : p.kicked = false := by simpa [PAnker.active] using hactive
  have hfind := (find?_serial_eq_some hnodup).mpr ⟨hmem, hserial⟩
  simp [PAnker.mark, hk, hfind, hack, hfail]

theorem PAnker.mark_eq_correct_iff (hnodup : (acks.map PAnker.serial).Nodup) :
    p.mark acks = .correct ↔ p.active = true ∧ Acked acks p.serial := by
  constructor
  · exact fun h ↦ ⟨PAnker.active_of_mark h (by simp), PAnker.acked_of_mark_correct h⟩
  · exact fun h ↦ PAnker.mark_of_acked hnodup h.1 h.2

/-- An entry is kicked on its own request or for its last failure. -/
theorem PAnker.mark_eq_kicked_iff (hnodup : (acks.map PAnker.serial).Nodup) :
    p.mark acks = .kicked ↔ p.active = true ∧
      ((∃ a ∈ acks, a.serial = p.serial ∧ a.failCnt = 0 ∧ a.acknowledged = false) ∨
        (p.failCnt + 1 = maxRetrieveFirmwareAcksFailsToKickAnker ∧
          ¬ ∃ a ∈ acks, a.serial = p.serial ∧ a.failCnt = 0)) := by
  cases hactive : p.active with
  | false => simp [PAnker.mark_of_kicked hactive]
  | true =>
      have hk : p.kicked = false := by simpa [PAnker.active] using hactive
      have hlt := PAnker.active_iff.mp hactive
      have hfail : p.failMark = .kicked ↔
          p.failCnt + 1 = maxRetrieveFirmwareAcksFailsToKickAnker := by
        rw [PAnker.failMark]
        split_ifs with hcnt
        · simp only [false_iff]
          omega
        · simp only [true_iff]
          omega
      simp only [PAnker.mark, hk, Bool.false_eq_true, if_false, true_and]
      cases hfind : acks.find? fun b ↦ b.serial = p.serial with
      | none =>
          have hnone : ∀ a ∈ acks, a.serial ≠ p.serial := by
            simpa using List.find?_eq_none.mp hfind
          have hzero : ¬ ∃ a ∈ acks, a.serial = p.serial ∧ a.failCnt = 0 := by
            rintro ⟨a, ha, hserial, -⟩
            exact hnone a ha hserial
          have hkick : ¬ ∃ a ∈ acks,
              a.serial = p.serial ∧ a.failCnt = 0 ∧ a.acknowledged = false := by
            rintro ⟨a, ha, hserial, -⟩
            exact hnone a ha hserial
          simp only [hfail, hzero, hkick, false_or, not_false_iff, and_true]
      | some a =>
          obtain ⟨hmem, hserial⟩ := (find?_serial_eq_some hnodup).mp hfind
          have hunique : ∀ b ∈ acks, b.serial = p.serial → b = a := by
            intro b hb hbserial
            have hb := (find?_serial_eq_some hnodup).mpr ⟨hb, hbserial⟩
            rw [hfind] at hb
            exact (Option.some.inj hb).symm
          have hzero : (∃ b ∈ acks, b.serial = p.serial ∧ b.failCnt = 0) ↔ a.failCnt = 0 := by
            constructor
            · rintro ⟨b, hb, hbserial, hbzero⟩
              rwa [hunique b hb hbserial] at hbzero
            · exact fun hazero ↦ ⟨a, hmem, hserial, hazero⟩
          have hkick : (∃ b ∈ acks, b.serial = p.serial ∧ b.failCnt = 0 ∧
              b.acknowledged = false) ↔ a.failCnt = 0 ∧ a.acknowledged = false := by
            constructor
            · rintro ⟨b, hb, hbserial, hbzero⟩
              rwa [hunique b hb hbserial] at hbzero
            · exact fun hazero ↦ ⟨a, hmem, hserial, hazero⟩
          rw [hzero, hkick]
          by_cases hcnt : a.failCnt = 0
          · cases hack : a.acknowledged <;> simp [hcnt, hack]
          · simp [hcnt, hfail]

@[simp] theorem PAnker.apply_serial (p : PAnker) (m : Mark) : (p.apply m).serial = p.serial := by
  cases m <;> rfl

@[simp] theorem PAnker.apply_acknowledged (p : PAnker) (m : Mark) :
    (p.apply m).acknowledged = p.acknowledged := by
  cases m <;> rfl

theorem PAnker.active_apply_correct : (p.apply .correct).active = true := by
  simp [PAnker.apply, PAnker.active_iff, maxRetrieveFirmwareAcksFailsToKickAnker]

theorem PAnker.active_apply_kicked : (p.apply .kicked).active = false := by
  simp [PAnker.apply, PAnker.active, PAnker.kicked]

theorem PAnker.failMark_eq_failed (h : p.failMark = .failed) :
    p.failCnt + 1 < maxRetrieveFirmwareAcksFailsToKickAnker := by
  rw [PAnker.failMark] at h
  split_ifs at h with hlt
  exact hlt

theorem PAnker.failCnt_of_mark_failed (h : p.mark acks = .failed) :
    p.failCnt + 1 < maxRetrieveFirmwareAcksFailsToKickAnker := by
  rw [PAnker.mark] at h
  split_ifs at h
  split at h
  · exact p.failMark_eq_failed h
  · split_ifs at h
    exact p.failMark_eq_failed h

theorem PAnker.active_apply_failed (h : p.mark acks = .failed) :
    (p.apply .failed).active = true := by
  have hlt := PAnker.failCnt_of_mark_failed h
  simpa [PAnker.apply, PAnker.active_iff] using hlt

theorem PAnker.failCnt_apply_mark_le
    (h : p.failCnt ≤ maxRetrieveFirmwareAcksFailsToKickAnker) :
    (p.apply (p.mark acks)).failCnt ≤ maxRetrieveFirmwareAcksFailsToKickAnker := by
  cases hm : p.mark acks with
  | passedOver => exact h
  | correct => exact Nat.zero_le _
  | failed => exact (PAnker.failCnt_of_mark_failed hm).le
  | kicked => exact le_rfl

theorem PAnker.not_active_of_mark (hm : p.mark acks = .passedOver) : p.active = false := by
  by_contra hp
  exact PAnker.mark_ne_passedOver (by simpa using hp) hm

end Mark

/-! ## The tally loop -/

section Tally

variable (acks : List PAnker)

theorem tallyAcks_cons_lt {i nr nc : ℕ} (p : PAnker) (ps : List PAnker) (h : i < nr) :
    tallyAcks acks i nr nc (p :: ps) =
      let t := tallyAcks acks (i + 1) (if p.mark acks = .kicked then nr - 1 else nr)
        (if p.mark acks = .correct then nc + 1 else nc) ps
      ⟨p.apply (p.mark acks) :: t.pAnkers, t.numRemaining, t.numCorrectAnswered,
        p.mark acks :: t.marks⟩ := by
  rw [tallyAcks, if_pos h]

theorem tallyAcks_cons_ge {i nr nc : ℕ} (p : PAnker) (ps : List PAnker) (h : nr ≤ i) :
    tallyAcks acks i nr nc (p :: ps) =
      ⟨p :: ps, nr, nc, (p :: ps).map fun _ ↦ .passedOver⟩ := by
  rw [tallyAcks, if_neg (by omega)]

theorem tallyAcks_map {β : Type*} {f : PAnker → β} (hf : ∀ p m, f (PAnker.apply p m) = f p)
    (i nr nc : ℕ) (ps : List PAnker) :
    (tallyAcks acks i nr nc ps).pAnkers.map f = ps.map f := by
  induction ps generalizing i nr nc with
  | nil => rfl
  | cons p ps ih =>
      by_cases h : i < nr
      · rw [tallyAcks_cons_lt acks p ps h]
        simp [ih, hf]
      · rw [tallyAcks_cons_ge acks p ps (by omega)]

theorem tallyAcks_remaining (i nr nc : ℕ) (ps : List PAnker) :
    (tallyAcks acks i nr nc ps).numRemaining + ps.countP PAnker.active =
      nr + (tallyAcks acks i nr nc ps).pAnkers.countP PAnker.active := by
  induction ps generalizing i nr nc with
  | nil => rfl
  | cons p ps ih =>
      by_cases h : i < nr
      · rw [tallyAcks_cons_lt acks p ps h]
        simp only [List.countP_cons]
        cases hm : p.mark acks with
        | passedOver =>
            have hrest := ih (i + 1) nr nc
            have hp : p.active = false := PAnker.not_active_of_mark hm
            simp only [reduceCtorEq, if_false, PAnker.apply, hp, Bool.false_eq_true]
            omega
        | correct =>
            have hrest := ih (i + 1) nr (nc + 1)
            have hp : p.active = true := PAnker.active_of_mark hm (by simp)
            simp only [reduceCtorEq, if_false, if_true, hp, PAnker.active_apply_correct]
            omega
        | failed =>
            have hrest := ih (i + 1) nr nc
            have hp : p.active = true := PAnker.active_of_mark hm (by simp)
            simp only [reduceCtorEq, if_false, if_true, hp, PAnker.active_apply_failed hm]
            omega
        | kicked =>
            have hrest := ih (i + 1) (nr - 1) nc
            have hp : p.active = true := PAnker.active_of_mark hm (by simp)
            simp only [reduceCtorEq, if_false, if_true, hp, PAnker.active_apply_kicked,
              Bool.false_eq_true]
            omega
      · rw [tallyAcks_cons_ge acks p ps (by omega)]

/-- The tally counts at most one correct answer for each entry that is not
kicked, and if it counts as many as there are, all of them answered. -/
theorem tallyAcks_correct (i nr nc : ℕ) (ps : List PAnker) :
    (tallyAcks acks i nr nc ps).numCorrectAnswered ≤
        nc + (tallyAcks acks i nr nc ps).pAnkers.countP PAnker.active ∧
      ((tallyAcks acks i nr nc ps).numCorrectAnswered =
          nc + (tallyAcks acks i nr nc ps).pAnkers.countP PAnker.active →
        ∀ p ∈ (tallyAcks acks i nr nc ps).pAnkers, p.active = true → Acked acks p.serial) := by
  induction ps generalizing i nr nc with
  | nil => simp [tallyAcks]
  | cons p ps ih =>
      by_cases h : i < nr
      · rw [tallyAcks_cons_lt acks p ps h]
        simp only [List.countP_cons, List.forall_mem_cons]
        cases hm : p.mark acks with
        | passedOver =>
            obtain ⟨hle, hall⟩ := ih (i + 1) nr nc
            have hp : p.active = false := PAnker.not_active_of_mark hm
            simp only [reduceCtorEq, if_false, PAnker.apply, hp, Bool.false_eq_true,
              Nat.add_zero, false_implies, true_and]
            exact ⟨hle, hall⟩
        | correct =>
            obtain ⟨hle, hall⟩ := ih (i + 1) nr (nc + 1)
            simp only [reduceCtorEq, if_false, if_true, PAnker.active_apply_correct]
            refine ⟨by omega, fun heq ↦ ⟨fun _ ↦ ?_, hall (by omega)⟩⟩
            simpa using PAnker.acked_of_mark_correct hm
        | failed =>
            obtain ⟨hle, hall⟩ := ih (i + 1) nr nc
            simp only [reduceCtorEq, if_false, if_true, PAnker.active_apply_failed hm]
            exact ⟨by omega, fun heq ↦ by omega⟩
        | kicked =>
            obtain ⟨hle, hall⟩ := ih (i + 1) (nr - 1) nc
            simp only [reduceCtorEq, if_false, if_true, PAnker.active_apply_kicked,
              Bool.false_eq_true, Nat.add_zero, false_implies, true_and]
            exact ⟨hle, hall⟩
      · rw [tallyAcks_cons_ge acks p ps (by omega)]
        refine ⟨Nat.le_add_right _ _, fun heq ↦ ?_⟩
        have hzero : (p :: ps).countP PAnker.active = 0 := (Nat.left_eq_add.mp heq)
        intro q hq hactive
        exact absurd hactive (List.countP_eq_zero.mp hzero q hq)

theorem tallyAcks_of_not_kicked {i nr nc : ℕ} {ps : List PAnker} (hlen : i + ps.length ≤ nr)
    (hps : ∀ p ∈ ps, p.mark acks ≠ .kicked) :
    tallyAcks acks i nr nc ps = ⟨ps.map fun p ↦ p.apply (p.mark acks), nr,
      nc + ps.countP (fun p ↦ p.mark acks = .correct), ps.map fun p ↦ p.mark acks⟩ := by
  induction ps generalizing i nc with
  | nil => rfl
  | cons p ps ih =>
      simp only [List.forall_mem_cons, List.length_cons] at hps hlen
      have hrest : i + 1 + ps.length ≤ nr := by omega
      rw [tallyAcks_cons_lt acks p ps (by omega), if_neg hps.1]
      by_cases hcorrect : p.mark acks = .correct
      · simp only [hcorrect, if_true, ih hrest hps.2, List.map_cons, List.countP_cons, decide_true,
          Tally.mk.injEq, true_and, and_true]
        omega
      · simp [hcorrect, ih hrest hps.2]

/-- The tally leaves an entry alone or does to it what its mark says. -/
theorem mem_tallyAcks {i nr nc : ℕ} {ps : List PAnker} {q : PAnker}
    (hq : q ∈ (tallyAcks acks i nr nc ps).pAnkers) :
    ∃ p ∈ ps, q = p ∨ q = p.apply (p.mark acks) := by
  induction ps generalizing i nr nc with
  | nil => simp [tallyAcks] at hq
  | cons p ps ih =>
      by_cases h : i < nr
      · rw [tallyAcks_cons_lt acks p ps h] at hq
        rcases List.mem_cons.mp hq with hq | hq
        · exact ⟨p, List.mem_cons_self, Or.inr hq⟩
        · obtain ⟨p', hp', hcases⟩ := ih hq
          exact ⟨p', List.mem_cons_of_mem p hp', hcases⟩
      · rw [tallyAcks_cons_ge acks p ps (by omega)] at hq
        exact ⟨q, hq, Or.inl rfl⟩

theorem tallyAcks_failCnt_le (i nr nc : ℕ) (ps : List PAnker)
    (hps : ∀ p ∈ ps, p.failCnt ≤ maxRetrieveFirmwareAcksFailsToKickAnker) :
    ∀ p ∈ (tallyAcks acks i nr nc ps).pAnkers,
      p.failCnt ≤ maxRetrieveFirmwareAcksFailsToKickAnker := by
  intro q hq
  obtain ⟨p, hp, hcases⟩ := mem_tallyAcks acks hq
  rcases hcases with rfl | rfl
  · exact hps q hp
  · exact PAnker.failCnt_apply_mark_le (hps p hp)

theorem tallyAcks_active (i nr nc : ℕ) (ps : List PAnker) :
    ∀ q ∈ (tallyAcks acks i nr nc ps).pAnkers, q.active = true →
      ∃ p ∈ ps, p.serial = q.serial ∧ p.active = true := by
  intro q hq hactive
  obtain ⟨p, hp, hcases⟩ := mem_tallyAcks acks hq
  rcases hcases with rfl | rfl
  · exact ⟨q, hp, rfl, hactive⟩
  · refine ⟨p, hp, (p.apply_serial _).symm, ?_⟩
    by_contra hkicked
    have hkicked : p.active = false := by simpa using hkicked
    rw [PAnker.mark_of_kicked hkicked, PAnker.apply, hkicked] at hactive
    cases hactive

end Tally

/-! ## Invariants of the loop -/

namespace Session

variable (S : Session)

def chunkCount : ℕ := (S.size + (dataMaxLen - 1)) / dataMaxLen

/-- The offset of chunk `k`, or the size once all chunks are sent. -/
def chunkOffset (k : ℕ) : ℕ := min (k * dataMaxLen) S.size

structure SendInv (s : SendState) : Prop where
  serials : s.pAnkers.map PAnker.serial = S.pAnkers.map PAnker.serial
  acknowledged : s.pAnkers.map PAnker.acknowledged = S.pAnkers.map PAnker.acknowledged
  remaining : s.numRemaining = s.pAnkers.countP PAnker.active
  remaining_pos : 0 < s.numRemaining
  failCnt_le : ∀ p ∈ s.pAnkers, p.failCnt ≤ maxRetrieveFirmwareAcksFailsToKickAnker
  position : ∃ k ≤ S.chunkCount, s.seq = UInt16.ofNat k ∧ s.offset = S.chunkOffset k
  isLast : s.isLast = true → S.overrunsAt s.offset = true

theorem overrunsAt_iff {offset : ℕ} :
    S.overrunsAt offset = true ↔ S.size < offset + dataMaxLen := by
  simp [overrunsAt]

theorem dataLen_eq (offset : ℕ) :
    S.dataLen offset = if S.size < offset + dataMaxLen then S.size - offset else dataMaxLen := by
  simp [dataLen, overrunsAt]

theorem chunkOffset_lt_size_iff {k : ℕ} : S.chunkOffset k < S.size ↔ k < S.chunkCount := by
  simp only [chunkOffset, chunkCount, dataMaxLen]
  omega

theorem chunkOffset_add_dataLen (k : ℕ) :
    S.chunkOffset k + S.dataLen (S.chunkOffset k) = S.chunkOffset (k + 1) := by
  by_cases h : S.size < S.chunkOffset k + dataMaxLen
  · rw [S.dataLen_eq, if_pos h]
    simp only [chunkOffset, dataMaxLen] at *
    omega
  · rw [S.dataLen_eq, if_neg h]
    simp only [chunkOffset, dataMaxLen] at *
    omega

theorem active_start : S.pAnkers.countP PAnker.active = S.pAnkers.length := by
  rw [List.countP_eq_length]
  intro p hp
  rw [PAnker.active_iff, S.fresh p hp]
  exact Nat.succ_pos _

theorem sendInv_start : S.SendInv S.start where
  serials := rfl
  acknowledged := rfl
  remaining := S.active_start.symm
  remaining_pos := List.length_pos_of_ne_nil S.pAnkers_ne_nil
  failCnt_le p hp := by rw [S.fresh p hp]; exact Nat.zero_le _
  position := ⟨0, Nat.zero_le _, rfl, by simp [start, chunkOffset]⟩
  isLast h := by simp [start] at h

variable {S}

theorem SendInv.tallied {s : SendState} (h : S.SendInv s) (startMicros : ℕ) (polls : List Poll)
    (hremaining : (S.roundTally s startMicros polls).numRemaining ≠ 0) :
    S.SendInv (S.tallied s startMicros polls) where
  serials := (tallyAcks_map _ PAnker.apply_serial _ _ _ _).trans h.serials
  acknowledged := (tallyAcks_map _ PAnker.apply_acknowledged _ _ _ _).trans h.acknowledged
  remaining := by
    have hcount := tallyAcks_remaining (S.roundAcks s startMicros polls) 0 s.numRemaining 0
      s.pAnkers
    rw [h.remaining] at hcount
    simp only [Session.tallied, roundTally, h.remaining]
    omega
  remaining_pos := Nat.pos_of_ne_zero hremaining
  failCnt_le := tallyAcks_failCnt_le _ _ _ _ _ h.failCnt_le
  position := h.position
  isLast hlast := by
    rcases Bool.or_eq_true_iff.mp hlast with hlast | hlast
    · exact h.isLast hlast
    · exact hlast

theorem SendInv.prepare {s : SendState} (h : S.SendInv s) : S.SendInv (S.prepare s) where
  serials := h.serials
  acknowledged := h.acknowledged
  remaining := h.remaining
  remaining_pos := h.remaining_pos
  failCnt_le := h.failCnt_le
  position := h.position
  isLast hlast := by
    rcases Bool.or_eq_true_iff.mp hlast with hlast | hlast
    · exact h.isLast hlast
    · exact hlast

theorem SendInv.counters {s : SendState} (h : S.SendInv s) (r f a : ℕ) :
    S.SendInv { s with readPartitionFailCnt := r, sendFailCnt := f, allAcksFailCnt := a } :=
  ⟨h.serials, h.acknowledged, h.remaining, h.remaining_pos, h.failCnt_le, h.position, h.isLast⟩

/-- Past the last chunk nothing is sent any more, so the flag may stay set. -/
theorem overrunsAt_add_dataLen {offset : ℕ} (hrun : offset < S.size)
    (h : S.overrunsAt offset = true) : S.overrunsAt (offset + S.dataLen offset) = true := by
  simp only [overrunsAt_iff, dataLen_eq, dataMaxLen] at *
  omega

theorem SendInv.turn {s s' : SendState} {t : Turn} (h : S.SendInv s) (hrun : s.offset < S.size)
    (ht : S.turn s t = .next s') : S.SendInv s' := by
  cases turn_outcome ht with
  | readFailed hcnt => exact h.prepare.counters _ _ _
  | sendFailed hcnt => exact h.prepare.counters _ _ _
  | silent startMicros polls hacks hcnt => exact h.prepare.counters _ _ _
  | retried startMicros polls hacks hremaining hcorrect =>
      exact h.tallied startMicros polls hremaining
  | advanced startMicros polls hacks hremaining hcorrect =>
      have ht := h.tallied startMicros polls hremaining
      obtain ⟨k, hk, hseq, hoffset⟩ := h.position
      refine ⟨ht.serials, ht.acknowledged, ht.remaining, ht.remaining_pos, ht.failCnt_le,
        ⟨k + 1, ?_, ?_, ?_⟩, ?_⟩
      · rw [hoffset] at hrun
        exact S.chunkOffset_lt_size_iff.mp hrun
      · simp [hseq]
      · simp only [hoffset]
        exact S.chunkOffset_add_dataLen k
      · exact fun hlast ↦ overrunsAt_add_dataLen hrun (ht.isLast hlast)

theorem Reachable.sendInv {s : SendState} (h : S.Reachable s) : S.SendInv s := by
  induction h with
  | refl => exact S.sendInv_start
  | tail _ hnext ih =>
      obtain ⟨hrun, t, ht⟩ := hnext
      exact ih.turn hrun ht

/-- A round that advances heard a correct acknowledgement of the current
chunk from every P-Anker that is not kicked after it. -/
theorem SendInv.acked_of_advance {s : SendState} (h : S.SendInv s) {startMicros : ℕ}
    {polls : List Poll}
    (hcorrect : (S.roundTally s startMicros polls).numCorrectAnswered =
      (S.roundTally s startMicros polls).numRemaining)
    (hremaining : (S.roundTally s startMicros polls).numRemaining ≠ 0) :
    ∀ p ∈ (S.roundTally s startMicros polls).pAnkers, p.active = true →
      Acked (S.roundAcks s startMicros polls) p.serial := by
  have hcount := (h.tallied startMicros polls hremaining).remaining
  apply (tallyAcks_correct _ 0 s.numRemaining 0 s.pAnkers).2
  rw [Nat.zero_add]
  exact hcorrect.trans hcount

theorem arrived_of_acked {s : SendState} {startMicros : ℕ} {polls : List Poll} {serial : Serial}
    (h : Acked (S.roundAcks s startMicros polls) serial) :
    ∃ p ∈ polls, ∃ d, p.datagram = some d ∧ d.info.accepted S.sha256 = true ∧
      d.info.type = AckType.rcvdBinaryData.code ∧ d.info.serial = serial ∧
      d.info.seq = s.seq := by
  obtain ⟨a, hmem, hserial, hack, hfail⟩ := h
  obtain ⟨d, hd, haccepted, hv⟩ := mem_retrieveUpdatePingAck hmem
  obtain ⟨p, hp, hdatagram⟩ := mem_ackWindow hd
  obtain ⟨htype, hseq, hentry⟩ := typeVerdict_firmware_correct hv hack hfail
  exact ⟨p, hp, d, hdatagram, haccepted, htype, hentry.symm.trans hserial, hseq⟩

theorem nodup_roundAcks (s : SendState) (startMicros : ℕ) (polls : List Poll) :
    ((S.roundAcks s startMicros polls).map PAnker.serial).Nodup :=
  nodup_retrieveUpdatePingAck

theorem roundAcks_answers (s : SendState) {ankers : List Anker}
    (hnodup : (ankers.map Anker.serial).Nodup) (hlen : ankers.length ≤ s.numRemaining) :
    S.roundAcks s 0 (ankers.map (answer S.sha256 s.seq)) =
      ankers.map fun a ↦ ⟨a.serial, 0, true, 0⟩ := by
  refine retrieveUpdatePingAck_answers S.sha256 S.own s.seq ankers ?_ hnodup hlen
  rw [ackTimeoutMs]
  split_ifs <;> decide

theorem roundTally_of_not_kicked {s : SendState} {startMicros : ℕ} {polls : List Poll}
    (hlen : s.pAnkers.length ≤ s.numRemaining)
    (hmark : ∀ p ∈ s.pAnkers, p.mark (S.roundAcks s startMicros polls) ≠ .kicked) :
    S.roundTally s startMicros polls =
      ⟨s.pAnkers.map fun p ↦ p.apply (p.mark (S.roundAcks s startMicros polls)), s.numRemaining,
        s.pAnkers.countP fun p ↦ p.mark (S.roundAcks s startMicros polls) = .correct,
        s.pAnkers.map fun p ↦ p.mark (S.roundAcks s startMicros polls)⟩ := by
  have hindex : 0 + s.pAnkers.length ≤ s.numRemaining := by omega
  rw [roundTally, tallyAcks_of_not_kicked _ hindex hmark, Nat.zero_add]

theorem SendInv.turn_of_acked {s : SendState} (h : S.SendInv s) {startMicros : ℕ}
    {polls : List Poll}
    (hacked : ∀ p ∈ s.pAnkers, p.active = true ∧ Acked (S.roundAcks s startMicros polls) p.serial) :
    S.turn s (.round startMicros polls) = .next { S.sent s with
      allAcksFailCnt := 0
      offset := s.offset + S.dataLen s.offset
      seq := s.seq + 1
      pAnkers := s.pAnkers.map fun p ↦ { p with failCnt := 0 } } := by
  have hlen : s.numRemaining = s.pAnkers.length := by
    rw [h.remaining, List.countP_eq_length]
    exact fun p hp ↦ (hacked p hp).1
  have hpos := h.remaining_pos
  have hmark : ∀ p ∈ s.pAnkers, p.mark (S.roundAcks s startMicros polls) = .correct :=
    fun p hp ↦ PAnker.mark_of_acked (nodup_roundAcks s startMicros polls) (hacked p hp).1
      (hacked p hp).2
  have hmap : (s.pAnkers.map fun p ↦ p.apply (p.mark (S.roundAcks s startMicros polls))) =
      s.pAnkers.map fun p ↦ { p with failCnt := 0 } :=
    List.map_congr_left fun p hp ↦ by rw [hmark p hp, PAnker.apply]
  have hcount : s.pAnkers.countP (fun p ↦ p.mark (S.roundAcks s startMicros polls) = .correct) =
      s.numRemaining := by
    rw [hlen, List.countP_eq_length]
    exact fun p hp ↦ by simp [hmark p hp]
  have hkept : ∀ p ∈ s.pAnkers, p.mark (S.roundAcks s startMicros polls) ≠ .kicked := by
    intro p hp
    simp [hmark p hp]
  have htally := roundTally_of_not_kicked hlen.ge hkept
  have hne : S.roundAcks s startMicros polls ≠ [] := by
    intro hnil
    obtain ⟨p, hp⟩ := List.exists_mem_of_length_pos (hlen ▸ hpos)
    obtain ⟨-, a, ha, -⟩ := hacked p hp
    simp [hnil] at ha
  have hremaining : s.numRemaining ≠ 0 := Nat.ne_of_gt hpos
  rw [hmap, hcount] at htally
  simp only [Session.turn, if_neg hne, htally, if_neg hremaining, Session.tallied]
  rw [if_neg (by omega)]
  rfl

end Session

end AnkerUpdater
