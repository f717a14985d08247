import AnkerUpdater.Protocol.SendInvariant

/-!
# What one round makes of the acknowledgements

The array of P-Ankers is never compacted, but the tally loop stops at
`num_remaining_p_ankers`.  Once an entry is kicked, entries at the end of
the array are no longer looked at.  The collector in turn leaves early on
some answers and when it holds as many as P-Ankers are left.
-/

namespace AnkerUpdater

/-! ## Who is looked at -/

section Tally

variable (acks : List PAnker)

/-- An entry is looked at if it lies below the bound that the kicks before
it have left. -/
theorem tallyAcks_marks_getElem? (i nr nc : ℕ) (ps : List PAnker) (j : ℕ) {p : PAnker}
    (hp : ps[j]? = some p) :
    (tallyAcks acks i nr nc ps).marks[j]? = some
      (if i + j + (ps.take j).countP (fun q ↦ q.mark acks = .kicked) < nr then p.mark acks
        else .passedOver) := by
  induction ps generalizing i nr nc j with
  | nil => simp at hp
  | cons q ps ih =>
      by_cases h : i < nr
      · rw [tallyAcks_cons_lt acks q ps h]
        cases j with
        | zero =>
            obtain rfl : q = p := by simpa using hp
            simp [h]
        | succ j =>
            have hrest := ih (i + 1) (if q.mark acks = .kicked then nr - 1 else nr)
              (if q.mark acks = .correct then nc + 1 else nc) j hp
            simp only [List.getElem?_cons_succ, hrest, List.take_succ_cons, List.countP_cons,
              decide_eq_true_eq]
            congr 1
            by_cases hkicked : q.mark acks = .kicked
            · simp only [hkicked, if_true]
              refine if_congr ?_ rfl rfl
              omega
            · simp only [hkicked, if_false]
              refine if_congr ?_ rfl rfl
              omega
      · rw [tallyAcks_cons_ge acks q ps (by omega), if_neg (by omega)]
        simp only [List.getElem?_map, hp, Option.map_some]

theorem tallyAcks_correct_eq_count (i nr nc : ℕ) (ps : List PAnker) :
    (tallyAcks acks i nr nc ps).numCorrectAnswered =
      nc + (tallyAcks acks i nr nc ps).marks.count .correct := by
  induction ps generalizing i nr nc with
  | nil => rfl
  | cons p ps ih =>
      by_cases h : i < nr
      · rw [tallyAcks_cons_lt acks p ps h]
        simp only [ih, List.count_cons, beq_iff_eq]
        split_ifs <;> omega
      · rw [tallyAcks_cons_ge acks p ps (by omega)]
        have hnone : Mark.correct ∉ (p :: ps).map fun _ ↦ Mark.passedOver := by simp
        simp only [List.count_eq_zero.mpr hnone, Nat.add_zero]

theorem tallyAcks_pAnkers (i nr nc : ℕ) (ps : List PAnker) :
    (tallyAcks acks i nr nc ps).pAnkers =
      List.zipWith PAnker.apply ps (tallyAcks acks i nr nc ps).marks := by
  induction ps generalizing i nr nc with
  | nil => rfl
  | cons p ps ih =>
      by_cases h : i < nr
      · rw [tallyAcks_cons_lt acks p ps h]
        simp only [ih, List.zipWith_cons_cons]
      · rw [tallyAcks_cons_ge acks p ps (by omega)]
        have hself : ∀ qs : List PAnker,
            List.zipWith PAnker.apply qs (qs.map fun _ ↦ Mark.passedOver) = qs := by
          intro qs
          induction qs with
          | nil => rfl
          | cons q qs ihq =>
              simp only [List.map_cons, List.zipWith_cons_cons, PAnker.apply, ihq]
        exact (hself (p :: ps)).symm

/-- If everybody who is not kicked answered correctly, the counter holds
the entries below the bound that are not kicked. -/
theorem tallyAcks_of_active_acked (hnodup : (acks.map PAnker.serial).Nodup) (i nr nc : ℕ)
    (ps : List PAnker) (hps : ∀ p ∈ ps, p.active = true → Acked acks p.serial) :
    (tallyAcks acks i nr nc ps).numRemaining = nr ∧
      (tallyAcks acks i nr nc ps).numCorrectAnswered =
        nc + (ps.take (nr - i)).countP PAnker.active := by
  induction ps generalizing i nc with
  | nil => simp [tallyAcks]
  | cons p ps ih =>
      simp only [List.forall_mem_cons] at hps
      by_cases h : i < nr
      · rw [tallyAcks_cons_lt acks p ps h, show nr - i = nr - (i + 1) + 1 by omega]
        simp only [List.take_succ_cons, List.countP_cons]
        cases hp : p.active with
        | true =>
            rw [PAnker.mark_of_acked hnodup hp (hps.1 hp)]
            obtain ⟨hremaining, hcorrect⟩ := ih (i + 1) (nc + 1) hps.2
            simp only [reduceCtorEq, if_false, if_true, hremaining, hcorrect, true_and]
            omega
        | false =>
            rw [PAnker.mark_of_kicked hp]
            obtain ⟨hremaining, hcorrect⟩ := ih (i + 1) nc hps.2
            simp [hremaining, hcorrect]
      · rw [tallyAcks_cons_ge acks p ps (by omega), show nr - i = 0 by omega]
        simp

end Tally

namespace Session

variable {S : Session} {s : SendState}

/-! ## When a round advances -/

def Advances (S : Session) (s : SendState) (t : Turn) : Prop :=
  ∃ s', S.turn s t = .next s' ∧ s'.offset = s.offset + S.dataLen s.offset ∧ s'.seq = s.seq + 1

theorem advances_round_iff {startMicros : ℕ} {polls : List Poll} :
    S.Advances s (.round startMicros polls) ↔ S.roundAcks s startMicros polls ≠ [] ∧
      (S.roundTally s startMicros polls).numRemaining ≠ 0 ∧
      (S.roundTally s startMicros polls).numCorrectAnswered =
        (S.roundTally s startMicros polls).numRemaining := by
  have hne : s.seq ≠ s.seq + 1 := by
    intro heq
    have hzero : s.seq + 0 = s.seq + 1 := (UInt16.add_zero s.seq).trans heq
    exact absurd (UInt16.add_right_inj s.seq |>.mp hzero) (by decide)
  constructor
  · intro h
    obtain ⟨s', hturn, -, hseq⟩ := h
    cases turn_outcome hturn with
    | silent _ _ hacks hcnt => exact absurd hseq hne
    | retried _ _ hacks hremaining hcorrect => exact absurd hseq hne
    | advanced _ _ hacks hremaining hcorrect => exact ⟨hacks, hremaining, hcorrect⟩
  · intro h
    obtain ⟨hacks, hremaining, hcorrect⟩ := h
    refine ⟨{ S.tallied s startMicros polls with
      offset := s.offset + S.dataLen s.offset
      seq := s.seq + 1 }, ?_, rfl, rfl⟩
    simp only [turn, if_neg hacks, if_neg hremaining, hcorrect, ne_eq, not_true, if_false]

/-- A round in which everybody who is not kicked answered correctly
advances exactly if no kicked entry stands among the first
`num_remaining_p_ankers` entries. -/
theorem SendInv.advances_iff (h : S.SendInv s) {startMicros : ℕ} {polls : List Poll}
    (hacked : ∀ p ∈ s.pAnkers, p.active = true →
      Acked (S.roundAcks s startMicros polls) p.serial) :
    S.Advances s (.round startMicros polls) ↔
      ∀ p ∈ s.pAnkers.take s.numRemaining, p.active = true := by
  obtain ⟨hremaining, hcorrect⟩ : (S.roundTally s startMicros polls).numRemaining =
      s.numRemaining ∧ (S.roundTally s startMicros polls).numCorrectAnswered =
        0 + (s.pAnkers.take (s.numRemaining - 0)).countP PAnker.active :=
    tallyAcks_of_active_acked _ (nodup_roundAcks s startMicros polls) 0 s.numRemaining 0 s.pAnkers
      hacked
  have hpos := h.remaining_pos
  have hacks : S.roundAcks s startMicros polls ≠ [] := by
    intro hnil
    rw [h.remaining] at hpos
    obtain ⟨p, hp, hactive⟩ := List.countP_pos_iff.mp hpos
    obtain ⟨a, ha, -⟩ := hacked p hp hactive
    simp [hnil] at ha
  have hlen : (s.pAnkers.take s.numRemaining).length = s.numRemaining := by
    rw [List.length_take, h.remaining]
    exact Nat.min_eq_left List.countP_le_length
  rw [advances_round_iff, hremaining, hcorrect, Nat.zero_add, Nat.sub_zero,
    ← List.countP_eq_length, hlen]
  constructor
  · exact fun hadvance ↦ hadvance.2.2
  · exact fun hcount ↦ ⟨hacks, Nat.ne_of_gt hpos, hcount⟩

theorem advances_iff_take_active (S : Session) (s : SendState) (hreach : S.Reachable s)
    (startMicros : ℕ) (polls : List Poll)
    (hacked : ∀ p ∈ s.pAnkers, p.active = true →
      Acked (S.roundAcks s startMicros polls) p.serial) :
    S.Advances s (.round startMicros polls) ↔
      ∀ p ∈ s.pAnkers.take s.numRemaining, p.active = true :=
  hreach.sendInv.advances_iff hacked

def pair : Session where
  sha256 := headHash
  own := ⟨Vector.replicate serialSize 9, [2, 0]⟩
  runningPartition := [10, 20, 30]
  pAnkers := [⟨Vector.replicate serialSize 1, 1, false, 0⟩,
    ⟨Vector.replicate serialSize 2, 2, false, 0⟩]
  pAnkers_ne_nil := by decide
  length_le := by decide
  nodup := by decide
  fresh := by decide

def pairAnswer (x : UInt8) : Poll := answer headHash 0 ⟨Vector.replicate serialSize x, []⟩

theorem advances_pair : pair.Advances pair.start (.round 0 [pairAnswer 1, pairAnswer 2]) :=
  (advances_iff_take_active pair pair.start .refl 0 [pairAnswer 1, pairAnswer 2]
    (by decide)).mpr (by decide)

/-- The state of `pair` after the first P-Anker kept silent for five
rounds. -/
def pairKicked : SendState :=
  ⟨0, 0, true, 0, 0, 0, 1, [⟨Vector.replicate serialSize 1, 1, false, 5⟩,
    ⟨Vector.replicate serialSize 2, 2, false, 0⟩]⟩

theorem not_advances_pairKicked : pair.Reachable pairKicked ∧
    (∀ p ∈ pairKicked.pAnkers, p.active = true →
      Acked (pair.roundAcks pairKicked 0 [pairAnswer 2]) p.serial) ∧
    ¬ pair.Advances pairKicked (.round 0 [pairAnswer 2]) := by
  have hafter : pair.after (List.replicate 5 (.round 0 [pairAnswer 2])) pair.start =
      some pairKicked := by decide
  have hreach : pair.Reachable pairKicked := Reachable.after .refl hafter
  have hacked : ∀ p ∈ pairKicked.pAnkers, p.active = true →
      Acked (pair.roundAcks pairKicked 0 [pairAnswer 2]) p.serial := by decide
  refine ⟨hreach, hacked, ?_⟩
  rw [hreach.sendInv.advances_iff hacked]
  decide

end Session

end AnkerUpdater
