import AnkerUpdater.Protocol.Phases

/-!
# The counts of an update

ACK_UPDATE counts a P-Anker when its entry turns to acknowledged, and it
passes over acknowledged entries from then on.  So its count is the number
of acknowledged entries at the end, however often somebody answers.
-/

namespace AnkerUpdater

def PAnker.confirmedBy (p : PAnker) (acks : List PAnker) : Bool :=
  acks.any fun a ↦ a.serial = p.serial && a.acknowledged

/-- The entry once the rounds before `y` are tallied. -/
def PAnker.confirmedBefore (acks : ℕ → List PAnker) (y : ℕ) (p : PAnker) : PAnker :=
  { p with acknowledged := p.active && (List.range y).any fun k ↦ p.confirmedBy (acks k) }

section Tally

variable {acks : List PAnker} {p : PAnker}

theorem PAnker.confirmedBy_of_find {a : PAnker} (hnodup : (acks.map PAnker.serial).Nodup)
    (hfind : (acks.find? fun b ↦ b.serial = p.serial) = some a) :
    p.confirmedBy acks = a.acknowledged := by
  obtain ⟨hmem, hserial⟩ := (find?_serial_eq_some hnodup).mp hfind
  cases hack : a.acknowledged with
  | true =>
      simp only [PAnker.confirmedBy, List.any_eq_true, Bool.and_eq_true, decide_eq_true_eq]
      exact ⟨a, hmem, hserial, hack⟩
  | false =>
      simp only [PAnker.confirmedBy, List.any_eq_false, Bool.and_eq_true, decide_eq_true_eq]
      intro b hb hboth
      have hb := (find?_serial_eq_some hnodup).mpr ⟨hb, hboth.1⟩
      rw [hfind] at hb
      rw [← Option.some.inj hb, hack] at hboth
      exact absurd hboth.2 (by simp)

theorem PAnker.confirmedBy_of_find_none
    (hfind : (acks.find? fun b ↦ b.serial = p.serial) = none) : p.confirmedBy acks = false := by
  have hnone : ∀ a ∈ acks, a.serial ≠ p.serial := by simpa using List.find?_eq_none.mp hfind
  simp only [PAnker.confirmedBy, List.any_eq_false, Bool.and_eq_true, decide_eq_true_eq]
  exact fun a ha hboth ↦ hnone a ha hboth.1

/-- A round acknowledges the entries that are not kicked and confirmed by
its list, and counts those that were not acknowledged before. -/
theorem tallyUpdateAcks_eq (hnodup : (acks.map PAnker.serial).Nodup) (na nc : ℕ)
    (ps : List PAnker) (hps : ∀ p ∈ ps, p.acknowledged = true → p.active = true) :
    (tallyUpdateAcks acks na nc ps).pAnkers =
        ps.map (fun p ↦ { p with
          acknowledged := p.active && (p.acknowledged || p.confirmedBy acks) }) ∧
      (tallyUpdateAcks acks na nc ps).numCorrectAnswered + ps.countP PAnker.acknowledged =
        nc + (tallyUpdateAcks acks na nc ps).pAnkers.countP PAnker.acknowledged := by
  induction ps generalizing na nc with
  | nil => exact ⟨rfl, rfl⟩
  | cons p ps ih =>
      simp only [List.forall_mem_cons] at hps
      rw [tallyUpdateAcks]
      by_cases hskip : (p.kicked || p.acknowledged) = true
      · obtain ⟨hmap, hcount⟩ := ih na nc hps.2
        have hself : (p.active && (p.acknowledged || p.confirmedBy acks)) = p.acknowledged := by
          cases hack : p.acknowledged with
          | true => simp [hps.1 hack]
          | false =>
              have hk : p.kicked = true := by simpa [hack] using hskip
              simp [PAnker.active, hk]
        rw [if_pos hskip]
        simp only [List.map_cons, hmap, hself, List.countP_cons] at hcount ⊢
        exact ⟨trivial, by omega⟩
      · have hactive : p.active = true := by
          simp only [Bool.or_eq_true, not_or, Bool.not_eq_true] at hskip
          simp [PAnker.active, hskip.1]
        have hack : p.acknowledged = false := by
          simp only [Bool.or_eq_true, not_or, Bool.not_eq_true] at hskip
          exact hskip.2
        rw [if_neg hskip]
        cases hfind : acks.find? fun a ↦ a.serial = p.serial with
        | none =>
            obtain ⟨hmap, hcount⟩ := ih na nc hps.2
            have hnot := PAnker.confirmedBy_of_find_none hfind
            simp only [List.map_cons, hmap, hnot, hack, hactive, List.countP_cons] at hcount ⊢
            refine ⟨?_, by omega⟩
            simp [← hack]
        | some a =>
            obtain ⟨hmap, hcount⟩ := ih (na + 1) (if a.acknowledged then nc + 1 else nc) hps.2
            have hconfirmed := PAnker.confirmedBy_of_find hnodup hfind
            simp only [List.map_cons, hmap, hconfirmed, hack, hactive, Bool.true_and,
              Bool.false_or, List.countP_cons] at hcount ⊢
            refine ⟨trivial, ?_⟩
            simp only [Bool.false_eq_true, if_false]
            split_ifs at hcount ⊢ <;> omega

end Tally

structure UpdateInv (acks : ℕ → List PAnker) (joined : List PAnker) (y : ℕ) (t : UpdateTally) :
    Prop where
  pAnkers : t.pAnkers = joined.map (PAnker.confirmedBefore acks y)
  counted : t.numCorrectAnswered = t.pAnkers.countP PAnker.acknowledged

theorem updateInv_start (acks : ℕ → List PAnker) {joined : List PAnker}
    (hjoined : ∀ p ∈ joined, p.acknowledged = false) :
    UpdateInv acks joined 0 ⟨joined, 0, 0⟩ := by
  have hself : ∀ p ∈ joined, PAnker.confirmedBefore acks 0 p = p := by
    intro p hp
    have hack := hjoined p hp
    cases p with
    | mk serial ip acknowledged failCnt =>
        obtain rfl : acknowledged = false := hack
        simp [PAnker.confirmedBefore]
  constructor
  · exact (List.map_id' joined).symm.trans (List.map_congr_left fun p hp ↦ (hself p hp).symm)
  · symm
    rw [List.countP_eq_zero]
    exact fun p hp ↦ by simp [hjoined p hp]

theorem UpdateInv.round {acks : ℕ → List PAnker} {joined : List PAnker} {y : ℕ} {t : UpdateTally}
    (h : UpdateInv acks joined y t) (hnodup : ((acks y).map PAnker.serial).Nodup) :
    UpdateInv acks joined (y + 1)
      (tallyUpdateAcks (acks y) t.numAnswered t.numCorrectAnswered t.pAnkers) := by
  have hactive : ∀ p ∈ t.pAnkers, p.acknowledged = true → p.active = true := by
    rw [h.pAnkers]
    intro p hp hack
    obtain ⟨q, -, rfl⟩ := List.mem_map.mp hp
    exact (Bool.and_eq_true_iff.mp hack).1
  obtain ⟨hmap, hcount⟩ := tallyUpdateAcks_eq hnodup t.numAnswered t.numCorrectAnswered t.pAnkers
    hactive
  constructor
  · rw [hmap, h.pAnkers, List.map_map]
    apply List.map_congr_left
    intro p _
    simp only [Function.comp_apply, PAnker.confirmedBefore, PAnker.mk.injEq, true_and, and_true,
      List.range_succ, List.any_append, List.any_cons, List.any_nil, Bool.or_false]
    change (p.active && (p.active && _ || p.confirmedBy (acks y))) = _
    cases p.active <;> simp
  · have hbefore := h.counted
    omega

theorem UpdateInv.rounds {acks : ℕ → List PAnker} {joined : List PAnker} {y : ℕ} {t : UpdateTally}
    (h : UpdateInv acks joined y t) (hnodup : ∀ k, ((acks k).map PAnker.serial).Nodup)
    (numAcknowledged fuel : ℕ) :
    UpdateInv acks joined (min ((updateRounds acks numAcknowledged fuel y t).2 + 1) (y + fuel))
      (updateRounds acks numAcknowledged fuel y t).1 := by
  induction fuel generalizing y t with
  | zero => simpa [updateRounds] using h
  | succ fuel ih =>
      have hround := h.round (hnodup y)
      rw [updateRounds]
      split_ifs with hanswered
      · rwa [Nat.min_eq_left (by omega)]
      · have hrest := ih hround
        rwa [show y + 1 + fuel = y + (fuel + 1) by omega] at hrest

namespace HandleEnv

variable {E : HandleEnv} {out : Outcome}

/-- What an outcome is made of: an error before or after the joined
P-Ankers are counted, or a firmware loop and an ACK_UPDATE that both
return UPDATER_OK. -/
inductive Ended (E : HandleEnv) : Outcome → Prop where
  | early (cntToUpdate : ℕ) (hle : cntToUpdate ≤ E.setIntoApMode.length) :
      Ended E ⟨.error, cntToUpdate, 0, 0, [], 0⟩
  | late (hacknowledged : 0 < E.numAcknowledged) :
      Ended E ⟨.error, E.setIntoApMode.length, E.ackConnect.length, 0, [], 0⟩
  | completed (hacknowledged : 0 < E.numAcknowledged) (hjoined : E.ackConnect ≠ [])
      (s : SendState)
      (hrun : (E.session hacknowledged hjoined).run E.turns
        (E.session hacknowledged hjoined).start = some (.ok, s)) :
      Ended E ⟨.ok, E.setIntoApMode.length, E.ackConnect.length,
        (E.ackUpdate s.pAnkers s.numRemaining).1.numCorrectAnswered, s.pAnkers,
        (E.ackUpdate s.pAnkers s.numRemaining).2⟩

theorem ended_of_handlePAnkerUpdates (h : E.handlePAnkerUpdates = some out) : E.Ended out := by
  rw [handlePAnkerUpdates] at h
  by_cases hacknowledged : E.numAcknowledged = 0
  · rw [dif_pos hacknowledged] at h
    cases h
    exact .early 0 (Nat.zero_le _)
  rw [dif_neg hacknowledged] at h
  have hpos := Nat.pos_of_ne_zero hacknowledged
  by_cases hap : ((List.range maxApCreateRetries).all fun x ↦ !E.apCreated x) = true
  · simp only [if_pos hap] at h
    cases h
    exact .early _ le_rfl
  by_cases hjoined : E.ackConnect = []
  · simp only [if_neg hap, dif_pos hjoined] at h
    cases h
    exact .early _ le_rfl
  simp only [if_neg hap, dif_neg hjoined] at h
  by_cases hsetup : E.sendSetup = false
  · rw [if_pos hsetup] at h
    cases h
    exact .late hpos
  rw [if_neg hsetup] at h
  cases hrun : (E.session hpos hjoined).run E.turns (E.session hpos hjoined).start with
  | none =>
      rw [hrun] at h
      cases h
  | some result =>
      obtain ⟨rc, s⟩ := result
      rw [hrun] at h
      cases rc with
      | error =>
          cases h
          exact .late hpos
      | ok =>
          simp only at h
          split_ifs at h
          · cases h
            exact .late hpos
          · cases h
            exact .late hpos
          · cases h
            exact .completed hpos hjoined s hrun

/-- Some executed round of ACK_UPDATE took a hash-valid SUCCESS_UPDATE of
`x` with the version of the C-Anker into its list. -/
def Confirmed (E : HandleEnv) (out : Outcome) (x : Serial) : Prop :=
  ∃ k ≤ out.lastRound, k < maxRetriesAcksUpdatedPAnkers ∧
    ∃ d ∈ ackWindow (E.updateWindows k).startMicros 10000 (E.updateWindows k).polls,
      d.info.accepted E.sha256 = true ∧ d.info.type = AckType.successUpdate.code ∧
        d.info.sameVersion E.own = true ∧ d.info.serial = x ∧
        d.entry true 0 ∈ E.updateAcks out.joined.length k

theorem confirmedBy_updateAcks {p : PAnker} {n k : ℕ} :
    p.confirmedBy (E.updateAcks n k) = true ↔
      ∃ d ∈ ackWindow (E.updateWindows k).startMicros 10000 (E.updateWindows k).polls,
        d.info.accepted E.sha256 = true ∧ d.info.type = AckType.successUpdate.code ∧
          d.info.sameVersion E.own = true ∧ d.info.serial = p.serial ∧
          d.entry true 0 ∈ E.updateAcks n k := by
  simp only [PAnker.confirmedBy, List.any_eq_true, Bool.and_eq_true, decide_eq_true_eq]
  constructor
  · intro h
    obtain ⟨a, ha, hserial, hack⟩ := h
    obtain ⟨d, hd, haccepted, hv⟩ := mem_retrieveUpdatePingAck ha
    simp only [typeVerdict] at hv
    split_ifs at hv with htype
    obtain rfl := Collect.Verdict.take.inj hv
    simp only [AckDatagram.entry, Bool.and_eq_true, decide_eq_true_eq] at hack
    refine ⟨d, hd, haccepted, hack.1, hack.2, hserial, ?_⟩
    simpa [hack.1, hack.2] using ha
  · intro h
    obtain ⟨d, -, -, -, -, hserial, hmem⟩ := h
    exact ⟨_, hmem, hserial, rfl⟩

theorem ncard_keys_eq_countP {α κ : Type*} [DecidableEq κ] {f : α → κ} {l : List α} {q : α → Bool}
    (hnodup : (l.map f).Nodup) : {x | ∃ a ∈ l, f a = x ∧ q a = true}.ncard = l.countP q := by
  have hset : {x | ∃ a ∈ l, f a = x ∧ q a = true} = ↑((l.filter q).map f).toFinset := by
    ext x
    simp only [Set.mem_ofPred_eq, List.coe_toFinset, List.mem_map, List.mem_filter]
    constructor
    · rintro ⟨a, ha, hx, hq⟩
      exact ⟨a, ⟨ha, hq⟩, hx⟩
    · rintro ⟨a, ⟨ha, hq⟩, hx⟩
      exact ⟨a, ha, hx, hq⟩
  have hfilter : ((l.filter q).map f).Nodup := hnodup.sublist (List.filter_sublist.map f)
  rw [hset, Set.ncard_coe_finset, List.toFinset_card_of_nodup hfilter, List.length_map,
    List.countP_eq_length_filter]

theorem ackUpdate_counted {S : Session} {s : SendState} (hinv : S.SendInv s)
    (hfresh : ∀ p ∈ S.pAnkers, p.acknowledged = false) :
    (E.ackUpdate s.pAnkers s.numRemaining).1.numCorrectAnswered ≤ S.pAnkers.length ∧
      ∀ out : Outcome, out.joined = s.pAnkers →
        out.lastRound = (E.ackUpdate s.pAnkers s.numRemaining).2 →
        (E.ackUpdate s.pAnkers s.numRemaining).1.numCorrectAnswered =
          {x | ∃ p ∈ out.joined, p.serial = x ∧
            p.failCnt < maxRetrieveFirmwareAcksFailsToKickAnker ∧ E.Confirmed out x}.ncard := by
  have hunacked : ∀ p ∈ s.pAnkers, p.acknowledged = false := by
    intro p hp
    have hmem := List.mem_map_of_mem (f := PAnker.acknowledged) hp
    rw [hinv.acknowledged] at hmem
    obtain ⟨q, hq, hqp⟩ := List.mem_map.mp hmem
    rw [← hqp]
    exact hfresh q hq
  have hrounds := (updateInv_start (E.updateAcks s.pAnkers.length) hunacked).rounds
    (fun k ↦ nodup_retrieveUpdatePingAck) s.numRemaining maxRetriesAcksUpdatedPAnkers
  have hcounted := hrounds.counted
  rw [hrounds.pAnkers, Nat.zero_add, List.countP_map] at hcounted
  change (E.ackUpdate s.pAnkers s.numRemaining).1.numCorrectAnswered = _ at hcounted
  have hnodup : (s.pAnkers.map PAnker.serial).Nodup := by
    rw [hinv.serials]
    exact S.nodup
  have hlength : s.pAnkers.length = S.pAnkers.length := by
    simpa using congrArg List.length hinv.serials
  constructor
  · rw [hcounted, ← hlength]
    exact List.countP_le_length
  · intro out hout hlast
    rw [hcounted, ← ncard_keys_eq_countP hnodup, hout]
    congr 1
    ext x
    simp only [Set.mem_ofPred_eq, Function.comp_apply, PAnker.confirmedBefore, Bool.and_eq_true,
      PAnker.active_iff, List.any_eq_true, List.mem_range, Nat.lt_min, confirmedBy_updateAcks,
      Confirmed, hout, hlast, Nat.lt_succ_iff, ackUpdate]
    constructor
    · rintro ⟨p, hp, rfl, hactive, k, ⟨hk, hmax⟩, hconfirmed⟩
      exact ⟨p, hp, rfl, hactive, k, hk, hmax, hconfirmed⟩
    · rintro ⟨p, hp, rfl, hactive, k, hk, hmax, hconfirmed⟩
      exact ⟨p, hp, rfl, hactive, k, ⟨hk, hmax⟩, hconfirmed⟩

theorem session_unacknowledged (hacknowledged : 0 < E.numAcknowledged)
    (hjoined : E.ackConnect ≠ []) :
    ∀ p ∈ (E.session hacknowledged hjoined).pAnkers, p.acknowledged = false := by
  have hretrieve : ∀ p ∈ E.ackConnect, p.acknowledged = false := by
    rw [ackConnect]
    split_ifs
    · apply retrieveUntil_induction (P := fun l ↦ ∀ p ∈ l, p.acknowledged = false)
      · intro i p hp
        obtain ⟨d, -, -, hv⟩ := mem_retrieveUpdatePingAck hp
        simp only [typeVerdict] at hv
        split_ifs at hv
        obtain rfl := Collect.Verdict.take.inj hv
        rfl
      · simp
    · simp
  intro p hp
  obtain ⟨q, hq, rfl⟩ := List.mem_map.mp hp
  exact hretrieve q hq

/-- The counts are ordered and bounded, an error reports no update, and
otherwise the count of updated P-Ankers is the number of joined ones that
are not kicked and have confirmed the version. -/
theorem handlePAnkerUpdates_counts (E : HandleEnv) (out : Outcome)
    (h : E.handlePAnkerUpdates = some out) :
    out.cntUpdated ≤ out.cntJoined ∧ out.cntJoined ≤ out.cntToUpdate ∧
      out.cntToUpdate ≤ maxPAnkerToUpdate ∧ (out.rc = .error → out.cntUpdated = 0) ∧
      (out.rc = .ok → out.joined.length = out.cntJoined ∧ out.cntUpdated =
        {x | ∃ p ∈ out.joined, p.serial = x ∧
          p.failCnt < maxRetrieveFirmwareAcksFailsToKickAnker ∧ E.Confirmed out x}.ncard) := by
  have hfound := E.length_setIntoApMode_le
  have hack := E.numAcknowledged_le
  cases ended_of_handlePAnkerUpdates h with
  | early cntToUpdate hle =>
      exact ⟨le_rfl, Nat.zero_le _, hle.trans hfound, fun _ ↦ rfl, fun hok ↦ by cases hok⟩
  | late hacknowledged =>
      have hjoin := E.length_ackConnect_le hacknowledged
      exact ⟨Nat.zero_le _, hjoin.trans hack, hfound, fun _ ↦ rfl, fun hok ↦ by cases hok⟩
  | completed hacknowledged hjoined s hrun =>
      have hjoin := E.length_ackConnect_le hacknowledged
      have hinv := (Session.Reachable.run_ok .refl hrun).1.sendInv
      obtain ⟨hle, hcount⟩ := ackUpdate_counted (E := E) hinv
        (session_unacknowledged hacknowledged hjoined)
      have hlength : s.pAnkers.length = E.ackConnect.length := by
        simpa [session] using congrArg List.length hinv.serials
      refine ⟨?_, hjoin.trans hack, hfound, fun herror ↦ (by cases herror),
        fun _ ↦ ⟨hlength, ?_⟩⟩
      · simpa [session] using hle
      · exact hcount _ rfl rfl

/-- Two P-Ankers are found and one of them joins, takes the file and
answers in the second round of ACK_UPDATE. -/
def oneOfTwo : HandleEnv :=
  let anker (x version : UInt8) : Anker := ⟨Vector.replicate serialSize x, [version, 0]⟩
  let hear (a : Anker) (type : AckType) : Poll := ⟨0, some ⟨1, ackInfo headHash a type 0⟩⟩
  { sha256 := headHash
    own := anker 9 50
    runningPartition := [10, 20, 30]
    searchSetup := true
    searchWindows := fun _ ↦ ⟨0, [hear (anker 1 49) .version, hear (anker 2 49) .version]⟩
    directAcked := fun i ↦ i = 0
    apCreated := fun _ ↦ true
    joinSetup := true
    joinWindows := fun _ ↦ ⟨0, [hear (anker 9 50) .version, hear (anker 1 49) .version]⟩
    sendSetup := true
    turns := [.round 0 [hear (anker 1 49) .rcvdBinaryData]]
    updateSetup := true
    updateWindows := fun y ↦ ⟨0, if y = 0 then [] else [hear (anker 1 50) .successUpdate]⟩ }

theorem handlePAnkerUpdates_counts_oneOfTwo : ∃ out,
    oneOfTwo.handlePAnkerUpdates = some out ∧ out.rc = .ok ∧ out.cntUpdated = 1 ∧
      {x | ∃ p ∈ out.joined, p.serial = x ∧
        p.failCnt < maxRetrieveFirmwareAcksFailsToKickAnker ∧
          oneOfTwo.Confirmed out x}.ncard = 1 := by
  have hrun : oneOfTwo.handlePAnkerUpdates =
      some ⟨.ok, 2, 1, 1, [⟨Vector.replicate serialSize 1, 1, false, 0⟩], 1⟩ := by decide
  exact ⟨_, hrun, rfl, rfl, ((handlePAnkerUpdates_counts oneOfTwo _ hrun).2.2.2.2 rfl).2.symm⟩

end HandleEnv

end AnkerUpdater
