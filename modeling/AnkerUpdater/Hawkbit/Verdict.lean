import AnkerUpdater.Hawkbit.Feedback
import AnkerUpdater.Protocol.Counts

/-!
# What becomes of the counts

`check_installed_updates` throws away the return code of
`handle_p_anker_updates` and judges the round from two of its counts.
-/

namespace AnkerUpdater.Hawkbit

/-- The pass evaluates `info`, and its P-Anker round is the call `H` with
the outcome `out`. -/
structure PerformsRound (E : CheckEnv) (flash : Flash) (info : UpdateInfo) (H : HandleEnv)
    (out : HandleEnv.Outcome) : Prop where
  evaluates : Evaluates E flash info
  returned : H.handlePAnkerUpdates = some out
  counts : E.counts = ⟨out.cntToUpdate, out.cntJoined, out.cntUpdated⟩

def NoneConfirmed (H : HandleEnv) (out : HandleEnv.Outcome) : Prop :=
  ∀ p ∈ out.joined, p.failCnt < maxRetrieveFirmwareAcksFailsToKickAnker →
    ¬ H.Confirmed out p.serial

/-- The event comes after the P-Anker round of the pass. -/
def AfterRound (E : CheckEnv) (flash : Flash) (e : Event) : Prop :=
  ∃ pre id counts post, (checkInstalledUpdates E flash).2 = pre ++ .pAnkerRound id counts :: post ∧
    e ∈ post

structure ShowsFailure (E : CheckEnv) (flash : Flash) : Prop where
  statWritten : ∀ info, AfterRound E flash (.statWritten info) → info.status = .installFailed
  closed : ∃ f accepted, AfterRound E flash (.feedback f accepted)
  failure : ∀ f accepted, AfterRound E flash (.feedback f accepted) →
    f.executionType = .closed ∧ f.finishType = .failure

/-- P-Ankers that were found but not updated show up as a failure. -/
def FoundShowUp (E : CheckEnv) (flash : Flash) (H : HandleEnv) (out : HandleEnv.Outcome) : Prop :=
  H.setIntoApMode ≠ [] → NoneConfirmed H out → ShowsFailure E flash

/-! ## The events after the round -/

def Event.isRound : Event → Bool
  | .pAnkerRound _ _ => true
  | _ => false

theorem eventsBeforeRound_not_round (E : CheckEnv) (flash : Flash) (info : UpdateInfo) :
    ∀ e ∈ eventsBeforeRound E flash info, e.isRound = false := by
  intro e he
  have hquiet := eventsBeforeRound_quiet E flash info e he
  cases e with
  | pAnkerRound id counts => exact hquiet.elim
  | _ => rfl

theorem eventsAfterRound_not_round (E : CheckEnv) (info : UpdateInfo) :
    ∀ e ∈ eventsAfterRound E info, e.isRound = false := by
  intro e he
  simp only [eventsAfterRound, closeUpdate, List.mem_append, List.mem_cons,
    List.mem_ite_nil_right, List.not_mem_nil, or_false] at he
  rcases he with ⟨-, rfl⟩ | rfl | he
  · rfl
  · rfl
  · split_ifs at he <;> simp at he <;> rcases he with rfl | rfl <;> rfl

theorem afterRound_iff {E : CheckEnv} {flash : Flash} {info : UpdateInfo}
    (h : Evaluates E flash info) (e : Event) :
    AfterRound E flash e ↔ e ∈ eventsAfterRound E info := by
  constructor
  · rintro ⟨pre, id, counts, post, hevents, he⟩
    rw [checkInstalledUpdates_of_evaluates h] at hevents
    rcases List.append_eq_append_iff.mp hevents with ⟨mid, hpre, hmid⟩ | ⟨mid, hbefore, hmid⟩
    · cases mid with
      | nil =>
          obtain ⟨-, rfl⟩ := List.cons.inj hmid
          exact he
      | cons a mid =>
          obtain ⟨rfl, hafter⟩ := List.cons.inj hmid
          have hround := eventsAfterRound_not_round E info (.pAnkerRound id counts) (by simp [hafter])
          exact absurd hround (by simp [Event.isRound])
    · cases mid with
      | nil =>
          obtain ⟨-, rfl⟩ := List.cons.inj hmid
          exact he
      | cons a mid =>
          obtain ⟨rfl, -⟩ := List.cons.inj hmid
          have hround := eventsBeforeRound_not_round E flash info _
            (by rw [hbefore]; exact List.mem_append_right _ List.mem_cons_self)
          exact absurd hround (by simp [Event.isRound])
  · intro he
    exact ⟨_, _, _, _, checkInstalledUpdates_of_evaluates h, he⟩

/-- The two counts decide. -/
theorem showsFailure_iff {E : CheckEnv} {flash : Flash} {info : UpdateInfo}
    (h : Evaluates E flash info) :
    ShowsFailure E flash ↔ 0 < E.counts.cntToUpdate ∧ E.counts.cntUpdated = 0 := by
  have hclosed : .feedback (closedFeedback E (afterRound E info.atRound)) E.closedAccepted ∈
      eventsAfterRound E info := by
    simp only [eventsAfterRound, closeUpdate, List.mem_append, List.mem_cons]
    split_ifs <;> simp
  constructor
  · intro hshows
    have hfailure := (hshows.failure _ _ ((afterRound_iff h _).mpr hclosed)).2
    by_contra hcounts
    simp [closedFeedback, afterRound, hcounts] at hfailure
  · intro hcounts
    have hstatus : (afterRound E info.atRound).status = .installFailed := by
      simp [afterRound, hcounts]
    refine ⟨?_, ⟨_, _, (afterRound_iff h _).mpr hclosed⟩, ?_⟩
    · intro written hwritten
      rw [afterRound_iff h] at hwritten
      simp only [eventsAfterRound, closeUpdate, List.mem_append, List.mem_cons,
        List.mem_ite_nil_right, List.not_mem_nil, or_false, reduceCtorEq, false_or] at hwritten
      rcases hwritten with ⟨-, hwritten⟩ | hwritten
      · rw [Event.statWritten.inj hwritten]
        exact hstatus
      · split_ifs at hwritten <;> simp at hwritten
    · intro f accepted hfeedback
      rw [afterRound_iff h] at hfeedback
      simp only [eventsAfterRound, closeUpdate, List.mem_append, List.mem_cons,
        List.mem_ite_nil_right, List.not_mem_nil, or_false, reduceCtorEq, false_or,
        and_false] at hfeedback
      have hf : f = closedFeedback E (afterRound E info.atRound) := by
        split_ifs at hfeedback <;> simp at hfeedback <;> exact hfeedback.1
      rw [hf]
      exact ⟨rfl, by simp [closedFeedback, hstatus]⟩

/-! ## The exits of the round -/

/-- Only the first exit returns before the count of found P-Ankers is
assigned. -/
theorem cntToUpdate_eq {H : HandleEnv} {out : HandleEnv.Outcome}
    (h : H.handlePAnkerUpdates = some out) :
    out.cntToUpdate = if H.numAcknowledged = 0 then 0 else H.setIntoApMode.length := by
  rw [HandleEnv.handlePAnkerUpdates] at h
  by_cases hacknowledged : H.numAcknowledged = 0
  · rw [dif_pos hacknowledged] at h
    rw [if_pos hacknowledged, ← Option.some.inj h]
  · rw [dif_neg hacknowledged] at h
    rw [if_neg hacknowledged]
    simp only at h
    split_ifs at h
    · rw [← Option.some.inj h]
    · rw [← Option.some.inj h]
    · rw [← Option.some.inj h]
    · split at h
      · exact absurd h (Option.some_ne_none out).symm
      · rw [← Option.some.inj h]
      · rw [← Option.some.inj h]
    · split at h
      · exact absurd h (Option.some_ne_none out).symm
      · rw [← Option.some.inj h]
      · split_ifs at h <;> rw [← Option.some.inj h]

theorem cntUpdated_eq_zero {H : HandleEnv} {out : HandleEnv.Outcome}
    (h : H.handlePAnkerUpdates = some out) (hnone : NoneConfirmed H out) : out.cntUpdated = 0 := by
  cases HandleEnv.ended_of_handlePAnkerUpdates h with
  | early cntToUpdate hle => rfl
  | late hacknowledged => rfl
  | completed hacknowledged hjoined s hrun =>
      have hinv := (Session.Reachable.run_ok .refl hrun).1.sendInv
      have hcount := (HandleEnv.ackUpdate_counted hinv
        (HandleEnv.session_unacknowledged hacknowledged hjoined)).2 ⟨.ok, H.setIntoApMode.length,
          H.ackConnect.length, (H.ackUpdate s.pAnkers s.numRemaining).1.numCorrectAnswered,
          s.pAnkers, (H.ackUpdate s.pAnkers s.numRemaining).2⟩ rfl rfl
      apply hcount.trans
      convert Set.ncard_empty Serial
      rw [Set.eq_empty_iff_forall_notMem]
      rintro x ⟨p, hp, rfl, hactive, hconfirmed⟩
      exact hnone p hp hactive hconfirmed

/-- P-Ankers that are found but not updated show up as a failure unless
none of them acknowledged the update. -/
theorem foundShowUp_iff {E : CheckEnv} {flash : Flash} {info : UpdateInfo} {H : HandleEnv}
    {out : HandleEnv.Outcome} (h : PerformsRound E flash info H out) :
    FoundShowUp E flash H out ↔ H.setIntoApMode = [] ∨ 0 < H.numAcknowledged := by
  have hcount := cntToUpdate_eq h.returned
  rw [FoundShowUp]
  rw [showsFailure_iff h.evaluates, h.counts]
  constructor
  · intro hshows
    by_contra hcondition
    obtain ⟨hfound, hacknowledged⟩ := not_or.mp hcondition
    have hzero : H.numAcknowledged = 0 := Nat.eq_zero_of_not_pos hacknowledged
    have hnone : NoneConfirmed H out := by
      cases HandleEnv.ended_of_handlePAnkerUpdates h.returned with
      | early cntToUpdate hle => simp [NoneConfirmed]
      | late hpos => exact absurd hpos hacknowledged
      | completed hpos hjoined s hrun => exact absurd hpos hacknowledged
    have hpos := (hshows hfound hnone).1
    rw [hcount, if_pos hzero] at hpos
    exact absurd hpos (Nat.lt_irrefl 0)
  · intro hcondition hfound hnone
    have hacknowledged := hcondition.resolve_left hfound
    refine ⟨?_, cntUpdated_eq_zero h.returned hnone⟩
    rw [hcount, if_neg hacknowledged.ne']
    exact List.length_pos_of_ne_nil hfound

/-! ## A found P-Anker that does not acknowledge -/

def downloaded : UpdateInfo := ⟨7, .downloadSuccessful, ⟨false, 0⟩, ⟨0, 0, 0⟩⟩

theorem evaluates_downloaded (counts : UpdateCounts) :
    Evaluates { quietCheck with counts := counts } ⟨some downloaded, 1, 1⟩ downloaded :=
  ⟨by simp [quietCheck], rfl, rfl, rfl, rfl⟩

theorem foundShowUp_noAccessPoint :
    FoundShowUp { quietCheck with counts := ⟨2, 0, 0⟩ } ⟨some downloaded, 1, 1⟩
      { HandleEnv.oneOfTwo with apCreated := fun _ ↦ false } ⟨.error, 2, 0, 0, [], 0⟩ := by
  refine (foundShowUp_iff ⟨evaluates_downloaded ⟨2, 0, 0⟩, ?_, rfl⟩).mpr (.inr ?_)
  · decide
  · decide

/-- Two P-Ankers are found, and the acknowledgements of both get lost. -/
def unacknowledged : HandleEnv := { HandleEnv.oneOfTwo with directAcked := fun _ ↦ false }

theorem not_foundShowUp_unacknowledged :
    PerformsRound quietCheck ⟨some downloaded, 1, 1⟩ downloaded unacknowledged
        ⟨.error, 0, 0, 0, [], 0⟩ ∧
      ¬ FoundShowUp quietCheck ⟨some downloaded, 1, 1⟩ unacknowledged
        ⟨.error, 0, 0, 0, [], 0⟩ := by
  have hevaluates := evaluates_downloaded ⟨0, 0, 0⟩
  refine ⟨⟨hevaluates, by decide, rfl⟩, fun h ↦ ?_⟩
  have hnone : NoneConfirmed unacknowledged ⟨.error, 0, 0, 0, [], 0⟩ := by
    simp [NoneConfirmed]
  have hshows := (showsFailure_iff hevaluates).mp (h (by decide) hnone)
  exact absurd hshows.1 (by decide)

end AnkerUpdater.Hawkbit
