import AnkerUpdater.Protocol.Counts

/-!
# What the rounds of a discovery keep

SET_INTO_AP_MODE and ACK_CONNECT broadcast up to ten times and collect the
answers after each broadcast.  The collector empties its list first, so a
phase ends with the answers of the last round it made.
-/

namespace AnkerUpdater

/-- A list that was retrieved last has `cap` entries, or all tries are
spent; the lists before it had not. -/
theorem retrieveUntil_spec (retrieve : ℕ → List PAnker) (cap tries i : ℕ) (last : List PAnker) :
    ∃ k ≤ tries, retrieveUntil retrieve cap (tries + 1) i last = retrieve (i + k) ∧
      (∀ j < k, (retrieve (i + j)).length ≠ cap) ∧
      ((retrieve (i + k)).length = cap ∨ k = tries) := by
  induction tries generalizing i last with
  | zero => exact ⟨0, le_rfl, by simp [retrieveUntil], by simp, .inr rfl⟩
  | succ tries ih =>
      rw [retrieveUntil]
      split_ifs with hfull
      · exact ⟨0, Nat.zero_le _, rfl, by simp, .inl hfull⟩
      · obtain ⟨k, hk, heq, hbefore, hend⟩ := ih (i + 1) (retrieve i)
        have hshift : ∀ j, i + 1 + j = i + (j + 1) := fun j ↦ by omega
        rw [hshift] at heq hend
        refine ⟨k + 1, by omega, heq, ?_, hend.imp_right fun h ↦ by omega⟩
        intro j hj
        cases j with
        | zero => exact hfull
        | succ j =>
            rw [← hshift]
            exact hbefore j (by omega)

inductive DiscoveryPhase where
  | setIntoApMode
  | ackConnect
  deriving DecidableEq, Repr

namespace HandleEnv

variable (E : HandleEnv)

def phaseSetup : DiscoveryPhase → Bool
  | .setIntoApMode => E.searchSetup
  | .ackConnect => E.joinSetup

def phaseWindows : DiscoveryPhase → ℕ → Window
  | .setIntoApMode => E.searchWindows
  | .ackConnect => E.joinWindows

def phaseLimit : DiscoveryPhase → ℕ
  | .setIntoApMode => maxPAnkerToUpdate
  | .ackConnect => E.numAcknowledged

def phaseList : DiscoveryPhase → List PAnker
  | .setIntoApMode => E.setIntoApMode
  | .ackConnect => E.ackConnect

def phaseTries : ℕ := 10

/-- What the round `k` of the phase collects if it is made. -/
def phaseRound (phase : DiscoveryPhase) (k : ℕ) : List PAnker :=
  retrieveUpdatePingAck E.sha256 E.own .getVersion 0 (E.phaseWindows phase k).startMicros 1000
    (E.phaseLimit phase) (E.phaseWindows phase k).polls

/-- The phase leaves its loop when a round fills the list. -/
def Executed (phase : DiscoveryPhase) (k : ℕ) : Prop :=
  k < phaseTries ∧ ∀ j < k, (E.phaseRound phase j).length ≠ E.phaseLimit phase

/-- The P-Anker `x` answers the broadcast of the round `k` with a hash-valid
VERSION ack for another version than the C-Anker's. -/
def Answers (phase : DiscoveryPhase) (k : ℕ) (x : Serial) : Prop :=
  ∃ d ∈ ackWindow (E.phaseWindows phase k).startMicros 1000 (E.phaseWindows phase k).polls,
    d.info.accepted E.sha256 = true ∧ d.info.type = AckType.version.code ∧
      d.info.sameVersion E.own = false ∧ d.info.serial = x

/-- The sockets of the phase are there, and no more P-Ankers answer than it
has room for. -/
structure Fits (phase : DiscoveryPhase) : Prop where
  setup : E.phaseSetup phase = true
  limit : 0 < E.phaseLimit phase
  few : ∃ S : Finset Serial, S.card ≤ E.phaseLimit phase ∧
    ∀ k, E.Executed phase k → ∀ x, E.Answers phase k x → x ∈ S

/-- The list of the phase has every P-Anker that answered in any round. -/
def KeepsFound (phase : DiscoveryPhase) : Prop :=
  E.Fits phase → ∀ k, E.Executed phase k → ∀ x, E.Answers phase k x →
    x ∈ (E.phaseList phase).map PAnker.serial

/-- As many answer one broadcast as the phase has room for, or whoever
answers any broadcast answers the last one. -/
def LastHearsAll (phase : DiscoveryPhase) : Prop :=
  E.Fits phase →
    (∃ k < phaseTries, ∃ S : Finset Serial, S.card = E.phaseLimit phase ∧
      ∀ x ∈ S, E.Answers phase k x) ∨
    ∀ k < phaseTries, ∀ x, E.Answers phase k x → E.Answers phase (phaseTries - 1) x

variable {E} {phase : DiscoveryPhase}

theorem serials_phaseList (h : E.phaseSetup phase = true) :
    (E.phaseList phase).map PAnker.serial =
      (retrieveUntil (E.phaseRound phase) (E.phaseLimit phase) phaseTries 0 []).map
        PAnker.serial := by
  cases phase with
  | setIntoApMode =>
      have hsearch : E.searchSetup = true := h
      simp only [phaseList, setIntoApMode, hsearch, if_true]
      apply List.ext_getElem?
      intro i
      rw [List.getElem?_map, List.getElem?_mapIdx, List.getElem?_map, Option.map_map]
      rfl
  | ackConnect =>
      have hjoin : E.joinSetup = true := h
      simp only [phaseList, ackConnect, hjoin, if_true]
      rfl

theorem ackVerdict_getVersion_take {sha256 : Sha256} {own : Anker} {d : AckDatagram} :
    (∃ p, ackVerdict sha256 own .getVersion 0 d = .take p) ↔ d.info.accepted sha256 = true ∧
      d.info.type = AckType.version.code ∧ d.info.sameVersion own = false := by
  simp only [ackVerdict_take_iff, exists_and_left, typeVerdict]
  refine and_congr_right fun _ ↦ ?_
  split_ifs with htype hsame
  · simp [htype]
  · simp [hsame]
  · simp [not_not.mp htype, hsame]

theorem ackVerdict_getVersion_ne_stop (sha256 : Sha256) (own : Anker) (d : AckDatagram) :
    ackVerdict sha256 own .getVersion 0 d ≠ .stop := by
  rw [ackVerdict, typeVerdict]
  split_ifs <;> simp

/-- A round that is not overfull collects whoever answers. -/
theorem mem_phaseRound_iff (hlimit : 0 < E.phaseLimit phase) {S : Finset Serial} {k : ℕ}
    (hcard : S.card ≤ E.phaseLimit phase) (hS : ∀ x, E.Answers phase k x → x ∈ S) (x : Serial) :
    x ∈ (E.phaseRound phase k).map PAnker.serial ↔ E.Answers phase k x := by
  let R := ackRule E.sha256 E.own .getVersion 0
  let window := ackWindow (E.phaseWindows phase k).startMicros 1000 (E.phaseWindows phase k).polls
  have htaken : ∀ y, y ∈ R.takenKeys window ↔ E.Answers phase k y := by
    intro y
    rw [R.mem_takenKeys]
    constructor
    · rintro ⟨d, hd, hverdict, hkey⟩
      obtain ⟨haccepted, htype, hversion⟩ := ackVerdict_getVersion_take.mp hverdict
      exact ⟨d, hd, haccepted, htype, hversion, hkey⟩
    · rintro ⟨d, hd, haccepted, htype, hversion, hkey⟩
      exact ⟨d, hd, ackVerdict_getVersion_take.mpr ⟨haccepted, htype, hversion⟩, hkey⟩
  have hsubset : R.takenKeys window ⊆ S := fun y hy ↦ hS y ((htaken y).mp hy)
  have hkeys := R.keys_collect (E.phaseLimit phase) [] window List.nodup_nil hlimit
    (fun d _ ↦ ackVerdict_getVersion_ne_stop E.sha256 E.own d)
    (by simpa [Collect.Rule.keys] using (Finset.card_le_card hsubset).trans hcard)
  have hmem : x ∈ R.keys (E.phaseRound phase k) ↔ x ∈ R.takenKeys window := by
    change x ∈ R.keys (R.collect (E.phaseLimit phase) [] window) ↔ _
    rw [hkeys]
    simp [Collect.Rule.keys]
  rw [← htaken, ← hmem]
  simp only [Collect.Rule.keys, List.mem_toFinset]
  rfl

theorem card_phaseRound (k : ℕ) :
    ((E.phaseRound phase k).map PAnker.serial).toFinset.card = (E.phaseRound phase k).length := by
  have hnodup : ((E.phaseRound phase k).map PAnker.serial).Nodup := nodup_retrieveUpdatePingAck
  rw [List.toFinset_card_of_nodup hnodup, List.length_map]

/-- A full round has heard whoever answers in any round. -/
theorem mem_of_full {S : Finset Serial} {k : ℕ} (hcard : S.card ≤ E.phaseLimit phase)
    (hsubset : ∀ x ∈ (E.phaseRound phase k).map PAnker.serial, x ∈ S)
    (hfull : (E.phaseRound phase k).length = E.phaseLimit phase) :
    ∀ x ∈ S, x ∈ (E.phaseRound phase k).map PAnker.serial := by
  have heq : ((E.phaseRound phase k).map PAnker.serial).toFinset = S := by
    apply Finset.eq_of_subset_of_card_le
    · exact fun x hx ↦ hsubset x (List.mem_toFinset.mp hx)
    · rw [card_phaseRound, hfull]
      exact hcard
  intro x hx
  rwa [← heq, List.mem_toFinset] at hx

/-- Discovery keeps every P-Anker exactly if one broadcast hears as many as
there is room for or the last one hears all that any of them hears. -/
theorem keepsFound_iff (E : HandleEnv) (phase : DiscoveryPhase) :
    E.KeepsFound phase ↔ E.LastHearsAll phase := by
  apply forall_congr'
  intro hfits
  obtain ⟨S, hcard, hS⟩ := hfits.few
  obtain ⟨l, hl, hlist, hbefore, hend⟩ :=
    retrieveUntil_spec (E.phaseRound phase) (E.phaseLimit phase) 9 0 []
  simp only [Nat.zero_add] at hlist hbefore hend
  have hround : ∀ k, E.Executed phase k → ∀ x,
      x ∈ (E.phaseRound phase k).map PAnker.serial ↔ E.Answers phase k x :=
    fun k hk ↦ mem_phaseRound_iff hfits.limit hcard fun x hx ↦ hS k hk x hx
  have hlast : E.Executed phase l := ⟨Nat.lt_succ_of_le hl, hbefore⟩
  have hserials : (E.phaseList phase).map PAnker.serial =
      (E.phaseRound phase l).map PAnker.serial := by
    rw [serials_phaseList hfits.setup, ← hlist]
    rfl
  rw [hserials]
  by_cases hfull : (E.phaseRound phase l).length = E.phaseLimit phase
  · have hall := mem_of_full hcard (fun x hx ↦ hS l hlast x ((hround l hlast x).mp hx)) hfull
    refine iff_of_true (fun k hk x hx ↦ hall x (hS k hk x hx)) (.inl ⟨l, hlast.1,
      ((E.phaseRound phase l).map PAnker.serial).toFinset, ?_, ?_⟩)
    · rw [card_phaseRound, hfull]
    · exact fun x hx ↦ (hround l hlast x).mp (List.mem_toFinset.mp hx)
  · obtain rfl : l = 9 := hend.resolve_left hfull
    have hexecuted : ∀ k < phaseTries, E.Executed phase k :=
      fun k hk ↦ ⟨hk, fun j hj ↦ hbefore j (by unfold phaseTries at hk; omega)⟩
    constructor
    · exact fun hkeeps ↦ .inr fun k hk x hx ↦
        (hround 9 hlast x).mp (hkeeps k (hexecuted k hk) x hx)
    · rintro (⟨k, hk, T, hT, hanswer⟩ | hears) j hj x hx
      · have hle : (E.phaseRound phase k).length ≤ E.phaseLimit phase :=
          length_retrieveUpdatePingAck_le hfits.limit
        have hsubset : T ⊆ ((E.phaseRound phase k).map PAnker.serial).toFinset := by
          intro y hy
          rw [List.mem_toFinset]
          exact (hround k (hexecuted k hk) y).mpr (hanswer y hy)
        have hcardle := Finset.card_le_card hsubset
        rw [card_phaseRound, hT] at hcardle
        have heq : (E.phaseRound phase k).length = E.phaseLimit phase := le_antisymm hle hcardle
        rcases Nat.lt_or_ge k 9 with hlt | hge
        · exact absurd heq (hbefore k hlt)
        · obtain rfl : k = 9 := by unfold phaseTries at hk; omega
          exact absurd heq hfull
      · exact (hround 9 hlast x).mpr (hears j hj.1 x hx)

def firstAnswer : AckDatagram :=
  ⟨1, ackInfo headHash ⟨Vector.replicate serialSize 1, [49, 0]⟩ .version 0⟩

/-- One P-Anker answers the first broadcast, and its answers to the other
nine get lost. -/
def heardOnce : HandleEnv :=
  { oneOfTwo with
    searchWindows := fun k ↦ ⟨0, if k = 0 then [⟨0, some firstAnswer⟩] else []⟩ }

theorem not_keepsFound_heardOnce :
    heardOnce.Fits .setIntoApMode ∧ ¬ heardOnce.KeepsFound .setIntoApMode := by
  have hwindow : ackWindow 0 1000 [⟨0, some firstAnswer⟩] = [firstAnswer] := by decide
  have honly : ∀ k x, heardOnce.Answers .setIntoApMode k x → x = Vector.replicate serialSize 1 := by
    rintro k x ⟨d, hd, -, -, -, rfl⟩
    cases k with
    | zero =>
        obtain rfl : d = firstAnswer := by
          change d ∈ ackWindow 0 1000 [⟨0, some firstAnswer⟩] at hd
          rwa [hwindow, List.mem_singleton] at hd
        rfl
    | succ k => exact absurd hd List.not_mem_nil
  have hfits : heardOnce.Fits .setIntoApMode :=
    ⟨rfl, by decide, {Vector.replicate serialSize 1}, by decide,
      fun k _ x hx ↦ Finset.mem_singleton.mpr (honly k x hx)⟩
  refine ⟨hfits, fun h ↦ ?_⟩
  have hanswers : heardOnce.Answers .setIntoApMode 0 (Vector.replicate serialSize 1) := by
    refine ⟨firstAnswer, ?_, by decide, rfl, by decide, rfl⟩
    change firstAnswer ∈ ackWindow 0 1000 [⟨0, some firstAnswer⟩]
    rw [hwindow]
    exact List.mem_cons_self
  have hmem := h hfits 0 ⟨by decide, by simp⟩ _ hanswers
  exact absurd hmem (by decide)

end HandleEnv

end AnkerUpdater
