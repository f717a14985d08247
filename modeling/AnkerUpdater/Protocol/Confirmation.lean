import AnkerUpdater.Protocol.Counts

/-!
# The rounds of ACK_UPDATE

The loop compares the number of answers with the number of P-Ankers that
are not kicked.  A P-Anker that has answered negatively is asked again, and
its next answer is counted again.
-/

namespace AnkerUpdater

/-- The entry of the list with the serial of `p`. -/
def PAnker.answerIn (acks : List PAnker) (p : PAnker) : Option PAnker :=
  acks.find? fun a ↦ a.serial = p.serial

def PAnker.answers (acks : List PAnker) (p : PAnker) : Bool := (p.answerIn acks).isSome

/-- What ACK_UPDATE starts with, as SEND_UPDATE_FILE leaves it, and the
ack lists of its rounds. -/
structure Confirming where
  pAnkers : List PAnker
  /-- `num_p_ankers` is a `uint8_t`. -/
  length_le : pAnkers.length ≤ 255
  fresh : ∀ p ∈ pAnkers, p.acknowledged = false
  acks : ℕ → List PAnker

namespace Confirming

variable (C : Confirming)

/-- The incoming `*num_acknowledged`. -/
def numAcknowledged : ℕ := C.pAnkers.countP PAnker.active

/-- The loop of ACK_UPDATE, entered at `y` with `fuel` rounds left.
`numAnswered` counts on where the `uint8_t` of the code wraps. -/
def rounds : ℕ → ℕ → UpdateTally → UpdateTally × ℕ
  | 0, y, t => (t, y)
  | fuel + 1, y, t =>
      let t' := tallyUpdateAcks (C.acks y) t.numAnswered t.numCorrectAnswered t.pAnkers
      if t'.numAnswered % 256 = C.numAcknowledged then (t', y) else rounds fuel (y + 1) t'

def result : UpdateTally × ℕ := C.rounds maxRetriesAcksUpdatedPAnkers 0 ⟨C.pAnkers, 0, 0⟩

def rc : UpdaterRc :=
  if C.result.2 = 20 ∧ C.result.1.numAnswered % 256 = 0 then .error else .ok

/-- The loop ends early, that is by `break` before the rounds are used up,
only when everybody that is not kicked has answered; it counts at most as
many answers as it expects, and fails when nobody answers. -/
structure WaitsForEverybody : Prop where
  everybody : C.result.2 < maxRetriesAcksUpdatedPAnkers →
    ∀ p ∈ C.pAnkers, p.active = true → ∃ k ≤ C.result.2, p.answers (C.acks k) = true
  bounded : C.result.1.numAnswered ≤ C.numAcknowledged
  silent : (∀ p ∈ C.pAnkers, p.active = true → ∀ y < maxRetriesAcksUpdatedPAnkers,
    p.answers (C.acks y) = false) → C.rc = .error

/-! ## Answers that count -/

/-- The P-Anker has not answered positively before round `y`. -/
def unconfirmed (y : ℕ) (p : PAnker) : Bool :=
  (List.range y).all fun k ↦ !(p.answerIn (C.acks k)).any PAnker.acknowledged

def counted (p : PAnker) (y : ℕ) : Bool := p.active && C.unconfirmed y p && p.answers (C.acks y)

/-- In how many rounds before `y` an answer of the P-Anker counts. -/
def timesCounted (y : ℕ) (p : PAnker) : ℕ := (List.range y).countP (C.counted p)

def total (y : ℕ) : ℕ := (C.pAnkers.map (C.timesCounted y)).sum

/-- Somebody that is not kicked answers, and when the answers that count
have become as many as the P-Ankers that are not kicked, none of them was a
second one. -/
structure NoneTwice : Prop where
  somebody : ∃ p ∈ C.pAnkers, p.active = true ∧
    ∃ y < maxRetriesAcksUpdatedPAnkers, p.answers (C.acks y) = true
  once : ∀ y < maxRetriesAcksUpdatedPAnkers, C.numAcknowledged ≤ C.total (y + 1) →
    (∀ k < y, C.total (k + 1) < C.numAcknowledged) → ∀ p ∈ C.pAnkers, C.timesCounted (y + 1) p ≤ 1

theorem timesCounted_succ (y : ℕ) (p : PAnker) :
    C.timesCounted (y + 1) p = C.timesCounted y p + if C.counted p y then 1 else 0 := by
  rw [timesCounted, List.range_succ, List.countP_append, List.countP_singleton]
  rfl

theorem total_succ (y : ℕ) : C.total (y + 1) = C.total y + C.pAnkers.countP (C.counted · y) := by
  unfold total
  induction C.pAnkers with
  | nil => rfl
  | cons p ps ih =>
      rw [List.map_cons, List.sum_cons, ih, C.timesCounted_succ, List.map_cons, List.sum_cons,
        List.countP_cons]
      omega

theorem total_mono {y z : ℕ} (h : y ≤ z) : C.total y ≤ C.total z := by
  induction z, h using Nat.le_induction with
  | base => exact le_rfl
  | succ z _ ih =>
      rw [C.total_succ]
      omega

theorem timesCounted_of_not_active {p : PAnker} (h : p.active = false) (y : ℕ) :
    C.timesCounted y p = 0 := by
  rw [timesCounted, List.countP_eq_zero]
  simp [counted, h]

/-- The first answer of a P-Anker counts. -/
theorem timesCounted_pos {p : PAnker} (hactive : p.active = true) {y : ℕ}
    (h : ∃ k < y, p.answers (C.acks k) = true) : 0 < C.timesCounted y p := by
  classical
  let k := Nat.find h
  obtain ⟨hlt, hanswers⟩ := Nat.find_spec h
  have hopen : C.unconfirmed k p = true := by
    rw [unconfirmed, List.all_eq_true]
    intro i hi
    have hnot := Nat.find_min h (List.mem_range.mp hi)
    have hsilent : p.answers (C.acks i) = false := by
      by_contra hne
      have hik : i < k := List.mem_range.mp hi
      exact hnot ⟨hik.trans hlt, by simpa using hne⟩
    rw [PAnker.answers, Option.isSome_eq_false_iff, Option.isNone_iff_eq_none] at hsilent
    rw [hsilent]
    rfl
  rw [timesCounted, List.countP_pos_iff]
  exact ⟨k, List.mem_range.mpr hlt, by rw [counted, hactive, hopen, hanswers]; rfl⟩

theorem exists_answer_of_timesCounted_pos {p : PAnker} {y : ℕ} (h : 0 < C.timesCounted y p) :
    ∃ k < y, p.answers (C.acks k) = true := by
  obtain ⟨k, hk, hcounted⟩ := List.countP_pos_iff.mp h
  exact ⟨k, List.mem_range.mp hk, (Bool.and_eq_true_iff.mp hcounted).2⟩

theorem eq_of_sum_map_le {α : Type*} {f g : α → ℕ} {l : List α} (hle : ∀ x ∈ l, f x ≤ g x)
    (hsum : (l.map g).sum ≤ (l.map f).sum) : ∀ x ∈ l, f x = g x := by
  by_contra hne
  simp only [not_forall] at hne
  obtain ⟨x, hx, hne⟩ := hne
  have hlt := List.sum_lt_sum f g hle ⟨x, hx, lt_of_le_of_ne (hle x hx) hne⟩
  omega

theorem sum_active (ps : List PAnker) :
    (ps.map fun p ↦ if p.active then 1 else 0).sum = ps.countP PAnker.active := by
  induction ps with
  | nil => rfl
  | cons p ps ih =>
      rw [List.map_cons, List.sum_cons, ih, List.countP_cons]
      omega

/-- Every active P-Anker gives exactly one counted answer. -/
theorem once_of_total {y : ℕ} (hle : C.total y ≤ C.numAcknowledged)
    (hall : ∀ p ∈ C.pAnkers, p.active = true → 0 < C.timesCounted y p) :
    ∀ p ∈ C.pAnkers, C.timesCounted y p ≤ 1 := by
  have hpos : ∀ p ∈ C.pAnkers, (if p.active then 1 else 0) ≤ C.timesCounted y p := by
    intro p hp
    split_ifs with hactive
    · exact hall p hp hactive
    · exact Nat.zero_le _
  have hsum := eq_of_sum_map_le hpos (hle.trans (sum_active C.pAnkers).ge)
  intro p hp
  rw [← hsum p hp]
  split_ifs <;> omega

theorem timesCounted_le {y : ℕ} {p : PAnker} (honce : C.timesCounted y p ≤ 1) :
    C.timesCounted y p ≤ if p.active then 1 else 0 := by
  split_ifs with hactive
  · exact honce
  · rw [C.timesCounted_of_not_active (by simpa using hactive)]

theorem total_le {y : ℕ} (honce : ∀ p ∈ C.pAnkers, C.timesCounted y p ≤ 1) :
    C.total y ≤ C.numAcknowledged := by
  rw [numAcknowledged, ← sum_active]
  exact List.sum_le_sum fun p hp ↦ C.timesCounted_le (honce p hp)

theorem all_of_total {y : ℕ} (hle : C.numAcknowledged ≤ C.total y)
    (honce : ∀ p ∈ C.pAnkers, C.timesCounted y p ≤ 1) :
    ∀ p ∈ C.pAnkers, p.active = true → 0 < C.timesCounted y p := by
  intro p hp hactive
  have hsum := eq_of_sum_map_le (fun p hp ↦ C.timesCounted_le (honce p hp))
    ((sum_active C.pAnkers).trans_le hle) p hp
  rw [hsum, if_pos hactive]
  exact Nat.one_pos

/-! ## The loop -/

theorem tallyUpdateAcks_answers (acks : List PAnker) (na nc : ℕ) (ps : List PAnker) :
    (tallyUpdateAcks acks na nc ps).pAnkers = ps.map (fun p ↦ { p with
        acknowledged := if p.active && !p.acknowledged then
          (p.answerIn acks).any PAnker.acknowledged else p.acknowledged }) ∧
      (tallyUpdateAcks acks na nc ps).numAnswered =
        na + ps.countP fun p ↦ p.active && !p.acknowledged && p.answers acks := by
  induction ps generalizing na nc with
  | nil => exact ⟨rfl, rfl⟩
  | cons p ps ih =>
      rw [tallyUpdateAcks]
      by_cases hskip : (p.kicked || p.acknowledged) = true
      · obtain ⟨hps, hanswered⟩ := ih na nc
        have hself : (p.active && !p.acknowledged) = false := by
          rcases Bool.or_eq_true_iff.mp hskip with h | h <;> simp [PAnker.active, h]
        rw [if_pos hskip]
        simp only [List.map_cons, List.countP_cons, hps, hanswered, hself]
        exact ⟨rfl, rfl⟩
      · have hself : (p.active && !p.acknowledged) = true := by
          simpa [PAnker.active] using hskip
        have hnot : p.acknowledged = false := by simpa using (Bool.and_eq_true_iff.mp hself).2
        rw [if_neg hskip]
        cases hfind : acks.find? fun a ↦ a.serial = p.serial with
        | none =>
            obtain ⟨hps, hanswered⟩ := ih na nc
            simp only [List.map_cons, List.countP_cons, hps, hanswered, hself, PAnker.answers,
              PAnker.answerIn, hfind]
            refine ⟨?_, rfl⟩
            simp [← hnot]
        | some a =>
            obtain ⟨hps, hanswered⟩ := ih (na + 1) (if a.acknowledged then nc + 1 else nc)
            simp only [List.map_cons, List.countP_cons, hps, hanswered, hself, PAnker.answers,
              PAnker.answerIn, hfind]
            exact ⟨rfl, by simp; omega⟩

/-- The entries and the count when the rounds before `y` are tallied. -/
structure TallyInv (y : ℕ) (t : UpdateTally) : Prop where
  pAnkers : t.pAnkers =
    C.pAnkers.map fun p ↦ { p with acknowledged := p.active && !C.unconfirmed y p }
  numAnswered : t.numAnswered = C.total y

theorem tallyInv_start : C.TallyInv 0 ⟨C.pAnkers, 0, 0⟩ where
  pAnkers := by
    refine ((List.map_congr_left fun p hp ↦ ?_).trans C.pAnkers.map_id').symm
    have hfresh := C.fresh p hp
    cases p with
    | mk serial ip acknowledged failCnt =>
        obtain rfl : acknowledged = false := hfresh
        simp [unconfirmed]
  numAnswered := by
    have hzero : C.timesCounted 0 = fun _ ↦ 0 := rfl
    simp [total, hzero]

variable {C} in
theorem TallyInv.round {y : ℕ} {t : UpdateTally} (h : C.TallyInv y t) : C.TallyInv (y + 1)
    (tallyUpdateAcks (C.acks y) t.numAnswered t.numCorrectAnswered t.pAnkers) := by
  obtain ⟨hps, hanswered⟩ := tallyUpdateAcks_answers (C.acks y) t.numAnswered
    t.numCorrectAnswered t.pAnkers
  constructor
  · rw [hps, h.pAnkers, List.map_map]
    refine List.map_congr_left fun p _ ↦ ?_
    have hnext : C.unconfirmed (y + 1) p =
        (C.unconfirmed y p && !(p.answerIn (C.acks y)).any PAnker.acknowledged) := by
      simp [unconfirmed, List.range_succ]
    simp only [Function.comp_apply, PAnker.mk.injEq, true_and, and_true, hnext]
    change (if p.active && !(p.active && !C.unconfirmed y p) then
      (p.answerIn (C.acks y)).any PAnker.acknowledged else p.active && !C.unconfirmed y p) = _
    cases p.active <;> cases C.unconfirmed y p <;> simp
  · rw [hanswered, h.numAnswered, h.pAnkers, C.total_succ, List.countP_map]
    congr 2
    funext p
    change (p.active && !(p.active && !C.unconfirmed y p) && p.answers (C.acks y)) = C.counted p y
    rw [counted]
    cases p.active <;> simp

/-- The loop is left after the first round whose total is the expected one,
or after all rounds. -/
theorem rounds_spec {fuel y : ℕ} {t : UpdateTally} (h : C.TallyInv y t) :
    (∀ k, y ≤ k → k < (C.rounds fuel y t).2 → C.total (k + 1) % 256 ≠ C.numAcknowledged) ∧
    (((C.rounds fuel y t).2 < y + fuel ∧
        C.total ((C.rounds fuel y t).2 + 1) % 256 = C.numAcknowledged ∧
        (C.rounds fuel y t).1.numAnswered = C.total ((C.rounds fuel y t).2 + 1)) ∨
      ((C.rounds fuel y t).2 = y + fuel ∧
        (C.rounds fuel y t).1.numAnswered = C.total (y + fuel))) := by
  induction fuel generalizing y t with
  | zero => exact ⟨fun k hle hlt ↦ absurd hlt hle.not_gt, .inr ⟨rfl, h.numAnswered⟩⟩
  | succ fuel ih =>
      have hround := h.round
      have hanswered := hround.numAnswered
      rw [rounds]
      split_ifs with hend
      · rw [hanswered] at hend
        exact ⟨fun k hle hlt ↦ absurd hlt hle.not_gt, .inl ⟨by simp, hend, hanswered⟩⟩
      · obtain ⟨hbefore, hleft⟩ := ih hround
        rw [hanswered] at hend
        rw [Nat.add_assoc, Nat.add_comm 1 fuel] at hleft
        refine ⟨fun k hle hlt ↦ ?_, hleft⟩
        rcases hle.eq_or_lt with rfl | hle
        · exact hend
        · exact hbefore k hle hlt

theorem result_spec :
    (∀ k < C.result.2, C.total (k + 1) % 256 ≠ C.numAcknowledged) ∧
    ((C.result.2 < maxRetriesAcksUpdatedPAnkers ∧
        C.total (C.result.2 + 1) % 256 = C.numAcknowledged ∧
        C.result.1.numAnswered = C.total (C.result.2 + 1)) ∨
      (C.result.2 = maxRetriesAcksUpdatedPAnkers ∧
        C.result.1.numAnswered = C.total maxRetriesAcksUpdatedPAnkers)) := by
  obtain ⟨hbefore, hend⟩ := C.rounds_spec C.tallyInv_start
  rw [Nat.zero_add] at hend
  exact ⟨fun k hk ↦ hbefore k (Nat.zero_le _) hk, hend⟩

/-- Below 256 answers the counter does not wrap. -/
theorem rounds_eq_updateRounds {fuel y : ℕ} {t : UpdateTally}
    (hfits : t.numAnswered + fuel * t.pAnkers.length < 256) :
    C.rounds fuel y t = updateRounds C.acks C.numAcknowledged fuel y t := by
  induction fuel generalizing y t with
  | zero => rfl
  | succ fuel ih =>
      obtain ⟨hps, hanswered⟩ := tallyUpdateAcks_answers (C.acks y) t.numAnswered
        t.numCorrectAnswered t.pAnkers
      have hmore := hanswered.trans_le (Nat.add_le_add_left List.countP_le_length _)
      have hlength := congrArg List.length hps
      rw [List.length_map] at hlength
      rw [Nat.succ_mul] at hfits
      rw [rounds, updateRounds, Nat.mod_eq_of_lt (by omega)]
      split_ifs
      · rfl
      · exact ih (by rw [hlength]; omega)

/-- In a call of `handle_p_anker_updates` the rounds are those of `ackUpdate`. -/
theorem ackUpdate_eq_result {E : HandleEnv} (hacks : C.acks = E.updateAcks C.pAnkers.length)
    (hlength : C.pAnkers.length ≤ maxPAnkerToUpdate) :
    E.ackUpdate C.pAnkers C.numAcknowledged = C.result := by
  rw [HandleEnv.ackUpdate, result, C.rounds_eq_updateRounds, hacks]
  simp only [maxPAnkerToUpdate] at hlength
  simp only [maxRetriesAcksUpdatedPAnkers]
  omega

theorem numAcknowledged_lt : C.numAcknowledged < 256 :=
  Nat.lt_succ_of_le (List.countP_le_length.trans C.length_le)

theorem total_zero_of_none (hnone : C.numAcknowledged = 0) (y : ℕ) : C.total y = 0 := by
  refine Nat.le_zero.mp (hnone ▸ C.total_le fun p hp ↦ ?_)
  have hactive : p.active = false := by
    simpa using List.countP_eq_zero.mp hnone p hp
  rw [C.timesCounted_of_not_active hactive]
  exact Nat.zero_le _

/-- The check after the loop names a value that no loop without an answer
ends with. -/
theorem rc_eq_ok : C.rc = .ok := by
  apply if_neg
  rintro ⟨hlast, hnone⟩
  obtain ⟨hbefore, hleft⟩ := C.result_spec
  rw [hlast] at hbefore hleft
  rcases hleft with ⟨-, htotal, hanswered⟩ | ⟨hend, -⟩
  · rw [hanswered, htotal] at hnone
    apply hbefore 0 (by decide)
    rw [C.total_zero_of_none hnone, hnone]
  · exact absurd hend (by decide)

/-- The first round with as many answers as P-Ankers, if none was a second
one, is the last. -/
theorem NoneTwice.result {C : Confirming} (h : C.NoneTwice) {y : ℕ}
    (hy : y < maxRetriesAcksUpdatedPAnkers) (hreached : C.numAcknowledged ≤ C.total (y + 1)) :
    C.result.2 ≤ y ∧ C.total (C.result.2 + 1) = C.numAcknowledged ∧
      C.result.1.numAnswered = C.numAcknowledged ∧
      ∀ p ∈ C.pAnkers, p.active = true → ∃ k ≤ C.result.2, p.answers (C.acks k) = true := by
  classical
  have hexists : ∃ z, C.numAcknowledged ≤ C.total (z + 1) := ⟨y, hreached⟩
  let z := Nat.find hexists
  have hz : C.numAcknowledged ≤ C.total (z + 1) := Nat.find_spec hexists
  have hzy : z ≤ y := Nat.find_min' hexists hreached
  have hfirst : ∀ k < z, C.total (k + 1) < C.numAcknowledged := fun k hk ↦
    not_le.mp (Nat.find_min hexists hk)
  have hlt := C.numAcknowledged_lt
  have honce := h.once z (hzy.trans_lt hy) hz hfirst
  have htotal : C.total (z + 1) = C.numAcknowledged := le_antisymm (C.total_le honce) hz
  obtain ⟨hbefore, hleft⟩ := C.result_spec
  have hle : C.result.2 ≤ z := by
    by_contra hpast
    apply hbefore z (not_le.mp hpast)
    rw [htotal, Nat.mod_eq_of_lt hlt]
  rcases hleft with ⟨-, hend, hanswered⟩ | ⟨hend, -⟩
  · have heq : C.result.2 = z := by
      by_contra hne
      have hless := hfirst _ (lt_of_le_of_ne hle hne)
      rw [Nat.mod_eq_of_lt (hless.trans hlt)] at hend
      exact hless.ne hend
    rw [heq] at hanswered ⊢
    refine ⟨hzy, htotal, hanswered.trans htotal, fun p hp hactive ↦ ?_⟩
    obtain ⟨k, hk, hanswers⟩ :=
      C.exists_answer_of_timesCounted_pos (C.all_of_total hz honce p hp hactive)
    exact ⟨k, Nat.le_of_lt_succ hk, hanswers⟩
  · omega

/-- The loop waits for everybody exactly if somebody answers and nobody is
counted twice before the number of answers is reached. -/
theorem waitsForEverybody_iff : C.WaitsForEverybody ↔ C.NoneTwice := by
  obtain ⟨hbefore, hleft⟩ := C.result_spec
  have hlt := C.numAcknowledged_lt
  constructor
  · intro h
    refine ⟨?_, fun y hy hreached hfirst ↦ ?_⟩
    · by_contra hnobody
      have herror := h.silent fun p hp hactive y hy ↦ by
        by_contra hanswers
        exact hnobody ⟨p, hp, hactive, y, hy, by simpa using hanswers⟩
      rw [C.rc_eq_ok] at herror
      cases herror
    · have hpast : ∀ k < y, C.total (k + 1) % 256 ≠ C.numAcknowledged := by
        intro k hk
        have hless := hfirst k hk
        rw [Nat.mod_eq_of_lt (hless.trans hlt)]
        exact hless.ne
      have hbounded := h.bounded
      have hle : C.total (y + 1) ≤ C.numAcknowledged := by
        rcases hleft with ⟨-, hend, hanswered⟩ | ⟨-, hanswered⟩
        · have hyr : y ≤ C.result.2 := by
            by_contra hless
            exact hpast _ (not_le.mp hless) hend
          exact (C.total_mono (Nat.succ_le_succ hyr)).trans (hanswered.ge.trans hbounded)
        · exact (C.total_mono hy).trans (hanswered.ge.trans hbounded)
      have htotal : C.total (y + 1) = C.numAcknowledged := le_antisymm hle hreached
      have hylast : C.result.2 = y := by
        refine le_antisymm ?_ ?_
        · by_contra hless
          apply hbefore y (not_le.mp hless)
          rw [htotal, Nat.mod_eq_of_lt hlt]
        · by_contra hless
          rcases hleft with ⟨-, hend, -⟩ | ⟨hend, -⟩
          · exact hpast _ (not_le.mp hless) hend
          · omega
      refine C.once_of_total hle fun p hp hactive ↦ C.timesCounted_pos hactive ?_
      obtain ⟨k, hk, hanswers⟩ := h.everybody (hylast ▸ hy) p hp hactive
      exact ⟨k, by omega, hanswers⟩
  · intro h
    refine ⟨fun hearly ↦ ?_, ?_, fun hsilent ↦ ?_⟩
    · rcases hleft with ⟨-, hend, -⟩ | ⟨hend, -⟩
      · exact (h.result hearly (hend ▸ Nat.mod_le _ _)).2.2.2
      · exact absurd hearly hend.not_lt
    · by_contra hmore
      rcases hleft with ⟨hearly, hend, -⟩ | ⟨hend, hanswered⟩
      · exact hmore (h.result hearly (hend ▸ Nat.mod_le _ _)).2.2.1.le
      · have hlast : C.numAcknowledged ≤ C.total (maxRetriesAcksUpdatedPAnkers - 1 + 1) :=
          (not_le.mp hmore).le.trans hanswered.le
        exact hmore (h.result (by decide) hlast).2.2.1.le
    · obtain ⟨p, hp, hactive, y, hy, hanswers⟩ := h.somebody
      rw [hsilent p hp hactive y hy] at hanswers
      cases hanswers

/-- One P-Anker answers negatively in every round, the other one never. -/
def refusing : Confirming where
  pAnkers := [⟨Vector.replicate serialSize 3, 3, false, 0⟩, ⟨Vector.replicate serialSize 4, 4, false, 0⟩]
  length_le := by decide
  fresh := by decide
  acks := fun _ ↦ [⟨Vector.replicate serialSize 3, 3, false, 0⟩]

theorem not_waitsForEverybody_refusing : ¬refusing.WaitsForEverybody := by
  intro h
  obtain ⟨k, -, hanswers⟩ := h.everybody (by decide)
    ⟨Vector.replicate serialSize 4, 4, false, 0⟩ (by decide) (by decide)
  exact absurd hanswers (by simp [refusing, PAnker.answers, PAnker.answerIn]; decide)

end Confirming

end AnkerUpdater
