import AnkerUpdater.Protocol.Confirmation
import AnkerUpdater.Protocol.Kicks

/-!
# The array of acknowledgements

SEND_UPDATE_FILE and ACK_UPDATE allocate `ack_p_ankers` uninitialised, have
retrieve_update_ping_ack assign its first slots in every round, and free all
its slots at the end.
-/

namespace AnkerUpdater

/-- The array `ack_p_ankers`; a slot that nothing was assigned to is
`none`. -/
abbrev AckSlots := List (Option PAnker)

namespace AckSlots

def malloc (numPAnkers : ℕ) : AckSlots := List.replicate numPAnkers none

/-- retrieve_update_ping_ack assigns a slot for each entry of its list and
leaves the others. -/
def fill (slots : AckSlots) (acks : List PAnker) : AckSlots :=
  slots.mapIdx fun i slot ↦ acks[i]?.or slot

def AllAssigned (slots : AckSlots) : Prop := ∀ slot ∈ slots, slot.isSome = true

instance (slots : AckSlots) : Decidable slots.AllAssigned :=
  inferInstanceAs (Decidable (∀ slot ∈ slots, slot.isSome = true))

def AssignedAt (slots : AckSlots) (i : ℕ) : Prop := ∃ p, slots[i]? = some (some p)

variable (slots : AckSlots)

@[simp] theorem length_fill (acks : List PAnker) : (slots.fill acks).length = slots.length :=
  List.length_mapIdx

theorem assignedAt_fill (acks : List PAnker) (i : ℕ) :
    (slots.fill acks).AssignedAt i ↔
      slots.AssignedAt i ∨ i < slots.length ∧ i < acks.length := by
  simp only [AssignedAt, fill, List.getElem?_mapIdx]
  by_cases hi : i < slots.length
  · rw [List.getElem?_eq_getElem hi]
    by_cases ha : i < acks.length
    · simp [hi, ha]
    · simp [ha]
  · simp [hi]

theorem length_foldl_fill (lists : List (List PAnker)) :
    (lists.foldl fill slots).length = slots.length := by
  induction lists generalizing slots with
  | nil => rfl
  | cons acks lists ih => rw [List.foldl_cons, ih, length_fill]

theorem assignedAt_foldl_fill (lists : List (List PAnker)) (i : ℕ) :
    AssignedAt (lists.foldl fill slots) i ↔
      slots.AssignedAt i ∨ i < slots.length ∧ ∃ acks ∈ lists, i < acks.length := by
  induction lists generalizing slots with
  | nil => simp
  | cons acks lists ih =>
      rw [List.foldl_cons, ih, assignedAt_fill, length_fill, or_assoc, ← and_or_left]
      simp only [List.exists_mem_cons_iff]

theorem allAssigned_iff : slots.AllAssigned ↔ ∀ i < slots.length, slots.AssignedAt i := by
  constructor
  · intro h i hi
    obtain ⟨p, hp⟩ := Option.isSome_iff_exists.mp (h _ (List.getElem_mem hi))
    exact ⟨p, by rw [List.getElem?_eq_getElem hi, hp]⟩
  · intro h slot hslot
    obtain ⟨i, hi, rfl⟩ := List.mem_iff_getElem.mp hslot
    obtain ⟨p, hp⟩ := h i hi
    rw [List.getElem?_eq_getElem hi] at hp
    rw [Option.some.inj hp]
    rfl

/-- The last slot is assigned only with all the others. -/
theorem allAssigned_foldl_malloc (n : ℕ) (lists : List (List PAnker)) :
    AllAssigned (lists.foldl fill (malloc n)) ↔ n = 0 ∨ ∃ acks ∈ lists, n ≤ acks.length := by
  have hempty : ∀ i, ¬ (malloc n).AssignedAt i := by
    rintro i ⟨p, hp⟩
    have heq := List.eq_of_mem_replicate (List.mem_of_getElem? hp)
    exact absurd heq (by simp)
  have hlength : (malloc n).length = n := List.length_replicate
  rw [allAssigned_iff, length_foldl_fill, hlength]
  simp only [assignedAt_foldl_fill, hlength, hempty, false_or]
  constructor
  · intro h
    rcases Nat.eq_zero_or_pos n with hzero | hpos
    · exact .inl hzero
    · obtain ⟨-, acks, hacks, hlt⟩ := h (n - 1) (Nat.sub_one_lt hpos.ne')
      exact .inr ⟨acks, hacks, by omega⟩
  · rintro (rfl | ⟨acks, hacks, hle⟩) i hi
    · exact absurd hi (Nat.not_lt_zero i)
    · exact ⟨hi, acks, hacks, hi.trans_le hle⟩

end AckSlots

/-! ## SEND_UPDATE_FILE -/

/-- The list of retrieve_update_ping_ack, if the turn comes to call it. -/
def AckTurn.lists : AckTurn → List (List PAnker)
  | .readFailed => []
  | .sendFailed => []
  | .round acks => [acks]

namespace SendCall

variable (C : SendCall)

/-- The loop with its array; nothing if an exit jumps over the clean-up. -/
def cleanup : List AckTurn → SendState → AckSlots → Option AckSlots
  | [], s, slots => if C.size ≤ s.offset then some slots else none
  | t :: ts, s, slots =>
      if C.size ≤ s.offset then some slots
      else match C.turn s t with
        | .next s' => cleanup ts s' (t.lists.foldl AckSlots.fill slots)
        | .exit _ _ => none

/-- The turns bring the loop to the end of the partition. -/
def completes : List AckTurn → SendState → Bool
  | [], s => C.size ≤ s.offset
  | t :: ts, s => C.size ≤ s.offset || match C.turn s t with
      | .next s' => completes ts s'
      | .exit _ _ => false

/-- The lists of the turns that the loop makes. -/
def lists : List AckTurn → SendState → List (List PAnker)
  | [], _ => []
  | t :: ts, s =>
      if C.size ≤ s.offset then []
      else match C.turn s t with
        | .next s' => t.lists ++ lists ts s'
        | .exit _ _ => t.lists

theorem cleanup_eq (turns : List AckTurn) (s : SendState) (slots : AckSlots) :
    C.cleanup turns s slots =
      if C.completes turns s then some ((C.lists turns s).foldl AckSlots.fill slots)
      else none := by
  induction turns generalizing s slots with
  | nil =>
      simp only [cleanup, completes, lists, decide_eq_true_eq]
      rfl
  | cons t ts ih =>
      simp only [cleanup, completes, lists, Bool.or_eq_true, decide_eq_true_eq]
      by_cases hend : C.size ≤ s.offset
      · simp only [hend, if_true, true_or]
        rfl
      · simp only [hend, if_false, false_or]
        cases C.turn s t with
        | next s' => simp only [ih, List.foldl_append]
        | exit rc s' => rfl

end SendCall

/-! ## ACK_UPDATE -/

namespace Confirming

variable (C : Confirming)

/-- The loop of ACK_UPDATE with its array. -/
def roundsWithSlots : ℕ → ℕ → UpdateTally → AckSlots → UpdateTally × ℕ × AckSlots
  | 0, y, t, slots => (t, y, slots)
  | fuel + 1, y, t, slots =>
      let slots' := slots.fill (C.acks y)
      let t' := tallyUpdateAcks (C.acks y) t.numAnswered t.numCorrectAnswered t.pAnkers
      if t'.numAnswered % 256 = C.numAcknowledged then (t', y, slots')
      else roundsWithSlots fuel (y + 1) t' slots'

def resultWithSlots : UpdateTally × ℕ × AckSlots :=
  C.roundsWithSlots maxRetriesAcksUpdatedPAnkers 0 ⟨C.pAnkers, 0, 0⟩
    (AckSlots.malloc C.pAnkers.length)

/-- The array that the clean-up reads; nothing if the exit after the loop
jumps over it. -/
def cleanup : Option AckSlots :=
  if C.resultWithSlots.2.1 = 20 ∧ C.resultWithSlots.1.numAnswered % 256 = 0 then none
  else some C.resultWithSlots.2.2

/-- The lists of the rounds from `y` on. -/
def lists : ℕ → ℕ → UpdateTally → List (List PAnker)
  | 0, _, _ => []
  | fuel + 1, y, t =>
      let t' := tallyUpdateAcks (C.acks y) t.numAnswered t.numCorrectAnswered t.pAnkers
      if t'.numAnswered % 256 = C.numAcknowledged then [C.acks y]
      else C.acks y :: lists fuel (y + 1) t'

theorem roundsWithSlots_eq (fuel y : ℕ) (t : UpdateTally) (slots : AckSlots) :
    C.roundsWithSlots fuel y t slots = ((C.rounds fuel y t).1, (C.rounds fuel y t).2,
      (C.lists fuel y t).foldl AckSlots.fill slots) := by
  induction fuel generalizing y t slots with
  | zero => rfl
  | succ fuel ih =>
      simp only [roundsWithSlots, rounds, lists]
      split_ifs with hend
      · rfl
      · rw [ih, List.foldl_cons]

/-- No exit jumps over the clean-up. -/
theorem cleanup_eq : C.cleanup =
    some ((C.lists maxRetriesAcksUpdatedPAnkers 0 ⟨C.pAnkers, 0, 0⟩).foldl AckSlots.fill
      (AckSlots.malloc C.pAnkers.length)) := by
  have hok : ¬ (C.result.2 = 20 ∧ C.result.1.numAnswered % 256 = 0) := by
    intro herror
    have hrc := C.rc_eq_ok
    rw [rc, if_pos herror] at hrc
    cases hrc
  simp only [cleanup, resultWithSlots, roundsWithSlots_eq]
  exact if_neg hok

end Confirming

/-! ## The clean-up loops -/

/-- A call in one of the two branches.  In SEND_UPDATE_FILE the running
partition may be missing. -/
inductive CleanupCall where
  | sendUpdateFile (C : SendCall) (runningPartition : Bool) (turns : List AckTurn)
  | ackUpdate (C : Confirming)

namespace CleanupCall

def numPAnkers : CleanupCall → ℕ
  | .sendUpdateFile C _ _ => C.pAnkers.length
  | .ackUpdate C => C.pAnkers.length

/-- The array that a clean-up loop of the call reads. -/
def cleanup : CleanupCall → Option AckSlots
  | .sendUpdateFile C runningPartition turns =>
      if runningPartition then C.cleanup turns C.start (AckSlots.malloc C.pAnkers.length)
      else some (AckSlots.malloc C.pAnkers.length)
  | .ackUpdate C => C.cleanup

/-- A clean-up loop reads only slots that were assigned. -/
def CleanupAssigned (B : CleanupCall) : Prop := ∀ slots, B.cleanup = some slots → slots.AllAssigned

/-- SEND_UPDATE_FILE skips its clean-up loop if it has the partition and
does not get to the end of it. -/
def cleansUp : CleanupCall → Bool
  | .sendUpdateFile C runningPartition turns => !runningPartition || C.completes turns C.start
  | .ackUpdate _ => true

/-- The lists of the rounds of the call. -/
def lists : CleanupCall → List (List PAnker)
  | .sendUpdateFile C runningPartition turns =>
      if runningPartition then C.lists turns C.start else []
  | .ackUpdate C => C.lists maxRetriesAcksUpdatedPAnkers 0 ⟨C.pAnkers, 0, 0⟩

theorem cleanup_eq (B : CleanupCall) : B.cleanup =
    if B.cleansUp then some (B.lists.foldl AckSlots.fill (AckSlots.malloc B.numPAnkers))
    else none := by
  cases B with
  | sendUpdateFile C runningPartition turns =>
      cases runningPartition with
      | false => rfl
      | true => exact C.cleanup_eq turns C.start _
  | ackUpdate C => exact C.cleanup_eq

/-- A clean-up loop reads only assigned slots exactly if there are none or
one round heard from every P-Anker of the array. -/
theorem cleanupAssigned_iff (B : CleanupCall) :
    B.CleanupAssigned ↔
      (B.cleansUp = true → B.numPAnkers = 0 ∨ ∃ acks ∈ B.lists, B.numPAnkers ≤ acks.length) := by
  rw [← AckSlots.allAssigned_foldl_malloc, CleanupAssigned, cleanup_eq]
  cases B.cleansUp <;> simp

/-- The only P-Anker never answers. -/
def silentUpdate : Confirming where
  pAnkers := [⟨Vector.replicate serialSize 1, 1, false, 0⟩]
  length_le := by decide
  fresh := by decide
  acks _ := []

theorem not_cleanupAssigned_silentUpdate : ¬ (ackUpdate silentUpdate).CleanupAssigned := by
  intro h
  have hslots : silentUpdate.cleanup = some [none] := by decide
  exact absurd (h [none] hslots) (by decide)

end CleanupCall

end AnkerUpdater
