import Mathlib

/-!
# Broadcasting one item at a time

A sender offers the items of a sequence one after the other to a set of
receivers.  It moves to the next item once every receiver that is still
in has stored the current one, and it may drop receivers at any time.
A receiver stores items in order and never runs ahead of the offer; one
that forgets what it has stored must be dropped.
-/

namespace StopAndWait

open Relation

variable {ι : Type*}

structure State (ι : Type*) where
  pos : ℕ
  stored : ι → ℕ
  dropped : Set ι

def State.initial (dropped : Set ι) : State ι := ⟨0, fun _ ↦ 0, dropped⟩

inductive Step [DecidableEq ι] : State ι → State ι → Prop where
  | store (s : State ι) (i : ι) (h : s.stored i ≤ s.pos) :
      Step s { s with stored := Function.update s.stored i (s.stored i + 1) }
  | drop (s : State ι) (dropped : Set ι) (h : s.dropped ⊆ dropped) :
      Step s { s with dropped := dropped }
  | advance (s : State ι) (h : ∀ i, i ∉ s.dropped → s.pos < s.stored i) :
      Step s { s with pos := s.pos + 1 }

/-- A receiver that is still in is at the sender's item or just past it;
no receiver is further. -/
structure Lockstep (s : State ι) : Prop where
  reached : ∀ i, i ∉ s.dropped → s.pos ≤ s.stored i
  bounded : ∀ i, s.stored i ≤ s.pos + 1

theorem lockstep_initial (dropped : Set ι) : Lockstep (State.initial dropped) :=
  ⟨fun _ _ ↦ le_rfl, fun _ ↦ Nat.zero_le _⟩

/-! ## Dropping more receivers -/

/-- The same state with the receivers of `out` dropped as well. -/
def State.without (s : State ι) (out : Set ι) : State ι :=
  { s with dropped := s.dropped ∪ out }

@[simp] theorem without_empty (s : State ι) : s.without ∅ = s := by
  rw [State.without, Set.union_empty]

variable [DecidableEq ι]

theorem Step.without {s t : State ι} (hst : Step s t) (out : Set ι) :
    Step (s.without out) (t.without out) := by
  cases hst with
  | store i hi => exact .store (s.without out) i hi
  | drop dropped hsub =>
      exact .drop (s.without out) (dropped ∪ out) (Set.union_subset_union_left out hsub)
  | advance hall =>
      exact .advance (s.without out) fun i hi ↦ hall i fun hdropped ↦ hi (Or.inl hdropped)

theorem steps_without {s t : State ι} (hst : ReflTransGen Step s t) (out : Set ι) :
    ReflTransGen Step (s.without out) (t.without out) := by
  induction hst with
  | refl => exact .refl
  | tail _ hlast ih => exact ih.tail (hlast.without out)

/-- A receiver that was dropped stays dropped. -/
theorem dropped_subset_of_steps {s t : State ι} (hst : ReflTransGen Step s t) :
    s.dropped ⊆ t.dropped := by
  induction hst with
  | refl => exact subset_rfl
  | tail _ hlast ih =>
      cases hlast with
      | store i hi => exact ih
      | drop dropped hsub => exact ih.trans hsub
      | advance hall => exact ih

/-! ## Lockstep -/

/-- Receiver `i` forgets what it has stored and is out. -/
def State.forget (s : State ι) (i : ι) : State ι :=
  { s with stored := Function.update s.stored i 0, dropped := insert i s.dropped }

theorem Lockstep.forget {s : State ι} (h : Lockstep s) (i : ι) : Lockstep (s.forget i) := by
  constructor
  · intro j hj
    have hout : j ≠ i ∧ j ∉ s.dropped := by simpa [State.forget] using hj
    simpa only [State.forget, Function.update_of_ne hout.1] using h.reached j hout.2
  · intro j
    by_cases hji : j = i
    · simp [State.forget, hji]
    · simpa only [State.forget, Function.update_of_ne hji] using h.bounded j

theorem Lockstep.step {s t : State ι} (h : Lockstep s) (hst : Step s t) : Lockstep t := by
  cases hst with
  | store i hi =>
      constructor
      · intro j hj
        have hreached := h.reached j hj
        by_cases hij : j = i
        · subst hij
          simp only [Function.update_self]
          omega
        · simpa only [Function.update_of_ne hij] using hreached
      · intro j
        by_cases hij : j = i
        · subst hij
          simp only [Function.update_self]
          omega
        · simpa only [Function.update_of_ne hij] using h.bounded j
  | drop dropped hsub => exact ⟨fun i hi ↦ h.reached i fun hs ↦ hi (hsub hs), h.bounded⟩
  | advance hall =>
      exact ⟨fun i hi ↦ hall i hi, fun i ↦ (h.bounded i).trans (Nat.le_succ _)⟩

theorem Lockstep.steps {s t : State ι} (h : Lockstep s) (hst : ReflTransGen Step s t) :
    Lockstep t := by
  induction hst with
  | refl => exact h
  | tail _ hlast ih => exact ih.step hlast

end StopAndWait
