import Mathlib

/-!
# Properties of the events of a log

A log grows at its end.  `EachAt P log` says that every event of the log
has `P` together with what the log held before it.
-/

namespace EventLog

variable {α : Type*} {P : List α → α → Prop}

def EachAt (P : List α → α → Prop) (log : List α) : Prop :=
  ∀ pre a post, log = pre ++ a :: post → P pre a

theorem eachAt_nil : EachAt P [] := by
  intro pre a post h
  simp at h

theorem eachAt_append {log more : List α} :
    EachAt P (log ++ more) ↔ EachAt P log ∧ EachAt (fun pre a ↦ P (log ++ pre) a) more := by
  constructor
  · intro h
    refine ⟨fun pre a post hlog ↦ h pre a (post ++ more) (by simp [hlog]), ?_⟩
    intro pre a post hmore
    exact h (log ++ pre) a post (by simp [hmore])
  · rintro ⟨hlog, hmore⟩ pre a post heq
    rcases List.append_eq_append_iff.mp heq with ⟨mid, rfl, hmid⟩ | ⟨mid, rfl, hmid⟩
    · exact hmore mid a post hmid
    · cases mid with
      | nil =>
          have hfirst := hmore [] a post (by simpa using hmid.symm)
          simpa using hfirst
      | cons x mid =>
          obtain ⟨rfl, -⟩ := List.cons.inj hmid
          exact hlog pre _ mid rfl

theorem eachAt_append_singleton {log : List α} {a : α} :
    EachAt P (log ++ [a]) ↔ EachAt P log ∧ P log a := by
  rw [eachAt_append]
  refine and_congr_right fun _ ↦ ⟨fun h ↦ by simpa using h [] a [] rfl, ?_⟩
  intro h pre b post heq
  obtain ⟨rfl, rfl, -⟩ : pre = [] ∧ a = b ∧ post = [] := by
    cases pre <;> simp_all
  simpa using h

theorem eachAt_cons {a : α} {log : List α} :
    EachAt P (a :: log) ↔ P [] a ∧ EachAt (fun pre b ↦ P (a :: pre) b) log := by
  have hsingle : EachAt P ([] ++ [a]) ↔ EachAt P [] ∧ P [] a := eachAt_append_singleton
  rw [← List.singleton_append, eachAt_append, ← List.nil_append [a], hsingle]
  simp [eachAt_nil]

theorem eachAt_of_forall {log : List α} (h : ∀ a ∈ log, ∀ pre, P pre a) : EachAt P log := by
  intro pre a post hlog
  exact h a (by simp [hlog]) pre

/-! ## Since -/

/-- Some event of the log has `Q`, and no later one has `Stop`. -/
def Since (Stop Q : α → Prop) (log : List α) : Prop :=
  ∃ pre a post, log = pre ++ a :: post ∧ Q a ∧ ∀ b ∈ post, ¬Stop b

section

variable {Stop Q : α → Prop} {log more : List α}

theorem Since.append (h : Since Stop Q log) (hmore : ∀ b ∈ more, ¬Stop b) :
    Since Stop Q (log ++ more) := by
  obtain ⟨pre, a, post, rfl, ha, hpost⟩ := h
  refine ⟨pre, a, post ++ more, by simp, ha, fun b hb ↦ ?_⟩
  rcases List.mem_append.mp hb with hb | hb
  · exact hpost b hb
  · exact hmore b hb

theorem since_of_mem {a : α} (ha : a ∈ more) (hQ : Q a) (hmore : ∀ b ∈ more, ¬Stop b) :
    Since Stop Q (log ++ more) := by
  obtain ⟨pre, post, rfl⟩ := List.append_of_mem ha
  exact ⟨log ++ pre, a, post, by simp, hQ, fun b hb ↦ hmore b (by simp [hb])⟩

end

end EventLog
