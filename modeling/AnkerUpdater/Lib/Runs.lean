import AnkerUpdater.Lib.EventLog

/-!
# Runs of a deterministic system

A run performs a list of actions from a state.  `Always step Good s actions`
says that every action of the run is `Good` in the state it meets.  An
invariant that good actions keep holds at the end of such a run, and a
property of the events of a run is decided action by action.
-/

namespace Runs

open EventLog

variable {σ α ε : Type*} {step : σ → α → σ} {Good Good' : σ → α → Prop} {s : σ}
  {actions more : List α}

def Always (step : σ → α → σ) (Good : σ → α → Prop) (s : σ) (actions : List α) : Prop :=
  EachAt (fun pre a ↦ Good (pre.foldl step s) a) actions

theorem always_nil : Always step Good s [] := eachAt_nil

theorem always_append_singleton {a : α} :
    Always step Good s (actions ++ [a]) ↔
      Always step Good s actions ∧ Good (actions.foldl step s) a :=
  eachAt_append_singleton

theorem always_append : Always step Good s (actions ++ more) ↔
    Always step Good s actions ∧ Always step Good (actions.foldl step s) more := by
  unfold Always
  rw [eachAt_append]
  simp only [List.foldl_append]

theorem Always.initial (h : Always step Good s actions) {pre : List α} (hpre : pre <+: actions) :
    Always step Good s pre := by
  obtain ⟨post, rfl⟩ := hpre
  exact (always_append.mp h).1

theorem always_cons {a : α} :
    Always step Good s (a :: actions) ↔ Good s a ∧ Always step Good (step s a) actions :=
  eachAt_cons

instance decidableAlways [∀ s a, Decidable (Good s a)] (s : σ) :
    (actions : List α) → Decidable (Always step Good s actions)
  | [] => .isTrue always_nil
  | a :: actions =>
      have := decidableAlways (step s a) actions
      decidable_of_iff _ always_cons.symm

theorem always_const {P : α → Prop} :
    Always step (fun _ a ↦ P a) s actions ↔ ∀ a ∈ actions, P a := by
  constructor
  · intro h a ha
    obtain ⟨pre, post, heq⟩ := List.append_of_mem ha
    exact h pre a post heq
  · rintro h pre a post rfl
    exact h a (by simp)

/-- The run invariant rule. -/
theorem invariant (Inv : σ → Prop) (hstep : ∀ s a, Inv s → Good s a → Inv (step s a))
    (hs : Inv s) (h : Always step Good s actions) : Inv (actions.foldl step s) := by
  induction actions using List.reverseRecOn with
  | nil => exact hs
  | append_singleton actions a ih =>
      obtain ⟨hactions, ha⟩ := always_append_singleton.mp h
      rw [List.foldl_append]
      exact hstep _ a (ih hactions) ha

/-- The bounded progress rule: from `Near n` a run with more than `n` counted
actions reaches its goal, if each of them comes closer or is there, and the
other actions lose nothing. -/
theorem exists_reached (Near : ℕ → σ → Prop) (counted : α → Bool) (Reached : σ → α → Prop)
    (hkeeps : ∀ n s a, Near n s → Good s a → counted a = false → Near n (step s a))
    (hcloser : ∀ n s a, Near n s → Good s a → counted a = true →
      Reached s a ∨ ∃ m < n, Near m (step s a))
    {n : ℕ} (hs : Near n s) (h : Always step Good s actions) (hlong : n < actions.countP counted) :
    ∃ pre a post, actions = pre ++ a :: post ∧ counted a = true ∧
      Reached (pre.foldl step s) a := by
  induction actions generalizing s n with
  | nil => simp at hlong
  | cons a actions ih =>
      obtain ⟨ha, hactions⟩ := always_cons.mp h
      have hlater {m : ℕ} (hm : Near m (step s a)) (hlong : m < actions.countP counted) :
          ∃ pre b post, a :: actions = pre ++ b :: post ∧ counted b = true ∧
            Reached (pre.foldl step s) b := by
        obtain ⟨pre, b, post, rfl, hb, hreached⟩ := ih hm hactions hlong
        exact ⟨a :: pre, b, post, rfl, hb, hreached⟩
      cases hcounted : counted a with
      | false =>
          rw [List.countP_cons_of_neg (by simp [hcounted])] at hlong
          exact hlater (hkeeps n s a hs ha hcounted) hlong
      | true =>
          rw [List.countP_cons_of_pos hcounted] at hlong
          rcases hcloser n s a hs ha hcounted with hreached | ⟨m, hm, hnear⟩
          · exact ⟨[], a, actions, rfl, hcounted, hreached⟩
          · exact hlater hnear (by omega)

/-- An invariant that good actions keep makes them good in another sense. -/
theorem always_of_invariant (Inv : σ → Prop) (hstep : ∀ s a, Inv s → Good s a → Inv (step s a))
    (hgood : ∀ s a, Inv s → Good s a → Good' s a) (hs : Inv s) (h : Always step Good s actions) :
    Always step Good' s actions := by
  induction actions generalizing s with
  | nil => exact always_nil
  | cons a actions ih =>
      obtain ⟨ha, hactions⟩ := always_cons.mp h
      exact always_cons.mpr ⟨hgood s a hs ha, ih (hstep s a hs ha) hactions⟩

/-- A run of a system with more in its states and actions. -/
theorem always_map {τ β : Type*} {step' : τ → β → τ} (f : τ → σ) (g : β → α)
    (hstep : ∀ t b, f (step' t b) = step (f t) (g b)) {t : τ} {actions : List β} :
    Always step' (fun t b ↦ Good (f t) (g b)) t actions ↔
      Always step Good (f t) (actions.map g) := by
  induction actions generalizing t with
  | nil => exact iff_of_true always_nil always_nil
  | cons b actions ih => rw [List.map_cons, always_cons, always_cons, ih, hstep]

theorem invariant_of_step (Inv : σ → Prop) (hstep : ∀ s a, Inv s → Inv (step s a)) (hs : Inv s)
    (actions : List α) : Inv (actions.foldl step s) := by
  induction actions generalizing s with
  | nil => exact hs
  | cons a actions ih => exact ih (hstep s a hs)

theorem always_congr (Inv : σ → Prop) (hstep : ∀ s a, Inv s → Inv (step s a)) (hs : Inv s)
    (h : ∀ s a, Inv s → (Good s a ↔ Good' s a)) :
    Always step Good s actions ↔ Always step Good' s actions := by
  have hreached : ∀ pre : List α, Inv (pre.foldl step s) := invariant_of_step Inv hstep hs
  constructor
  · exact fun hgood pre a post heq ↦ (h _ a (hreached pre)).mp (hgood pre a post heq)
  · exact fun hgood pre a post heq ↦ (h _ a (hreached pre)).mpr (hgood pre a post heq)

/-- The rule for a property that is never regained: if good actions are
those that keep it, then it holds at the end exactly when all actions are
good. -/
theorem holds_iff (Holds Inv : σ → Prop) (hstep : ∀ s a, Inv s → Inv (step s a))
    (hgood : ∀ s a, Inv s → (Holds (step s a) ↔ Holds s ∧ Good s a)) (hs : Inv s)
    (hholds : Holds s) : Holds (actions.foldl step s) ↔ Always step Good s actions := by
  induction actions using List.reverseRecOn with
  | nil => exact iff_of_true hholds always_nil
  | append_singleton actions a ih =>
      rw [List.foldl_append, List.foldl_cons, List.foldl_nil, always_append_singleton, ← ih]
      exact hgood _ a (invariant_of_step Inv hstep hs actions)

/-- If from a state with the property the good actions are those that keep
it, then all states of a run have it exactly when all actions are good. -/
theorem always_step_iff (Holds : σ → Prop)
    (hgood : ∀ s a, Holds s → (Holds (step s a) ↔ Good s a)) (hholds : Holds s) :
    Always step (fun s a ↦ Holds (step s a)) s actions ↔ Always step Good s actions := by
  induction actions generalizing s with
  | nil => exact iff_of_true always_nil always_nil
  | cons a actions ih =>
      rw [always_cons, always_cons, hgood s a hholds]
      exact and_congr_right fun ha ↦ ih ((hgood s a hholds).mpr ha)

/-- The rule for properties of the trace: if in every state of the
invariant the events of an action have the property exactly when the action
is good, then the trace has it exactly when all actions are good.  Only good
actions need to keep the invariant. -/
theorem eachAt_trace_iff {trace : σ → List ε} {events : σ → α → List ε}
    {P : List ε → ε → Prop} (Inv : σ → Prop)
    (htrace : ∀ s a, trace (step s a) = trace s ++ events s a)
    (hstep : ∀ s a, Inv s → Good s a → Inv (step s a))
    (hevents : ∀ s a, Inv s → (EachAt (fun pre e ↦ P (trace s ++ pre) e) (events s a) ↔ Good s a))
    (hs : Inv s) (hempty : trace s = []) :
    EachAt P (trace (actions.foldl step s)) ↔ Always step Good s actions := by
  induction actions using List.reverseRecOn with
  | nil =>
      simp only [List.foldl_nil, hempty]
      exact iff_of_true eachAt_nil eachAt_nil
  | append_singleton actions a ih =>
      rw [List.foldl_append, List.foldl_cons, List.foldl_nil, htrace, eachAt_append,
        always_append_singleton, ih]
      exact and_congr_right fun hactions ↦ hevents _ a (invariant Inv hstep hs hactions)

/-! ## Simulation -/

section

variable {τ ο : Type*} {label : σ → α → ο} {Spec : τ → α → ο → τ → Prop} {R : σ → τ → Prop} {t : τ}

/-- The labels of a run. -/
def labels (step : σ → α → σ) (label : σ → α → ο) : σ → List α → List ο
  | _, [] => []
  | s, a :: actions => label s a :: labels step label (step s a) actions

/-- A specification can follow the run, related by `R` to every state. -/
def Simulated (step : σ → α → σ) (label : σ → α → ο) (Spec : τ → α → ο → τ → Prop)
    (R : σ → τ → Prop) : σ → τ → List α → Prop
  | s, t, [] => R s t
  | s, t, a :: actions =>
      R s t ∧ ∃ t', Spec t a (label s a) t' ∧ Simulated step label Spec R (step s a) t' actions

theorem Simulated.related (h : Simulated step label Spec R s t actions) : R s t := by
  cases actions with
  | nil => exact h
  | cons a actions => exact h.1

/-- The simulation rule: if the actions that a specification can follow from
related states are the good ones, it can follow the runs of good actions. -/
theorem simulated_iff
    (hgood : ∀ a ∈ actions, ∀ s t, R s t →
      (Good s a ↔ ∃ t', Spec t a (label s a) t' ∧ R (step s a) t')) (hR : R s t) :
    Simulated step label Spec R s t actions ↔ Always step Good s actions := by
  induction actions generalizing s t with
  | nil => exact iff_of_true hR always_nil
  | cons a actions ih =>
      obtain ⟨ha, hactions⟩ := List.forall_mem_cons.mp hgood
      rw [always_cons]
      constructor
      · rintro ⟨-, t', hspec, hsimulated⟩
        exact ⟨(ha s t hR).mpr ⟨t', hspec, hsimulated.related⟩,
          (ih hactions hsimulated.related).mp hsimulated⟩
      · rintro ⟨hstep, hrest⟩
        obtain ⟨t', hspec, hR'⟩ := (ha s t hR).mp hstep
        exact ⟨hR, t', hspec, (ih hactions hR').mpr hrest⟩

/-- Runs from states that no action tells apart have the same labels. -/
theorem labels_eq (R : σ → σ → Prop) {s' : σ}
    (hsame : ∀ a ∈ actions, ∀ s s', R s s' → label s a = label s' a ∧ R (step s a) (step s' a))
    (hR : R s s') : labels step label s actions = labels step label s' actions ∧
      R (actions.foldl step s) (actions.foldl step s') := by
  induction actions generalizing s s' with
  | nil => exact ⟨rfl, hR⟩
  | cons a actions ih =>
      obtain ⟨ha, hactions⟩ := List.forall_mem_cons.mp hsame
      obtain ⟨hlabel, hR'⟩ := ha s s' hR
      obtain ⟨hlabels, hend⟩ := ih hactions hR'
      exact ⟨by rw [labels, labels, hlabel, hlabels], hend⟩

end

/-- A run of a step that may fail: it is a function on the actions of a kind
and fails on all others. -/
theorem foldlM_eq_ok_iff {β ε : Type*} {f : β → α → Except ε β} {g : β → α → β} {P : α → Prop}
    (h : ∀ b a r, f b a = .ok r ↔ P a ∧ r = g b a) (l : List α) (b r : β) :
    l.foldlM f b = .ok r ↔ (∀ a ∈ l, P a) ∧ r = l.foldl g b := by
  induction l generalizing b with
  | nil => simp [pure, Except.pure, eq_comm]
  | cons a l ih =>
      rw [List.foldlM_cons, List.foldl_cons, List.forall_mem_cons, and_assoc]
      cases hf : f b a with
      | error e =>
          have hnot : ¬P a := by
            intro ha
            have hok := (h b a (g b a)).mpr ⟨ha, rfl⟩
            rw [hf] at hok
            exact absurd hok (by simp)
          simp [bind, Except.bind, hnot]
      | ok r' =>
          obtain ⟨ha, rfl⟩ := (h b a r').mp hf
          simp only [bind, Except.bind, ih, ha, true_and]

end Runs
