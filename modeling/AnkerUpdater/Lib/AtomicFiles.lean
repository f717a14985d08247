import Mathlib

/-!
# Files that are replaced through scratch files

A file system is a partial function from paths to contents.  A path in
`names` is what others see; steps that only touch scratch paths are hidden
from them, and a list of hidden steps followed by one visible step takes
effect at once or not at all.
-/

namespace AtomicFiles

variable {ν β : Type*}

/-- No name is the scratch path of a name. -/
def Separate (scratch : ν → ν) (names : Set ν) : Prop :=
  ∀ a ∈ names, ∀ b ∈ names, a ≠ scratch b

theorem Separate.scratch_notMem {scratch : ν → ν} {names : Set ν} {name : ν}
    (h : Separate scratch names) (hname : name ∈ names) : scratch name ∉ names :=
  fun hmem ↦ h (scratch name) hmem name hname rfl

abbrev Files (ν β : Type*) := ν → Option β

/-- What one operation does to the file system. -/
inductive Step (ν β : Type*) where
  | put (path : ν) (content : Option β)
  | move (source target : ν)

variable [DecidableEq ν]

namespace Step

def apply : Step ν β → Files ν β → Files ν β
  | put path content, fs => Function.update fs path content
  | move source target, fs => Function.update (Function.update fs source none) target (fs source)

def isMove : Step ν β → Bool
  | put _ _ => false
  | move _ _ => true

/-- The step cannot be seen at `names`. -/
def Hidden (names : Set ν) (s : Step ν β) : Prop := ∀ fs, Set.EqOn (s.apply fs) fs names

end Step

def applySteps (steps : List (Step ν β)) (fs : Files ν β) : Files ν β :=
  steps.foldl (fun fs s ↦ s.apply fs) fs

variable {fs fs' : Files ν β} {names : Set ν} {steps : List (Step ν β)} {scratch : ν → ν}
  {name : ν} {content : Option β}

theorem applySteps_append (steps more : List (Step ν β)) (fs : Files ν β) :
    applySteps (steps ++ more) fs = applySteps more (applySteps steps fs) :=
  List.foldl_append

@[simp] theorem applySteps_nil (fs : Files ν β) : applySteps [] fs = fs := rfl

@[simp] theorem applySteps_cons (s : Step ν β) (steps : List (Step ν β)) (fs : Files ν β) :
    applySteps (s :: steps) fs = applySteps steps (s.apply fs) := rfl

theorem eqOn_update (h : Set.EqOn fs fs' names) (name : ν) (content : Option β) :
    Set.EqOn (Function.update fs name content) (Function.update fs' name content) names := by
  intro a ha
  by_cases heq : a = name
  · subst heq
    rw [Function.update_self, Function.update_self]
  · rw [Function.update_of_ne heq, Function.update_of_ne heq]
    exact h ha

/-! ## Hidden steps -/

theorem hidden_put (h : name ∉ names) (content : Option β) :
    (Step.put name content).Hidden names := by
  intro fs a ha
  have hne : a ≠ name := by
    rintro rfl
    exact h ha
  exact Function.update_of_ne hne content fs

theorem eqOn_applySteps (h : ∀ s ∈ steps, s.Hidden names) (fs : Files ν β) :
    Set.EqOn (applySteps steps fs) fs names := by
  induction steps generalizing fs with
  | nil => exact Set.eqOn_refl fs names
  | cons s steps ih =>
      obtain ⟨hs, hsteps⟩ := List.forall_mem_cons.mp h
      exact (ih hsteps (s.apply fs)).trans (hs fs)

/-- Steps other than moves keep what looks the same. -/
theorem eqOn_applySteps_congr (h : ∀ s ∈ steps, ∃ path content, s = .put path content)
    (hfs : Set.EqOn fs fs' names) :
    Set.EqOn (applySteps steps fs) (applySteps steps fs') names := by
  induction steps generalizing fs fs' with
  | nil => exact hfs
  | cons s steps ih =>
      obtain ⟨⟨path, content, rfl⟩, hsteps⟩ := List.forall_mem_cons.mp h
      exact ih hsteps (eqOn_update hfs path content)

/-! ## One visible step -/

/-- Moving the scratch file over the name stores what it holds. -/
theorem eqOn_move (h : Separate scratch names) (hname : name ∈ names) (fs : Files ν β) :
    Set.EqOn ((Step.move (scratch name) name).apply fs)
      (Function.update fs name (fs (scratch name))) names :=
  eqOn_update (hidden_put (h.scratch_notMem hname) none fs) name _

/-- A list of steps cut anywhere shows nothing, or all of it. -/
theorem eqOn_take (h : ∀ s ∈ steps, s.Hidden names) (last : Step ν β) (k : ℕ) (fs : Files ν β) :
    if k ≤ steps.length then Set.EqOn (applySteps ((steps ++ [last]).take k) fs) fs names
    else applySteps ((steps ++ [last]).take k) fs = last.apply (applySteps steps fs) := by
  split_ifs with hk
  · rw [List.take_append_of_le_length hk]
    exact eqOn_applySteps (fun s hs ↦ h s (List.mem_of_mem_take hs)) fs
  · rw [List.take_of_length_le (by simp; omega), applySteps_append]
    rfl

end AtomicFiles
