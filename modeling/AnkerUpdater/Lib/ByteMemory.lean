import Mathlib

/-!
# Memory and the layout of structs

A memory gives every address a cell.  `load` reads and `store` writes
consecutive cells, `copy` moves the first cells of one memory over those of
another.  The members of a struct lie in order, each at the next multiple of
its alignment.
-/

namespace ByteMemory

abbrev Memory (β : Type*) := ℕ → β

variable {β : Type*} {mem mem' : Memory β} {start offset n : ℕ} {cells : List β}

def load (mem : Memory β) (offset n : ℕ) : List β := (List.range n).map fun i ↦ mem (offset + i)

def store (mem : Memory β) (offset : ℕ) (cells : List β) : Memory β := fun a ↦
  if offset ≤ a then cells.getD (a - offset) (mem a) else mem a

/-- `memcpy` of the first `n` cells. -/
def copy (n : ℕ) (source target : Memory β) : Memory β := fun a ↦
  if a < n then source a else target a

@[simp] theorem length_load : (load mem offset n).length = n := by simp [load]

@[simp] theorem load_zero : load mem offset 0 = [] := rfl

theorem load_congr (h : ∀ a, offset ≤ a → a < offset + n → mem a = mem' a) :
    load mem offset n = load mem' offset n := by
  refine List.map_congr_left fun i hi ↦ h _ (Nat.le_add_right _ _) ?_
  have := List.mem_range.mp hi
  omega

theorem take_load {m : ℕ} : (load mem offset n).take m = load mem offset (min m n) := by
  rw [load, ← List.map_take, List.take_range, load]

theorem load_add (m : ℕ) : load mem offset (n + m) = load mem offset n ++ load mem (offset + n) m := by
  simp only [load, List.range_add, List.map_append, List.map_map]
  refine congrArg _ (List.map_congr_left fun i _ ↦ ?_)
  simp [Nat.add_assoc]

theorem store_of_lt {a : ℕ} (h : a < offset) : store mem offset cells a = mem a := by
  rw [store, if_neg (by omega)]

theorem store_of_le {a : ℕ} (h : offset + cells.length ≤ a) : store mem offset cells a = mem a := by
  rw [store, if_pos (by omega), List.getD_eq_default _ _ (by omega)]

theorem store_add {i : ℕ} (hi : i < cells.length) : store mem offset cells (offset + i) = cells[i] := by
  rw [store, if_pos (Nat.le_add_right _ _), Nat.add_sub_cancel_left, List.getD_eq_getElem _ _ hi]

/-- What is stored can be read back, whatever was there before. -/
theorem load_store (h : cells.length = n) : load (store mem offset cells) offset n = cells := by
  subst h
  refine List.ext_getElem length_load fun i hi _ ↦ ?_
  simp only [load, List.getElem_map, List.getElem_range]
  exact store_add (by simpa using hi)

@[simp] theorem store_load : store mem offset (load mem offset n) = mem := by
  funext a
  rcases lt_or_ge a offset with ha | ha
  · exact store_of_lt ha
  · obtain ⟨i, rfl⟩ := Nat.exists_eq_add_of_le ha
    by_cases hi : i < (load mem offset n).length
    · rw [store_add hi]
      simp [load]
    · exact store_of_le (by omega)

theorem store_append {more : List β} : store mem offset (cells ++ more) =
    store (store mem offset cells) (offset + cells.length) more := by
  funext a
  rcases lt_or_ge a (offset + cells.length) with ha | ha
  · rw [store_of_lt ha]
    rcases lt_or_ge a offset with ha' | ha'
    · rw [store_of_lt ha', store_of_lt ha']
    · rw [store, store, if_pos ha', if_pos ha', List.getD_append _ _ _ _ (by omega)]
  · rw [store, store, if_pos ha, if_pos (by omega), List.getD_append_right _ _ _ _ (by omega),
      store_of_le ha, Nat.sub_add_eq]

/-- Cells written one after the other. -/
theorem foldl_store_range (v : ℕ → β) :
    (List.range n).foldl (fun mem i ↦ store mem i [v i]) mem = store mem 0 ((List.range n).map v) := by
  induction n with
  | zero => exact (store_load (n := 0)).symm
  | succ n ih =>
      rw [List.range_succ, List.foldl_append, ih, List.map_append, List.map_singleton, store_append]
      simp

theorem load_store_of_disjoint (h : start + n ≤ offset ∨ offset + cells.length ≤ start) :
    load (store mem offset cells) start n = load mem start n := by
  apply load_congr
  intro a hle hlt
  rcases h with h | h
  · exact store_of_lt (by omega)
  · exact store_of_le (by omega)

theorem copy_of_lt {a : ℕ} (h : a < n) : copy n mem mem' a = mem a := if_pos h

/-- Two memories with the same prefix stored over them agree on it. -/
theorem store_eq_of_lt {a : ℕ} (h : a < cells.length) : store mem 0 cells a = store mem' 0 cells a := by
  have hleft : store mem 0 cells (0 + a) = cells[a] := store_add h
  have hright : store mem' 0 cells (0 + a) = cells[a] := store_add h
  rw [Nat.zero_add] at hleft hright
  rw [hleft, hright]

/-- Cells that begin like another memory, stored over any memory. -/
theorem store_eq_of_take {k a : ℕ} (h : cells.take k = load mem' 0 k) (ha : a < k) :
    store mem 0 cells a = mem' a := by
  have hget : (cells.take k)[a]? = some (mem' a) := by
    rw [h]
    simp [load, ha]
  obtain ⟨hlt, heq⟩ := List.getElem?_eq_some_iff.mp hget
  rw [List.length_take] at hlt
  have hstore : store mem 0 cells (0 + a) = cells[a] := store_add (by omega)
  rw [Nat.zero_add] at hstore
  rw [hstore, ← heq, List.getElem_take]

/-! ## Layout of structs -/

structure Member where
  size : ℕ
  align : ℕ

def alignUp (offset align : ℕ) : ℕ := (offset + align - 1) / align * align

/-- The offsets of the members from `offset` on, and the end of the last. -/
def place : ℕ → List Member → List ℕ × ℕ
  | offset, [] => ([], offset)
  | offset, m :: ms =>
      let here := alignUp offset m.align
      let rest := place (here + m.size) ms
      (here :: rest.1, rest.2)

def offsets (members : List Member) : List ℕ := (place 0 members).1

/-- The size of the struct, with its trailing padding. -/
def sizeof (members : List Member) : ℕ :=
  alignUp (place 0 members).2 ((members.map Member.align).foldr max 1)

end ByteMemory
