import Mathlib

/-!
# Text in C

Zero-terminated strings in arrays of a fixed size, and the conversions of
`atoi` and of `sscanf` with `%hhu`.  A number that does not fit is converted
as `strtol` and `strtoul` do with a `long` of 32 bits.
-/

namespace CText

/-- A string without its terminating zero. -/
abbrev CString := { bytes : List UInt8 // 0 ∉ bytes }

/-! ## Strings in arrays -/

/-- The characters before the first zero, or all. -/
def text {n : ℕ} (v : Vector UInt8 n) : List UInt8 := v.toList.takeWhile (· ≠ 0)

/-- What `strncpy` makes of an array of `n` characters. -/
def strncpy (n : ℕ) (s : CString) : Vector UInt8 n where
  toArray := (s.1.take n ++ List.replicate (n - s.1.length) 0).toArray
  size_toArray := by
    simp only [List.size_toArray, List.length_append, List.length_take, List.length_replicate]
    omega

/-- `memcpy` of `n` characters of a string, if it has so many with its zero. -/
def memcpy (n : ℕ) (s : CString) : Option (Vector UInt8 n) :=
  if h : n ≤ s.1.length + 1 then
    some ⟨((s.1 ++ [0]).take n).toArray, by simp [h]⟩
  else none

section

variable {n : ℕ} {s : CString} {v : Vector UInt8 n}

theorem toList_strncpy (n : ℕ) (s : CString) :
    (strncpy n s).toList = s.1.take n ++ List.replicate (n - s.1.length) 0 := rfl

theorem takeWhile_ne_zero {bytes : List UInt8} (h : 0 ∉ bytes) (k : ℕ) :
    (bytes ++ List.replicate k 0).takeWhile (· ≠ 0) = bytes := by
  have hall : ∀ b ∈ bytes, decide (b ≠ 0) = true := by
    intro b hb
    exact decide_eq_true fun hzero ↦ h (hzero ▸ hb)
  rw [List.takeWhile_append_of_pos hall]
  cases k <;> simp [List.replicate_succ]

theorem text_strncpy (n : ℕ) (s : CString) : text (strncpy n s) = s.1.take n := by
  rw [text, toList_strncpy]
  exact takeWhile_ne_zero (fun h ↦ s.2 (List.mem_of_mem_take h)) _

theorem isSome_memcpy_iff : (memcpy n s).isSome ↔ n ≤ s.1.length + 1 := by
  rw [memcpy]
  split_ifs with h <;> simp [h]

theorem toList_memcpy (h : memcpy n s = some v) : v.toList = (s.1 ++ [0]).take n := by
  rw [memcpy] at h
  split_ifs at h with hn
  obtain rfl := Option.some.inj h
  rfl

theorem text_memcpy (h : memcpy n s = some v) (hn : s.1.length ≤ n) : text v = s.1 := by
  rw [text, toList_memcpy h, List.take_append, List.take_of_length_le hn]
  have hzero : ([0] : List UInt8).take (n - s.1.length) =
      List.replicate (min (n - s.1.length) 1) 0 := by
    rw [← List.take_replicate]
    rfl
  rw [hzero]
  exact takeWhile_ne_zero s.2 _

end

/-! ## Numbers -/

def isSpace (c : UInt8) : Bool := c = 0x20 || (0x09 ≤ c && c ≤ 0x0D)

def isDigit (c : UInt8) : Bool := 0x30 ≤ c && c ≤ 0x39

def decimalValue (digits : List UInt8) : ℕ :=
  digits.foldl (fun v c ↦ 10 * v + (c.toNat - 0x30)) 0

/-- The number at the front of a text, and what follows it. -/
def decimalField (s : List UInt8) : Option (ℕ × List UInt8) :=
  if s.takeWhile isDigit = [] then none
  else some (decimalValue (s.takeWhile isDigit), s.dropWhile isDigit)

/-- The sign that a number may have, and whether it is a minus. -/
def signOf : List UInt8 → Bool × List UInt8
  | 0x2B :: rest => (false, rest)
  | 0x2D :: rest => (true, rest)
  | s => (false, s)

/-- A number after white space and with a sign. -/
def signedField (s : List UInt8) : Option (Bool × ℕ × List UInt8) :=
  let (minus, rest) := signOf (s.dropWhile isSpace)
  (decimalField rest).map fun (v, rest) ↦ (minus, v, rest)

/-- `strtoul` with a `long` of 32 bits. -/
def strtoul (minus : Bool) (v : ℕ) : ℕ :=
  if 2 ^ 32 ≤ v then 2 ^ 32 - 1 else if minus then (2 ^ 32 - v) % 2 ^ 32 else v

/-- `atoi`, with the `long` of `strtol` -/
def atoi (s : List UInt8) : ℤ :=
  match signedField s with
  | none => 0
  | some (minus, v, _) => if minus then max (-v) (-2 ^ 31) else min v (2 ^ 31 - 1)

/-- The conversion `%hhu` of `sscanf`. -/
def scanByte (s : List UInt8) : Option (ℕ × List UInt8) :=
  (signedField s).map fun (minus, v, rest) ↦ (strtoul minus v % 2 ^ 8, rest)

/-- `n` fields with colons between them, up to the first that is missing. -/
def colonFields {α : Type*} (field : List UInt8 → Option (α × List UInt8)) :
    ℕ → List UInt8 → List α
  | 0, _ => []
  | n + 1, s =>
      match field s with
      | none => []
      | some (v, rest) =>
          v :: if rest.head? = some 0x3A then colonFields field n rest.tail else []

theorem isSpace_of_isDigit {c : UInt8} (h : isDigit c) : isSpace c = false := by
  have hlow : 0x30 ≤ c.toNat := by
    have hle := (Bool.and_eq_true_iff.mp h).1
    simpa [UInt8.le_iff_toNat_le] using hle
  have hspace : ¬c.toNat ≤ 0x0D := by omega
  have hne : c ≠ 0x20 := by
    rintro rfl
    simp at hlow
  simp [isSpace, hne, UInt8.le_iff_toNat_le, hspace]

/-- Digits at the front are read by `%hhu` too. -/
theorem scanByte_of_decimalField {s rest : List UInt8} {v : ℕ}
    (h : decimalField s = some (v, rest)) : scanByte s = some (strtoul false v % 2 ^ 8, rest) := by
  cases s with
  | nil => simp [decimalField] at h
  | cons c s =>
      have hdigit : isDigit c := by
        by_contra hnot
        simp [decimalField, hnot] at h
      have hspace := isSpace_of_isDigit hdigit
      have hsign : signOf (c :: s) = (false, c :: s) := by
        unfold signOf
        split
        · rename_i heq
          obtain ⟨rfl, -⟩ := List.cons.inj heq
          simp [isDigit] at hdigit
        · rename_i heq
          obtain ⟨rfl, -⟩ := List.cons.inj heq
          simp [isDigit] at hdigit
        · rfl
      simp [scanByte, signedField, hspace, hsign, h]

theorem scanByte_lt {s rest : List UInt8} {v : ℕ} (h : scanByte s = some (v, rest)) : v < 256 := by
  rw [scanByte] at h
  obtain ⟨⟨minus, v', rest'⟩, -, heq⟩ := Option.map_eq_some_iff.mp h
  obtain ⟨rfl, -⟩ := Prod.mk.inj heq
  exact Nat.mod_lt _ (by decide)

section

variable {α β : Type*} {field : List UInt8 → Option (α × List UInt8)}
  {field' : List UInt8 → Option (β × List UInt8)}

theorem length_colonFields_le (n : ℕ) (s : List UInt8) : (colonFields field n s).length ≤ n := by
  induction n generalizing s with
  | zero => exact le_rfl
  | succ n ih =>
      cases hs : field s with
      | none => simp [colonFields, hs]
      | some found =>
          simp only [colonFields, hs, List.length_cons]
          split_ifs
          · exact Nat.succ_le_succ (ih _)
          · simp

theorem exists_of_mem_colonFields {n : ℕ} {s : List UInt8} {v : α}
    (h : v ∈ colonFields field n s) : ∃ s' rest, field s' = some (v, rest) := by
  induction n generalizing s with
  | zero => exact absurd h List.not_mem_nil
  | succ n ih =>
      cases hs : field s with
      | none => simp [colonFields, hs] at h
      | some found =>
          simp only [colonFields, hs, List.mem_cons] at h
          rcases h with rfl | h
          · exact ⟨s, found.2, hs⟩
          · split_ifs at h
            · exact ih h
            · exact absurd h List.not_mem_nil

/-- A reader that reads what another one reads, converted, gets its fields. -/
theorem colonFields_eq_map (f : α → β)
    (hfield : ∀ s v rest, field s = some (v, rest) → field' s = some (f v, rest)) {n : ℕ}
    {s : List UInt8} (h : (colonFields field n s).length = n) :
    colonFields field' n s = (colonFields field n s).map f := by
  induction n generalizing s with
  | zero => rfl
  | succ n ih =>
      cases hs : field s with
      | none => simp [colonFields, hs] at h
      | some found =>
          obtain ⟨v, rest⟩ := found
          simp only [colonFields, hs, hfield s v rest hs, List.length_cons,
            Nat.add_right_cancel_iff, List.map_cons] at h ⊢
          split_ifs at h ⊢
          · rw [ih h]
          · rfl

end

end CText
