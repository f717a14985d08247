import Mathlib

/-!
# Capped collection of keyed answers

A collector reads a stream of items, keeps the first admissible item of
every key and leaves as soon as it holds `cap` of them.  An item whose
key is still unseen can also end the collection at once.  The main
result says, in terms of the stream alone, which answers are collected.
-/

namespace Collect

inductive Verdict (β : Type*) where
  | skip
  | stop
  | take (answer : β)

structure Rule (α β κ : Type*) where
  key : α → κ
  verdict : α → Verdict β
  keyOf : β → κ
  keyOf_take : ∀ {a : α} {b : β}, verdict a = .take b → keyOf b = key a

namespace Rule

variable {α β κ : Type*} [DecidableEq κ] (R : Rule α β κ) (cap : ℕ)

def collect : List β → List α → List β
  | acc, [] => acc
  | acc, a :: as =>
      if R.key a ∈ acc.map R.keyOf then collect acc as
      else match R.verdict a with
        | .skip => collect acc as
        | .stop => acc
        | .take b =>
            if acc.length + 1 = cap then acc ++ [b] else collect (acc ++ [b]) as

def takenKey (a : α) : Finset κ :=
  match R.verdict a with
  | .take _ => {R.key a}
  | _ => ∅

def takenKeys : List α → Finset κ
  | [] => ∅
  | a :: as => R.takenKey a ∪ takenKeys as

/-- Nothing in `pre` keeps a collector that already holds the keys `seen`
from reading on: each stopping item comes after an admissible one of its
own key, and fewer than `cap` keys have an admissible item. -/
def Passes (seen : Finset κ) (pre : List α) : Prop :=
  (∀ pre₁ a pre₂, pre = pre₁ ++ a :: pre₂ → R.verdict a = .stop →
    R.key a ∈ seen ∪ R.takenKeys pre₁) ∧
    (seen ∪ R.takenKeys pre).card < cap

@[simp] theorem collect_nil (acc : List β) : R.collect cap acc [] = acc := rfl

theorem collect_seen {acc : List β} {a : α} (as : List α)
    (h : R.key a ∈ acc.map R.keyOf) :
    R.collect cap acc (a :: as) = R.collect cap acc as := by
  rw [collect, if_pos h]

theorem collect_skip (acc : List β) {a : α} (as : List α) (h : R.verdict a = .skip) :
    R.collect cap acc (a :: as) = R.collect cap acc as := by
  by_cases hk : R.key a ∈ acc.map R.keyOf
  · exact R.collect_seen cap as hk
  · simp [collect, hk, h]

theorem collect_stop {acc : List β} {a : α} (as : List α)
    (hk : R.key a ∉ acc.map R.keyOf) (h : R.verdict a = .stop) :
    R.collect cap acc (a :: as) = acc := by
  simp [collect, hk, h]

theorem collect_take {acc : List β} {a : α} {b : β} (as : List α)
    (hk : R.key a ∉ acc.map R.keyOf) (h : R.verdict a = .take b) :
    R.collect cap acc (a :: as) =
      if acc.length + 1 = cap then acc ++ [b] else R.collect cap (acc ++ [b]) as := by
  simp [collect, hk, h]

omit [DecidableEq κ] in
theorem nodup_append_take {acc : List β} {a : α} {b : β}
    (hacc : (acc.map R.keyOf).Nodup) (hk : R.key a ∉ acc.map R.keyOf)
    (h : R.verdict a = .take b) : ((acc ++ [b]).map R.keyOf).Nodup := by
  rw [List.map_append, List.map_singleton, R.keyOf_take h]
  exact hacc.append (List.nodup_singleton _) (by simpa [List.disjoint_singleton] using hk)

/-- What taking an item of a new key keeps holds of the collected list. -/
theorem collect_induction {P : List β → Prop} (acc : List β) (as : List α) (hacc : P acc)
    (htake : ∀ (acc : List β) (a : α) (b : β), P acc → a ∈ as → R.key a ∉ acc.map R.keyOf →
      R.verdict a = .take b → P (acc ++ [b])) : P (R.collect cap acc as) := by
  induction as generalizing acc with
  | nil => exact hacc
  | cons a as ih =>
      have hrest : ∀ acc, P acc → P (R.collect cap acc as) := by
        intro acc hacc
        apply ih acc hacc
        intro acc x b hx hmem
        exact htake acc x b hx (List.mem_cons_of_mem a hmem)
      by_cases hk : R.key a ∈ acc.map R.keyOf
      · rw [R.collect_seen cap as hk]
        exact hrest acc hacc
      · cases hv : R.verdict a with
        | skip =>
            rw [R.collect_skip cap acc as hv]
            exact hrest acc hacc
        | stop => rwa [R.collect_stop cap as hk hv]
        | take b =>
            have hnext := htake acc a b hacc List.mem_cons_self hk hv
            rw [R.collect_take cap as hk hv]
            split
            · exact hnext
            · exact hrest _ hnext

theorem nodup_collect (acc : List β) (as : List α) (hacc : (acc.map R.keyOf).Nodup) :
    ((R.collect cap acc as).map R.keyOf).Nodup := by
  apply R.collect_induction cap (P := fun l ↦ (l.map R.keyOf).Nodup) acc as hacc
  intro acc a b hnodup _ hk hv
  exact R.nodup_append_take hnodup hk hv

theorem length_collect_le (acc : List β) (as : List α) (hacc : acc.length < cap) :
    (R.collect cap acc as).length ≤ cap := by
  induction as generalizing acc with
  | nil => exact hacc.le
  | cons a as ih =>
      by_cases hk : R.key a ∈ acc.map R.keyOf
      · rw [R.collect_seen cap as hk]
        exact ih acc hacc
      · cases hv : R.verdict a with
        | skip =>
            rw [R.collect_skip cap acc as hv]
            exact ih acc hacc
        | stop =>
            rw [R.collect_stop cap as hk hv]
            exact hacc.le
        | take b =>
            rw [R.collect_take cap as hk hv]
            split
            · simp
              omega
            · exact ih _ (by simp; omega)

theorem le_length_collect (acc : List β) (as : List α) :
    acc.length ≤ (R.collect cap acc as).length := by
  apply R.collect_induction cap (P := fun l ↦ acc.length ≤ l.length) acc as le_rfl
  intro acc' a b hle _ _ _
  rw [List.length_append]
  exact hle.trans (Nat.le_add_right _ _)

theorem mem_collect {acc : List β} {as : List α} {b : β} (h : b ∈ R.collect cap acc as) :
    b ∈ acc ∨ ∃ a ∈ as, R.verdict a = .take b := by
  have hall : ∀ b ∈ R.collect cap acc as, b ∈ acc ∨ ∃ a ∈ as, R.verdict a = .take b := by
    apply R.collect_induction cap
      (P := fun l ↦ ∀ b ∈ l, b ∈ acc ∨ ∃ a ∈ as, R.verdict a = .take b) acc as
    · exact fun b hb ↦ Or.inl hb
    · intro acc' a c hacc' ha _ hv b hb
      rcases List.mem_append.mp hb with hb | hb
      · exact hacc' b hb
      · rw [List.mem_singleton.mp hb]
        exact Or.inr ⟨a, ha, hv⟩
  exact hall b h

/-- Admissible items of new keys are all collected while there is room. -/
theorem collect_of_take (f : α → β) (acc : List β) (as : List α)
    (hv : ∀ a ∈ as, R.verdict a = .take (f a))
    (hnodup : (acc.map R.keyOf ++ as.map R.key).Nodup)
    (hlen : acc.length + as.length ≤ cap) :
    R.collect cap acc as = acc ++ as.map f := by
  induction as generalizing acc with
  | nil => simp
  | cons a as ih =>
      have hva := hv a List.mem_cons_self
      have hk : R.key a ∉ acc.map R.keyOf := by
        intro hmem
        exact (List.nodup_append.mp hnodup).2.2 _ hmem _ List.mem_cons_self rfl
      simp only [List.length_cons] at hlen
      rw [R.collect_take cap as hk hva]
      by_cases hfull : acc.length + 1 = cap
      · have hnil : as = [] := List.eq_nil_of_length_eq_zero (by omega)
        simp [hfull, hnil]
      · have hmap : (acc ++ [f a]).map R.keyOf = acc.map R.keyOf ++ [R.key a] := by
          rw [List.map_append, List.map_singleton, R.keyOf_take hva]
        rw [if_neg hfull, ih (acc ++ [f a]) (fun x hx ↦ hv x (List.mem_cons_of_mem a hx))]
        · simp
        · rw [hmap, List.append_assoc]
          exact hnodup
        · simp only [List.length_append, List.length_singleton]
          omega

/-! ## Which answers are collected -/

omit [DecidableEq κ] in
@[simp] theorem takenKey_take {a : α} {b : β} (h : R.verdict a = .take b) :
    R.takenKey a = {R.key a} := by
  simp [takenKey, h]

omit [DecidableEq κ] in
@[simp] theorem takenKey_skip {a : α} (h : R.verdict a = .skip) : R.takenKey a = ∅ := by
  simp [takenKey, h]

omit [DecidableEq κ] in
@[simp] theorem takenKey_stop {a : α} (h : R.verdict a = .stop) : R.takenKey a = ∅ := by
  simp [takenKey, h]

omit [DecidableEq κ] in
theorem takenKey_subset (a : α) : R.takenKey a ⊆ {R.key a} := by
  rw [takenKey]
  split <;> simp

theorem passes_cons {seen : Finset κ} {a : α} {pre : List α} :
    R.Passes cap seen (a :: pre) ↔
      (R.verdict a = .stop → R.key a ∈ seen) ∧ R.Passes cap (seen ∪ R.takenKey a) pre := by
  have hkeys : ∀ l, seen ∪ R.takenKeys (a :: l) = seen ∪ R.takenKey a ∪ R.takenKeys l := by
    intro l
    rw [takenKeys, Finset.union_assoc]
  constructor
  · rintro ⟨hstop, hcard⟩
    refine ⟨fun hv ↦ by simpa [takenKeys] using hstop [] a pre rfl hv, ?_, ?_⟩
    · intro pre₁ x pre₂ hpre hv
      rw [← hkeys]
      exact hstop (a :: pre₁) x pre₂ (by rw [hpre, List.cons_append]) hv
    · rwa [← hkeys]
  · rintro ⟨ha, hstop, hcard⟩
    refine ⟨?_, by rwa [hkeys]⟩
    intro pre₁ x pre₂ hpre hv
    cases pre₁ with
    | nil =>
        obtain ⟨rfl, -⟩ := List.cons.inj hpre
        simpa [takenKeys] using ha hv
    | cons y pre₁ =>
        obtain ⟨rfl, htail⟩ := List.cons.inj hpre
        rw [hkeys]
        exact hstop pre₁ x pre₂ htail hv

theorem passes_nil {seen : Finset κ} : R.Passes cap seen [] ↔ seen.card < cap := by
  simp [Passes, takenKeys]

/-- The stream holds `b` as the first admissible item of its key, and
everything before it lets the collector read on. -/
def Reaches (seen : Finset κ) (as : List α) (b : β) : Prop :=
  ∃ pre a post, as = pre ++ a :: post ∧ R.verdict a = .take b ∧
    R.key a ∉ seen ∪ R.takenKeys pre ∧ R.Passes cap seen pre

theorem not_reaches_nil {seen : Finset κ} {b : β} : ¬ R.Reaches cap seen [] b := by
  rintro ⟨pre, a, post, h, -⟩
  simp at h

theorem reaches_cons {seen : Finset κ} {a : α} {as : List α} {b : β} :
    R.Reaches cap seen (a :: as) b ↔
      (R.verdict a = .take b ∧ R.key a ∉ seen ∧ seen.card < cap) ∨
        ((R.verdict a = .stop → R.key a ∈ seen) ∧
          R.Reaches cap (seen ∪ R.takenKey a) as b) := by
  constructor
  · rintro ⟨pre, x, post, has, hv, hk, hpass⟩
    cases pre with
    | nil =>
        obtain ⟨rfl, -⟩ := List.cons.inj has
        exact Or.inl ⟨hv, by simpa [takenKeys] using hk, (R.passes_nil cap).mp hpass⟩
    | cons y pre =>
        obtain ⟨rfl, htail⟩ := List.cons.inj has
        obtain ⟨hstop, hpass⟩ := (R.passes_cons cap).mp hpass
        refine Or.inr ⟨hstop, pre, x, post, htail, hv, ?_, hpass⟩
        simpa [takenKeys, Finset.union_assoc] using hk
  · rintro (⟨hv, hk, hcard⟩ | ⟨hstop, pre, x, post, has, hv, hk, hpass⟩)
    · exact ⟨[], a, as, rfl, hv, by simpa [takenKeys] using hk, (R.passes_nil cap).mpr hcard⟩
    · refine ⟨a :: pre, x, post, by rw [has, List.cons_append], hv, ?_,
        (R.passes_cons cap).mpr ⟨hstop, hpass⟩⟩
      simpa [takenKeys, Finset.union_assoc] using hk

theorem not_reaches_of_full {seen : Finset κ} {as : List α} {b : β} (h : cap ≤ seen.card) :
    ¬ R.Reaches cap seen as b := by
  rintro ⟨pre, a, post, -, -, -, -, hcard⟩
  have hle : seen.card ≤ (seen ∪ R.takenKeys pre).card :=
    Finset.card_le_card Finset.subset_union_left
  omega

def keys (acc : List β) : Finset κ := (acc.map R.keyOf).toFinset

theorem card_keys {acc : List β} (hacc : (acc.map R.keyOf).Nodup) :
    (R.keys acc).card = acc.length := by
  rw [keys, List.toFinset_card_of_nodup hacc, List.length_map]

theorem keys_append_take {acc : List β} {a : α} {b : β} (h : R.verdict a = .take b) :
    R.keys (acc ++ [b]) = R.keys acc ∪ R.takenKey a := by
  simp [keys, R.keyOf_take h, R.takenKey_take h]

/-- A collector returns exactly what it already held and what the stream
makes it reach. -/
theorem mem_collect_iff_from (acc : List β) (as : List α) (b : β)
    (hacc : (acc.map R.keyOf).Nodup) (hlen : acc.length < cap) :
    b ∈ R.collect cap acc as ↔ b ∈ acc ∨ R.Reaches cap (R.keys acc) as b := by
  induction as generalizing acc with
  | nil => simp [R.not_reaches_nil cap]
  | cons a as ih =>
      have hcard : (R.keys acc).card < cap := by rwa [R.card_keys hacc]
      have hseen : R.key a ∈ R.keys acc ↔ R.key a ∈ acc.map R.keyOf := by simp [keys]
      rw [R.reaches_cons cap, hseen]
      by_cases hk : R.key a ∈ acc.map R.keyOf
      · have hsub : R.keys acc ∪ R.takenKey a = R.keys acc := by
          refine Finset.union_eq_left.mpr ((R.takenKey_subset a).trans ?_)
          simpa using hseen.mpr hk
        rw [R.collect_seen cap as hk, ih acc hacc hlen, hsub]
        simp [hk]
      · cases hv : R.verdict a with
        | skip => simp [R.collect_skip cap acc as hv, ih acc hacc hlen, R.takenKey_skip hv]
        | stop => simp [R.collect_stop cap as hk hv, hk]
        | take c =>
            have hnodup := R.nodup_append_take hacc hk hv
            have hkeys : R.keys (acc ++ [c]) = R.keys acc ∪ R.takenKey a := R.keys_append_take hv
            rw [R.collect_take cap as hk hv, ← hkeys]
            by_cases hfull : acc.length + 1 = cap
            · have hnone : ¬ R.Reaches cap (R.keys (acc ++ [c])) as b := by
                apply R.not_reaches_of_full cap
                rw [R.card_keys hnodup]
                simp [hfull]
              simp [hfull, hnone, hk, hcard, eq_comm]
            · rw [if_neg hfull, ih (acc ++ [c]) hnodup (by simp; omega)]
              simp [hk, hcard, or_assoc, eq_comm]

theorem mem_collect_iff (as : List α) (b : β) (hcap : 0 < cap) :
    b ∈ R.collect cap [] as ↔ R.Reaches cap ∅ as b := by
  simpa [keys] using R.mem_collect_iff_from cap [] as b (by simp) (by simpa using hcap)

theorem mem_takenKeys {as : List α} {k : κ} :
    k ∈ R.takenKeys as ↔ ∃ a ∈ as, (∃ b, R.verdict a = .take b) ∧ R.key a = k := by
  induction as with
  | nil => simp [takenKeys]
  | cons a as ih =>
      have hself : k ∈ R.takenKey a ↔ (∃ b, R.verdict a = .take b) ∧ R.key a = k := by
        cases hv : R.verdict a with
        | skip => simp [R.takenKey_skip hv]
        | stop => simp [R.takenKey_stop hv]
        | take b => simp [R.takenKey_take hv, eq_comm]
      rw [takenKeys, Finset.mem_union, hself, ih, List.exists_mem_cons_iff]

/-- If nothing stops the collector and the cap is not exceeded, it holds
every admissible key in the end. -/
theorem keys_collect (acc : List β) (as : List α) (hacc : (acc.map R.keyOf).Nodup)
    (hlen : acc.length < cap) (hstop : ∀ a ∈ as, R.verdict a ≠ .stop)
    (hfew : (R.keys acc ∪ R.takenKeys as).card ≤ cap) :
    R.keys (R.collect cap acc as) = R.keys acc ∪ R.takenKeys as := by
  induction as generalizing acc with
  | nil => simp [takenKeys]
  | cons a as ih =>
      obtain ⟨ha, has⟩ := List.forall_mem_cons.mp hstop
      rw [takenKeys, ← Finset.union_assoc] at hfew ⊢
      by_cases hk : R.key a ∈ acc.map R.keyOf
      · have hsub : R.keys acc ∪ R.takenKey a = R.keys acc := by
          refine Finset.union_eq_left.mpr ((R.takenKey_subset a).trans ?_)
          simpa [keys] using hk
        rw [hsub] at hfew ⊢
        rw [R.collect_seen cap as hk]
        exact ih acc hacc hlen has hfew
      · cases hv : R.verdict a with
        | skip =>
            rw [R.takenKey_skip hv, Finset.union_empty] at hfew ⊢
            rw [R.collect_skip cap acc as hv]
            exact ih acc hacc hlen has hfew
        | stop => exact absurd hv ha
        | take b =>
            have hnodup := R.nodup_append_take hacc hk hv
            rw [← R.keys_append_take hv] at hfew ⊢
            rw [R.collect_take cap as hk hv]
            split_ifs with hfull
            · have hcard : (R.keys (acc ++ [b])).card = cap := by
                rw [R.card_keys hnodup, List.length_append, List.length_singleton, hfull]
              exact Finset.eq_of_subset_of_card_le Finset.subset_union_left (by omega)
            · exact ih (acc ++ [b]) hnodup (by simp; omega) has hfew

end Rule

end Collect
