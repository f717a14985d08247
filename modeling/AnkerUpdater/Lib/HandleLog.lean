import AnkerUpdater.Lib.EventLog

/-!
# Logs of handles

A resource is used through handles.  A log records which handles were opened,
used and closed; an operation can also be given no handle at all.  The log is
disciplined if every handle is opened once, used while it is live, and closed
while it is live.
-/

namespace HandleLog

open EventLog

inductive Event (η κ : Type*) where
  | opened (h : η)
  | used (op : κ) (h : Option η)
  | closed (h : Option η)
  deriving DecidableEq

variable {η κ : Type*} {log : List (Event η κ)} {e : Event η κ} {h h' : η}

/-- The handle is open after the log. -/
def Live (log : List (Event η κ)) (h : η) : Prop := .opened h ∈ log ∧ .closed (some h) ∉ log

/-- What a disciplined user may do after the log. -/
def Allowed (log : List (Event η κ)) : Event η κ → Prop
  | .opened h => .opened h ∉ log ∧ .closed (some h) ∉ log
  | .used _ h | .closed h => ∃ h', h = some h' ∧ Live log h'

def Disciplined (log : List (Event η κ)) : Prop := EachAt Allowed log

theorem disciplined_nil : Disciplined ([] : List (Event η κ)) := eachAt_nil

theorem disciplined_append : Disciplined (log ++ [e]) ↔ Disciplined log ∧ Allowed log e :=
  eachAt_append_singleton

theorem live_append_opened (hne : .closed (some h) ∉ log) : Live (log ++ [.opened h]) h := by
  simp [Live, hne]

theorem live_append_used (op : κ) (h' : Option η) : Live (log ++ [.used op h']) h ↔ Live log h := by
  simp [Live]

theorem not_live_append_closed : ¬Live (log ++ [.closed (some h)]) h := by
  simp [Live]

/-! ## What discipline means for one handle -/

/-- A handle is closed at most once. -/
theorem Disciplined.closed_once [DecidableEq η] [DecidableEq κ] (hlog : Disciplined log) (h : η) :
    log.count (.closed (some h)) ≤ 1 := by
  induction log using List.reverseRecOn with
  | nil => simp
  | append_singleton log e ih =>
      obtain ⟨hpre, hlast⟩ := disciplined_append.mp hlog
      by_cases heq : e = .closed (some h)
      · subst heq
        obtain ⟨h', hsome, hlive⟩ := hlast
        obtain rfl := Option.some.inj hsome
        rw [List.count_append, List.count_eq_zero_of_not_mem hlive.2]
        simp
      · rw [List.count_append, List.count_singleton]
        simpa [heq] using ih hpre

/-! ## Numbered handles -/

theorem live_append_closed : Live (log ++ [.closed (some h')]) h ↔ Live log h ∧ h ≠ h' := by
  simp [Live, and_assoc]

section

variable {log : List (Event ℕ κ)} {n h : ℕ}

/-- The handles are numbered in the order of their opening, the next one is `n`. -/
structure Numbered (log : List (Event ℕ κ)) (n : ℕ) : Prop where
  opened : ∀ h, .opened h ∈ log → h < n
  closed : ∀ h, .closed (some h) ∈ log → h < n

theorem numbered_nil : Numbered ([] : List (Event ℕ κ)) 0 := ⟨by simp, by simp⟩

theorem Numbered.allowed_opened (hlog : Numbered log n) : Allowed log (.opened n) :=
  ⟨fun hmem ↦ (hlog.opened n hmem).false, fun hmem ↦ (hlog.closed n hmem).false⟩

theorem Numbered.append_opened (hlog : Numbered log n) :
    Numbered (log ++ [.opened n]) (n + 1) := by
  refine ⟨fun h hmem ↦ ?_, fun h hmem ↦ ?_⟩
  · rcases List.mem_append.mp hmem with hmem | hmem
    · exact Nat.lt_succ_of_lt (hlog.opened h hmem)
    · obtain rfl : h = n := by simpa using hmem
      exact Nat.lt_succ_self _
  · have hmem : .closed (some h) ∈ log := by simpa using hmem
    exact Nat.lt_succ_of_lt (hlog.closed h hmem)

theorem Numbered.append_used (hlog : Numbered log n) (op : κ) (used : Option ℕ) :
    Numbered (log ++ [.used op used]) n :=
  ⟨fun h hmem ↦ hlog.opened h (by simpa using hmem),
    fun h hmem ↦ hlog.closed h (by simpa using hmem)⟩

theorem Numbered.append_closed (hlog : Numbered log n) (hh : h < n) :
    Numbered (log ++ [.closed (some h)]) n := by
  refine ⟨fun h' hmem ↦ hlog.opened h' (by simpa using hmem), fun h' hmem ↦ ?_⟩
  rcases List.mem_append.mp hmem with hmem | hmem
  · exact hlog.closed h' hmem
  · obtain rfl : h' = h := by simpa using hmem
    exact hh

theorem Numbered.live_append_opened (hlog : Numbered log n) :
    Live (log ++ [.opened n]) h ↔ Live log h ∨ h = n := by
  constructor
  · rintro ⟨hopened, hclosed⟩
    rcases List.mem_append.mp hopened with hopened | hopened
    · exact .inl ⟨hopened, fun hmem ↦ hclosed (List.mem_append_left _ hmem)⟩
    · exact .inr (by simpa using hopened)
  · rintro (⟨hopened, hclosed⟩ | rfl)
    · exact ⟨List.mem_append_left _ hopened, by simpa using hclosed⟩
    · exact HandleLog.live_append_opened fun hmem ↦ (hlog.closed h hmem).false

end

/-! ## Ledgers -/

/-- A log with numbered handles; `next` is the number of the next one. -/
structure Ledger (κ : Type*) where
  next : ℕ
  log : List (Event ℕ κ)

namespace Ledger

variable {v : Ledger κ} {live : Set ℕ} {h : ℕ}

def init : Ledger κ := ⟨0, []⟩

def opens (v : Ledger κ) : Ledger κ := ⟨v.next + 1, v.log ++ [.opened v.next]⟩

def uses (v : Ledger κ) (op : κ) (h : ℕ) : Ledger κ :=
  { v with log := v.log ++ [.used op (some h)] }

def closes (v : Ledger κ) (h : ℕ) : Ledger κ := { v with log := v.log ++ [.closed (some h)] }

/-- The log is disciplined, and the handles of `live` are those it leaves open. -/
structure Holds (v : Ledger κ) (live : Set ℕ) : Prop where
  numbered : Numbered v.log v.next
  disciplined : Disciplined v.log
  live_iff : ∀ h, Live v.log h ↔ h ∈ live

theorem holds_init : (init : Ledger κ).Holds ∅ :=
  ⟨numbered_nil, disciplined_nil, fun h ↦ by simp [init, Live]⟩

theorem Holds.lt_next (hv : v.Holds live) (hh : h ∈ live) : h < v.next :=
  hv.numbered.opened h ((hv.live_iff h).mpr hh).1

theorem Holds.next_notMem (hv : v.Holds live) : v.next ∉ live :=
  fun hmem ↦ (hv.lt_next hmem).false

theorem Holds.opens (hv : v.Holds live) : v.opens.Holds (insert v.next live) where
  numbered := hv.numbered.append_opened
  disciplined := disciplined_append.mpr ⟨hv.disciplined, hv.numbered.allowed_opened⟩
  live_iff h := by
    rw [Ledger.opens, hv.numbered.live_append_opened, hv.live_iff, Set.mem_insert_iff, or_comm]

theorem Holds.uses (hv : v.Holds live) (hh : h ∈ live) (op : κ) : (v.uses op h).Holds live where
  numbered := hv.numbered.append_used op (some h)
  disciplined := disciplined_append.mpr ⟨hv.disciplined, h, rfl, (hv.live_iff h).mpr hh⟩
  live_iff h' := by rw [Ledger.uses, live_append_used, hv.live_iff]

theorem Holds.closes (hv : v.Holds live) (hh : h ∈ live) : (v.closes h).Holds (live \ {h}) where
  numbered := hv.numbered.append_closed (hv.lt_next hh)
  disciplined := disciplined_append.mpr ⟨hv.disciplined, h, rfl, (hv.live_iff h).mpr hh⟩
  live_iff h' := by
    rw [Ledger.closes, live_append_closed, hv.live_iff, Set.mem_sdiff, Set.mem_singleton_iff]

/-- Closing what is not open is a fault. -/
theorem not_disciplined_closes (hh : ¬Live v.log h) : ¬Disciplined (v.closes h).log := by
  intro hdisciplined
  obtain ⟨h', hsome, hlive⟩ := (disciplined_append.mp hdisciplined).2
  exact hh (Option.some.inj hsome ▸ hlive)

/-- A handle that is opened, then used and closed leaves things as they were. -/
theorem Holds.bracket {w : Ledger κ} (hv : v.Holds live) (hw : w.Holds (insert v.next live)) :
    (w.closes v.next).Holds live := by
  have hclosed := hw.closes (Set.mem_insert v.next live)
  rwa [Set.insert_sdiff_self_of_notMem hv.next_notMem] at hclosed

/-- Of two handles the one opened first may be closed first. -/
theorem Holds.closes_first {h' : ℕ} (hv : v.Holds (insert h' (insert h live)))
    (hh : h ∉ insert h' live) : (v.closes h).Holds (insert h' live) := by
  rw [Set.insert_comm] at hv
  have hclosed := hv.closes (Set.mem_insert h _)
  rwa [Set.insert_sdiff_self_of_notMem hh] at hclosed

end Ledger

end HandleLog
