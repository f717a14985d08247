import AnkerUpdater.Protocol.Sockets

/-!
# When a P-Anker loses its sockets

Along the runs of poll mode a task closes a socket a second time, or ends
without closing its sockets, in one situation each.
-/

namespace AnkerUpdater

open HandleLog Runs

/-- The task is in a stop that it called itself, or behind it. -/
def PollPhase.Bound (phase : PollPhase) : Prop := phase = .stopping ∨ phase = .connecting

namespace PollMode

variable {Gone Gone' : ℕ → Prop} {s s' s'' : PollMode} {c : StopCall}

def calls (s : PollMode) : List StopCall := s.waits ++ s.woken

def serving (s : PollMode) : List ℕ := s.staying.map Prod.fst

/-- What a step does to the tasks, none of which it sends to `exit`, and of
which it deletes those of `Gone`. -/
structure Keeps (Gone : ℕ → Prop) (s s' : PollMode) : Prop where
  nextId : s'.nextId = s.nextId
  alive : s'.alive.Sublist s.alive
  stays : ∀ id ∈ s.serving, id ∈ s'.serving ↔ ¬Gone id
  tasks : ∀ t' ∈ s'.tasks, ∃ t ∈ s.tasks, t.id = t'.id ∧ t.kind = t'.kind ∧
    (t'.phase = .setup ↔ t.phase = .setup) ∧ (t'.phase = .leaving ↔ t.phase = .leaving) ∧
    (t.phase.Bound → t'.phase.Bound)
  calls : ∀ c ∈ s'.calls, c ∈ s.calls ∨ ∀ id, c.caller = .udpTask id → id ∈ s.alive ∧
    ∀ t' ∈ s'.tasks, t'.id = id → t'.phase.Bound

/-- The UDP task that called, if one did, has not gone on. -/
def Started (s : PollMode) (c : StopCall) : Prop :=
  ∀ id, c.caller = .udpTask id → ∀ t ∈ s.tasks, t.id = id → t.phase.Bound

theorem mem_serving {id : ℕ} :
    id ∈ s.serving ↔ ∃ t ∈ s.tasks, t.phase ≠ .leaving ∧ t.id = id := by
  simp only [serving, List.mem_map, mem_staying]
  constructor
  · rintro ⟨l, ⟨t, ht, hphase, rfl⟩, rfl⟩
    exact ⟨t, ht, hphase, rfl⟩
  · rintro ⟨t, ht, hphase, rfl⟩
    exact ⟨_, ⟨t, ht, hphase, rfl⟩, rfl⟩

theorem alive_of_serving {id : ℕ} (hid : id ∈ s.serving) : id ∈ s.alive := by
  obtain ⟨t, ht, -, rfl⟩ := mem_serving.mp hid
  exact List.mem_map_of_mem ht

theorem Keeps.serving (h : Keeps Gone s s') : s'.serving ⊆ s.serving := by
  intro id hid
  obtain ⟨t', ht', hphase', rfl⟩ := mem_serving.mp hid
  obtain ⟨t, ht, hid, -, -, hleaving, -⟩ := h.tasks t' ht'
  exact mem_serving.mpr ⟨t, ht, fun hphase ↦ hphase' (hleaving.mpr hphase), hid⟩

theorem Keeps.started (h : Keeps Gone s s') (hc : s.Started c) : s'.Started c := by
  intro id hid t' ht' heq
  obtain ⟨t, ht, hsame, -, -, -, hbound⟩ := h.tasks t' ht'
  exact hbound (hc id hid t ht (hsame.trans heq))

theorem Keeps.then (h : Keeps Gone s s') (h' : Keeps Gone' s' s'') :
    Keeps (fun id ↦ Gone id ∨ Gone' id) s s'' where
  nextId := h'.nextId.trans h.nextId
  alive := h'.alive.trans h.alive
  stays id hid := by
    by_cases hgone : Gone id
    · have hnot : id ∉ s'.serving := fun hid' ↦ (h.stays id hid).mp hid' hgone
      exact iff_of_false (fun hid'' ↦ hnot (h'.serving hid'')) (by simp [hgone])
    · rw [h'.stays id ((h.stays id hid).mpr hgone)]
      simp [hgone]
  tasks t'' ht'' := by
    obtain ⟨t', ht', hid', hkind', hsetup', hleaving', hbound'⟩ := h'.tasks t'' ht''
    obtain ⟨t, ht, hid, hkind, hsetup, hleaving, hbound⟩ := h.tasks t' ht'
    exact ⟨t, ht, hid.trans hid', hkind.trans hkind', hsetup'.trans hsetup,
      hleaving'.trans hleaving, hbound' ∘ hbound⟩
  calls c hc := by
    rcases h'.calls c hc with hc | hc
    · rcases h.calls c hc with hc | hc
      · exact .inl hc
      · refine .inr fun id hid ↦ ⟨(hc id hid).1, fun t'' ht'' heq ↦ ?_⟩
        obtain ⟨t', ht', hid', -, -, -, hbound'⟩ := h'.tasks t'' ht''
        exact hbound' ((hc id hid).2 t' ht' (hid'.trans heq))
    · exact .inr fun id hid ↦ ⟨h.alive.subset (hc id hid).1, (hc id hid).2⟩

theorem Keeps.congr (h : Keeps Gone s s') (hgone : ∀ id, Gone id ↔ Gone' id) :
    Keeps Gone' s s' :=
  ⟨h.nextId, h.alive, fun id hid ↦ (h.stays id hid).trans (not_congr (hgone id)), h.tasks, h.calls⟩

theorem Keeps.trans (h : Keeps Gone s s') (h' : Keeps (fun _ ↦ False) s' s'') :
    Keeps Gone s s'' :=
  (h.then h').congr fun _ ↦ iff_of_eq (or_false _)

theorem keeps_of_tasks (htasks : s'.tasks = s.tasks) (hnext : s'.nextId = s.nextId)
    (hcalls : ∀ c ∈ s'.calls, c ∈ s.calls) : Keeps (fun _ ↦ False) s s' where
  nextId := hnext
  alive := by rw [alive, alive, htasks]
  stays id hid := iff_of_true (by rwa [PollMode.serving, staying, htasks]) not_false
  tasks t ht := ⟨t, htasks ▸ ht, rfl, rfl, Iff.rfl, Iff.rfl, fun hb ↦ hb⟩
  calls c hc := .inl (hcalls c hc)

theorem alive_setPhase (s : PollMode) (id : ℕ) (phase : PollPhase) :
    (s.setPhase id phase).alive = s.alive := by
  rw [alive_eq, listeners_setPhase, ← alive_eq]

/-- A task goes on that is neither at its beginning nor at its end. -/
theorem keeps_setPhase {id : ℕ} {phase : PollPhase} (hsetup : phase ≠ .setup)
    (hleaving : phase ≠ .leaving)
    (hid : ∀ t ∈ s.tasks, t.id = id → t.phase ≠ .setup ∧ t.phase ≠ .leaving ∧
      (t.phase.Bound → phase.Bound)) :
    Keeps (fun _ ↦ False) s (s.setPhase id phase) := by
  have htasks : ∀ t' ∈ (s.setPhase id phase).tasks, ∃ t ∈ s.tasks, t.id = t'.id ∧
      t.kind = t'.kind ∧ (t'.phase = .setup ↔ t.phase = .setup) ∧
      (t'.phase = .leaving ↔ t.phase = .leaving) ∧
      (t.phase.Bound → t'.phase.Bound) := by
    intro t' ht'
    obtain ⟨t, ht, rfl⟩ := List.mem_map.mp ht'
    refine ⟨t, ht, ?_⟩
    split_ifs with heq
    · obtain ⟨hsetup', hleaving', hbound⟩ := hid t ht heq
      exact ⟨rfl, rfl, iff_of_false hsetup hsetup', iff_of_false hleaving hleaving', hbound⟩
    · exact ⟨rfl, rfl, Iff.rfl, Iff.rfl, fun hb ↦ hb⟩
  refine ⟨rfl, by rw [alive_setPhase], ?_, htasks, fun c hc ↦ .inl hc⟩
  intro id' hid'
  refine iff_of_true ?_ not_false
  obtain ⟨t, ht, hphase, rfl⟩ := mem_serving.mp hid'
  refine mem_serving.mpr ⟨_, List.mem_map_of_mem ht, ?_⟩
  split_ifs
  · exact ⟨hleaving, rfl⟩
  · exact ⟨hphase, rfl⟩

theorem keeps_delete (id : ℕ) : Keeps (· = id) s (s.delete id) where
  nextId := rfl
  alive := List.filter_sublist.map _
  stays id' hid' := by
    obtain ⟨t, ht, hphase, rfl⟩ := mem_serving.mp hid'
    constructor
    · intro hmem heq
      obtain ⟨t', ht', -, hsame⟩ := mem_serving.mp hmem
      have hne := (List.mem_filter.mp ht').2
      simp [hsame, heq] at hne
    · intro hne
      exact mem_serving.mpr ⟨t, List.mem_filter.mpr ⟨ht, by simpa using hne⟩, hphase, rfl⟩
  tasks t ht := ⟨t, List.mem_of_mem_filter ht, rfl, rfl, Iff.rfl, Iff.rfl, fun hb ↦ hb⟩
  calls c hc := .inl hc

theorem keeps_returned (ok : Bool) (c : StopCall) :
    Keeps (fun _ ↦ False) s { s with returns := s.returns ++ [⟨ok, c.before, s.alive⟩] } :=
  keeps_of_tasks rfl rfl fun _ hc ↦ hc

theorem keeps_stopReturns_true (hc : s.Started c) :
    Keeps (fun _ ↦ False) s (s.stopReturns true c) := by
  have hreturned := keeps_returned (s := s) true c
  rw [stopReturns]
  cases hcaller : c.caller with
  | updaterStop => exact hreturned
  | connectTask => exact hreturned
  | udpTask id =>
      refine hreturned.trans (keeps_setPhase (by simp) (by simp) fun t ht heq ↦ ?_)
      have hbound := hreturned.started hc id hcaller t ht heq
      refine ⟨?_, ?_, fun _ ↦ .inr rfl⟩
      · rcases hbound with hphase | hphase <;> simp [hphase]
      · rcases hbound with hphase | hphase <;> simp [hphase]

/-- A stop that fails ends the UDP task that called it. -/
theorem keeps_stopReturns_false (s : PollMode) (c : StopCall) :
    Keeps (fun id ↦ c.caller = .udpTask id) s (s.stopReturns false c) := by
  have hreturned := keeps_returned (s := s) false c
  rw [stopReturns]
  cases hcaller : c.caller with
  | updaterStop => exact hreturned.congr fun id ↦ by simp
  | connectTask => exact hreturned.congr fun id ↦ by simp
  | udpTask id =>
      refine (hreturned.then (keeps_delete id)).congr fun id' ↦ ?_
      rw [false_or, StopCaller.udpTask.injEq]
      exact eq_comm

theorem keeps_stopPAnkerPollMode {caller : StopCaller}
    (h : ∀ id, caller = .udpTask id → ∀ t ∈ s.tasks, t.id = id → t.phase.Bound)
    (hmem : ∀ id, caller = .udpTask id → id ∈ s.alive) :
    Keeps (fun _ ↦ False) s (s.stopPAnkerPollMode caller) := by
  simp only [stopPAnkerPollMode]
  split_ifs
  · have hsame : Keeps (fun _ ↦ False) s { s with stopped := .none, running := .none } :=
      keeps_of_tasks rfl rfl fun _ hc ↦ hc
    refine ⟨rfl, hsame.alive, hsame.stays, hsame.tasks, fun c hc ↦ ?_⟩
    simp only [calls, List.mem_append, List.mem_singleton] at hc ⊢
    rcases hc with (hc | rfl) | hc
    · exact .inl (.inl hc)
    · exact .inr fun id hid ↦ ⟨hmem id hid, h id hid⟩
    · exact .inl (.inr hc)
  · exact keeps_stopReturns_true h

/-- A pass of a loop. -/
theorem keeps_body {t : PollTask} (hself : ∀ t' ∈ s.tasks, t'.id = t.id → t' = t)
    (hphase : t.phase = .body) (ht : t ∈ s.tasks) (r : Result) :
    Keeps (fun _ ↦ False) s (s.taskStep t r) := by
  simp only [taskStep, hphase]
  have hset (phase : PollPhase) (hsetup : phase ≠ .setup) (hleaving : phase ≠ .leaving) :
      Keeps (fun _ ↦ False) s (s.setPhase t.id phase) := by
    refine keeps_setPhase hsetup hleaving fun t' ht' hid ↦ ?_
    rw [hself t' ht' hid, hphase]
    exact ⟨by simp, by simp, by simp [PollPhase.Bound]⟩
  split_ifs
  · exact (hset .test (by simp) (by simp)).trans (keeps_of_tasks rfl rfl fun _ hc ↦ hc)
  · refine (hset .stopping (by simp) (by simp)).trans (keeps_stopPAnkerPollMode ?_ ?_)
    · rintro id ⟨⟩ t' ht' hid
      obtain ⟨t₀, ht₀, rfl⟩ := List.mem_map.mp ht'
      by_cases hsame : t₀.id = t.id
      · rw [if_pos hsame]
        exact .inl rfl
      · rw [if_neg hsame] at hid
        exact absurd hid hsame
    · rintro id ⟨⟩
      rw [alive_setPhase]
      exact List.mem_map_of_mem ht
  · exact hset .test (by simp) (by simp)

/-- A wait that expires with no bit set ends the UDP task that waits. -/
theorem keeps_expire (h : ∀ c ∈ s.calls, s.Started c) (j : ℕ) :
    Keeps (fun id ↦ ∃ c, s.waits[j]? = some c ∧ c.caller = .udpTask id ∧
      (s.stopped.udp || s.stopped.tcp) = false) s (s.expire j) := by
  rw [expire]
  cases hwait : s.waits[j]? with
  | none => exact (keeps_of_tasks rfl rfl fun _ hc ↦ hc).congr fun id ↦ by simp
  | some c =>
      have herase : Keeps (fun _ ↦ False) s { s with waits := s.waits.eraseIdx j } :=
        keeps_of_tasks rfl rfl (List.append_subset.mpr
          ⟨List.subset_append_of_subset_left _ List.eraseIdx_subset,
            List.subset_append_right _ _⟩)
      cases hbits : (s.stopped.udp || s.stopped.tcp) with
      | true =>
          have hmem := List.mem_append_left s.woken (List.mem_of_getElem? hwait)
          have hstarted := herase.started (h c hmem)
          exact (herase.trans (keeps_stopReturns_true hstarted)).congr fun id ↦ by simp
      | false =>
          refine (herase.then (keeps_stopReturns_false _ c)).congr fun id ↦ ?_
          simp

theorem keeps_wake (h : ∀ c ∈ s.calls, s.Started c) (j : ℕ) :
    Keeps (fun _ ↦ False) s (s.wake j) := by
  rw [wake]
  cases hwoken : s.woken[j]? with
  | none => exact keeps_of_tasks rfl rfl fun _ hc ↦ hc
  | some c =>
      have herase : Keeps (fun _ ↦ False) s { s with woken := s.woken.eraseIdx j } :=
        keeps_of_tasks rfl rfl (List.append_subset.mpr ⟨List.subset_append_left _ _,
          List.subset_append_of_subset_right _ List.eraseIdx_subset⟩)
      have hmem := List.mem_append_right s.waits (List.mem_of_getElem? hwoken)
      exact herase.trans (keeps_stopReturns_true (herase.started (h c hmem)))

theorem calls_setBits (kind : PollKind) : (s.setBits kind).calls ⊆ s.calls := by
  intro c hc
  simp only [calls, setBits, List.mem_append, List.mem_filter] at hc ⊢
  tauto

end PollMode

namespace SocketState

variable {s : SocketState} {t : PollTask}

/-! ## The invariant -/

structure TaskOk (t : PollTask) (v : TaskSockets) : Prop where
  fresh : t.phase = .setup → v = .init
  ready : t.phase ≠ .setup → t.phase ≠ .leaving → TaskSockets.Ready t.kind v
  left : t.phase = .leaving → ∀ sock, ¬Live v.log sock

structure Inv (s : SocketState) : Prop where
  ids : s.poll.alive.Nodup
  fresh : ∀ id ∈ s.poll.alive, id < s.poll.nextId
  untouched : ∀ id, s.poll.nextId ≤ id → s.sockets id = .init
  started : ∀ c ∈ s.poll.calls, s.poll.Started c
  callers : ∀ c ∈ s.poll.calls, ∀ id, c.caller = .udpTask id → id < s.poll.nextId
  tasks : ∀ t ∈ s.poll.tasks, TaskOk t (s.sockets t.id)

theorem inv_powerOn : powerOn.Inv where
  ids := List.nodup_nil
  fresh := by simp [powerOn, PollMode.powerOn, PollMode.alive]
  untouched _ _ := rfl
  started := by simp [powerOn, PollMode.powerOn, PollMode.calls]
  callers := by simp [powerOn, PollMode.powerOn, PollMode.calls]
  tasks := by simp [powerOn, PollMode.powerOn]

theorem Inv.unique (h : s.Inv) {t' : PollTask} (ht : t ∈ s.poll.tasks) (ht' : t' ∈ s.poll.tasks)
    (hid : t.id = t'.id) : t = t' :=
  List.inj_on_of_nodup_map h.ids ht ht' hid

theorem mem_alive (ht : t ∈ s.poll.tasks) : t.id ∈ s.poll.alive := List.mem_map_of_mem ht

/-- Steps that keep the tasks, and change the sockets of one of them at most. -/
theorem Inv.keeps {Gone : ℕ → Prop} {poll : PollMode} {sockets : ℕ → TaskSockets} (h : s.Inv)
    (hkeeps : PollMode.Keeps Gone s.poll poll)
    (hsockets : ∀ t ∈ s.poll.tasks, t.id ∈ poll.alive → TaskOk t (sockets t.id))
    (hdead : ∀ id, id ∉ s.poll.alive → sockets id = s.sockets id) : Inv ⟨poll, sockets⟩ where
  ids := h.ids.sublist hkeeps.alive
  fresh id hid := by
    change id < poll.nextId
    rw [hkeeps.nextId]
    exact h.fresh id (hkeeps.alive.subset hid)
  untouched id hid := by
    change poll.nextId ≤ id at hid
    rw [hkeeps.nextId] at hid
    refine (hdead id fun hmem ↦ ?_).trans (h.untouched id hid)
    exact absurd (h.fresh id hmem) (not_lt.mpr hid)
  started c hc := by
    rcases hkeeps.calls c hc with hc | hc
    · exact hkeeps.started (h.started c hc)
    · exact fun id hid ↦ (hc id hid).2
  callers c hc id hid := by
    change id < poll.nextId
    rw [hkeeps.nextId]
    rcases hkeeps.calls c hc with hc | hc
    · exact h.callers c hc id hid
    · exact h.fresh id (hc id hid).1
  tasks t' ht' := by
    obtain ⟨t, ht, hid, hkind, hsetup, hleaving, -⟩ := hkeeps.tasks t' ht'
    have hok := hsockets t ht (hid ▸ List.mem_map_of_mem ht')
    rw [hid] at hok
    exact ⟨fun hphase ↦ hok.fresh (hsetup.mp hphase),
      fun hphase hstays ↦ hkind ▸ hok.ready (fun hs ↦ hphase (hsetup.mpr hs))
        fun hl ↦ hstays (hleaving.mpr hl),
      fun hphase ↦ hok.left (hleaving.mp hphase)⟩

/-- A task goes on from its setup or its loop condition. -/
theorem Inv.advance (h : s.Inv) {poll : PollMode} {phase : PollPhase} {v : TaskSockets}
    (ht : t ∈ s.poll.tasks) (hbound : ¬t.phase.Bound)
    (htasks : poll.tasks = (s.poll.setPhase t.id phase).tasks)
    (hnext : poll.nextId = s.poll.nextId) (hcalls : poll.calls ⊆ s.poll.calls)
    (hv : TaskOk { t with phase := phase } v) : Inv ⟨poll, Function.update s.sockets t.id v⟩ := by
  have halive : poll.alive = s.poll.alive := by
    rw [PollMode.alive, htasks, ← PollMode.alive, PollMode.alive_setPhase]
  have hmem : ∀ t' ∈ poll.tasks,
      t' = { t with phase := phase } ∨ (t'.id ≠ t.id ∧ t' ∈ s.poll.tasks) := by
    rw [htasks]
    intro t' ht'
    obtain ⟨t₀, ht₀, rfl⟩ := List.mem_map.mp ht'
    by_cases hid : t₀.id = t.id
    · obtain rfl := h.unique ht₀ ht hid
      simp
    · rw [if_neg hid]
      exact .inr ⟨hid, ht₀⟩
  refine ⟨halive ▸ h.ids, ?_, ?_, ?_, ?_, ?_⟩
  · intro id hid
    change id < poll.nextId
    rw [hnext]
    exact h.fresh id (halive ▸ hid)
  · intro id hid
    change poll.nextId ≤ id at hid
    rw [hnext] at hid
    refine (Function.update_of_ne ?_ v s.sockets).trans (h.untouched id hid)
    rintro rfl
    exact absurd (h.fresh t.id (mem_alive ht)) (not_lt.mpr hid)
  · intro c hc id hid t' ht' heq
    rcases hmem t' ht' with rfl | ⟨-, ht'⟩
    · exact absurd (h.started c (hcalls hc) id hid t ht heq) hbound
    · exact h.started c (hcalls hc) id hid t' ht' heq
  · intro c hc id hid
    change id < poll.nextId
    rw [hnext]
    exact h.callers c (hcalls hc) id hid
  · intro t' ht'
    change TaskOk t' (Function.update s.sockets t.id v t'.id)
    rcases hmem t' ht' with rfl | ⟨hne, ht'⟩
    · rw [Function.update_self]
      exact hv
    · rw [Function.update_of_ne hne]
      exact h.tasks t' ht'

/-! ## One step of a task -/

/-- What the step of a task comes to. -/
inductive Outcome (s : SocketState) (t : PollTask) : SocketState → Prop where
  | setupFailed (v : TaskSockets) (hphase : t.phase = .setup) (hv : v.Closed) :
      Outcome s t ⟨s.poll.exit t, Function.update s.sockets t.id v⟩
  | setupDone (v : TaskSockets) (hphase : t.phase = .setup) (hv : TaskSockets.Ready t.kind v) :
      Outcome s t ⟨{ s.poll.setPhase t.id .test with running := s.poll.running.set t.kind },
        Function.update s.sockets t.id v⟩
  | ends (hphase : t.phase = .test) (hflag : s.poll.running.get t.kind = false) :
      Outcome s t ⟨s.poll.exit t, Function.update s.sockets t.id (s.sockets t.id).exit⟩
  | continues (poll : PollMode) (v : TaskSockets) (hsetup : t.phase ≠ .setup)
      (hleaving : t.phase ≠ .leaving) (hconnecting : t.phase ≠ .connecting)
      (hflag : t.phase = .test → s.poll.running.get t.kind = true)
      (hv : TaskSockets.Ready t.kind v) (hkeeps : PollMode.Keeps (fun _ ↦ False) s.poll poll) :
      Outcome s t ⟨poll, Function.update s.sockets t.id v⟩
  | deleted (poll : PollMode) (hphase : t.phase = .connecting ∨ t.phase = .leaving)
      (hkeeps : PollMode.Keeps (· = t.id) s.poll poll) : Outcome s t ⟨poll, s.sockets⟩

theorem Inv.outcome (h : s.Inv) {id : ℕ} (E : SocketEnv)
    (hfind : s.poll.tasks.find? (fun t ↦ t.id = id) = some t) :
    t.id = id ∧ t ∈ s.poll.tasks ∧ Outcome s t (s.step (.task id E)) := by
  have ht := List.mem_of_find?_eq_some hfind
  obtain rfl : t.id = id := by simpa using List.find?_some hfind
  refine ⟨rfl, ht, ?_⟩
  have hok := h.tasks t ht
  have hself : ∀ t' ∈ s.poll.tasks, t'.id = t.id → t' = t := fun t' ht' hid ↦ h.unique ht' ht hid
  have hstep : s.step (.task t.id E) = ⟨s.poll.taskStep t (result t E),
      Function.update s.sockets t.id (s.after t E)⟩ := by
    simp only [step, hfind, PollMode.step]
  rw [hstep]
  have hdeleted (hends : t.phase = .connecting ∨ t.phase = .leaving) :
      Outcome s t ⟨s.poll.taskStep t (result t E),
        Function.update s.sockets t.id (s.after t E)⟩ := by
    have hpoll : s.poll.taskStep t (result t E) = s.poll.delete t.id := by
      rcases hends with hphase | hphase <;> simp [PollMode.taskStep, hphase]
    have hafter : s.after t E = s.sockets t.id := by
      rcases hends with hphase | hphase <;> simp [after, hphase]
    rw [hpoll, hafter, Function.update_eq_self]
    exact .deleted _ hends (PollMode.keeps_delete t.id)
  cases hphase : t.phase with
  | setup =>
      obtain ⟨hfailed, hready⟩ := TaskSockets.ready_setup t.kind E.succeed
      by_cases hlt : E.succeed < (TaskSockets.setupCalls t.kind).length
      · have hpoll : s.poll.taskStep t (result t E) = s.poll.exit t := by
          simp [PollMode.taskStep, result, hphase, hlt]
        rw [hpoll]
        refine .setupFailed _ hphase ?_
        simpa [after, hphase, hok.fresh hphase] using hfailed hlt
      · have hpoll : s.poll.taskStep t (result t E) =
            { s.poll.setPhase t.id .test with running := s.poll.running.set t.kind } := by
          simp [PollMode.taskStep, result, hphase, hlt]
        rw [hpoll]
        refine .setupDone _ hphase ?_
        simpa [after, hphase, hok.fresh hphase] using hready (not_lt.mp hlt)
  | test =>
      cases hflag : s.poll.running.get t.kind with
      | false =>
          have hpoll : s.poll.taskStep t (result t E) = s.poll.exit t := by
            simp [PollMode.taskStep, hphase, hflag]
          have hafter : s.after t E = (s.sockets t.id).exit := by simp [after, hphase, hflag]
          rw [hpoll, hafter]
          exact .ends hphase hflag
      | true =>
          have hpoll : s.poll.taskStep t (result t E) = s.poll.setPhase t.id .body := by
            simp [PollMode.taskStep, hphase, hflag]
          have hafter : s.after t E = s.sockets t.id := by simp [after, hphase, hflag]
          have hready := hok.ready (by simp [hphase]) (by simp [hphase])
          rw [hpoll, hafter]
          refine .continues _ _ (by simp [hphase]) (by simp [hphase]) (by simp [hphase])
            (fun _ ↦ hflag) hready ?_
          refine PollMode.keeps_setPhase (by simp) (by simp) fun t' ht' hid ↦ ?_
          rw [hself t' ht' hid, hphase]
          exact ⟨by simp, by simp, by simp [PollPhase.Bound]⟩
  | body =>
      have hready := hok.ready (by simp [hphase]) (by simp [hphase])
      refine .continues _ _ (by simp [hphase]) (by simp [hphase]) (by simp [hphase])
        (by simp [hphase]) ?_ ?_
      · cases hkind : t.kind with
        | udp =>
            rw [hkind] at hready
            simpa [after, hphase, hkind] using hready.udpBody E.numAcks
        | tcp =>
            rw [hkind] at hready
            simpa [after, hphase, hkind] using hready.tcpBody E.accepted E.numAcks
      · exact PollMode.keeps_body hself hphase ht (result t E)
  | stopping =>
      have hpoll : s.poll.taskStep t (result t E) = s.poll := by simp [PollMode.taskStep, hphase]
      have hafter : s.after t E = s.sockets t.id := by simp [after, hphase]
      have hready := hok.ready (by simp [hphase]) (by simp [hphase])
      rw [hpoll, hafter]
      exact .continues _ _ (by simp [hphase]) (by simp [hphase]) (by simp [hphase])
        (by simp [hphase]) hready (PollMode.keeps_of_tasks rfl rfl fun _ hc ↦ hc)
  | connecting => exact hdeleted (.inl hphase)
  | leaving => exact hdeleted (.inr hphase)

theorem Inv.exit (h : s.Inv) {v : TaskSockets} (ht : t ∈ s.poll.tasks) (hbound : ¬t.phase.Bound)
    (hv : ∀ sock, ¬Live v.log sock) :
    Inv ⟨s.poll.exit t, Function.update s.sockets t.id v⟩ :=
  h.advance ht hbound rfl rfl (PollMode.calls_setBits t.kind)
    ⟨by simp, fun _ hstays ↦ absurd rfl hstays, fun _ ↦ hv⟩

theorem Inv.ofOutcome {s' : SocketState} (h : s.Inv) (ht : t ∈ s.poll.tasks)
    (hout : Outcome s t s') : s'.Inv := by
  cases hout with
  | setupFailed v hphase hv => exact h.exit ht (by simp [hphase, PollPhase.Bound]) hv.none
  | setupDone v hphase hv =>
      exact h.advance ht (by simp [hphase, PollPhase.Bound]) rfl rfl (List.Subset.refl _)
        ⟨by simp, fun _ _ ↦ hv, by simp⟩
  | ends hphase hflag =>
      have hready := (h.tasks t ht).ready (by simp [hphase]) (by simp [hphase])
      exact h.exit ht (by simp [hphase, PollPhase.Bound]) hready.sound.exit.1
  | continues poll v hsetup hleaving hconnecting hflag hv hkeeps =>
      refine h.keeps hkeeps (fun t' ht' _ ↦ ?_) fun id hid ↦ ?_
      · by_cases hid : t'.id = t.id
        · obtain rfl := h.unique ht' ht hid
          rw [Function.update_self]
          exact ⟨fun hphase ↦ absurd hphase hsetup, fun _ _ ↦ hv,
            fun hphase ↦ absurd hphase hleaving⟩
        · rw [Function.update_of_ne hid]
          exact h.tasks t' ht'
      · refine Function.update_of_ne ?_ v s.sockets
        rintro rfl
        exact hid (mem_alive ht)
  | deleted poll hphase hkeeps => exact h.keeps hkeeps (fun t' ht' _ ↦ h.tasks t' ht') fun _ _ ↦ rfl

theorem Inv.start (h : s.Inv) (kind : PollKind) : (s.step (.start kind)).Inv := by
  simp only [step, PollMode.step, PollMode.startTask]
  split_ifs
  · exact ⟨h.ids, h.fresh, h.untouched, h.started, h.callers, h.tasks⟩
  · have hnew : ∀ id ∈ s.poll.alive, id ≠ s.poll.nextId := fun id hid ↦ (h.fresh id hid).ne
    refine ⟨?_, ?_, ?_, ?_, ?_, ?_⟩
    · simpa [PollMode.alive, List.nodup_append] using ⟨h.ids, by simpa [PollMode.alive] using hnew⟩
    · intro id hid
      simp only [PollMode.alive, List.map_append, List.mem_append, List.map_cons, List.map_nil,
        List.mem_singleton] at hid
      rcases hid with hid | rfl
      · exact (h.fresh id hid).trans (Nat.lt_succ_self _)
      · exact Nat.lt_succ_self _
    · exact fun id hid ↦ h.untouched id (Nat.le_of_succ_le hid)
    · intro c hc id hid t ht heq
      rcases List.mem_append.mp ht with ht | ht
      · exact h.started c hc id hid t ht heq
      · obtain rfl := List.mem_singleton.mp ht
        exact absurd (h.callers c hc id hid) (heq ▸ lt_irrefl _)
    · exact fun c hc id hid ↦ (h.callers c hc id hid).trans (Nat.lt_succ_self _)
    · intro t ht
      rcases List.mem_append.mp ht with ht | ht
      · exact h.tasks t ht
      · obtain rfl := List.mem_singleton.mp ht
        exact ⟨fun _ ↦ h.untouched _ le_rfl, fun hphase ↦ absurd rfl hphase, by simp⟩

theorem serving_start {kind : PollKind} {id : ℕ} (hid : id ∈ s.poll.serving) :
    id ∈ (s.step (.start kind)).poll.serving := by
  simp only [step, PollMode.step, PollMode.startTask]
  split_ifs
  · exact hid
  · obtain ⟨t, ht, hphase, rfl⟩ := PollMode.mem_serving.mp hid
    exact PollMode.mem_serving.mpr ⟨t, List.mem_append_left _ ht, hphase, rfl⟩

theorem serving_of_start {kind : PollKind} {id : ℕ}
    (hid : id ∈ (s.step (.start kind)).poll.serving) :
    id ∈ s.poll.serving ∨ id = s.poll.nextId := by
  obtain ⟨t, ht, hphase, rfl⟩ := PollMode.mem_serving.mp hid
  simp only [step, PollMode.step, PollMode.startTask] at ht
  split_ifs at ht
  · exact .inl (PollMode.mem_serving.mpr ⟨t, ht, hphase, rfl⟩)
  · rcases List.mem_append.mp ht with ht | ht
    · exact .inl (PollMode.mem_serving.mpr ⟨t, ht, hphase, rfl⟩)
    · obtain rfl := List.mem_singleton.mp ht
      exact .inr rfl

/-- The steps of poll mode in which no task is started or takes a step leave
the sockets alone. -/
theorem Inv.keepsSockets {Gone : ℕ → Prop} {poll : PollMode} (h : s.Inv)
    (hkeeps : PollMode.Keeps Gone s.poll poll) : Inv ⟨poll, s.sockets⟩ :=
  h.keeps hkeeps (fun t ht _ ↦ h.tasks t ht) fun _ _ ↦ rfl

/-- What a step does that is none of a task. -/
theorem Inv.others (h : s.Inv) {a : SocketAction} (ha : ∀ id E, a ≠ .task id E) :
    (s.step a).sockets = s.sockets ∧ ((∃ kind, a = .start kind) ∨
      PollMode.Keeps (fun id ↦ ∃ j c, a = .expire j ∧ s.poll.waits[j]? = some c ∧
        c.caller = .udpTask id ∧ (s.poll.stopped.udp || s.poll.stopped.tcp) = false)
        s.poll (s.step a).poll) := by
  have hsame (poll : PollMode) (htasks : poll.tasks = s.poll.tasks)
      (hnext : poll.nextId = s.poll.nextId) (hcalls : poll.calls = s.poll.calls) :
      PollMode.Keeps (fun _ ↦ False) s.poll poll :=
    PollMode.keeps_of_tasks htasks hnext fun _ hc ↦ hcalls ▸ hc
  cases a with
  | start kind => exact ⟨rfl, .inl ⟨kind, rfl⟩⟩
  | startInstalled =>
      refine ⟨rfl, .inr (PollMode.Keeps.congr (hsame _ ?_ ?_ ?_) (by simp))⟩
      all_goals
        simp only [step, PollMode.step]
        split_ifs <;> rfl
  | updaterStop =>
      have hstop : PollMode.Keeps (fun _ ↦ False) s.poll (s.step .updaterStop).poll :=
        PollMode.keeps_stopPAnkerPollMode (by simp) (by simp)
      exact ⟨rfl, .inr (hstop.congr (by simp))⟩
  | connectTaskStops =>
      have hkeeps : PollMode.Keeps (fun _ ↦ False) s.poll (s.step .connectTaskStops).poll := by
        simp only [step, PollMode.step]
        split_ifs
        · exact hsame s.poll rfl rfl rfl
        have hfewer := hsame { s.poll with connectTasks := s.poll.connectTasks - 1 } rfl rfl rfl
        refine hfewer.trans (PollMode.keeps_stopPAnkerPollMode ?_ ?_)
        · rintro id ⟨⟩
        · rintro id ⟨⟩
      exact ⟨rfl, .inr (hkeeps.congr (by simp))⟩
  | expire j =>
      exact ⟨rfl, .inr ((PollMode.keeps_expire h.started j).congr (by simp))⟩
  | wake j => exact ⟨rfl, .inr ((PollMode.keeps_wake h.started j).congr (by simp))⟩
  | task id E => exact absurd rfl (ha id E)

/-- The step of a task that is alive, and all other steps that change something. -/
theorem Inv.stepCases (h : s.Inv) (a : SocketAction) :
    (∃ t E, a = .task t.id E ∧ t ∈ s.poll.tasks ∧ Outcome s t (s.step a)) ∨
      (∃ id E, a = .task id E ∧ id ∉ s.poll.alive ∧ s.step a = s) ∨
      (∃ kind, a = .start kind) ∨
      ((∀ id E, a ≠ .task id E) ∧ (s.step a).sockets = s.sockets ∧
        PollMode.Keeps (fun id ↦ ∃ j c, a = .expire j ∧ s.poll.waits[j]? = some c ∧
          c.caller = .udpTask id ∧ (s.poll.stopped.udp || s.poll.stopped.tcp) = false)
          s.poll (s.step a).poll) := by
  by_cases htask : ∃ id E, a = .task id E
  · obtain ⟨id, E, rfl⟩ := htask
    cases hfind : s.poll.tasks.find? (fun t ↦ t.id = id) with
    | none =>
        refine .inr (.inl ⟨id, E, rfl, ?_, by simp only [SocketState.step, hfind]⟩)
        intro hid
        obtain ⟨t, ht, heq⟩ := List.mem_map.mp hid
        have hno := List.find?_eq_none.mp hfind t ht
        simp [heq] at hno
    | some t =>
        obtain ⟨rfl, ht, hout⟩ := h.outcome E hfind
        exact .inl ⟨t, E, rfl, ht, hout⟩
  · obtain ⟨hsockets, hstart | hkeeps⟩ := h.others fun id E ha ↦ htask ⟨id, E, ha⟩
    · exact .inr (.inr (.inl hstart))
    · exact .inr (.inr (.inr ⟨fun id E ha ↦ htask ⟨id, E, ha⟩, hsockets, hkeeps⟩))

theorem Inv.step (h : s.Inv) (a : SocketAction) : (s.step a).Inv := by
  rcases h.stepCases a with ⟨t, E, rfl, ht, hout⟩ | ⟨id, E, rfl, -, hsame⟩ | ⟨kind, rfl⟩ |
    ⟨-, hsockets, hkeeps⟩
  · exact h.ofOutcome ht hout
  · rwa [hsame]
  · exact h.start kind
  · have hnext := h.keepsSockets hkeeps
    rwa [← hsockets] at hnext

/-! ## The logs -/

/-- A task that has closed its sockets does not serve again. -/
theorem Outcome.ended {s' : SocketState} (hout : Outcome s t s')
    (ht : t ∈ s.poll.tasks) {id : ℕ} (hid : id ∉ s.poll.serving) :
    id ∉ s'.poll.serving ∧ s'.sockets id = s.sockets id := by
  have hne (hstays : t.phase ≠ .leaving) : id ≠ t.id := by
    rintro rfl
    exact hid (PollMode.mem_serving.mpr ⟨t, ht, hstays, rfl⟩)
  have hadvance (hstays : t.phase ≠ .leaving) {poll : PollMode} {phase : PollPhase}
      (htasks : poll.tasks = (s.poll.setPhase t.id phase).tasks) : id ∉ poll.serving := by
    intro hmem
    obtain ⟨t', ht', hphase, rfl⟩ := PollMode.mem_serving.mp hmem
    rw [htasks] at ht'
    obtain ⟨t₀, ht₀, rfl⟩ := List.mem_map.mp ht'
    by_cases hsame : t₀.id = t.id
    · exact hne hstays (by simp [hsame])
    · rw [if_neg hsame] at hphase hid
      exact hid (PollMode.mem_serving.mpr ⟨t₀, ht₀, hphase, rfl⟩)
  cases hout with
  | setupFailed v hphase hv =>
      have hstays : t.phase ≠ .leaving := by simp [hphase]
      exact ⟨hadvance hstays rfl, Function.update_of_ne (hne hstays) v s.sockets⟩
  | setupDone v hphase hv =>
      have hstays : t.phase ≠ .leaving := by simp [hphase]
      exact ⟨hadvance hstays rfl, Function.update_of_ne (hne hstays) v s.sockets⟩
  | ends hphase hflag =>
      have hstays : t.phase ≠ .leaving := by simp [hphase]
      exact ⟨hadvance hstays rfl, Function.update_of_ne (hne hstays) _ s.sockets⟩
  | continues poll v hsetup hleaving hconnecting hflag hv hkeeps =>
      exact ⟨fun hmem ↦ hid (hkeeps.serving hmem),
        Function.update_of_ne (hne hleaving) v s.sockets⟩
  | deleted poll hphase hkeeps => exact ⟨fun hmem ↦ hid (hkeeps.serving hmem), rfl⟩

/-- What holds of the sockets of all ended tasks has held before. -/
theorem Inv.of_step (h : s.Inv) {a : SocketAction} {P : TaskSockets → Prop} (hinit : P .init)
    (hafter : ∀ id ∉ (s.step a).poll.serving, P ((s.step a).sockets id)) :
    ∀ id ∉ s.poll.serving, P (s.sockets id) := by
  intro id hid
  by_cases hlt : id < s.poll.nextId
  · have hended : id ∉ (s.step a).poll.serving ∧ (s.step a).sockets id = s.sockets id := by
      rcases h.stepCases a with ⟨t, E, rfl, ht, hout⟩ | ⟨id', E, rfl, -, hsame⟩ | ⟨kind, rfl⟩ |
        ⟨-, hsockets, hkeeps⟩
      · exact hout.ended ht hid
      · rw [hsame]
        exact ⟨hid, rfl⟩
      · refine ⟨fun hmem ↦ ?_, rfl⟩
        rcases serving_of_start hmem with hmem | rfl
        · exact hid hmem
        · exact hlt.false
      · exact ⟨fun hmem ↦ hid (hkeeps.serving hmem), congrFun hsockets id⟩
    rw [← hended.2]
    exact hafter id hended.1
  · rw [h.untouched id (not_lt.mp hlt)]
    exact hinit

/-- A task has closed its sockets before it is deleted at its end. -/
theorem Inv.noneLeft_iff (h : s.Inv) :
    s.NoneLeft ↔ ∀ id ∉ s.poll.serving, ∀ sock, ¬Live (s.sockets id).log sock := by
  constructor
  · intro hnone id hid
    by_cases halive : id ∈ s.poll.alive
    · obtain ⟨t, ht, rfl⟩ := List.mem_map.mp halive
      have hphase : t.phase = .leaving := by
        by_contra hstays
        exact hid (PollMode.mem_serving.mpr ⟨t, ht, hstays, rfl⟩)
      exact (h.tasks t ht).left hphase
    · exact hnone id halive
  · exact fun hnone id hid ↦ hnone id fun hmem ↦ hid (PollMode.alive_of_serving hmem)

/-- A task that runs has its first socket open. -/
theorem Inv.live_first (h : s.Inv) (ht : t ∈ s.poll.tasks) (hbound : t.phase.Bound) :
    ∃ sock, Live (s.sockets t.id).log sock := by
  have hready := (h.tasks t ht).ready (by rcases hbound with hphase | hphase <;> simp [hphase])
    (by rcases hbound with hphase | hphase <;> simp [hphase])
  obtain ⟨sock, hsock⟩ := Option.isSome_iff_exists.mp hready.first
  exact ⟨sock, hready.sound.first sock hsock⟩

theorem Outcome.noneLeft_iff {s' : SocketState} (h : s.Inv) (ht : t ∈ s.poll.tasks)
    (hout : Outcome s t s') (hnone : s.NoneLeft) : s'.NoneLeft ↔ t.phase ≠ .connecting := by
  have hinv := h.ofOutcome ht hout
  have hended := h.noneLeft_iff.mp hnone
  -- the sockets of the other tasks that have ended are those from before
  have hothers : ∀ id ≠ t.id, id ∉ s'.poll.serving → ∀ sock, ¬Live (s'.sockets id).log sock := by
    intro id hne hid
    by_cases hserving : id ∈ s.poll.serving
    · refine absurd ?_ hid
      obtain ⟨t', ht', hstays, rfl⟩ := PollMode.mem_serving.mp hserving
      have hother {phase : PollPhase} : t'.id ∈ (s.poll.setPhase t.id phase).serving :=
        PollMode.mem_serving.mpr
          ⟨t', List.mem_map.mpr ⟨t', ht', if_neg hne⟩, hstays, rfl⟩
      cases hout with
      | setupFailed v hphase hv => exact hother
      | setupDone v hphase hv => exact hother
      | ends hphase hflag => exact hother
      | continues poll v hsetup hleaving hconnecting hflag hv hkeeps =>
          exact (hkeeps.stays _ hserving).mpr not_false
      | deleted poll hphase hkeeps => exact (hkeeps.stays _ hserving).mpr hne
    · rw [(hout.ended ht hserving).2]
      exact hended id hserving
  have hself : s'.NoneLeft ↔
      (t.id ∉ s'.poll.serving → ∀ sock, ¬Live (s'.sockets t.id).log sock) := by
    rw [hinv.noneLeft_iff]
    refine ⟨fun hall ↦ hall t.id, fun hown id hid ↦ ?_⟩
    by_cases hne : id = t.id
    · exact hne ▸ hown (hne ▸ hid)
    · exact hothers id hne hid
  rw [hself]
  cases hout with
  | setupFailed v hphase hv =>
      refine iff_of_true (fun _ ↦ ?_) (by simp [hphase])
      simpa only [Function.update_self] using hv.none
  | setupDone v hphase hv =>
      refine iff_of_true (fun hid ↦ absurd ?_ hid) (by simp [hphase])
      exact PollMode.mem_serving.mpr ⟨_, List.mem_map_of_mem ht, by simp, by simp⟩
  | ends hphase hflag =>
      refine iff_of_true (fun _ ↦ ?_) (by simp [hphase])
      have hready := (h.tasks t ht).ready (by simp [hphase]) (by simp [hphase])
      simpa only [Function.update_self] using hready.sound.exit.1
  | continues poll v hsetup hleaving hconnecting hflag hv hkeeps =>
      refine iff_of_true (fun hid ↦ absurd ?_ hid) hconnecting
      exact (hkeeps.stays _ (PollMode.mem_serving.mpr ⟨t, ht, hleaving, rfl⟩)).mpr not_false
  | deleted poll hphase hkeeps =>
      rcases hphase with hphase | hphase
      · refine iff_of_false (fun hno ↦ ?_) (by simp [hphase])
        obtain ⟨sock, hsock⟩ := h.live_first ht (.inr hphase)
        have hserving := PollMode.mem_serving.mpr ⟨t, ht, by simp [hphase], rfl⟩
        exact hno (fun hmem ↦ (hkeeps.stays _ hserving).mp hmem rfl) sock hsock
      · exact iff_of_true (fun _ ↦ (h.tasks t ht).left hphase) (by simp [hphase])

theorem Inv.noneLeft_step (h : s.Inv) (a : SocketAction) :
    (s.step a).NoneLeft ↔ s.NoneLeft ∧ ¬s.DeletesUdpTask a := by
  have hbefore : (s.step a).NoneLeft → s.NoneLeft := fun hnone ↦
    h.noneLeft_iff.mpr (h.of_step (P := fun v ↦ ∀ sock, ¬Live v.log sock)
      (by simp [TaskSockets.init, Live]) ((h.step a).noneLeft_iff.mp hnone))
  rw [← and_iff_right_of_imp hbefore]
  refine and_congr_right fun hnone ↦ ?_
  rcases h.stepCases a with ⟨t, E, rfl, ht, hout⟩ | ⟨id, E, rfl, hid, hsame⟩ | ⟨kind, rfl⟩ |
    ⟨hothers, hsockets, hkeeps⟩
  · rw [hout.noneLeft_iff h ht hnone]
    refine not_congr ⟨fun hphase ↦ ⟨t, ht, rfl, hphase⟩, ?_⟩
    rintro ⟨t', ht', hid, hphase⟩
    rwa [← h.unique ht' ht hid]
  · rw [hsame]
    refine iff_of_true hnone ?_
    rintro ⟨t, ht, rfl, -⟩
    exact hid (mem_alive ht)
  · refine iff_of_true ((h.step _).noneLeft_iff.mpr fun id hid ↦ ?_) not_false
    exact h.noneLeft_iff.mp hnone id fun hmem ↦ hid (serving_start hmem)
  · rw [(h.step a).noneLeft_iff]
    constructor
    · intro hleft hdeletes
      cases a with
      | task id E => exact hothers id E rfl
      | expire j =>
          obtain ⟨c, id, hwait, hcaller, hbits, hid⟩ := hdeletes
          obtain ⟨t, ht, rfl⟩ := List.mem_map.mp hid
          have hmem := List.mem_append_left s.poll.woken (List.mem_of_getElem? hwait)
          have hbound := h.started c hmem t.id hcaller t ht rfl
          obtain ⟨sock, hlive⟩ := h.live_first ht hbound
          have hstays : t.phase ≠ .leaving := by
            rcases hbound with hphase | hphase <;> simp [hphase]
          have hserving := PollMode.mem_serving.mpr ⟨t, ht, hstays, rfl⟩
          have hgone : t.id ∉ (s.step (.expire j)).poll.serving := fun hmem ↦
            (hkeeps.stays t.id hserving).mp hmem ⟨j, c, rfl, hwait, hcaller, hbits⟩
          rw [← hsockets] at hlive
          exact hleft t.id hgone sock hlive
      | _ => exact hdeletes
    · intro hkept id hid
      rw [hsockets]
      refine h.noneLeft_iff.mp hnone id fun hmem ↦ hid ((hkeeps.stays id hmem).mpr ?_)
      rintro ⟨j, c, rfl, hwait, hcaller, hbits⟩
      exact hkept ⟨c, id, hwait, hcaller, hbits, PollMode.alive_of_serving hmem⟩

/-! ## The runs -/

variable (actions : List SocketAction)

/-- In a run of poll mode a task that has ended has closed its sockets,
unless it was deleted inside `p_anker_connect_to_default_ap`. -/
theorem noneLeft_run : (run actions).NoneLeft ↔
    Always step (fun s a ↦ ¬s.DeletesUdpTask a) powerOn actions :=
  holds_iff NoneLeft Inv (fun _ a h ↦ h.step a) (fun _ a h ↦ h.noneLeft_step a)
    inv_powerOn fun _ _ _ h ↦ by simp [powerOn, TaskSockets.init, Live] at h

end SocketState

end AnkerUpdater
