import AnkerUpdater.Storage.CrashAtomic

/-!
# Reading whole files

`datastorage_read_data_from_file_in_partition` beside the calls that change
the files.  `fread` may deliver less than it was asked for, and the call then
returns the shorter count without an error.
-/

namespace AnkerUpdater.Storage

open AtomicFiles

inductive ReadRc where
  | ok
  | errGeneral
  | errNoMemoryLeft
  | errFileOpen
  | errFileRead
  deriving DecidableEq, Repr

/-- Which operations succeed, and how many bytes `fread` delivers at most. -/
structure ReadEnv where
  filePath : Bool
  fopen : Bool
  seekEnd : Bool
  ftell : Bool
  seekSet : Bool
  malloc : Bool
  fread : ℕ

/-- All operations whose failure the call notices succeed. -/
def ReadEnv.works (E : ReadEnv) : Bool :=
  E.filePath && E.fopen && E.seekEnd && E.seekSet && E.malloc

/-- `(uint32_t)EOF` -/
def eof : ℕ := 4294967295

/-- What `fread` delivers from the open file.  `ftell` returns -1 when it
fails, and `ret == EOF` frees the data, but its return code is overwritten. -/
def freadContent (cnt : ℕ) (E : ReadEnv) (content : Bytes) : ReadRc × Option Bytes :=
  let size := if cnt = 0 then if E.ftell then content.length else eof else cnt
  let bytes := content.take (min size E.fread)
  if bytes.length = eof then (.ok, none) else (.ok, some bytes)

/-- `cnt` is `*cnt` at the call, 0 for the whole file.  The bytes are what
`*data` and `*cnt` deliver at the end. -/
def readDataFromFile (name : Option FileName) (type cnt : ℕ) (E : ReadEnv) (disk : Disk) :
    ReadRc × Option Bytes :=
  match name with
  | none => (.errGeneral, none)
  | some name =>
      if 1 < type then (.errGeneral, none)
      else if !E.filePath then (.errNoMemoryLeft, none)
      else
        match if E.fopen then disk name else none with
        | none => (.errFileOpen, none)
        | some content =>
            if cnt = 0 ∧ !(E.seekEnd && E.seekSet) then (.errFileRead, none)
            else if cnt = 0 ∧ !E.malloc then (.errNoMemoryLeft, none)
            else freadContent cnt E content

/-! ## What a read promises -/

/-- What a read may do: it delivers the start of the file, as long as was
asked for, and all of it if `fread` delivers all; it refuses only if there
is no file or an operation fails. -/
inductive ReadSpec (m : FileMap) :
    Option FileName → ℕ → ℕ → ReadEnv → ReadRc × Option Bytes → Prop
  | delivered (name : FileName) (type cnt : ℕ) (E : ReadEnv) (content bytes : Bytes)
      (hcontent : m name = some content) (hstart : bytes <+: content)
      (hcount : cnt ≠ 0 → bytes.length ≤ cnt)
      (hall : content.length ≤ E.fread → cnt = 0 ∨ content.length ≤ cnt → bytes = content) :
      ReadSpec m (some name) type cnt E (.ok, some bytes)
  | refused (name : Option FileName) (type cnt : ℕ) (E : ReadEnv) (rc : ReadRc) (hrc : rc ≠ .ok)
      (hcause : ∀ n, name = some n → m n = none ∨ 1 < type ∨ E.works = false) :
      ReadSpec m name type cnt E (rc, none)

/-- No file at the names is as long as the count that `fread` cannot return. -/
def Short (names : Set FileName) (m : FileMap) : Prop :=
  ∀ name ∈ names, ∀ content, m name = some content → content.length < eof

section

variable {name : FileName} {type cnt : ℕ} {E : ReadEnv} {disk : Disk} {content : Bytes}

/-- A read of a file that is there and opens. -/
theorem readDataFromFile_of_content (hcontent : disk name = some content) (htype : type ≤ 1)
    (hpath : E.filePath = true) (hopen : E.fopen = true) :
    readDataFromFile (some name) type cnt E disk =
      if cnt = 0 ∧ !(E.seekEnd && E.seekSet) then (.errFileRead, none)
      else if cnt = 0 ∧ !E.malloc then (.errNoMemoryLeft, none)
      else freadContent cnt E content := by
  have hvalid : ¬1 < type := not_lt.mpr htype
  simp only [readDataFromFile, if_neg hvalid, hpath, hopen, hcontent, Bool.not_true,
    Bool.false_eq_true, if_false, if_true]

theorem readSpec_freadContent (hcontent : disk name = some content)
    (hlength : content.length < eof) :
    ReadSpec disk (some name) type cnt E (freadContent cnt E content) := by
  rw [freadContent, if_neg]
  · refine .delivered name type cnt E content _ hcontent (List.take_prefix _ _) (fun hcnt ↦ ?_) ?_
    · rw [if_neg hcnt, List.length_take]
      omega
    · intro hfread hsize
      apply List.take_of_length_le
      split_ifs <;> omega
  · rw [List.length_take]
    omega

/-- Whatever fails, a read gives what it may give. -/
theorem readSpec_readDataFromFile (name : Option FileName) (type cnt : ℕ) (E : ReadEnv)
    (disk : Disk)
    (hshort : ∀ n, name = some n → ∀ content, disk n = some content → content.length < eof) :
    ReadSpec disk name type cnt E (readDataFromFile name type cnt E disk) := by
  cases name with
  | none => exact .refused none type cnt E .errGeneral (by simp) (by simp)
  | some name =>
      have hrefused : ∀ rc, rc ≠ .ok → disk name = none ∨ 1 < type ∨ E.works = false →
          ReadSpec disk (some name) type cnt E (rc, none) := by
        intro rc hrc hcause
        apply ReadSpec.refused _ type cnt E rc hrc
        intro n hn
        obtain rfl := Option.some.inj hn
        exact hcause
      by_cases htype : 1 < type
      · simpa [readDataFromFile, htype] using hrefused .errGeneral (by simp) (.inr (.inl htype))
      by_cases hpath : E.filePath = true
      swap
      · simpa [readDataFromFile, htype, hpath] using
          hrefused .errNoMemoryLeft (by simp) (by simp [ReadEnv.works, hpath])
      by_cases hopen : E.fopen = true
      swap
      · simpa [readDataFromFile, htype, hpath, hopen] using
          hrefused .errFileOpen (by simp) (by simp [ReadEnv.works, hopen])
      cases hcontent : disk name with
      | none =>
          simpa [readDataFromFile, htype, hpath, hopen, hcontent] using
            hrefused .errFileOpen (by simp) (.inl hcontent)
      | some content =>
          rw [readDataFromFile_of_content hcontent (not_lt.mp htype) hpath hopen]
          split_ifs with hseek hmalloc
          · refine hrefused .errFileRead (by simp) (.inr (.inr ?_))
            cases hend : E.seekEnd <;> simp_all [ReadEnv.works]
          · refine hrefused .errNoMemoryLeft (by simp) (.inr (.inr ?_))
            simp_all [ReadEnv.works]
          · exact readSpec_freadContent hcontent (hshort name rfl content hcontent)

theorem prefix_of_freadContent {bytes : Bytes}
    (h : freadContent cnt E content = (.ok, some bytes)) : bytes <+: content := by
  have htake : ∀ size, (if (content.take size).length = eof then (ReadRc.ok, none)
      else (.ok, some (content.take size))) = (.ok, some bytes) → bytes <+: content := by
    intro size hsize
    split_ifs at hsize
    · simp at hsize
    · simp only [Prod.mk.injEq, Option.some.injEq, true_and] at hsize
      rw [← hsize]
      exact List.take_prefix size content
  exact htake _ h

/-- Bytes are only delivered from a file that is there. -/
theorem exists_content_of_readDataFromFile {bytes : Bytes}
    (h : readDataFromFile (some name) type cnt E disk = (.ok, some bytes)) :
    ∃ content, disk name = some content ∧ bytes <+: content := by
  by_cases htype : 1 < type
  · simp [readDataFromFile, htype] at h
  by_cases hpath : E.filePath = true
  swap
  · simp [readDataFromFile, htype, hpath] at h
  by_cases hopen : E.fopen = true
  swap
  · simp [readDataFromFile, htype, hpath, hopen] at h
  cases hcontent : disk name with
  | none => simp [readDataFromFile, htype, hpath, hopen, hcontent] at h
  | some content =>
      rw [readDataFromFile_of_content hcontent (not_lt.mp htype) hpath hopen] at h
      by_cases hseek : cnt = 0 ∧ !(E.seekEnd && E.seekSet)
      · rw [if_pos hseek] at h
        simp at h
      by_cases hmalloc : cnt = 0 ∧ !E.malloc
      · rw [if_neg hseek, if_pos hmalloc] at h
        simp at h
      rw [if_neg hseek, if_neg hmalloc] at h
      exact ⟨content, rfl, prefix_of_freadContent h⟩

theorem ReadSpec.congr {m m' : FileMap} {name : Option FileName} {result : ReadRc × Option Bytes}
    (h : ReadSpec m name type cnt E result) (hname : ∀ n, name = some n → m n = m' n) :
    ReadSpec m' name type cnt E result := by
  cases h with
  | delivered name _ _ _ content bytes hcontent hstart hcount hall =>
      rw [hname name rfl] at hcontent
      exact .delivered name type cnt E content bytes hcontent hstart hcount hall
  | refused _ _ _ _ rc hrc hcause =>
      refine .refused name type cnt E rc hrc fun n hn ↦ ?_
      rw [← hname n hn]
      exact hcause n hn

end

/-! ## One file -/

section

variable {name : FileName} {P : Bytes → Prop}

/-- An action on a file leaves it, removes it, or writes the bytes of a call
to it. -/
theorem step_content (hseparate : Separate FileName.temp {name}) {a : Action}
    (hname : a.call.name = some name) (hdelivers : Delivers a)
    (hwrite : ∀ binary data E, a.call = .write (some name) binary data E → P data) (disk : Disk) :
    step disk a name = disk name ∨ step disk a name = none ∨
      ∃ data, P data ∧ step disk a name = some data := by
  have hnames : ∀ n ∈ a.call.name, n ∈ ({name} : Set FileName) := by
    intro n hn
    rw [hname] at hn
    exact (Option.some.inj hn).symm
  obtain ⟨m', hspec, hfiles⟩ :=
    (delivers_iff hseparate hnames (Set.eqOn_refl disk _)).mp hdelivers
  rw [hfiles rfl]
  generalize outcome disk a = o at hspec
  generalize a.call = call at hspec hname hwrite
  cases hspec with
  | written n binary data E =>
      obtain rfl := Option.some.inj hname
      exact .inr (.inr ⟨data, hwrite binary data E rfl, Function.update_self _ _ _⟩)
  | writeInterruptedAfterRename n binary data E =>
      obtain rfl := Option.some.inj hname
      exact .inr (.inr ⟨data, hwrite binary data E rfl, Function.update_self _ _ _⟩)
  | erased n E =>
      obtain rfl := Option.some.inj hname
      exact .inr (.inl (Function.update_self _ _ _))
  | eraseInterruptedAfterRemove n E =>
      obtain rfl := Option.some.inj hname
      exact .inr (.inl (Function.update_self _ _ _))
  | notWritten => exact .inl rfl
  | writeInterrupted => exact .inl rfl
  | notErased => exact .inl rfl
  | eraseInterrupted => exact .inl rfl
  | checked => exact .inl rfl
  | notChecked => exact .inl rfl
  | checkInterrupted => exact .inl rfl

theorem foldl_step_content (hseparate : Separate FileName.temp {name}) {actions : List Action}
    (hname : ∀ a ∈ actions, a.call.name = some name) (hdelivers : ∀ a ∈ actions, Delivers a)
    (hwrite : ∀ a ∈ actions, ∀ binary data E, a.call = .write (some name) binary data E → P data)
    (disk : Disk) :
    actions.foldl step disk name = disk name ∨ actions.foldl step disk name = none ∨
      ∃ data, P data ∧ actions.foldl step disk name = some data := by
  induction actions generalizing disk with
  | nil => exact .inl rfl
  | cons a actions ih =>
      rw [List.forall_mem_cons] at hname hdelivers hwrite
      have hfirst := step_content hseparate hname.1 hdelivers.1 hwrite.1 disk
      rcases ih hname.2 hdelivers.2 hwrite.2 (step disk a) with hsame | hrest
      · rwa [List.foldl_cons, hsame]
      · exact .inr hrest

end

/-! ## Reads in a run -/

/-- A call that changes files, cut by a power loss or not, or a read. -/
inductive FileAction where
  | change (a : Action)
  | read (name : Option FileName) (type cnt : ℕ) (E : ReadEnv)

inductive FileOutcome where
  | changed (o : Outcome)
  | read (result : ReadRc × Option Bytes)
  deriving DecidableEq

namespace FileAction

def names : FileAction → Option FileName
  | .change a => a.call.name
  | .read name _ _ _ => name

def step (disk : Disk) : FileAction → Disk
  | .change a => Storage.step disk a
  | .read _ _ _ _ => disk

def outcome (disk : Disk) : FileAction → FileOutcome
  | .change a => .changed (Storage.outcome disk a)
  | .read name type cnt E => .read (readDataFromFile name type cnt E disk)

/-- The bytes of a write, if it is one. -/
def written : FileAction → Option Bytes
  | .change a =>
      match a.call with
      | .write _ _ data _ => some data
      | _ => none
  | .read _ _ _ _ => none

/-- The write brings its bytes into the file. -/
def Delivers : FileAction → Prop
  | .change a => Storage.Delivers a
  | .read _ _ _ _ => True

end FileAction

/-- What an action may do to the map, and a read tell about it. -/
inductive FileSpec (m : FileMap) : FileAction → FileOutcome → FileMap → Prop
  | changed (a : Action) (o : Outcome) (m' : FileMap) (h : Spec m a.call o m') :
      FileSpec m (.change a) (.changed o) m'
  | read (name : Option FileName) (type cnt : ℕ) (E : ReadEnv) (result : ReadRc × Option Bytes)
      (h : ReadSpec m name type cnt E result) : FileSpec m (.read name type cnt E) (.read result) m

/-- The disk shows the map at the names. -/
structure Shows (names : Set FileName) (disk : Disk) (m : FileMap) : Prop where
  files : Set.EqOn disk m names
  short : Short names m

section

variable {names : Set FileName} {disk : Disk} {m m' : FileMap}

theorem Short.update {name : FileName} {content : Option Bytes} (h : Short names m)
    (hcontent : ∀ bytes, content = some bytes → bytes.length < eof) :
    Short names (Function.update m name content) := by
  intro other hother bytes hbytes
  by_cases heq : other = name
  · subst heq
    rw [Function.update_self] at hbytes
    exact hcontent bytes hbytes
  · rw [Function.update_of_ne heq] at hbytes
    exact h other hother bytes hbytes

theorem Spec.short {a : Action} {o : Outcome} (h : Spec m a.call o m') (hm : Short names m)
    (hdata : ∀ data ∈ (FileAction.change a).written, data.length < eof) : Short names m' := by
  have hwritten : ∀ name binary data E, a.call = .write name binary data E → data.length < eof := by
    intro name binary data E hcall
    apply hdata data
    simp [FileAction.written, hcall]
  generalize a.call = call at h hwritten
  cases h with
  | written name binary data E =>
      apply hm.update
      rintro bytes heq
      obtain rfl := Option.some.inj heq
      exact hwritten _ _ _ _ rfl
  | writeInterruptedAfterRename name binary data E =>
      apply hm.update
      rintro bytes heq
      obtain rfl := Option.some.inj heq
      exact hwritten _ _ _ _ rfl
  | erased => exact hm.update fun bytes heq ↦ absurd heq (by simp)
  | eraseInterruptedAfterRemove => exact hm.update fun bytes heq ↦ absurd heq (by simp)
  | notWritten => exact hm
  | writeInterrupted => exact hm
  | notErased => exact hm
  | eraseInterrupted => exact hm
  | checked => exact hm
  | notChecked => exact hm
  | checkInterrupted => exact hm

end

/-- The calls of a run do to the files what they may do to a map, and every
read tells what the map holds, exactly if the writes deliver. -/
theorem follows_iff {names : Set FileName} (hseparate : Separate FileName.temp names)
    (disk : Disk) (hshort : Short names disk) {actions : List FileAction}
    (hnames : ∀ a ∈ actions, ∀ name ∈ a.names, name ∈ names)
    (hdata : ∀ a ∈ actions, ∀ data ∈ a.written, data.length < eof) :
    Runs.Simulated FileAction.step FileAction.outcome FileSpec (Shows names) disk disk actions ↔
      ∀ a ∈ actions, a.Delivers := by
  have hconst : Runs.Always FileAction.step (fun _ a ↦ a.Delivers) disk actions ↔
      ∀ a ∈ actions, a.Delivers := Runs.always_const
  rw [← hconst]
  refine Runs.simulated_iff (fun a ha disk m hm ↦ ?_) ⟨Set.eqOn_refl disk names, hshort⟩
  cases a with
  | change a =>
      have hiff := delivers_iff hseparate (hnames _ ha) hm.files
      constructor
      · intro h
        obtain ⟨m', hspec, hfiles⟩ := hiff.mp h
        exact ⟨m', .changed a _ m' hspec, hfiles, hspec.short hm.short (hdata _ ha)⟩
      · rintro ⟨m', hspec, hm'⟩
        cases hspec with
        | changed _ _ _ hspec => exact hiff.mpr ⟨m', hspec, hm'.files⟩
  | read name type cnt E =>
      refine iff_of_true trivial ⟨m, .read name type cnt E _ ?_, hm⟩
      have hsame : ∀ n, name = some n → disk n = m n := fun n hn ↦ hm.files (hnames _ ha n hn)
      refine (readSpec_readDataFromFile name type cnt E disk ?_).congr hsame
      intro n hn content hcontent
      rw [hsame n hn] at hcontent
      exact hm.short n (hnames _ ha n hn) content hcontent

/-- The file is read after the power loss in its second write. -/
def writtenThenRead : List FileAction :=
  writtenTwice.map .change ++
    [.read (some updateStatus) 1 0 ⟨true, true, true, true, true, true, 100⟩]

theorem follows_writtenThenRead :
    Runs.Simulated FileAction.step FileAction.outcome FileSpec (Shows {updateStatus})
        (fun _ ↦ none) (fun _ ↦ none) writtenThenRead ∧
      .read (.ok, some [1, 2]) ∈
        Runs.labels FileAction.step FileAction.outcome (fun _ ↦ none) writtenThenRead := by
  have hactions : ∀ P : FileAction → Prop, (∀ a ∈ writtenTwice, P (.change a)) →
      (∀ name E, P (.read name 1 0 E)) → ∀ a ∈ writtenThenRead, P a := by
    intro P hchange hread a ha
    rcases List.mem_append.mp ha with ha | ha
    · obtain ⟨c, hc, rfl⟩ := List.mem_map.mp ha
      exact hchange c hc
    · rw [List.mem_singleton.mp ha]
      exact hread _ _
  refine ⟨(follows_iff separate_updateStatus (fun _ ↦ none) ?_ ?_ ?_).mpr ?_, by decide⟩
  · exact fun name _ content hcontent ↦ absurd hcontent (by simp)
  · intro a ha name hname
    fin_cases ha <;> exact (Option.some.inj hname).symm
  · apply hactions
    · intro a ha data hdata
      simp only [writtenTwice, List.mem_cons, List.not_mem_nil, or_false] at ha
      rcases ha with rfl | rfl | rfl
      · obtain rfl := Option.some.inj hdata
        decide
      · obtain rfl := Option.some.inj hdata
        decide
      · exact absurd hdata (by simp [FileAction.written, Action.call])
    · exact fun name E data hdata ↦ absurd hdata (by simp [FileAction.written])
  · apply hactions
    · intro a ha
      simp only [writtenTwice, List.mem_cons, List.not_mem_nil, or_false] at ha
      rcases ha with rfl | rfl | rfl
      · exact fun _ ↦ .inl rfl
      · exact fun _ _ ↦ .inl rfl
      · trivial
    · exact fun _ _ ↦ trivial

end AnkerUpdater.Storage
