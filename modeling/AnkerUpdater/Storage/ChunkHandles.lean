import AnkerUpdater.Lib.HandleLog
import AnkerUpdater.Storage.Chunked

/-!
# The stream of the chunk cache

`globFilePath` and `globFile` with every handle that `fopen` returned, and
with each operation of the C library logged.  The pointer `globFile` is never
set back to `NULL` when the stream is closed.
-/

namespace AnkerUpdater.Storage

open HandleLog Runs

/-- A `FILE *`; `writing` tells the flags `__SWR` and `__SRD` apart. -/
structure Handle where
  id : ℕ
  writing : Bool
  deriving DecidableEq

inductive FileOp where
  | fseek
  | fread
  | fwrite
  deriving DecidableEq

inductive AccessRc where
  | ok
  | errGeneral
  | errNoMemoryLeft
  | errFileOpen
  | errFileWrite
  | errFileRead
  deriving DecidableEq, Repr

/-- In what the chunked write and read differ: the mode of the stream, the
operation on it, and the return codes if it cannot be positioned or does not
deliver all bytes. -/
structure Mode where
  writing : Bool
  op : FileOp
  seekFailed : AccessRc
  incomplete : AccessRc

def writeMode : Mode := ⟨true, .fwrite, .errFileWrite, .errFileWrite⟩

def readMode : Mode := ⟨false, .fread, .errFileRead, .ok⟩

/-- Which operations of a chunked access succeed; `complete` is that `fread`
or `fwrite` delivers all `*cnt` bytes. -/
structure AccessEnv where
  asprintf : Bool
  fopen : Bool
  fseek : Bool
  complete : Bool

/-- The two global variables, the number of streams opened so far and the log. -/
structure ChunkCache where
  globFilePath : Option (List UInt8)
  globFile : Option Handle
  opened : ℕ
  log : List (Event Handle FileOp)

namespace ChunkCache

def init : ChunkCache := ⟨none, none, 0, []⟩

/-- `FREE_MEM(globFilePath)` and `fclose(globFile)`. -/
def close (s : ChunkCache) : ChunkCache :=
  { s with globFilePath := none, log := s.log ++ [.closed s.globFile] }

def fopen (s : ChunkCache) (name : CName) (writing : Bool) : ChunkCache where
  globFilePath := some (filePath name)
  globFile := some ⟨s.opened, writing⟩
  opened := s.opened + 1
  log := s.log ++ [.opened ⟨s.opened, writing⟩]

def use (s : ChunkCache) (op : FileOp) : ChunkCache :=
  { s with log := s.log ++ [.used op s.globFile] }

/-- The cached path does not contain the name, or the stream has the other mode. -/
def misses (s : ChunkCache) (name : CName) (writing : Bool) : Bool :=
  s.globFilePath.any fun path ↦
    !(decide (name <:+: path)) || !(s.globFile.any fun h ↦ h.writing == writing)

/-- A stream for another file or of another mode is closed. -/
def closeMissed (s : ChunkCache) (name : CName) (writing : Bool) : ChunkCache :=
  if s.misses name writing then s.close else s

/-- Without a path the file is opened anew; the return code is there if that
fails. -/
def openStream (s : ChunkCache) (name : CName) (writing : Bool) (E : AccessEnv) :
    Option AccessRc × ChunkCache :=
  if s.globFilePath.isSome then (none, s)
  else if !E.asprintf then (some .errNoMemoryLeft, s)
  else if !E.fopen then (some .errFileOpen, { s with globFilePath := none, globFile := none })
  else (none, s.fopen name writing)

/-- `fseek`, and `fread` or `fwrite`; `lastChunk` closes the stream at the end. -/
def transfer (s : ChunkCache) (mode : Mode) (offset : UInt32) (lastChunk : Bool) (E : AccessEnv) :
    AccessRc × ChunkCache :=
  let s := if offset ≠ noSeek then s.use .fseek else s
  if offset ≠ noSeek ∧ E.fseek = false then (mode.seekFailed, s.close)
  else
    let s := s.use mode.op
    if E.complete = false then (mode.incomplete, s.close)
    else (.ok, if lastChunk then s.close else s)

/-- The part the chunked read and write share. -/
def access (s : ChunkCache) (name : Option CName) (mode : Mode) (offset cnt : UInt32)
    (lastChunk : Bool) (E : AccessEnv) : AccessRc × ChunkCache :=
  match name with
  | none => (.errGeneral, s)
  | some name =>
      if cnt = 0 then (.errGeneral, s)
      else
        match (s.closeMissed name mode.writing).openStream name mode.writing E with
        | (some rc, s) => (rc, s)
        | (none, s) => s.transfer mode offset lastChunk E

/-- `datastorage_write_chunked_binary_data_to_file_in_partition` -/
def writeChunked (s : ChunkCache) (name : Option CName) (offset cnt : UInt32) (lastChunk : Bool)
    (E : AccessEnv) : AccessRc × ChunkCache :=
  s.access name writeMode offset cnt lastChunk E

/-- `datastorage_read_chunked_binary_data_from_file_in_partition` -/
def readChunked (s : ChunkCache) (name : Option CName) (offset cnt : UInt32) (E : AccessEnv) :
    AccessRc × ChunkCache :=
  s.access name readMode offset cnt false E

/-- `datastorage_clear_chunked_file_cache` -/
def clear (s : ChunkCache) : AccessRc × ChunkCache :=
  let s := { s with globFilePath := none }
  (.ok, if s.globFile.isSome then s.close else s)

inductive Call where
  | write (name : Option CName) (offset cnt : UInt32) (lastChunk : Bool) (E : AccessEnv)
  | read (name : Option CName) (offset cnt : UInt32) (E : AccessEnv)
  | clear

def step (s : ChunkCache) : Call → ChunkCache
  | .write name offset cnt lastChunk E => (s.writeChunked name offset cnt lastChunk E).2
  | .read name offset cnt E => (s.readChunked name offset cnt E).2
  | .clear => s.clear.2

/-! ## The invariant -/

/-- `globFilePath` is set exactly while `globFile` is an open handle. -/
def PathOpen (s : ChunkCache) : Prop :=
  s.globFilePath.isSome ↔ ∃ h, s.globFile = some h ∧ Live s.log h

structure Inv (s : ChunkCache) : Prop where
  pathOpen : s.PathOpen
  known : ∀ h, s.globFile = some h → .opened h ∈ s.log
  openedBefore : ∀ h, .opened h ∈ s.log → h.id < s.opened
  closedBefore : ∀ h, .closed (some h) ∈ s.log → h.id < s.opened

/-- What a piece of a call does that keeps the handles in order. -/
structure Keeps (s s' : ChunkCache) : Prop where
  inv : s'.Inv
  disciplined : Disciplined s'.log ↔ Disciplined s.log

theorem inv_init : init.Inv where
  pathOpen := by simp [PathOpen, init]
  known := by simp [init]
  openedBefore := by simp [init]
  closedBefore := by simp [init]

variable {s s' s'' : ChunkCache}

theorem Keeps.refl (hs : s.Inv) : Keeps s s := ⟨hs, Iff.rfl⟩

theorem Keeps.trans (h : Keeps s s') (h' : Keeps s' s'') : Keeps s s'' :=
  ⟨h'.inv, h'.disciplined.trans h.disciplined⟩

theorem Inv.live (hs : s.Inv) (hpath : s.globFilePath.isSome) :
    ∃ h, s.globFile = some h ∧ Live s.log h :=
  hs.pathOpen.mp hpath

theorem Inv.close (hs : s.Inv) (hfile : s.globFile.isSome) : s.close.Inv := by
  obtain ⟨h, hh⟩ := Option.isSome_iff_exists.mp hfile
  have hknown := hs.known h hh
  refine ⟨?_, ?_, ?_, ?_⟩
  · have hclosed : ¬Live (s.log ++ [.closed (some h)]) h := not_live_append_closed
    simp [PathOpen, ChunkCache.close, hh, hclosed]
  · intro h' hh'
    exact List.mem_append_left _ (hs.known h' hh')
  · intro h' hmem
    rcases List.mem_append.mp hmem with hmem | hmem
    · exact hs.openedBefore h' hmem
    · simp at hmem
  · intro h' hmem
    rcases List.mem_append.mp hmem with hmem | hmem
    · exact hs.closedBefore h' hmem
    · obtain rfl : h' = h := by simpa [hh] using hmem
      exact hs.openedBefore h' hknown

theorem keeps_close (hs : s.Inv) (hpath : s.globFilePath.isSome) : Keeps s s.close := by
  obtain ⟨h, hh, hlive⟩ := hs.live hpath
  refine ⟨hs.close (by simp [hh]), ?_⟩
  have hallowed : Allowed s.log (.closed s.globFile) := ⟨h, hh, hlive⟩
  exact disciplined_append.trans (and_iff_left hallowed)

theorem keeps_use (hs : s.Inv) (hpath : s.globFilePath.isSome) (op : FileOp) :
    Keeps s (s.use op) := by
  obtain ⟨h, hh, hlive⟩ := hs.live hpath
  have hallowed : Allowed s.log (.used op s.globFile) := ⟨h, hh, hlive⟩
  refine ⟨⟨?_, ?_, ?_, ?_⟩, disciplined_append.trans (and_iff_left hallowed)⟩
  · have hpathOpen := hs.pathOpen
    simpa only [PathOpen, use, live_append_used] using hpathOpen
  · intro h' hh'
    exact List.mem_append_left _ (hs.known h' hh')
  · intro h' hmem
    exact hs.openedBefore h' (by simpa [use] using hmem)
  · intro h' hmem
    exact hs.closedBefore h' (by simpa [use] using hmem)

theorem keeps_fopen (hs : s.Inv) (name : CName) (writing : Bool) :
    Keeps s (s.fopen name writing) := by
  have hopened : .opened ⟨s.opened, writing⟩ ∉ s.log :=
    fun hmem ↦ (hs.openedBefore _ hmem).false
  have hclosed : .closed (some ⟨s.opened, writing⟩) ∉ s.log :=
    fun hmem ↦ (hs.closedBefore _ hmem).false
  have hallowed : Allowed s.log (.opened ⟨s.opened, writing⟩) := ⟨hopened, hclosed⟩
  refine ⟨⟨?_, ?_, ?_, ?_⟩, disciplined_append.trans (and_iff_left hallowed)⟩
  · exact iff_of_true rfl ⟨_, rfl, live_append_opened hclosed⟩
  · intro h hh
    obtain rfl := Option.some.inj hh
    exact List.mem_append_right _ (List.mem_singleton_self _)
  · intro h hmem
    rcases List.mem_append.mp hmem with hmem | hmem
    · exact Nat.lt_succ_of_lt (hs.openedBefore h hmem)
    · obtain rfl : h = ⟨s.opened, writing⟩ := by simpa using hmem
      exact Nat.lt_succ_self _
  · intro h hmem
    have hmem : .closed (some h) ∈ s.log := by simpa [fopen] using hmem
    exact Nat.lt_succ_of_lt (hs.closedBefore h hmem)

/-- `fopen` has failed. -/
theorem keeps_forget (hs : s.Inv) :
    Keeps s { s with globFilePath := none, globFile := none } := by
  refine ⟨⟨?_, ?_, hs.openedBefore, hs.closedBefore⟩, Iff.rfl⟩
  · simp [PathOpen]
  · simp

/-! ## The calls -/

theorem keeps_closeMissed (hs : s.Inv) (name : CName) (writing : Bool) :
    Keeps s (s.closeMissed name writing) := by
  rw [closeMissed]
  split_ifs with hmiss
  · apply keeps_close hs
    cases hpath : s.globFilePath with
    | none => simp [misses, hpath] at hmiss
    | some path => rfl
  · exact .refl hs

theorem keeps_openStream (hs : s.Inv) (name : CName) (writing : Bool) (E : AccessEnv) :
    Keeps s (s.openStream name writing E).2 ∧
      ((s.openStream name writing E).1 = none →
        (s.openStream name writing E).2.globFilePath.isSome) := by
  rw [openStream]
  split_ifs with hpath hasprintf hfopen
  · exact ⟨.refl hs, fun _ ↦ hpath⟩
  · exact ⟨.refl hs, fun h ↦ by simp at h⟩
  · exact ⟨keeps_forget hs, fun h ↦ by simp at h⟩
  · exact ⟨keeps_fopen hs name writing, fun _ ↦ rfl⟩

theorem keeps_seek (hs : s.Inv) (hpath : s.globFilePath.isSome) (offset : UInt32) :
    Keeps s (if offset ≠ noSeek then s.use .fseek else s) ∧
      (if offset ≠ noSeek then s.use .fseek else s).globFilePath.isSome := by
  split_ifs
  · exact ⟨keeps_use hs hpath .fseek, hpath⟩
  · exact ⟨.refl hs, hpath⟩

theorem keeps_transfer (hs : s.Inv) (hpath : s.globFilePath.isSome) (mode : Mode)
    (offset : UInt32) (lastChunk : Bool) (E : AccessEnv) :
    Keeps s (s.transfer mode offset lastChunk E).2 := by
  obtain ⟨hseek, hpath⟩ := keeps_seek hs hpath offset
  rw [transfer]
  generalize (if offset ≠ noSeek then s.use .fseek else s) = t at hseek hpath ⊢
  have huse := keeps_use hseek.inv hpath mode.op
  have hclose := keeps_close huse.inv hpath
  split_ifs with hfailed hincomplete
  · exact hseek.trans (keeps_close hseek.inv hpath)
  · exact hseek.trans (huse.trans hclose)
  · exact hseek.trans (huse.trans hclose)
  · exact hseek.trans huse

theorem keeps_access (hs : s.Inv) (name : Option CName) (mode : Mode) (offset cnt : UInt32)
    (lastChunk : Bool) (E : AccessEnv) :
    Keeps s (s.access name mode offset cnt lastChunk E).2 := by
  cases name with
  | none => exact .refl hs
  | some name =>
      have hmissed := keeps_closeMissed hs name mode.writing
      obtain ⟨hopen, hpath⟩ := keeps_openStream hmissed.inv name mode.writing E
      simp only [access]
      split_ifs with hcnt
      · exact .refl hs
      · split <;> rename_i heq <;> rw [heq] at hopen hpath
        · exact hmissed.trans hopen
        · exact hmissed.trans (hopen.trans
            (keeps_transfer hopen.inv (hpath rfl) mode offset lastChunk E))

/-- The two variables agree when `datastorage_clear_chunked_file_cache` is
called: a stream is cached, or `globFile` is still or again `NULL`. -/
def ClearsOpen (s : ChunkCache) : Call → Prop
  | .clear => s.globFilePath.isSome ∨ s.globFile = none
  | _ => True

theorem inv_clear (hs : s.Inv) : s.clear.2.Inv := by
  simp only [clear]
  split_ifs with hfile
  · exact hs.close hfile
  · have hnone : s.globFile = none := by simpa using hfile
    refine ⟨?_, hs.known, hs.openedBefore, hs.closedBefore⟩
    simp [PathOpen, hnone]

/-- Without a path the stream that is closed has been closed before. -/
theorem disciplined_clear (hs : s.Inv) :
    Disciplined s.clear.2.log ↔ Disciplined s.log ∧ s.ClearsOpen .clear := by
  simp only [clear]
  split_ifs with hfile
  · have hallowed : Allowed s.log (.closed s.globFile) ↔ s.ClearsOpen .clear := by
      have hsome : s.globFile ≠ none := Option.isSome_iff_ne_none.mp hfile
      have hopen : s.globFilePath.isSome ↔ Allowed s.log (.closed s.globFile) := hs.pathOpen
      rw [ClearsOpen, or_iff_left hsome, hopen]
    exact disciplined_append.trans (and_congr_right fun _ ↦ hallowed)
  · have hnone : s.globFile = none := by simpa using hfile
    exact (and_iff_left (.inr hnone)).symm

theorem inv_step (hs : s.Inv) (call : Call) : (s.step call).Inv := by
  cases call with
  | write name offset cnt lastChunk E => exact (keeps_access hs name writeMode offset cnt lastChunk E).inv
  | read name offset cnt E => exact (keeps_access hs name readMode offset cnt false E).inv
  | clear => exact inv_clear hs

theorem disciplined_step (hs : s.Inv) (call : Call) :
    Disciplined (s.step call).log ↔ Disciplined s.log ∧ s.ClearsOpen call := by
  cases call with
  | write name offset cnt lastChunk E =>
      exact (keeps_access hs name writeMode offset cnt lastChunk E).disciplined.trans
        (and_iff_left trivial).symm
  | read name offset cnt E =>
      exact (keeps_access hs name readMode offset cnt false E).disciplined.trans
        (and_iff_left trivial).symm
  | clear => exact disciplined_clear hs

/-! ## Whole runs -/

/-- Over the whole run every handle is closed at most once and used only
while it is open, and the path is set exactly while the stream is open. -/
structure HandlesKept (calls : List Call) : Prop where
  disciplined : Disciplined (calls.foldl step init).log
  pathOpen : ∀ pre, pre <+: calls → (pre.foldl step init).PathOpen

/-- The handles are in order exactly when every call to clear the cache finds
a cached stream or no stream at all. -/
theorem handlesKept_iff (calls : List Call) :
    HandlesKept calls ↔ Always step ClearsOpen init calls := by
  have hdisciplined : Disciplined (calls.foldl step init).log ↔ Always step ClearsOpen init calls :=
    holds_iff (fun s ↦ Disciplined s.log) Inv (fun s call hs ↦ inv_step hs call)
      (fun s call hs ↦ disciplined_step hs call) inv_init disciplined_nil
  refine ⟨fun h ↦ hdisciplined.mp h.disciplined, fun h ↦ ⟨hdisciplined.mpr h, fun pre _ ↦ ?_⟩⟩
  exact (invariant_of_step Inv (fun s call hs ↦ inv_step hs call) inv_init pre).pathOpen

/-- A file written in one chunk, and the cache cleared afterwards. -/
def clearedRun : List Call :=
  [.write (some [0x61]) noSeek 1 true ⟨true, true, true, true⟩, .clear]

/-- The stream is closed by the last chunk and again by the clearing. -/
theorem not_handlesKept_clearedRun : ¬HandlesKept clearedRun := by
  intro h
  have honce := h.disciplined.closed_once ⟨0, true⟩
  revert honce
  decide

/-! ## The cache of the partition -/

/-- The cached path and stream are the cache of the partition. -/
structure Shows (s : ChunkCache) (cache : Option Cache) : Prop where
  path : s.globFilePath = cache.map fun c ↦ filePath c.name
  mode : ∀ c, cache = some c → ∃ h, s.globFile = some h ∧ h.writing = c.writing

variable {cache : Option Cache} {c : Cache} {p : Partition}

theorem shows_none_iff : Shows s none ↔ s.globFilePath = none :=
  ⟨fun h ↦ h.path, fun h ↦ ⟨h, fun _ hc ↦ by simp at hc⟩⟩

theorem shows_close (s : ChunkCache) : Shows s.close none := shows_none_iff.mpr rfl

theorem shows_fopen (s : ChunkCache) (name : CName) (writing : Bool) :
    Shows (s.fopen name writing) (some ⟨name, writing, 0⟩) := by
  refine ⟨rfl, fun c hc ↦ ⟨_, rfl, ?_⟩⟩
  obtain rfl := Option.some.inj hc
  rfl

theorem Shows.use (h : Shows s cache) (op : FileOp) : Shows (s.use op) cache := ⟨h.path, h.mode⟩

theorem Shows.move (h : Shows s (some c)) (pos : ℕ) : Shows s (some { c with pos := pos }) := by
  refine ⟨h.path, fun c' hc' ↦ ?_⟩
  obtain rfl := Option.some.inj hc'
  exact h.mode c rfl

theorem Shows.closeMissed (h : Shows s p.cache) (name : CName) (writing : Bool) :
    Shows (s.closeMissed name writing) (p.taken name writing) := by
  cases hcache : p.cache with
  | none =>
      have hpath : s.globFilePath = none := by simpa [hcache] using h.path
      simp only [ChunkCache.closeMissed, misses, hpath, Partition.taken, hcache]
      exact shows_none_iff.mpr hpath
  | some c =>
      obtain ⟨handle, hfile, hmode⟩ := h.mode c hcache
      by_cases hhit : name <:+: filePath c.name ∧ c.writing = writing
      · have htaken : p.taken name writing = some c := by
          simp [Partition.taken, hcache, Option.filter, hhit]
        have hmiss : s.misses name writing = false := by
          simp [misses, h.path, hcache, hfile, hmode, hhit]
        rw [htaken, ChunkCache.closeMissed, hmiss, ← hcache]
        exact h
      · have htaken : p.taken name writing = none := by
          simpa [Partition.taken, hcache, Option.filter] using hhit
        have hmiss : s.misses name writing = true := by
          have hwriting : name <:+: filePath c.name → c.writing ≠ writing :=
            fun hcontains heq ↦ hhit ⟨hcontains, heq⟩
          simpa [misses, h.path, hcache, hfile, hmode, imp_iff_not_or] using hwriting
        rw [htaken, ChunkCache.closeMissed, hmiss]
        exact shows_close s

theorem Shows.openStream_cached (h : Shows s (some c)) (name : CName) (writing : Bool)
    (E : AccessEnv) : s.openStream name writing E = (none, s) := by
  have hpath : s.globFilePath.isSome := by simp [h.path]
  rw [openStream, if_pos hpath]

/-- Nothing but a negative offset and the end of the file makes an access fail. -/
def idealEnv (fopen complete : Bool) (offset : UInt32) : AccessEnv :=
  ⟨true, fopen, !seekFails offset, complete⟩

theorem Shows.openStream_missing (h : Shows s none) (name : CName) (writing : Bool)
    (fopen complete : Bool) (offset : UInt32) :
    s.openStream name writing (idealEnv fopen complete offset) =
      if fopen then (none, s.fopen name writing)
      else (some .errFileOpen, { s with globFilePath := none, globFile := none }) := by
  have hpath : ¬s.globFilePath.isSome := by simp [h.path]
  rw [openStream, if_neg hpath]
  cases fopen <;> simp [idealEnv]

theorem Shows.transfer (h : Shows s (some c)) (mode : Mode) (offset : UInt32) (lastChunk : Bool)
    (fopen complete : Bool) (pos : ℕ) :
    Shows (s.transfer mode offset lastChunk (idealEnv fopen complete offset)).2
      (if seekFails offset || !complete || lastChunk then none else some { c with pos := pos }) := by
  have hfailed : offset ≠ noSeek ∧ (idealEnv fopen complete offset).fseek = false ↔
      seekFails offset = true := by
    simp [idealEnv, seekFails]
  have hseek : Shows (if offset ≠ noSeek then s.use .fseek else s) (some c) := by
    split_ifs
    · exact h.use .fseek
    · exact h
  simp only [ChunkCache.transfer, hfailed]
  generalize (if offset ≠ noSeek then s.use .fseek else s) = t at hseek ⊢
  cases hneg : seekFails offset with
  | true => exact shows_close t
  | false =>
      cases complete with
      | false => exact shows_close _
      | true =>
          cases lastChunk with
          | true => exact shows_close _
          | false => exact (hseek.use mode.op).move pos

theorem Shows.openForWrite (h : Shows s p.cache) (name : CName) (offset : UInt32) :
    ∃ t, (s.closeMissed name true).openStream name true (idealEnv true true offset) = (none, t) ∧
      Shows t (some (p.openForWrite name).2) := by
  have hmissed := h.closeMissed name true
  rw [Partition.openForWrite]
  cases htaken : p.taken name true with
  | none =>
      rw [htaken] at hmissed
      exact ⟨_, hmissed.openStream_missing name true true true offset, shows_fopen _ name true⟩
  | some c =>
      rw [htaken] at hmissed
      exact ⟨_, hmissed.openStream_cached name true _, hmissed⟩

/-- A chunked write keeps path and stream in step with the cache of the
partition. -/
theorem Shows.writeChunked (h : Shows s p.cache) (name : Option CName) (offset : UInt32)
    {data : Bytes} {cnt : UInt32} (hcnt : cnt.toNat = data.length) (lastChunk : Bool) :
    Shows (s.writeChunked name offset cnt lastChunk (idealEnv true true offset)).2
      (p.writeChunked name offset data lastChunk).2.cache := by
  cases name with
  | none => exact h
  | some name =>
      have hempty : cnt = 0 ↔ data = [] := by
        rw [← UInt32.toNat_inj, hcnt]
        exact List.length_eq_zero_iff
      obtain ⟨t, hopen, ht⟩ := h.openForWrite name offset
      have htransfer := ht.transfer writeMode offset lastChunk true true
        (seekPos (p.openForWrite name).2.pos offset + data.length)
      simp only [ChunkCache.writeChunked, access, Partition.writeChunked, hempty]
      split_ifs with hdata hneg hlast
      · exact h
      · simpa [writeMode, hopen, hneg] using htransfer
      · simpa [writeMode, hopen, hneg, hlast] using htransfer
      · simpa [writeMode, hopen, hneg, hlast] using htransfer

theorem Shows.openForRead_some (h : Shows s p.cache) (name : CName) (complete : Bool)
    (offset : UInt32) (hopen : p.openForRead name = some c) :
    ∃ t, (s.closeMissed name false).openStream name false
        (idealEnv (p.disk name).isSome complete offset) = (none, t) ∧ Shows t (some c) := by
  have hmissed := h.closeMissed name false
  rw [Partition.openForRead] at hopen
  cases htaken : p.taken name false with
  | none =>
      rw [htaken] at hmissed hopen
      obtain ⟨content, hdisk, rfl⟩ := Option.map_eq_some_iff.mp hopen
      have hstream := hmissed.openStream_missing name false (p.disk name).isSome complete offset
      rw [hdisk, Option.isSome_some, if_pos rfl] at hstream
      rw [hdisk]
      exact ⟨_, hstream, shows_fopen _ name false⟩
  | some c' =>
      rw [htaken] at hmissed hopen
      obtain rfl := Option.some.inj hopen
      exact ⟨_, hmissed.openStream_cached name false _, hmissed⟩

theorem Shows.openForRead_none (h : Shows s p.cache) (name : CName) (complete : Bool)
    (offset : UInt32) (hopen : p.openForRead name = none) :
    ∃ rc t, (s.closeMissed name false).openStream name false
        (idealEnv (p.disk name).isSome complete offset) = (some rc, t) ∧ Shows t none := by
  have hmissed := h.closeMissed name false
  rw [Partition.openForRead] at hopen
  cases htaken : p.taken name false with
  | none =>
      rw [htaken] at hmissed hopen
      have hdisk : p.disk name = none := by simpa using hopen
      have hstream := hmissed.openStream_missing name false (p.disk name).isSome complete offset
      rw [hdisk, Option.isSome_none, if_neg Bool.false_ne_true] at hstream
      rw [hdisk]
      exact ⟨_, _, hstream, shows_none_iff.mpr rfl⟩
  | some c' => simp [htaken] at hopen

/-- So does a chunked read, whose file opens if it is there. -/
theorem Shows.readChunked (h : Shows s p.cache) (name : Option CName) (offset cnt : UInt32) :
    Shows (s.readChunked name offset cnt (idealEnv (name.any fun n ↦ (p.disk n).isSome)
        ((p.readChunked name offset cnt.toNat).2.1.length = cnt.toNat) offset)).2
      (p.readChunked name offset cnt.toNat).2.2.cache := by
  cases name with
  | none => exact h
  | some name =>
      have hempty : cnt = 0 ↔ cnt.toNat = 0 := by
        rw [← UInt32.toNat_inj]
        rfl
      by_cases hcnt : cnt.toNat = 0
      · simpa [ChunkCache.readChunked, access, Partition.readChunked, hempty, hcnt] using h
      simp only [ChunkCache.readChunked, access, Partition.readChunked, hempty, hcnt, if_false,
        Option.any_some]
      cases hread : p.openForRead name with
      | none =>
          obtain ⟨rc, t, hopen, ht⟩ :=
            h.openForRead_none name (decide (0 = cnt.toNat)) offset hread
          simpa [readMode, hopen] using ht
      | some c =>
          cases hneg : seekFails offset with
          | true =>
              obtain ⟨t, hopen, ht⟩ :=
                h.openForRead_some name (decide (0 = cnt.toNat)) offset hread
              have htransfer := ht.transfer readMode offset false (p.disk name).isSome
                (decide (0 = cnt.toNat)) 0
              simpa [readMode, hopen, hneg] using htransfer
          | false =>
              let bytes := (((p.disk c.name).getD []).drop (seekPos c.pos offset)).take cnt.toNat
              obtain ⟨t, hopen, ht⟩ :=
                h.openForRead_some name (decide (bytes.length = cnt.toNat)) offset hread
              have htransfer := ht.transfer readMode offset false (p.disk name).isSome
                (decide (bytes.length = cnt.toNat)) (seekPos c.pos offset + cnt.toNat)
              simp only [if_false, Bool.false_eq_true]
              change Shows (match (s.closeMissed name false).openStream name false
                (idealEnv (p.disk name).isSome (decide (bytes.length = cnt.toNat)) offset) with
                | (some rc, s) => (rc, s)
                | (none, s) => s.transfer readMode offset false
                    (idealEnv (p.disk name).isSome (decide (bytes.length = cnt.toNat)) offset)).2
                  (if bytes.length = cnt.toNat then some { c with pos := _ } else none)
              rw [hopen]
              by_cases hcomplete : bytes.length = cnt.toNat
              · simpa [hcomplete, hneg] using htransfer
              · simpa [hcomplete, hneg] using htransfer

end ChunkCache

end AnkerUpdater.Storage
