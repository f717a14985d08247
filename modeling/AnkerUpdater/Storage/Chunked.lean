import AnkerUpdater.Lib.Runs
import AnkerUpdater.Storage.Datastorage

/-!
# Files in chunks

The chunked reads and writes share one path and one stream, `globFilePath`
and `globFile`.  A call takes them over when the path contains its name and
the stream has its mode, and starts the file anew otherwise.
-/

namespace AnkerUpdater.Storage

open Runs

/-- A file name as a C string; the path of the file is `/` before it, and
different names name different files. -/
abbrev CName := List UInt8

def filePath (name : CName) : List UInt8 := 0x2f :: name

inductive ChunkedRc where
  | ok
  | errGeneral
  | errFileOpen
  | errFileWrite
  | errFileRead
  deriving DecidableEq, Repr

/-- `globFilePath` and `globFile`, opened with "wb" or with "rb". -/
structure Cache where
  name : CName
  writing : Bool
  pos : ℕ
  deriving DecidableEq

structure Partition where
  disk : CName → Option Bytes
  cache : Option Cache

/-- `0xFFFFFFFF`: no `fseek`. -/
def noSeek : UInt32 := 0xFFFFFFFF

/-- `fseek` takes the offset as a `long` of 32 bits and refuses negative ones. -/
def seekFails (offset : UInt32) : Bool := offset ≠ noSeek && 2 ^ 31 ≤ offset.toNat

def seekPos (pos : ℕ) (offset : UInt32) : ℕ := if offset = noSeek then pos else offset.toNat

/-- What `fwrite` makes of a file; a gap before the position is zero. -/
def putAt (content : Bytes) (pos : ℕ) (data : Bytes) : Bytes :=
  content.take pos ++ List.replicate (pos - content.length) 0 ++ data ++
    content.drop (pos + data.length)

namespace Partition

/-- The cache that a call for `name` takes over. -/
def taken (s : Partition) (name : CName) (writing : Bool) : Option Cache :=
  s.cache.filter fun c ↦ name <:+: filePath c.name && c.writing = writing

/-- The file is opened if no cache is taken over; "wb" empties it. -/
def openForWrite (s : Partition) (name : CName) : Partition × Cache :=
  match s.taken name true with
  | some c => (s, c)
  | none => ({ s with disk := Function.update s.disk name (some []) }, ⟨name, true, 0⟩)

/-- `datastorage_write_chunked_binary_data_to_file_in_partition`; `data` are
the `*cnt` bytes. -/
def writeChunked (s : Partition) (name : Option CName) (offset : UInt32) (data : Bytes)
    (lastChunk : Bool) : ChunkedRc × Partition :=
  match name with
  | none => (.errGeneral, s)
  | some name =>
      if data = [] then (.errGeneral, s)
      else
        let (s, c) := s.openForWrite name
        if seekFails offset then (.errFileWrite, { s with cache := none })
        else
          let pos := seekPos c.pos offset
          let disk := Function.update s.disk c.name (some (putAt ((s.disk c.name).getD []) pos data))
          (.ok, ⟨disk, if lastChunk then none else some { c with pos := pos + data.length }⟩)

/-- The stream of a read, if the file can be opened. -/
def openForRead (s : Partition) (name : CName) : Option Cache :=
  match s.taken name false with
  | some c => some c
  | none => (s.disk name).map fun _ ↦ ⟨name, false, 0⟩

/-- `datastorage_read_chunked_binary_data_from_file_in_partition` for `cnt`
bytes, with the bytes read. -/
def readChunked (s : Partition) (name : Option CName) (offset : UInt32) (cnt : ℕ) :
    ChunkedRc × Bytes × Partition :=
  match name with
  | none => (.errGeneral, [], s)
  | some name =>
      if cnt = 0 then (.errGeneral, [], s)
      else
        match s.openForRead name with
        | none => (.errFileOpen, [], { s with cache := none })
        | some c =>
            if seekFails offset then (.errFileRead, [], { s with cache := none })
            else
              let pos := seekPos c.pos offset
              let bytes := (((s.disk c.name).getD []).drop pos).take cnt
              (.ok, bytes, { s with
                cache := if bytes.length = cnt then some { c with pos := pos + cnt } else none })

end Partition

/-! ## What the writes promise -/

structure Chunk where
  offset : UInt32
  data : Bytes
  deriving DecidableEq

/-- The chunk at its offset, or at the end. -/
def Chunk.place (content : Bytes) (chunk : Chunk) : Bytes :=
  putAt content (seekPos content.length chunk.offset) chunk.data

def placed (chunks : List Chunk) : Bytes := chunks.foldl Chunk.place []

inductive ChunkedCall where
  | write (name : Option CName) (offset : UInt32) (data : Bytes) (lastChunk : Bool)
  | read (name : Option CName) (offset : UInt32) (cnt : ℕ)

/-- The partition, and the chunks written under every name since its first
chunk. -/
structure Chunks where
  partition : Partition
  written : CName → List Chunk

namespace Chunks

def step (x : Chunks) : ChunkedCall → Chunks
  | .write none _ _ _ => x
  | .write (some name) offset data lastChunk =>
      let result := x.partition.writeChunked (some name) offset data lastChunk
      { partition := result.2
        written := Function.update x.written name (
          if result.1 ≠ .ok then x.written name
          else if lastChunk then []
          else x.written name ++ [⟨offset, data⟩]) }
  | .read name offset cnt =>
      { x with partition := (x.partition.readChunked name offset cnt).2.2 }

/-- A write changes no other file, and the last chunk makes the file what
its chunks say. -/
def Right (x : Chunks) : ChunkedCall → Prop
  | .write (some name) offset data lastChunk =>
      (lastChunk = true →
        (x.partition.writeChunked (some name) offset data lastChunk).1 = .ok →
        (x.partition.writeChunked (some name) offset data lastChunk).2.disk name =
          some (placed (x.written name ++ [⟨offset, data⟩]))) ∧
      ∀ other ≠ name, (x.partition.writeChunked (some name) offset data lastChunk).2.disk other =
        x.partition.disk other
  | call => (x.step call).partition.disk = x.partition.disk

/-- If the write comes to its `fwrite`: a stream that is open for writing
and whose path contains the name is the one of the name, and stands at the
end of the file when the chunk has no offset; and there is such a stream if
chunks were written under the name. -/
def OwnStream (x : Chunks) : ChunkedCall → Prop
  | .write (some name) offset data _ => data ≠ [] → seekFails offset = false →
      (∀ c ∈ x.partition.taken name true, c.name = name ∧
        (offset = noSeek → some c.pos = (x.partition.disk name).map List.length)) ∧
      (x.written name ≠ [] → (x.partition.taken name true).isSome = true)
  | _ => True

instance (x : Chunks) : (call : ChunkedCall) → Decidable (x.OwnStream call)
  | .write (some name) offset data _ =>
      inferInstanceAs (Decidable (data ≠ [] → seekFails offset = false →
        (∀ c ∈ x.partition.taken name true, c.name = name ∧
          (offset = noSeek → some c.pos = (x.partition.disk name).map List.length)) ∧
        (x.written name ≠ [] → (x.partition.taken name true).isSome = true)))
  | .write none _ _ _ | .read _ _ _ => .isTrue trivial

/-! ## Chunks end up in their files -/

/-- A file that is open for writing holds its chunks. -/
def Holds (x : Chunks) : Prop := ∀ c ∈ x.partition.cache, c.writing = true →
  x.partition.disk c.name = some (placed (x.written c.name))

theorem placed_concat (chunks : List Chunk) (chunk : Chunk) :
    placed (chunks ++ [chunk]) = chunk.place (placed chunks) := by
  rw [placed, List.foldl_append]
  rfl

theorem taken_mem {s : Partition} {name : CName} {writing : Bool} {c : Cache}
    (h : s.taken name writing = some c) : s.cache = some c ∧ c.writing = writing := by
  obtain ⟨hcache, htest⟩ := Option.filter_eq_some_iff.mp h
  simp only [Bool.and_eq_true, decide_eq_true_eq] at htest
  exact ⟨hcache, htest.2⟩

variable {x : Chunks} {name : CName} {offset : UInt32} {data : Bytes} {lastChunk : Bool}

/-- What a write on its own stream writes to. -/
theorem OwnStream.opened (hx : x.Holds) (h : x.OwnStream (.write (some name) offset data lastChunk))
    (hdata : data ≠ []) (hseek : seekFails offset = false) :
    (x.partition.openForWrite name).2.name = name ∧
      (x.partition.openForWrite name).2.writing = true ∧
      (x.partition.openForWrite name).1.disk name = some (placed (x.written name)) ∧
      seekPos (x.partition.openForWrite name).2.pos offset =
        seekPos (placed (x.written name)).length offset ∧
      ∀ other ≠ name, (x.partition.openForWrite name).1.disk other = x.partition.disk other := by
  obtain ⟨hown, hopen⟩ := h hdata hseek
  rw [Partition.openForWrite]
  cases htaken : x.partition.taken name true with
  | some c =>
      obtain ⟨hcache, hwriting⟩ := taken_mem htaken
      obtain ⟨rfl, hpos⟩ := hown c htaken
      have hdisk := hx c hcache hwriting
      refine ⟨rfl, hwriting, hdisk, ?_, fun _ _ ↦ rfl⟩
      unfold seekPos
      split_ifs with hend
      · rw [hdisk] at hpos
        exact Option.some.inj (hpos hend)
      · rfl
  | none =>
      have hnone : x.written name = [] := by
        by_contra hne
        simpa [htaken] using hopen hne
      rw [hnone]
      refine ⟨rfl, rfl, Function.update_self .., rfl, fun other hother ↦ ?_⟩
      exact Function.update_of_ne hother _ _

theorem writeChunked_ok (hdata : data ≠ []) (hseek : seekFails offset = false) :
    x.partition.writeChunked (some name) offset data lastChunk =
      let o := x.partition.openForWrite name
      let pos := seekPos o.2.pos offset
      (.ok, ⟨Function.update o.1.disk o.2.name
          (some (putAt ((o.1.disk o.2.name).getD []) pos data)),
        if lastChunk then none else some { o.2 with pos := pos + data.length }⟩) := by
  simp [Partition.writeChunked, hdata, hseek]

/-- A write on its own stream places its chunk and changes nothing else. -/
theorem OwnStream.write (hx : x.Holds) (h : x.OwnStream (.write (some name) offset data lastChunk))
    (hdata : data ≠ []) (hseek : seekFails offset = false) : ∃ pos,
    x.partition.writeChunked (some name) offset data lastChunk =
      (.ok, ⟨Function.update x.partition.disk name
          (some (placed (x.written name ++ [⟨offset, data⟩]))),
        if lastChunk then none else some ⟨name, true, pos⟩⟩) := by
  obtain ⟨hname, hwriting, hdisk, hpos, hothers⟩ := h.opened hx hdata hseek
  refine ⟨seekPos (x.partition.openForWrite name).2.pos offset + data.length, ?_⟩
  have hupdate : ∀ content, Function.update (x.partition.openForWrite name).1.disk name content =
      Function.update x.partition.disk name content := by
    intro content
    funext other
    by_cases hother : other = name
    · rw [hother, Function.update_self, Function.update_self]
    · rw [Function.update_of_ne hother, Function.update_of_ne hother, hothers other hother]
  rw [writeChunked_ok hdata hseek, placed_concat]
  simp only [hname, hupdate, hdisk, hwriting, hpos, Option.getD_some]
  rfl

/-- A write that is refused by `fseek` leaves no stream and touches its own
file at most. -/
theorem writeChunked_refused (x : Chunks) (name : CName) (lastChunk : Bool) (hdata : data ≠ [])
    (hseek : seekFails offset = true) :
    (x.partition.writeChunked (some name) offset data lastChunk).1 = .errFileWrite ∧
      (x.partition.writeChunked (some name) offset data lastChunk).2.cache = none ∧
      ∀ other ≠ name, (x.partition.writeChunked (some name) offset data lastChunk).2.disk other =
        x.partition.disk other := by
  have hrefused : x.partition.writeChunked (some name) offset data lastChunk =
      (.errFileWrite, { (x.partition.openForWrite name).1 with cache := none }) := by
    simp [Partition.writeChunked, hdata, hseek]
  rw [hrefused]
  refine ⟨rfl, rfl, fun other hother ↦ ?_⟩
  rw [Partition.openForWrite]
  cases x.partition.taken name true with
  | some c => rfl
  | none => exact Function.update_of_ne hother _ _

/-- A read changes no file, and leaves the stream as it is or no stream that
is open for writing. -/
theorem readChunked_frame (s : Partition) (name : Option CName) (offset : UInt32) (cnt : ℕ) :
    (s.readChunked name offset cnt).2.2.disk = s.disk ∧
      ∀ c ∈ (s.readChunked name offset cnt).2.2.cache, c.writing = true → s.cache = some c := by
  unfold Partition.readChunked
  cases name with
  | none => exact ⟨rfl, fun c hc _ ↦ hc⟩
  | some name =>
      by_cases hcnt : cnt = 0
      · simp only [if_pos hcnt]
        exact ⟨trivial, fun c hc _ ↦ hc⟩
      simp only [if_neg hcnt]
      cases hopen : s.openForRead name with
      | none => exact ⟨rfl, fun c hc ↦ by cases hc⟩
      | some c =>
          have hreading : c.writing = false := by
            rw [Partition.openForRead] at hopen
            cases htaken : s.taken name false with
            | some c' =>
                rw [htaken] at hopen
                exact Option.some.inj hopen ▸ (taken_mem htaken).2
            | none =>
                rw [htaken] at hopen
                obtain ⟨content, -, rfl⟩ := Option.map_eq_some_iff.mp hopen
                rfl
          by_cases hseek : seekFails offset = true
          · simp only [if_pos hseek]
            exact ⟨trivial, fun c hc ↦ by cases hc⟩
          · simp only [if_neg hseek]
            refine ⟨trivial, fun c' hc' hwriting ↦ ?_⟩
            split_ifs at hc' with hfull
            · cases hc'
              rw [hreading] at hwriting
              cases hwriting
            · cases hc'

theorem Holds.step (hx : x.Holds) {call : ChunkedCall} (h : x.OwnStream call) :
    (x.step call).Holds := by
  cases call with
  | read name offset cnt =>
      obtain ⟨hdisk, hcache⟩ := readChunked_frame x.partition name offset cnt
      intro c hc hwriting
      exact (congrFun hdisk c.name).trans (hx c (hcache c hc hwriting) hwriting)
  | write name offset data lastChunk =>
      cases name with
      | none => exact hx
      | some name =>
          by_cases hdata : data = []
          · have hsame : x.step (.write (some name) offset data lastChunk) = x := by
              simp [Chunks.step, Partition.writeChunked, hdata]
            rwa [hsame]
          cases hseek : seekFails offset with
          | true =>
              obtain ⟨-, hcache, -⟩ := writeChunked_refused x name lastChunk hdata hseek
              intro c hc
              rw [Chunks.step, hcache] at hc
              cases hc
          | false =>
              obtain ⟨pos, hwrite⟩ := h.write hx hdata hseek
              intro c hc hwriting
              simp only [Chunks.step, hwrite] at hc ⊢
              cases lastChunk with
              | true => cases hc
              | false =>
                  cases hc
                  simp

theorem Holds.right (hx : x.Holds) {call : ChunkedCall} (h : x.OwnStream call) : x.Right call := by
  cases call with
  | read name offset cnt => exact (readChunked_frame x.partition name offset cnt).1
  | write name offset data lastChunk =>
      cases name with
      | none => rfl
      | some name =>
          by_cases hdata : data = []
          · simp [Right, Partition.writeChunked, hdata]
          cases hseek : seekFails offset with
          | true =>
              obtain ⟨hrc, -, hothers⟩ := writeChunked_refused x name lastChunk hdata hseek
              refine ⟨fun _ hok ↦ ?_, hothers⟩
              rw [hrc] at hok
              cases hok
          | false =>
              obtain ⟨pos, hwrite⟩ := h.write hx hdata hseek
              simp only [Right, hwrite]
              exact ⟨fun _ _ ↦ Function.update_self .., fun other hother ↦
                Function.update_of_ne hother _ _⟩

def start (disk : CName → Option Bytes) : Chunks := ⟨⟨disk, none⟩, fun _ ↦ []⟩

end Chunks

/-- Chunks end up in the right file, complete, in every sequence of calls
whose writes find their own stream. -/
theorem chunks_right (disk : CName → Option Bytes) (calls : List ChunkedCall)
    (h : Always Chunks.step Chunks.OwnStream (Chunks.start disk) calls) :
    Always Chunks.step Chunks.Right (Chunks.start disk) calls :=
  always_of_invariant Chunks.Holds (fun _ _ hx hown ↦ hx.step hown)
    (fun _ _ hx hown ↦ hx.right hown) (fun _ hc ↦ by cases hc) h

/-- The first chunk under one name, and the second and last one under another. -/
def oneThenLast (first last : CName) : List ChunkedCall :=
  [.write (some first) noSeek [1] false, .write (some last) noSeek [2] true]

theorem chunks_right_oneFile :
    Always Chunks.step Chunks.OwnStream (Chunks.start fun _ ↦ none) (oneThenLast [97] [97]) ∧
      ((oneThenLast [97] [97]).foldl Chunks.step (Chunks.start fun _ ↦ none)).partition.disk [97] =
        some [1, 2] :=
  ⟨by decide, (chunks_right (fun _ ↦ none) (oneThenLast [97] [97]) (by decide)
    [.write (some [97]) noSeek [1] false] (.write (some [97]) noSeek [2] true) [] rfl).1 rfl rfl⟩

/-- The path of the file "ab" contains the name "a". -/
theorem not_chunks_right_contained : ¬∀ (disk : CName → Option Bytes) (calls : List ChunkedCall),
    Always Chunks.step Chunks.Right (Chunks.start disk) calls := by
  intro h
  have hlast := (h (fun _ ↦ none) (oneThenLast [97, 98] [97])
    [.write (some [97, 98]) noSeek [1] false] (.write (some [97]) noSeek [2] true) [] rfl).1 rfl rfl
  exact absurd hlast (by decide)

end AnkerUpdater.Storage
