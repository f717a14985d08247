import AnkerUpdater.Hawkbit.Client
import AnkerUpdater.Lib.Json
import AnkerUpdater.Lib.Runs

/-!
# The replies of the server

`json_parse_actions_to_do`, `json_parse_artifact` and
`json_parse_deployment` on the value that `cJSON_Parse` delivers, with the
character arrays they fill.
-/

namespace AnkerUpdater.Hawkbit

open CText

def maxUrlSize : ℕ := 137

def versionSize : ℕ := 24

def hashSize : ℕ := 40

inductive ParseRc where
  | ok
  | errJsonParsing
  deriving DecidableEq, Repr

/-- An access that the C language does not define. -/
inductive Fault where
  | missingMember
  | readOutside
  deriving DecidableEq, Repr

/-! ## The poll reply -/

/-- `hawkbit_client_base_content_t` -/
structure BaseContentT where
  timeUntilNextPoll : ℕ
  timeUntilNextPollSim : ℕ
  deploymentUrl : Vector UInt8 maxUrlSize

def BaseContentT.content (c : BaseContentT) : BaseContent :=
  ⟨c.timeUntilNextPoll, text c.deploymentUrl⟩

/-- What the variables `h`, `m` and `s` of `str_time_to_int` hold at first. -/
structure TimeStack where
  h : UInt8
  m : UInt8
  s : UInt8

/-- `str_time_to_int`; `sscanf` leaves a variable alone that it does not
reach. -/
def strTimeToInt (strTime : CString) (stack : TimeStack) : ℕ :=
  let fields := colonFields scanByte 3 strTime.1
  let h := fields.getD 0 stack.h.toNat
  let m := fields.getD 1 stack.m.toNat
  let s := fields.getD 2 stack.s.toNat
  (h * 60 * 60 * 1000 + m * 60 * 1000 + s * 1000) % 2 ^ 32

def jsonParseActionsToDo (json : Option Json) (stack stackSim : TimeStack)
    (content : BaseContentT) : ParseRc × BaseContentT :=
  let content : BaseContentT := ⟨0, 0, content.deploymentUrl.set 0 0⟩
  match json with
  | none => (.errJsonParsing, content)
  | some json =>
      (.ok,
        { timeUntilNextPoll := match json.stringAt ["config", "polling"] "sleep" with
            | none => content.timeUntilNextPoll
            | some sleep => strTimeToInt sleep stack
          timeUntilNextPollSim := match json.stringAt ["config", "polling"] "sleep_sim" with
            | none => content.timeUntilNextPollSim
            | some sleepSim => strTimeToInt sleepSim stackSim
          deploymentUrl := match json.stringAt ["_links", "deploymentBase"] "href" with
            | none => content.deploymentUrl
            | some href => strncpy maxUrlSize href })

/-! ## The deployment reply -/

/-- `hawkbit_client_module_content_t` -/
structure ModuleContentT where
  version : Vector UInt8 versionSize
  artifactSize : ℕ
  hashSha1 : Vector UInt8 hashSize
  downloadUrl : Vector UInt8 maxUrlSize

/-- `hawkbit_client_deployment_t` -/
structure DeploymentT where
  id : ℕ
  download : UpdateType
  update : UpdateType
  anker : ModuleContentT

def ModuleContentT.content (c : ModuleContentT) : ModuleContent :=
  ⟨text c.version, c.artifactSize, c.hashSha1, text c.downloadUrl⟩

def DeploymentT.deployment (d : DeploymentT) : Deployment := ⟨d.id, d.update, d.anker.content⟩

/-- "forced" -/
def strForced : List UInt8 := [0x66, 0x6F, 0x72, 0x63, 0x65, 0x64]

/-- "attempt" -/
def strAttempt : List UInt8 := [0x61, 0x74, 0x74, 0x65, 0x6D, 0x70, 0x74]

/-- "skip" -/
def strSkip : List UInt8 := [0x73, 0x6B, 0x69, 0x70]

/-- "anker" -/
def firmwareIdentifierAnker : List UInt8 := [0x61, 0x6E, 0x6B, 0x65, 0x72]

def updateTypeStrToEnum (type : CString) : UpdateType :=
  if type.1 = strForced then .forced
  else if type.1 = strAttempt then .soft
  else if type.1 = strSkip then .skip
  else .unknown

/-- A C integer as an `uint32_t`. -/
def toUint32 (i : ℤ) : ℕ := (i % 2 ^ 32).toNat

def artifactHash (artifact : Json) : Option CString := artifact.stringAt ["hashes"] "sha1"

def artifactUrl (artifact : Json) : Option CString :=
  artifact.stringAt ["_links", "download-http"] "href"

def ModuleContentT.resetArtifact (c : ModuleContentT) : ModuleContentT :=
  { c with
    artifactSize := 0
    hashSha1 := c.hashSha1.set 0 0
    downloadUrl := c.downloadUrl.set 0 0 }

def copyHash (artifact : Json) (c : ModuleContentT) : Except Fault ModuleContentT :=
  match artifactHash artifact with
  | none => .ok c
  | some sha1 =>
      match memcpy hashSize sha1 with
      | none => .error .readOutside
      | some hash => .ok { c with hashSha1 := hash }

/-- The member `size` is not tested for `NULL`. -/
def copySize (artifact : Json) (c : ModuleContentT) : Except Fault ModuleContentT :=
  match artifact.getObjectItem "size" with
  | none => .error .missingMember
  | some size => .ok { c with artifactSize := toUint32 size.valueint }

def copyUrl (artifact : Json) (c : ModuleContentT) : ModuleContentT :=
  match artifactUrl artifact with
  | none => c
  | some href => { c with downloadUrl := strncpy maxUrlSize href }

def jsonParseArtifact (c : ModuleContentT) (artifact : Json) : Except Fault ModuleContentT :=
  do
    let c ← copyHash artifact c.resetArtifact
    let c ← copySize artifact c
    return copyUrl artifact c

/-- Version and artifacts of a chunk that json_parse_deployment takes: an
object whose part is the anker firmware. -/
def ankerChunk (module : Json) : Option (CString × List Json) :=
  if module.isObject then
    match (module.getObjectItem "part").bind Json.valuestring,
        (module.getObjectItem "version").bind Json.valuestring,
        (module.getObjectItem "artifacts").bind Json.items with
    | some identifier, some version, some artifacts =>
        if identifier.1 = firmwareIdentifierAnker then some (version, artifacts) else none
    | _, _, _ => none
  else none

def parseChunk (c : ModuleContentT) (module : Json) : Except Fault ModuleContentT :=
  match ankerChunk module with
  | none => .ok c
  | some (version, artifacts) =>
      artifacts.foldlM jsonParseArtifact { c with version := strncpy versionSize version }

/-- The array `deployment.chunks`, empty if there is none. -/
def chunksOf (json : Json) : List Json :=
  (((json.objectAt ["deployment"]).bind fun deployment ↦
    deployment.getObjectItem "chunks").bind Json.items).getD []

def jsonParseDeployment (json : Option Json) (d : DeploymentT) :
    Except Fault (ParseRc × DeploymentT) :=
  let anker : ModuleContentT := { d.anker.resetArtifact with version := d.anker.version.set 0 0 }
  match json with
  | none => .ok (.errJsonParsing, ⟨0, .unknown, .unknown, anker⟩)
  | some json =>
      let id := match json.stringAt [] "id" with
        | none => 0
        | some id => toUint32 (atoi id.1)
      let download := match json.stringAt ["deployment"] "download" with
        | none => .unknown
        | some download => updateTypeStrToEnum download
      let update := match json.stringAt ["deployment"] "update" with
        | none => .unknown
        | some update => updateTypeStrToEnum update
      (chunksOf json).foldlM parseChunk anker |>.map fun anker ↦ (.ok, ⟨id, download, update, anker⟩)

/-! ## What the loops store -/

/-- The artifact has a size, and a SHA-1 of which 40 characters can be read. -/
def ArtifactFits (artifact : Json) : Prop :=
  (artifact.getObjectItem "size").isSome ∧
    ∀ sha1, artifactHash artifact = some sha1 → hashSize ≤ sha1.1.length + 1

/-- The hash that an artifact leaves in the place of another. -/
def storedHash (hash : Vector UInt8 hashSize) (artifact : Json) : Vector UInt8 hashSize :=
  ((artifactHash artifact).bind (memcpy hashSize)).getD (hash.set 0 0)

def storedSize (artifact : Json) : ℕ :=
  ((artifact.getObjectItem "size").map fun size ↦ toUint32 size.valueint).getD 0

def storedUrl (url : Vector UInt8 maxUrlSize) (artifact : Json) : Vector UInt8 maxUrlSize :=
  ((artifactUrl artifact).map (strncpy maxUrlSize)).getD (url.set 0 0)

def storeArtifact (c : ModuleContentT) (artifact : Json) : ModuleContentT where
  version := c.version
  artifactSize := storedSize artifact
  hashSha1 := storedHash c.hashSha1 artifact
  downloadUrl := storedUrl c.downloadUrl artifact

def storeChunk (c : ModuleContentT) (chunk : CString × List Json) : ModuleContentT :=
  chunk.2.foldl storeArtifact { c with version := strncpy versionSize chunk.1 }

theorem copyHash_resetArtifact (artifact : Json) (c : ModuleContentT) :
    copyHash artifact c.resetArtifact =
      if ∀ sha1, artifactHash artifact = some sha1 → hashSize ≤ sha1.1.length + 1 then
        .ok { c.resetArtifact with hashSha1 := storedHash c.hashSha1 artifact }
      else .error .readOutside := by
  rw [copyHash, storedHash]
  cases hhash : artifactHash artifact with
  | none => simp [ModuleContentT.resetArtifact]
  | some sha1 =>
      have hsome : (memcpy hashSize sha1).isSome ↔ hashSize ≤ sha1.1.length + 1 := isSome_memcpy_iff
      cases hcopy : memcpy hashSize sha1 with
      | none =>
          have hshort : ¬hashSize ≤ sha1.1.length + 1 := by simpa [hcopy] using hsome
          simp [hcopy, hshort]
      | some hash =>
          have hlong : hashSize ≤ sha1.1.length + 1 := by simpa [hcopy] using hsome
          simp [hcopy, hlong]

theorem copySize_eq (artifact : Json) (c : ModuleContentT) :
    copySize artifact c = if (artifact.getObjectItem "size").isSome then
      .ok { c with artifactSize := storedSize artifact } else .error .missingMember := by
  rw [copySize, storedSize]
  cases artifact.getObjectItem "size" <;> simp

theorem copyUrl_eq (artifact : Json) {c : ModuleContentT} (url : Vector UInt8 maxUrlSize)
    (hurl : c.downloadUrl = url.set 0 0) :
    copyUrl artifact c = { c with downloadUrl := storedUrl url artifact } := by
  rw [copyUrl, storedUrl]
  cases artifactUrl artifact with
  | none => simp [← hurl]
  | some href => simp

theorem jsonParseArtifact_eq_ok_iff (c : ModuleContentT) (artifact : Json) (r : ModuleContentT) :
    jsonParseArtifact c artifact = .ok r ↔ ArtifactFits artifact ∧ r = storeArtifact c artifact := by
  rw [jsonParseArtifact, ArtifactFits]
  rw [copyHash_resetArtifact]
  split_ifs with hhash
  · simp only [bind, Except.bind, copySize_eq]
    by_cases hsize : (artifact.getObjectItem "size").isSome
    · rw [if_pos hsize]
      simp only [pure, Except.pure]
      rw [copyUrl_eq artifact c.downloadUrl rfl, Except.ok.injEq]
      exact ⟨fun h ↦ ⟨⟨hsize, hhash⟩, h.symm⟩, fun h ↦ h.2.symm⟩
    · simp [hsize]
  · exact iff_of_false (by simp [bind, Except.bind]) fun h ↦ hhash h.1.2

theorem parseChunk_eq_ok_iff (c : ModuleContentT) (module : Json) (r : ModuleContentT) :
    parseChunk c module = .ok r ↔
      (∀ chunk ∈ ankerChunk module, ∀ artifact ∈ chunk.2, ArtifactFits artifact) ∧
        r = (ankerChunk module).elim c (storeChunk c) := by
  rw [parseChunk]
  cases hchunk : ankerChunk module with
  | none => simp [eq_comm]
  | some chunk =>
      simp only [Runs.foldlM_eq_ok_iff jsonParseArtifact_eq_ok_iff]
      simp [storeChunk]

/-- The chunks of the anker firmware. -/
def ankerChunks (json : Json) : List (CString × List Json) := (chunksOf json).filterMap ankerChunk

/-- Every artifact that the deployment makes json_parse_artifact read. -/
def ArtifactsFit (json : Json) : Prop :=
  ∀ chunk ∈ ankerChunks json, ∀ artifact ∈ chunk.2, ArtifactFits artifact

/-- `deployment_data->anker` before the chunks. -/
def ModuleContentT.reset (c : ModuleContentT) : ModuleContentT :=
  { c.resetArtifact with version := c.version.set 0 0 }

def storeChunks (c : ModuleContentT) (chunks : List (CString × List Json)) : ModuleContentT :=
  chunks.foldl storeChunk c

theorem foldlM_parseChunk (json : Json) (c r : ModuleContentT) :
    (chunksOf json).foldlM parseChunk c = .ok r ↔
      ArtifactsFit json ∧ r = storeChunks c (ankerChunks json) := by
  rw [Runs.foldlM_eq_ok_iff parseChunk_eq_ok_iff]
  have hfit : (∀ module ∈ chunksOf json, ∀ chunk ∈ ankerChunk module, ∀ artifact ∈ chunk.2,
      ArtifactFits artifact) ↔ ArtifactsFit json := by
    simp only [ArtifactsFit, ankerChunks, List.mem_filterMap, Option.mem_def]
    constructor
    · rintro h chunk ⟨module, hmodule, hchunk⟩
      exact h module hmodule chunk hchunk
    · intro h module hmodule chunk hchunk
      exact h chunk ⟨module, hmodule, hchunk⟩
  have hfold : (chunksOf json).foldl (fun c module ↦ (ankerChunk module).elim c (storeChunk c)) c =
      storeChunks c (ankerChunks json) := by
    rw [storeChunks, ankerChunks, List.foldl_filterMap]
    congr 1
    funext c module
    cases ankerChunk module <;> simp
  rw [hfit, hfold]

/-- `json_parse_deployment` ends without a fault if the artifacts fit. -/
theorem exists_jsonParseDeployment {json : Json} (h : ArtifactsFit json) (d : DeploymentT) :
    ∃ d', jsonParseDeployment (some json) d = .ok (.ok, d') ∧
      d'.anker = storeChunks d.anker.reset (ankerChunks json) := by
  have hloop := (foldlM_parseChunk json d.anker.reset _).mpr ⟨h, rfl⟩
  rw [jsonParseDeployment]
  change ∃ d', ((chunksOf json).foldlM parseChunk d.anker.reset).map _ = _ ∧ _
  rw [hloop]
  exact ⟨_, rfl, rfl⟩

theorem anker_of_jsonParseDeployment {json : Json} {d d' : DeploymentT} {rc : ParseRc}
    (h : jsonParseDeployment (some json) d = .ok (rc, d')) :
    ArtifactsFit json ∧ d'.anker = storeChunks d.anker.reset (ankerChunks json) := by
  rw [jsonParseDeployment] at h
  change ((chunksOf json).foldlM parseChunk d.anker.reset).map _ = _ at h
  cases hloop : (chunksOf json).foldlM parseChunk d.anker.reset with
  | error e => simp [hloop, Except.map] at h
  | ok anker =>
      obtain ⟨hfit, hanker⟩ := (foldlM_parseChunk json d.anker.reset anker).mp hloop
      rw [hloop] at h
      obtain ⟨-, rfl⟩ := Prod.mk.inj (Except.ok.inj h)
      exact ⟨hfit, hanker⟩

/-! ## The record at the end -/

/-- The artifacts in the order in which they are stored. -/
def artifactsOf (chunks : List (CString × List Json)) : List Json := chunks.flatMap Prod.snd

variable {c : ModuleContentT} {chunks : List (CString × List Json)}

theorem foldl_storeArtifact_version (artifacts : List Json) (c : ModuleContentT)
    (version : Vector UInt8 versionSize) :
    artifacts.foldl storeArtifact { c with version := version } =
      { artifacts.foldl storeArtifact c with version := version } := by
  induction artifacts generalizing c with
  | nil => rfl
  | cons artifact artifacts ih => exact ih (storeArtifact c artifact)

theorem storeChunks_append (c : ModuleContentT) (chunks : List (CString × List Json))
    (chunk : CString × List Json) : storeChunks c (chunks ++ [chunk]) =
      { chunk.2.foldl storeArtifact (storeChunks c chunks) with
        version := strncpy versionSize chunk.1 } := by
  rw [storeChunks, List.foldl_append, List.foldl_cons, List.foldl_nil, storeChunk,
    foldl_storeArtifact_version]
  rfl

/-- The version is that of the last chunk. -/
theorem version_storeChunks (c : ModuleContentT) (chunks : List (CString × List Json)) :
    (storeChunks c chunks).version =
      (chunks.getLast?.map fun chunk ↦ strncpy versionSize chunk.1).getD c.version := by
  cases chunks using List.reverseRecOn with
  | nil => rfl
  | append_singleton chunks chunk =>
      rw [storeChunks_append]
      simp

/-- Up to the version, the chunks are one list of artifacts. -/
theorem storeChunks_eq (c : ModuleContentT) (chunks : List (CString × List Json)) :
    storeChunks c chunks = { (artifactsOf chunks).foldl storeArtifact c with
      version := (storeChunks c chunks).version } := by
  induction chunks using List.reverseRecOn with
  | nil => rfl
  | append_singleton chunks chunk ih =>
      have hflat : artifactsOf (chunks ++ [chunk]) = artifactsOf chunks ++ chunk.2 := by
        simp [artifactsOf]
      rw [storeChunks_append, hflat, List.foldl_append]
      conv_lhs => rw [ih, foldl_storeArtifact_version]

/-- The other fields are those of the last artifact. -/
theorem storeChunks_of_last {artifact : Json} (h : (artifactsOf chunks).getLast? = some artifact)
    (c : ModuleContentT) : ∃ c' : ModuleContentT,
      storeChunks c chunks = { storeArtifact c' artifact with
        version := (storeChunks c chunks).version } := by
  obtain ⟨front, hfront⟩ := List.getLast?_eq_some_iff.mp h
  refine ⟨front.foldl storeArtifact c, ?_⟩
  conv_lhs => rw [storeChunks_eq, hfront, List.foldl_append]
  rfl

theorem storeChunks_of_none (h : (artifactsOf chunks).getLast? = none) (c : ModuleContentT) :
    storeChunks c chunks = { c with version := (storeChunks c chunks).version } := by
  have hnil : artifactsOf chunks = [] := List.getLast?_eq_none_iff.mp h
  conv_lhs => rw [storeChunks_eq, hnil]
  rfl

end AnkerUpdater.Hawkbit
