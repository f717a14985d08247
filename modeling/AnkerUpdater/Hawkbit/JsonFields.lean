import AnkerUpdater.Hawkbit.JsonParse

/-!
# The fields after a reply

Which replies are parsed without a fault and leave fields that
`retrieve_update_artifacts` can read, and when the version and the artifact
it then uses come from one chunk.
-/

namespace AnkerUpdater.Hawkbit

open CText

/-! ## What is read of the fields -/

/-- Where the comparison with the firmware name starts in `download_url`. -/
def ModuleContentT.nameStart (c : ModuleContentT) : ℤ :=
  (text c.downloadUrl).length - (firmwareNameAnker.length + 1) + 1

/-- The indices of `download_url` that `retrieve_update_artifacts` reads: the
first, and unless it holds the zero those of `strlen` and of `memcmp`. -/
def ModuleContentT.urlReads (c : ModuleContentT) : List ℤ :=
  0 :: if text c.downloadUrl = [] then [] else
    (List.range ((text c.downloadUrl).length + 1)).map Nat.cast ++
      (List.range (firmwareNameAnker.length + 1)).map fun i : ℕ ↦ c.nameStart + (i : ℤ)

/-- The indices of `version`, which is compared for a file of the right name
and size. -/
def ModuleContentT.versionReads (c : ModuleContentT) : List ℤ :=
  if c.content.nameMatches && c.artifactSize ≤ firmwareMaxSizeAnker then
    (List.range ((text c.version).length + 1)).map Nat.cast
  else []

structure ModuleContentT.ReadsInside (c : ModuleContentT) : Prop where
  version : ∀ i ∈ c.versionReads, 0 ≤ i ∧ i < versionSize
  downloadUrl : ∀ i ∈ c.urlReads, 0 ≤ i ∧ i < maxUrlSize

variable {c : ModuleContentT}

/-- A reply of the server, as `cJSON_Parse` delivers it. -/
inductive Reply where
  | poll (json : Option Json)
  | deployment (json : Option Json)

/-- The reply is parsed without a fault, the strings it leaves are terminated
and all that is then read of them lies inside their arrays. -/
def Reply.Safe : Reply → Prop
  | .poll json => ∀ stack stackSim content,
      0 ∈ (jsonParseActionsToDo json stack stackSim content).2.deploymentUrl
  | .deployment json => ∀ d, ∃ rc d', jsonParseDeployment json d = .ok (rc, d') ∧
      0 ∈ d'.anker.version ∧ 0 ∈ d'.anker.downloadUrl ∧ d'.anker.ReadsInside

structure DeploymentFits (json : Json) : Prop where
  artifacts : ArtifactsFit json
  version : ∀ chunk, (ankerChunks json).getLast? = some chunk → chunk.1.1.length < versionSize
  url : ∀ artifact, (artifactsOf (ankerChunks json)).getLast? = some artifact →
    ∀ href, artifactUrl artifact = some href → href.1.length < maxUrlSize ∧
      (href.1 = [] ∨ firmwareNameAnker.length ≤ href.1.length)

/-- The condition on the members of a reply. -/
def Reply.Fits : Reply → Prop
  | .poll json => ∀ reply, json = some reply → ∀ href,
      reply.stringAt ["_links", "deploymentBase"] "href" = some href → href.1.length < maxUrlSize
  | .deployment json => ∀ reply, json = some reply → DeploymentFits reply

def DeploymentT.zero : DeploymentT :=
  ⟨0, .unknown, .unknown, ⟨Vector.replicate _ 0, 0, Vector.replicate _ 0, Vector.replicate _ 0⟩⟩

theorem text_set {n : ℕ} (v : Vector UInt8 n) (hn : 0 < n) : text (v.set 0 0) = [] := by
  have hlength : v.toList.length = n := by simp
  cases hv : v.toList with
  | nil =>
      rw [hv, List.length_nil] at hlength
      exact absurd hlength hn.ne
  | cons a l => simp [text, Vector.toList_set, hv]

theorem text_storedUrl (url : Vector UInt8 maxUrlSize) {artifact : Json}
    (h : ∀ href, artifactUrl artifact = some href → href.1.length < maxUrlSize) :
    text (storedUrl url artifact) = ((artifactUrl artifact).map Subtype.val).getD [] := by
  rw [storedUrl]
  cases hhref : artifactUrl artifact with
  | none => exact text_set url (by decide)
  | some href =>
      have hlength := h href hhref
      simpa [text_strncpy] using hlength.le

section

variable {json : Json} (d : DeploymentT)

end

/-- "anker" and the version "1" -/
def strAnker : CString := ⟨firmwareIdentifierAnker, by decide⟩

def strOne : CString := ⟨[0x31], by decide⟩

/-- What an artifact with all its members says. -/
structure ArtifactData where
  href : CString
  size : ℕ
  sha1 : CString

/-- All members are there and fit the fields. -/
structure ArtifactData.Of (a : ArtifactData) (artifact : Json) : Prop where
  href : artifactUrl artifact = some a.href
  hrefFits : a.href.1.length < maxUrlSize
  size : ∃ item, artifact.getObjectItem "size" = some item ∧ item.valueint = a.size
  sha1 : artifactHash artifact = some a.sha1
  sha1Fits : a.sha1.1.length ≤ hashSize ∧ hashSize ≤ a.sha1.1.length + 1

/-- Every chunk of the anker firmware has a version that fits, and its
artifacts have all members. -/
def Complete (json : Json) : Prop :=
  ∀ chunk ∈ ankerChunks json, chunk.1.1.length < versionSize ∧
    ∀ artifact ∈ chunk.2, ∃ a : ArtifactData, a.Of artifact

/-- The fields hold the artifact. -/
structure ArtifactData.Stored (a : ArtifactData) (c : ModuleContentT) : Prop where
  href : a.href.1 = text c.downloadUrl
  size : a.size = c.artifactSize
  sha1 : a.sha1.1 = text c.hashSha1

/-- The stored version and artifact belong to one chunk. -/
def Belongs (json : Json) : Prop :=
  ∀ d rc d', jsonParseDeployment (some json) d = .ok (rc, d') → text d'.anker.downloadUrl ≠ [] →
    ∃ chunk ∈ ankerChunks json, chunk.1.1 = text d'.anker.version ∧
      ∃ artifact ∈ chunk.2, ∃ a : ArtifactData, a.Of artifact ∧ a.Stored d'.anker

/-- If there is an artifact to download, the last chunk has one, or another
chunk of its version has the one that comes last. -/
def LastHasArtifact (json : Json) : Prop :=
  ∀ last artifact, (ankerChunks json).getLast? = some last →
    (artifactsOf (ankerChunks json)).getLast? = some artifact →
    ∀ a : ArtifactData, a.Of artifact → a.href.1 ≠ [] →
      last.2 ≠ [] ∨ ∃ chunk ∈ ankerChunks json, chunk.1 = last.1 ∧
        ∃ artifact' ∈ chunk.2, a.Of artifact'

theorem artifactFits_of_data {a : ArtifactData} {artifact : Json} (h : a.Of artifact) :
    ArtifactFits artifact := by
  obtain ⟨item, hitem, -⟩ := h.size
  refine ⟨by simp [hitem], fun sha1 hsha1 ↦ ?_⟩
  rw [h.sha1] at hsha1
  obtain rfl := Option.some.inj hsha1
  exact h.sha1Fits.2

theorem artifactsFit_of_complete {json : Json} (h : Complete json) : ArtifactsFit json := by
  intro chunk hchunk artifact hartifact
  obtain ⟨a, ha⟩ := (h chunk hchunk).2 artifact hartifact
  exact artifactFits_of_data ha

/-- What is stored of an artifact with all members. -/
theorem stored_storeArtifact {a : ArtifactData} {artifact : Json} (h : a.Of artifact)
    (c : ModuleContentT) : a.Stored (storeArtifact c artifact) := by
  obtain ⟨item, hitem, hvalue⟩ := h.size
  refine ⟨?_, ?_, ?_⟩
  · have hlength : ∀ href, artifactUrl artifact = some href → href.1.length < maxUrlSize := by
      intro href hhref
      rw [h.href] at hhref
      obtain rfl := Option.some.inj hhref
      exact h.hrefFits
    have htext := text_storedUrl c.downloadUrl hlength
    rw [h.href] at htext
    exact htext.symm
  · have hmod : toUint32 (a.size : ℤ) = a.size := by
      have hlt := item.valueint_lt
      rw [toUint32]
      omega
    simp [storeArtifact, storedSize, hitem, hvalue, hmod]
  · cases hcopy : memcpy hashSize a.sha1 with
    | none =>
        have hsome := isSome_memcpy_iff.mpr h.sha1Fits.2
        simp [hcopy] at hsome
    | some hash =>
        have htext := text_memcpy hcopy h.sha1Fits.1
        simp [storeArtifact, storedHash, h.sha1, hcopy, htext]

/-- Of two artifacts that the fields can hold at the same time, each is what
the other is. -/
theorem of_of_stored {a a' : ArtifactData} {artifact : Json} {c : ModuleContentT}
    (h : a.Of artifact) (hc : a.Stored c) (hc' : a'.Stored c) : a'.Of artifact := by
  have hsame : a' = a := by
    obtain ⟨href, size, sha1⟩ := a
    obtain ⟨href', size', sha1'⟩ := a'
    obtain rfl : href' = href := Subtype.ext (hc'.href.trans hc.href.symm)
    obtain rfl : size' = size := hc'.size.trans hc.size.symm
    obtain rfl : sha1' = sha1 := Subtype.ext (hc'.sha1.trans hc.sha1.symm)
    rfl
  rw [hsame]
  exact h

/-- The last artifact of a list of chunks is one of the last chunk, if that
has any. -/
theorem mem_of_getLast? {chunks : List (CString × List Json)} {last : CString × List Json}
    {artifact : Json} (hlast : chunks.getLast? = some last) (hne : last.2 ≠ [])
    (hartifact : (artifactsOf chunks).getLast? = some artifact) : artifact ∈ last.2 := by
  obtain ⟨front, rfl⟩ := List.getLast?_eq_some_iff.mp hlast
  have hflat : artifactsOf (front ++ [last]) = artifactsOf front ++ last.2 := by
    simp [artifactsOf]
  rw [hflat, List.getLast?_append_of_ne_nil _ hne] at hartifact
  exact List.mem_of_getLast? hartifact

section

variable {json : Json} {d d' : DeploymentT} {rc : ParseRc}

theorem version_of_getLast? (h : Complete json) {last : CString × List Json}
    (hlast : (ankerChunks json).getLast? = some last)
    (hparse : jsonParseDeployment (some json) d = .ok (rc, d')) :
    text d'.anker.version = last.1.1 := by
  have hfits := (h last (List.mem_of_getLast? hlast)).1
  have htext : text (strncpy versionSize last.1) = last.1.1 := by
    rw [text_strncpy, List.take_of_length_le hfits.le]
  rw [(anker_of_jsonParseDeployment hparse).2, version_storeChunks, hlast]
  exact htext

theorem stored_of_getLast? {artifact : Json} {a : ArtifactData}
    (hlast : (artifactsOf (ankerChunks json)).getLast? = some artifact) (ha : a.Of artifact)
    (hparse : jsonParseDeployment (some json) d = .ok (rc, d')) : a.Stored d'.anker := by
  obtain ⟨c', hstored⟩ := storeChunks_of_last hlast d.anker.reset
  have hfields := stored_storeArtifact ha c'
  rw [(anker_of_jsonParseDeployment hparse).2, hstored]
  exact ⟨hfields.href, hfields.size, hfields.sha1⟩

theorem downloadUrl_of_none (hlast : (artifactsOf (ankerChunks json)).getLast? = none)
    (hparse : jsonParseDeployment (some json) d = .ok (rc, d')) :
    text d'.anker.downloadUrl = [] := by
  rw [(anker_of_jsonParseDeployment hparse).2, storeChunks_of_none hlast]
  exact text_set _ (by decide)

end

/-- Version and artifact belong together exactly if the last chunk of the
anker firmware has an artifact, or shares its version with a chunk that has
the last one. -/
theorem belongs_iff {json : Json} (h : Complete json) : Belongs json ↔ LastHasArtifact json := by
  constructor
  · intro hbelongs last artifact hlast hartifact a ha hne
    obtain ⟨d', hparse, -⟩ :=
      exists_jsonParseDeployment (artifactsFit_of_complete h) DeploymentT.zero
    have hstored := stored_of_getLast? hartifact ha hparse
    rw [hstored.href] at hne
    obtain ⟨chunk, hchunk, hversion, artifact', hartifact', a', ha', hstored'⟩ :=
      hbelongs DeploymentT.zero .ok d' hparse hne
    refine .inr ⟨chunk, hchunk, ?_, artifact', hartifact', of_of_stored ha' hstored' hstored⟩
    apply Subtype.ext
    rw [hversion, version_of_getLast? h hlast hparse]
  · intro hlasts d rc d' hparse hne
    cases hartifact : (artifactsOf (ankerChunks json)).getLast? with
    | none => exact absurd (downloadUrl_of_none hartifact hparse) hne
    | some artifact =>
        obtain ⟨chunk, hchunk, hmem⟩ := List.mem_flatMap.mp (List.mem_of_getLast? hartifact)
        obtain ⟨last, hlast⟩ : ∃ last, (ankerChunks json).getLast? = some last := by
          rw [← Option.isSome_iff_exists, List.getLast?_isSome]
          exact List.ne_nil_of_mem hchunk
        obtain ⟨a, ha⟩ := (h chunk hchunk).2 artifact hmem
        have hstored := stored_of_getLast? hartifact ha hparse
        have hversion := version_of_getLast? h hlast hparse
        rw [← hstored.href] at hne
        rcases hlasts last artifact hlast hartifact a ha hne with hhas | ⟨chunk', hchunk', heq, hhas⟩
        · exact ⟨last, List.mem_of_getLast? hlast, hversion.symm, artifact,
            mem_of_getLast? hlast hhas hartifact, a, ha, hstored⟩
        · obtain ⟨artifact', hartifact', ha'⟩ := hhas
          exact ⟨chunk', hchunk', by rw [heq, hversion], artifact', hartifact', a, ha', hstored⟩

/-! ### A chunk without artifacts at the end -/

def strTwo : CString := ⟨[0x32], by decide⟩

def strFirmwareBin : CString := ⟨firmwareNameAnker, by decide⟩

def strHash : CString := ⟨List.replicate 40 0x61, by decide⟩

def wholeArtifact : Json :=
  .object [("hashes", .object [("sha1", .string strHash)]), ("size", .number 5),
    ("_links", .object [("download-http", .object [("href", .string strFirmwareBin)])])]

def ankerModule (version : CString) (artifacts : List Json) : Json :=
  .object [("part", .string strAnker), ("version", .string version),
    ("artifacts", .array artifacts)]

/-- Version 1 has an artifact, version 2 has none. -/
def emptyLastChunk : Json :=
  .object [("deployment", .object [("chunks",
    .array [ankerModule strOne [wholeArtifact], ankerModule strTwo []])])]

def wholeData : ArtifactData := ⟨strFirmwareBin, 5, strHash⟩

theorem wholeData_of : wholeData.Of wholeArtifact where
  href := rfl
  hrefFits := by decide
  size := ⟨.number 5, rfl, rfl⟩
  sha1 := rfl
  sha1Fits := by decide

theorem ankerChunks_emptyLastChunk :
    ankerChunks emptyLastChunk = [(strOne, [wholeArtifact]), (strTwo, [])] := rfl

theorem complete_emptyLastChunk : Complete emptyLastChunk := by
  intro chunk hchunk
  rw [ankerChunks_emptyLastChunk, List.mem_cons, List.mem_singleton] at hchunk
  rcases hchunk with rfl | rfl
  · refine ⟨by decide, fun artifact hartifact ↦ ?_⟩
    obtain rfl := List.mem_singleton.mp hartifact
    exact ⟨wholeData, wholeData_of⟩
  · exact ⟨by decide, fun artifact hartifact ↦ absurd hartifact List.not_mem_nil⟩

/-- Version 2 is stored with the artifact of version 1. -/
theorem not_belongs_emptyLastChunk : Complete emptyLastChunk ∧ ¬Belongs emptyLastChunk := by
  refine ⟨complete_emptyLastChunk, fun h ↦ ?_⟩
  obtain ⟨d', hparse, -⟩ :=
    exists_jsonParseDeployment (artifactsFit_of_complete complete_emptyLastChunk) DeploymentT.zero
  have hstored : wholeData.Stored d'.anker := stored_of_getLast? rfl wholeData_of hparse
  have hversion : text d'.anker.version = strTwo.1 :=
    version_of_getLast? complete_emptyLastChunk rfl hparse
  have hne : text d'.anker.downloadUrl ≠ [] := by
    rw [← hstored.href]
    decide
  obtain ⟨chunk, hchunk, heq, artifact, hartifact, -⟩ := h DeploymentT.zero .ok d' hparse hne
  rw [ankerChunks_emptyLastChunk, List.mem_cons, List.mem_singleton] at hchunk
  rcases hchunk with rfl | rfl
  · rw [hversion] at heq
    revert heq
    decide
  · exact List.not_mem_nil hartifact

theorem belongs_iff_emptyLastChunk : Complete emptyLastChunk ∧
    (Belongs emptyLastChunk ↔ LastHasArtifact emptyLastChunk) :=
  ⟨complete_emptyLastChunk, belongs_iff complete_emptyLastChunk⟩

end AnkerUpdater.Hawkbit
