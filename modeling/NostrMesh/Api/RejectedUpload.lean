/-
NostrMesh/Api/RejectedUpload.lean

Uploads whose record cannot be valid.

`POST /` uploads first and validates afterwards, inside of
`buildMetadataEvent`.  A request with a blank file name, or with a folder that
does not start with `/`, fails and publishes nothing (`runs_rejected`), but by
then its encrypted content may be on the server, which no request removes
again.  It is not there exactly if the server would not have stored it for a
valid request either (`leavesNothing_iff`).
-/
import NostrMesh.Api.AuthTokens
import NostrMesh.Api.RoundTrip

namespace NostrMesh.Api

open Interleaving

/-! ### Requests, and what they leave -/

/-- No hash, key and time make the record of the request valid. -/
def Rejected (config : Config) (file : UploadedFile) (folder : Option String) : Prop :=
  ∀ sha256 encryptionKey uploadedAt,
    validateMetadata (uploadedMetadata config file folder sha256 encryptionKey uploadedAt) ≠ .ok ()

section

variable (L : Library) (config : Config) (B : Blossom.Library) (server : Blossom.Config)
variable (file : UploadedFile) (folder : Option String) (random : Random) (W : World)

/-- However the request ends, it fails, and files and tables are as before. -/
def LeavesNothing : Prop :=
  ∀ answer W', Runs (eff B server) (postBlob L config (some file) folder random) W answer W' →
    (∃ status error, answer = .error status error) ∧ W'.files = W.files ∧ W'.db = W.db

/-- The server does not store the encrypted content: no header can be made or
none is let in, the content is too large, or there is a file of its hash. -/
def Unstorable : Prop :=
  ¬ ValidKey L config.nostrSecretKey ∨
    (server.requireAuth = true ∧ 60 + server.maxClockSkewSeconds < 0) ∨
    server.maxUploadBytes < (encryptedContent L file random).length ∨
    W.files (Bytes.toHex (L.sha256 (encryptedContent L file random))) ≠ none

end

variable {L : Library} {config : Config} {B : Blossom.Library} {server : Blossom.Config}
variable {file : UploadedFile} {folder : Option String} {random : Random} {W W' : World}
variable {answer : Answer}

/-- **Which requests these are**: those with a blank file name or a folder
that does not start with `/`, and all of them if the configured URL is no
`http` URL. -/
theorem rejected_iff : Rejected config file folder ↔
    Js.trim file.originalname = "" ∨ Js.startsWith (folderOf folder) "/" = false ∨
      isHttpUrl config.blossomPublicUrl = false := by
  have hsize : Js.Num.lt ((file.buffer.length : ℤ) : Js.Num) (0 : ℤ) = false := by
    rw [Js.Num.lt_intCast, decide_eq_false_iff_not]
    omega
  have hvalid : ∀ sha256 encryptionKey uploadedAt, validateMetadata
        (uploadedMetadata config file folder sha256 encryptionKey uploadedAt) = .ok () ↔
      Js.trim file.originalname ≠ "" ∧ isHex64 sha256 = true ∧
        Js.startsWith (folderOf folder) "/" = true ∧ isHttpUrl config.blossomPublicUrl = true ∧
        isHex64 encryptionKey = true := by
    intro sha256 encryptionKey uploadedAt
    rw [validateMetadata_eq_ok_iff]
    simp only [uploadedMetadata, Js.Num.isInteger_intCast, hsize, and_self, true_and]
  constructor
  · -- with any digits for hash and key, only these three rules are left
    intro h
    by_contra hnot
    simp only [not_or, Bool.not_eq_false] at hnot
    obtain ⟨hname, hfolder, hurl⟩ := hnot
    have hhex : isHex64 sampleHash = true := by decide +kernel
    exact h sampleHash sampleHash 0 ((hvalid _ _ _).mpr ⟨hname, hhex, hfolder, hurl, hhex⟩)
  · intro h sha256 encryptionKey uploadedAt hok
    obtain ⟨hname, -, hfolder, hurl, -⟩ := (hvalid _ _ _).mp hok
    rcases h with h | h | h
    · exact hname h
    · rw [hfolder] at h
      cases h
    · rw [hurl] at h
      cases h

/-! ### The upload -/

/-- `uploadBlob` touches nothing, or it puts the payload under a header of
its own. -/
theorem runs_uploadBlob {payload : Bytes} {filename : String} {r : Except String String}
    (h : Runs (eff B server) (uploadBlob L config payload filename) W r W') :
    (W'.files = W.files ∧ W'.db = W.db) ∨ ∃ header response W₁, W.Waits W₁ ∧
      buildAuthHeader L config.nostrSecretKey "upload" ("Upload " ++ filename) 60 W₁.now
        = .ok header ∧ PutsUpload B server header payload W₁ response W' := by
  simp only [uploadBlob, perform, Prog.bind_eq, Prog.perform_bind, Prog.pure_eq] at h
  obtain ⟨now, W₁, ⟨hwaits, rfl⟩, h⟩ := runs_op_iff.mp h
  rcases hheader : buildAuthHeader L config.nostrSecretKey "upload" ("Upload " ++ filename) 60
    W₁.now with e | header
  · simp only [hheader] at h
    obtain ⟨-, rfl⟩ := runs_ret_iff.mp h
    exact Or.inl ⟨hwaits.files, hwaits.db⟩
  · simp only [hheader] at h
    obtain ⟨response, W₂, hput, h⟩ := runs_op_iff.mp h
    obtain ⟨-, rfl⟩ := runs_ret_iff.mp h
    exact Or.inr ⟨header, response, W₁, hwaits, hheader, hput⟩

/-- A payload that changes the files can be stored. -/
theorem PutsUpload.storable (hB : Compatible L B) {header content : String}
    {response : Blossom.Response} (hlast : W.now ≤ lastSecond)
    (hheader : buildAuthHeader L config.nostrSecretKey "upload" content 60 W.now = .ok header)
    (h : PutsUpload B server header (encryptedContent L file random) W response W')
    (hne : W'.files ≠ W.files) : ¬ Unstorable L config server file random W := by
  obtain ⟨W₁, hwaits, ⟨-, rfl⟩ | ⟨write, rfl, -⟩⟩ := h
  · -- a request that is lost changes nothing
    exact absurd hwaits.files hne
  rw [← hwaits.files] at hne
  obtain ⟨hsize, ⟨pubkey, hauth⟩, -, hfree⟩ := Blossom.putUpload_files_ne hne
  rw [Blossom.hashBuffer, hB.sha256, Option.getD_some, hwaits.files] at hfree
  have hlive := live_of_parseAuthEvent hB hheader (Int.natCast_nonneg _) (by exact_mod_cast hlast)
    (Int.ofNat_le.mpr hwaits.now_le) hauth
  rintro (hkey | ⟨hrequire, hexpired⟩ | hlarge | htaken)
  · exact hkey (exists_buildAuthHeader_iff.mp ⟨header, hheader⟩)
  · have := hlive hrequire
    omega
  · exact absurd hsize (not_le.mpr hlarge)
  · exact htaken hfree

/-! ### Rejected requests -/

/-- **A rejected request fails**, and after the upload it does nothing. -/
theorem runs_rejected (hkey : random.key.length = keyLength) (h : Rejected config file folder)
    (hruns : Runs (eff B server) (postBlob L config (some file) folder random) W answer W') :
    (∃ error, answer = .error 500 error) ∧ ∃ r W₁,
      Runs (eff B server)
        (uploadBlob L config (encryptedContent L file random) file.originalname) W r W₁ ∧
      W'.files = W₁.files ∧ W'.db = W₁.db := by
  simp only [postBlob, encryptBlob_upload L hkey, perform, Prog.bind_eq, Prog.perform_bind,
    Prog.pure_eq] at hruns
  obtain ⟨r, W₁, hupload, hruns⟩ := runs_bind_iff.mp hruns
  rcases r with e | sha256
  · obtain ⟨rfl, rfl⟩ := runs_ret_iff.mp hruns
    exact ⟨⟨e, rfl⟩, _, _, hupload, rfl, rfl⟩
  -- the clock is read twice, and only then the record is validated
  obtain ⟨uploadedAt, W₂, ⟨hwaits₂, rfl⟩, hruns⟩ := runs_op_iff.mp hruns
  obtain ⟨now, W₃, ⟨hwaits₃, rfl⟩, hruns⟩ := runs_op_iff.mp hruns
  rcases hbuild : buildMetadataEvent L random.metadataIv W₃.now (uploadedMetadata config file folder
    sha256 (Bytes.toHex random.key) W₂.now) config.nostrSecretKey with e | event
  · simp only [hbuild] at hruns
    obtain ⟨rfl, rfl⟩ := runs_ret_iff.mp hruns
    exact ⟨⟨e, rfl⟩, _, _, hupload, hwaits₃.files.trans hwaits₂.files,
      hwaits₃.db.trans hwaits₂.db⟩
  · exact absurd (buildMetadataEvent_eq_ok_iff.mp hbuild).1 (h _ _ _)

/-- Content that the server does not store is not left there. -/
theorem leavesNothing_of_unstorable (hB : Compatible L B) (hkey : random.key.length = keyLength)
    (h : Rejected config file folder) (hunstorable : Unstorable L config server file random W) :
    LeavesNothing L config B server file folder random W := by
  intro answer W' hruns
  obtain ⟨⟨error, rfl⟩, r, W₁, hupload, hfiles, hdb⟩ := runs_rejected hkey h hruns
  rw [hfiles, hdb]
  refine ⟨⟨500, error, rfl⟩, ?_⟩
  rcases runs_uploadBlob hupload with hsame | ⟨header, response, W₂, hwaits, hheader, hput⟩
  · exact hsame
  · -- the upload leaves the tables alone, and files that it changed were storable
    obtain ⟨-, -, hdb₁, -⟩ := @PutsUpload.spec L config B server W₂ W₁ hB _ _ _ hput
    refine ⟨?_, hdb₁.trans hwaits.db⟩
    by_contra hne
    obtain ⟨now, -, hlast, rfl⟩ := id hwaits
    exact PutsUpload.storable hB hlast hheader hput hne hunstorable

/-- Other content is stored, and stays. -/
theorem exists_stored (hB : Compatible L B) (hkey : random.key.length = keyLength)
    (h : Rejected config file folder) (hnow : W.now ≤ lastSecond)
    (hstorable : ¬ Unstorable L config server file random W) :
    ∃ answer W', Runs (eff B server) (postBlob L config (some file) folder random) W answer W' ∧
      W.files (Bytes.toHex (L.sha256 (encryptedContent L file random))) = none ∧
      W'.files (Bytes.toHex (L.sha256 (encryptedContent L file random)))
        = some (encryptedContent L file random) := by
  simp only [Unstorable, not_or, not_not, not_and, not_lt] at hstorable
  obtain ⟨hvalid, hlive, hsize, hfree⟩ := hstorable
  obtain ⟨header, hheader⟩ := (@exists_buildAuthHeader_iff L config.nostrSecretKey "upload"
    ("Upload " ++ file.originalname) 60 W.now).mpr hvalid
  generalize hhash : Bytes.toHex (L.sha256 (encryptedContent L file random)) = hash at hfree ⊢
  let W₁ : World := ⟨W.now, Function.update W.files hash (some (encryptedContent L file random)), W.db⟩
  have hnow₁ : W₁.now ≤ lastSecond := hnow
  obtain ⟨response, hput⟩ : ∃ response,
      PutsUpload B server header (encryptedContent L file random) W response W₁ :=
    ⟨_, putsUpload_completes hB hnow hheader hlive hsize (by simp [encryptedContent, sealPayload])
      hhash hfree⟩
  have hupload : Runs (eff B server)
      (uploadBlob L config (encryptedContent L file random) file.originalname) W
      (uploadResult response) W₁ := by
    simp only [uploadBlob, perform, Prog.bind_eq, Prog.perform_bind, Prog.pure_eq]
    refine runs_op_iff.mpr ⟨_, W, readsClock_now hnow, ?_⟩
    rw [hheader]
    exact runs_op_iff.mpr ⟨response, W₁, hput, .ret _ _⟩
  suffices hruns : ∃ answer,
      Runs (eff B server) (postBlob L config (some file) folder random) W answer W₁ by
    obtain ⟨answer, hruns⟩ := hruns
    exact ⟨answer, W₁, hruns, hfree, Function.update_self _ _ _⟩
  simp only [postBlob, encryptBlob_upload L hkey, perform, Prog.bind_eq, Prog.perform_bind, Prog.pure_eq,
    runs_bind_iff]
  rcases hresult : uploadResult response with e | sha256
  · exact ⟨.error 500 e, _, W₁, hupload, by rw [hresult]; exact .ret _ _⟩
  · -- the record is validated after that
    rcases hbuild : buildMetadataEvent L random.metadataIv W₁.now (uploadedMetadata config file folder
      sha256 (Bytes.toHex random.key) W₁.now) config.nostrSecretKey with e | event
    · refine ⟨.error 500 e, _, W₁, hupload, ?_⟩
      rw [hresult]
      refine runs_op_iff.mpr ⟨_, W₁, readsClock_now hnow₁, ?_⟩
      refine runs_op_iff.mpr ⟨_, W₁, readsClock_now hnow₁, ?_⟩
      simp only [hbuild]
      exact .ret _ _
    · exact absurd (buildMetadataEvent_eq_ok_iff.mp hbuild).1 (h _ _ _)

theorem not_leavesNothing_of_storable (hB : Compatible L B) (hkey : random.key.length = keyLength)
    (h : Rejected config file folder) (hnow : W.now ≤ lastSecond)
    (hstorable : ¬ Unstorable L config server file random W) :
    ¬ LeavesNothing L config B server file folder random W := by
  intro hleaves
  obtain ⟨answer, W', hruns, hfree, hstored⟩ := exists_stored hB hkey h hnow hstorable
  rw [(hleaves answer W' hruns).2.1, hfree] at hstored
  cases hstored

/-- **A rejected request leaves nothing behind** exactly if the server does
not store its encrypted content. -/
theorem leavesNothing_iff (hB : Compatible L B) (hkey : random.key.length = keyLength)
    (hnow : W.now ≤ lastSecond) (h : Rejected config file folder) :
    LeavesNothing L config B server file folder random W ↔
      Unstorable L config server file random W := by
  constructor
  · intro hleaves
    by_contra hstorable
    exact not_leavesNothing_of_storable hB hkey h hnow hstorable hleaves
  · exact leavesNothing_of_unstorable hB hkey h

/-- The folder `docs` does not start with a slash. -/
theorem rejected_docs : Rejected sampleConfig sampleFile (some "docs") :=
  rejected_iff.mpr (Or.inr (Or.inl (by decide +kernel)))

/-- A server that takes bodies of one byte. -/
theorem leavesNothing_small : LeavesNothing sampleLibrary sampleConfig sampleServerLibrary
    { sampleServer with maxUploadBytes := 1 } sampleFile (some "docs") sampleRandom sampleWorld :=
  (leavesNothing_iff sampleLibrary_compatible rfl (by decide) rejected_docs).mpr
    (Or.inr (Or.inr (Or.inl (by rw [sample_encryptedContent]; decide))))

/-- `hi.txt` is uploaded into the folder `docs`. -/
theorem not_leavesNothing_docs : Rejected sampleConfig sampleFile (some "docs") ∧
    ¬ LeavesNothing sampleLibrary sampleConfig sampleServerLibrary sampleServer sampleFile
      (some "docs") sampleRandom sampleWorld := by
  refine ⟨rejected_docs, not_leavesNothing_of_storable sampleLibrary_compatible rfl rejected_docs
    (by decide) ?_⟩
  rintro (hkey | ⟨-, hexpired⟩ | hlarge | htaken)
  · exact hkey validKey_sample
  · exact absurd hexpired (by decide)
  · rw [sample_encryptedContent] at hlarge
    exact absurd hlarge (by decide)
  · exact htaken rfl

end NostrMesh.Api
