/-
NostrMesh/Api/RoundTrip.lean

What was uploaded can be downloaded again.

`roundTrip` is about every interleaving of the handlers, with all that can go
wrong on the way: once an upload has answered 201, and as long as nobody
deletes its hash, `GET /blobs/:hash` answers its record, and a download that
the network does not spoil (`prompt`) decrypts to the bytes of the file.
-/
import NostrMesh.Api.Progress
import NostrMesh.Api.Reference

namespace NostrMesh.Api

open Interleaving Relay

variable {L : Library} {config : Config} {B : Blossom.Library} {server : Blossom.Config}
variable {W : World} {name hash : String} {metadata : BlobMetadata}

/-! ### Requests that reach the server in time -/

/-- A download is answered, and its header has not expired on the way. -/
def Arrives (server : Blossom.Config) : (o : Op) → World → Res o → World → Prop
  | .getBlob _ _, W, response, W' => response ≠ .none ∧
      (server.requireAuth = true → (W'.now : ℤ) ≤ W.now + 60 + server.maxClockSkewSeconds)
  | _, _, _, _ => True

def prompt (B : Blossom.Library) (server : Blossom.Config) (o : Op) (W : World) (r : Res o)
    (W' : World) : Prop :=
  eff B server o W r W' ∧ Arrives server o W r W'

/-! ### Reading a record -/

/-- Queries are answered as `eff` says. -/
def FairQueries (E : (o : Op) → World → Res o → World → Prop) : Prop :=
  ∀ filter W arrived W', E (.querySync filter) W arrived W' ↔ Queries filter W arrived W'

theorem fairQueries_eff : FairQueries (eff B server) := fun _ _ _ _ => Iff.rfl

theorem fairQueries_prompt : FairQueries (prompt B server) := fun _ _ _ _ =>
  and_iff_left trivial

variable {E : (o : Op) → World → Res o → World → Prop}

theorem surely_resolveHash (hE : FairQueries E) (hL : L.Lawful) (hW : Sound L config W)
    (hhash : Blossom.isHash hash = true) :
    Surely E (resolveHash L config hash) W fun r W' =>
      r = reading (recordAt L config.nostrSecretKey W.db hash) ∧ W.Waits W' := by
  simp only [resolveHash, perform, Prog.bind_eq, Prog.perform_bind, Prog.pure_eq]
  refine .op ?_ ?_
  · obtain ⟨arrived, hquery⟩ := exists_queries hL hW hhash
    exact ⟨arrived, W, (hE _ _ _ _).mpr hquery⟩
  · intro arrived W' hquery
    obtain ⟨hwaits, hresolve⟩ := Queries.spec hL hW hhash ((hE _ _ _ _).mp hquery)
    exact .ret ⟨hresolve, hwaits⟩

/-- **`GET /:hash`** answers what the register holds. -/
theorem surely_getMetadata (hE : FairQueries E) (hL : L.Lawful) (hW : Sound L config W)
    (hname : normalizeHash name = .ok hash) {now : ℤ}
    (hrecord : recordAt L config.nostrSecretKey W.db hash = some (now, .ok metadata)) :
    Surely E (getMetadata L config name) W fun answer _ =>
      answer = if metadata.isDeleted then .error 410 "Blob metadata is marked deleted"
        else .metadata metadata (downloadUrl hash) := by
  simp only [getMetadata, hname, Prog.bind_eq, Prog.pure_eq]
  refine (surely_resolveHash hE hL hW (isHash_of_normalizeHash hname)).bind ?_
  rintro r W' ⟨rfl, -⟩
  rw [hrecord]
  dsimp only [reading]
  split
  · exact .ret rfl
  · exact .ret rfl

/-! ### Downloading -/

/-- The server answers the file to a header that it accepts. -/
theorem serveGet_eq_content (hB : Compatible L B) (hhash : Blossom.isHash hash = true)
    {header content : String} {payload : Bytes} {now : ℤ} (hnow : 0 ≤ now) (hlast : now ≤ lastSecond)
    (hheader : buildAuthHeader L config.nostrSecretKey "get" content 60 now = .ok header)
    (hfile : W.files hash = some payload)
    (hlive : server.requireAuth = true → (W.now : ℤ) ≤ now + 60 + server.maxClockSkewSeconds) :
    serveGet B server header hash W = .content payload := by
  have hauth : ∃ pubkey, Blossom.parseAuthEvent B server W.now (some header) "get"
      = .ok pubkey := by
    rcases hrequire : server.requireAuth with - | -
    · exact ⟨some (.str "anonymous"), by simp [Blossom.parseAuthEvent, hrequire]⟩
    · have hbound : (now + 60).natAbs < Js.exponentBound := by
        have := lastSecond_lt
        omega
      exact (parseAuthEvent_buildAuthHeader hB hrequire hheader hbound).mpr ⟨rfl, hlive hrequire⟩
  obtain ⟨pubkey, hauth⟩ := hauth
  have hlookup : Blossom.lookup B server W.now (some header) hash W.files = .ok payload := by
    simp only [Blossom.lookup, hauth, Blossom.normalizeHash_of_isHash hhash, hfile]
  simp only [serveGet, Blossom.serve, Option.filter_none, Blossom.getBlob, hlookup]

/-- `downloadBlob` fetches the file, if the request arrives in time. -/
theorem surely_downloadBlob (hB : Compatible L B) (hW : Sound L config W)
    (hhash : Blossom.isHash hash = true) {payload : Bytes} (hfile : W.files hash = some payload)
    (hlive : server.requireAuth = true → 0 ≤ 60 + server.maxClockSkewSeconds)
    {secretKey : Bytes} {pubkey : String} (hkey : hexToBytes config.nostrSecretKey = .ok secretKey)
    (hpubkey : L.getPublicKey secretKey = .ok pubkey) :
    Surely (prompt B server) (downloadBlob L config hash) W fun r _ => r = .ok payload := by
  simp only [downloadBlob, perform, Prog.bind_eq, Prog.perform_bind, Prog.pure_eq]
  refine .op ⟨(W.now : ℤ), W, ⟨hW.waits, rfl⟩, trivial⟩ ?_
  rintro _ W₁ ⟨⟨hwaits₁, rfl⟩, -⟩
  have hW₁ := hwaits₁.sound hW
  have hfile₁ : W₁.files hash = some payload := by rw [hwaits₁.files, hfile]
  have hheader : buildAuthHeader L config.nostrSecretKey "get" ("Get " ++ hash) 60 W₁.now
      = .ok (headerOf L (signedEvent L pubkey secretKey
          (authTemplate "get" ("Get " ++ hash) 60 W₁.now))) := by
    simp only [buildAuthHeader, hkey, finalizeEvent, hpubkey]
  have hlast : (W₁.now : ℤ) ≤ lastSecond := by exact_mod_cast hW₁.now_le
  rw [hheader]
  refine .op ?_ ?_
  · have hserved : serveGet B server _ hash W₁ = .content payload :=
      serveGet_eq_content hB hhash (Int.natCast_nonneg _) hlast hheader hfile₁ fun hrequire => by
        have := hlive hrequire
        omega
    refine ⟨.content payload, W₁, ⟨hW₁.waits, Or.inl hserved.symm⟩, by simp, fun hrequire => ?_⟩
    have := hlive hrequire
    omega
  · rintro response W₂ ⟨⟨hwaits₂, hresponse⟩, harrives, htime⟩
    have hserved : serveGet B server _ hash W₂ = .content payload :=
      serveGet_eq_content hB hhash (Int.natCast_nonneg _) hlast hheader
        (by rw [hwaits₂.files, hfile₁]) htime
    rw [hresponse.resolve_right harrives, hserved]
    exact .ret rfl

/-- **`GET /:hash/download`** decrypts the file. -/
theorem surely_decryptedContent (hL : L.Lawful) (hB : Compatible L B) (hW : Sound L config W)
    (hname : normalizeHash name = .ok hash) {now : ℤ}
    (hrecord : recordAt L config.nostrSecretKey W.db hash = some (now, .ok metadata))
    (hdeleted : metadata.deleted = none) {payload data : Bytes}
    (hfile : W.files hash = some payload)
    (hdecrypt : decryptBlob L.cipher payload metadata.encryptionKey = .ok data)
    (hlive : server.requireAuth = true → 0 ≤ 60 + server.maxClockSkewSeconds) :
    Surely (prompt B server) (decryptedContent L config name) W fun r _ =>
      r = .ok (metadata, data) := by
  -- the record was signed with the key of the API, so the header can be too
  obtain ⟨row, _, m, event, hapi, _, _⟩ := hW.shelf.row_of_recordAt hL hrecord
  obtain ⟨iv, _, -, hbuild⟩ := hapi.built
  obtain ⟨-, secretKey, pubkey, hkey, hpubkey, -⟩ := buildMetadataEvent_eq_ok_iff.mp hbuild
  have hnot : metadata.isDeleted = false := by simp [BlobMetadata.isDeleted, hdeleted]
  simp only [decryptedContent, hname, Prog.bind_eq, Prog.pure_eq]
  refine (surely_resolveHash fairQueries_prompt hL hW (isHash_of_normalizeHash hname)).bind ?_
  rintro r W₁ ⟨rfl, hwaits₁⟩
  rw [hrecord]
  dsimp only [reading]
  rw [if_neg (by simp [hnot])]
  refine (surely_downloadBlob hB (hwaits₁.sound hW) (isHash_of_normalizeHash hname)
    (by rw [hwaits₁.files, hfile]) hlive hkey hpubkey).bind ?_
  rintro r W₂ rfl
  dsimp only
  rw [hdecrypt]
  exact .ret rfl

/-! ### The round trip -/

section

variable {ι : Type*} [DecidableEq ι] {requests : ι → Request} {c : Pool Op Res World Answer ι}

/-- **Round trip.**  After an upload has answered 201, in any run in which
nobody deletes its hash: whoever asks for the record gets it as it was
answered, and a download decrypts to the bytes of the file. -/
theorem roundTrip (hL : L.Lawful) (hB : Compatible L B) (hfresh : Fresh L requests)
    (hstart : Start L requests W)
    (hr : PoolReaches (fun _ => eff B server) (begun L config requests W) c)
    {i : ι} {file : UploadedFile} {folder : Option String} {random : Random}
    (hi : requests i = .post (some file) folder random)
    {eventId hash url : String} {metadata : BlobMetadata}
    (hanswer : c.2 i = .ret (.created eventId hash url metadata))
    (hnobody : NobodyDeletes requests hash) {name : String}
    (hname : normalizeHash name = .ok hash) :
    (Surely (prompt B server) (getMetadata L config name) c.1 fun answer _ =>
      answer = .metadata metadata (downloadUrl hash)) ∧
    Surely (prompt B server) (decryptedContent L config name) c.1 fun r _ =>
      r = .ok (metadata, file.buffer) := by
  rw [← stepOf_false L config requests] at hr
  obtain ⟨hsound, -⟩ := run_safe hL hB hfresh hstart hr
  have hpromise := promise_of_run hL hB hfresh hstart hr hanswer
  rw [hi] at hpromise
  obtain ⟨rfl, huploaded⟩ := hpromise
  obtain ⟨now, hrecord⟩ := huploaded.record hnobody
  obtain ⟨hkey, hiv, -⟩ := hfresh.post i _ _ _ hi
  have hdecrypt : decryptBlob L.cipher (encryptedContent L file random) metadata.encryptionKey
      = .ok file.buffer := by
    obtain ⟨blob, hblob, hblobKey, hdecrypt⟩ := decryptBlob_encryptBlob hL.inverts hkey hiv file.buffer
    rw [encryptBlob_upload L hkey] at hblob
    obtain rfl := Except.ok.inj hblob
    rwa [huploaded.encryptionKey]
  refine ⟨?_, surely_decryptedContent hL hB hsound hname hrecord huploaded.notDeleted
    huploaded.content hdecrypt huploaded.live⟩
  have hget : Surely (prompt B server) (getMetadata L config name) c.1 fun answer _ => _ :=
    surely_getMetadata fairQueries_prompt hL hsound hname hrecord
  simpa [BlobMetadata.isDeleted, huploaded.notDeleted] using hget

end

/-! ### One upload -/

def sampleConfig : Config := ⟨"http://localhost:3000", sampleSecret⟩

/-- No files, and no events. -/
def sampleWorld : World := ⟨1700000000, fun _ => none, ⟨[], []⟩⟩

def sampleFile : UploadedFile := ⟨"hi.txt", "text/plain", [0x68, 0x69]⟩

def sampleRandom : Random := ⟨Bytes.ofHex sampleKeyHex, sampleBlobIv, sampleIv⟩

def sampleUpload : Request := .post (some sampleFile) none sampleRandom

/-- The upload of `hi.txt`, and a deletion. -/
def sampleRequests (name : String) (metadataIv : Bytes) : Bool → Request
  | true => sampleUpload
  | false => .delete name metadataIv

/-- The event of the record. -/
def sampleCreatedEvent : Event := sampleEventOf sampleIv 1700000000 sampleMetadata

theorem sample_encryptedContent :
    encryptedContent sampleLibrary sampleFile sampleRandom = samplePayload := by
  decide +kernel

theorem sample_sha256 : Bytes.toHex (sampleLibrary.sha256 samplePayload) = sampleHash := by
  decide +kernel

section

variable {metadataIv : Bytes}

theorem sample_payloadOf {i : Bool} {payload : Bytes}
    (h : payloadOf sampleLibrary (sampleRequests name metadataIv i) = some payload) :
    i = true ∧ payload = samplePayload := by
  rcases i with - | -
  · cases h
  · rw [← sample_encryptedContent]
    exact ⟨rfl, (Option.some.inj h).symm⟩

theorem sample_fresh (hiv : metadataIv.length = 12) :
    Fresh sampleLibrary (sampleRequests name metadataIv) where
  post i file folder random h := by
    rcases i with - | -
    · cases h
    · obtain ⟨-, -, rfl⟩ := Request.post.inj h
      decide
  delete i _ _ h := by
    rcases i with - | -
    · rw [← (Request.delete.inj h).2]
      exact hiv
    · cases h
  iv i j hij file folder random file' folder' random' hi hj := by
    obtain ⟨rfl, -⟩ := sample_payloadOf (by rw [hi]; rfl)
    obtain ⟨rfl, -⟩ := sample_payloadOf (by rw [hj]; rfl)
    exact absurd rfl hij
  sha256 := by
    rintro payload ⟨i, hi⟩ payload' ⟨j, hj⟩ -
    rw [(sample_payloadOf hi).2, (sample_payloadOf hj).2]

theorem sample_start : Start sampleLibrary (sampleRequests name metadataIv) sampleWorld where
  now_le := by decide
  unique := Tables.unique_nil
  tagIndex t := by simp [sampleWorld]
  noMetadata _ hrow := absurd hrow List.not_mem_nil
  noFile _ _ _ := rfl

/-- The upload runs to its 201, before the deletion begins. -/
theorem sample_created (timely : Prop) (name : String) (metadataIv : Bytes) :
    ∃ c : Pool Op Res World Answer Bool,
    PoolReaches (fun i => stepOf sampleLibrary sampleConfig sampleServerLibrary sampleServer timely
        (sampleRequests name metadataIv i))
      (begun sampleLibrary sampleConfig (sampleRequests name metadataIv) sampleWorld) c ∧
    c.2 true = .ret (.created sampleCreatedEvent.id sampleHash (downloadUrl sampleHash)
      sampleMetadata) ∧
    c.2 false = deleteBlob sampleLibrary sampleConfig name metadataIv ∧
    c.1.now = 1700000000 ∧ (∀ id ∈ c.1.db.ids, id = toBuffer sampleCreatedEvent.id) ∧
    recordAt sampleLibrary sampleSecret c.1.db sampleHash
      = some (1700000000, .ok sampleMetadata) := by
  have hbuild : buildMetadataEvent sampleLibrary sampleIv 1700000000 sampleMetadata sampleSecret
      = .ok sampleCreatedEvent := buildMetadataEvent_sample _ _ validateMetadata_sampleMetadata
  have hcontent := sample_encryptedContent
  obtain ⟨W, hruns, hnow, hids, hrecord⟩ : ∃ W, Runs
        (stepOf sampleLibrary sampleConfig sampleServerLibrary sampleServer timely sampleUpload)
        (postBlob sampleLibrary sampleConfig (some sampleFile) none sampleRandom) sampleWorld
        (.created sampleCreatedEvent.id sampleHash (downloadUrl sampleHash) sampleMetadata) W ∧
      W.now = sampleWorld.now ∧ (∀ id ∈ W.db.ids, id = toBuffer sampleCreatedEvent.id ∨
        id ∈ sampleWorld.db.ids) ∧ recordAt sampleLibrary sampleSecret W.db sampleHash
          = some (1700000000, .ok sampleMetadata) :=
    runs_postBlob sampleLibrary_lawful sampleLibrary_compatible
      (@sample_start name metadataIv).sound (by decide) (by decide)
      (by rw [hcontent, sample_sha256]) rfl hbuild
      (by decide) (by rw [hcontent]; decide) rfl (by decide) List.not_mem_nil
  refine ⟨_, .of_runs (i := true) hruns, by simp only [Function.update_self], ?_, hnow,
    fun id hid => (hids id hid).resolve_right List.not_mem_nil, hrecord⟩
  simp only [Function.update_of_ne Bool.false_ne_true]
  rfl

end

/-- `hi.txt` is uploaded and downloaded, and another hash may be deleted. -/
theorem roundTrip_sample : ∃ c : Pool Op Res World Answer Bool,
    PoolReaches (fun _ => eff sampleServerLibrary sampleServer)
      (begun sampleLibrary sampleConfig (sampleRequests sampleKeyHex sampleIvDeleted₁) sampleWorld) c ∧
    (Surely (prompt sampleServerLibrary sampleServer)
      (getMetadata sampleLibrary sampleConfig sampleHash) c.1 fun answer _ =>
        answer = .metadata sampleMetadata (downloadUrl sampleHash)) ∧
    Surely (prompt sampleServerLibrary sampleServer)
      (decryptedContent sampleLibrary sampleConfig sampleHash) c.1 fun r _ =>
        r = .ok (sampleMetadata, [0x68, 0x69]) := by
  obtain ⟨c, hr, hanswer, -⟩ := sample_created False sampleKeyHex sampleIvDeleted₁
  rw [stepOf_false] at hr
  refine ⟨c, hr, roundTrip sampleLibrary_lawful sampleLibrary_compatible (sample_fresh (by decide))
    sample_start hr (i := true) rfl hanswer ?_ ?_⟩
  · rintro (- | -) ⟨name, metadataIv, hrequest, hname⟩
    · obtain ⟨rfl, -⟩ := Request.delete.inj hrequest
      have hkey : Blossom.isHash sampleKeyHex = true := by decide +kernel
      rw [normalizeHash_of_isHash hkey] at hname
      exact absurd (Except.ok.inj hname) (by decide)
    · cases hrequest
  · exact normalizeHash_of_isHash isHash_sampleHash

end NostrMesh.Api
