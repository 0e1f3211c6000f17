/-
NostrMesh/Api/Metadata.lean

Metadata records, their validation, and the events that carry them: kind
34578, tagged with the hash, with the encrypted record as content.

Libraries are the parameter `Library`: the cipher, SHA-256, the JSON texts of
records and events, and the functions of the Nostr library.  `Lawful`
collects what the round trip `parseMetadataEvent_buildMetadataEvent` relies
on.
-/
import NostrMesh.Api.Crypto
import NostrMesh.Lib.Js
import NostrMesh.Nostr.Event

namespace NostrMesh.Api

/-! ### Records and libraries -/

structure BlobMetadata where
  name : String
  hash : String
  size : Js.Num
  type : String
  folder : String
  uploadedAt : Js.Num
  server : String
  encryptionKey : String
  deleted : Option Bool
  deriving DecidableEq

/-- `metadata.deleted`, as a condition. -/
def BlobMetadata.isDeleted (metadata : BlobMetadata) : Bool := metadata.deleted = some true

structure Library where
  cipher : Cipher
  sha256 : Bytes → Bytes
  /-- `Buffer.from(JSON.stringify(metadata), "utf8")`. -/
  stringify : BlobMetadata → Bytes
  /-- `JSON.parse(plaintext.toString("utf8"))`. -/
  parse : Bytes → Except String BlobMetadata
  /-- `Buffer.from(JSON.stringify(signed), "utf8")`. -/
  stringifyEvent : Event → Bytes
  getPublicKey : Bytes → Except String String
  getEventHash : (pubkey : String) → EventTemplate → String
  sign : (secretKey : Bytes) → (id : String) → String

/-- The text of a record is read back, if its numbers are finite: JSON has no
text for the others. -/
def ReadsBack (L : Library) : Prop := ∀ metadata : BlobMetadata, metadata.size.isFinite = true →
  metadata.uploadedAt.isFinite = true → L.parse (L.stringify metadata) = .ok metadata

/-- What the program relies on: decryption inverts encryption, a SHA-256
digest has 32 bytes, parsing inverts printing. -/
structure Library.Lawful (L : Library) : Prop where
  inverts : L.cipher.Inverts
  length_sha256 : ∀ data, (L.sha256 data).length = 32
  parse_stringify : ReadsBack L

variable (L : Library)

/-- The event of a template, with its public key, its id and its
signature. -/
def signedEvent (pubkey : String) (secretKey : Bytes) (template : EventTemplate) : Event where
  id := L.getEventHash pubkey template
  pubkey := pubkey
  createdAt := template.createdAt
  kind := template.kind
  tags := template.tags
  content := template.content
  sig := L.sign secretKey (L.getEventHash pubkey template)

def finalizeEvent (template : EventTemplate) (secretKey : Bytes) : Except String Event :=
  match L.getPublicKey secretKey with
  | .error e => .error e
  | .ok pubkey => .ok (signedEvent L pubkey secretKey template)

/-! ### Validation -/

def metadataKind : ℕ := 34578

/-- `/^[a-f0-9]{64}$/i`. -/
def isHex64 (s : String) : Bool :=
  s.toList.length = 64 && s.toList.all fun c => (Bytes.hexVal c).isSome

/-- `/^https?:\/\//i`. -/
def isHttpUrl (s : String) : Bool :=
  Js.startsWith (Js.toLowerCase s) "http://" || Js.startsWith (Js.toLowerCase s) "https://"

def validateMetadata (metadata : BlobMetadata) : Except String Unit :=
  if Js.trim metadata.name = "" then .error "Metadata name is required"
  else if !isHex64 metadata.hash then .error "Metadata hash must be a 64-char hex SHA-256"
  else if !metadata.size.isInteger || metadata.size.lt (0 : ℤ) then
    .error "Metadata size must be a non-negative integer"
  else if !Js.startsWith metadata.folder "/" then .error "Metadata folder must start with '/'"
  else if !isHttpUrl metadata.server then .error "Metadata server must be an http(s) URL"
  else if !isHex64 metadata.encryptionKey then
    .error "Metadata encryptionKey must be 64-char hex"
  else .ok ()

/-- The rules, all at once. -/
theorem validateMetadata_eq_ok_iff {metadata : BlobMetadata} :
    validateMetadata metadata = .ok () ↔
      Js.trim metadata.name ≠ "" ∧ isHex64 metadata.hash = true ∧
        (metadata.size.isInteger = true ∧ metadata.size.lt (0 : ℤ) = false) ∧
        Js.startsWith metadata.folder "/" = true ∧ isHttpUrl metadata.server = true ∧
        isHex64 metadata.encryptionKey = true := by
  rw [validateMetadata]
  split_ifs with hname hhash hsize hfolder hserver hkey
  · simp [hname]
  · simp_all
  · refine iff_of_false (by simp) ?_
    rintro ⟨-, -, ⟨hinteger, hnonneg⟩, -⟩
    rw [hinteger, hnonneg] at hsize
    cases hsize
  · simp_all
  · simp_all
  · simp_all
  · simp_all

/-! ### The encrypted record -/

def metadataEncryptionVersion : UInt8 := 1

def metadataKeyFromSecret (secretKeyHex : String) : Bytes :=
  L.sha256 (Bytes.ofText ("nostrmesh:metadata:" ++ secretKeyHex))

/-- `encryptMetadata`, with the random iv that it draws. -/
def encryptMetadata (iv : Bytes) (metadata : BlobMetadata) (secretKeyHex : String) : String :=
  Bytes.toBase64 (sealPayload L.cipher metadataEncryptionVersion
    (metadataKeyFromSecret L secretKeyHex) iv (L.stringify metadata))

def decryptMetadata (content : String) (secretKeyHex : String) : Except String BlobMetadata :=
  let payload := Bytes.ofBase64 content
  if payload.length < 29 then .error "Metadata payload is too small"
  else
    let version := readUInt8 payload
    if version ≠ metadataEncryptionVersion then
      .error ("Unsupported metadata encryption version: " ++ toString version.toNat)
    else
      match openPayload L.cipher (metadataKeyFromSecret L secretKeyHex) payload with
      | .error e => .error e
      | .ok plaintext =>
          match L.parse plaintext with
          | .error e => .error e
          | .ok metadata =>
              match validateMetadata metadata with
              | .error e => .error e
              | .ok () => .ok metadata

/-! ### Metadata events -/

/-- The bytes of the pairs of digits; `parseInt` decides what is a number. -/
def hexPairs : List Char → Except String Bytes
  | a :: b :: cs =>
      match Js.parseInt 16 (String.ofList [a, b]), hexPairs cs with
      | .finite q, .ok bytes => .ok (UInt8.ofNat (q.num % 256).toNat :: bytes)
      | _, _ => .error "Invalid hex string"
  | _ => .ok []

/-- `hexToBytes`, of which the Blossom client has a copy.  A character outside
of the basic plane is two code units, and the second starts no number. -/
def hexToBytes (value : String) : Except String Bytes :=
  if Js.length value % 2 ≠ 0 then .error "Hex string length must be even"
  else if value.toList.any fun c => 0xFFFF < c.toNat then .error "Invalid hex string"
  else hexPairs value.toList

/-- The key is hexadecimal, and the library takes it. -/
def ValidKey (secretKeyHex : String) : Prop :=
  ∃ secretKey pubkey, hexToBytes secretKeyHex = .ok secretKey ∧ L.getPublicKey secretKey = .ok pubkey

def metadataTemplate (iv : Bytes) (now : ℤ) (metadata : BlobMetadata) (secretKeyHex : String) :
    EventTemplate where
  kind := metadataKind
  createdAt := now
  tags := [["d", metadata.hash], ["client", "nostrmesh"], ["encrypted", "aead-v1"]]
  content := encryptMetadata L iv metadata secretKeyHex

/-- `buildMetadataEvent`, at the time `now` in seconds. -/
def buildMetadataEvent (iv : Bytes) (now : ℤ) (metadata : BlobMetadata) (secretKeyHex : String) :
    Except String Event :=
  match validateMetadata metadata with
  | .error e => .error e
  | .ok () =>
      match hexToBytes secretKeyHex with
      | .error e => .error e
      | .ok secretKey =>
          finalizeEvent L (metadataTemplate L iv now metadata secretKeyHex) secretKey

def parseMetadataEvent (event : Event) (secretKeyHex : String) : Except String BlobMetadata :=
  if event.kind ≠ metadataKind then .error ("Unexpected event kind: " ++ toString event.kind)
  else decryptMetadata L event.content secretKeyHex

/-- The record of a soft delete, read at the time `now`. -/
def softDeleted (now : ℤ) (existing : BlobMetadata) : BlobMetadata :=
  { existing with deleted := some true, uploadedAt := now }

/-- No rule is about what a soft delete changes. -/
@[simp] theorem validateMetadata_softDeleted (now : ℤ) (existing : BlobMetadata) :
    validateMetadata (softDeleted now existing) = validateMetadata existing := rfl

/-- `buildSoftDeleteEvent`; it reads the clock twice. -/
def buildSoftDeleteEvent (iv : Bytes) (deletedAt now : ℤ) (existing : BlobMetadata)
    (secretKeyHex : String) : Except String Event :=
  buildMetadataEvent L iv now (softDeleted deletedAt existing) secretKeyHex

/-- A query for events of some kinds with one of some `d` tags. -/
structure Filter where
  kinds : List ℕ
  dTags : List String
  limit : ℕ
  deriving DecidableEq, Repr

def metadataFilterByHash (hash : String) : Filter := ⟨[metadataKind], [hash], 50⟩

/-! ### What the events carry -/

variable {L} {iv : Bytes} {now : ℤ} {metadata : BlobMetadata} {secretKeyHex : String}
  {event : Event}

/-- **`buildMetadataEvent`**: it signs the template of a valid record, with
the key that the text of the secret stands for. -/
theorem buildMetadataEvent_eq_ok_iff :
    buildMetadataEvent L iv now metadata secretKeyHex = .ok event ↔
      validateMetadata metadata = .ok () ∧ ∃ secretKey pubkey,
        hexToBytes secretKeyHex = .ok secretKey ∧ L.getPublicKey secretKey = .ok pubkey ∧
        event = signedEvent L pubkey secretKey (metadataTemplate L iv now metadata secretKeyHex) := by
  rw [buildMetadataEvent]
  rcases hv : validateMetadata metadata with e | ⟨⟩
  · simp
  · rcases hk : hexToBytes secretKeyHex with e | secretKey
    · simp
    · rcases hp : L.getPublicKey secretKey with e | pubkey
      · simp [finalizeEvent, hp]
      · simp [finalizeEvent, hp, eq_comm]

/-- A valid record is signed as soon as the key is valid. -/
theorem exists_buildMetadataEvent_iff :
    (∃ event, buildMetadataEvent L iv now metadata secretKeyHex = .ok event) ↔
      validateMetadata metadata = .ok () ∧ ValidKey L secretKeyHex := by
  simp only [buildMetadataEvent_eq_ok_iff, ValidKey]
  constructor
  · rintro ⟨_, hvalid, secretKey, pubkey, hsecret, hpubkey, -⟩
    exact ⟨hvalid, secretKey, pubkey, hsecret, hpubkey⟩
  · rintro ⟨hvalid, secretKey, pubkey, hsecret, hpubkey⟩
    exact ⟨_, hvalid, secretKey, pubkey, hsecret, hpubkey, rfl⟩

/-- What a metadata event consists of. -/
theorem buildMetadataEvent_spec
    (h : buildMetadataEvent L iv now metadata secretKeyHex = .ok event) :
    validateMetadata metadata = .ok () ∧ event.kind = metadataKind ∧ event.createdAt = now ∧
      event.tags = [["d", metadata.hash], ["client", "nostrmesh"], ["encrypted", "aead-v1"]] ∧
      event.content = encryptMetadata L iv metadata secretKeyHex := by
  obtain ⟨hvalid, secretKey, pubkey, -, -, rfl⟩ := buildMetadataEvent_eq_ok_iff.mp h
  exact ⟨hvalid, rfl, rfl, rfl, rfl⟩

/-- The content is the record, encrypted under the key of the API. -/
structure Carries (L : Library) (secretKeyHex content : String) (metadata : BlobMetadata) :
    Prop where
  length : 29 ≤ (Bytes.ofBase64 content).length
  version : readUInt8 (Bytes.ofBase64 content) = metadataEncryptionVersion
  plaintext : ∃ plaintext, openPayload L.cipher (metadataKeyFromSecret L secretKeyHex)
    (Bytes.ofBase64 content) = .ok plaintext ∧ L.parse plaintext = .ok metadata
  valid : validateMetadata metadata = .ok ()

theorem decryptMetadata_eq_ok_iff {content : String} :
    decryptMetadata L content secretKeyHex = .ok metadata ↔
      Carries L secretKeyHex content metadata := by
  constructor
  · intro h
    simp only [decryptMetadata] at h
    split at h
    · cases h
    next hlength =>
    split at h
    · cases h
    next hversion =>
    split at h
    · cases h
    next plaintext hopen =>
    split at h
    · cases h
    next metadata' hparse =>
    split at h
    · cases h
    next hvalid =>
    obtain rfl := Except.ok.inj h
    exact ⟨not_lt.mp hlength, not_not.mp hversion, ⟨plaintext, hopen, hparse⟩, hvalid⟩
  · rintro ⟨hlength, hversion, ⟨plaintext, hopen, hparse⟩, hvalid⟩
    simp only [decryptMetadata, if_neg (not_lt.mpr hlength), hversion, ne_eq, not_true, if_false,
      hopen, hparse, hvalid]

/-- **What `parseMetadataEvent` reads**: the content alone, once the kind is
right. -/
theorem parseMetadataEvent_eq_ok_iff : parseMetadataEvent L event secretKeyHex = .ok metadata ↔
    event.kind = metadataKind ∧ Carries L secretKeyHex event.content metadata := by
  rw [parseMetadataEvent]
  by_cases hkind : event.kind = metadataKind
  · rw [if_neg (not_not.mpr hkind), decryptMetadata_eq_ok_iff, and_iff_right hkind]
  · simp [hkind]

/-- The encrypted record is decrypted to itself, if it is valid and its text
is read back. -/
theorem decryptMetadata_of_parse (hcipher : L.cipher.Inverts)
    (hsha256 : ∀ data, (L.sha256 data).length = 32)
    (hparse : L.parse (L.stringify metadata) = .ok metadata) (hiv : iv.length = 12)
    (hvalid : validateMetadata metadata = .ok ()) :
    decryptMetadata L (encryptMetadata L iv metadata secretKeyHex) secretKeyHex
      = .ok metadata := by
  have hkey : (metadataKeyFromSecret L secretKeyHex).length = 32 := hsha256 _
  have hlen : 1 + ivLength + authTagLength ≤ (sealPayload L.cipher metadataEncryptionVersion
      (metadataKeyFromSecret L secretKeyHex) iv (L.stringify metadata)).length :=
    length_sealPayload hcipher hkey hiv
  simp only [ivLength, authTagLength] at hlen
  simp only [decryptMetadata, encryptMetadata, Bytes.ofBase64_toBase64]
  rw [if_neg (by omega), if_neg (by simp), openPayload_sealPayload hcipher hkey hiv]
  simp only [hparse, hvalid]

/-- The size of a valid record is an integer, so it is finite. -/
theorem ReadsBack.parse (hjson : ReadsBack L) (hvalid : validateMetadata metadata = .ok ())
    (hfinite : metadata.uploadedAt.isFinite = true) :
    L.parse (L.stringify metadata) = .ok metadata := by
  obtain ⟨-, -, ⟨hinteger, -⟩, -⟩ := validateMetadata_eq_ok_iff.mp hvalid
  exact hjson metadata (Js.Num.isFinite_of_isInteger hinteger) hfinite

theorem decryptMetadata_encryptMetadata (hL : L.Lawful) (hiv : iv.length = 12)
    (hvalid : validateMetadata metadata = .ok ()) (hfinite : metadata.uploadedAt.isFinite = true) :
    decryptMetadata L (encryptMetadata L iv metadata secretKeyHex) secretKeyHex
      = .ok metadata :=
  decryptMetadata_of_parse hL.inverts hL.length_sha256 (hL.parse_stringify.parse hvalid hfinite)
    hiv hvalid

/-- A metadata event carries its record, if the text of the record is read
back. -/
theorem parseMetadataEvent_of_parse (hcipher : L.cipher.Inverts)
    (hsha256 : ∀ data, (L.sha256 data).length = 32)
    (hparse : L.parse (L.stringify metadata) = .ok metadata) (hiv : iv.length = 12)
    (h : buildMetadataEvent L iv now metadata secretKeyHex = .ok event) :
    parseMetadataEvent L event secretKeyHex = .ok metadata := by
  obtain ⟨hvalid, hkind, -, -, hcontent⟩ := buildMetadataEvent_spec h
  rw [parseMetadataEvent, if_neg (by simp [hkind]), hcontent,
    decryptMetadata_of_parse hcipher hsha256 hparse hiv hvalid]

/-- **A metadata event carries its record.** -/
theorem parseMetadataEvent_buildMetadataEvent (hL : L.Lawful) (hiv : iv.length = 12)
    (hfinite : metadata.uploadedAt.isFinite = true)
    (h : buildMetadataEvent L iv now metadata secretKeyHex = .ok event) :
    parseMetadataEvent L event secretKeyHex = .ok metadata :=
  parseMetadataEvent_of_parse hL.inverts hL.length_sha256
    (hL.parse_stringify.parse (buildMetadataEvent_spec h).1 hfinite) hiv h

end NostrMesh.Api
