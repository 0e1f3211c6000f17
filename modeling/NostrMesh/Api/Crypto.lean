/-
NostrMesh/Api/Crypto.lean

Encrypted payloads of the API.  File contents and metadata share one layout,

    version (1 byte) | iv (12 bytes) | tag (16 bytes) | encrypted bytes

under AES-256-GCM, which is the parameter `Cipher`.  `openPayload_sealPayload`
says that the fields are cut where they were joined; with a cipher whose
decryption inverts its encryption (`Cipher.Inverts`) it gives the round trip
of `encryptBlob` and `decryptBlob`.

Random bytes are arguments: the key that is drawn when none is given, and the
iv.
-/
import NostrMesh.Lib.Bytes

namespace NostrMesh.Api

/-! ### AES-256-GCM -/

/-- The cipher of the platform: encrypted bytes and tag for a key, an iv and
a plaintext, and back; `none` where the tag does not fit. -/
structure Cipher where
  encrypt : (key iv data : Bytes) → Bytes × Bytes
  decrypt : (key iv tag encrypted : Bytes) → Option Bytes

/-- Decryption inverts encryption under the same key and iv, for keys and ivs
of the right size, and tags have 16 bytes. -/
structure Cipher.Inverts (C : Cipher) : Prop where
  decrypt_encrypt : ∀ key iv data, key.length = 32 → iv.length = 12 →
    C.decrypt key iv (C.encrypt key iv data).2 (C.encrypt key iv data).1 = some data
  length_tag : ∀ key iv data, key.length = 32 → iv.length = 12 →
    (C.encrypt key iv data).2.length = 16

variable (C : Cipher)

/-! ### The layout -/

def keyLength : ℕ := 32
def ivLength : ℕ := 12
def authTagLength : ℕ := 16

/-- `buffer.subarray(start, stop)`. -/
def subarray (buffer : Bytes) (start stop : ℕ) : Bytes := (buffer.take stop).drop start

/-- `buffer.readUInt8(0)`, for a buffer that is not empty. -/
def readUInt8 (buffer : Bytes) : UInt8 := buffer.headD 0

/-- `Buffer.concat([version, iv, authTag, encrypted])`. -/
def sealPayload (version : UInt8) (key iv data : Bytes) : Bytes :=
  [version] ++ iv ++ (C.encrypt key iv data).2 ++ (C.encrypt key iv data).1

/-- The text of the error that `decipher.final()` throws. -/
def authenticationError : String := "Unsupported state or unable to authenticate data"

/-- The end of both decryption functions, after their checks. -/
def openPayload (key payload : Bytes) : Except String Bytes :=
  let iv := subarray payload 1 (1 + ivLength)
  let authTag := subarray payload (1 + ivLength) (1 + ivLength + authTagLength)
  let encrypted := payload.drop (1 + ivLength + authTagLength)
  match C.decrypt key iv authTag encrypted with
  | some data => .ok data
  | none => .error authenticationError

/-! ### Blobs -/

def payloadVersion : UInt8 := 1

structure EncryptedBlob where
  ciphertext : Bytes
  encryptionKey : String
  deriving DecidableEq, Repr

/-- `encryptBlob`, with the random key and iv that it draws. -/
def encryptBlob (randomKey iv data : Bytes) (existingKeyHex : Option String) :
    Except String EncryptedBlob :=
  let key := match existingKeyHex with
    | some hex => if hex = "" then randomKey else Bytes.ofHex hex
    | none => randomKey
  if key.length ≠ keyLength then .error "Encryption key must be 32 bytes (64 hex chars)"
  else .ok ⟨sealPayload C payloadVersion key iv data, Bytes.toHex key⟩

def decryptBlob (payload : Bytes) (encryptionKeyHex : String) : Except String Bytes :=
  let key := Bytes.ofHex encryptionKeyHex
  if key.length ≠ keyLength then .error "Invalid encryption key size"
  else if payload.length < 1 + ivLength + authTagLength then
    .error "Ciphertext payload is too small"
  else
    let version := readUInt8 payload
    if version ≠ payloadVersion then
      .error ("Unsupported payload version: " ++ toString version.toNat)
    else openPayload C key payload

/-! ### Round trips -/

variable {C} {key iv data : Bytes} {version : UInt8}

@[simp] theorem readUInt8_sealPayload :
    readUInt8 (sealPayload C version key iv data) = version := by
  simp [readUInt8, sealPayload]

theorem length_sealPayload (hC : C.Inverts) (hkey : key.length = 32) (hiv : iv.length = 12) :
    1 + ivLength + authTagLength ≤ (sealPayload C version key iv data).length := by
  have htag := hC.length_tag key iv data hkey hiv
  simp only [sealPayload, List.length_append, List.length_singleton, ivLength, authTagLength]
  omega

/-- Fields of these sizes are cut where they were joined. -/
theorem cut_append {v iv tag : Bytes} (encrypted : Bytes) (hv : v.length = 1)
    (hiv : iv.length = ivLength) (htag : tag.length = authTagLength) :
    subarray (v ++ iv ++ tag ++ encrypted) 1 (1 + ivLength) = iv ∧
      subarray (v ++ iv ++ tag ++ encrypted) (1 + ivLength) (1 + ivLength + authTagLength) = tag ∧
      (v ++ iv ++ tag ++ encrypted).drop (1 + ivLength + authTagLength) = encrypted := by
  have hvi : (v ++ iv).length = 1 + ivLength := by rw [List.length_append, hv, hiv]
  have hvit : (v ++ iv ++ tag).length = 1 + ivLength + authTagLength := by
    rw [List.length_append, hvi, htag]
  refine ⟨?_, ?_, ?_⟩
  · rw [subarray, List.append_assoc (v ++ iv), List.take_left' hvi, List.drop_left' hv]
  · rw [subarray, List.take_left' hvit, List.drop_left' hvi]
  · rw [List.drop_left' hvit]

/-- The fields of a payload are cut where they were joined. -/
theorem openPayload_sealPayload (hC : C.Inverts) (hkey : key.length = 32) (hiv : iv.length = 12) :
    openPayload C key (sealPayload C version key iv data) = .ok data := by
  obtain ⟨hcutIv, hcutTag, hcutData⟩ := @cut_append [version] iv (C.encrypt key iv data).2
    (C.encrypt key iv data).1 rfl hiv (hC.length_tag key iv data hkey hiv)
  simp only [openPayload, sealPayload, hcutIv, hcutTag, hcutData,
    hC.decrypt_encrypt key iv data hkey hiv]

/-- **`decryptBlob` inverts `encryptBlob`**, for any data and any random key
and iv of the right size. -/
theorem decryptBlob_encryptBlob (hC : C.Inverts) (hkey : key.length = 32) (hiv : iv.length = 12)
    (data : Bytes) :
    ∃ blob, encryptBlob C key iv data none = .ok blob ∧
      blob.encryptionKey = Bytes.toHex key ∧
        decryptBlob C blob.ciphertext blob.encryptionKey = .ok data := by
  refine ⟨⟨sealPayload C payloadVersion key iv data, Bytes.toHex key⟩, ?_, rfl, ?_⟩
  · simp [encryptBlob, keyLength, hkey]
  · have hlen : 1 + ivLength + authTagLength ≤ (sealPayload C payloadVersion key iv data).length :=
      length_sealPayload hC hkey hiv
    have hopen : openPayload C key (sealPayload C payloadVersion key iv data) = .ok data :=
      openPayload_sealPayload hC hkey hiv
    simp only [decryptBlob, Bytes.ofHex_toHex]
    rw [if_neg (by simp [keyLength, hkey]), if_neg (by omega), if_neg (by simp), hopen]

end NostrMesh.Api
