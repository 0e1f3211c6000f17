/-
NostrMesh/Api/Blobs.lean

The handlers of `/blobs`, as programs over what they do outside of their own
memory: read the clock, call the Blossom server, publish to and query the
relay.  Another handler can get in between at each of these operations.

Random bytes are part of a request.  An error that a handler throws ends in
the error handler, which answers 500 with its message.
-/
import NostrMesh.Api.BlossomClient
import NostrMesh.Api.NostrClient
import NostrMesh.Lib.Program

namespace NostrMesh.Api

open Interleaving

structure Config where
  blossomPublicUrl : String
  nostrSecretKey : String
  deriving DecidableEq, Repr

/-! ### Operations -/

inductive Op
  /-- `Math.floor(Date.now() / 1000)`. -/
  | now
  | putUpload (authorization : String) (payload : Bytes)
  | getBlob (authorization : String) (sha256 : String)
  | publish (event : Event)
  | querySync (filter : Filter)
  deriving DecidableEq

/-- What an operation answers; `publish` answers whether the promise of some
relay was kept. -/
abbrev Res : Op → Type
  | .now => ℤ
  | .putUpload _ _ => Blossom.Response
  | .getBlob _ _ => Blossom.Response
  | .publish _ => Bool
  | .querySync _ => List Event

abbrev Handler (α : Type) := Prog Op Res α

/-- One operation. -/
abbrev perform (o : Op) : Handler (Res o) := Prog.perform o

/-! ### Requests and answers -/

/-- A file as the upload middleware leaves it. -/
structure UploadedFile where
  originalname : String
  mimetype : String
  buffer : Bytes
  deriving DecidableEq, Repr

/-- The random bytes of an upload: the key and the iv of the file, and the
iv of its record. -/
structure Random where
  key : Bytes
  iv : Bytes
  metadataIv : Bytes
  deriving DecidableEq, Repr

inductive Request
  | post (file : Option UploadedFile) (folder : Option String) (random : Random)
  | get (hash : String)
  | download (hash : String)
  | delete (hash : String) (metadataIv : Bytes)
  deriving DecidableEq, Repr

inductive Answer
  | created (eventId hash downloadUrl : String) (metadata : BlobMetadata)
  | metadata (metadata : BlobMetadata) (downloadUrl : String)
  | file (contentType contentDisposition : String) (body : Bytes)
  | deleted (hash eventId : String)
  | error (status : ℕ) (error : String)
  deriving DecidableEq

/-! ### The clients -/

variable (L : Library) (config : Config)

def normalizeHash (hash : String) : Except String String :=
  let normalized := Js.toLowerCase (Js.trim hash)
  if Blossom.isHash normalized then .ok normalized else .error "Invalid hash format"

theorem isHash_of_normalizeHash {name hash : String} (h : normalizeHash name = .ok hash) :
    Blossom.isHash hash = true := by
  simp only [normalizeHash] at h
  split at h
  · next hhash =>
    rw [← Except.ok.inj h]
    exact hhash
  · cases h

theorem normalizeHash_of_isHash {hash : String} (h : Blossom.isHash hash = true) :
    normalizeHash hash = .ok hash := by
  have hsame := Blossom.normalizeHash_of_isHash h
  simp only [Blossom.normalizeHash] at hsame
  simp only [normalizeHash]
  split at hsame
  · next hnormal => rw [if_pos hnormal, Except.ok.inj hsame]
  · cases hsame

-- to unfold it on a text that is not known leads nowhere
attribute [irreducible] normalizeHash

def uploadBlob (payload : Bytes) (filename : String) : Handler (Except String String) := do
  let now ← perform .now
  match buildAuthHeader L config.nostrSecretKey "upload" ("Upload " ++ filename) 60 now with
  | .error e => return .error e
  | .ok authHeader =>
      let response ← perform (.putUpload authHeader payload)
      return uploadResult response

def downloadBlob (sha256 : String) : Handler (Except String Bytes) := do
  let now ← perform .now
  match buildAuthHeader L config.nostrSecretKey "get" ("Get " ++ sha256) 60 now with
  | .error e => return .error e
  | .ok authHeader =>
      let response ← perform (.getBlob authHeader sha256)
      return downloadResult response

def publishEvent (event : Event) : Handler (Except String Unit) := do
  let accepted : Bool ← perform (.publish event)
  return if accepted then .ok () else .error "All promises were rejected"

/-- `resolveMetadata(hash)`: the query, and what is made of the events. -/
def resolveHash (hash : String) : Handler (Except String (Option BlobMetadata)) := do
  let arrived ← perform (.querySync (metadataFilterByHash hash))
  return resolveMetadata L config.nostrSecretKey arrived

/-! ### The handlers -/

def downloadUrl (hash : String) : String := "/blobs/" ++ hash ++ "/download"

/-- The folder of a request: the field if it is a string that is not blank. -/
def folderOf (folder : Option String) : String :=
  match folder with
  | some folder => if Js.trim folder = "" then "/" else folder
  | none => "/"

/-- The record of an upload. -/
def uploadedMetadata (file : UploadedFile) (folder : Option String) (sha256 encryptionKey : String)
    (uploadedAt : ℤ) : BlobMetadata where
  name := file.originalname
  hash := sha256
  size := (file.buffer.length : ℤ)
  type := if file.mimetype = "" then "application/octet-stream" else file.mimetype
  folder := folderOf folder
  uploadedAt := uploadedAt
  server := config.blossomPublicUrl
  encryptionKey := encryptionKey
  deleted := none

/-- `POST /`. -/
def postBlob (file : Option UploadedFile) (folder : Option String) (random : Random) :
    Handler Answer := do
  match file with
  | none => return .error 400 "Missing file upload field 'file'"
  | some file =>
      match encryptBlob L.cipher random.key random.iv file.buffer none with
      | .error e => return .error 500 e
      | .ok encrypted =>
          match ← uploadBlob L config encrypted.ciphertext file.originalname with
          | .error e => return .error 500 e
          | .ok sha256 =>
              let uploadedAt ← perform .now
              let metadata :=
                uploadedMetadata config file folder sha256 encrypted.encryptionKey uploadedAt
              let now ← perform .now
              match buildMetadataEvent L random.metadataIv now metadata config.nostrSecretKey with
              | .error e => return .error 500 e
              | .ok metadataEvent =>
                  match ← publishEvent metadataEvent with
                  | .error e => return .error 500 e
                  | .ok () =>
                      return .created metadataEvent.id metadata.hash (downloadUrl metadata.hash)
                        metadata

/-- `GET /:hash`. -/
def getMetadata (hash : String) : Handler Answer := do
  match normalizeHash hash with
  | .error e => return .error 500 e
  | .ok hash =>
      match ← resolveHash L config hash with
      | .error e => return .error 500 e
      | .ok none => return .error 404 "Metadata not found"
      | .ok (some metadata) =>
          if metadata.isDeleted then return .error 410 "Blob metadata is marked deleted"
          else return .metadata metadata (downloadUrl hash)

/-- `GET /:hash/download` up to the decrypted content, or an answer without
content. -/
def decryptedContent (hash : String) : Handler (Except Answer (BlobMetadata × Bytes)) := do
  match normalizeHash hash with
  | .error e => return .error (.error 500 e)
  | .ok hash =>
      match ← resolveHash L config hash with
      | .error e => return .error (.error 500 e)
      | .ok none => return .error (.error 404 "Blob not found")
      | .ok (some metadata) =>
          if metadata.isDeleted then return .error (.error 404 "Blob not found")
          else
            match ← downloadBlob L config hash with
            | .error e => return .error (.error 500 e)
            | .ok encryptedPayload =>
                match decryptBlob L.cipher encryptedPayload metadata.encryptionKey with
                | .error e => return .error (.error 500 e)
                | .ok decrypted => return .ok (metadata, decrypted)

/-- A text that `setHeader` takes. -/
def isHeaderValue (value : String) : Bool :=
  value.toList.all fun c =>
    c.toNat = 9 || (32 ≤ c.toNat && c.toNat ≤ 126) || (128 ≤ c.toNat && c.toNat ≤ 255)

/-- The end of `GET /:hash/download`. -/
def sendContent (metadata : BlobMetadata) (decrypted : Bytes) : Answer :=
  let contentType := if metadata.type = "" then "application/octet-stream" else metadata.type
  let contentDisposition := "attachment; filename=\"" ++ metadata.name ++ "\""
  if !isHeaderValue contentType then
    .error 500 "Invalid character in header content [\"Content-Type\"]"
  else if !isHeaderValue contentDisposition then
    .error 500 "Invalid character in header content [\"Content-Disposition\"]"
  else .file contentType contentDisposition decrypted

/-- `GET /:hash/download`. -/
def getContent (hash : String) : Handler Answer := do
  match ← decryptedContent L config hash with
  | .error answer => return answer
  | .ok (metadata, decrypted) => return sendContent metadata decrypted

/-- `DELETE /:hash`. -/
def deleteBlob (hash : String) (metadataIv : Bytes) : Handler Answer := do
  match normalizeHash hash with
  | .error e => return .error 500 e
  | .ok hash =>
      match ← resolveHash L config hash with
      | .error e => return .error 500 e
      | .ok none => return .error 404 "Metadata not found"
      | .ok (some metadata) =>
          let deletedAt ← perform .now
          let now ← perform .now
          match buildSoftDeleteEvent L metadataIv deletedAt now metadata config.nostrSecretKey with
          | .error e => return .error 500 e
          | .ok deleteEvent =>
              match ← publishEvent deleteEvent with
              | .error e => return .error 500 e
              | .ok () => return .deleted hash deleteEvent.id

/-- The handler of a request. -/
def handle : Request → Handler Answer
  | .post file folder random => postBlob L config file folder random
  | .get hash => getMetadata L config hash
  | .download hash => getContent L config hash
  | .delete hash metadataIv => deleteBlob L config hash metadataIv

end NostrMesh.Api
