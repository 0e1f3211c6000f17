/-
NostrMesh/Api/System.lean

The API, the Blossom server and the relay together.

The world is a clock, the files of the server and the tables of the relay.
`eff` says what an operation of a handler does to it: time passes, a request
may get lost on the way or its answer on the way back, a write may fail or be
cut short, the relay may refuse an event for reasons of its own, and a
statement may fail.  The relay answers queries from what it holds.

The world is `Sound` if the clock is a date and the relay is a shelf of this
API.  Each handler keeps it so and touches no hash but its own (`Guarantee`),
which is what the others rely on (`Rely`).
-/
import NostrMesh.Api.Blobs
import NostrMesh.Api.Shelf
import NostrMesh.Blossom.Addressing

namespace NostrMesh.Api

open Interleaving Relay

/-! ### The world -/

structure World where
  now : ℕ
  files : Blossom.Files
  db : Database

/-- The last second that is a date. -/
def lastSecond : ℕ := 8640000000000

/-- Time passes. -/
def World.Waits (W W' : World) : Prop :=
  ∃ now, W.now ≤ now ∧ now ≤ lastSecond ∧ W' = { W with now }

section

variable (B : Blossom.Library) (server : Blossom.Config)

/-- `PUT /upload` at the server, with a write that ends in some way. -/
def serveUpload (authorization : String) (payload : Bytes) (write : Blossom.Write) (W : World) :
    Blossom.Response × Blossom.Files :=
  Blossom.serve B server ⟨none, .put (some authorization) (some payload), W.now, write⟩ W.files

/-- `GET /:sha256` at the server. -/
def serveGet (authorization sha256 : String) (W : World) : Blossom.Response :=
  (Blossom.serve B server ⟨none, .get (some authorization) sha256, W.now, .completes⟩ W.files).1

def ReadsClock (W : World) (now : ℤ) (W' : World) : Prop := W.Waits W' ∧ now = W'.now

/-- The request is lost, or it is served and perhaps its answer is lost. -/
def PutsUpload (authorization : String) (payload : Bytes) (W : World)
    (response : Blossom.Response) (W' : World) : Prop :=
  ∃ W₁, W.Waits W₁ ∧ ((response = .none ∧ W' = W₁) ∨ ∃ write,
    W' = { W₁ with files := (serveUpload B server authorization payload write W₁).2 } ∧
    (response = (serveUpload B server authorization payload write W₁).1 ∨ response = .none))

def GetsBlob (authorization sha256 : String) (W : World) (response : Blossom.Response)
    (W' : World) : Prop :=
  W.Waits W' ∧ (response = serveGet B server authorization sha256 W' ∨ response = .none)

/-- The event is lost or turned away, or it is handled and perhaps the reply
is lost. -/
def Publishes (event : Event) (W : World) (accepted : Bool) (W' : World) : Prop :=
  ∃ W₁, W.Waits W₁ ∧ ((accepted = false ∧ W' = W₁) ∨
    ∃ F firstSeen remoteAddress emits db',
      handleEvent flatSchema F firstSeen (received event remoteAddress) W₁.db = (emits, db') ∧
      W' = { W₁ with db := db' } ∧ (accepted = true → Acknowledged event emits))

/-- The events of the answer arrive, in any order and any number of times. -/
def Queries (filter : Filter) (W : World) (arrived : List Event) (W' : World) : Prop :=
  W.Waits W' ∧ ∃ order answer, fetchAndSend none [filter.toSubscription] W'.db order = .ok answer ∧
    ∀ event, event ∈ arrived ↔ event ∈ answer

/-- What an operation answers and does. -/
def eff : (o : Op) → World → Res o → World → Prop
  | .now => ReadsClock
  | .putUpload authorization payload => PutsUpload B server authorization payload
  | .getBlob authorization sha256 => GetsBlob B server authorization sha256
  | .publish event => Publishes event
  | .querySync filter => Queries filter

end

/-! ### Requests and their hashes -/

variable (L : Library) (config : Config)

/-- The payload of a file under the key and the iv that were drawn for it. -/
def encryptedContent (file : UploadedFile) (random : Random) : Bytes :=
  sealPayload L.cipher payloadVersion random.key random.iv file.buffer

theorem encryptBlob_upload {file : UploadedFile} {random : Random}
    (hkey : random.key.length = keyLength) :
    encryptBlob L.cipher random.key random.iv file.buffer none
      = .ok ⟨encryptedContent L file random, Bytes.toHex random.key⟩ := by
  simp [encryptBlob, encryptedContent, hkey]

/-- The encrypted content that a request uploads. -/
def payloadOf : Request → Option Bytes
  | .post (some file) _ random => some (encryptedContent L file random)
  | _ => none

/-- The request uploads content of this hash. -/
def Uploads (request : Request) (hash : String) : Prop :=
  ∃ payload, payloadOf L request = some payload ∧ Bytes.toHex (L.sha256 payload) = hash

/-- The request deletes this hash. -/
def Request.Deletes (request : Request) (hash : String) : Prop :=
  ∃ name metadataIv, request = .delete name metadataIv ∧ normalizeHash name = .ok hash

/-- The record of the hash is marked as deleted. -/
def Deleted (hash : String) (W : World) : Prop :=
  ∃ now metadata, recordAt L config.nostrSecretKey W.db hash = some (now, .ok metadata) ∧
    metadata.isDeleted = true

/-! ### Invariant, guarantee and rely -/

structure Sound (W : World) : Prop where
  now_le : W.now ≤ lastSecond
  shelf : Shelf L config.nostrSecretKey W.db

/-- What a request may do to the world. -/
structure Guarantee (request : Request) (W W' : World) : Prop where
  now_le : W.now ≤ W'.now
  files : ∀ hash, ¬ Uploads L request hash → W'.files hash = W.files hash
  record : ∀ hash, ¬ Uploads L request hash → ¬ request.Deletes hash →
    recordAt L config.nostrSecretKey W'.db hash = recordAt L config.nostrSecretKey W.db hash
  created : ∀ hash, ¬ Uploads L request hash →
    recordAt L config.nostrSecretKey W.db hash = none →
    recordAt L config.nostrSecretKey W'.db hash = none
  kept : ∀ hash, recordAt L config.nostrSecretKey W.db hash ≠ none →
    recordAt L config.nostrSecretKey W'.db hash ≠ none
  deleted : ∀ hash, Deleted L config hash W → Deleted L config hash W'

/-- What a request may rely on, where nobody deletes the hashes of `P`. -/
structure Rely (P : String → Prop) (request : Request) (W W' : World) : Prop where
  now_le : W.now ≤ W'.now
  files : ∀ hash, Uploads L request hash → W'.files hash = W.files hash
  record : ∀ hash, Uploads L request hash → P hash →
    recordAt L config.nostrSecretKey W'.db hash = recordAt L config.nostrSecretKey W.db hash
  created : ∀ hash, Uploads L request hash →
    recordAt L config.nostrSecretKey W.db hash = none →
    recordAt L config.nostrSecretKey W'.db hash = none
  kept : ∀ hash, recordAt L config.nostrSecretKey W.db hash ≠ none →
    recordAt L config.nostrSecretKey W'.db hash ≠ none
  deleted : ∀ hash, Deleted L config hash W → Deleted L config hash W'

variable {L config} {P : String → Prop} {request : Request} {W W' W₁ W₂ W₃ : World} {hash : String}

theorem Rely.refl (W : World) : Rely L config P request W W :=
  ⟨le_rfl, fun _ _ => rfl, fun _ _ _ => rfl, fun _ _ => id, fun _ => id, fun _ => id⟩

theorem Rely.trans (h₁ : Rely L config P request W₁ W₂) (h₂ : Rely L config P request W₂ W₃) :
    Rely L config P request W₁ W₃ where
  now_le := h₁.now_le.trans h₂.now_le
  files hash hup := (h₂.files hash hup).trans (h₁.files hash hup)
  record hash hup hP := (h₂.record hash hup hP).trans (h₁.record hash hup hP)
  created hash hup := h₂.created hash hup ∘ h₁.created hash hup
  kept hash := h₂.kept hash ∘ h₁.kept hash
  deleted hash := h₂.deleted hash ∘ h₁.deleted hash

/-- A request that uploads other content and deletes no hash of `P` keeps to
the rely. -/
theorem Guarantee.rely {other : Request} (h : Guarantee L config other W W')
    (hup : ∀ hash, Uploads L request hash → ¬ Uploads L other hash)
    (hP : ∀ hash, P hash → ¬ other.Deletes hash) : Rely L config P request W W' where
  now_le := h.now_le
  files hash hhash := h.files hash (hup hash hhash)
  record hash hhash hPhash := h.record hash (hup hash hhash) (hP hash hPhash)
  created hash hhash := h.created hash (hup hash hhash)
  kept := h.kept
  deleted := h.deleted

/-- A step that leaves files and tables alone. -/
theorem Guarantee.of_eq (hnow : W.now ≤ W'.now) (hfiles : W'.files = W.files)
    (hdb : W'.db = W.db) : Guarantee L config request W W' where
  now_le := hnow
  files hash _ := by rw [hfiles]
  record hash _ _ := by rw [hdb]
  created hash _ h := by rwa [hdb]
  kept hash h := by rwa [hdb]
  deleted hash h := by rwa [Deleted, hdb]

/-- A write to the register of the own hash: an upload finds it empty, a
deletion does not and marks it. -/
theorem Guarantee.of_write {now : ℤ} {metadata : BlobMetadata} (hnow : W.now ≤ W'.now)
    (hfiles : W'.files = W.files)
    (hwrite : ∀ hash, recordAt L config.nostrSecretKey W'.db hash =
      if hash = metadata.hash then
        Registers.write (recordAt L config.nostrSecretKey W.db hash) (now, .ok metadata)
      else recordAt L config.nostrSecretKey W.db hash)
    (hown : (Uploads L request metadata.hash ∧
        recordAt L config.nostrSecretKey W.db metadata.hash = none) ∨
      (request.Deletes metadata.hash ∧
        recordAt L config.nostrSecretKey W.db metadata.hash ≠ none ∧ metadata.isDeleted = true)) :
    Guarantee L config request W W' where
  now_le := hnow
  files hash _ := by rw [hfiles]
  record hash hup hdel := by
    have hne : hash ≠ metadata.hash := by
      rintro rfl
      rcases hown with ⟨h, -⟩ | ⟨h, -⟩
      · exact hup h
      · exact hdel h
    rw [hwrite, if_neg hne]
  created hash hup hnone := by
    have hne : hash ≠ metadata.hash := by
      rintro rfl
      rcases hown with ⟨h, -⟩ | ⟨-, h, -⟩
      · exact hup h
      · exact h hnone
    rw [hwrite, if_neg hne, hnone]
  kept hash hsome := by
    rw [hwrite]
    split
    · exact Registers.write_ne_none
    · exact hsome
  deleted hash := by
    rintro ⟨t, m, hheld, hm⟩
    by_cases heq : hash = metadata.hash
    · subst heq
      rcases hown with ⟨-, hnone⟩ | ⟨-, -, hdeleted⟩
      · rw [hnone] at hheld
        cases hheld
      · have hafter := hwrite metadata.hash
        rw [if_pos rfl] at hafter
        rcases Registers.write_cases (recordAt L config.nostrSecretKey W.db metadata.hash)
          (now, .ok metadata) with hnew | hsame
        · exact ⟨now, metadata, hafter.trans hnew, hdeleted⟩
        · exact ⟨t, m, hafter.trans (hsame.trans hheld), hm⟩
    · exact ⟨t, m, by rw [hwrite, if_neg heq, hheld], hm⟩

/-! ### What time does -/

theorem World.Waits.now_le (h : W.Waits W') : W.now ≤ W'.now := by
  obtain ⟨now, hle, -, rfl⟩ := h
  exact hle

theorem World.Waits.files (h : W.Waits W') : W'.files = W.files := by
  obtain ⟨now, -, -, rfl⟩ := h
  rfl

theorem World.Waits.db (h : W.Waits W') : W'.db = W.db := by
  obtain ⟨now, -, -, rfl⟩ := h
  rfl

theorem World.Waits.sound (h : W.Waits W') (hW : Sound L config W) : Sound L config W' := by
  obtain ⟨now, -, hle, rfl⟩ := h
  exact ⟨hle, hW.shelf⟩

theorem World.Waits.rely (h : W.Waits W') : Rely L config P request W W' := by
  obtain ⟨now, hle, -, rfl⟩ := h
  exact ⟨hle, fun _ _ => rfl, fun _ _ _ => rfl, fun _ _ => id, fun _ => id, fun _ => id⟩

theorem World.Waits.guarantee (h : W.Waits W') : Guarantee L config request W W' :=
  .of_eq h.now_le h.files h.db

/-- Waiting for no time. -/
theorem World.waits_self (h : W.now ≤ lastSecond) : W.Waits W := ⟨W.now, le_rfl, h, rfl⟩

theorem Sound.waits (hW : Sound L config W) : W.Waits W := World.waits_self hW.now_le

/-- The clock is read at once. -/
theorem readsClock_now (h : W.now ≤ lastSecond) : ReadsClock W W.now W :=
  ⟨World.waits_self h, rfl⟩

end NostrMesh.Api
