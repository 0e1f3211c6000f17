/-
NostrMesh/Relay/Identity.lean

How an event gets its id, and what the id says about the event.

`getEventHash` hashes the JSON text of `serializeEvent`.  The text can be read
back (`serializeEvent_inj`), so that events with one id agree in all but their
signatures unless SHA-256 has a collision (`collisionFree_iff`).

The relay makes events of its own: `sendInvoiceUpdateNotification` identifies
and signs them.
-/
import NostrMesh.Lib.Delimited
import NostrMesh.Relay.Lossless
import NostrMesh.Relay.StoreInvariant

namespace NostrMesh.Relay.Identity

open Lossless (toJSON stringifyTag jsonText_eq)
open Traffic (Runtime Message CollisionFree Valid)

/-! ### The canonical text -/

/-- `JSON.stringify` of an integer below 10^21. -/
def numberText (n : ℤ) : List Char := (toString n).toList

/-- `JSON.stringify(serializeEvent(event))`. -/
def serializeEvent (pubkey : String) (event : EventTemplate) : List Char :=
  JsonText.array [] [numberText 0, jsonText pubkey, numberText event.createdAt,
    numberText event.kind, toJSON event.tags, jsonText event.content]

/-- What the relay takes from `@noble/secp256k1`; signatures and public keys
as bytes. -/
structure Secp256k1 where
  sha256 : Bytes → Bytes
  /-- `schnorr.verify`. -/
  verify : (signature hash pubkey : String) → Bool
  /-- `schnorr.sign`. -/
  sign : (hash privkey : String) → Bytes
  /-- `getPublicKey(privkey, true).subarray(1)`. -/
  getPublicKey : (privkey : String) → Bytes
  /-- `utils.isValidPrivateKey`; for any other key the library throws. -/
  isValidPrivateKey : (privkey : String) → Bool

/-- Hashes and public keys have 32 bytes, signatures have 64 and verify. -/
structure Secp256k1.Reliable (K : Secp256k1) : Prop where
  length_sha256 : ∀ b, (K.sha256 b).length = 32
  length_getPublicKey : ∀ {privkey}, K.isValidPrivateKey privkey = true →
    (K.getPublicKey privkey).length = 32
  length_sign : ∀ {hash privkey}, LiveEvents.hexSchema 64 hash = true →
    K.isValidPrivateKey privkey = true → (K.sign hash privkey).length = 64
  verify_sign : ∀ {hash privkey}, LiveEvents.hexSchema 64 hash = true →
    K.isValidPrivateKey privkey = true →
    K.verify (Bytes.toHex (K.sign hash privkey)) hash (Bytes.toHex (K.getPublicKey privkey)) = true

variable (K : Secp256k1)

/-- `Buffer.from(JSON.stringify(serializeEvent(event)))`. -/
def canonicalBytes (pubkey : String) (event : EventTemplate) : Bytes :=
  Bytes.ofText (String.ofList (serializeEvent pubkey event))

def getEventHash (pubkey : String) (event : EventTemplate) : String :=
  Bytes.toHex (K.sha256 (canonicalBytes pubkey event))

def getPublicKey (privkey : String) : String := Bytes.toHex (K.getPublicKey privkey)

/-- The libraries of the relay, with its own function for ids. -/
def runtime (safeInteger : String → Option ℤ) : Runtime where
  eventHash := getEventHash K
  verify := K.verify
  safeInteger := safeInteger

/-! ### Events of the relay -/

/-- `signEvent(privkey)` after `identifyEvent`. -/
def identifyAndSign (privkey pubkey : String) (event : EventTemplate) : Event :=
  let id := getEventHash K pubkey event
  ⟨id, pubkey, event.createdAt, event.kind, event.tags, event.content,
    Bytes.toHex (K.sign id privkey)⟩

/-- What `sendInvoiceUpdateNotification` reads of an invoice. -/
structure UpdatedInvoice where
  id : String
  pubkey : String
  bolt11 : String
  unit : String
  amountPaid : Option ℤ
  deriving DecidableEq, Repr

/-- The event that `sendInvoiceUpdateNotification` persists and broadcasts, with
a key that the library takes; `nextMonth` is the same day of the next month, in
local time. -/
def sendInvoiceUpdateNotification (relayPrivkey : String) (nextMonth : ℤ → ℤ) (now : ℤ)
    (invoice : UpdatedInvoice) : Except String ReceivedEvent :=
  match invoice.amountPaid with
  | none => .error ("Unable to notify user " ++ invoice.pubkey ++ " for invoice " ++ invoice.id)
  | some amountPaid =>
      let inMsats := invoice.unit = "msats"
      let amount := if inMsats then amountPaid.tdiv 1000 else amountPaid
      let unit := if inMsats then "sats" else invoice.unit
      let expiration := nextMonth now / 1000
      let unsignedInvoiceEvent : EventTemplate :=
        { kind := EventKinds.invoiceUpdate
          createdAt := now / 1000
          content := "Invoice paid: " ++ toString amount ++ " " ++ unit
          tags := [["p", invoice.pubkey], ["bolt11", invoice.bolt11],
            ["expiration", toString expiration]] }
      .ok
        { identifyAndSign K relayPrivkey (getPublicKey K relayPrivkey) unsignedInvoiceEvent with
          remoteAddress := none
          expiration := some expiration }

/-! ### The canonical text can be read back -/

/-- No number has a comma in it. -/
theorem comma_notMem_numberText (n : ℤ) : ',' ∉ numberText n := by
  have hdigits : ∀ m : ℕ, ',' ∉ m.repr.toList := fun m h =>
    absurd (Js.isDigit_of_mem_repr h) (by decide)
  cases n with
  | ofNat m => exact hdigits m
  | negSucc m =>
      rw [numberText, Js.toList_toString_negSucc, List.mem_cons, not_or]
      exact ⟨by decide, hdigits (m + 1)⟩

theorem numberText_injective : Function.Injective numberText := fun m n h => by
  rw [← Js.numberOfDecimal_toString m, ← Js.numberOfDecimal_toString n]
  exact congrArg Js.numberOfDecimal h

theorem numberText_append_inj {m n : ℤ} {rest rest' : List Char} :
    numberText m ++ ',' :: rest = numberText n ++ ',' :: rest' ↔ m = n ∧ rest = rest' := by
  rw [Delimited.append_cons_inj (comma_notMem_numberText m) (comma_notMem_numberText n),
    numberText_injective.eq_iff]

theorem jsonText_append_inj {s s' : String} {rest rest' : List Char} :
    jsonText s ++ rest = jsonText s' ++ rest' ↔ s = s' ∧ rest = rest' := by
  rw [jsonText_eq, jsonText_eq, JsonText.reads_readString.append_inj, String.toList_inj]

/-- `toJSON` writes arrays of arrays of strings. -/
theorem toJSON_eq (tags : List (List String)) : toJSON tags =
    JsonText.array [] ((tags.map (List.map String.toList)).map fun tag =>
      JsonText.array [] (tag.map JsonText.string)) := by
  rw [toJSON, List.map_map]
  refine congrArg _ (List.map_congr_left fun tag _ => ?_)
  rw [Function.comp_apply, stringifyTag, List.map_map]
  exact congrArg _ (List.map_congr_left fun s _ => jsonText_eq s)

theorem toJSON_append_inj {tags tags' : List (List String)} {rest rest' : List Char} :
    toJSON tags ++ rest = toJSON tags' ++ rest' ↔ tags = tags' ∧ rest = rest' := by
  have hgap : ∀ c ∈ ([] : List Char), JsonText.isSpace c = true := fun c hc =>
    absurd hc List.not_mem_nil
  have hreads := (JsonText.reads_readString.array hgap).array hgap
  have htexts : Function.Injective (List.map (List.map String.toList)) :=
    List.map_injective_iff.mpr (List.map_injective_iff.mpr fun _ _ => String.toList_inj.mp)
  rw [toJSON_eq, toJSON_eq, hreads.append_inj, htexts.eq_iff]

/-- The parts of the text, one behind the other. -/
theorem serializeEvent_eq (pubkey : String) (event : EventTemplate) :
    serializeEvent pubkey event = '[' :: (numberText 0 ++ ',' :: (jsonText pubkey ++ ',' ::
      (numberText event.createdAt ++ ',' :: (numberText event.kind ++ ',' ::
        (toJSON event.tags ++ ',' :: (jsonText event.content ++ [']'])))))) := by
  simp [serializeEvent, JsonText.array, List.intercalate]

/-- **The canonical text** determines the public key and the event. -/
theorem serializeEvent_inj {pubkey pubkey' : String} {event event' : EventTemplate} :
    serializeEvent pubkey event = serializeEvent pubkey' event' ↔
      pubkey = pubkey' ∧ event = event' := by
  rcases event with ⟨kind, createdAt, tags, content⟩
  rcases event' with ⟨kind', createdAt', tags', content'⟩
  rw [serializeEvent_eq, serializeEvent_eq, List.cons.injEq, numberText_append_inj,
    jsonText_append_inj, List.cons.injEq, numberText_append_inj, numberText_append_inj,
    toJSON_append_inj, List.cons.injEq, jsonText_append_inj, EventTemplate.mk.injEq, Nat.cast_inj]
  tauto

theorem canonicalBytes_inj {pubkey pubkey' : String} {event event' : EventTemplate} :
    canonicalBytes pubkey event = canonicalBytes pubkey' event' ↔
      pubkey = pubkey' ∧ event = event' := by
  rw [canonicalBytes, canonicalBytes, Bytes.ofText_injective.eq_iff, String.ofList_inj,
    serializeEvent_inj]

/-! ### Collisions -/

variable {K}

theorem getEventHash_inj {pubkey pubkey' : String} {event event' : EventTemplate} :
    toBuffer (getEventHash K pubkey event) = toBuffer (getEventHash K pubkey' event') ↔
      K.sha256 (canonicalBytes pubkey event) = K.sha256 (canonicalBytes pubkey' event') := by
  rw [toBuffer, toBuffer, getEventHash, getEventHash, Bytes.ofHex_toHex, Bytes.ofHex_toHex]

/-- SHA-256 does not map the canonical texts of two of these events to one
hash. -/
def NoCollision {ι : Type*} (K : Secp256k1) (messages : ι → Message) : Prop :=
  ∀ i j event remoteAddress event' remoteAddress',
    messages i = .event event remoteAddress → messages j = .event event' remoteAddress' →
    K.sha256 (canonicalBytes event.pubkey event.template) =
      K.sha256 (canonicalBytes event'.pubkey event'.template) →
    canonicalBytes event.pubkey event.template = canonicalBytes event'.pubkey event'.template

/-- **Ids collide only where SHA-256 does.** -/
theorem collisionFree_iff {ι : Type*} (K : Secp256k1) (safeInteger : String → Option ℤ)
    (messages : ι → Message) :
    CollisionFree (runtime K safeInteger) messages ↔ NoCollision K messages := by
  refine forall₂_congr fun i j => forall₄_congr fun event _ event' _ => ?_
  refine imp_congr_right fun _ => imp_congr_right fun _ => imp_congr getEventHash_inj ?_
  exact canonicalBytes_inj.symm

/-! ### What the relay makes itself -/

section

variable (hK : K.Reliable)

/-- Bytes are written as a text that the schemas take. -/
theorem hexSchema_toHex {b : Bytes} {length : ℕ} (h : 2 * b.length = length) :
    LiveEvents.hexSchema length (Bytes.toHex b) = true := by
  rw [LiveEvents.hexSchema, Bytes.toHex, String.toList_ofList, Bytes.length_hexChars, h,
    decide_eq_true rfl, Bool.true_and, List.all_eq_true]
  exact fun c hc => Bytes.isLowerHex_hexChars hc

include hK

theorem hexSchema_getEventHash (pubkey : String) (event : EventTemplate) :
    LiveEvents.hexSchema 64 (getEventHash K pubkey event) = true :=
  hexSchema_toHex (by rw [hK.length_sha256])

/-- **An event that the relay identifies and signs** is valid. -/
theorem valid_identifyAndSign (safeInteger : String → Option ℤ) {privkey : String}
    (hkey : K.isValidPrivateKey privkey = true) (event : EventTemplate) :
    Valid (runtime K safeInteger) (identifyAndSign K privkey (getPublicKey K privkey) event) :=
  ⟨decide_eq_true rfl, hK.verify_sign (hexSchema_getEventHash hK _ event) hkey⟩

end

end NostrMesh.Relay.Identity
