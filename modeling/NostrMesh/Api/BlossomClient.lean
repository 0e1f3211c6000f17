/-
NostrMesh/Api/BlossomClient.lean

The API's client of the Blossom server: the authorization header that it
builds, and what it makes of the server's answers.

`parseAuthEvent_buildAuthHeader` is where the two programs meet: the server
accepts the header exactly for its own verb and until it expires.  What they
rely on between them is `Compatible`.
-/
import NostrMesh.Api.Metadata
import NostrMesh.Blossom.Server

namespace NostrMesh.Api

variable (L : Library) (B : Blossom.Library)

/-! ### The header -/

def authKind : ℕ := 24242

def authTemplate (verb content : String) (expirationSeconds now : ℤ) : EventTemplate where
  kind := authKind
  createdAt := now
  tags := [["t", verb], ["expiration", Js.textOfInteger (now + expirationSeconds)]]
  content := content

/-- The header that carries an event. -/
def headerOf (signed : Event) : String := "Nostr " ++ Bytes.toBase64 (L.stringifyEvent signed)

def buildAuthHeader (secretKeyHex verb content : String) (expirationSeconds now : ℤ) :
    Except String String :=
  match hexToBytes secretKeyHex with
  | .error e => .error e
  | .ok secretKey =>
      match finalizeEvent L (authTemplate verb content expirationSeconds now) secretKey with
      | .error e => .error e
      | .ok signed => .ok (headerOf L signed)

/-! ### The answers -/

/-- What `uploadBlob` makes of the answer to its request. -/
def uploadResult : Blossom.Response → Except String String
  | .uploaded sha256 _ _ =>
      if sha256 = "" then .error "Blossom upload did not return sha256" else .ok sha256
  | .error _ reason => .error ("Blossom upload failed: " ++ reason)
  | .none => .error "Blossom upload failed: network or CORS issue"
  | _ => .error "Blossom upload did not return sha256"

/-- What `downloadBlob` makes of the answer to its request; the last three do
not answer a `GET`. -/
def downloadResult : Blossom.Response → Except String Bytes
  | .content bytes => .ok bytes
  | .error _ reason => .error ("Blossom download failed: " ++ reason)
  | .none => .error "Blossom download failed: network or CORS issue"
  | .found | .noContent | .uploaded _ _ _ => .ok []

/-! ### The server's view of the header -/

/-- The event as the server's `JSON.parse` gives it. -/
def authEvent (event : Event) : Json :=
  .obj [("kind", .num (event.kind : ℤ)), ("created_at", .num event.createdAt),
    ("tags", .arr (event.tags.map fun tag => .arr (tag.map .str))), ("content", .str event.content),
    ("pubkey", .str event.pubkey), ("id", .str event.id), ("sig", .str event.sig)]

/-- What the two programs rely on between them: one SHA-256, JSON that is
read as it was written, and signed events that are complete and verify. -/
structure Compatible : Prop where
  sha256 : B.sha256 = L.sha256
  parse_stringify : ∀ event, B.parseJson (L.stringifyEvent event) = some (authEvent event)
  verifyEvent : ∀ secretKey pubkey template, L.getPublicKey secretKey = .ok pubkey →
    B.verifyEvent (authEvent (signedEvent L pubkey secretKey template)) = .ok true
  complete : ∀ secretKey pubkey template, L.getPublicKey secretKey = .ok pubkey →
    (signedEvent L pubkey secretKey template).id ≠ "" ∧
      (signedEvent L pubkey secretKey template).sig ≠ "" ∧ pubkey ≠ ""

variable {L B} {secretKeyHex verb content : String} {expirationSeconds now : ℤ}

theorem buildAuthHeader_eq_ok_iff {header : String} :
    buildAuthHeader L secretKeyHex verb content expirationSeconds now = .ok header ↔
      ∃ secretKey pubkey, hexToBytes secretKeyHex = .ok secretKey ∧
        L.getPublicKey secretKey = .ok pubkey ∧ header = headerOf L
          (signedEvent L pubkey secretKey (authTemplate verb content expirationSeconds now)) := by
  rw [buildAuthHeader]
  rcases hk : hexToBytes secretKeyHex with e | secretKey
  · simp
  · rcases hp : L.getPublicKey secretKey with e | pubkey
    · simp [finalizeEvent, hp]
    · simp [finalizeEvent, hp, eq_comm]

/-- A header is made as soon as the key is valid. -/
theorem exists_buildAuthHeader_iff :
    (∃ header, buildAuthHeader L secretKeyHex verb content expirationSeconds now = .ok header) ↔
      ValidKey L secretKeyHex := by
  simp only [buildAuthHeader_eq_ok_iff, ValidKey]
  constructor
  · rintro ⟨_, secretKey, pubkey, hsecret, hpubkey, -⟩
    exact ⟨secretKey, pubkey, hsecret, hpubkey⟩
  · rintro ⟨secretKey, pubkey, hsecret, hpubkey⟩
    exact ⟨_, secretKey, pubkey, hsecret, hpubkey, rfl⟩

/-- The server finds the event in the header again. -/
theorem payload_headerOf (signed : Event) :
    Js.startsWith (headerOf L signed) "Nostr " = true ∧
      Blossom.payloadOf (headerOf L signed) = L.stringifyEvent signed := by
  have hlist : (headerOf L signed).toList
      = "Nostr ".toList ++ (Bytes.toBase64 (L.stringifyEvent signed)).toList :=
    String.toList_append
  have hspace : ∀ c ∈ (Bytes.toBase64 (L.stringifyEvent signed)).toList, Js.isSpace c = false := by
    intro c hc
    rw [Bytes.toBase64, String.toList_ofList] at hc
    obtain ⟨hlow, hhigh⟩ := Bytes.toNat_of_mem_base64Chars hc
    exact Js.isSpace_of_ascii (by omega) (by omega)
  constructor
  · rw [Js.startsWith, hlist]
    simp
  · rw [Blossom.payloadOf, hlist, List.drop_left' (by decide), String.ofList_toList,
      Js.trim_of_no_space hspace, Bytes.ofBase64_toBase64]

/-- What the server finds in the event that the client signs. -/
theorem authorizes_authEvent (hcompatible : Compatible L B) {server : Blossom.Config}
    {expectedVerb : String} {serverNow : ℤ} {secretKey : Bytes} {pubkey : String}
    (hpubkey : L.getPublicKey secretKey = .ok pubkey) :
    Blossom.Authorizes B server serverNow expectedVerb (authEvent
        (signedEvent L pubkey secretKey (authTemplate verb content expirationSeconds now))) ↔
      verb = expectedVerb ∧ serverNow - server.maxClockSkewSeconds ≤
        (if (now + expirationSeconds).natAbs < Js.exponentBound then now + expirationSeconds
          else Js.leadingDigit (now + expirationSeconds)) := by
  obtain ⟨hid, hsig, hpub⟩ := hcompatible.complete secretKey pubkey
    (authTemplate verb content expirationSeconds now) hpubkey
  have hverified := hcompatible.verifyEvent secretKey pubkey
    (authTemplate verb content expirationSeconds now) hpubkey
  generalize hsigned : signedEvent L pubkey secretKey
    (authTemplate verb content expirationSeconds now) = signed at hid hsig hverified ⊢
  have htags : signed.tags = (authTemplate verb content expirationSeconds now).tags := by
    rw [← hsigned]
    rfl
  have hkind : signed.kind = 24242 := by
    rw [← hsigned]
    rfl
  have hsignedPub : signed.pubkey ≠ "" := by
    rw [← hsigned]
    exact hpub
  have hverb : Blossom.findTag (authEvent signed) "t" = .ok (some (.str verb)) := by
    simp [Blossom.findTag, Blossom.findEntry, authEvent, Json.prop, htags, authTemplate]
  have hexpiration : Blossom.findTag (authEvent signed) "expiration"
      = .ok (some (.str (Js.textOfInteger (now + expirationSeconds)))) := by
    simp [Blossom.findTag, Blossom.findEntry, authEvent, Json.prop, htags, authTemplate]
  constructor
  · rintro ⟨-, -, -, hfound, value, q, hvalue, hq, hle⟩
    rw [hverb] at hfound
    rw [hexpiration, Except.ok.injEq] at hvalue
    rw [← hvalue, Blossom.expirationOf_str, Js.parseInt_textOfInteger, Js.Num.finite.injEq] at hq
    refine ⟨by simpa using hfound, ?_⟩
    rw [← hq] at hle
    exact Rat.intCast_le_intCast.mp hle
  · rintro ⟨rfl, hle⟩
    refine ⟨by simp [authEvent, Json.prop, Json.asNumber, hkind], ?_, hverified, hverb, _, _,
      hexpiration, ?_, Rat.intCast_le_intCast.mpr hle⟩
    · simp [authEvent, Json.prop, hid, hsig, hsignedPub]
    · rw [Blossom.expirationOf_str, Js.parseInt_textOfInteger]

/-- **The server accepts the header** of the client if the verb is the one
that it expects and the header has not expired, and only then.  Of an
expiration that is written with an exponent it reads the first digit. -/
theorem parseAuthEvent_buildAuthHeader_iff (hcompatible : Compatible L B) {server : Blossom.Config}
    (hauth : server.requireAuth = true) {header expectedVerb : String} {serverNow : ℤ}
    (hheader : buildAuthHeader L secretKeyHex verb content expirationSeconds now = .ok header) :
    (∃ pubkey, Blossom.parseAuthEvent B server serverNow (some header) expectedVerb = .ok pubkey) ↔
      verb = expectedVerb ∧ serverNow - server.maxClockSkewSeconds ≤
        (if (now + expirationSeconds).natAbs < Js.exponentBound then now + expirationSeconds
          else Js.leadingDigit (now + expirationSeconds)) := by
  obtain ⟨secretKey, pubkey, -, hpubkey, rfl⟩ := buildAuthHeader_eq_ok_iff.mp hheader
  obtain ⟨hstart, hpayload⟩ := payload_headerOf (L := L)
    (signedEvent L pubkey secretKey (authTemplate verb content expirationSeconds now))
  rw [Blossom.exists_parseAuthEvent_iff hauth,
    ← @authorizes_authEvent L B verb content expirationSeconds now hcompatible server expectedVerb
      serverNow secretKey pubkey hpubkey]
  simp only [hstart, hpayload, hcompatible.parse_stringify, true_and, Option.some.injEq,
    exists_eq_left']

theorem parseAuthEvent_buildAuthHeader (hcompatible : Compatible L B) {server : Blossom.Config}
    (hauth : server.requireAuth = true) {header expectedVerb : String} {serverNow : ℤ}
    (hheader : buildAuthHeader L secretKeyHex verb content expirationSeconds now = .ok header)
    (hbound : (now + expirationSeconds).natAbs < Js.exponentBound) :
    (∃ pubkey, Blossom.parseAuthEvent B server serverNow (some header) expectedVerb = .ok pubkey) ↔
      verb = expectedVerb ∧ serverNow ≤ now + expirationSeconds + server.maxClockSkewSeconds := by
  rw [parseAuthEvent_buildAuthHeader_iff hcompatible hauth hheader, if_pos hbound,
    sub_le_iff_le_add]

end NostrMesh.Api
