/-
NostrMesh/Blossom/Server.lean

The Blossom server: `PUT /upload`, `HEAD /:sha256` and `GET /:sha256` over a
directory of files named by the SHA-256 of their content.

What comes from libraries is a parameter (`Library`): SHA-256, the parser of
JSON and the check of an event's signature.  A request is served
at a time of the server's clock, and a write of `writeFileSync` ends in one
of the ways of `Write`: it may fail, or the process may stop in it, with some
beginning of the body in the file.

Requests with `Range` or conditional headers are left out, as is `/health`.
-/
import NostrMesh.Lib.Bytes
import NostrMesh.Lib.Json
import Mathlib.Logic.Function.Basic

namespace NostrMesh.Blossom

/-! ### Configuration and libraries -/

structure Config where
  publicBaseUrl : String
  maxUploadBytes : ℕ
  allowedOrigins : List String
  requireAuth : Bool
  maxClockSkewSeconds : ℤ
  deriving DecidableEq, Repr

structure Library where
  sha256 : Bytes → Bytes
  /-- `JSON.parse(payload.toString("utf8"))`, if it does not throw. -/
  parseJson : Bytes → Option Json
  /-- `verifyEvent`, which may throw at what is no event. -/
  verifyEvent : Json → Except String Bool
  /-- `String(value)` of a value that is no text. -/
  textOf : Json → String

variable (L : Library) (config : Config)

/-! ### Errors and responses -/

/-- An error on the way to the error handler. -/
inductive ServerError
  | http (status : ℕ) (message : String)
  | tooLarge
  | other
  deriving DecidableEq, Repr

inductive Response
  | uploaded (sha256 : String) (size : ℕ) (url : String)
  | found
  | content (bytes : Bytes)
  | noContent
  | error (status : ℕ) (reason : String)
  /-- The process stopped before it answered. -/
  | none
  deriving DecidableEq, Repr

/-- The error handler. -/
def errorResponse : ServerError → Response
  | .http status message => .error status message
  | .tooLarge => .error 413 "Upload exceeds maxUploadBytes limit"
  | .other => .error 500 "Internal server error"

/-! ### Authorization -/

/-- `tags.find((entry) => entry[0] === key)?.[1]`. -/
def findEntry (key : String) : List Json → Except String Json.Value
  | [] => .ok none
  | entry :: entries =>
      match entry.item 0 with
      | .error e => .error e
      | .ok name => if Json.asString name = some key then entry.item 1 else findEntry key entries

def findTag (event : Json) (key : String) : Except String Json.Value :=
  match event.prop "tags" with
  | some (.arr entries) => findEntry key entries
  | _ => .error "event.tags.find is not a function"

/-- `expirationValue ? Number.parseInt(expirationValue, 10) : NaN`. -/
def expirationOf : Json.Value → Js.Num
  | some value =>
      if Json.truthy (some value) then Js.parseInt 10 (value.toText L.textOf) else .nan
  | none => .nan

@[simp] theorem expirationOf_str (text : String) :
    expirationOf L (some (.str text)) = Js.parseInt 10 text := by
  by_cases h : text = ""
  · subst h
    rfl
  · simp [expirationOf, h]

/-- The text behind `Nostr `, decoded. -/
def payloadOf (header : String) : Bytes :=
  Bytes.ofBase64 (Js.trim (String.ofList (header.toList.drop 6)))

def parseAuthEvent (now : ℤ) (headerValue : Option String) (expectedVerb : String) :
    Except ServerError Json.Value :=
  if !config.requireAuth then .ok (some (.str "anonymous"))
  else
    match headerValue with
    | .none => .error (.http 401 "Missing or invalid Authorization header")
    | some header =>
        if !Js.startsWith header "Nostr " then
          .error (.http 401 "Missing or invalid Authorization header")
        else
          match L.parseJson (payloadOf header) with
          | .none => .error (.http 401 "Authorization payload is not valid base64 JSON")
          | some .null => .error .other
          | some event =>
              if Json.asNumber (event.prop "kind") ≠ some (24242 : ℤ) then
                .error (.http 401 "Authorization event kind must be 24242")
              else if !Json.truthy (event.prop "id") || !Json.truthy (event.prop "sig") ||
                  !Json.truthy (event.prop "pubkey") then
                .error (.http 401 "Authorization event missing id, sig, or pubkey")
              else
                match L.verifyEvent event with
                | .error _ => .error .other
                | .ok false =>
                    .error (.http 401 "Authorization event signature verification failed")
                | .ok true =>
                    match findTag event "t" with
                    | .error _ => .error .other
                    | .ok t =>
                        if Json.asString t ≠ some expectedVerb then
                          .error (.http 403 ("Authorization event t tag must be " ++ expectedVerb))
                        else
                          match findTag event "expiration" with
                          | .error _ => .error .other
                          | .ok expirationValue =>
                              let expiration := expirationOf L expirationValue
                              if !expiration.isFinite then
                                .error (.http 401 "Authorization event missing valid expiration tag")
                              else if expiration.lt
                                  ((now - config.maxClockSkewSeconds : ℤ) : Js.Num) then
                                .error (.http 401 "Authorization event has expired")
                              else .ok (event.prop "pubkey")

/-- The payload is an event that lets its sender in. -/
structure Authorizes (now : ℤ) (expectedVerb : String) (event : Json) : Prop where
  kind : Json.asNumber (event.prop "kind") = some (24242 : ℤ)
  complete : Json.truthy (event.prop "id") = true ∧ Json.truthy (event.prop "sig") = true ∧
    Json.truthy (event.prop "pubkey") = true
  verified : L.verifyEvent event = .ok true
  verb : findTag event "t" = .ok (some (.str expectedVerb))
  expiration : ∃ value q, findTag event "expiration" = .ok value ∧
    expirationOf L value = .finite q ∧ ((now - config.maxClockSkewSeconds : ℤ) : ℚ) ≤ q

variable {L config} in
/-- **Who is let in** where authorization is required: the sender of a header
whose payload authorizes. -/
theorem exists_parseAuthEvent_iff (hauth : config.requireAuth = true) {now : ℤ}
    {header expectedVerb : String} :
    (∃ pubkey, parseAuthEvent L config now (some header) expectedVerb = .ok pubkey) ↔
      Js.startsWith header "Nostr " = true ∧ ∃ event, L.parseJson (payloadOf header) = some event ∧
        Authorizes L config now expectedVerb event := by
  constructor
  · rintro ⟨pubkey, h⟩
    simp only [parseAuthEvent, hauth, Bool.not_true, Bool.false_eq_true, if_false] at h
    split at h
    · cases h
    next hstart =>
    split at h
    · cases h
    · cases h
    next event _ hjson =>
    split at h
    · cases h
    next hkind =>
    split at h
    · cases h
    next hcomplete =>
    split at h
    · cases h
    · cases h
    next hverified =>
    split at h
    · cases h
    next t ht =>
    split at h
    · cases h
    next hverb =>
    split at h
    · cases h
    next value hvalue =>
    split at h
    · cases h
    next hfinite =>
    split at h
    · cases h
    next hlate =>
    obtain ⟨q, hq⟩ : ∃ q, expirationOf L value = .finite q := by
      rcases e : expirationOf L value with q | - | - | - <;> simp [e, Js.Num.isFinite] at hfinite ⊢
    refine ⟨by simpa using hstart, event, hjson, ⟨by simpa using hkind, by simpa [and_assoc] using
      hcomplete, hverified, ?_, value, q, hvalue, hq, ?_⟩⟩
    · rw [ht, Json.asString_eq_some_iff.mp (not_not.mp hverb)]
    · simpa [hq, Js.Num.lt] using hlate
  · rintro ⟨hstart, event, hjson, h⟩
    obtain ⟨value, q, hvalue, hq, hlate⟩ := h.expiration
    obtain ⟨hid, hsig, hpubkey⟩ := h.complete
    have hnotLate : Js.Num.lt (.finite q) ((now - config.maxClockSkewSeconds : ℤ) : Js.Num)
        = false := by
      simpa [Js.Num.lt] using hlate
    refine ⟨event.prop "pubkey", ?_⟩
    simp only [parseAuthEvent, hauth, hstart, hjson]
    cases event with
    | null => exact absurd h.kind (by simp [Json.prop, Json.asNumber])
    | bool | num | str | arr | obj =>
        simpa [h.kind, hid, hsig, hpubkey, h.verified, h.verb, hvalue, hq, Js.Num.isFinite,
          Json.asString] using hnotLate

/-! ### Hashes and files -/

/-- `/^[a-f0-9]{64}$/`. -/
def isHash (s : String) : Bool := s.toList.length = 64 && s.toList.all Bytes.isLowerHex

/-- A digest is written as a hash. -/
theorem isHash_toHex {digest : Bytes} (h : digest.length = 32) :
    isHash (Bytes.toHex digest) = true := by
  simp only [isHash, Bytes.toHex, String.toList_ofList, Bytes.length_hexChars, h, Bool.and_eq_true,
    List.all_eq_true]
  exact ⟨rfl, fun c hc => Bytes.isLowerHex_hexChars hc⟩

def normalizeHash (input : String) : Except ServerError String :=
  let hash := Js.toLowerCase (Js.trim input)
  if isHash hash then .ok hash else .error (.http 400 "Invalid blob hash")

theorem toNat_of_isHash {hash : String} (h : isHash hash = true) :
    ∀ c ∈ hash.toList, (48 ≤ c.toNat ∧ c.toNat ≤ 57) ∨ (97 ≤ c.toNat ∧ c.toNat ≤ 102) := by
  intro c hc
  simp only [isHash, Bool.and_eq_true, List.all_eq_true] at h
  simpa [Bytes.isLowerHex] using h.2 c hc

theorem trim_of_isHash {hash : String} (h : isHash hash = true) : Js.trim hash = hash := by
  refine Js.trim_of_no_space fun c hc => ?_
  have := toNat_of_isHash h c hc
  exact Js.isSpace_of_ascii (by omega) (by omega)

theorem toLowerCase_of_isHash {hash : String} (h : isHash hash = true) :
    Js.toLowerCase hash = hash := by
  have hmap : hash.toList.map Char.toLower = hash.toList.map id := by
    refine List.map_congr_left fun c hc => dif_neg ?_
    rintro ⟨hlow, hhigh⟩
    have hA : 65 ≤ c.toNat := UInt32.le_iff_toNat_le.mp hlow
    have hZ : c.toNat ≤ 90 := UInt32.le_iff_toNat_le.mp hhigh
    have := toNat_of_isHash h c hc
    omega
  rw [List.map_id] at hmap
  rw [Js.toLowerCase, hmap, String.ofList_toList]

/-- A hash is its own normal form. -/
theorem normalizeHash_of_isHash {hash : String} (h : isHash hash = true) :
    normalizeHash hash = .ok hash := by
  simp only [normalizeHash, trim_of_isHash h, toLowerCase_of_isHash h, h, if_true]

def hashBuffer (buffer : Bytes) : String := Bytes.toHex (L.sha256 buffer)

/-- The files of the storage directory, by name. -/
abbrev Files := String → Option Bytes

/-- How a call of `writeFileSync` ends.  If it fails, or the process stops
in it, `left` is what is in the file: nothing, not even the file, or the
first bytes of the body. -/
inductive Write
  | completes
  | fails (left : Option ℕ)
  | stops (left : Option ℕ)
  deriving DecidableEq, Repr

/-- The files after a write that left something. -/
def leave (files : Files) (target : String) (body : Bytes) : Option ℕ → Files
  | .none => files
  | some n => Function.update files target (some (body.take n))

/-! ### The handlers -/

inductive Request
  | put (authorization : Option String) (body : Option Bytes)
  | head (authorization : Option String) (sha256 : String)
  | get (authorization : Option String) (sha256 : String)
  | options
  deriving DecidableEq, Repr

/-- A request as it reaches the server: with its origin, the time on the
server's clock, and how a write would end. -/
structure Input where
  origin : Option String
  request : Request
  now : ℤ
  write : Write
  deriving DecidableEq, Repr

def isAllowedOrigin (origin : String) : Bool :=
  origin = "" || "*" ∈ config.allowedOrigins || origin ∈ config.allowedOrigins

/-- The end of `PUT /upload`: a file of that name is taken to be the blob. -/
def storeBlob (write : Write) (body : Bytes) (files : Files) : Response × Files :=
  let sha256 := hashBuffer L body
  let answer := Response.uploaded sha256 body.length (config.publicBaseUrl ++ "/" ++ sha256)
  match files sha256 with
  | some _ => (answer, files)
  | .none =>
      match write with
      | .completes => (answer, Function.update files sha256 (some body))
      | .fails left => (errorResponse .other, leave files sha256 body left)
      | .stops left => (.none, leave files sha256 body left)

/-- `PUT /upload`.  The body parser leaves no buffer for a request without
body or content type. -/
def putUpload (now : ℤ) (write : Write) (authorization : Option String) (body : Option Bytes)
    (files : Files) : Response × Files :=
  if config.maxUploadBytes < (body.getD []).length then (errorResponse .tooLarge, files)
  else
    match parseAuthEvent L config now authorization "upload" with
    | .error e => (errorResponse e, files)
    | .ok _ =>
        if body.getD [] = [] then
          (errorResponse (.http 400 "Upload body is empty or invalid"), files)
        else storeBlob L config write (body.getD []) files

/-- The file that `HEAD` and `GET` look up. -/
def lookup (now : ℤ) (authorization : Option String) (sha256 : String) (files : Files) :
    Except ServerError Bytes :=
  match parseAuthEvent L config now authorization "get" with
  | .error e => .error e
  | .ok _ =>
      match normalizeHash sha256 with
      | .error e => .error e
      | .ok sha256 =>
          match files sha256 with
          | .none => .error (.http 404 "Blob not found")
          | some content => .ok content

def headBlob (now : ℤ) (authorization : Option String) (sha256 : String) (files : Files) :
    Response :=
  match lookup L config now authorization sha256 files with
  | .error e => errorResponse e
  | .ok _ => .found

def getBlob (now : ℤ) (authorization : Option String) (sha256 : String) (files : Files) :
    Response :=
  match lookup L config now authorization sha256 files with
  | .error e => errorResponse e
  | .ok content => .content content

/-- One request: the check of its origin, and its handler. -/
def serve (input : Input) (files : Files) : Response × Files :=
  match input.origin.filter fun origin => !isAllowedOrigin config origin with
  | some origin => (errorResponse (.http 403 ("Origin not allowed: " ++ origin)), files)
  | .none =>
      match input.request with
      | .options => (.noContent, files)
      | .put authorization body =>
          putUpload L config input.now input.write authorization body files
      | .head authorization sha256 =>
          (headBlob L config input.now authorization sha256 files, files)
      | .get authorization sha256 =>
          (getBlob L config input.now authorization sha256 files, files)

end NostrMesh.Blossom
