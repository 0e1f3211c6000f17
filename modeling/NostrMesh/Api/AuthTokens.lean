/-
NostrMesh/Api/AuthTokens.lean

The authorization tokens that the API makes and the Blossom server reads.

`Agrees` is what the two should agree on for one token: it lets its holder in
for its own verb, until its lifetime and the allowed skew are over.  They do for
whole seconds whose sums are safe integers (`tokensAgree`).  Beyond that the text
of the expiration may say something else to `Number.parseInt` than to `String`:
a sum of `10 ^ 21` seconds or more is written with an exponent, at which
`parseInt` stops (`Misread`).

`Carried` is what every header that is let in carries.
-/
import NostrMesh.Api.Reference

namespace NostrMesh.Api

/-! ### What the two agree on -/

section

variable (L : Library) (B : Blossom.Library) (server : Blossom.Config)

/-- The server lets the header in, for a verb and at a time. -/
def Accepts (header expectedVerb : String) (serverNow : ℤ) : Prop :=
  ∃ pubkey, Blossom.parseAuthEvent B server serverNow (some header) expectedVerb = .ok pubkey

/-- The header that is made at `now` is accepted for its verb, until it has
expired and the skew is over. -/
def Agrees (secretKeyHex verb expectedVerb content : String) (expirationSeconds now serverNow : ℤ) :
    Prop :=
  ∃ header, buildAuthHeader L secretKeyHex verb content expirationSeconds now = .ok header ∧
    (Accepts B server header expectedVerb serverNow ↔
      verb = expectedVerb ∧ serverNow ≤ now + expirationSeconds + server.maxClockSkewSeconds)

/-- The two compute with safe integers: when the token expires, and the earliest
expiration that is let in. -/
structure SafeSums (expirationSeconds now serverNow : ℤ) : Prop where
  expiration : (now + expirationSeconds).natAbs ≤ Js.maxSafeInteger
  earliest : (serverNow - server.maxClockSkewSeconds).natAbs ≤ Js.maxSafeInteger

/-- The expiration is written with an exponent, and the time of the request
is between it and its first digit. -/
def Misread (verb expectedVerb : String) (expiration serverNow : ℤ) : Prop :=
  verb = expectedVerb ∧ Js.exponentBound ≤ expiration.natAbs ∧
    ((Js.leadingDigit expiration < serverNow - server.maxClockSkewSeconds ∧
        serverNow - server.maxClockSkewSeconds ≤ expiration) ∨
      (expiration < serverNow - server.maxClockSkewSeconds ∧
        serverNow - server.maxClockSkewSeconds ≤ Js.leadingDigit expiration))

/-- The first tag of that name, and what follows the name. -/
def FirstTag (event : Json) (key : String) (value : Json) : Prop :=
  ∃ before tag after, event.prop "tags" = some (.arr (before ++ tag :: after)) ∧
    (∀ entry ∈ before, entry.item 0 ≠ .ok (some (.str key))) ∧
    tag.item 0 = .ok (some (.str key)) ∧ tag.item 1 = .ok (some value)

/-- What a header carries that is let in. -/
def Carried (header expectedVerb : String) (serverNow : ℤ) : Prop :=
  Js.startsWith header "Nostr " = true ∧ ∃ event value q,
    B.parseJson (Blossom.payloadOf header) = some event ∧ B.verifyEvent event = .ok true ∧
      event.prop "kind" = some (.num (24242 : ℤ)) ∧ FirstTag event "t" (.str expectedVerb) ∧
      FirstTag event "expiration" value ∧ Js.parseInt 10 (value.toText B.textOf) = .finite q ∧
      ((serverNow - server.maxClockSkewSeconds : ℤ) : ℚ) ≤ q

end

variable {L : Library} {B : Blossom.Library} {server : Blossom.Config}

/-! ### Tags -/

theorem findEntry_eq_some {key : String} {entries : List Json} {value : Json}
    (h : Blossom.findEntry key entries = .ok (some value)) :
    ∃ before tag after, entries = before ++ tag :: after ∧
      (∀ entry ∈ before, entry.item 0 ≠ .ok (some (.str key))) ∧
      tag.item 0 = .ok (some (.str key)) ∧ tag.item 1 = .ok (some value) := by
  induction entries with
  | nil => simp [Blossom.findEntry] at h
  | cons entry entries ih =>
      rcases e : entry.item 0 with t | name
      · simp [Blossom.findEntry, e] at h
      by_cases hname : Json.asString name = some key
      · refine ⟨[], entry, entries, rfl, by simp, ?_, ?_⟩
        · rw [e, Json.asString_eq_some_iff.mp hname]
        · simpa [Blossom.findEntry, e, hname] using h
      · obtain ⟨before, tag, after, rfl, hbefore, htag⟩ := ih (by
          simpa [Blossom.findEntry, e, hname] using h)
        refine ⟨entry :: before, tag, after, rfl, ?_, htag⟩
        rintro entry' (_ | ⟨_, hmem⟩)
        · rw [e]
          intro heq
          exact hname (Json.asString_eq_some_iff.mpr (Except.ok.inj heq))
        · exact hbefore entry' hmem

theorem firstTag_of_findTag {event : Json} {key : String} {value : Json}
    (h : Blossom.findTag event key = .ok (some value)) : FirstTag event key value := by
  rw [Blossom.findTag] at h
  split at h
  · next entries htags =>
    obtain ⟨before, tag, after, rfl, hrest⟩ := findEntry_eq_some h
    exact ⟨before, tag, after, htags, hrest⟩
  · cases h

/-! ### Acceptance -/

/-- **Nothing else is let in.** -/
theorem carried_of_accepts (hauth : server.requireAuth = true) {header expectedVerb : String}
    {serverNow : ℤ} (h : Accepts B server header expectedVerb serverNow) :
    Carried B server header expectedVerb serverNow := by
  obtain ⟨hstart, event, hparse, hevent⟩ := (Blossom.exists_parseAuthEvent_iff hauth).mp h
  obtain ⟨value, q, hvalue, hq, hle⟩ := hevent.expiration
  obtain ⟨v, rfl⟩ : ∃ v, value = some v := by
    rcases value with - | v
    · -- without the tag the expiration is no number
      cases hq
    · exact ⟨v, rfl⟩
  refine ⟨hstart, event, v, q, hparse, hevent.verified,
    Json.asNumber_eq_some_iff.mp hevent.kind, firstTag_of_findTag hevent.verb,
    firstTag_of_findTag hvalue, ?_, hle⟩
  rw [Blossom.expirationOf] at hq
  split at hq
  · exact hq
  · cases hq

theorem agrees_iff_not_misread (hcompatible : Compatible L B) (hauth : server.requireAuth = true)
    {secretKeyHex : String} (hkey : ValidKey L secretKeyHex) (verb expectedVerb content : String)
    (expirationSeconds now serverNow : ℤ) :
    Agrees L B server secretKeyHex verb expectedVerb content expirationSeconds now serverNow ↔
      ¬ Misread server verb expectedVerb (now + expirationSeconds) serverNow := by
  obtain ⟨header, hheader⟩ : ∃ header,
      buildAuthHeader L secretKeyHex verb content expirationSeconds now = .ok header :=
    exists_buildAuthHeader_iff.mpr hkey
  have hagrees : Agrees L B server secretKeyHex verb expectedVerb content expirationSeconds now
      serverNow ↔ (Accepts B server header expectedVerb serverNow ↔
        verb = expectedVerb ∧ serverNow ≤ now + expirationSeconds + server.maxClockSkewSeconds) := by
    simp only [Agrees, hheader, Except.ok.injEq, exists_eq_left']
  rw [hagrees, Accepts, parseAuthEvent_buildAuthHeader_iff hcompatible hauth hheader, Misread]
  by_cases hverb : verb = expectedVerb
  · simp only [hverb, true_and]
    -- only the first digit is read of an expiration with an exponent
    by_cases hbound : (now + expirationSeconds).natAbs < Js.exponentBound
    · rw [if_pos hbound]
      omega
    · rw [if_neg hbound]
      omega
  · simp [hverb]

/-- **The API and the server agree on tokens** of whole seconds whose sums are
safe, and whatever the server lets in carries a signed event with the verb and an
expiration that is not over. -/
theorem tokensAgree (hcompatible : Compatible L B) (hauth : server.requireAuth = true)
    {secretKeyHex : String} (hkey : ValidKey L secretKeyHex) :
    (∀ verb expectedVerb content expirationSeconds now serverNow,
      SafeSums server expirationSeconds now serverNow →
      Agrees L B server secretKeyHex verb expectedVerb content expirationSeconds now serverNow) ∧
      ∀ header expectedVerb serverNow, Accepts B server header expectedVerb serverNow →
        Carried B server header expectedVerb serverNow := by
  refine ⟨fun verb expectedVerb content expirationSeconds now serverNow hsafe => ?_,
    fun _ _ _ => carried_of_accepts hauth⟩
  rw [agrees_iff_not_misread hcompatible hauth hkey]
  rintro ⟨-, hbound, -⟩
  exact absurd hbound (not_le.mpr (Js.lt_exponentBound_of_le_maxSafeInteger hsafe.expiration))

theorem validKey_sample : ValidKey sampleLibrary sampleSecret :=
  ⟨Bytes.ofHex sampleSecret, samplePubkey, by decide +kernel, by decide +kernel⟩

/-- A token of a minute is accepted half a minute after its expiration, and no
longer. -/
theorem tokensAgree_sample : ∃ header,
    buildAuthHeader sampleLibrary sampleSecret "upload" "Upload hi.txt" 60 1700000000 = .ok header ∧
      Accepts sampleServerLibrary sampleServer header "upload" 1700000090 ∧
      ¬ Accepts sampleServerLibrary sampleServer header "upload" 1700000091 := by
  have hagree := (@tokensAgree _ _ sampleServer sampleLibrary_compatible rfl _ validKey_sample).1
    "upload" "upload" "Upload hi.txt" 60 1700000000
  obtain ⟨header, hheader, haccepts⟩ := hagree 1700000090 ⟨by decide, by decide⟩
  obtain ⟨header', hheader', haccepts'⟩ := hagree 1700000091 ⟨by decide, by decide⟩
  obtain rfl := Except.ok.inj (hheader.symm.trans hheader')
  exact ⟨header, hheader, haccepts.mpr ⟨rfl, by decide⟩,
    fun h => absurd (haccepts'.mp h).2 (by decide)⟩

/-- The server takes a token of `10 ^ 21` seconds to have expired in the first
seconds of 1970. -/
theorem not_agrees_exponent : ¬ Agrees sampleLibrary sampleServerLibrary sampleServer sampleSecret
    "upload" "upload" "Upload hi.txt" (10 ^ 21) 1700000000 1700000000 := by
  rw [agrees_iff_not_misread sampleLibrary_compatible rfl validKey_sample, not_not]
  refine ⟨rfl, by decide, Or.inl ⟨?_, by decide⟩⟩
  decide +kernel

end NostrMesh.Api
