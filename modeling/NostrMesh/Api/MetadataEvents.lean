/-
NostrMesh/Api/MetadataEvents.lean

Whether records survive their events.

`Reliable` is what the two directions owe each other under one secret: exactly
the valid records are built, what was built is read back as it was, and what
can be read can be marked as deleted.  The rules of `validateMetadata` are
checked on the way in and on the way out, and a soft delete passes them
again, since none of them is about what it changes.

Main results: `reliable`, and `validKey_iff` for the secrets.
-/
import NostrMesh.Api.HashBinding

namespace NostrMesh.Api

/-! ### Statements -/

section

variable (L : Library)

/-- Records survive their events. -/
structure Reliable (secretKeyHex : String) : Prop where
  builds : ∀ metadata iv now,
    (∃ event, buildMetadataEvent L iv now metadata secretKeyHex = .ok event) ↔
      validateMetadata metadata = .ok ()
  reads : ∀ metadata iv now event, metadata.uploadedAt.isFinite = true → iv.length = ivLength →
    buildMetadataEvent L iv now metadata secretKeyHex = .ok event →
    parseMetadataEvent L event secretKeyHex = .ok metadata
  deletes : ∀ source metadata, parseMetadataEvent L source secretKeyHex = .ok metadata →
    ∀ iv deletedAt now, iv.length = ivLength → ∃ event,
      buildSoftDeleteEvent L iv deletedAt now metadata secretKeyHex = .ok event ∧
      (∀ ownIv ownNow, ∃ own, buildMetadataEvent L ownIv ownNow metadata secretKeyHex = .ok own ∧
        dTag event = dTag own) ∧
      parseMetadataEvent L event secretKeyHex
        = .ok { metadata with deleted := some true, uploadedAt := deletedAt }

end

/-! ### Secrets -/

theorem digitValue_of_hexVal {c : Char} {n : ℕ} (h : Bytes.hexVal c = some n) :
    Js.digitValue c = some n := by
  have hle : ∀ a b : Char, a ≤ b ↔ a.toNat ≤ b.toNat := fun a b => UInt32.le_iff_toNat_le
  simp only [Js.digitValue, hle, Char.reduceToNat]
  rcases Bytes.range_of_hexVal h with ⟨h₁, h₂, rfl⟩ | ⟨h₁, h₂, rfl⟩ | ⟨h₁, h₂, rfl⟩
  · rw [if_pos ⟨h₁, h₂⟩]
  · rw [if_neg (by omega), if_pos ⟨h₁, by omega⟩]
  · rw [if_neg (by omega), if_neg (by omega), if_pos ⟨h₁, by omega⟩]

/-- `parseInt` reads a pair of digits as the byte that it stands for: there
is no sign, and no prefix of another number. -/
theorem parseInt_hexPair {a b : Char} {x y : ℕ} (ha : Bytes.hexVal a = some x)
    (hb : Bytes.hexVal b = some y) :
    Js.parseInt 16 (String.ofList [a, b]) = ((16 * x + y : ℕ) : ℤ) ∧ 16 * x + y < 256 := by
  have hsign : a ≠ '-' ∧ a ≠ '+' := by
    constructor <;> rintro rfl <;> cases ha
  have hprefix : b ≠ 'x' ∧ b ≠ 'X' := by
    constructor <;> rintro rfl <;> cases hb
  have hrange := Bytes.range_of_hexVal ha
  have hx := Bytes.hexVal_lt ha
  have hy := Bytes.hexVal_lt hb
  have htrim : Js.trimStart [a, b] = [a, b] := by
    simp [Js.trimStart, Js.isSpace_of_ascii (c := a) (by omega) (by omega)]
  have hsplit : Js.splitSign [a, b] = (false, [a, b]) := by
    simp [Js.splitSign, hsign.1, hsign.2]
  have hstrip : Js.stripHexPrefix [a, b] = [a, b] := by
    simp [Js.stripHexPrefix, hprefix.1, hprefix.2]
  have hdigits : Js.leadingDigits 16 [a, b] = [x, y] := by
    simp [Js.leadingDigits, digitValue_of_hexVal ha, digitValue_of_hexVal hb, hx, hy]
  have hvalue : Js.ofDigits 16 [x, y] = 16 * x + y := by
    simp [Js.ofDigits, Nat.mul_comm]
  have hbound : ¬ Js.overflowBound ≤ 16 * x + y := by
    rw [Js.overflowBound]
    omega
  refine ⟨?_, by omega⟩
  simp only [Js.parseInt, String.toList_ofList, htrim, hsplit, if_true, hstrip, hdigits, hvalue,
    if_neg hbound]
  simp

theorem hexPairs_of_isHex : ∀ {cs : List Char}, (∀ c ∈ cs, (Bytes.hexVal c).isSome) →
    hexPairs cs = .ok (Bytes.ofHexChars cs)
  | [], _ => rfl
  -- a last digit on its own is no byte for either of the two
  | [_], _ => rfl
  | a :: b :: cs, h => by
      obtain ⟨x, y, hx, hy, hcs⟩ := Bytes.exists_hexVal_pair h
      have hrest := hexPairs_of_isHex hcs
      obtain ⟨hpair, hbyte⟩ := parseInt_hexPair hx hy
      have hnum : ((((16 * x + y : ℕ) : ℤ) : ℚ).num % 256).toNat = 16 * x + y := by
        rw [Rat.num_intCast]
        omega
      simp only [hexPairs, Bytes.ofHexChars, hx, hy, hpair, hrest, hnum]

/-- Digits are characters of the basic plane. -/
theorem basic_of_isHex {cs : List Char} (h : ∀ c ∈ cs, (Bytes.hexVal c).isSome) :
    ∀ c ∈ cs, c.toNat ≤ 0xFFFF := by
  intro c hc
  obtain ⟨n, hn⟩ := Option.isSome_iff_exists.mp (h c hc)
  have := Bytes.range_of_hexVal hn
  omega

/-- **`hexToBytes`** reads pairs of digits as `Buffer.from` does. -/
theorem hexToBytes_of_isHex {s : String} (heven : Js.length s % 2 = 0)
    (hhex : ∀ c ∈ s.toList, (Bytes.hexVal c).isSome) : hexToBytes s = .ok (Bytes.ofHex s) := by
  have hany : (s.toList.any fun c => 0xFFFF < c.toNat) = false := by
    simp only [List.any_eq_false, decide_eq_true_eq, not_lt]
    exact basic_of_isHex hhex
  rw [hexToBytes, if_neg (not_not.mpr heven), hany, if_neg Bool.false_ne_true,
    hexPairs_of_isHex hhex, Bytes.ofHex]

theorem hexToBytes_of_isHex64 {s : String} (h : isHex64 s = true) :
    hexToBytes s = .ok (Bytes.ofHex s) := by
  simp only [isHex64, Bool.and_eq_true, decide_eq_true_eq, List.all_eq_true] at h
  obtain ⟨hlength, hhex⟩ := h
  have heven : Js.length s % 2 = 0 := by
    rw [Js.length_of_forall_le (basic_of_isHex hhex), hlength]
  exact hexToBytes_of_isHex heven hhex

variable {L : Library} {secretKeyHex : String}

/-- **Which secrets are valid**: of those with 64 digits, the ones whose
bytes the library takes for a key. -/
theorem validKey_iff (h : isHex64 secretKeyHex = true) :
    ValidKey L secretKeyHex ↔ ∃ pubkey, L.getPublicKey (Bytes.ofHex secretKeyHex) = .ok pubkey := by
  simp only [ValidKey, hexToBytes_of_isHex64 h, Except.ok.injEq, exists_and_left, exists_eq_left']

/-! ### Main result -/

/-- A valid record is read back from its event. -/
theorem parseMetadataEvent_of_finite (hcipher : L.cipher.Inverts)
    (hsha256 : ∀ data, (L.sha256 data).length = 32) (hjson : ReadsBack L) {metadata : BlobMetadata}
    {iv : Bytes} {now : ℤ} {event : Event} (hfinite : metadata.uploadedAt.isFinite = true)
    (hiv : iv.length = ivLength)
    (h : buildMetadataEvent L iv now metadata secretKeyHex = .ok event) :
    parseMetadataEvent L event secretKeyHex = .ok metadata :=
  parseMetadataEvent_of_parse hcipher hsha256
    (hjson.parse (buildMetadataEvent_spec h).1 hfinite) hiv h

/-- **Records survive their events**, under every valid secret. -/
theorem reliable (hcipher : L.cipher.Inverts) (hsha256 : ∀ data, (L.sha256 data).length = 32)
    (hjson : ReadsBack L) (hkey : ValidKey L secretKeyHex) : Reliable L secretKeyHex := by
  refine ⟨fun metadata iv now => ?_, fun metadata iv now event hfinite hiv h => ?_, ?_⟩
  · rw [exists_buildMetadataEvent_iff, and_iff_left hkey]
  · exact parseMetadataEvent_of_finite hcipher hsha256 hjson hfinite hiv h
  · intro source metadata hread iv deletedAt now hiv
    have hvalid : validateMetadata metadata = .ok () :=
      (parseMetadataEvent_eq_ok_iff.mp hread).2.valid
    obtain ⟨event, hevent⟩ := @exists_buildSoftDeleteEvent L iv deletedAt now metadata secretKeyHex
      hvalid hkey
    refine ⟨event, hevent, fun ownIv ownNow => ?_, ?_⟩
    · obtain ⟨own, hown⟩ := (@exists_buildMetadataEvent_iff L ownIv ownNow metadata
        secretKeyHex).mpr ⟨hvalid, hkey⟩
      exact ⟨own, hown, (dTag_of_buildSoftDeleteEvent hevent).trans
        (dTag_of_buildMetadataEvent hown).symm⟩
    · exact @parseMetadataEvent_of_finite L secretKeyHex hcipher hsha256 hjson
        (softDeleted deletedAt metadata) iv now event rfl hiv hevent

theorem reliable_sample : Reliable sampleLibrary sampleSecret :=
  reliable sampleLibrary_lawful.inverts sampleLibrary_lawful.length_sha256
    sampleLibrary_lawful.parse_stringify
    ((validKey_iff (by decide +kernel)).mpr ⟨samplePubkey, by decide +kernel⟩)

end NostrMesh.Api
