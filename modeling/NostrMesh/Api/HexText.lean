/-
NostrMesh/Api/HexText.lean

Which texts `hexToBytes` takes for hexadecimal.

It leaves each pair of characters to `parseInt`, which reads a number from the
start of a text and not from all of it: behind a digit anything may stand, and
in front of one a sign or white space.  Such a pair becomes a byte
(`exists_parseInt_pair_iff`), and so a text of such pairs is accepted although it is
not hexadecimal.  Hexadecimal text is read as what it stands for, and every
other text is refused.

Main result: `acceptsExactlyHex_iff`.
-/
import NostrMesh.Api.MetadataEvents

namespace NostrMesh.Api

/-! ### Statements -/

def isHexDigit (c : Char) : Bool := (Bytes.hexVal c).isSome

/-- Hexadecimal text: pairs of digits. -/
structure IsHexText (s : String) : Prop where
  even : Js.length s % 2 = 0
  digits : ∀ c ∈ s.toList, isHexDigit c = true

/-- What is expected of `hexToBytes`: it accepts exactly hexadecimal text, and
the bytes are those that the text stands for. -/
structure AcceptsExactlyHex (s : String) : Prop where
  accepts : (∃ bytes, hexToBytes s = .ok bytes) ↔ IsHexText s
  writes : ∀ bytes, hexToBytes s = .ok bytes → Bytes.toHex bytes = Js.toLowerCase s

/-- There is a number at the start of the pair: a digit, unless the two are the
prefix `0x`, or a digit behind a sign or white space. -/
def isReadablePair (a b : Char) : Bool :=
  (isHexDigit a && !(a = '0' && (b = 'x' || b = 'X'))) ||
    ((Js.isSpace a || a = '-' || a = '+') && isHexDigit b)

def areReadablePairs : List Char → Bool
  | a :: b :: cs => isReadablePair a b && areReadablePairs cs
  | _ => true

/-- The text is not hexadecimal, but each of its pairs has a number at the
start. -/
structure MisreadHex (s : String) : Prop where
  even : Js.length s % 2 = 0
  basic : ∀ c ∈ s.toList, c.toNat ≤ 0xFFFF
  pairs : areReadablePairs s.toList = true
  notDigit : ∃ c ∈ s.toList, isHexDigit c = false

/-! ### Digits -/

variable {a b c : Char} {cs : List Char} {s : String}

/-- The digits below 16 are the hexadecimal ones. -/
theorem hexVal_of_digitValue {n : ℕ} (h : Js.digitValue c = some n) (hn : n < 16) :
    Bytes.hexVal c = some n := by
  have hle : ∀ a b : Char, a ≤ b ↔ a.toNat ≤ b.toNat := fun a b => UInt32.le_iff_toNat_le
  simp only [Js.digitValue, hle, Char.reduceToNat] at h
  rw [Bytes.hexVal]
  split_ifs at h with h₁ h₂ h₃ <;> simp only [Option.some.injEq] at h
  · rw [if_pos h₁, h]
  · rw [if_neg h₁, if_pos (by omega), h]
  · rw [if_neg h₁, if_neg (by omega), if_pos (by omega), h]

theorem leadingDigits_cons_ne_nil_iff :
    Js.leadingDigits 16 (c :: cs) ≠ [] ↔ isHexDigit c = true := by
  rw [Js.leadingDigits, isHexDigit]
  constructor
  · intro h
    rcases hc : Js.digitValue c with - | n
    · simp [hc] at h
    · by_cases hn : n < 16
      · rw [hexVal_of_digitValue hc hn, Option.isSome_some]
      · simp [hc, hn] at h
  · intro h
    obtain ⟨n, hn⟩ := Option.isSome_iff_exists.mp h
    simp [digitValue_of_hexVal hn, Bytes.hexVal_lt hn]

/-! ### Pairs -/

/-- White space is no digit. -/
theorem isHexDigit_eq_false_of_isSpace (h : Js.isSpace c = true) : isHexDigit c = false := by
  by_contra hdigit
  obtain ⟨n, hn⟩ := Option.isSome_iff_exists.mp (Bool.eq_true_of_not_eq_false hdigit)
  have hrange := Bytes.range_of_hexVal hn
  rw [Js.isSpace_of_ascii (by omega) (by omega)] at h
  cases h

theorem stripHexPrefix_singleton (c : Char) : Js.stripHexPrefix [c] = [c] := by
  simp [Js.stripHexPrefix]

/-- Of one character, only a digit is a number. -/
theorem numberDigits_singleton : Js.numberDigits [c] ≠ [] ↔ isHexDigit c = true := by
  by_cases hspace : Js.isSpace c = true
  · have htrim : Js.trimStart [c] = [] := by simp [Js.trimStart, hspace]
    rw [Js.numberDigits, htrim, isHexDigit_eq_false_of_isSpace hspace]
    decide
  have htrim : Js.trimStart [c] = [c] := by simp [Js.trimStart, hspace]
  rw [Js.numberDigits, htrim]
  by_cases hsign : c = '-' ∨ c = '+'
  · rcases hsign with rfl | rfl <;> decide
  · obtain ⟨hminus, hplus⟩ := not_or.mp hsign
    have hsplit : Js.splitSign [c] = (false, [c]) := by simp [Js.splitSign, hminus, hplus]
    rw [hsplit, stripHexPrefix_singleton, leadingDigits_cons_ne_nil_iff]

theorem numberDigits_of_isSpace (h : Js.isSpace a = true) :
    Js.numberDigits [a, b] = Js.numberDigits [b] := by
  have htrim : Js.trimStart [a, b] = Js.trimStart [b] := by simp [Js.trimStart, h]
  rw [Js.numberDigits, htrim, Js.numberDigits]

theorem numberDigits_of_sign (h : a = '-' ∨ a = '+') :
    Js.numberDigits [a, b] ≠ [] ↔ isHexDigit b = true := by
  have htrim : Js.trimStart [a, b] = [a, b] := by rcases h with rfl | rfl <;> rfl
  have hsplit : (Js.splitSign [a, b]).2 = [b] := by rcases h with rfl | rfl <;> rfl
  rw [Js.numberDigits, htrim, hsplit, stripHexPrefix_singleton, leadingDigits_cons_ne_nil_iff]

/-- At the start of the pair only the prefix `0x` is in the way of a digit. -/
theorem numberDigits_of_start (hspace : ¬ Js.isSpace a = true) (hsign : ¬ (a = '-' ∨ a = '+')) :
    Js.numberDigits [a, b] ≠ [] ↔ isHexDigit a = true ∧ ¬ (a = '0' ∧ (b = 'x' ∨ b = 'X')) := by
  have htrim : Js.trimStart [a, b] = [a, b] := by simp [Js.trimStart, hspace]
  have hsplit : Js.splitSign [a, b] = (false, [a, b]) := by
    obtain ⟨hminus, hplus⟩ := not_or.mp hsign
    simp [Js.splitSign, hminus, hplus]
  rw [Js.numberDigits, htrim, hsplit]
  by_cases hprefixed : a = '0' ∧ (b = 'x' ∨ b = 'X')
  · obtain ⟨rfl, rfl | rfl⟩ := hprefixed <;> decide
  · have hstrip : Js.stripHexPrefix [a, b] = [a, b] := by
      rw [Js.stripHexPrefix.eq_def]
      split
      · next heq => cases heq; simp at hprefixed
      · next heq => cases heq; simp at hprefixed
      · rfl
    rw [hstrip, leadingDigits_cons_ne_nil_iff, and_iff_left hprefixed]

theorem isReadablePair_iff : isReadablePair a b = true ↔
    (isHexDigit a = true ∧ ¬ (a = '0' ∧ (b = 'x' ∨ b = 'X'))) ∨
      ((Js.isSpace a = true ∨ a = '-' ∨ a = '+') ∧ isHexDigit b = true) := by
  simp only [isReadablePair, Bool.or_eq_true, Bool.and_eq_true, Bool.not_eq_true',
    Bool.and_eq_false_iff, Bool.or_eq_false_iff, decide_eq_true_eq, decide_eq_false_iff_not, or_assoc,
    not_and_or, not_or]

/-- **Which pairs are numbers** for `parseInt`. -/
theorem exists_parseInt_pair_iff :
    (∃ q, Js.parseInt 16 (String.ofList [a, b]) = .finite q) ↔ isReadablePair a b = true := by
  have hbound : 16 ^ [a, b].length ≤ Js.overflowBound := by
    show 16 ^ 2 ≤ Js.overflowBound
    decide +kernel
  rw [Js.exists_parseInt_eq_finite_iff hbound, isReadablePair_iff]
  -- the first character is skipped, or it is a sign, or the number starts with it
  by_cases hspace : Js.isSpace a = true
  · rw [numberDigits_of_isSpace hspace, numberDigits_singleton]
    simp [hspace, isHexDigit_eq_false_of_isSpace hspace]
  by_cases hsign : a = '-' ∨ a = '+'
  · have hdigit : isHexDigit a = false := by rcases hsign with rfl | rfl <;> rfl
    rw [numberDigits_of_sign hsign]
    simp only [hdigit, hsign, Bool.false_eq_true, false_and, false_or, or_true, true_and]
  · rw [numberDigits_of_start hspace hsign]
    simp only [hspace, hsign, Bool.false_eq_true, false_and, or_false]

/-! ### Texts -/

theorem exists_hexPairs_iff : ∀ {cs : List Char},
    (∃ bytes, hexPairs cs = .ok bytes) ↔ areReadablePairs cs = true
  | [] => ⟨fun _ => rfl, fun _ => ⟨[], rfl⟩⟩
  -- a character on its own is no byte, and `hexToBytes` does not let it come to that
  | [_] => ⟨fun _ => rfl, fun _ => ⟨[], rfl⟩⟩
  | a :: b :: cs => by
      rw [areReadablePairs, Bool.and_eq_true, ← exists_parseInt_pair_iff, ← @exists_hexPairs_iff cs,
        hexPairs]
      constructor
      · rintro ⟨bytes, h⟩
        split at h
        · next q rest hq hrest => exact ⟨⟨q, hq⟩, ⟨rest, hrest⟩⟩
        · cases h
      · rintro ⟨⟨q, hq⟩, ⟨rest, hrest⟩⟩
        simp only [hq, hrest]
        exact ⟨_, rfl⟩

/-- **Which texts are accepted.** -/
theorem exists_hexToBytes_iff : (∃ bytes, hexToBytes s = .ok bytes) ↔
    Js.length s % 2 = 0 ∧ (∀ c ∈ s.toList, c.toNat ≤ 0xFFFF) ∧ areReadablePairs s.toList = true := by
  rw [hexToBytes, ← exists_hexPairs_iff]
  by_cases heven : Js.length s % 2 = 0
  · rw [if_neg (not_not.mpr heven)]
    by_cases hbasic : ∀ c ∈ s.toList, c.toNat ≤ 0xFFFF
    · have hany : (s.toList.any fun c => 0xFFFF < c.toNat) = false := by
        simpa only [List.any_eq_false, decide_eq_true_eq, not_lt] using hbasic
      rw [hany, if_neg Bool.false_ne_true]
      exact (and_iff_right heven).symm.trans (and_congr_right fun _ => (and_iff_right hbasic).symm)
    · have hany : (s.toList.any fun c => 0xFFFF < c.toNat) = true := by
        simpa only [List.any_eq_true, decide_eq_true_eq, not_forall, exists_prop, not_le] using hbasic
      rw [hany, if_pos rfl]
      simp [hbasic]
  · rw [if_pos heven]
    simp [heven]

example : hexToBytes "-1+1 11x" = .ok [255, 1, 1, 1] := by decide +kernel

/-! ### Main result -/

theorem isHexText_of_not_misread (hread : ∃ bytes, hexToBytes s = .ok bytes) (h : ¬ MisreadHex s) :
    IsHexText s := by
  obtain ⟨heven, hbasic, hpairs⟩ := exists_hexToBytes_iff.mp hread
  refine ⟨heven, fun c hc => ?_⟩
  by_contra hdigit
  exact h ⟨heven, hbasic, hpairs, c, hc, Bool.eq_false_of_not_eq_true hdigit⟩

/-- Hexadecimal text is read as what it stands for. -/
theorem IsHexText.hexToBytes (h : IsHexText s) :
    NostrMesh.Api.hexToBytes s = .ok (Bytes.ofHex s) ∧
      Bytes.toHex (Bytes.ofHex s) = Js.toLowerCase s := by
  have heven : s.toList.length % 2 = 0 := by
    rw [← Js.length_of_forall_le (basic_of_isHex h.digits)]
    exact h.even
  refine ⟨hexToBytes_of_isHex h.even h.digits, ?_⟩
  rw [Bytes.toHex, Bytes.ofHex, Bytes.hexChars_ofHexChars_eq_map heven h.digits, Js.toLowerCase]

/-- **What `hexToBytes` accepts** is exactly hexadecimal text, but for the texts
that it misreads. -/
theorem acceptsExactlyHex_iff (s : String) : AcceptsExactlyHex s ↔ ¬ MisreadHex s := by
  constructor
  · rintro ⟨haccepts, -⟩ ⟨heven, hbasic, hpairs, c, hc, hother⟩
    have hhex := haccepts.mp (exists_hexToBytes_iff.mpr ⟨heven, hbasic, hpairs⟩)
    rw [hhex.digits c hc] at hother
    cases hother
  · intro h
    refine ⟨⟨fun hread => isHexText_of_not_misread hread h, fun hhex => ⟨_, hhex.hexToBytes.1⟩⟩, ?_⟩
    intro bytes hread
    obtain ⟨hbytes, htext⟩ := (isHexText_of_not_misread ⟨bytes, hread⟩ h).hexToBytes
    rw [hbytes] at hread
    cases hread
    exact htext

/-- A key that ends in a letter which is not a digit. -/
theorem not_acceptsExactlyHex_letter : ¬ AcceptsExactlyHex
    "4f355bdcb7cc0af728ef3cceb9615d90684bb5b2ca5f859ab0f0b704075871ag" := by
  intro h
  -- its last pair is read as `0a`
  have hread : hexToBytes "4f355bdcb7cc0af728ef3cceb9615d90684bb5b2ca5f859ab0f0b704075871ag" =
      .ok (Bytes.ofHex "4f355bdcb7cc0af728ef3cceb9615d90684bb5b2ca5f859ab0f0b7040758710a") := by
    decide +kernel
  have hdigit := (h.accepts.mp ⟨_, hread⟩).digits 'g' (by decide +kernel)
  cases hdigit

end NostrMesh.Api
