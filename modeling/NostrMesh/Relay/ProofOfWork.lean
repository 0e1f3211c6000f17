/-
NostrMesh/Relay/ProofOfWork.lean

The difficulty of an id is its number of leading zero bits.

`getLeadingZeroBits` is a loop over the bytes that ends at the first one with
a bit set; `msb` finds this bit by shifting.  The loops carry their counts
along (`shiftLoop_eq`, `byteLoop_eq`), and what they count are the leading
zeros of all bits in one row (`getLeadingZeroBits_eq_zeroBits`).  So the
difficulty bounds the id as a number.

Main result: `proofOfWork_exact`.
-/
import NostrMesh.Lib.LeadingZeros
import NostrMesh.Relay.Settings

namespace NostrMesh.Relay

open Bech32 LeadingZeros

/-! ### The loops -/

/-- The loop of `msb`: `while (b >>= 1) n++`. -/
def shiftLoop (b n : ℕ) : ℕ := if b >>> 1 = 0 then n else shiftLoop (b >>> 1) (n + 1)
termination_by b
decreasing_by
  next h =>
    rw [Nat.shiftRight_eq_div_pow] at h ⊢
    omega

/-- The loop of `getLeadingZeroBits`: the bytes that are left, and the
`total`. -/
def byteLoop : Bytes → ℕ → ℕ
  | [], total => total
  | b :: hash, total =>
      let bits := if b = 0 then 8 else 7 - shiftLoop b.toNat 0
      if bits ≠ 8 then total + bits else byteLoop hash (total + bits)

/-! ### The numbers -/

/-- The bits of the bytes, the most significant bit of each first. -/
def hashBits (hash : Bytes) : List Bool := spread 8 (hash.map UInt8.toNat)

/-- The number that a hexadecimal text stands for. -/
def hexNumber (text : String) : ℕ := Js.ofDigits 16 (text.toList.filterMap Bytes.hexVal)

theorem hashBits_cons (b : UInt8) (hash : Bytes) :
    hashBits (b :: hash) = bits 8 b.toNat ++ hashBits hash := by
  rw [hashBits, List.map_cons, spread_cons, hashBits]

@[simp] theorem length_hashBits (hash : Bytes) : (hashBits hash).length = 8 * hash.length := by
  rw [hashBits, length_spread, List.length_map]

/-- Each shift takes one from the logarithm. -/
theorem shiftLoop_eq (b n : ℕ) : shiftLoop b n = n + b.log2 := by
  induction b, n using shiftLoop.induct with
  | case1 b n h =>
      rw [shiftLoop, if_pos h, Nat.log2_def, if_neg]
      · rfl
      · rw [Nat.shiftRight_eq_div_pow] at h
        omega
  | case2 b n h ih =>
      rw [shiftLoop, if_neg h, ih, Nat.log2_def b, if_pos]
      · rw [Nat.shiftRight_eq_div_pow, Nat.pow_one]
        omega
      · rw [Nat.shiftRight_eq_div_pow] at h
        omega

theorem msb_eq (b : UInt8) : (if b = 0 then 8 else 7 - shiftLoop b.toNat 0) = msb b := by
  rw [shiftLoop_eq, Nat.zero_add, msb]

/-- The `total` is carried along. -/
theorem byteLoop_eq (hash : Bytes) (total : ℕ) :
    byteLoop hash total = total + getLeadingZeroBits hash := by
  induction hash generalizing total with
  | nil => rfl
  | cons b hash ih =>
      rw [byteLoop, msb_eq, getLeadingZeroBits]
      by_cases hmsb : msb b = 8
      · rw [if_neg (not_not.mpr hmsb), if_pos hmsb, ih, hmsb, Nat.add_assoc]
      · rw [if_pos hmsb, if_neg hmsb]

/-! ### Leading zeros -/

theorem msb_eq_zeroBits (b : UInt8) : msb b = zeroBits (bits 8 b.toNat) := by
  rw [msb]
  split_ifs with hb
  · rw [hb, UInt8.toNat_zero, zeroBits_bits_zero]
  · have hne : b.toNat ≠ 0 := fun h => hb (UInt8.toNat_inj.mp h)
    rw [zeroBits_bits hne b.toNat_lt]

/-- **The count** is that of the bits in one row. -/
theorem getLeadingZeroBits_eq_zeroBits (hash : Bytes) :
    getLeadingZeroBits hash = zeroBits (hashBits hash) := by
  induction hash with
  | nil => rfl
  | cons b hash ih =>
      rw [getLeadingZeroBits, ih, hashBits_cons, zeroBits_append, length_bits, ← msb_eq_zeroBits]

/-- The bits of a hexadecimal text are those of the number. -/
theorem ofBits_hashBits : ∀ {cs : List Char}, cs.length % 2 = 0 →
    (∀ c ∈ cs, (Bytes.hexVal c).isSome) →
    ofBits (hashBits (Bytes.ofHexChars cs)) = Js.ofDigits 16 (cs.filterMap Bytes.hexVal)
  | [], _, _ => rfl
  | [_], h, _ => by simp at h
  | a :: b :: cs, h, hhex => by
      obtain ⟨x, y, hx, hy, hcs⟩ := Bytes.exists_hexVal_pair hhex
      have heven : cs.length % 2 = 0 := by simp at h; omega
      have hx16 := Bytes.hexVal_lt hx
      have hy16 := Bytes.hexVal_lt hy
      have hbyte : 16 * x + y < 2 ^ 8 := by omega
      have hdigits : ((a :: b :: cs).filterMap Bytes.hexVal) =
          [x, y] ++ cs.filterMap Bytes.hexVal := by
        rw [List.filterMap_cons_some hx, List.filterMap_cons_some hy]
        rfl
      have hlength : (cs.filterMap Bytes.hexVal).length = cs.length :=
        List.filterMap_length_eq_length.mpr hcs
      have hpow : 2 ^ (8 * (cs.length / 2)) = 16 ^ cs.length := by
        rw [show (16 : ℕ) = 2 ^ 4 from rfl, ← Nat.pow_mul]
        congr 1
        omega
      rw [Bytes.ofHexChars, hx, hy, hdigits, Js.ofDigits_append, hlength]
      dsimp only
      rw [hashBits_cons, ofBits_append, Bytes.toNat_ofNat_pair hx16 hy16, ofBits_bits hbyte, length_hashBits,
        Bytes.length_ofHexChars hcs, hpow, ofBits_hashBits heven hcs]
      simp [Js.ofDigits, Nat.mul_comm]

theorem getLeadingZeroBits_of_zero {hash : Bytes} (h : ∀ b ∈ hash, b = 0) :
    getLeadingZeroBits hash = 8 * hash.length := by
  induction hash with
  | nil => rfl
  | cons b hash ih =>
      have hmsb : msb b = 8 := by rw [h b List.mem_cons_self]; rfl
      rw [getLeadingZeroBits, if_pos hmsb, ih fun c hc => h c (List.mem_cons_of_mem _ hc),
        List.length_cons]
      omega

/-- A difficulty bounds the id as a number. -/
theorem le_getEventProofOfWork_iff {eventId : String} {n : ℕ} (hlength : eventId.toList.length = 64)
    (hhex : ∀ c ∈ eventId.toList, (Bytes.hexVal c).isSome) (hn : n ≤ 256) :
    n ≤ getEventProofOfWork eventId ↔ hexNumber eventId < 2 ^ (256 - n) := by
  have hbits : (hashBits (toBuffer eventId)).length = 256 := by
    rw [length_hashBits, toBuffer, Bytes.ofHex, Bytes.length_ofHexChars hhex, hlength]
  have hnumber : ofBits (hashBits (toBuffer eventId)) = hexNumber eventId :=
    ofBits_hashBits (by rw [hlength]) hhex
  rw [getEventProofOfWork, getLeadingZeroBits_eq_zeroBits, le_zeroBits_iff (hn.trans_eq hbits.symm),
    hbits, hnumber]

/-- **The difficulty of an id** is exact: it is the number of leading zeros of
its bits, and so it says how small the id is as a number. -/
theorem proofOfWork_exact :
    (∀ hash : Bytes, getLeadingZeroBits hash = byteLoop hash 0 ∧
      byteLoop hash 0 = zeroBits (hashBits hash) ∧
      ((∀ b ∈ hash, b = 0) → byteLoop hash 0 = 8 * hash.length)) ∧
    ∀ (eventId : String) (n : ℕ), eventId.toList.length = 64 →
      (∀ c ∈ eventId.toList, (Bytes.hexVal c).isSome) → n ≤ 256 →
        (n ≤ getEventProofOfWork eventId ↔ hexNumber eventId < 2 ^ (256 - n)) := by
  have hloop : ∀ hash : Bytes, byteLoop hash 0 = getLeadingZeroBits hash := fun hash => by
    rw [byteLoop_eq, Nat.zero_add]
  refine ⟨fun hash => ⟨(hloop hash).symm, ?_, fun hzero => ?_⟩, fun eventId n hlength hhex hn => ?_⟩
  · rw [hloop, getLeadingZeroBits_eq_zeroBits]
  · rw [hloop, getLeadingZeroBits_of_zero hzero]
  · exact le_getEventProofOfWork_iff hlength hhex hn

/-- An id that was mined for a difficulty of 36. -/
theorem proofOfWork_exact_mined : 36 ≤ getEventProofOfWork
    "000000000e9d97a1ab09fc381030b346cdd7a142ad57e6df0b46dc9bef6c7e2d" :=
  (proofOfWork_exact.2 _ 36 (by decide +kernel)
    (List.all_eq_true.mp (by decide +kernel)) (by decide)).mpr (by decide +kernel)

end NostrMesh.Relay
