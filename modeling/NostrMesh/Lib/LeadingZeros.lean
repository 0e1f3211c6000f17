/-
NostrMesh/Lib/LeadingZeros.lean

Leading zeros of bit strings, the most significant bit first.

`zeroBits` counts them.  It is what bounds the number that the string stands
for: with at least `n` leading zeros in `k` bits the number is below
`2 ^ (k - n)`, and the other way round (`le_zeroBits_iff`).  So the leading
zeros of a number of known width are read off its logarithm
(`zeroBits_bits`), and those of a long string from the left, as far as there
are only zeros (`zeroBits_append`).
-/
import NostrMesh.Lib.Bech32

namespace LeadingZeros

open Bech32

/-- The zero bits in front of the first bit that is set. -/
def zeroBits (bs : List Bool) : ℕ := (bs.takeWhile fun b => !b).length

variable {bs cs : List Bool} {n k : ℕ}

@[simp] theorem zeroBits_nil : zeroBits [] = 0 := rfl

@[simp] theorem zeroBits_true (bs : List Bool) : zeroBits (true :: bs) = 0 := rfl

@[simp] theorem zeroBits_false (bs : List Bool) : zeroBits (false :: bs) = zeroBits bs + 1 := rfl

theorem zeroBits_le_length (bs : List Bool) : zeroBits bs ≤ bs.length :=
  (List.takeWhile_sublist _).length_le

/-- Behind a string of zeros the count goes on. -/
theorem zeroBits_append (bs cs : List Bool) : zeroBits (bs ++ cs) =
    if zeroBits bs = bs.length then bs.length + zeroBits cs else zeroBits bs := by
  induction bs with
  | nil => rw [List.nil_append, zeroBits_nil, if_pos List.length_nil.symm, List.length_nil,
      Nat.zero_add]
  | cons b bs ih =>
      cases b with
      | true =>
          rw [List.cons_append, zeroBits_true, zeroBits_true, if_neg]
          exact (Nat.succ_ne_zero _).symm
      | false =>
          rw [List.cons_append, zeroBits_false, zeroBits_false, ih, List.length_cons]
          simp only [Nat.add_right_cancel_iff]
          split
          · exact Nat.add_right_comm _ _ _
          · rfl

theorem ofBits_append (bs cs : List Bool) :
    ofBits (bs ++ cs) = ofBits bs * 2 ^ cs.length + ofBits cs := by
  induction cs using List.reverseRecOn with
  | nil => simp [ofBits]
  | append_singleton cs b ih =>
      have hshift : ofBits bs * (2 ^ cs.length * 2) = 2 * (ofBits bs * 2 ^ cs.length) := by
        rw [← Nat.mul_assoc, Nat.mul_comm]
      rw [← List.append_assoc, ofBits_concat, ofBits_concat, ih, List.length_append,
        List.length_singleton, pow_succ, hshift]
      omega

theorem ofBits_cons (b : Bool) (bs : List Bool) :
    ofBits (b :: bs) = b.toNat * 2 ^ bs.length + ofBits bs := by
  have hone : ofBits [b] = b.toNat := by simp [ofBits]
  rw [← List.singleton_append, ofBits_append, hone]

/-- **Leading zeros bound the number**, and the bound gives them back. -/
theorem le_zeroBits_iff (hn : n ≤ bs.length) :
    n ≤ zeroBits bs ↔ ofBits bs < 2 ^ (bs.length - n) := by
  induction bs generalizing n with
  | nil =>
      obtain rfl := Nat.le_zero.mp hn
      simp [ofBits]
  | cons b bs ih =>
      rcases n with - | n
      · exact iff_of_true (Nat.zero_le _) (ofBits_lt _)
      rw [List.length_cons, Nat.succ_le_succ_iff] at hn
      rw [List.length_cons, Nat.add_sub_add_right, ofBits_cons]
      cases b with
      | true =>
          -- the first bit alone makes the number too large
          have hpow : 2 ^ (bs.length - n) ≤ 2 ^ bs.length :=
            Nat.pow_le_pow_right (by decide) (Nat.sub_le _ _)
          rw [zeroBits_true, Bool.toNat_true, Nat.one_mul]
          omega
      | false =>
          rw [zeroBits_false, Nat.succ_le_succ_iff, ih hn, Bool.toNat_false, Nat.zero_mul,
            Nat.zero_add]

/-- The leading zeros of a number of `k` bits. -/
theorem zeroBits_bits (hlow : n ≠ 0) (hhigh : n < 2 ^ k) : zeroBits (bits k n) = k - 1 - n.log2 := by
  have hlog : n.log2 < k := (Nat.log2_lt hlow).mpr hhigh
  have hiff : ∀ m ≤ k, m ≤ zeroBits (bits k n) ↔ n < 2 ^ (k - m) := by
    intro m hm
    have h := @le_zeroBits_iff (bits k n) m (hm.trans_eq (length_bits k n).symm)
    rwa [length_bits, ofBits_bits hhigh] at h
  have hge : k - 1 - n.log2 ≤ zeroBits (bits k n) := by
    rw [hiff _ (by omega), show k - (k - 1 - n.log2) = n.log2 + 1 by omega]
    exact Nat.lt_log2_self
  have hle : ¬ k - n.log2 ≤ zeroBits (bits k n) := by
    rw [hiff _ (Nat.sub_le _ _), show k - (k - n.log2) = n.log2 by omega, not_lt]
    exact Nat.log2_self_le hlow
  omega

theorem zeroBits_bits_zero (k : ℕ) : zeroBits (bits k 0) = k := by
  have hlow : k ≤ zeroBits (bits k 0) := by
    rw [le_zeroBits_iff (length_bits k 0).ge, ofBits_bits (Nat.two_pow_pos k)]
    exact Nat.two_pow_pos _
  have hhigh := zeroBits_le_length (bits k 0)
  rw [length_bits] at hhigh
  exact hhigh.antisymm hlow

end LeadingZeros
