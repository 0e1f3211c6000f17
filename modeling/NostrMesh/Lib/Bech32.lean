/-
NostrMesh/Lib/Bech32.lean

The text format Bech32: a prefix, the separator `1`, words of five bits and a
checksum of six words, in letters and digits of one case.

`toWords` and `fromWords` regroup bytes into words and back, with zero bits as
padding (`fromWords_eq_ok_iff`).  The checksum is the remainder of a
polynomial; as six words fill the remainder, there is exactly one that makes
it 1 (`absorb_eq_one_iff`), so that the lower-case texts that `decode` accepts
are the ones that `encode` writes (`decode_encode`, `encode_of_decode`).
-/
import NostrMesh.Lib.Bytes
import Mathlib.Data.List.Induction
import Mathlib.Data.Nat.Bitwise

namespace Bech32

/-! ### Groups of bits -/

/-- The lowest `k` bits of a number, the highest of them first. -/
def bits : ℕ → ℕ → List Bool
  | 0, _ => []
  | k + 1, n => bits k (n / 2) ++ [decide (n % 2 = 1)]

def ofBits (bs : List Bool) : ℕ := bs.foldl (fun n b => 2 * n + b.toNat) 0

/-- The numbers of `k` bits each, in one row. -/
def spread (k : ℕ) (ns : List ℕ) : List Bool := ns.flatMap (bits k)

/-- The first `n` groups of `k` bits. -/
def groups (k : ℕ) : ℕ → List Bool → List ℕ
  | 0, _ => []
  | n + 1, bs => ofBits (bs.take k) :: groups k n (bs.drop k)

@[simp] theorem length_bits (k n : ℕ) : (bits k n).length = k := by
  induction k generalizing n with
  | zero => rfl
  | succ k ih => rw [bits, List.length_append, ih, List.length_singleton]

theorem ofBits_concat (bs : List Bool) (b : Bool) : ofBits (bs ++ [b]) = 2 * ofBits bs + b.toNat := by
  rw [ofBits, List.foldl_append, List.foldl_cons, List.foldl_nil, ofBits]

theorem ofBits_bits {k n : ℕ} (h : n < 2 ^ k) : ofBits (bits k n) = n := by
  induction k generalizing n with
  | zero =>
      have : n = 0 := by omega
      rw [this]
      rfl
  | succ k ih =>
      rw [pow_succ] at h
      rw [bits, ofBits_concat, ih (by omega)]
      rcases Nat.mod_two_eq_zero_or_one n with hn | hn
      · rw [hn, decide_eq_false (by decide), Bool.toNat_false]
        omega
      · rw [hn, decide_eq_true rfl, Bool.toNat_true]
        omega

theorem bits_ofBits (bs : List Bool) : bits bs.length (ofBits bs) = bs := by
  induction bs using List.reverseRecOn with
  | nil => rfl
  | append_singleton bs b ih =>
      have hhalf : (2 * ofBits bs + b.toNat) / 2 = ofBits bs := by
        have := b.toNat_le
        omega
      have hlast : decide ((2 * ofBits bs + b.toNat) % 2 = 1) = b := by
        cases b
        · exact decide_eq_false (by simp)
        · exact decide_eq_true (by simp)
      rw [List.length_append, List.length_singleton, bits, ofBits_concat, hhalf, hlast, ih]

theorem ofBits_lt (bs : List Bool) : ofBits bs < 2 ^ bs.length := by
  induction bs using List.reverseRecOn with
  | nil => decide
  | append_singleton bs b ih =>
      have := b.toNat_le
      rw [ofBits_concat, List.length_append, List.length_singleton, pow_succ]
      omega

theorem spread_cons (k n : ℕ) (ns : List ℕ) : spread k (n :: ns) = bits k n ++ spread k ns := rfl

@[simp] theorem length_spread (k : ℕ) (ns : List ℕ) : (spread k ns).length = k * ns.length := by
  induction ns with
  | nil => rfl
  | cons n ns ih =>
      rw [spread_cons, List.length_append, length_bits, ih, List.length_cons, Nat.mul_succ,
        Nat.add_comm]

@[simp] theorem length_groups (k n : ℕ) (bs : List Bool) : (groups k n bs).length = n := by
  induction n generalizing bs with
  | zero => rfl
  | succ n ih => rw [groups, List.length_cons, ih]

theorem lt_of_mem_groups {k n : ℕ} {bs : List Bool} {m : ℕ} (h : m ∈ groups k n bs) :
    m < 2 ^ k := by
  induction n generalizing bs with
  | zero => cases h
  | succ n ih =>
      rcases List.mem_cons.mp h with rfl | h
      · exact (ofBits_lt _).trans_le (Nat.pow_le_pow_right (by decide) (List.length_take_le _ _))
      · exact ih h

theorem groups_spread {k : ℕ} {ns : List ℕ} (h : ∀ n ∈ ns, n < 2 ^ k) (rest : List Bool) :
    groups k ns.length (spread k ns ++ rest) = ns := by
  induction ns with
  | nil => rfl
  | cons n ns ih =>
      obtain ⟨hn, hns⟩ := List.forall_mem_cons.mp h
      rw [List.length_cons, groups, spread_cons, List.append_assoc, List.take_left' (length_bits k n),
        List.drop_left' (length_bits k n), ofBits_bits hn, ih hns]

theorem spread_groups {k n : ℕ} {bs : List Bool} (h : k * n ≤ bs.length) :
    spread k (groups k n bs) = bs.take (k * n) := by
  induction n generalizing bs with
  | zero => rfl
  | succ n ih =>
      rw [Nat.mul_succ] at h
      have hlen : (bs.take k).length = k := List.length_take_of_le (by omega)
      have hhead : bits k (ofBits (bs.take k)) = bs.take k := by
        conv_lhs => rw [← hlen]
        exact hlen.symm ▸ bits_ofBits (bs.take k)
      rw [groups, spread_cons, hhead, ih (by rw [List.length_drop]; omega), Nat.mul_succ,
        Nat.add_comm, List.take_add]

/-! ### Words and bytes -/

/-- Five bits. -/
abbrev Word := Fin 32

/-- The number of words for so many bytes. -/
def wordCount (n : ℕ) : ℕ := (8 * n + 4) / 5

def toWords (data : Bytes) : List Word :=
  let padding := List.replicate (5 * wordCount data.length - 8 * data.length) false
  (groups 5 (wordCount data.length) (spread 8 (data.map UInt8.toNat) ++ padding)).map (Fin.ofNat 32)

def fromWords (words : List Word) : Except String Bytes :=
  let row := spread 5 (words.map Fin.val)
  let count := 5 * words.length / 8
  let padding := row.drop (8 * count)
  if 5 ≤ padding.length then .error "Excess padding"
  else if padding.contains true then .error "Non-zero padding"
  else .ok ((groups 8 count row).map UInt8.ofNat)

theorem map_val_map_ofNat {ns : List ℕ} (h : ∀ n ∈ ns, n < 32) :
    (ns.map (Fin.ofNat 32)).map Fin.val = ns := by
  rw [List.map_map]
  exact (List.map_congr_left fun n hn => Nat.mod_eq_of_lt (h n hn)).trans (List.map_id ns)

theorem map_toNat_map_ofNat {ns : List ℕ} (h : ∀ n ∈ ns, n < 256) :
    (ns.map UInt8.ofNat).map UInt8.toNat = ns := by
  rw [List.map_map]
  exact (List.map_congr_left fun n hn => UInt8.toNat_ofNat_of_lt (h n hn)).trans (List.map_id ns)

theorem groups_spread_bytes (data : Bytes) (rest : List Bool) :
    groups 8 data.length (spread 8 (data.map UInt8.toNat) ++ rest) = data.map UInt8.toNat := by
  have hbytes : ∀ n ∈ data.map UInt8.toNat, n < 2 ^ 8 := by
    intro n hn
    obtain ⟨b, -, rfl⟩ := List.mem_map.mp hn
    exact b.toNat_lt
  have h := groups_spread hbytes rest
  rwa [List.length_map] at h

theorem groups_spread_words (words : List Word) :
    groups 5 words.length (spread 5 (words.map Fin.val)) = words.map Fin.val := by
  have hwords : ∀ n ∈ words.map Fin.val, n < 2 ^ 5 := by
    intro n hn
    obtain ⟨w, -, rfl⟩ := List.mem_map.mp hn
    exact w.isLt
  have h := groups_spread hwords []
  rwa [List.append_nil, List.length_map] at h

theorem spread_toWords (data : Bytes) :
    spread 5 ((toWords data).map Fin.val) = spread 8 (data.map UInt8.toNat) ++
      List.replicate (5 * wordCount data.length - 8 * data.length) false := by
  have hcount : 8 * data.length ≤ 5 * wordCount data.length := by
    rw [wordCount]
    omega
  have hlen : (spread 8 (data.map UInt8.toNat) ++
      List.replicate (5 * wordCount data.length - 8 * data.length) false).length =
        5 * wordCount data.length := by
    rw [List.length_append, length_spread, List.length_map, List.length_replicate]
    omega
  rw [toWords, map_val_map_ofNat fun n hn => lt_of_mem_groups hn, spread_groups hlen.ge,
    List.take_of_length_le hlen.le]

@[simp] theorem length_toWords (data : Bytes) : (toWords data).length = wordCount data.length := by
  rw [toWords, List.length_map, length_groups]

@[simp] theorem fromWords_toWords (data : Bytes) : fromWords (toWords data) = .ok data := by
  have hcount : 5 * wordCount data.length / 8 = data.length := by
    rw [wordCount]
    omega
  have hrow : (spread 8 (data.map UInt8.toNat)).length = 8 * data.length := by
    rw [length_spread, List.length_map]
  have hpadding : ¬ 5 ≤ 5 * wordCount data.length - 8 * data.length := by
    rw [wordCount]
    omega
  rw [fromWords, spread_toWords, length_toWords, hcount, List.drop_left' hrow,
    List.length_replicate, if_neg hpadding, if_neg (by simp), groups_spread_bytes,
    List.map_map]
  exact congrArg _ ((List.map_congr_left fun b _ => UInt8.ofNat_toNat).trans (List.map_id data))

/-- **Regrouping** is undone exactly on what it gives. -/
theorem fromWords_eq_ok_iff {words : List Word} {data : Bytes} :
    fromWords words = .ok data ↔ words = toWords data := by
  constructor
  · intro h
    rw [fromWords] at h
    split_ifs at h with hexcess hzero
    obtain rfl := Except.ok.inj h
    have hrow : (spread 5 (words.map Fin.val)).length = 5 * words.length := by
      rw [length_spread, List.length_map]
    rw [List.length_drop, hrow] at hexcess
    have hlen : ((groups 8 (5 * words.length / 8) (spread 5 (words.map Fin.val))).map
        UInt8.ofNat).length = 5 * words.length / 8 := by
      rw [List.length_map, length_groups]
    have hcount : wordCount (5 * words.length / 8) = words.length := by
      rw [wordCount]
      omega
    have hpadding : (spread 5 (words.map Fin.val)).drop (8 * (5 * words.length / 8)) =
        List.replicate (5 * words.length - 8 * (5 * words.length / 8)) false := by
      refine List.eq_replicate_iff.mpr ⟨by rw [List.length_drop, hrow], fun b hb => ?_⟩
      refine Bool.eq_false_iff.mpr fun htrue => hzero ?_
      exact List.contains_iff_mem.mpr (htrue ▸ hb)
    rw [toWords, hlen, hcount, map_toNat_map_ofNat fun n hn => lt_of_mem_groups hn,
      spread_groups (by rw [hrow]; omega), ← hpadding, List.take_append_drop,
      groups_spread_words, List.map_map]
    exact ((List.map_congr_left fun w _ => Fin.ofNat_val_eq_self w).trans (List.map_id words)).symm
  · rintro rfl
    exact fromWords_toWords data

/-! ### The checksum -/

/-- One step of the division by the generator, for a word of zeros. -/
def polymodStep (pre : ℕ) : ℕ :=
  ((pre &&& 0x1ffffff) <<< 5) ^^^
    (if (pre >>> 25).testBit 0 then 0x3b6a57b2 else 0) ^^^
    (if (pre >>> 25).testBit 1 then 0x26508e6d else 0) ^^^
    (if (pre >>> 25).testBit 2 then 0x1ea119fa else 0) ^^^
    (if (pre >>> 25).testBit 3 then 0x3d4233dd else 0) ^^^
    (if (pre >>> 25).testBit 4 then 0x2a1462b3 else 0)

/-- The division goes on with these words. -/
def absorb (chk : ℕ) (words : List Word) : ℕ :=
  words.foldl (fun chk w => polymodStep chk ^^^ w.val) chk

/-- Six words as one number, and back. -/
def packed (words : List Word) : ℕ := words.foldl (fun n w => 32 * n + w.val) 0

def unpacked : ℕ → ℕ → List Word
  | 0, _ => []
  | k + 1, n => unpacked k (n / 32) ++ [Fin.ofNat 32 n]

/-- The six words that make the remainder 1. -/
def checksum (chk : ℕ) : List Word := unpacked 6 (polymodStep^[6] chk ^^^ 1)

/-- The division is linear as long as nothing overflows. -/
theorem polymodStep_xor (c : ℕ) {d : ℕ} (h : d < 2 ^ 25) :
    polymodStep (c ^^^ d) = polymodStep c ^^^ d <<< 5 := by
  have htop : (c ^^^ d) >>> 25 = c >>> 25 := by
    rw [Nat.shiftRight_xor_distrib, Nat.shiftRight_eq_div_pow d, Nat.div_eq_of_lt h, Nat.xor_zero]
  have hlow : (c ^^^ d) &&& 0x1ffffff = (c &&& 0x1ffffff) ^^^ d := by
    rw [Nat.and_xor_distrib_right]
    exact congrArg _ (Nat.and_two_pow_sub_one_of_lt_two_pow h)
  rw [polymodStep, htop, hlow, Nat.shiftLeft_xor_distrib, polymodStep]
  ac_rfl

theorem shiftLeft_xor (d : ℕ) (w : Word) : d <<< 5 ^^^ w.val = 32 * d + w.val := by
  refine Nat.eq_of_testBit_eq fun i => ?_
  have h : (32 * d + w.val).testBit i = if i < 5 then w.val.testBit i else d.testBit (i - 5) :=
    Nat.testBit_two_pow_mul_add d (i := 5) w.isLt i
  rw [h, Nat.testBit_xor, Nat.testBit_shiftLeft]
  split_ifs with hi
  · rw [decide_eq_false (by omega), Bool.false_and, Bool.false_xor]
  · have hw : w.val.testBit i = false :=
      Nat.testBit_lt_two_pow (w.isLt.trans_le (Nat.pow_le_pow_right (n := 2) (by decide)
        (show 5 ≤ i by omega)))
    rw [hw, Bool.xor_false, decide_eq_true (by omega), Bool.true_and]

theorem packed_concat (words : List Word) (w : Word) :
    packed (words ++ [w]) = 32 * packed words + w.val := by
  rw [packed, List.foldl_append, List.foldl_cons, List.foldl_nil, packed]

theorem packed_lt (words : List Word) : packed words < 32 ^ words.length := by
  induction words using List.reverseRecOn with
  | nil => decide
  | append_singleton words w ih =>
      have := w.isLt
      rw [packed_concat, List.length_append, List.length_singleton, pow_succ]
      omega

/-- The last six words are added to the remainder. -/
theorem absorb_eq (chk : ℕ) {words : List Word} (h : words.length ≤ 6) :
    absorb chk words = polymodStep^[words.length] chk ^^^ packed words := by
  induction words using List.reverseRecOn with
  | nil => exact (Nat.xor_zero chk).symm
  | append_singleton words w ih =>
      rw [List.length_append, List.length_singleton] at h
      have hsmall : packed words < 2 ^ 25 :=
        (packed_lt words).trans_le (Nat.pow_le_pow_right (n := 32) (by decide)
          (show words.length ≤ 5 by omega))
      rw [absorb, List.foldl_append, List.foldl_cons, List.foldl_nil, ← absorb, ih (by omega),
        polymodStep_xor _ hsmall, Nat.xor_assoc, shiftLeft_xor, List.length_append,
        List.length_singleton, Function.iterate_succ_apply', packed_concat]

theorem packed_unpacked {k n : ℕ} (h : n < 32 ^ k) : packed (unpacked k n) = n := by
  induction k generalizing n with
  | zero =>
      have : n = 0 := by omega
      rw [this]
      rfl
  | succ k ih =>
      rw [pow_succ] at h
      rw [unpacked, packed_concat, ih (by omega), Fin.val_ofNat]
      omega

@[simp] theorem length_unpacked (k n : ℕ) : (unpacked k n).length = k := by
  induction k generalizing n with
  | zero => rfl
  | succ k ih => rw [unpacked, List.length_append, ih, List.length_singleton]

theorem unpacked_packed (words : List Word) : unpacked words.length (packed words) = words := by
  induction words using List.reverseRecOn with
  | nil => rfl
  | append_singleton words w ih =>
      have hdiv : (32 * packed words + w.val) / 32 = packed words := by
        have := w.isLt
        omega
      have hlast : Fin.ofNat 32 (32 * packed words + w.val) = w := by
        refine Fin.ext ?_
        rw [Fin.val_ofNat]
        have := w.isLt
        omega
      rw [List.length_append, List.length_singleton, unpacked, packed_concat, hdiv, hlast, ih]

theorem polymodStep_lt (c : ℕ) : polymodStep c < 2 ^ 30 := by
  have hlow : (c &&& 0x1ffffff) <<< 5 < 2 ^ 30 := by
    have h : c &&& 0x1ffffff < 2 ^ 25 := Nat.and_lt_two_pow c (by decide)
    rw [Nat.shiftLeft_eq]
    omega
  have hif : ∀ (b : Bool) {g : ℕ}, g < 2 ^ 30 → (if b then g else 0) < 2 ^ 30 := by
    intro b g hg
    split_ifs
    · exact hg
    · decide
  rw [polymodStep]
  exact Nat.xor_lt_two_pow (Nat.xor_lt_two_pow (Nat.xor_lt_two_pow (Nat.xor_lt_two_pow
    (Nat.xor_lt_two_pow hlow (hif _ (by decide))) (hif _ (by decide))) (hif _ (by decide)))
    (hif _ (by decide))) (hif _ (by decide))

theorem length_checksum (chk : ℕ) : (checksum chk).length = 6 := length_unpacked _ _

/-- **The checksum**: of all continuations by six words, this one makes the
remainder 1. -/
theorem absorb_eq_one_iff (chk : ℕ) {words : List Word} (h : words.length = 6) :
    absorb chk words = 1 ↔ words = checksum chk := by
  have hsmall : polymodStep^[6] chk ^^^ 1 < 32 ^ 6 := by
    rw [Function.iterate_succ_apply']
    exact Nat.xor_lt_two_pow (n := 30) (polymodStep_lt _) (by decide)
  rw [absorb_eq chk h.le, h]
  constructor
  · intro h1
    have hpacked : packed words = polymodStep^[6] chk ^^^ 1 := by
      rw [← h1, ← Nat.xor_assoc, Nat.xor_self, Nat.zero_xor]
    rw [checksum, ← hpacked, ← h, unpacked_packed]
  · rintro rfl
    rw [checksum, packed_unpacked hsmall, ← Nat.xor_assoc, Nat.xor_self, Nat.zero_xor]

/-! ### Texts -/

/-- The letters and digits of the words. -/
def alphabet : List Char := "qpzry9x8gf2tvdw0s3jn54khce6mua7l".toList

def letter (w : Word) : Char := alphabet.getD w.val 'q'

def wordOf (c : Char) : Option Word := (List.finRange 32).find? fun w => letter w = c

/-- The part of the remainder that the prefix contributes. -/
def prefixChk (pre : List Char) : ℕ :=
  let high := pre.foldl (fun chk c => polymodStep chk ^^^ c.toNat >>> 5) 1
  pre.foldl (fun chk c => polymodStep chk ^^^ (c.toNat &&& 0x1f)) (polymodStep high)

def validPrefix (pre : List Char) : Bool := pre.all fun c => 33 ≤ c.toNat && c.toNat ≤ 126

/-- No text is longer. -/
def limit : ℕ := 90

def encode (pre : List Char) (words : List Word) : Except String (List Char) :=
  let lowered := pre.map Char.toLower
  if limit < pre.length + 7 + words.length then .error "Exceeds length limit"
  else if !validPrefix lowered then .error ("Invalid prefix (" ++ String.ofList lowered ++ ")")
  else .ok (lowered ++ '1' :: (words ++ checksum (absorb (prefixChk lowered) words)).map letter)

def decode (text : List Char) : Except String (List Char × List Word) :=
  let lowered := text.map Char.toLower
  if text.length < 8 then .error (String.ofList text ++ " too short")
  else if limit < text.length then .error "Exceeds length limit"
  else if text ≠ lowered ∧ text ≠ text.map Char.toUpper then
    .error ("Mixed-case string " ++ String.ofList text)
  else
    -- the separator is the last `1`
    match lowered.reverse.dropWhile (· ≠ '1') with
    | [] => .error ("No separator character for " ++ String.ofList lowered)
    | _ :: before =>
        let pre := before.reverse
        let letters := (lowered.reverse.takeWhile (· ≠ '1')).reverse
        if pre = [] then .error ("Missing prefix for " ++ String.ofList lowered)
        else if letters.length < 6 then .error "Data too short"
        else if !validPrefix pre then .error ("Invalid prefix (" ++ String.ofList pre ++ ")")
        else
          match letters.mapM wordOf with
          | none => .error "Unknown character"
          | some words =>
              if absorb (prefixChk pre) words ≠ 1 then
                .error ("Invalid checksum for " ++ String.ofList lowered)
              else .ok (pre, words.take (words.length - 6))

@[simp] theorem wordOf_letter : ∀ w : Word, wordOf (letter w) = some w := by decide

theorem letter_of_wordOf {c : Char} {w : Word} (h : wordOf c = some w) : letter w = c := by
  rw [wordOf] at h
  exact of_decide_eq_true (List.find?_some (p := fun w => decide (letter w = c)) h)

theorem letter_ne_separator : ∀ w : Word, letter w ≠ '1' := by decide

theorem toLower_letter : ∀ w : Word, (letter w).toLower = letter w := by decide

theorem mapM_wordOf_letter (words : List Word) : (words.map letter).mapM wordOf = some words := by
  induction words with
  | nil => rfl
  | cons w words ih => simp [List.mapM_cons, ih]

theorem map_letter_of_mapM {letters : List Char} {words : List Word}
    (h : letters.mapM wordOf = some words) : words.map letter = letters := by
  induction letters generalizing words with
  | nil =>
      obtain rfl := Option.some.inj h
      rfl
  | cons c letters ih =>
      rw [List.mapM_cons] at h
      rcases hc : wordOf c with - | w
      · simp [hc] at h
      · rcases hrest : letters.mapM wordOf with - | ws
        · simp [hc, hrest] at h
        · simp only [hc, hrest, Option.bind_eq_bind, Option.bind_some, Option.pure_def,
            Option.some.injEq] at h
          rw [← h, List.map_cons, letter_of_wordOf hc, ih hrest]

/-- A text is split at its last separator. -/
theorem splits_at_separator (pre : List Char) {letters : List Char} (h : ∀ c ∈ letters, c ≠ '1') :
    (pre ++ '1' :: letters).reverse.takeWhile (· ≠ '1') = letters.reverse ∧
      (pre ++ '1' :: letters).reverse.dropWhile (· ≠ '1') = '1' :: pre.reverse := by
  have hreverse : (pre ++ '1' :: letters).reverse = letters.reverse ++ '1' :: pre.reverse := by
    rw [List.reverse_append, List.reverse_cons, List.append_assoc, List.singleton_append]
  have hall : ∀ c ∈ letters.reverse, decide (c ≠ '1') = true := fun c hc =>
    decide_eq_true (h c (List.mem_reverse.mp hc))
  rw [hreverse]
  constructor
  · rw [List.takeWhile_append_of_pos hall, List.takeWhile_cons_of_neg (by decide), List.append_nil]
  · rw [List.dropWhile_append_of_pos hall, List.dropWhile_cons_of_neg (by decide)]

theorem eq_of_dropWhile {text before : List Char} {c : Char}
    (h : text.reverse.dropWhile (fun c => decide (c ≠ '1')) = c :: before) :
    text = before.reverse ++ '1' :: (text.reverse.takeWhile fun c => decide (c ≠ '1')).reverse := by
  have hc : c = '1' := by
    have hhead := List.head_dropWhile_not (l := text.reverse) (fun c => decide (c ≠ '1'))
      (h ▸ List.cons_ne_nil c before)
    simp only [h, List.head_cons] at hhead
    simpa using hhead
  have hsplit := List.takeWhile_append_dropWhile (p := fun c => decide (c ≠ '1')) (l := text.reverse)
  rw [h, hc] at hsplit
  conv_lhs => rw [← List.reverse_reverse text, ← hsplit]
  rw [List.reverse_append, List.reverse_cons, List.append_assoc, List.singleton_append]

/-- What a text with these letters, a separator and a prefix decodes to. -/
theorem decode_eq {pre : List Char} {words : List Word} (hpre : pre ≠ [])
    (hlower : pre.map Char.toLower = pre) (hvalid : validPrefix pre = true)
    (hlimit : pre.length + 1 + words.length ≤ limit) (hwords : 6 ≤ words.length)
    (hchk : absorb (prefixChk pre) words = 1) :
    decode (pre ++ '1' :: words.map letter) = .ok (pre, words.take (words.length - 6)) := by
  have hlow : (pre ++ '1' :: words.map letter).map Char.toLower = pre ++ '1' :: words.map letter := by
    rw [List.map_append, List.map_cons, hlower, List.map_map]
    exact congrArg (fun ws => pre ++ '1' :: ws) (List.map_congr_left fun w _ => toLower_letter w)
  have hlen : (pre ++ '1' :: words.map letter).length = pre.length + 1 + words.length := by
    rw [List.length_append, List.length_cons, List.length_map]
    omega
  have hpos := List.length_pos_of_ne_nil hpre
  have hletters : ∀ c ∈ words.map letter, c ≠ '1' := by
    intro c hc
    obtain ⟨w, -, rfl⟩ := List.mem_map.mp hc
    exact letter_ne_separator w
  obtain ⟨htake, hdrop⟩ := splits_at_separator pre hletters
  rw [decode, hlow, hlen, if_neg (by omega), if_neg (by omega), if_neg (fun h => h.1 rfl), hdrop]
  dsimp only
  rw [List.reverse_reverse, if_neg hpre, htake, List.reverse_reverse, List.length_map,
    if_neg (by omega), if_neg (by simp [hvalid]), mapM_wordOf_letter]
  dsimp only
  rw [if_neg (not_not.mpr hchk)]

/-- What is written is read again. -/
theorem decode_encode {pre text : List Char} {words : List Word} (hpre : pre ≠ [])
    (hlower : pre.map Char.toLower = pre) (h : encode pre words = .ok text) :
    decode text = .ok (pre, words) := by
  simp only [encode, hlower] at h
  split_ifs at h with hlimit hvalid
  obtain rfl := Except.ok.inj h
  have hlen := length_checksum (absorb (prefixChk pre) words)
  have hchk : absorb (prefixChk pre) (words ++ checksum (absorb (prefixChk pre) words)) = 1 := by
    rw [absorb, List.foldl_append]
    exact (absorb_eq_one_iff _ hlen).mpr rfl
  rw [decode_eq hpre hlower (by simpa using hvalid) (by rw [List.length_append]; omega)
    (by rw [List.length_append]; omega) hchk, List.length_append, hlen, Nat.add_sub_cancel,
    List.take_left]

/-- What a text that decodes is made of. -/
theorem decode_eq_ok {pre text : List Char} {words : List Word}
    (h : decode text = .ok (pre, words)) :
    (text.map Char.toLower = text ∨ text.map Char.toUpper = text) ∧ text.length ≤ limit ∧
      validPrefix pre = true ∧ ∃ all : List Word,
        text.map Char.toLower = pre ++ '1' :: all.map letter ∧ 6 ≤ all.length ∧
          absorb (prefixChk pre) all = 1 ∧ words = all.take (all.length - 6) := by
  simp only [decode] at h
  generalize hlowered : text.map Char.toLower = lowered at h ⊢
  rcases hdrop : lowered.reverse.dropWhile (fun c => decide (c ≠ '1')) with - | ⟨c, before⟩
  · rw [hdrop] at h
    split_ifs at h
  have hjoin := eq_of_dropWhile hdrop
  generalize (lowered.reverse.takeWhile fun c => decide (c ≠ '1')).reverse = letters at h hjoin
  rw [hdrop] at h
  dsimp only at h
  split_ifs at h with hshort hlong hmixed hpre hdata hvalid
  rcases hwords : letters.mapM wordOf with - | all
  · rw [hwords] at h
    cases h
  rw [hwords] at h
  dsimp only at h
  split_ifs at h with hchk
  obtain ⟨rfl, rfl⟩ := Prod.mk.inj (Except.ok.inj h)
  have hletters := map_letter_of_mapM hwords
  have hlen : all.length = letters.length := by
    rw [← hletters, List.length_map]
  have hcase : lowered = text ∨ text.map Char.toUpper = text := by
    by_contra hcase
    rw [not_or] at hcase
    exact hmixed ⟨fun heq => hcase.1 heq.symm, fun heq => hcase.2 heq.symm⟩
  refine ⟨hcase, not_lt.mp hlong, by simpa using hvalid, all, ?_, by omega, not_not.mp hchk, rfl⟩
  rw [hletters, hjoin]

/-- What is read in lower case has been written. -/
theorem encode_of_decode {pre text : List Char} {words : List Word}
    (hlower : text.map Char.toLower = text) (h : decode text = .ok (pre, words)) :
    encode pre words = .ok text := by
  obtain ⟨-, hlimit, hvalid, all, htext, hlen, hchk, rfl⟩ := decode_eq_ok h
  rw [hlower] at htext
  have hpreLower : pre.map Char.toLower = pre := by
    rw [htext, List.map_append] at hlower
    exact (List.append_inj hlower (List.length_map _)).1
  have hsplit : all = all.take (all.length - 6) ++ all.drop (all.length - 6) :=
    (List.take_append_drop _ _).symm
  -- the last six words are determined by the others
  have hchecksum : all.drop (all.length - 6) =
      checksum (absorb (prefixChk pre) (all.take (all.length - 6))) := by
    rw [hsplit, absorb, List.foldl_append] at hchk
    exact (absorb_eq_one_iff _ (by rw [List.length_drop]; omega)).mp hchk
  have hfits : ¬ limit < pre.length + 7 + (all.take (all.length - 6)).length := by
    rw [htext, List.length_append, List.length_cons, List.length_map] at hlimit
    rw [List.length_take]
    omega
  rw [encode]
  simp only [hpreLower]
  rw [if_neg hfits, if_neg (by simp [hvalid]), ← hchecksum, ← hsplit, ← htext]

/-- A text starts with its prefix. -/
theorem prefix_of_encode {pre text : List Char} {words : List Word}
    (hlower : pre.map Char.toLower = pre) (h : encode pre words = .ok text) : pre <+: text := by
  simp only [encode, hlower] at h
  split_ifs at h
  exact ⟨_, Except.ok.inj h⟩

theorem toLower_toLower (c : Char) : c.toLower.toLower = c.toLower := by
  unfold Char.toLower
  split_ifs with h h'
  · -- a letter that was moved is not in the range of the capitals
    exfalso
    simp only [ge_iff_le, UInt32.le_iff_toNat_le, UInt32.toNat_add, UInt32.toNat_sub] at h h'
    simp at h h'
    omega
  · rfl
  · rfl

/-- The prefix is given in lower case. -/
theorem prefix_lower {pre text : List Char} {words : List Word}
    (h : decode text = .ok (pre, words)) : pre.map Char.toLower = pre := by
  obtain ⟨-, -, -, all, htext, -⟩ := decode_eq_ok h
  have hlower : ∀ c ∈ text.map Char.toLower, c.toLower = c := by
    intro c hc
    obtain ⟨d, -, rfl⟩ := List.mem_map.mp hc
    exact toLower_toLower d
  rw [htext] at hlower
  calc pre.map Char.toLower = pre.map id :=
        List.map_congr_left fun c hc => hlower c (List.mem_append_left _ hc)
    _ = pre := List.map_id _

/-- A text has one case. -/
theorem case_of_decode {pre text : List Char} {words : List Word}
    (h : decode text = .ok (pre, words)) :
    text.map Char.toLower = text ∨ text.map Char.toUpper = text :=
  (decode_eq_ok h).1

end Bech32
