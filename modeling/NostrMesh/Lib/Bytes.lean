/-
NostrMesh/Lib/Bytes.lean

Byte strings and their two textual forms.

* hexadecimal: `toHex` writes two lower-case digits a byte; `ofHex` reads
  like a lenient decoder, up to the first pair that is not hexadecimal;
* base64: `toBase64` writes padded groups; `ofBase64` skips every character
  outside the alphabet and reads the rest in groups of four.

Both readers are left inverses of their writers (`ofHex_toHex`,
`ofBase64_toBase64`), and `toHex ∘ ofHex` is the identity on lower-case
hexadecimal text of even length (`toHex_ofHex`).
-/
import Mathlib.Data.List.Basic
import Mathlib.Tactic.IntervalCases

/-- Byte strings. -/
abbrev Bytes := List UInt8

namespace Bytes

/-- `Buffer.from(text, "utf8")`. -/
def ofText (s : String) : Bytes := s.toUTF8.data.toList

theorem ofText_injective : Function.Injective ofText := fun _ _ h =>
  String.toByteArray_inj.mp (ByteArray.ext (Array.toList_inj.mp h))

/-- The order of byte strings: byte by byte, a proper beginning first. -/
def le : Bytes → Bytes → Bool
  | [], _ => true
  | _ :: _, [] => false
  | a :: as, b :: bs => a < b || (a == b && le as bs)

/-! ### Hexadecimal -/

/-- The lower-case digit of a value below 16. -/
def hexDigit (n : ℕ) : Char := Char.ofNat (if n < 10 then 48 + n else 87 + n)

/-- The value of a digit, of either case. -/
def hexVal (c : Char) : Option ℕ :=
  if 48 ≤ c.toNat ∧ c.toNat ≤ 57 then some (c.toNat - 48)
  else if 97 ≤ c.toNat ∧ c.toNat ≤ 102 then some (c.toNat - 87)
  else if 65 ≤ c.toNat ∧ c.toNat ≤ 70 then some (c.toNat - 55)
  else none

/-- A lower-case hexadecimal digit. -/
def isLowerHex (c : Char) : Bool :=
  (48 ≤ c.toNat && c.toNat ≤ 57) || (97 ≤ c.toNat && c.toNat ≤ 102)

def hexChars : Bytes → List Char
  | [] => []
  | b :: bs => hexDigit (b.toNat / 16) :: hexDigit (b.toNat % 16) :: hexChars bs

def ofHexChars : List Char → Bytes
  | a :: b :: cs =>
      match hexVal a, hexVal b with
      | some x, some y => UInt8.ofNat (16 * x + y) :: ofHexChars cs
      | _, _ => []
  | _ => []

def toHex (bs : Bytes) : String := String.ofList (hexChars bs)

/-- `Buffer.from(text, "hex")`, for texts of ASCII characters.  (At any other
character Node looks at the low byte of the UTF-16 unit, and may read on.) -/
def ofHex (s : String) : Bytes := ofHexChars s.toList

/-- The digits and their values. -/
theorem range_of_hexVal {c : Char} {n : ℕ} (h : hexVal c = some n) :
    (48 ≤ c.toNat ∧ c.toNat ≤ 57 ∧ n = c.toNat - 48) ∨
      (97 ≤ c.toNat ∧ c.toNat ≤ 102 ∧ n = c.toNat - 87) ∨
      (65 ≤ c.toNat ∧ c.toNat ≤ 70 ∧ n = c.toNat - 55) := by
  simp only [hexVal] at h
  split_ifs at h with h₁ h₂ h₃ <;> simp only [Option.some.injEq] at h
  · exact Or.inl ⟨h₁.1, h₁.2, h.symm⟩
  · exact Or.inr (Or.inl ⟨h₂.1, h₂.2, h.symm⟩)
  · exact Or.inr (Or.inr ⟨h₃.1, h₃.2, h.symm⟩)

theorem hexVal_lt {c : Char} {n : ℕ} (h : hexVal c = some n) : n < 16 := by
  have hrange := range_of_hexVal h
  omega

/-- The first pair of a text of digits, and the others. -/
theorem exists_hexVal_pair {a b : Char} {cs : List Char}
    (h : ∀ c ∈ a :: b :: cs, (hexVal c).isSome) :
    ∃ x y, hexVal a = some x ∧ hexVal b = some y ∧ ∀ c ∈ cs, (hexVal c).isSome := by
  obtain ⟨ha, hb, hcs⟩ := (List.forall_mem_cons.trans (and_congr_right fun _ =>
    List.forall_mem_cons)).mp h
  obtain ⟨x, hx⟩ := Option.isSome_iff_exists.mp ha
  obtain ⟨y, hy⟩ := Option.isSome_iff_exists.mp hb
  exact ⟨x, y, hx, hy, hcs⟩

/-- Two digits make a byte. -/
theorem toNat_ofNat_pair {x y : ℕ} (hx : x < 16) (hy : y < 16) :
    (UInt8.ofNat (16 * x + y)).toNat = 16 * x + y := by
  rw [UInt8.toNat_ofNat']
  exact Nat.mod_eq_of_lt (by omega)

theorem hexVal_hexDigit {n : ℕ} (h : n < 16) : hexVal (hexDigit n) = some n := by
  interval_cases n <;> decide

theorem isLowerHex_hexDigit {n : ℕ} (h : n < 16) : isLowerHex (hexDigit n) = true := by
  interval_cases n <;> decide

/-- A lower-case digit is the digit of its value. -/
theorem hexDigit_of_isLowerHex {c : Char} (h : isLowerHex c = true) :
    ∃ n < 16, hexVal c = some n ∧ hexDigit n = c := by
  rw [isLowerHex, Bool.or_eq_true, Bool.and_eq_true, Bool.and_eq_true] at h
  simp only [decide_eq_true_eq] at h
  have hc : Char.ofNat c.toNat = c := Char.ofNat_toNat c
  rcases h with ⟨h₁, h₂⟩ | ⟨h₁, h₂⟩
  · refine ⟨c.toNat - 48, by omega, by rw [hexVal, if_pos ⟨h₁, h₂⟩], ?_⟩
    rw [hexDigit, if_pos (by omega), show 48 + (c.toNat - 48) = c.toNat by omega, hc]
  · refine ⟨c.toNat - 87, by omega, ?_, ?_⟩
    · rw [hexVal, if_neg (by omega), if_pos ⟨h₁, h₂⟩]
    · rw [hexDigit, if_neg (by omega), show 87 + (c.toNat - 87) = c.toNat by omega, hc]

theorem ofHexChars_hexChars (bs : Bytes) : ofHexChars (hexChars bs) = bs := by
  induction bs with
  | nil => rfl
  | cons b bs ih =>
      have hb := b.toNat_lt
      rw [hexChars, ofHexChars, hexVal_hexDigit (by omega), hexVal_hexDigit (by omega)]
      simp only [ih]
      rw [show 16 * (b.toNat / 16) + b.toNat % 16 = b.toNat by omega, UInt8.ofNat_toNat]

@[simp] theorem ofHex_toHex (bs : Bytes) : ofHex (toHex bs) = bs := by
  rw [ofHex, toHex, String.toList_ofList, ofHexChars_hexChars]

theorem toHex_injective {bs cs : Bytes} (h : toHex bs = toHex cs) : bs = cs := by
  rw [← ofHex_toHex bs, h, ofHex_toHex]

@[simp] theorem length_hexChars (bs : Bytes) : (hexChars bs).length = 2 * bs.length := by
  induction bs with
  | nil => rfl
  | cons b bs ih => simp only [hexChars, List.length_cons, ih]; omega

theorem isLowerHex_hexChars {bs : Bytes} {c : Char} (h : c ∈ hexChars bs) :
    isLowerHex c = true := by
  induction bs with
  | nil => cases h
  | cons b bs ih =>
      have hb := b.toNat_lt
      rcases List.mem_cons.mp h with rfl | h
      · exact isLowerHex_hexDigit (by omega)
      · rcases List.mem_cons.mp h with rfl | h
        · exact isLowerHex_hexDigit (by omega)
        · exact ih h

/-- The lower-case digit of a digit. -/
theorem hexDigit_of_hexVal {c : Char} {n : ℕ} (h : hexVal c = some n) :
    hexDigit n = c.toLower := by
  have hascii : ∀ m < 128, ∀ n ∈ hexVal (Char.ofNat m), hexDigit n = (Char.ofNat m).toLower := by
    decide
  have hrange := range_of_hexVal h
  have hlower := hascii c.toNat (by omega)
  rw [Char.ofNat_toNat] at hlower
  exact hlower n h

/-- What was read is written in lower case. -/
theorem hexChars_ofHexChars_eq_map : ∀ {cs : List Char}, cs.length % 2 = 0 →
    (∀ c ∈ cs, (hexVal c).isSome) → hexChars (ofHexChars cs) = cs.map Char.toLower
  | [], _, _ => rfl
  | [_], h, _ => by simp at h
  | a :: b :: cs, h, hhex => by
      obtain ⟨x, y, hx, hy, hcs⟩ := exists_hexVal_pair hhex
      have hrest : hexChars (ofHexChars cs) = cs.map Char.toLower :=
        hexChars_ofHexChars_eq_map (by simp at h; omega) hcs
      have hx16 := hexVal_lt hx
      have hy16 := hexVal_lt hy
      rw [ofHexChars, hx, hy]
      simp only [hexChars, toNat_ofNat_pair hx16 hy16, hrest, List.map_cons]
      rw [show (16 * x + y) / 16 = x by omega, show (16 * x + y) % 16 = y by omega,
        hexDigit_of_hexVal hx, hexDigit_of_hexVal hy]

theorem hexChars_ofHexChars {cs : List Char} (h : cs.length % 2 = 0)
    (hhex : ∀ c ∈ cs, isLowerHex c = true) : hexChars (ofHexChars cs) = cs := by
  have hlower : ∀ c ∈ cs, (hexVal c).isSome ∧ c.toLower = c := by
    intro c hc
    obtain ⟨n, -, hn, hdigit⟩ := hexDigit_of_isLowerHex (hhex c hc)
    exact ⟨Option.isSome_of_eq_some hn, (hexDigit_of_hexVal hn).symm.trans hdigit⟩
  rw [hexChars_ofHexChars_eq_map h fun c hc => (hlower c hc).1]
  exact (List.map_congr_left fun c hc => (hlower c hc).2).trans (List.map_id' cs)

/-- Reading and writing lower-case hexadecimal text of even length. -/
theorem toHex_ofHex {s : String} (h : s.toList.length % 2 = 0)
    (hhex : ∀ c ∈ s.toList, isLowerHex c = true) : toHex (ofHex s) = s := by
  rw [toHex, ofHex, hexChars_ofHexChars h hhex, String.ofList_toList]

theorem length_ofHexChars : ∀ {cs : List Char}, (∀ c ∈ cs, (hexVal c).isSome) →
    (ofHexChars cs).length = cs.length / 2
  | [], _ => rfl
  | [_], _ => by simp [ofHexChars]
  | a :: b :: cs, h => by
      obtain ⟨x, y, hx, hy, hcs⟩ := exists_hexVal_pair h
      rw [ofHexChars, hx, hy]
      simp only [List.length_cons]
      rw [length_ofHexChars hcs]
      omega

/-! ### Beginnings of hexadecimal text

A text of hexadecimal digits is a beginning of the text of some bytes: for an
even number of digits the first bytes are what it reads as, for an odd number
they lie between the two readings that `0` and `f` complete. -/

theorem hexChars_append (bs cs : Bytes) : hexChars (bs ++ cs) = hexChars bs ++ hexChars cs := by
  induction bs with
  | nil => rfl
  | cons b bs ih => simp only [List.cons_append, hexChars, ih]

theorem hexChars_take (bs : Bytes) (n : ℕ) : hexChars (bs.take n) = (hexChars bs).take (2 * n) := by
  induction n generalizing bs with
  | zero => rfl
  | succ n ih =>
      rcases bs with - | ⟨b, bs⟩
      · rfl
      · rw [List.take_succ_cons, hexChars, hexChars, ih, show 2 * (n + 1) = 2 * n + 1 + 1 by omega,
          List.take_succ_cons, List.take_succ_cons]

theorem ofHexChars_append : ∀ {cs : List Char} (ds : List Char), cs.length % 2 = 0 →
    (∀ c ∈ cs, isLowerHex c = true) → ofHexChars (cs ++ ds) = ofHexChars cs ++ ofHexChars ds
  | [], _, _, _ => rfl
  | [_], _, h, _ => by simp at h
  | a :: b :: cs, ds, h, hhex => by
      obtain ⟨x, -, hax, -⟩ := hexDigit_of_isLowerHex (hhex a (by simp))
      obtain ⟨y, -, hby, -⟩ := hexDigit_of_isLowerHex (hhex b (by simp))
      have hrest := @ofHexChars_append cs ds (by simp at h; omega)
        fun c hc => hhex c (by simp [hc])
      simp only [List.cons_append, ofHexChars, hax, hby, hrest]

/-- The first bytes are what the text reads as. -/
theorem take_eq_ofHexChars_iff {bs : Bytes} {cs : List Char} (heven : cs.length % 2 = 0)
    (hhex : ∀ c ∈ cs, isLowerHex c = true) :
    bs.take (cs.length / 2) = ofHexChars cs ↔ cs <+: hexChars bs := by
  have htake : hexChars (bs.take (cs.length / 2)) = (hexChars bs).take cs.length := by
    rw [hexChars_take, show 2 * (cs.length / 2) = cs.length by omega]
  rw [List.prefix_iff_eq_take, ← htake]
  constructor
  · intro h
    rw [h, hexChars_ofHexChars heven hhex]
  · intro h
    rw [← ofHexChars_hexChars (bs.take (cs.length / 2)), ← h]

theorem le_singleton_iff {a b : UInt8} : le [a] [b] = true ↔ a ≤ b := by
  simp only [le, Bool.and_true, Bool.or_eq_true, decide_eq_true_eq, beq_iff_eq,
    UInt8.lt_iff_toNat_lt, UInt8.le_iff_toNat_le, ← UInt8.toNat_inj]
  omega

/-- Between two byte strings that differ in the last byte. -/
theorem between_iff {p q : Bytes} (h : p.length = q.length) {a b c : UInt8} :
    le (p ++ [a]) (q ++ [b]) = true ∧ le (q ++ [b]) (p ++ [c]) = true ↔ p = q ∧ a ≤ b ∧ b ≤ c := by
  induction p generalizing q with
  | nil =>
      obtain rfl := List.eq_nil_of_length_eq_zero h.symm
      simp only [List.nil_append, le_singleton_iff, true_and]
  | cons x p ih =>
      rcases q with - | ⟨y, q⟩
      · simp at h
      · have hlength : p.length = q.length := by simpa using h
        simp only [List.cons_append, le, Bool.or_eq_true, decide_eq_true_eq, Bool.and_eq_true,
          beq_iff_eq, List.cons.injEq, and_assoc]
        rw [← ih hlength]
        constructor
        · rintro ⟨hxy | ⟨rfl, hle⟩, hyx | ⟨heq, hle'⟩⟩
          · exact absurd hyx (UInt8.lt_asymm hxy)
          · exact absurd hxy (heq ▸ UInt8.lt_irrefl x)
          · exact absurd hyx (UInt8.lt_irrefl x)
          · exact ⟨rfl, hle, hle'⟩
        · rintro ⟨rfl, hle, hle'⟩
          exact ⟨Or.inr ⟨rfl, hle⟩, Or.inr ⟨rfl, hle'⟩⟩

/-- The bytes whose first digit is a given one. -/
theorem between_digit_iff {x : ℕ} (hx : x < 16) (b : UInt8) :
    UInt8.ofNat (16 * x + 0) ≤ b ∧ b ≤ UInt8.ofNat (16 * x + 15) ↔
      hexDigit x = hexDigit (b.toNat / 16) := by
  have hbyte := b.toNat_lt
  rw [UInt8.le_iff_toNat_le, UInt8.le_iff_toNat_le, UInt8.toNat_ofNat', UInt8.toNat_ofNat',
    Nat.mod_eq_of_lt (by omega), Nat.mod_eq_of_lt (by omega)]
  constructor
  · rintro ⟨hlow, hhigh⟩
    rw [show b.toNat / 16 = x by omega]
  · intro heq
    have hval := congrArg hexVal heq
    rw [hexVal_hexDigit hx, hexVal_hexDigit (by omega), Option.some.injEq] at hval
    omega

/-- An odd number of digits ends with the first digit of a byte. -/
theorem hexChars_take_odd {bs : Bytes} {n : ℕ} (hn : n < bs.length) :
    (hexChars bs).take (2 * n + 1) = hexChars (bs.take n) ++ [hexDigit (bs[n].toNat / 16)] := by
  have hsplit : bs = bs.take n ++ bs[n] :: bs.drop (n + 1) := by
    rw [← List.drop_eq_getElem_cons hn, List.take_append_drop]
  have hdigits : (hexChars (bs.take n)).length = 2 * n := by
    rw [length_hexChars, List.length_take]
    omega
  conv_lhs => rw [hsplit, hexChars_append, hexChars]
  rw [List.take_append, List.take_of_length_le (by omega), hdigits, Nat.add_sub_cancel_left]
  rfl

theorem length_ofHexChars_of_isLowerHex {cs : List Char} (hhex : ∀ c ∈ cs, isLowerHex c = true) :
    (ofHexChars cs).length = cs.length / 2 := by
  rw [length_ofHexChars fun c hc => ?_]
  obtain ⟨n, -, hn, -⟩ := hexDigit_of_isLowerHex (hhex c hc)
  rw [hn, Option.isSome_some]

/-- The first bytes lie between the two readings of the text. -/
theorem between_ofHexChars_iff {bs : Bytes} {cs : List Char} (hodd : cs.length % 2 = 1)
    (hhex : ∀ c ∈ cs, isLowerHex c = true) (hlength : cs.length < 2 * bs.length) :
    le (ofHexChars (cs ++ ['0'])) (bs.take (cs.length / 2 + 1)) = true ∧
      le (bs.take (cs.length / 2 + 1)) (ofHexChars (cs ++ ['f'])) = true ↔ cs <+: hexChars bs := by
  obtain ⟨ps, d, rfl⟩ : ∃ ps d, cs = ps ++ [d] := by
    rcases List.eq_nil_or_concat cs with rfl | ⟨ps, d, rfl⟩
    · simp at hodd
    · exact ⟨ps, d, List.concat_eq_append⟩
  simp only [List.length_append, List.length_singleton] at hodd hlength
  have heven : ps.length % 2 = 0 := by omega
  have hps : ∀ c ∈ ps, isLowerHex c = true := fun c hc => hhex c (List.mem_append_left _ hc)
  obtain ⟨x, hx, hdx, rfl⟩ := hexDigit_of_isLowerHex (hhex d (by simp))
  have hhalf : ps.length / 2 < bs.length := by omega
  have htake : bs.take ((ps ++ [hexDigit x]).length / 2 + 1)
      = bs.take (ps.length / 2) ++ [bs[ps.length / 2]] := by
    rw [show (ps ++ [hexDigit x]).length / 2 = ps.length / 2 by simp; omega,
      List.take_succ_eq_append_getElem hhalf]
  have hreading : ∀ e n, hexVal e = some n →
      ofHexChars (ps ++ [hexDigit x] ++ [e]) = ofHexChars ps ++ [UInt8.ofNat (16 * x + n)] := by
    intro e n he
    rw [List.append_assoc, ofHexChars_append _ heven hps]
    simp only [List.singleton_append, ofHexChars, hdx, he]
  have hsame : (ofHexChars ps).length = (bs.take (ps.length / 2)).length := by
    rw [length_ofHexChars_of_isLowerHex hps, List.length_take]
    omega
  have hfirst : ofHexChars ps = bs.take (ps.length / 2) ↔ ps = hexChars (bs.take (ps.length / 2)) := by
    constructor
    · intro h
      rw [← h, hexChars_ofHexChars heven hps]
    · intro h
      rw [← ofHexChars_hexChars (bs.take (ps.length / 2)), ← h]
  -- the last digit of the text is the first one of the byte
  rw [htake, hreading '0' 0 (by decide), hreading 'f' 15 (by decide), between_iff hsame,
    between_digit_iff hx, hfirst, List.prefix_iff_eq_take,
    show (ps ++ [hexDigit x]).length = 2 * (ps.length / 2) + 1 by simp; omega, hexChars_take_odd hhalf]
  constructor
  · rintro ⟨hps', hlast⟩
    rw [← hps', hlast]
  · intro heq
    obtain ⟨hps', hlast⟩ := List.append_inj' heq rfl
    exact ⟨hps', List.singleton_inj.mp hlast⟩

/-! ### Base64 -/

/-- The character of a value below 64. -/
def b64Digit (n : ℕ) : Char :=
  Char.ofNat (if n < 26 then 65 + n else if n < 52 then 71 + n else if n < 62 then n - 4
    else if n = 62 then 43 else 47)

/-- The value of a character; the URL alphabet is read as well. -/
def b64Val (c : Char) : Option ℕ :=
  if 65 ≤ c.toNat ∧ c.toNat ≤ 90 then some (c.toNat - 65)
  else if 97 ≤ c.toNat ∧ c.toNat ≤ 122 then some (c.toNat - 71)
  else if 48 ≤ c.toNat ∧ c.toNat ≤ 57 then some (c.toNat + 4)
  else if c.toNat = 43 ∨ c.toNat = 45 then some 62
  else if c.toNat = 47 ∨ c.toNat = 95 then some 63
  else none

def base64Chars : Bytes → List Char
  | a :: b :: c :: bs =>
      b64Digit (a.toNat / 4) :: b64Digit (a.toNat % 4 * 16 + b.toNat / 16) ::
        b64Digit (b.toNat % 16 * 4 + c.toNat / 64) :: b64Digit (c.toNat % 64) :: base64Chars bs
  | [a, b] =>
      [b64Digit (a.toNat / 4), b64Digit (a.toNat % 4 * 16 + b.toNat / 16),
        b64Digit (b.toNat % 16 * 4), '=']
  | [a] => [b64Digit (a.toNat / 4), b64Digit (a.toNat % 4 * 16), '=', '=']
  | [] => []

/-- The bytes of a list of six-bit values; what is left over is dropped. -/
def ofSextets : List ℕ → Bytes
  | w :: x :: y :: z :: vs =>
      UInt8.ofNat (w * 4 + x / 16) :: UInt8.ofNat (x % 16 * 16 + y / 4) ::
        UInt8.ofNat (y % 4 * 64 + z) :: ofSextets vs
  | [w, x, y] => [UInt8.ofNat (w * 4 + x / 16), UInt8.ofNat (x % 16 * 16 + y / 4)]
  | [w, x] => [UInt8.ofNat (w * 4 + x / 16)]
  | _ => []

def toBase64 (bs : Bytes) : String := String.ofList (base64Chars bs)

def ofBase64 (s : String) : Bytes := ofSextets (s.toList.filterMap b64Val)

theorem b64Val_b64Digit {n : ℕ} (h : n < 64) : b64Val (b64Digit n) = some n := by
  interval_cases n <;> decide

theorem filterMap_b64Digit_cons {n : ℕ} (h : n < 64) (cs : List Char) :
    (b64Digit n :: cs).filterMap b64Val = n :: cs.filterMap b64Val :=
  List.filterMap_cons_some (b64Val_b64Digit h)

theorem ofNat_of_toNat {a : UInt8} {n : ℕ} (h : n = a.toNat) : UInt8.ofNat n = a := by
  rw [h, UInt8.ofNat_toNat]

theorem ofSextets_base64Chars : ∀ bs : Bytes,
    ofSextets ((base64Chars bs).filterMap b64Val) = bs
  | [] => rfl
  | [a] => by
      have ha := a.toNat_lt
      rw [base64Chars, filterMap_b64Digit_cons (by omega), filterMap_b64Digit_cons (by omega)]
      exact congrArg (fun x => [x]) (ofNat_of_toNat (by omega))
  | [a, b] => by
      have ha := a.toNat_lt
      have hb := b.toNat_lt
      rw [base64Chars, filterMap_b64Digit_cons (by omega), filterMap_b64Digit_cons (by omega),
        filterMap_b64Digit_cons (by omega)]
      exact congrArg₂ (fun x y => [x, y]) (ofNat_of_toNat (by omega)) (ofNat_of_toNat (by omega))
  | a :: b :: c :: bs => by
      have ha := a.toNat_lt
      have hb := b.toNat_lt
      have hc := c.toNat_lt
      rw [base64Chars, filterMap_b64Digit_cons (by omega), filterMap_b64Digit_cons (by omega),
        filterMap_b64Digit_cons (by omega), filterMap_b64Digit_cons (by omega), ofSextets,
        ofSextets_base64Chars bs, ofNat_of_toNat (a := a) (by omega),
        ofNat_of_toNat (a := b) (by omega), ofNat_of_toNat (a := c) (by omega)]

theorem toNat_b64Digit {n : ℕ} (h : n < 64) :
    43 ≤ (b64Digit n).toNat ∧ (b64Digit n).toNat ≤ 122 := by
  interval_cases n <;> decide

/-- The characters of a base64 text, padding included. -/
theorem toNat_of_mem_base64Chars : ∀ {bs : Bytes} {c : Char}, c ∈ base64Chars bs →
    43 ≤ c.toNat ∧ c.toNat ≤ 122
  | [], _, h => by cases h
  | [a], c, h => by
      have ha := a.toNat_lt
      simp only [base64Chars, List.mem_cons, List.not_mem_nil, or_false] at h
      rcases h with rfl | rfl | rfl | rfl
      · exact toNat_b64Digit (by omega)
      · exact toNat_b64Digit (by omega)
      · decide
      · decide
  | [a, b], c, h => by
      have ha := a.toNat_lt
      have hb := b.toNat_lt
      simp only [base64Chars, List.mem_cons, List.not_mem_nil, or_false] at h
      rcases h with rfl | rfl | rfl | rfl
      · exact toNat_b64Digit (by omega)
      · exact toNat_b64Digit (by omega)
      · exact toNat_b64Digit (by omega)
      · decide
  | a :: b :: d :: bs, c, h => by
      have ha := a.toNat_lt
      have hb := b.toNat_lt
      have hd := d.toNat_lt
      simp only [base64Chars, List.mem_cons] at h
      rcases h with rfl | rfl | rfl | rfl | h
      · exact toNat_b64Digit (by omega)
      · exact toNat_b64Digit (by omega)
      · exact toNat_b64Digit (by omega)
      · exact toNat_b64Digit (by omega)
      · exact toNat_of_mem_base64Chars h

@[simp] theorem ofBase64_toBase64 (bs : Bytes) : ofBase64 (toBase64 bs) = bs := by
  rw [ofBase64, toBase64, String.toList_ofList, ofSextets_base64Chars]

end Bytes
