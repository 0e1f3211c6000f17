/-
NostrMesh/Lib/Js.lean

The built-in functions of JavaScript that the program relies on, as far as
they differ from Lean's own: numbers with NaN and the infinities, white space
as `String.prototype.trim` sees it, `Number.parseInt`, string length in
UTF-16 code units.

Finite numbers are rationals.  A double that is read from a text or computed
from integers below `2 ^ 53` is such a rational exactly; larger texts are
kept unrounded, which no comparison of the program can tell.
-/
import Mathlib.Algebra.Order.Ring.Nat
import Mathlib.Algebra.Order.Ring.Rat
import Mathlib.Data.Rat.Defs

namespace Js

/-! ### Numbers -/

/-- A JavaScript number. -/
inductive Num
  | finite (q : ℚ)
  | posInf
  | negInf
  | nan
  deriving DecidableEq

namespace Num

instance : Coe ℤ Num := ⟨fun n => finite n⟩

/-- `Number.isInteger`. -/
def isInteger : Num → Bool
  | finite q => q.den = 1
  | _ => false

/-- `Number.isFinite`. -/
def isFinite : Num → Bool
  | finite _ => true
  | _ => false

theorem isFinite_of_isInteger {n : Num} (h : n.isInteger = true) : n.isFinite = true := by
  cases n with
  | finite q => rfl
  | posInf | negInf | nan => cases h

/-- The operator `<`: false as soon as one side is NaN. -/
def lt : Num → Num → Bool
  | finite p, finite q => p < q
  | negInf, finite _ => true
  | negInf, posInf => true
  | finite _, posInf => true
  | _, _ => false

@[simp] theorem isInteger_intCast (n : ℤ) : isInteger (n : Num) = true := by
  simp [isInteger]

@[simp] theorem lt_intCast (m n : ℤ) : lt (m : Num) (n : Num) = decide (m < n) := by
  rw [lt, decide_eq_decide]
  exact Rat.intCast_lt_intCast

end Num

/-! ### Doubles from big integers -/

/-- The double next to an integer, the even one of two that are equally
near. -/
def roundDouble (n : ℕ) : ℕ :=
  let ulp := 2 ^ (n.log2 - 52)
  if 2 * (n % ulp) < ulp ∨ (2 * (n % ulp) = ulp ∧ n / ulp % 2 = 0) then n / ulp * ulp
  else (n / ulp + 1) * ulp

/-- `Number(n)` of a bigint that is not too large for a double. -/
def ofBigInt (n : ℤ) : ℤ := n.sign * roundDouble n.natAbs

theorem roundDouble_of_lt {n : ℕ} (h : n < 2 ^ 53) : roundDouble n = n := by
  have hulp : n.log2 - 52 = 0 := by
    rcases Nat.eq_zero_or_pos n with rfl | hpos
    · rfl
    · have hlog : n.log2 < 53 := (Nat.log2_lt hpos.ne').mpr h
      omega
  simp [roundDouble, hulp, Nat.mod_one]

/-- Below 2^53 every integer is a double. -/
theorem ofBigInt_of_lt {n : ℤ} (h : n.natAbs < 2 ^ 53) : ofBigInt n = n := by
  rw [ofBigInt, roundDouble_of_lt h, Int.sign_mul_natAbs]

/-- Rounding keeps the sign. -/
theorem pos_of_ofBigInt_pos {n : ℤ} (h : 0 < ofBigInt n) : 0 < n := by
  by_contra hn
  have hsign : n.sign ≤ 0 := Int.sign_nonpos_iff.mpr (not_lt.mp hn)
  have : ofBigInt n ≤ 0 := Int.mul_nonpos_of_nonpos_of_nonneg hsign (Int.natCast_nonneg _)
  omega

/-! ### Strings -/

/-- White space and line terminators. -/
def isSpace (c : Char) : Bool :=
  c.toNat ∈ [0x09, 0x0A, 0x0B, 0x0C, 0x0D, 0x20, 0xA0, 0x1680, 0x2028, 0x2029, 0x202F,
    0x205F, 0x3000, 0xFEFF] || (0x2000 ≤ c.toNat && c.toNat ≤ 0x200A)

/-- The characters of ASCII behind the space are none. -/
theorem isSpace_of_ascii {c : Char} (hlow : 0x20 < c.toNat) (hhigh : c.toNat < 0x80) :
    isSpace c = false := by
  simp only [isSpace, List.mem_cons, List.not_mem_nil, or_false, Bool.or_eq_false_iff,
    decide_eq_false_iff_not, Bool.and_eq_false_iff]
  omega

def trimStart (cs : List Char) : List Char := cs.dropWhile isSpace

/-- `String.prototype.trim`. -/
def trim (s : String) : String :=
  String.ofList (trimStart (trimStart s.toList).reverse).reverse

/-- `String.prototype.toLowerCase` on the letters of ASCII; the others do
not become a hexadecimal digit. -/
def toLowerCase (s : String) : String := String.ofList (s.toList.map Char.toLower)

/-- `String.prototype.startsWith`. -/
def startsWith (s p : String) : Bool := p.toList.isPrefixOf s.toList

/-- `String.prototype.endsWith`. -/
def endsWith (s p : String) : Bool := p.toList.isSuffixOf s.toList

/-- `String.prototype.length`: UTF-16 code units. -/
def length (s : String) : ℕ :=
  (s.toList.map fun c => if 0xFFFF < c.toNat then 2 else 1).sum

/-- Characters of the basic plane are one code unit each. -/
theorem length_of_forall_le {s : String} (h : ∀ c ∈ s.toList, c.toNat ≤ 0xFFFF) :
    length s = s.toList.length := by
  have hunits : ∀ cs : List Char, (∀ c ∈ cs, c.toNat ≤ 0xFFFF) →
      (cs.map fun c => if 0xFFFF < c.toNat then 2 else 1).sum = cs.length := by
    intro cs hcs
    induction cs with
    | nil => rfl
    | cons c cs ih =>
        rw [List.map_cons, List.sum_cons, if_neg (not_lt.mpr (hcs c List.mem_cons_self)),
          ih fun d hd => hcs d (List.mem_cons_of_mem _ hd), List.length_cons, Nat.add_comm]
  exact hunits s.toList h

/-- A character that `trim` leaves alone, at both ends. -/
theorem trim_of_no_space {s : String} (h : ∀ c ∈ s.toList, isSpace c = false) :
    trim s = s := by
  have hdrop : ∀ cs : List Char, (∀ c ∈ cs, isSpace c = false) → trimStart cs = cs := by
    intro cs hcs
    rcases cs with - | ⟨c, cs⟩
    · rfl
    · simp [trimStart, hcs c List.mem_cons_self]
  rw [trim, hdrop _ h, hdrop _ fun c hc => h c (List.mem_reverse.mp hc),
    List.reverse_reverse, String.ofList_toList]

/-! ### `Number.parseInt` -/

/-- The value of a digit, up to radix 36. -/
def digitValue (c : Char) : Option ℕ :=
  if '0' ≤ c ∧ c ≤ '9' then some (c.toNat - 48)
  else if 'a' ≤ c ∧ c ≤ 'z' then some (c.toNat - 87)
  else if 'A' ≤ c ∧ c ≤ 'Z' then some (c.toNat - 55)
  else none

/-- The digits of `radix` at the start of the text. -/
def leadingDigits (radix : ℕ) : List Char → List ℕ
  | [] => []
  | c :: cs =>
      match digitValue c with
      | some d => if d < radix then d :: leadingDigits radix cs else []
      | none => []

/-- The largest finite double rounds from below this bound. -/
def overflowBound : ℕ := 2 ^ 1024 - 2 ^ 970

def ofDigits (radix : ℕ) (ds : List ℕ) : ℕ := ds.foldl (fun n d => n * radix + d) 0

theorem foldl_digits (radix n : ℕ) (ds : List ℕ) :
    ds.foldl (fun n d => n * radix + d) n = n * radix ^ ds.length + ofDigits radix ds := by
  induction ds generalizing n with
  | nil => rw [List.foldl_nil, List.length_nil, Nat.pow_zero, Nat.mul_one]; rfl
  | cons d ds ih =>
      rw [ofDigits, List.foldl_cons, List.foldl_cons, ih, ih, List.length_cons, pow_succ]
      have hshift : n * (radix ^ ds.length * radix) = n * radix * radix ^ ds.length := by
        rw [Nat.mul_comm (radix ^ ds.length), Nat.mul_assoc]
      rw [hshift, Nat.add_mul, Nat.zero_mul, Nat.zero_add, Nat.add_assoc]

theorem ofDigits_append (radix : ℕ) (ds es : List ℕ) :
    ofDigits radix (ds ++ es) = ofDigits radix ds * radix ^ es.length + ofDigits radix es := by
  rw [ofDigits, List.foldl_append, foldl_digits]
  rfl

/-- The text after an optional sign, and whether the sign was a minus. -/
def splitSign : List Char → Bool × List Char
  | '-' :: cs => (true, cs)
  | '+' :: cs => (false, cs)
  | cs => (false, cs)

/-- Radix 16 allows a prefix `0x`. -/
def stripHexPrefix : List Char → List Char
  | '0' :: 'x' :: cs => cs
  | '0' :: 'X' :: cs => cs
  | cs => cs

/-- `Number.parseInt(text, radix)` for the radixes 10 and 16. -/
def parseInt (radix : ℕ) (s : String) : Num :=
  let (negative, cs) := splitSign (trimStart s.toList)
  let digits := leadingDigits radix (if radix = 16 then stripHexPrefix cs else cs)
  if digits = [] then .nan
  else
    let n := ofDigits radix digits
    if overflowBound ≤ n then if negative then .negInf else .posInf
    else if negative then ((-n : ℤ) : Num) else ((n : ℤ) : Num)

theorem ofDigits_lt {radix : ℕ} {ds : List ℕ} (h : ∀ d ∈ ds, d < radix) :
    ofDigits radix ds < radix ^ ds.length := by
  induction ds with
  | nil => exact Nat.one_pos
  | cons d ds ih =>
      have hd : d + 1 ≤ radix := h d List.mem_cons_self
      have htail := ih fun e he => h e (List.mem_cons_of_mem _ he)
      have hhead : (d + 1) * radix ^ ds.length ≤ radix * radix ^ ds.length :=
        Nat.mul_le_mul_right _ hd
      rw [Nat.add_mul, Nat.one_mul] at hhead
      rw [← List.singleton_append, ofDigits_append, List.length_append, List.length_singleton,
        Nat.add_comm 1, Nat.pow_succ, Nat.mul_comm _ radix]
      have hsingle : ofDigits radix [d] = d := by simp [ofDigits]
      rw [hsingle]
      omega

theorem lt_of_mem_leadingDigits {radix d : ℕ} {cs : List Char}
    (h : d ∈ leadingDigits radix cs) : d < radix := by
  induction cs with
  | nil => cases h
  | cons c cs ih =>
      rw [leadingDigits] at h
      split at h
      · split_ifs at h with hlt
        · rcases List.mem_cons.mp h with rfl | h
          · exact hlt
          · exact ih h
        · cases h
      · cases h

theorem length_leadingDigits_le (radix : ℕ) (cs : List Char) :
    (leadingDigits radix cs).length ≤ cs.length := by
  induction cs with
  | nil => exact le_rfl
  | cons c cs ih =>
      rw [leadingDigits]
      split
      · split_ifs
        · exact Nat.succ_le_succ ih
        · exact Nat.zero_le _
      · exact Nat.zero_le _

theorem length_splitSign_le (cs : List Char) : (splitSign cs).2.length ≤ cs.length := by
  rw [splitSign.eq_def]
  split
  · exact Nat.le_succ _
  · exact Nat.le_succ _
  · exact le_rfl

theorem length_stripHexPrefix_le (cs : List Char) : (stripHexPrefix cs).length ≤ cs.length := by
  rw [stripHexPrefix.eq_def]
  split
  · exact Nat.le_add_right _ 2
  · exact Nat.le_add_right _ 2
  · exact le_rfl

/-- The digits that `parseInt` reads, in radix 16. -/
def numberDigits (cs : List Char) : List ℕ :=
  leadingDigits 16 (stripHexPrefix (splitSign (trimStart cs)).2)

/-- **A short text is a number** as soon as there is a digit. -/
theorem exists_parseInt_eq_finite_iff {cs : List Char}
    (hlength : 16 ^ cs.length ≤ overflowBound) :
    (∃ q, parseInt 16 (String.ofList cs) = .finite q) ↔ numberDigits cs ≠ [] := by
  have hcs : (splitSign (trimStart cs)).2.length ≤ cs.length :=
    (length_splitSign_le _).trans (List.dropWhile_sublist _).length_le
  simp only [parseInt, numberDigits, String.toList_ofList, if_true]
  rcases hsplit : splitSign (trimStart cs) with ⟨negative, ds⟩
  rw [hsplit] at hcs
  have hdigits : (leadingDigits 16 (stripHexPrefix ds)).length ≤ cs.length :=
    (length_leadingDigits_le 16 _).trans ((length_stripHexPrefix_le ds).trans hcs)
  have hbound : ¬ overflowBound ≤ ofDigits 16 (leadingDigits 16 (stripHexPrefix ds)) :=
    not_le.mpr (((ofDigits_lt fun _ => lt_of_mem_leadingDigits).trans_le
      (Nat.pow_le_pow_right (by decide) hdigits)).trans_le hlength)
  simp only [if_neg hbound]
  split_ifs with hnil
  · simp [hnil]
  · exact iff_of_true ⟨_, rfl⟩ hnil
  · exact iff_of_true ⟨_, rfl⟩ hnil

/-! ### Decimal texts

`String(n)` of an integer of fewer than 22 digits is Lean's `toString n`. -/

/-- `Number.MAX_SAFE_INTEGER`. -/
def maxSafeInteger : ℕ := 2 ^ 53 - 1

/-- The first size of an integer that is written with an exponent. -/
def exponentBound : ℕ := 10 ^ 21

/-- Decimal digits with an exponent: one digit, the others behind a point. -/
def exponential (cs : List Char) : List Char :=
  let exponent := "e+".toList ++ (toString (cs.length - 1)).toList
  match (cs.reverse.dropWhile (· = '0')).reverse with
  | [] => []
  | [c] => c :: exponent
  | c :: cs => c :: '.' :: cs ++ exponent

/-- `String(n)` of an integer. -/
def textOfInteger (n : ℤ) : String :=
  if n.natAbs < exponentBound then toString n
  else
    let digits := String.ofList (exponential n.natAbs.repr.toList)
    if n < 0 then "-" ++ digits else digits

/-- The first decimal digit of an integer, with the sign of the integer. -/
def leadingDigit (n : ℤ) : ℤ :=
  n.sign * ((n.natAbs.repr.toList.head?.bind digitValue).getD 0 : ℕ)

theorem lt_exponentBound_of_le_maxSafeInteger {n : ℕ} (h : n ≤ maxSafeInteger) :
    n < exponentBound :=
  h.trans_lt (by decide)

section

variable {cs : List Char}

theorem bounds_of_isDigit {c : Char} (h : c.isDigit = true) : 48 ≤ c.toNat ∧ c.toNat ≤ 57 := by
  simp only [Char.isDigit, Bool.and_eq_true, decide_eq_true_eq] at h
  exact ⟨h.1, h.2⟩

theorem digitValue_of_isDigit {c : Char} (h : c.isDigit = true) :
    digitValue c = some (c.toNat - 48) := by
  obtain ⟨hlow, hhigh⟩ := bounds_of_isDigit h
  rw [digitValue, if_pos ⟨hlow, hhigh⟩]

theorem leadingDigits_of_isDigit (h : ∀ c ∈ cs, c.isDigit = true) :
    leadingDigits 10 cs = cs.map fun c => c.toNat - 48 := by
  induction cs with
  | nil => rfl
  | cons c cs ih =>
      obtain ⟨hlow, hhigh⟩ := bounds_of_isDigit (h c List.mem_cons_self)
      simp only [leadingDigits, digitValue_of_isDigit (h c List.mem_cons_self), List.map_cons]
      rw [if_pos (by omega), ih fun c hc => h c (List.mem_cons_of_mem _ hc)]

theorem ofDigits_eq_ofDigitChars (cs : List Char) :
    ofDigits 10 (cs.map fun c => c.toNat - 48) = Nat.ofDigitChars 10 cs 0 := by
  simp only [ofDigits, Nat.ofDigitChars, List.foldl_map, Nat.mul_comm]
  rfl

theorem isDigit_of_mem_repr {n : ℕ} {c : Char} (h : c ∈ n.repr.toList) : c.isDigit = true :=
  Nat.isDigit_of_mem_toDigits (by decide) le_rfl (Nat.toList_repr ▸ h)

theorem toList_toString_negSucc (m : ℕ) :
    (toString (Int.negSucc m)).toList = '-' :: (m + 1).repr.toList := by
  show ("-" ++ (m + 1).repr).toList = _
  rw [String.toList_append]
  rfl

theorem digits_repr (n : ℕ) :
    (leadingDigits 10 n.repr.toList).length = n.repr.toList.length ∧
      ofDigits 10 (leadingDigits 10 n.repr.toList) = n := by
  have hdigits : ∀ c ∈ n.repr.toList, c.isDigit = true := fun _ => isDigit_of_mem_repr
  rw [leadingDigits_of_isDigit hdigits, List.length_map, ofDigits_eq_ofDigitChars, Nat.toList_repr]
  exact ⟨rfl, Nat.ofDigitChars_toDigits (by decide) le_rfl⟩

theorem trimStart_repr (n : ℕ) : trimStart n.repr.toList = n.repr.toList ∧
    splitSign n.repr.toList = (false, n.repr.toList) := by
  have hdigits : ∀ c ∈ n.repr.toList, c.isDigit = true := fun _ => isDigit_of_mem_repr
  generalize n.repr.toList = cs at hdigits
  rcases cs with - | ⟨c, cs⟩
  · exact ⟨rfl, rfl⟩
  · have hc := hdigits c List.mem_cons_self
    obtain ⟨hlow, hhigh⟩ := bounds_of_isDigit hc
    have hspace : isSpace c = false := isSpace_of_ascii (by omega) (by omega)
    refine ⟨by simp [trimStart, hspace], ?_⟩
    rcases eq_or_ne c '-' with rfl | hminus
    · exact absurd hc (by decide)
    · rcases eq_or_ne c '+' with rfl | hplus
      · exact absurd hc (by decide)
      · simp [splitSign, hminus, hplus]

/-- **A decimal text is read back**, up to the size of the largest double. -/
theorem parseInt_toString {n : ℤ} (h : n.natAbs < overflowBound) :
    parseInt 10 (toString n) = (n : Num) := by
  have hrepr : ∀ m : ℕ, leadingDigits 10 m.repr.toList ≠ [] := by
    intro m hnil
    have hlength := (digits_repr m).1
    rw [hnil, Nat.toList_repr] at hlength
    exact Nat.toDigits_ne_nil (List.eq_nil_of_length_eq_zero hlength.symm)
  cases n with
  | ofNat m =>
      have htext : (toString (Int.ofNat m)).toList = m.repr.toList := rfl
      obtain ⟨htrim, hsign⟩ := trimStart_repr m
      have hbound : ¬ overflowBound ≤ m := by simpa using h
      simp only [parseInt, htext, htrim, hsign, Nat.reduceEqDiff, if_false,
        if_neg (hrepr m), (digits_repr m).2, if_neg hbound, Bool.false_eq_true]
      rfl
  | negSucc m =>
      have hbound : ¬ overflowBound ≤ m + 1 := by simpa using h
      have htrim : trimStart ('-' :: (m + 1).repr.toList) = '-' :: (m + 1).repr.toList := rfl
      simp only [parseInt, toList_toString_negSucc, htrim, splitSign, Nat.reduceEqDiff, if_false,
        if_neg (hrepr (m + 1)), (digits_repr (m + 1)).2, if_neg hbound, if_true]
      rfl

/-- `Number(text)` of the decimal text of an integer. -/
def numberOfDecimal (cs : List Char) : ℤ :=
  let n : ℤ := ofDigits 10 (leadingDigits 10 (splitSign cs).2)
  if (splitSign cs).1 then -n else n

/-- **A decimal text is read back.** -/
theorem numberOfDecimal_toString (n : ℤ) : numberOfDecimal (toString n).toList = n := by
  cases n with
  | ofNat m =>
      have htext : (toString (Int.ofNat m)).toList = m.repr.toList := rfl
      rw [htext, numberOfDecimal, (trimStart_repr m).2]
      simp only [(digits_repr m).2, Bool.false_eq_true, if_false, Int.ofNat_eq_natCast]
  | negSucc m =>
      have hsign : splitSign ('-' :: (m + 1).repr.toList) = (true, (m + 1).repr.toList) := rfl
      rw [toList_toString_negSucc, numberOfDecimal, hsign]
      simp only [(digits_repr (m + 1)).2, if_true]
      rfl

/-- The text of an integer consists of digits and a sign. -/
theorem isDigit_of_mem_toString {n : ℤ} {c : Char} (h : c ∈ (toString n).toList) :
    c.isDigit = true ∨ c = '-' := by
  cases n with
  | ofNat m => exact Or.inl (isDigit_of_mem_repr h)
  | negSucc m =>
      rw [toList_toString_negSucc, List.mem_cons] at h
      exact h.symm.imp_left isDigit_of_mem_repr

theorem exponentBound_le_overflowBound : exponentBound ≤ overflowBound := by
  decide +kernel

/-- With an exponent, the first digit stands alone. -/
theorem exponential_cons {c : Char} (hzero : c ≠ '0') (cs : List Char) :
    ∃ rest, exponential (c :: cs) = c :: rest ∧ leadingDigits 10 rest = [] := by
  -- the first digit is not one of the zeros at the end
  have hkept : ((c :: cs).reverse.dropWhile (· = '0')).reverse =
      c :: (cs.reverse.dropWhile (· = '0')).reverse := by
    rw [List.reverse_cons, List.dropWhile_append]
    split
    · next hempty => simp [hzero, List.isEmpty_iff.mp hempty]
    · simp
  rw [exponential, hkept]
  rcases (cs.reverse.dropWhile (· = '0')).reverse with - | ⟨c', cs'⟩
  · exact ⟨_, rfl, by simp [leadingDigits, show digitValue 'e' = some 14 by decide]⟩
  · exact ⟨_, rfl, by simp [leadingDigits, show digitValue '.' = none by decide]⟩

/-- The digits of a positive number start with one that is not zero. -/
theorem exists_head_toDigits {n : ℕ} (hn : 0 < n) : ∃ c cs, Nat.toDigits 10 n = c :: cs ∧
    c.isDigit = true ∧ c ≠ '0' := by
  induction n using Nat.strongRecOn with
  | ind n ih =>
      by_cases hlt : n < 10
      · have hdigit : ∀ m < 10, 0 < m → m.digitChar.isDigit = true ∧ m.digitChar ≠ '0' := by decide
        exact ⟨n.digitChar, [], Nat.toDigits_of_lt_base hlt, hdigit n hlt hn⟩
      · obtain ⟨c, cs, hdigits, hc⟩ := ih (n / 10) (by omega) (by omega)
        refine ⟨c, cs ++ [(n % 10).digitChar], ?_, hc⟩
        rw [Nat.toDigits_of_base_le (by decide) (by omega), hdigits, List.cons_append]

/-- A text that starts with one digit is read as that digit. -/
theorem parseInt_digit {c : Char} {rest : List Char} (hc : c.isDigit = true)
    (hrest : leadingDigits 10 rest = []) :
    parseInt 10 (String.ofList (c :: rest)) = ((c.toNat - 48 : ℕ) : ℤ) ∧
      parseInt 10 ("-" ++ String.ofList (c :: rest)) = (-((c.toNat - 48 : ℕ) : ℤ) : ℤ) := by
  obtain ⟨hlow, hhigh⟩ := bounds_of_isDigit hc
  have hdigits : leadingDigits 10 (c :: rest) = [c.toNat - 48] := by
    simp only [leadingDigits, digitValue_of_isDigit hc, hrest]
    rw [if_pos (by omega)]
  have hspace : isSpace c = false := isSpace_of_ascii (by omega) (by omega)
  have hminus : c ≠ '-' := by
    rintro rfl
    exact absurd hc (by decide)
  have hplus : c ≠ '+' := by
    rintro rfl
    exact absurd hc (by decide)
  have hbound : ¬ overflowBound ≤ c.toNat - 48 := by
    have : 10 ≤ overflowBound := by decide +kernel
    omega
  have hsign : splitSign (c :: rest) = (false, c :: rest) := by simp [splitSign, hminus, hplus]
  constructor
  · simp [parseInt, trimStart, hspace, hsign, hdigits, ofDigits, hbound]
  · have htext : ("-" ++ String.ofList (c :: rest)).toList = '-' :: c :: rest := by
      rw [String.toList_append, String.toList_ofList]
      simp
    have htrim : trimStart ('-' :: c :: rest) = '-' :: c :: rest := rfl
    have hnegative : splitSign ('-' :: c :: rest) = (true, c :: rest) := rfl
    rw [parseInt, htext, htrim, hnegative]
    simp [hdigits, ofDigits, hbound]

/-- **What `parseInt` reads of an integer's text**: the integer, or only its
first digit if the text has an exponent. -/
theorem parseInt_textOfInteger (n : ℤ) : parseInt 10 (textOfInteger n) =
    (if n.natAbs < exponentBound then n else leadingDigit n : ℤ) := by
  by_cases hn : n.natAbs < exponentBound
  · rw [textOfInteger, if_pos hn, if_pos hn,
      parseInt_toString (hn.trans_le exponentBound_le_overflowBound)]
  have hpos : 0 < n.natAbs := by
    have : 0 < exponentBound := by decide
    omega
  obtain ⟨c, cs, hdigits, hdigit, hzero⟩ := exists_head_toDigits hpos
  obtain ⟨rest, hrest, hend⟩ := exponential_cons hzero cs
  obtain ⟨hplus, hminus⟩ := parseInt_digit hdigit hend
  rw [textOfInteger, if_neg hn, if_neg hn, leadingDigit, Nat.toList_repr, hdigits, hrest]
  simp only [List.head?_cons, Option.bind_some, digitValue_of_isDigit hdigit, Option.getD_some]
  by_cases hneg : n < 0
  · rw [if_pos hneg, hminus, Int.sign_eq_neg_one_of_neg hneg, neg_one_mul]
  · rw [if_neg hneg, hplus, Int.sign_eq_one_of_pos (by omega), one_mul]

end

end Js
