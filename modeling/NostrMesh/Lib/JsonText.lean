/-
NostrMesh/Lib/JsonText.lean

JSON texts of strings and arrays: how they are written, with or without white
space behind the commas, and how they are read.

A reader takes the text of a value from the front of the input.  `Reads` says
that it undoes a writer whatever follows; it holds of strings
(`reads_readString`), and with a kind of items it holds of their arrays
(`Reads.array`), so that arrays of arrays come for free.

A character is a Unicode scalar value, so that an escaped surrogate without
its pair is refused.
-/
import NostrMesh.Lib.Bytes

namespace JsonText

/-! ### Writing -/

/-- A character inside a string. -/
def escapeChar (c : Char) : List Char :=
  if c = '"' then ['\\', '"']
  else if c = '\\' then ['\\', '\\']
  else if c.toNat = 8 then ['\\', 'b']
  else if c.toNat = 12 then ['\\', 'f']
  else if c.toNat = 10 then ['\\', 'n']
  else if c.toNat = 13 then ['\\', 'r']
  else if c.toNat = 9 then ['\\', 't']
  else if c.toNat < 32 then
    ['\\', 'u', '0', '0', Bytes.hexDigit (c.toNat / 16), Bytes.hexDigit (c.toNat % 16)]
  else [c]

def string (s : List Char) : List Char := '"' :: s.flatMap escapeChar ++ ['"']

/-- An array, with a gap behind each comma. -/
def array (gap : List Char) (items : List (List Char)) : List Char :=
  '[' :: (',' :: gap).intercalate items ++ [']']

/-! ### Reading -/

def isSpace (c : Char) : Bool := c = ' ' || c = '\t' || c = '\n' || c = '\r'

def skipSpaces (cs : List Char) : List Char := cs.dropWhile isSpace

/-- Four hexadecimal digits. -/
def readCodeUnit : List Char → Option (ℕ × List Char)
  | a :: b :: c :: d :: cs =>
      match Bytes.hexVal a, Bytes.hexVal b, Bytes.hexVal c, Bytes.hexVal d with
      | some a, some b, some c, some d => some (((a * 16 + b) * 16 + c) * 16 + d, cs)
      | _, _, _, _ => none
  | _ => none

/-- The low surrogate that goes with a high one. -/
def readLowSurrogate (high : ℕ) : List Char → Option (Char × List Char)
  | '\\' :: 'u' :: cs =>
      match readCodeUnit cs with
      | some (low, cs) =>
          if 0xDC00 ≤ low ∧ low ≤ 0xDFFF then
            some (Char.ofNat (0x10000 + (high - 0xD800) * 0x400 + (low - 0xDC00)), cs)
          else none
      | none => none
  | _ => none

def simpleEscape (c : Char) : Option Char :=
  if c = '"' ∨ c = '\\' ∨ c = '/' then some c
  else if c = 'b' then some (Char.ofNat 8)
  else if c = 'f' then some (Char.ofNat 12)
  else if c = 'n' then some '\n'
  else if c = 'r' then some '\r'
  else if c = 't' then some '\t'
  else none

/-- What stands behind a backslash. -/
def readEscape : List Char → Option (Char × List Char)
  | [] => none
  | c :: cs =>
      if c = 'u' then
        match readCodeUnit cs with
        | some (n, cs) =>
            if n < 0xD800 ∨ 0xDFFF < n then some (Char.ofNat n, cs)
            else if n ≤ 0xDBFF then readLowSurrogate n cs
            else none
        | none => none
      else (simpleEscape c).map fun d => (d, cs)

/-- The characters up to the closing quote. -/
def readChars : ℕ → List Char → Option (List Char × List Char)
  | 0, _ => none
  | _ + 1, [] => none
  | fuel + 1, c :: cs =>
      if c = '"' then some ([], cs)
      else if c = '\\' then
        (readEscape cs).bind fun r => (readChars fuel r.2).map fun s => (r.1 :: s.1, s.2)
      else if c.toNat < 32 then none
      else (readChars fuel cs).map fun s => (c :: s.1, s.2)

/-- The fuel is enough for one character of the input a step. -/
def readString (cs : List Char) : Option (List Char × List Char) :=
  match skipSpaces cs with
  | '"' :: cs => readChars (cs.length + 1) cs
  | _ => none

section

variable {β : Type*} (item : List Char → Option (β × List Char))

/-- The items up to the closing bracket. -/
def readItems : ℕ → List Char → Option (List β × List Char)
  | 0, _ => none
  | fuel + 1, cs =>
      (item cs).bind fun r =>
        match skipSpaces r.2 with
        | ',' :: cs => (readItems fuel cs).map fun s => (r.1 :: s.1, s.2)
        | ']' :: cs => some ([r.1], cs)
        | _ => none

def readArray (cs : List Char) : Option (List β × List Char) :=
  match skipSpaces cs with
  | '[' :: cs =>
      match skipSpaces cs with
      | ']' :: cs => some ([], cs)
      | cs => readItems item (cs.length + 1) cs
  | _ => none

/-- A text with nothing behind the value. -/
def parse (cs : List Char) : Option β :=
  (item cs).bind fun r => if skipSpaces r.2 = [] then some r.1 else none

end

/-! ### Reading what was written -/

/-- The reader undoes the writer: whatever follows, and with white space in
front.  No text starts with white space or a closing bracket. -/
structure Reads {β : Type*} (item : List Char → Option (β × List Char)) (text : β → List Char) :
    Prop where
  reads : ∀ b rest, item (text b ++ rest) = some (b, rest)
  skips : ∀ {gap}, (∀ c ∈ gap, isSpace c = true) → ∀ cs, item (gap ++ cs) = item cs
  starts : ∀ b, ∃ c cs, text b = c :: cs ∧ isSpace c = false ∧ c ≠ ']'

theorem skipSpaces_append {gap : List Char} (h : ∀ c ∈ gap, isSpace c = true) (cs : List Char) :
    skipSpaces (gap ++ cs) = skipSpaces cs :=
  List.dropWhile_append_of_pos h

theorem skipSpaces_cons {c : Char} (h : isSpace c = false) (cs : List Char) :
    skipSpaces (c :: cs) = c :: cs := by
  rw [skipSpaces, List.dropWhile_cons_of_neg (by simp [h])]

theorem readCodeUnit_control {n : ℕ} (h : n < 32) (rest : List Char) :
    readCodeUnit ('0' :: '0' :: Bytes.hexDigit (n / 16) :: Bytes.hexDigit (n % 16) :: rest) =
      some (n, rest) := by
  have hzero : Bytes.hexVal '0' = some 0 := by decide
  rw [readCodeUnit, hzero, Bytes.hexVal_hexDigit (by omega : n / 16 < 16),
    Bytes.hexVal_hexDigit (by omega : n % 16 < 16)]
  simp only [Option.some.injEq, Prod.mk.injEq, and_true]
  omega

/-- One character, escaped or not. -/
theorem readChars_escapeChar (c : Char) (fuel : ℕ) (rest : List Char) :
    readChars (fuel + 1) (escapeChar c ++ rest) =
      (readChars fuel rest).map fun s => (c :: s.1, s.2) := by
  have hescape : ∀ {e : Char} (he : e ≠ 'u') (hc : simpleEscape e = some c),
      readChars (fuel + 1) (['\\', e] ++ rest) =
        (readChars fuel rest).map fun s => (c :: s.1, s.2) := by
    intro e he hc
    rw [List.cons_append, List.cons_append, List.nil_append, readChars, if_neg (by decide),
      if_pos rfl, readEscape, if_neg he, hc]
    rfl
  have hnat : ∀ {n : ℕ}, c.toNat = n → c = Char.ofNat n := fun h => by rw [← h, Char.ofNat_toNat]
  rw [escapeChar]
  split_ifs with hquote hslash h8 h12 h10 h13 h9 hcontrol
  · exact hescape (by decide) (by rw [hquote]; rfl)
  · exact hescape (by decide) (by rw [hslash]; rfl)
  · exact hescape (by decide) (by rw [hnat h8]; rfl)
  · exact hescape (by decide) (by rw [hnat h12]; rfl)
  · exact hescape (by decide) (by rw [hnat h10]; rfl)
  · exact hescape (by decide) (by rw [hnat h13]; rfl)
  · exact hescape (by decide) (by rw [hnat h9]; rfl)
  · simp only [List.cons_append, List.nil_append]
    rw [readChars, if_neg (by decide), if_pos rfl, readEscape, if_pos rfl,
      readCodeUnit_control hcontrol]
    dsimp only
    rw [if_pos (.inl (by omega)), Option.bind_some, Char.ofNat_toNat]
  · rw [List.singleton_append, readChars, if_neg hquote, if_neg hslash, if_neg hcontrol]

theorem readChars_flatMap (s : List Char) {fuel : ℕ} (h : s.length < fuel) (rest : List Char) :
    readChars fuel (s.flatMap escapeChar ++ '"' :: rest) = some (s, rest) := by
  induction s generalizing fuel with
  | nil =>
      obtain ⟨fuel, rfl⟩ := Nat.exists_eq_succ_of_ne_zero (show fuel ≠ 0 by omega)
      rw [List.flatMap_nil, List.nil_append, readChars, if_pos rfl]
  | cons c s ih =>
      obtain ⟨fuel, rfl⟩ := Nat.exists_eq_succ_of_ne_zero (show fuel ≠ 0 by omega)
      rw [List.length_cons] at h
      rw [List.flatMap_cons, List.append_assoc, readChars_escapeChar, ih (by omega)]
      rfl

theorem length_le_flatMap_escapeChar (s : List Char) :
    s.length ≤ (s.flatMap escapeChar).length := by
  have hone : ∀ c, 1 ≤ (escapeChar c).length := by
    intro c
    rw [escapeChar]
    split_ifs <;> simp
  induction s with
  | nil => exact Nat.le_refl _
  | cons c s ih =>
      have := hone c
      rw [List.flatMap_cons, List.length_append, List.length_cons]
      omega

/-- **Strings** are read back. -/
theorem reads_readString : Reads readString string where
  reads s rest := by
    have hlen := length_le_flatMap_escapeChar s
    rw [string, List.append_assoc, List.cons_append, readString, skipSpaces_cons (by decide)]
    refine readChars_flatMap s ?_ rest
    rw [List.length_append]
    omega
  skips h cs := by rw [readString, skipSpaces_append h, readString]
  starts s := ⟨'"', _, rfl, by decide, by decide⟩

section

variable {β : Type*} {item : List Char → Option (β × List Char)} {text : β → List Char}
  {gap : List Char}

theorem readItems_intercalate (h : Reads item text) (hgap : ∀ c ∈ gap, isSpace c = true)
    (b : β) (bs : List β) {fuel : ℕ} (hfuel : bs.length < fuel) (rest : List Char) :
    readItems item fuel ((',' :: gap).intercalate ((b :: bs).map text) ++ ']' :: rest) =
      some (b :: bs, rest) := by
  induction bs generalizing b fuel with
  | nil =>
      obtain ⟨fuel, rfl⟩ := Nat.exists_eq_succ_of_ne_zero (show fuel ≠ 0 by omega)
      rw [List.map_singleton, List.intercalate_singleton, readItems, h.reads, Option.bind_some,
        skipSpaces_cons (by decide)]
      rfl
  | cons c bs ih =>
      obtain ⟨fuel, rfl⟩ := Nat.exists_eq_succ_of_ne_zero (show fuel ≠ 0 by omega)
      rw [List.length_cons] at hfuel
      have hcons : (',' :: gap).intercalate ((b :: c :: bs).map text) ++ ']' :: rest =
          text b ++ ',' :: (gap ++
            ((',' :: gap).intercalate ((c :: bs).map text) ++ ']' :: rest)) := by
        simp [List.intercalate]
      -- the white space behind the comma is skipped by the next item
      have hskip : ∀ (n : ℕ) (cs : List Char),
          readItems item n (gap ++ cs) = readItems item n cs := by
        intro n cs
        rcases n with - | n
        · rfl
        · rw [readItems, h.skips hgap, readItems]
      have hrest := ih c (show bs.length < fuel by omega)
      rw [← hskip] at hrest
      rw [hcons, readItems, h.reads, Option.bind_some, skipSpaces_cons (by decide)]
      show (readItems item fuel _).map _ = _
      rw [hrest]
      rfl

theorem length_le_intercalate (h : Reads item text) (gap : List Char) (bs : List β) :
    bs.length ≤ ((',' :: gap).intercalate (bs.map text)).length := by
  induction bs with
  | nil => exact Nat.zero_le _
  | cons b bs ih =>
      obtain ⟨c, cs, hb, -, -⟩ := h.starts b
      rcases bs with - | ⟨b', bs⟩
      · rw [List.map_singleton, List.intercalate_singleton, hb, List.length_singleton,
          List.length_cons]
        omega
      · have hcons : (',' :: gap).intercalate ((b :: b' :: bs).map text) =
            text b ++ (',' :: gap) ++ (',' :: gap).intercalate ((b' :: bs).map text) := by
          rw [List.map_cons, List.map_cons, List.intercalate_cons_cons]
        rw [hcons, List.length_append, List.length_append, hb, List.length_cons, List.length_cons,
          List.length_cons]
        rw [List.length_cons] at ih
        omega

theorem readArray_bracket (cs : List Char) : readArray item ('[' :: cs) =
    match skipSpaces cs with
    | ']' :: cs => some ([], cs)
    | cs => readItems item (cs.length + 1) cs := rfl

/-- **Arrays** are read back if their items are. -/
theorem Reads.array (h : Reads item text) (hgap : ∀ c ∈ gap, isSpace c = true) :
    Reads (readArray item) fun bs => JsonText.array gap (bs.map text) where
  reads bs rest := by
    rw [JsonText.array, List.append_assoc, List.cons_append, readArray_bracket]
    rcases bs with - | ⟨b, bs⟩
    · rfl
    · obtain ⟨c, cs, hb, hspace, hbracket⟩ := h.starts b
      have hlen := length_le_intercalate h gap (b :: bs)
      obtain ⟨ds, hds⟩ : ∃ ds, (',' :: gap).intercalate ((b :: bs).map text) ++ (']' :: rest) =
          c :: ds := by
        rcases bs with - | ⟨b', bs⟩
        · exact ⟨_, by rw [List.map_singleton, List.intercalate_singleton, hb, List.cons_append]⟩
        · exact ⟨_, by simp [List.intercalate, hb]; rfl⟩
      have hfuel : bs.length < (c :: ds).length + 1 := by
        rw [← hds, List.length_append]
        rw [List.length_cons] at hlen
        omega
      have hitems := readItems_intercalate h hgap b bs hfuel rest
      rw [hds] at hitems
      rw [List.singleton_append, hds, skipSpaces_cons hspace]
      split
      · next heq => exact absurd (List.head_eq_of_cons_eq heq) hbracket
      · exact hitems
  skips hspaces cs := by rw [readArray, skipSpaces_append hspaces, readArray]
  starts bs := ⟨'[', _, rfl, by decide, by decide⟩

/-- A text shows where it ends, and what it says. -/
theorem Reads.append_inj (h : Reads item text) {b b' : β} {rest rest' : List Char} :
    text b ++ rest = text b' ++ rest' ↔ b = b' ∧ rest = rest' := by
  constructor
  · intro heq
    have hreads := h.reads b rest
    rw [heq, h.reads, Option.some.injEq, Prod.mk.injEq] at hreads
    exact ⟨hreads.1.symm, hreads.2.symm⟩
  · rintro ⟨rfl, rfl⟩
    rfl

theorem Reads.parse (h : Reads item text) (b : β) : JsonText.parse item (text b) = some b := by
  have hreads := h.reads b []
  rw [List.append_nil] at hreads
  rw [JsonText.parse, hreads, Option.bind_some]
  rfl

end

end JsonText
