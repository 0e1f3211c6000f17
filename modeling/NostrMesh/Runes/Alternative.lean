/-
NostrMesh/Runes/Alternative.lean

The alternatives of a rune: `field`, condition and value, their test on a
record of values, and their two parsers (`utils/runes/alternative.ts`).

A text is the list of its characters.  The text of an alternative
(`AlternativeText`) is its field, the symbol of its condition and an escaped
writing of its value; `decode` reads just these texts (`decode_append`), and
texts that end in a lone escape character (`decode_dangling`).
-/
import NostrMesh.Lib.Delimited
import NostrMesh.Lib.Js
import Mathlib.Data.List.TakeWhile

namespace NostrMesh.Runes

open Delimited

abbrev Text := List Char

/-! ### Alternatives -/

/-- The class of the regular expression `punctuations`.  Its `+-.` is a range,
which has the comma in it; the underscore is in none. -/
def punctuations : Text := "!\"#$%&'()*+,-./:;<=>?@[\\]^`\x7b|\x7d~".toList

def hasPunctuation (c : Char) : Bool := punctuations.contains c

/-- The test of `punctuations` fails on `s`, as it must on a field. -/
def IsField (s : Text) : Prop := ∀ c ∈ s, hasPunctuation c = false

instance : DecidablePred IsField := fun s => List.decidableBAll _ s

/-- The conditions, by what they ask for. -/
inductive Cond
  | missing
  | equals
  | differs
  | startsWith
  | endsWith
  | contains
  | less
  | greater
  | after
  | before
  | comment
  deriving DecidableEq

def Cond.symbol : Cond → Char
  | missing => '!'
  | equals => '='
  | differs => '/'
  | startsWith => '^'
  | endsWith => '$'
  | contains => '~'
  | less => '<'
  | greater => '>'
  | after => '}'
  | before => '{'
  | comment => '#'

/-- The set of the constructor. -/
def Cond.listed : List Cond :=
  [missing, equals, differs, startsWith, endsWith, contains, less, greater, after, before, comment]

def Cond.ofText (cond : Text) : Option Cond := listed.find? fun c => [c.symbol] = cond

structure Alternative where
  field : Text
  cond : Cond
  value : Text
  field_valid : IsField field
  deriving DecidableEq

/-- The constructor. -/
def Alternative.new (field cond value : Text) : Except String Alternative :=
  if h : IsField field then
    match Cond.ofText cond with
    | some cond => .ok ⟨field, cond, value, h⟩
    | none => .error "Cond is not valid"
  else .error "Field is not valid"

/-! ### The test -/

/-- A field of the record of values, as far as `test` looks at it: a function,
or something else with its `String(..)` and its method `includes`, which may
be missing. -/
inductive FieldValue
  | function (call : Alternative → Except String (Option Text))
  | data (text : Except String Text) (includes : Text → Except String Bool)

/-- The record of values: what `in` and `[]` find, inherited fields too. -/
abbrev Values := Text → Option FieldValue

/-- `Number.parseInt(text)`: without a radix, a prefix `0x` makes it 16. -/
def parseInt (text : Text) : Js.Num :=
  let digits := (Js.splitSign (Js.trimStart text)).2
  let radix := if Js.stripHexPrefix digits = digits then 10 else 16
  match Js.parseInt radix (String.ofList text) with
  | .finite q => (Js.ofBigInt q.num : Js.Num)
  | n => n

/-- The decimal with the fewest digits that a reader rounds to the double
`n`. -/
def shortest (n : ℕ) : ℕ :=
  let candidates := (List.range 17).flatMap fun k =>
    let unit := 10 ^ (n.repr.length - (k + 1))
    let below := n / unit * unit
    if 2 * (n - below) ≤ unit then [below, below + unit] else [below + unit, below]
  (candidates.find? fun m => Js.roundDouble m = n).getD n

/-- `String(n)` of what `parseInt` gives. -/
def numberText : Js.Num → Text
  | .finite q => (Js.textOfInteger (q.num.sign * shortest q.num.natAbs)).toList
  | .posInf => "Infinity".toList
  | .negInf => "-Infinity".toList
  | .nan => "NaN".toList

/-- A character in UTF-16. -/
def codeUnits (c : Char) : List ℕ :=
  if c.toNat ≤ 0xFFFF then [c.toNat]
  else [0xD800 + (c.toNat - 0x10000) / 0x400, 0xDC00 + (c.toNat - 0x10000) % 0x400]

/-- `<` on strings: by code units. -/
def orderedBefore (s t : Text) : Bool := s.flatMap codeUnits < t.flatMap codeUnits

def why (cond : Bool) (field : Text) (explanation : Text) : Option Text :=
  if cond then none else some (field ++ ": ".toList ++ explanation)

/-- The conditions on numbers. -/
def Alternative.testInteger (a : Alternative) (val : Text) : Option Text :=
  let actualInt := parseInt val
  if actualInt = .nan then why false a.field "not an integer field".toList
  else
    let restrictionVal := parseInt a.value
    if restrictionVal = .nan then why false a.field "not a valid integer".toList
    else if a.cond = .less then
      why (actualInt.lt restrictionVal) a.field (">= ".toList ++ numberText restrictionVal)
    else why (restrictionVal.lt actualInt) a.field ("<= ".toList ++ numberText restrictionVal)

/-- `undefined` is the answer that the values are fine; an error is one that
the value itself throws. -/
def Alternative.test (a : Alternative) (values : Values) : Except String (Option Text) :=
  if a.cond = .comment then .ok none
  else
    match values a.field with
    | none => .ok (why (a.cond = .missing) a.field "is missing".toList)
    | some (.function call) => call a
    | some (.data text includes) => do
        let val ← text
        match a.cond with
        | .missing => .ok (why false a.field "is present".toList)
        | .equals => .ok (why (val = a.value) a.field ("!= ".toList ++ a.value))
        | .differs => .ok (why (val ≠ a.value) a.field ("= ".toList ++ a.value))
        | .startsWith =>
            .ok (why (a.value.isPrefixOf val) a.field ("does not start with ".toList ++ a.value))
        | .endsWith =>
            .ok (why (a.value.isSuffixOf val) a.field ("does not end with ".toList ++ a.value))
        | .contains => do
            let found ← includes a.value
            .ok (why found a.field ("does not contain ".toList ++ a.value))
        | .less | .greater => .ok (a.testInteger val)
        | .before =>
            .ok (why (orderedBefore val a.value) a.field
              ("is the same or ordered after ".toList ++ a.value))
        | .after =>
            .ok (why (orderedBefore a.value val) a.field
              ("is the same or ordered before ".toList ++ a.value))
        | .comment => .ok none

/-! ### The codec -/

/-- The characters that end a value. -/
def IsSeparator (c : Char) : Prop := c = '|' ∨ c = '&'

instance : DecidablePred IsSeparator := fun c => inferInstanceAs (Decidable (c = '|' ∨ c = '&'))

/-- The replacement of `/[\\|&]/g` puts a backslash in front. -/
def Alternative.encode (a : Alternative) : Text :=
  a.field ++ a.cond.symbol :: escape '\\' IsSeparator a.value

/-- The second loop of `decode`: the value, and what is behind it. -/
def readValue : Text → Text × Text
  | [] => ([], [])
  | [c] =>
      if c = '|' then ([], [])
      else if c = '&' then ([], [c])
      -- the index is past the end, where a string has `undefined`
      else if c = '\\' then ("undefined".toList, [])
      else ([c], [])
  | c :: d :: cs =>
      if c = '|' then ([], d :: cs)
      else if c = '&' then ([], c :: d :: cs)
      else if c = '\\' then
        let r := readValue cs
        (d :: r.1, r.2)
      else
        let r := readValue (d :: cs)
        (c :: r.1, r.2)

/-- `Alternative.decode`. -/
def Alternative.decode (encodedStr : Text) : Except String (Alternative × Text) :=
  match encodedStr.dropWhile fun c => !hasPunctuation c with
  | [] => .error (String.ofList encodedStr ++ " does not contain any operator")
  | cond :: rest => do
      let field := encodedStr.takeWhile fun c => !hasPunctuation c
      let (value, remainder) := readValue rest
      let alternative ← Alternative.new field [cond] value
      .ok (alternative, remainder)

/-- `replace(/\s+/g, '')`. -/
def withoutSpaces (s : Text) : Text := s.filter fun c => !Js.isSpace c

/-- `split` on a captured punctuation character: the pieces, with the
characters between them. -/
def splitPunctuation : Text → List Text
  | [] => [[]]
  | c :: cs =>
      if hasPunctuation c then [] :: [c] :: splitPunctuation cs
      else (splitPunctuation cs).modifyHead (c :: ·)

/-- `Alternative.from`. -/
def Alternative.from (encodedStr : Text) : Except String Alternative :=
  match splitPunctuation (withoutSpaces encodedStr) with
  | field :: cond :: value :: _ => Alternative.new field cond value
  -- one piece has no punctuation, and its `cond` is `undefined`
  | _ => .error "Cond is not valid"

/-! ### Characters -/

@[simp] theorem hasPunctuation_symbol (c : Cond) : hasPunctuation c.symbol = true := by
  cases c <;> decide

theorem not_isSeparator_symbol (c : Cond) : ¬ IsSeparator c.symbol := by
  cases c <;> decide

theorem not_isSeparator_escape : ¬ IsSeparator '\\' := by decide

theorem not_isSeparator_of_hasPunctuation {c : Char} (h : hasPunctuation c = false) :
    ¬ IsSeparator c := by
  rintro (rfl | rfl) <;> exact absurd h (by decide)

theorem isSpace_of_hasPunctuation {c : Char} (h : hasPunctuation c = true) :
    Js.isSpace c = false := by
  have hascii : punctuations.all (fun c => 0x20 < c.toNat && c.toNat < 0x80) = true := by decide
  have hc := List.all_eq_true.mp hascii c (List.contains_iff_mem.mp h)
  rw [Bool.and_eq_true, decide_eq_true_eq, decide_eq_true_eq] at hc
  exact Js.isSpace_of_ascii hc.1 hc.2

@[simp] theorem ofText_symbol (c : Cond) : Cond.ofText [c.symbol] = some c := by
  cases c <;> rfl

theorem ofText_eq_some_iff {cond : Text} {c : Cond} :
    Cond.ofText cond = some c ↔ cond = [c.symbol] := by
  constructor
  · intro h
    rw [Cond.ofText] at h
    have hc := List.find?_some h
    exact (of_decide_eq_true hc).symm
  · rintro rfl
    exact ofText_symbol c

@[simp] theorem new_self (a : Alternative) :
    Alternative.new a.field [a.cond.symbol] a.value = .ok a := by
  rw [Alternative.new, dif_pos a.field_valid, ofText_symbol]

theorem new_eq_ok_iff {field cond value : Text} {a : Alternative} :
    Alternative.new field cond value = .ok a ↔
      a.field = field ∧ [a.cond.symbol] = cond ∧ a.value = value := by
  constructor
  · intro h
    rw [Alternative.new] at h
    split_ifs at h with hfield
    rcases hcond : Cond.ofText cond with - | c
    · rw [hcond] at h
      cases h
    · rw [hcond] at h
      cases h
      exact ⟨rfl, (ofText_eq_some_iff.mp hcond).symm, rfl⟩
  · rintro ⟨rfl, rfl, rfl⟩
    exact new_self a

/-! ### The field -/

/-- The first loop of `decode` stops behind the field. -/
theorem takeWhile_field {field : Text} (hfield : IsField field) {d : Char}
    (hd : hasPunctuation d = true) (cs : Text) :
    (field ++ d :: cs).takeWhile (fun c => !hasPunctuation c) = field ∧
      (field ++ d :: cs).dropWhile (fun c => !hasPunctuation c) = d :: cs := by
  have hall : ∀ c ∈ field, (!hasPunctuation c) = true := fun c hc => by rw [hfield c hc]; rfl
  constructor
  · rw [List.takeWhile_append_of_pos hall, List.takeWhile_cons_of_neg (by simp [hd]),
      List.append_nil]
  · rw [List.dropWhile_append_of_pos hall, List.dropWhile_cons_of_neg (by simp [hd])]

/-- A text is a field, or a field with punctuation behind it. -/
theorem exists_field (s : Text) :
    IsField s ∨
      ∃ field d cs, s = field ++ d :: cs ∧ IsField field ∧ hasPunctuation d = true := by
  induction s with
  | nil => exact .inl fun c hc => absurd hc List.not_mem_nil
  | cons c s ih =>
      by_cases hc : hasPunctuation c = true
      · exact .inr ⟨[], c, s, rfl, fun d hd => absurd hd List.not_mem_nil, hc⟩
      · have hc' := Bool.eq_false_iff.mpr hc
        rcases ih with h | ⟨field, d, cs, rfl, hfield, hd⟩
        · exact .inl (List.forall_mem_cons.mpr ⟨hc', h⟩)
        · exact .inr ⟨c :: field, d, cs, rfl, List.forall_mem_cons.mpr ⟨hc', hfield⟩, hd⟩

/-! ### The value -/

/-- `decode` steps over the bar behind a value. -/
def afterBar : Text → Text
  | [] => []
  | c :: cs => if c = '|' then cs else c :: cs

theorem afterBar_bar (cs : Text) : afterBar ('|' :: cs) = cs := rfl

theorem afterBar_cons {c : Char} (hc : c ≠ '|') (cs : Text) : afterBar (c :: cs) = c :: cs :=
  if_neg hc

theorem length_afterBar_le (cs : Text) : (afterBar cs).length ≤ cs.length := by
  rcases cs with - | ⟨c, cs⟩
  · exact Nat.le_refl _
  · rw [afterBar]
    split_ifs
    · exact Nat.le_succ _
    · exact Nat.le_refl _

theorem readValue_cons {c : Char} (hc : c ≠ '\\') (hsep : ¬ IsSeparator c) (cs : Text) :
    readValue (c :: cs) = (c :: (readValue cs).1, (readValue cs).2) := by
  rw [IsSeparator, not_or] at hsep
  rcases cs with - | ⟨d, cs⟩
  · rw [readValue, readValue, if_neg hsep.1, if_neg hsep.2, if_neg hc]
  · rw [readValue, if_neg hsep.1, if_neg hsep.2, if_neg hc]

theorem readValue_append {raw v : Text} (hraw : Escaped '\\' IsSeparator raw v) (rest : Text) :
    readValue (raw ++ rest) = (v ++ (readValue rest).1, (readValue rest).2) := by
  induction hraw with
  | nil => rfl
  | plain hc hsep _ ih => rw [List.cons_append, readValue_cons hc hsep, ih, List.cons_append]
  | pair _ ih => rw [List.cons_append, List.cons_append, readValue, if_neg (by decide),
      if_neg (by decide), if_pos rfl, ih, List.cons_append]

theorem readValue_of_stops {rest : Text} (h : Stops IsSeparator rest) :
    readValue rest = ([], afterBar rest) := by
  rcases rest with - | ⟨c, - | ⟨d, cs⟩⟩
  · rfl
  · rcases h with rfl | rfl <;> rfl
  · rcases h with rfl | rfl <;> rfl

/-- The two ways in which the second loop ends. -/
theorem readValue_spec (cs : Text) : ∃ raw v tail, cs = raw ++ tail ∧
    Escaped '\\' IsSeparator raw v ∧
    (Stops IsSeparator tail ∧ readValue cs = (v, afterBar tail) ∨
      tail = ['\\'] ∧ readValue cs = (v ++ "undefined".toList, [])) := by
  obtain ⟨raw, hcs, hraw, hstops⟩ := takeEscaped_spec '\\' IsSeparator cs
  have hread := readValue_append hraw (takeEscaped '\\' IsSeparator cs).2
  rw [← hcs] at hread
  refine ⟨raw, _, _, hcs, hraw, ?_⟩
  rcases hstops with hstops | hstops
  · rw [readValue_of_stops hstops, List.append_nil] at hread
    exact .inl ⟨hstops, hread⟩
  · rw [hstops] at hread
    exact .inr ⟨hstops, hread⟩

/-! ### The texts of alternatives -/

/-- `raw` is a text of the alternative. -/
def AlternativeText (a : Alternative) (raw : Text) : Prop :=
  ∃ value, raw = a.field ++ a.cond.symbol :: value ∧ Escaped '\\' IsSeparator value a.value

/-- A text of an alternative, and an escape character with nothing after it. -/
def DanglingAlternative (s : Text) : Prop := ∃ a raw, AlternativeText a raw ∧ s = raw ++ ['\\']

theorem alternativeText_encode (a : Alternative) : AlternativeText a a.encode :=
  ⟨_, rfl, escaped_escape _ _ _⟩

theorem decode_cons {field : Text} (hfield : IsField field) {d : Char}
    (hd : hasPunctuation d = true) (cs : Text) :
    Alternative.decode (field ++ d :: cs) =
      (Alternative.new field [d] (readValue cs).1).map fun a => (a, (readValue cs).2) := by
  obtain ⟨htake, hdrop⟩ := takeWhile_field hfield hd cs
  rw [Alternative.decode, hdrop, htake]
  rcases h : Alternative.new field [d] (readValue cs).1 with e | a
  · show (do let a ← Alternative.new field [d] (readValue cs).1; .ok (a, (readValue cs).2)) = _
    rw [h]
    rfl
  · show (do let a ← Alternative.new field [d] (readValue cs).1; .ok (a, (readValue cs).2)) = _
    rw [h]
    rfl

/-- A text of an alternative is read as this alternative. -/
theorem decode_append {a : Alternative} {raw tail : Text} (h : AlternativeText a raw)
    (htail : Stops IsSeparator tail) :
    Alternative.decode (raw ++ tail) = .ok (a, afterBar tail) := by
  obtain ⟨value, rfl, hvalue⟩ := h
  rw [List.append_assoc, List.cons_append, decode_cons a.field_valid (hasPunctuation_symbol _),
    readValue_append hvalue, readValue_of_stops htail, List.append_nil, new_self]
  rfl

/-- Behind a lone escape character, `decode` reads the letters of
`undefined`. -/
theorem decode_dangling {a : Alternative} {raw : Text} (h : AlternativeText a raw) :
    Alternative.decode (raw ++ ['\\']) =
      .ok ({ a with value := a.value ++ "undefined".toList }, []) := by
  obtain ⟨value, rfl, hvalue⟩ := h
  rw [List.append_assoc, List.cons_append, decode_cons a.field_valid (hasPunctuation_symbol _),
    readValue_append hvalue]
  exact congrArg _ (new_self { a with value := a.value ++ "undefined".toList })

/-- What `decode` reads is the text of the alternative, or the text ends in a
lone escape character. -/
theorem decode_eq_ok {s rest : Text} {a : Alternative} (h : Alternative.decode s = .ok (a, rest)) :
    (∃ raw tail, AlternativeText a raw ∧ Stops IsSeparator tail ∧ s = raw ++ tail ∧
      rest = afterBar tail) ∨ (DanglingAlternative s ∧ rest = []) := by
  rcases exists_field s with hs | ⟨field, d, cs, rfl, hfield, hd⟩
  · have hdrop : s.dropWhile (fun c => !hasPunctuation c) = [] :=
      List.dropWhile_eq_nil_iff.2 fun c hc => by rw [hs c hc]; rfl
    rw [Alternative.decode, hdrop] at h
    cases h
  · rw [decode_cons hfield hd] at h
    rcases hnew : Alternative.new field [d] (readValue cs).1 with e | b
    · rw [hnew] at h
      cases h
    · rw [hnew] at h
      obtain ⟨rfl, rfl⟩ := Prod.mk.inj (Except.ok.inj h)
      obtain ⟨rfl, hsymbol, hvalue⟩ := new_eq_ok_iff.mp hnew
      obtain rfl := List.head_eq_of_cons_eq hsymbol
      obtain ⟨raw, v, tail, rfl, hraw, ⟨htail, hread⟩ | ⟨rfl, hread⟩⟩ := readValue_spec cs
      · rw [hread] at hvalue
        refine .inl ⟨_, tail, ⟨raw, rfl, hvalue ▸ hraw⟩, htail, ?_, congrArg Prod.snd hread⟩
        rw [List.append_assoc, List.cons_append]
      · refine .inr ⟨⟨{ b with value := v }, _, ⟨raw, rfl, hraw⟩, ?_⟩, congrArg Prod.snd hread⟩
        rw [List.append_assoc, List.cons_append]

/-- The texts of alternatives show where they end. -/
theorem selfDelimiting_alternativeText : SelfDelimiting AlternativeText IsSeparator where
  starts := by
    rintro a raw ⟨value, rfl, -⟩
    rcases hfield : a.field with - | ⟨c, cs⟩
    · exact ⟨_, value, rfl, not_isSeparator_symbol _⟩
    · have hc := a.field_valid c (hfield ▸ List.mem_cons_self)
      exact ⟨c, _, rfl, not_isSeparator_of_hasPunctuation hc⟩
  unique := by
    rintro a a' raw raw' tail tail' h h' htail htail' heq
    have hdecode := decode_append h htail
    rw [heq, decode_append h' htail'] at hdecode
    obtain ⟨rfl, -⟩ := Prod.mk.inj (Except.ok.inj hdecode)
    obtain ⟨value, rfl, hvalue⟩ := h
    obtain ⟨value', rfl, hvalue'⟩ := h'
    rw [List.append_assoc, List.append_assoc] at heq
    have hrest : value ++ tail = value' ++ tail' :=
      (List.cons.inj (List.append_cancel_left heq)).2
    have htake := takeEscaped_append not_isSeparator_escape hvalue (.inl htail)
    rw [hrest, takeEscaped_append not_isSeparator_escape hvalue' (.inl htail')] at htake
    obtain ⟨-, rfl⟩ := Prod.mk.inj htake
    obtain rfl := List.append_cancel_right hrest
    exact ⟨rfl, rfl⟩

/-- A text of an alternative is none that ends in a lone escape character. -/
theorem not_danglingAlternative {a : Alternative} {raw tail : Text} (h : AlternativeText a raw)
    (htail : Stops IsSeparator tail) : ¬ DanglingAlternative (raw ++ tail) := by
  rintro ⟨b, raw', ⟨value', rfl, hvalue'⟩, heq⟩
  obtain ⟨value, rfl, hvalue⟩ := h
  rw [List.append_assoc, List.append_assoc] at heq
  obtain ⟨hfield, hrest⟩ : a.field = b.field ∧ value ++ tail = value' ++ ['\\'] := by
    have ha := takeWhile_field a.field_valid (hasPunctuation_symbol a.cond) (value ++ tail)
    have hb := takeWhile_field b.field_valid (hasPunctuation_symbol b.cond) (value' ++ ['\\'])
    rw [List.cons_append, List.cons_append] at heq
    rw [heq] at ha
    exact ⟨ha.1.symm.trans hb.1, (List.cons.inj (ha.2.symm.trans hb.2)).2⟩
  have htake := takeEscaped_append not_isSeparator_escape hvalue (.inl htail)
  rw [hrest, takeEscaped_append not_isSeparator_escape hvalue' (.inr rfl)] at htake
  obtain ⟨-, rfl⟩ := Prod.mk.inj htake
  exact not_isSeparator_escape htail

theorem length_lt_of_decode {s rest : Text} {a : Alternative}
    (h : Alternative.decode s = .ok (a, rest)) : rest.length < s.length := by
  rcases decode_eq_ok h with ⟨raw, tail, ⟨value, rfl, -⟩, -, rfl, rfl⟩ | ⟨⟨b, raw, -, rfl⟩, rfl⟩
  · have := length_afterBar_le tail
    simp only [List.length_append, List.length_cons]
    omega
  · simp

end NostrMesh.Runes
