/-
NostrMesh/Lib/Json.lean

JSON values as a JavaScript program reads them.

A property that is not there reads as `undefined`, so that reading gives a
`Value`: a JSON value, or none.  `toBigInt` is the function `BigInt`; the text
of an array or an object, which it asks for, is a parameter.
-/
import NostrMesh.Lib.Js

/-- A JSON value; the keys of an object differ. -/
inductive Json
  | null
  | bool (b : Bool)
  | num (n : Js.Num)
  | str (s : String)
  | arr (items : List Json)
  | obj (fields : List (String × Json))

namespace Json

/-- What an expression evaluates to: `none` is `undefined`. -/
abbrev Value := Option Json

/-! ### Properties -/

/-- `prop(name)`. -/
def prop (name : String) : Json → Value
  | obj fields => (fields.find? fun field => field.1 = name).map Prod.snd
  | _ => none

/-- `prop(name)` of a value that may be undefined. -/
def Value.prop (name : String) (v : Value) : Value := v.bind (Json.prop name)

/-- `path(names)`. -/
def path (names : List String) (v : Json) : Value :=
  names.foldl (fun v name => Value.prop name v) (some v)

/-- An object literal; a property that is undefined reads as if it were not
there. -/
def ofFields (fields : List (String × Value)) : Json :=
  obj (fields.filterMap fun field => field.2.map fun v => (field.1, v))

/-- `is(String)`. -/
def asString : Value → Option String
  | some (str s) => some s
  | _ => none

@[simp] theorem asString_str (s : String) : asString (some (str s)) = some s := rfl

@[simp] theorem asString_null : asString (some null) = none := rfl

/-- `is(Number)`. -/
def asNumber : Value → Option Js.Num
  | some (num n) => some n
  | _ => none

theorem prop_ofFields {fields : List (String × Value)} (hkeys : (fields.map Prod.fst).Nodup)
    (name : String) : prop name (ofFields fields) =
      (fields.find? fun field => field.1 = name).bind Prod.snd := by
  induction fields with
  | nil => rfl
  | cons field fields ih =>
      obtain ⟨hnew, hrest⟩ := List.nodup_cons.mp hkeys
      have ih := ih hrest
      rw [ofFields, prop] at ih
      rw [ofFields, prop, List.filterMap_cons, List.find?_cons]
      by_cases hname : field.1 = name
      · rcases hvalue : field.2 with - | v
        · -- no later field has the same key
          have hnone : fields.find? (fun field => field.1 = name) = none := by
            refine List.find?_eq_none.mpr fun field' hmem heq => hnew ?_
            rw [hname, ← of_decide_eq_true heq]
            exact List.mem_map_of_mem hmem
          simp only [Option.map_none, ih, hnone, hname, decide_true, Option.bind_some, hvalue,
            Option.bind_none]
        · simp only [Option.map_some, List.find?_cons, hname, decide_true, Option.bind_some, hvalue]
      · rcases hvalue : field.2 with - | v
        · simp only [Option.map_none, ih, hname, decide_false]
        · simp only [Option.map_some, List.find?_cons, ih, hname, decide_false]

/-- `v[n]`, unless it throws.  An item of a text is one of its characters. -/
def item (n : ℕ) : Json → Except String Value
  | null => .error "Cannot read properties of null"
  | arr items => .ok items[n]?
  | str s => .ok (s.toList[n]?.map fun c => str (String.singleton c))
  | obj fields => .ok (prop (toString n) (obj fields))
  | bool _ | num _ => .ok none

/-- A value as a condition. -/
def truthy : Value → Bool
  | none | some null => false
  | some (bool b) => b
  | some (num (.finite q)) => q ≠ 0
  | some (num .nan) => false
  | some (num _) => true
  | some (str s) => s ≠ ""
  | some (arr _) | some (obj _) => true

/-- `String(v)`, the texts of other values being given. -/
def toText (textOf : Json → String) : Json → String
  | str s => s
  | v => textOf v

@[simp] theorem toText_str (textOf : Json → String) (s : String) : toText textOf (str s) = s := rfl

theorem asString_eq_some_iff {v : Value} {s : String} : asString v = some s ↔ v = some (str s) := by
  rcases v with - | v
  · simp [asString]
  · cases v <;> simp [asString]

theorem asNumber_eq_some_iff {v : Value} {n : Js.Num} :
    asNumber v = some n ↔ v = some (num n) := by
  rcases v with - | v
  · simp [asNumber]
  · cases v <;> simp [asNumber]

@[simp] theorem item_arr (n : ℕ) (items : List Json) : item n (arr items) = .ok items[n]? := rfl

@[simp] theorem truthy_str (s : String) : truthy (some (str s)) = decide (s ≠ "") := rfl

/-! ### `BigInt` -/

def allDigits (radix : ℕ) (cs : List Char) : Option ℕ :=
  let digits := Js.leadingDigits radix cs
  if cs ≠ [] ∧ digits.length = cs.length then some (Js.ofDigits radix digits) else none

/-- `BigInt(text)`: a decimal text with an optional sign, a text in another
radix, or a blank one. -/
def bigIntOfText (text : String) : Except String ℤ :=
  let value := match (Js.trim text).toList with
    | [] => some 0
    | '0' :: 'x' :: cs => (allDigits 16 cs).map Int.ofNat
    | '0' :: 'X' :: cs => (allDigits 16 cs).map Int.ofNat
    | '0' :: 'o' :: cs => (allDigits 8 cs).map Int.ofNat
    | '0' :: 'O' :: cs => (allDigits 8 cs).map Int.ofNat
    | '0' :: 'b' :: cs => (allDigits 2 cs).map Int.ofNat
    | '0' :: 'B' :: cs => (allDigits 2 cs).map Int.ofNat
    | '-' :: cs => (allDigits 10 cs).map fun n => -(n : ℤ)
    | '+' :: cs => (allDigits 10 cs).map Int.ofNat
    | cs => (allDigits 10 cs).map Int.ofNat
  match value with
  | some n => .ok n
  | none => .error ("Cannot convert " ++ text ++ " to a BigInt")

/-- `BigInt(v)`. -/
def toBigInt (textOf : Json → String) : Value → Except String ℤ
  | none => .error "Cannot convert undefined to a BigInt"
  | some null => .error "Cannot convert null to a BigInt"
  | some (bool b) => .ok (if b then 1 else 0)
  | some (num (.finite q)) =>
      if q.den = 1 then .ok q.num
      else .error "The number cannot be converted to a BigInt because it is not an integer"
  | some (num _) => .error "The number cannot be converted to a BigInt because it is not an integer"
  | some (str s) => bigIntOfText s
  | some (arr items) => bigIntOfText (textOf (arr items))
  | some (obj fields) => bigIntOfText (textOf (obj fields))

@[simp] theorem toBigInt_intCast (textOf : Json → String) (n : ℤ) :
    toBigInt textOf (some (num n)) = .ok n := by
  simp [toBigInt]

end Json
