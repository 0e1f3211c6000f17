/-
NostrMesh/Payments/PublicKey.lean

Whether the public key of an invoice is the one that the request named.

A key in hexadecimal is checked to have 64 digits.  An npub is decoded by the
`bech32` package; its prefix is only compared with the start of the text it
was taken from, and of its data the first 32 bytes are kept, however many
there are.

Main result: `namesRealKey_iff`.
-/
import NostrMesh.Lib.Bech32
import NostrMesh.Payments.OwnInvoice

namespace NostrMesh.Payments

open Json (Value)

/-! ### The package `bech32` -/

structure Bech32Package where
  decode : String → Except String (String × List Bech32.Word)
  encode : String → List Bech32.Word → Except String String
  toWords : Bytes → List Bech32.Word
  fromWords : List Bech32.Word → Except String Bytes

/-- What the package promises: what is written is read again, the checksum
lets pass what has been written, a text has one case, and the regrouping of
bytes into words can be undone. -/
structure Bech32Package.Documented (B : Bech32Package) : Prop where
  decode_encode : ∀ {pre words text}, pre ≠ "" → Js.toLowerCase pre = pre →
    B.encode pre words = .ok text → B.decode text = .ok (pre, words)
  encode_of_decode : ∀ {pre words text}, Js.toLowerCase text = text →
    B.decode text = .ok (pre, words) → B.encode pre words = .ok text
  startsWith_of_encode : ∀ {pre words text}, Js.toLowerCase pre = pre →
    B.encode pre words = .ok text → Js.startsWith text pre = true
  prefix_lower : ∀ {pre words text}, B.decode text = .ok (pre, words) → Js.toLowerCase pre = pre
  one_case : ∀ {pre words text}, B.decode text = .ok (pre, words) →
    Js.toLowerCase text = text ∨ text.toList.map Char.toUpper = text.toList
  fromWords_eq_ok_iff : ∀ {words data}, B.fromWords words = .ok data ↔ words = B.toWords data

variable {B : Bech32Package} {body : Value} {pubkey npub : String}

/-- `bech32.decode` and `bech32.fromWords`, as `fromBech32` uses them. -/
def Bech32Package.decodeData (B : Bech32Package) (text : String) : Except String (String × Bytes) := do
  let (pre, words) ← B.decode text
  let data ← B.fromWords words
  .ok (pre, data)

/-- `toBech32(prefix)(input)`. -/
def Bech32Package.toBech32 (B : Bech32Package) (pre input : String) : Except String String :=
  B.encode pre (B.toWords (Bytes.ofHex input))

theorem decodeData_eq_ok_iff {pre : String} {data : Bytes} :
    B.decodeData npub = .ok (pre, data) ↔
      ∃ words, B.decode npub = .ok (pre, words) ∧ B.fromWords words = .ok data := by
  rw [Bech32Package.decodeData]
  rcases hdecode : B.decode npub with e | ⟨pre', words⟩
  · exact ⟨nofun, fun ⟨_, h, _⟩ => nomatch h⟩
  · show (do let data ← B.fromWords words; .ok (pre', data)) = _ ↔ _
    rcases hwords : B.fromWords words with e | data'
    · constructor
      · exact nofun
      · rintro ⟨ws, h, hws⟩
        cases h
        rw [hwords] at hws
        cases hws
    · constructor
      · intro h
        cases h
        exact ⟨words, rfl, hwords⟩
      · rintro ⟨ws, h, hws⟩
        cases h
        rw [hwords] at hws
        cases hws
        rfl

/-! ### The property -/

/-- Past the check of the public key: it has 64 digits, and it is written as
the npub of the request, if this gave one. -/
def NamesRealKey (B : Bech32Package) (body : Value) : Prop :=
  ∀ pubkey, requestPubkey B.decodeData (body.prop "pubkey") = .ok pubkey →
    isHexPubkey pubkey = true ∧
      ∀ npub, Json.asString (body.prop "pubkey") = some npub →
        Js.startsWith npub "npub1" = true → B.toBech32 "npub" pubkey = .ok npub

/-- An npub that decodes has the prefix `npub` and 32 bytes of data. -/
def ProperNpub (B : Bech32Package) (body : Value) : Prop :=
  ∀ npub pre words data, Json.asString (body.prop "pubkey") = some npub →
    Js.startsWith npub "npub1" = true → B.decode npub = .ok (pre, words) →
    B.fromWords words = .ok data → pre = "npub" ∧ data.length = 32

/-! ### Keys -/

theorem isHexPubkey_toHex_iff {data : Bytes} :
    isHexPubkey (Bytes.toHex data) = true ↔ data.length = 32 := by
  have hall : (Bytes.hexChars data).all Bytes.isLowerHex = true :=
    List.all_eq_true.mpr fun c hc => Bytes.isLowerHex_hexChars hc
  rw [isHexPubkey, Bytes.toHex, String.toList_ofList, hall, Bool.and_true, decide_eq_true_eq,
    Bytes.length_hexChars]
  omega

/-- No key in hexadecimal starts like an npub. -/
theorem not_startsWith_npub (h : isHexPubkey pubkey = true) :
    Js.startsWith pubkey "npub1" = false := by
  rw [Bool.eq_false_iff]
  intro hnpub
  obtain ⟨rest, hrest⟩ := List.isPrefixOf_iff_prefix.mp hnpub
  rw [isHexPubkey, Bool.and_eq_true, List.all_eq_true] at h
  have hn := h.2 'n' (hrest ▸ by simp)
  exact absurd hn (by decide)

/-- An npub is in lower case. -/
theorem toLowerCase_npub (hB : B.Documented) (hnpub : Js.startsWith npub "npub1" = true)
    {pre : String} {words : List Bech32.Word} (h : B.decode npub = .ok (pre, words)) :
    Js.toLowerCase npub = npub := by
  refine (hB.one_case h).resolve_right fun hupper => ?_
  obtain ⟨rest, hrest⟩ := List.isPrefixOf_iff_prefix.mp hnpub
  rw [← hrest] at hupper
  have hhead := congrArg List.head? hupper
  exact absurd hhead (by simp)

/-- The comparison of the prefix lets every npub pass. -/
theorem requestPubkey_npub (hB : B.Documented) {raw : Value} (hraw : Json.asString raw = some npub)
    (hnpub : Js.startsWith npub "npub1" = true) {pre : String} {words : List Bech32.Word}
    {data : Bytes} (hdecode : B.decode npub = .ok (pre, words))
    (hwords : B.fromWords words = .ok data) :
    requestPubkey B.decodeData raw = .ok (Bytes.toHex (data.take 32)) := by
  have hlower := toLowerCase_npub hB hnpub hdecode
  have hstarts : Js.startsWith npub pre = true :=
    hB.startsWith_of_encode (hB.prefix_lower hdecode) (hB.encode_of_decode hlower hdecode)
  have hhex : ¬ isHexPubkey npub = true := fun hhex => by
    rw [not_startsWith_npub hhex] at hnpub
    cases hnpub
  have hdata : B.decodeData npub = .ok (pre, data) :=
    decodeData_eq_ok_iff.mpr ⟨words, hdecode, hwords⟩
  simp only [requestPubkey, hraw]
  rw [if_neg hhex, if_pos hnpub, fromBech32, hdata]
  dsimp only
  rw [hstarts]
  rfl

/-- Past the check, the key was given in hexadecimal or taken from an npub. -/
theorem requestPubkey_eq_ok {raw : Value} (h : requestPubkey B.decodeData raw = .ok pubkey) :
    ∃ given, Json.asString raw = some given ∧
      (given = pubkey ∧ isHexPubkey pubkey = true ∨
        Js.startsWith given "npub1" = true ∧ ∃ pre words data,
          B.decode given = .ok (pre, words) ∧ B.fromWords words = .ok data ∧
            pubkey = Bytes.toHex (data.take 32)) := by
  simp only [requestPubkey] at h
  rcases hgiven : Json.asString raw with - | given
  · simp [hgiven] at h
  simp only [hgiven] at h
  refine ⟨given, rfl, ?_⟩
  split at h
  · next hhex =>
    obtain rfl := Except.ok.inj h
    exact .inl ⟨rfl, hhex⟩
  split at h
  · next hnpub =>
    rw [fromBech32] at h
    rcases hdata : B.decodeData given with e | ⟨pre, data⟩
    · rw [hdata] at h
      cases h
    rw [hdata] at h
    obtain ⟨words, hdecode, hwords⟩ := decodeData_eq_ok_iff.mp hdata
    by_cases hstarts : Js.startsWith given pre = true
    · simp only [hstarts, Bool.not_true, Bool.false_eq_true, if_false, Except.ok.injEq] at h
      exact .inr ⟨hnpub, pre, words, data, hdecode, hwords, h.symm⟩
    · simp [hstarts] at h
  · cases h

/-- **The public key of an invoice** is the one that the request named exactly
if an npub that decodes is the npub of a key. -/
theorem namesRealKey_iff (hB : B.Documented) (body : Value) :
    NamesRealKey B body ↔ ProperNpub B body := by
  constructor
  · intro h npub pre words data hgiven hnpub hdecode hwords
    obtain ⟨hhex, hwritten⟩ := h _ (requestPubkey_npub hB hgiven hnpub hdecode hwords)
    have hencode := hwritten npub hgiven hnpub
    rw [Bech32Package.toBech32, Bytes.ofHex_toHex] at hencode
    -- what is written from the first 32 bytes is the npub, so these are all
    have hagain := hB.decode_encode (by decide) (by decide) hencode
    rw [hdecode] at hagain
    obtain ⟨hpre, hsame⟩ := Prod.mk.inj (Except.ok.inj hagain)
    have htake : data = data.take 32 := by
      have := hB.fromWords_eq_ok_iff.mpr hsame
      rw [hwords] at this
      exact Except.ok.inj this
    exact ⟨hpre, htake ▸ isHexPubkey_toHex_iff.mp hhex⟩
  · intro h pubkey hpubkey
    obtain ⟨given, hgiven, ⟨rfl, hhex⟩ | ⟨hnpub, pre, words, data, hdecode, hwords, rfl⟩⟩ :=
      requestPubkey_eq_ok hpubkey
    · refine ⟨hhex, fun npub hgiven' hnpub => ?_⟩
      obtain rfl := Option.some.inj (hgiven.symm.trans hgiven')
      rw [not_startsWith_npub hhex] at hnpub
      cases hnpub
    · obtain ⟨rfl, hlen⟩ := h given pre words data hgiven hnpub hdecode hwords
      have htake : data.take 32 = data := List.take_of_length_le hlen.le
      rw [htake]
      refine ⟨isHexPubkey_toHex_iff.mpr hlen, fun npub hgiven' _ => ?_⟩
      obtain rfl := Option.some.inj (hgiven.symm.trans hgiven')
      rw [Bech32Package.toBech32, Bytes.ofHex_toHex, ← hB.fromWords_eq_ok_iff.mp hwords]
      exact hB.encode_of_decode (toLowerCase_npub hB hnpub hdecode) hdecode

/-! ### The format itself -/

/-- The text format that the package implements. -/
def bech32 : Bech32Package where
  decode text := (Bech32.decode text.toList).map fun r => (String.ofList r.1, r.2)
  encode pre words := (Bech32.encode pre.toList words).map String.ofList
  toWords := Bech32.toWords
  fromWords := Bech32.fromWords

theorem bech32_fromWords (data : Bytes) : bech32.fromWords (Bech32.toWords data) = .ok data :=
  Bech32.fromWords_toWords data

theorem ofList_eq_iff {cs : List Char} {s : String} : String.ofList cs = s ↔ cs = s.toList := by
  rw [← String.toList_inj, String.toList_ofList]

theorem toLowerCase_eq_iff {s : String} :
    Js.toLowerCase s = s ↔ s.toList.map Char.toLower = s.toList := by
  rw [Js.toLowerCase, ofList_eq_iff]

theorem documented_bech32 : bech32.Documented := by
  have hdecode : ∀ {text pre words}, bech32.decode text = .ok (pre, words) ↔
      Bech32.decode text.toList = .ok (pre.toList, words) := by
    intro text pre words
    rcases h : Bech32.decode text.toList with e | ⟨cs, ws⟩
    · simp [bech32, h, Except.map]
    · simp [bech32, h, Except.map, ofList_eq_iff]
  have hencode : ∀ {text pre words}, bech32.encode pre words = .ok text ↔
      Bech32.encode pre.toList words = .ok text.toList := by
    intro text pre words
    rcases h : Bech32.encode pre.toList words with e | cs
    · simp [bech32, h, Except.map]
    · simp [bech32, h, Except.map, ofList_eq_iff]
  exact
    { decode_encode := fun hpre hlower h =>
        hdecode.mpr (Bech32.decode_encode (by simpa using hpre) (toLowerCase_eq_iff.mp hlower)
          (hencode.mp h))
      encode_of_decode := fun hlower h =>
        hencode.mpr (Bech32.encode_of_decode (toLowerCase_eq_iff.mp hlower) (hdecode.mp h))
      startsWith_of_encode := fun hlower h =>
        List.isPrefixOf_iff_prefix.mpr
          (Bech32.prefix_of_encode (toLowerCase_eq_iff.mp hlower) (hencode.mp h))
      prefix_lower := fun h => toLowerCase_eq_iff.mpr (Bech32.prefix_lower (hdecode.mp h))
      one_case := fun h =>
        (Bech32.case_of_decode (hdecode.mp h)).imp_left toLowerCase_eq_iff.mpr
      fromWords_eq_ok_iff := Bech32.fromWords_eq_ok_iff }

/-- The body with this public key. -/
def keyBody (pubkey : String) : Value := some (.obj [("pubkey", .str pubkey)])

theorem namesRealKey_key : NamesRealKey bech32
    (keyBody "npub180cvv07tjdrrgpa0j7j7tmnyl2yr6yr7l8j4s3evf6u64th6gkwsyjh6w6") := by
  have hdecode : bech32.decode "npub180cvv07tjdrrgpa0j7j7tmnyl2yr6yr7l8j4s3evf6u64th6gkwsyjh6w6" =
      .ok ("npub", Bech32.toWords (Bytes.ofHex
        "3bf0c63fcb93463407af97a5e5ee64fa883d107ef9e558472c4eb9aaaefa459d")) := by decide +kernel
  refine (namesRealKey_iff documented_bech32 _).mpr ?_
  intro npub pre words data hgiven _ hdecode' hwords
  obtain rfl : _ = npub := Option.some.inj hgiven
  rw [hdecode] at hdecode'
  obtain ⟨rfl, rfl⟩ := Prod.mk.inj (Except.ok.inj hdecode')
  rw [bech32_fromWords] at hwords
  obtain rfl := Except.ok.inj hwords
  exact ⟨rfl, by decide +kernel⟩

/-- An npub of 20 bytes gives a key of 40 digits. -/
theorem not_namesRealKey_short : ¬ NamesRealKey bech32
    (keyBody "npub180cvv07tjdrrgpa0j7j7tmnyl2yr6yr77nu6j2") := by
  have hdecode : bech32.decode "npub180cvv07tjdrrgpa0j7j7tmnyl2yr6yr77nu6j2" =
      .ok ("npub", Bech32.toWords (Bytes.ofHex "3bf0c63fcb93463407af97a5e5ee64fa883d107e")) := by
    decide +kernel
  have hpubkey : requestPubkey bech32.decodeData
      (some (.str "npub180cvv07tjdrrgpa0j7j7tmnyl2yr6yr77nu6j2")) = _ :=
    requestPubkey_npub documented_bech32 rfl (by decide) hdecode (bech32_fromWords _)
  intro h
  have hlen := isHexPubkey_toHex_iff.mp (h _ hpubkey).1
  exact absurd hlen (by decide +kernel)

end NostrMesh.Payments
