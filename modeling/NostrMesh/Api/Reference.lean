/-
NostrMesh/Api/Reference.lean

A library that satisfies `Library.Lawful`.

It is a finite table over something simple.  On the table, which covers the
upload of one file of two bytes and its deletion, it gives what AES-256-GCM,
SHA-256, `JSON.stringify` and the Nostr library give; elsewhere the cipher
leaves the data as it is, a digest is the data cut to 32 bytes, and a record
or an event is printed as its number in an enumeration.
`sampleServerLibrary` is the library of a Blossom server to go with it.
-/
import Mathlib.Data.List.Pairwise
import Mathlib.Data.Rat.Encodable
import Mathlib.Logic.Equiv.List
import Mathlib.Tactic.DeriveEncodable
import NostrMesh.Api.BlossomClient
import NostrMesh.Api.NostrClient

namespace NostrMesh.Api

/-! ### A cipher with a table -/

/-- A row of the table: one encryption. -/
structure CipherEntry where
  key : Bytes
  iv : Bytes
  data : Bytes
  encrypted : Bytes
  tag : Bytes
  deriving DecidableEq

/-- The tag of what is not in the table. -/
def noTag : Bytes := List.replicate 16 0

def tableCipher (entries : List CipherEntry) : Cipher where
  encrypt key iv data :=
    match entries.find? fun e => e.key = key ∧ e.iv = iv ∧ e.data = data with
    | some e => (e.encrypted, e.tag)
    | none => (data, noTag)
  decrypt key iv tag encrypted :=
    match entries.find? fun e =>
        e.key = key ∧ e.iv = iv ∧ e.tag = tag ∧ e.encrypted = encrypted with
    | some e => some e.data
    | none => if tag = noTag then some encrypted else none

/-- A table that uses no iv twice, with proper tags. -/
def GoodEntries (entries : List CipherEntry) : Prop :=
  (∀ e ∈ entries, e.tag ≠ noTag ∧ e.tag.length = 16) ∧
    entries.Pairwise fun e e' => e.iv ≠ e'.iv

instance (entries : List CipherEntry) : Decidable (GoodEntries entries) :=
  inferInstanceAs (Decidable (_ ∧ _))

/-- The cipher of a good table decrypts what it encrypts. -/
theorem tableCipher_inverts {entries : List CipherEntry} (h : GoodEntries entries) :
    (tableCipher entries).Inverts := by
  obtain ⟨htag, hpairwise⟩ := h
  have hiv : ∀ e ∈ entries, ∀ e' ∈ entries, e.iv = e'.iv → e = e' := by
    intro e he e' he' heq
    by_contra hne
    have : Std.Symm fun e e' : CipherEntry => e.iv ≠ e'.iv := ⟨fun _ _ h => h.symm⟩
    exact hpairwise.forall he he' hne heq
  constructor
  · intro key iv data _ _
    rcases he : entries.find? fun e => e.key = key ∧ e.iv = iv ∧ e.data = data with - | e
    · -- not in the table, and its tag is not either
      have hnone : (entries.find? fun e => e.key = key ∧ e.iv = iv ∧ e.tag = noTag ∧
          e.encrypted = data) = none := by
        refine List.find?_eq_none.mpr fun e hmem => ?_
        simp [(htag e hmem).1]
      simp only [tableCipher, he, hnone, if_true]
    · have hmem := List.mem_of_find?_eq_some he
      have hfit := List.find?_some he
      simp only [decide_eq_true_eq] at hfit
      obtain ⟨rfl, rfl, rfl⟩ := hfit
      rcases hd : entries.find? fun e' => e'.key = e.key ∧ e'.iv = e.iv ∧ e'.tag = e.tag ∧
          e'.encrypted = e.encrypted with - | e'
      · simpa using List.find?_eq_none.mp hd e hmem
      · have hfit' := List.find?_some hd
        simp only [decide_eq_true_eq] at hfit'
        obtain rfl := hiv e' (List.mem_of_find?_eq_some hd) e hmem hfit'.2.1
        simp only [tableCipher, he, hd]
  · intro key iv data _ _
    rcases he : entries.find? fun e => e.key = key ∧ e.iv = iv ∧ e.data = data with - | e
    · simp only [tableCipher, he, noTag, List.length_replicate]
    · simp only [tableCipher, he]
      exact (htag e (List.mem_of_find?_eq_some he)).2

/-! ### Records as texts -/

instance encodableChar : Encodable Char :=
  Encodable.ofLeftInverse Char.toNat Char.ofNat Char.ofNat_toNat

instance encodableString : Encodable String :=
  Encodable.ofLeftInverse String.toList String.ofList fun _ => String.ofList_toList

deriving instance Encodable for Js.Num
deriving instance Encodable for BlobMetadata
deriving instance Encodable for Event

section

variable {α : Type} [Encodable α]

/-- A text that no JSON text equals: a zero byte, and as many ones as the
number of the value. -/
def numberText (value : α) : Bytes := 0 :: List.replicate (Encodable.encode value) 1

def ofNumberText (text : Bytes) : Option α := Encodable.decode text.tail.length

theorem ofNumberText_numberText (value : α) : ofNumberText (numberText value) = some value := by
  simp [ofNumberText, numberText]

end

/-- The texts of some values, each starting with a brace. -/
structure TextTable (α : Type) where
  entries : List (α × Bytes)
  inj : ∀ e ∈ entries, ∀ e' ∈ entries, e.2 = e'.2 → e = e'
  brace : ∀ e ∈ entries, e.2.head? = some 0x7b

namespace TextTable

variable {α : Type} [Encodable α] [DecidableEq α] (T : TextTable α)

def stringify (value : α) : Bytes :=
  match T.entries.find? fun e => e.1 = value with
  | some e => e.2
  | none => numberText value

omit [DecidableEq α] in
def parse (text : Bytes) : Except String α :=
  match T.entries.find? fun e => e.2 = text with
  | some e => .ok e.1
  | none =>
      match ofNumberText text with
      | some value => .ok value
      | none => .error "Unexpected end of JSON input"

theorem parse_stringify (value : α) : T.parse (T.stringify value) = .ok value := by
  rcases he : T.entries.find? fun e => e.1 = value with - | e
  · have hnone : (T.entries.find? fun e => e.2 = numberText value) = none := by
      refine List.find?_eq_none.mpr fun e hmem => ?_
      have hbrace := T.brace e hmem
      simp only [decide_eq_true_eq]
      intro heq
      rw [heq] at hbrace
      simp [numberText] at hbrace
    simp only [parse, stringify, he, hnone, ofNumberText_numberText]
  · have hmem := List.mem_of_find?_eq_some he
    have hfit := List.find?_some he
    simp only [decide_eq_true_eq] at hfit
    rcases hd : T.entries.find? fun e' => e'.2 = e.2 with - | e'
    · simpa using List.find?_eq_none.mp hd e hmem
    · have hfit' := List.find?_some hd
      simp only [decide_eq_true_eq] at hfit'
      obtain rfl := T.inj e' (List.mem_of_find?_eq_some hd) e hmem hfit'
      simp only [parse, stringify, he, hd, hfit]

end TextTable

/-! ### One upload -/

/-- The key of the API. -/
def sampleSecret : String :=
  "0b529c8fa9968e18ada986bc72df276d910e943841e5c7c8cf268d888390b679"

def samplePubkey : String :=
  "87ba3a258367ea438900a86e70924f0446e7ef120a3d5b668f3ba56910ec993f"

def sampleHash : String :=
  "fc6ea9857c913117320cddde7e7446b8c1fff0b229e8740c0f4ce43f9811ed02"

/-- The key of the file. -/
def sampleKeyHex : String :=
  "6c3bcb0a06cd0294530e8c42fc07f03ba1a43551e291b2baf6b4df99da5ccace"

/-- The record of the file `hi.txt`. -/
def sampleMetadata : BlobMetadata where
  name := "hi.txt"
  hash := sampleHash
  size := (2 : ℤ)
  type := "text/plain"
  folder := "/"
  uploadedAt := (1700000000 : ℤ)
  server := "http://localhost:3000"
  encryptionKey := sampleKeyHex
  deleted := none

theorem isHash_sampleHash : Blossom.isHash sampleHash = true := by
  decide +kernel

theorem validateMetadata_sampleMetadata : validateMetadata sampleMetadata = .ok () := by
  decide +kernel

/-- The text of the record, deleted in the second `deletedAt`. -/
def sampleText (deletedAt : Option String) : Bytes := Bytes.ofText <|
  "\x7b\"name\":\"hi.txt\",\"hash\":\"" ++ sampleHash ++
  "\",\"size\":2,\"type\":\"text/plain\",\"folder\":\"/\",\"uploadedAt\":" ++
  deletedAt.getD "1700000000" ++
  ",\"server\":\"http://localhost:3000\",\"encryptionKey\":\"" ++ sampleKeyHex ++ "\"" ++
  (if deletedAt.isSome then ",\"deleted\":true" else "") ++ "\x7d"

def sampleMetadataKey : Bytes :=
  Bytes.ofHex "05c79ad486f54935b9a6dbaa6f063e2d900d3128b8c1b0b1e7bb93822be8759c"

/-- The encrypted payload of the file. -/
def samplePayload : Bytes := Bytes.ofHex
  "01d579f165d6e3669acd0e075c7888cbc733ae37bfb98361fcb624c6f0265e"

/-- The ivs: of the file, of its record, and of the record deleted in the
same second and one second later. -/
def sampleBlobIv : Bytes := Bytes.ofHex "d579f165d6e3669acd0e075c"

def sampleIv : Bytes := Bytes.ofHex "c138675bd37c7e49318264ab"

def sampleIvDeleted₀ : Bytes := Bytes.ofHex "ed434473ed2c4b2f3be57fb1"

def sampleIvDeleted₁ : Bytes := Bytes.ofHex "9cf528d3add1d7e6e5c11eea"

def sampleEntries : List CipherEntry :=
  [⟨Bytes.ofHex sampleKeyHex, sampleBlobIv, [0x68, 0x69],
      Bytes.ofHex "265e", Bytes.ofHex "7888cbc733ae37bfb98361fcb624c6f0"⟩,
    ⟨sampleMetadataKey, sampleIv, sampleText none,
      Bytes.ofHex "a38752b5b6f1774c5e225a80542a35b5916ba4401e5d5ed6430253f30f3013d4ac3f2045" ++
        Bytes.ofHex "e5a33e4747a114fb5871ea27bccd038360d8e60a52e117ee88c795cb792c0cce8b5c7a6e" ++
        Bytes.ofHex "640c289976b1935ed28716388ff18525627e84d0f27a91d9221c83546ec1bd3768d3e4c6" ++
        Bytes.ofHex "c765fbcaa479c39b2116984c65dbe28906b87438b10fa6639e98101496a49361c2a6dfbf" ++
        Bytes.ofHex "8a6582c0e636d8ed24ff90d5b9775c9f3ce1ec5571b17a9a2bced6e2e5b808f98d9bdcfc" ++
        Bytes.ofHex "6b04fc35a630b16eef9a288fcea5f8192c81b395faab20f5a10df7c4f2a75d990a442331" ++
        Bytes.ofHex "44c26aa07f191763e7ca927d0581c1e92e4dc7e651d4d0ff9aa6faf2d893542e4d71126d" ++
        Bytes.ofHex "6962a77e15a061964af3e3fc2e4754c8463de98a39",
      Bytes.ofHex "8346ec64a392e7ec44c680f2b021a399"⟩,
    ⟨sampleMetadataKey, sampleIvDeleted₀, sampleText (some "1700000000"),
      Bytes.ofHex "50eadd92256b3569627a266a396a5f95a34c001be108736e580a8cd5219e94f9c5ad6a4e" ++
        Bytes.ofHex "6a75c9e217bf3d653fe7d58772aa16e5bd795a6b3a212a1c8b3343794b4d2aef65f469c5" ++
        Bytes.ofHex "bd9937eb4cedba95922438e79fbe0b83a8112577ee4f2fa23bfdac13159d9d749d3069d0" ++
        Bytes.ofHex "1367d64fc891b56ac79f18adece7dc430a553a90404235a5fad114ca9edac5c6e6cc81e9" ++
        Bytes.ofHex "05a31db10f0085633ef3382a8dfbff2221ed5934e4606c05f2f94a753ee08ad5055f3322" ++
        Bytes.ofHex "cdbfcce3f9e3223e0760c5e708e1dad4a95fbdee5440c555b932268aaaca141c46b21325" ++
        Bytes.ofHex "d6d2f6f3663ced75e82172381653a2dea07c41e6869f0d3e00fc937690310a73a77bb93b" ++
        Bytes.ofHex "6165375cb010f3139ecfdbe51c3d98302f637bd897a8fde9ce7468e30ea19eccbe872203",
      Bytes.ofHex "2c5f15e45dc9170d50164a803ac027f3"⟩,
    ⟨sampleMetadataKey, sampleIvDeleted₁, sampleText (some "1700000001"),
      Bytes.ofHex "516a861064f85f847588d86561fbf4be695a21478984a4e87b17c3f11a7fb36f241c8910" ++
        Bytes.ofHex "26a3e9c9fc5fba1efbc337cbfa6e1b4a72843b4b8967e871ce8854ff809149c76513631b" ++
        Bytes.ofHex "76e596a7847376cb2917c4b9875bee0675fbea28d34f5f1691225b495a16858af8945533" ++
        Bytes.ofHex "15219c6ffb065be305cd8d36d6bffdae74670ca5d625f1f42acb68395e99b433a64db85a" ++
        Bytes.ofHex "4648fab1753b2f0ee95477ca6130be81c2f027077bacd43149f839e8ced8847f6c3b7772" ++
        Bytes.ofHex "b2268b26d7d6c6e69de9f88c158e1247bd76f357a85768ea0fb4f5abfa798d1a3de642f8" ++
        Bytes.ofHex "23a5b28566392e82d546f7d157eefc5ce2611a22647a51c94dc4721eda0baf0174eea5e5" ++
        Bytes.ofHex "54ed54067d893672006c19ada06647dcc2440c8c27acd110944da757d9c71aa094b0a55c",
      Bytes.ofHex "39bea25966a368bff67c58f7eaa67345"⟩]

theorem sampleEntries_good : GoodEntries sampleEntries := by decide +kernel

def sampleTexts : TextTable BlobMetadata where
  entries :=
    [(sampleMetadata, sampleText none),
      (softDeleted 1700000000 sampleMetadata, sampleText (some "1700000000")),
      (softDeleted 1700000001 sampleMetadata, sampleText (some "1700000001"))]
  inj := by decide +kernel
  brace := by decide +kernel

/-- The authorization events of the upload and of a download in the second
of the upload. -/
def sampleUploadAuth : Event where
  id := "0df1bda0c71db11b3da37e77cda1787b117ef07a31d637da9560fc84edc338bf"
  pubkey := samplePubkey
  createdAt := 1700000000
  kind := authKind
  tags := [["t", "upload"], ["expiration", "1700000060"]]
  content := "Upload hi.txt"
  sig := "f2b94275c1a05d59adaacc1b31cf25c9d7b359060ba704c4dfb7593c8301900d" ++
    "9fbd36d540c2ac108b7b3c72c71cc613bf56859f920608f38ee0aa7e553eec1f"

def sampleGetAuth : Event where
  id := "81787607d1a0a2ae57ee8e38a88eb1731425c57bd700835d881b16db6fa2620b"
  pubkey := samplePubkey
  createdAt := 1700000000
  kind := authKind
  tags := [["t", "get"], ["expiration", "1700000060"]]
  content := "Get " ++ sampleHash
  sig := "8387c757e6f3b2da6f50f9986bb107b00e2a09e0fdbbea86a075edba1e5d2992" ++
    "d197e1654cfc497ce93d445b3340c6594e5b3b03bf9f2340e4cf4f3fb4d813a0"

/-- The text of an authorization event. -/
def sampleAuthText (verb : String) (event : Event) : Bytes := Bytes.ofText <|
  "\x7b\"kind\":24242,\"created_at\":1700000000,\"tags\":[[\"t\",\"" ++ verb ++
  "\"],[\"expiration\",\"1700000060\"]],\"content\":\"" ++ event.content ++
  "\",\"pubkey\":\"" ++ event.pubkey ++ "\",\"id\":\"" ++ event.id ++
  "\",\"sig\":\"" ++ event.sig ++ "\"\x7d"

def sampleEventTexts : TextTable Event where
  entries :=
    [(sampleUploadAuth, sampleAuthText "upload" sampleUploadAuth),
      (sampleGetAuth, sampleAuthText "get" sampleGetAuth)]
  inj := by decide +kernel
  brace := by decide +kernel

/-- The ids of the authorization events and of the events that carry the
three records; the two of the first second differ in the length of their
content. -/
def sampleEventHash (template : EventTemplate) : String :=
  if template.kind = authKind then
    if template.content = sampleUploadAuth.content then sampleUploadAuth.id else sampleGetAuth.id
  else if template.createdAt = 1700000001 then
    "c9423450c70f18472c97cae8897a8b90210c06231c2b61110e4b772a2763c573"
  else if template.content.toList.length = 404 then
    "ee8bbf65640133396ab7673331c6ff9c54db2b4d4dbfedc74dd07273be91f898"
  else
    "cd23fb6b2961d53ac688226d518d154d6445789d707cab56a3600a3c4102cfa8"

/-- The signatures, by id. -/
def sampleSign (id : String) : String :=
  if id = sampleUploadAuth.id then sampleUploadAuth.sig
  else if id = sampleGetAuth.id then sampleGetAuth.sig
  else if id = "ee8bbf65640133396ab7673331c6ff9c54db2b4d4dbfedc74dd07273be91f898" then
    "f0492af2767783f5e7f655383e9a46923346521b6c9e6eda3d9d921014d68a99" ++
      "b2d5da57e08d4cd318251d7c6dffaec2c8a5baa8a8d32fcbe107cbc2485c9e06"
  else if id = "cd23fb6b2961d53ac688226d518d154d6445789d707cab56a3600a3c4102cfa8" then
    "894244a5ac8cace2737983eaeba5c3c238d258289cf6cdcb4a44eec07b04e4ee" ++
      "74b29ea3f71e7c660863aff5c3ae8ae21977a05ac61b255672225689ba423623"
  else
    "32cf54d6d0c7f65db11defbac22c97885fe8409d50ce86d6e63468063bcec590" ++
      "83b17ce49dcb4c5cd6b9e94e7c9a96d6e481df29ee72352d7393c3b3d4fa1d5b"

/-- SHA-256 of the text that the metadata key is derived from, and of the
payload of the file. -/
def sampleSha256 (data : Bytes) : Bytes :=
  if data = Bytes.ofText ("nostrmesh:metadata:" ++ sampleSecret) then sampleMetadataKey
  else if data = samplePayload then Bytes.ofHex sampleHash
  else (data ++ List.replicate 32 0).take 32

def sampleLibrary : Library where
  cipher := tableCipher sampleEntries
  sha256 := sampleSha256
  stringify := sampleTexts.stringify
  parse := sampleTexts.parse
  stringifyEvent := sampleEventTexts.stringify
  getPublicKey secretKey :=
    if secretKey = Bytes.ofHex sampleSecret then .ok samplePubkey
    else .error "Expected 32 bytes of private key"
  getEventHash _ template := sampleEventHash template
  sign _ id := sampleSign id

theorem sampleLibrary_lawful : sampleLibrary.Lawful where
  inverts := tableCipher_inverts sampleEntries_good
  length_sha256 data := by
    simp only [sampleLibrary, sampleSha256]
    split
    · decide
    · split
      · decide
      · simp
  parse_stringify metadata _ _ := sampleTexts.parse_stringify metadata

/-- The server reads the texts of events and checks their signatures. -/
def sampleServerLibrary : Blossom.Library where
  sha256 := sampleSha256
  parseJson text := (sampleEventTexts.parse text).toOption.map authEvent
  verifyEvent event := .ok (Json.asString (event.prop "sig") =
    some (sampleSign ((Json.asString (event.prop "id")).getD "")))
  textOf _ := ""

def sampleServer : Blossom.Config := ⟨"http://localhost:3000", 104857600, [], true, 30⟩

theorem sampleEventHash_ne_empty (template : EventTemplate) : sampleEventHash template ≠ "" := by
  unfold sampleEventHash
  split_ifs <;> decide

theorem sampleSign_ne_empty (id : String) : sampleSign id ≠ "" := by
  unfold sampleSign
  split_ifs <;> decide +kernel

theorem sampleLibrary_compatible : Compatible sampleLibrary sampleServerLibrary where
  sha256 := rfl
  parse_stringify event := by
    have hparse := sampleEventTexts.parse_stringify event
    simp only [sampleServerLibrary, sampleLibrary, hparse, Except.toOption, Option.map_some]
  verifyEvent _ _ _ _ := by
    simp [sampleServerLibrary, sampleLibrary, authEvent, signedEvent, Json.prop]
  complete _ _ template hpubkey := by
    refine ⟨sampleEventHash_ne_empty template, sampleSign_ne_empty _, ?_⟩
    simp only [sampleLibrary] at hpubkey
    split_ifs at hpubkey
    rw [← Except.ok.inj hpubkey]
    decide

/-- The event that the API builds from a record. -/
def sampleEventOf (iv : Bytes) (now : ℤ) (metadata : BlobMetadata) : Event :=
  signedEvent sampleLibrary samplePubkey (Bytes.ofHex sampleSecret)
    (metadataTemplate sampleLibrary iv now metadata sampleSecret)

theorem buildMetadataEvent_sample {metadata : BlobMetadata} (iv : Bytes) (now : ℤ)
    (h : validateMetadata metadata = .ok ()) :
    buildMetadataEvent sampleLibrary iv now metadata sampleSecret
      = .ok (sampleEventOf iv now metadata) :=
  buildMetadataEvent_eq_ok_iff.mpr
    ⟨h, Bytes.ofHex sampleSecret, samplePubkey, by decide +kernel, by decide +kernel, rfl⟩

end NostrMesh.Api
