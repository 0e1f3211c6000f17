/-
NostrMesh/Api/SecretKey.lean

The secret key of the API over its restarts.

A start takes the key from the environment, into which dotenv has loaded the
`.env` file, and draws and stores one if there is none.  Two readers decide on
the file: dotenv says what the key is, and a regular expression whether a line
for it is there.  A line that holds no key stops the new one from being
stored, and so does a variable of the environment that holds none.

Main results: `survivesRestart_iff`, and `keys_eq_of_keyKept` over any number
of starts.
-/
import NostrMesh.Api.Metadata
import NostrMesh.Blossom.Server

namespace NostrMesh.Api

/-! ### A start of the API -/

/-- `isValidSecretHex`. -/
def isValidSecretHex (secret : String) : Bool := isHex64 secret

/-- The characters after which `^` matches in a text of several lines. -/
def isLineTerminator (c : Char) : Bool := c.toNat ∈ [0x0A, 0x0D, 0x2028, 0x2029]

def secretName : String := "NOSTR_SECRET_KEY="

/-- `/^NOSTR_SECRET_KEY=/m.test(existing)`. -/
def hasSecretLine (existing : String) : Bool :=
  (existing.toList.splitOnP isLineTerminator).any secretName.toList.isPrefixOf

/-- The `.env` file after `persistSecret`; `none` if there is no such file. -/
def persistSecret (secret : String) (envFile : Option String) : String :=
  match envFile with
  | none => secretName ++ secret ++ "\n"
  | some existing =>
      if hasSecretLine existing then existing else existing ++ ("\n" ++ secretName ++ secret ++ "\n")

/-- `getOrCreateSecretKey`, with the variable of the environment, and the file
that it leaves. -/
def getOrCreateSecretKey (current envFile : Option String) (randomBytes : Bytes) :
    String × Option String :=
  let current := (current.map Js.trim).getD ""
  if current ≠ "" ∧ isValidSecretHex current then (Js.toLowerCase current, envFile)
  else (Bytes.toHex randomBytes, some (persistSecret (Bytes.toHex randomBytes) envFile))

section

variable (lastAssignment : String → Option String) (env : Option String)

/-- `dotenv.config`: a variable that is there stays, and else it gets the
value of the last assignment in the file, if any. -/
def loaded (envFile : Option String) : Option String :=
  match env with
  | some value => some value
  | none => envFile.bind lastAssignment

/-- A start in this environment: its key, and the file that it leaves. -/
def start (envFile : Option String) (randomBytes : Bytes) : String × Option String :=
  getOrCreateSecretKey (loaded lastAssignment env envFile) envFile randomBytes

/-- The keys of starts after one another, with the bytes that each may
draw. -/
def keys : Option String → List Bytes → List String
  | _, [] => []
  | envFile, randomBytes :: later =>
      (start lastAssignment env envFile randomBytes).1 ::
        keys (start lastAssignment env envFile randomBytes).2 later

/-- The next start obtains the same key. -/
def SurvivesRestart (envFile : Option String) : Prop :=
  ∀ first second : Bytes, first.length = 32 → second.length = 32 →
    (start lastAssignment env (start lastAssignment env envFile first).2 second).1 =
      (start lastAssignment env envFile first).1

/-- What is known of dotenv for this file: the line that `persistSecret` writes
is an assignment, and the last one at the end of the file.  (Not so if the file
ends in a name and a colon, which take the next line for their value.) -/
structure LoadsLast (envFile : Option String) : Prop where
  single : ∀ secret, isValidSecretHex secret = true →
    lastAssignment (secretName ++ secret ++ "\n") = some secret
  appended : ∀ existing, envFile = some existing → ∀ secret, isValidSecretHex secret = true →
    lastAssignment (existing ++ ("\n" ++ secretName ++ secret ++ "\n")) = some secret

/-- The value of a variable is a key. -/
def IsSecret (value : String) : Prop := isValidSecretHex (Js.trim value) = true

instance (value : String) : Decidable (IsSecret value) := inferInstanceAs (Decidable (_ = true))

/-- There is a variable, of the environment or of the file, and it holds a key;
or the environment has none, and no line of the file looks like one. -/
def KeyKept (envFile : Option String) : Prop :=
  (∃ value, loaded lastAssignment env envFile = some value ∧ IsSecret value) ∨
    env = none ∧ ∀ existing, envFile = some existing → hasSecretLine existing = false

end

variable {lastAssignment : String → Option String} {env envFile : Option String}
  {randomBytes : Bytes} {value : String}

/-! ### Keys -/

theorem isValidSecretHex_of_isHash {secret : String} (h : Blossom.isHash secret = true) :
    isValidSecretHex secret = true := by
  simp only [Blossom.isHash, isValidSecretHex, isHex64, Bool.and_eq_true, List.all_eq_true] at h ⊢
  refine ⟨h.1, fun c hc => ?_⟩
  have hlower := h.2 c hc
  simp only [Bytes.isLowerHex, Bool.or_eq_true, Bool.and_eq_true, decide_eq_true_eq] at hlower
  simp only [Bytes.hexVal]
  split_ifs
  · rfl
  · rfl
  · rfl
  · omega

theorem ne_empty_of_isValidSecretHex {secret : String} (h : isValidSecretHex secret = true) :
    secret ≠ "" := by
  rintro rfl
  cases h

/-! ### One start -/

/-- A key that is found is taken, and the file stays. -/
theorem start_of_isSecret (hloaded : loaded lastAssignment env envFile = some value)
    (hsecret : IsSecret value) (randomBytes : Bytes) :
    start lastAssignment env envFile randomBytes = (Js.toLowerCase (Js.trim value), envFile) := by
  simp only [start, getOrCreateSecretKey, hloaded, Option.map_some, Option.getD_some]
  exact if_pos ⟨ne_empty_of_isValidSecretHex hsecret, hsecret⟩

/-- Otherwise a key is drawn. -/
theorem start_of_not_isSecret
    (h : ∀ value, loaded lastAssignment env envFile = some value → ¬ IsSecret value)
    (randomBytes : Bytes) : start lastAssignment env envFile randomBytes =
      (Bytes.toHex randomBytes, some (persistSecret (Bytes.toHex randomBytes) envFile)) := by
  simp only [start, getOrCreateSecretKey]
  refine if_neg fun hvalid => ?_
  rcases hloaded : loaded lastAssignment env envFile with - | value
  · simp [hloaded] at hvalid
  · rw [hloaded] at hvalid
    exact h value hloaded hvalid.2

/-- A key that was stored is read back. -/
theorem loaded_persistSecret (hdotenv : LoadsLast lastAssignment envFile)
    (hno : ∀ existing, envFile = some existing → hasSecretLine existing = false)
    (hlength : randomBytes.length = 32) :
    loaded lastAssignment none (some (persistSecret (Bytes.toHex randomBytes) envFile)) =
      some (Bytes.toHex randomBytes) := by
  have hvalid := isValidSecretHex_of_isHash (Blossom.isHash_toHex hlength)
  rcases envFile with - | existing
  · exact hdotenv.single _ hvalid
  · simp only [loaded, Option.bind_some, persistSecret, hno existing rfl, Bool.false_eq_true,
      if_false]
    exact hdotenv.appended existing rfl _ hvalid

/-! ### Settled keys -/

/-- The key is there to be found. -/
def Settled (lastAssignment : String → Option String) (env envFile : Option String)
    (key : String) : Prop :=
  ∃ value, loaded lastAssignment env envFile = some value ∧ IsSecret value ∧
    Js.toLowerCase (Js.trim value) = key

/-- A start with a settled key changes nothing. -/
theorem Settled.start_eq {key : String} (h : Settled lastAssignment env envFile key)
    (randomBytes : Bytes) : start lastAssignment env envFile randomBytes = (key, envFile) := by
  obtain ⟨value, hloaded, hsecret, rfl⟩ := h
  exact start_of_isSecret hloaded hsecret randomBytes

/-- **A start settles its key**, under the condition. -/
theorem settled_start (hdotenv : LoadsLast lastAssignment envFile)
    (hkept : KeyKept lastAssignment env envFile) (hlength : randomBytes.length = 32) :
    Settled lastAssignment env (start lastAssignment env envFile randomBytes).2
      (start lastAssignment env envFile randomBytes).1 := by
  by_cases hfound : ∃ value, loaded lastAssignment env envFile = some value ∧ IsSecret value
  · obtain ⟨value, hloaded, hsecret⟩ := hfound
    rw [start_of_isSecret hloaded hsecret]
    exact ⟨value, hloaded, hsecret, rfl⟩
  · obtain ⟨rfl, hno⟩ := hkept.resolve_left hfound
    rw [start_of_not_isSecret fun value hloaded hsecret => hfound ⟨value, hloaded, hsecret⟩]
    have hhash : Blossom.isHash (Bytes.toHex randomBytes) = true := Blossom.isHash_toHex hlength
    refine ⟨_, loaded_persistSecret hdotenv hno hlength, ?_, ?_⟩
    · rw [IsSecret, Blossom.trim_of_isHash hhash]
      exact isValidSecretHex_of_isHash hhash
    · rw [Blossom.trim_of_isHash hhash, Blossom.toLowerCase_of_isHash hhash]

/-- With a settled key, every start obtains it. -/
theorem Settled.keys_eq {key : String} (h : Settled lastAssignment env envFile key)
    (draws : List Bytes) : keys lastAssignment env envFile draws = draws.map fun _ => key := by
  induction draws with
  | nil => rfl
  | cons randomBytes later ih => rw [keys, h.start_eq, ih, List.map_cons]

/-- **Any number of starts** obtains the key of the first. -/
theorem keys_eq_of_keyKept (hdotenv : LoadsLast lastAssignment envFile)
    (hkept : KeyKept lastAssignment env envFile) (hlength : randomBytes.length = 32)
    (later : List Bytes) : keys lastAssignment env envFile (randomBytes :: later) =
      (randomBytes :: later).map fun _ => (start lastAssignment env envFile randomBytes).1 := by
  rw [keys, (settled_start hdotenv hkept hlength).keys_eq, List.map_cons]

/-! ### Main result -/

/-- Without the condition, a file stays in which no key is found. -/
theorem not_found_of_not_keyKept (hkept : ¬ KeyKept lastAssignment env envFile)
    (randomBytes : Bytes) : ∀ value,
      loaded lastAssignment env (start lastAssignment env envFile randomBytes).2 = some value →
        ¬ IsSecret value := by
  have hnot : ∀ value, loaded lastAssignment env envFile = some value → ¬ IsSecret value :=
    fun value hloaded hsecret => hkept (Or.inl ⟨value, hloaded, hsecret⟩)
  rcases env with - | held
  · -- some line looks like one, so the file stays as it is
    have hline : ∃ existing, envFile = some existing ∧ hasSecretLine existing = true := by
      by_contra hno
      refine hkept (Or.inr ⟨rfl, fun existing heq => Bool.eq_false_iff.mpr fun hyes => ?_⟩)
      exact hno ⟨existing, heq, hyes⟩
    obtain ⟨existing, rfl, hyes⟩ := hline
    rw [start_of_not_isSecret hnot]
    simp only [persistSecret, hyes, if_true]
    exact hnot
  · exact hnot

/-- **The key survives a restart** exactly under the condition. -/
theorem survivesRestart_iff (hdotenv : LoadsLast lastAssignment envFile) :
    SurvivesRestart lastAssignment env envFile ↔ KeyKept lastAssignment env envFile := by
  constructor
  · intro h
    by_contra hkept
    -- two starts that draw different bytes
    have hsame := h (List.replicate 32 0) (List.replicate 32 1) rfl rfl
    rw [start_of_not_isSecret (not_found_of_not_keyKept hkept _),
      start_of_not_isSecret fun value hloaded hsecret => hkept (Or.inl ⟨value, hloaded, hsecret⟩)]
      at hsame
    exact absurd (Bytes.toHex_injective hsame) (by decide)
  · intro hkept first second hfirst _
    rw [(settled_start hdotenv hkept hfirst).start_eq]

/-- What was encrypted before the restart is decrypted after it. -/
theorem decryptMetadata_after_restart {L : Library} (hL : L.Lawful) {iv first second : Bytes}
    {metadata : BlobMetadata} (hiv : iv.length = 12) (hvalid : validateMetadata metadata = .ok ())
    (hfinite : metadata.uploadedAt.isFinite = true)
    (hsurvives : SurvivesRestart lastAssignment env envFile) (hfirst : first.length = 32)
    (hsecond : second.length = 32) :
    decryptMetadata L (encryptMetadata L iv metadata (start lastAssignment env envFile first).1)
      (start lastAssignment env (start lastAssignment env envFile first).2 second).1
        = .ok metadata := by
  rw [hsurvives first second hfirst hsecond, decryptMetadata_encryptMetadata hL hiv hvalid hfinite]

/-! ### Files with one assignment on a line -/

/-- The value of a line that starts with the name. -/
def assignedOn (line : List Char) : Option String :=
  if secretName.toList.isPrefixOf line then some (String.ofList (line.drop secretName.length))
  else none

/-- What dotenv reads in a file without quotes, comments and blanks. -/
def plainAssignment (text : String) : Option String :=
  (text.toList.splitOn '\n').reverse.findSome? assignedOn

theorem not_mem_newline {secret : String} (h : isValidSecretHex secret = true) :
    '\n' ∉ secretName.toList ++ secret.toList := by
  intro hmem
  rcases List.mem_append.mp hmem with hname | hsecret
  · exact absurd hname (by decide)
  · simp only [isValidSecretHex, isHex64, Bool.and_eq_true, List.all_eq_true] at h
    exact absurd (h.2 _ hsecret) (by decide)

/-- A line for the key is found behind any other lines. -/
theorem findSome?_assignedOn (before : List (List Char)) (secret : String) :
    (before ++ [secretName.toList ++ secret.toList, []]).reverse.findSome? assignedOn =
      some secret := by
  have hprefix : secretName.toList.isPrefixOf (secretName.toList ++ secret.toList) = true :=
    List.isPrefixOf_iff_prefix.mpr (List.prefix_append _ _)
  have hline : assignedOn (secretName.toList ++ secret.toList) = some secret := by
    rw [assignedOn, if_pos hprefix, ← String.length_toList, List.drop_left, String.ofList_toList]
  have hempty : assignedOn [] = none := rfl
  simp [hempty, hline]

theorem plainAssignment_loadsLast : LoadsLast plainAssignment envFile where
  single secret hvalid := by
    have htext : (secretName ++ secret ++ "\n").toList =
        (secretName.toList ++ secret.toList) ++ '\n' :: [] := by
      simp [String.toList_append]
    rw [plainAssignment, htext, List.splitOn_append_cons_self,
      List.splitOn_eq_singleton (not_mem_newline hvalid), List.splitOn_nil]
    exact findSome?_assignedOn [] secret
  appended existing _ secret hvalid := by
    have htext : (existing ++ ("\n" ++ secretName ++ secret ++ "\n")).toList =
        existing.toList ++ '\n' :: ((secretName.toList ++ secret.toList) ++ '\n' :: []) := by
      simp [String.toList_append]
    rw [plainAssignment, htext, List.splitOn_append_cons_self, List.splitOn_append_cons_self,
      List.splitOn_eq_singleton (not_mem_newline hvalid), List.splitOn_nil]
    exact findSome?_assignedOn _ secret

/-- A file that names another variable gets a line for the key. -/
theorem survivesRestart_portOnly :
    SurvivesRestart plainAssignment none (some "API_PORT=4000\n") := by
  refine (survivesRestart_iff plainAssignment_loadsLast).mpr (Or.inr ⟨rfl, ?_⟩)
  rintro existing ⟨⟩
  decide +kernel

/-- A line with no value stays, and every start draws a new key. -/
theorem not_survivesRestart_emptyLine :
    ¬ SurvivesRestart plainAssignment none (some "NOSTR_SECRET_KEY=\n") := by
  intro h
  have hsame := h (List.replicate 32 0) (List.replicate 32 1) rfl rfl
  revert hsame
  decide +kernel

end NostrMesh.Api
