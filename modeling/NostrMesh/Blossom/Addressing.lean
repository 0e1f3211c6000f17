/-
NostrMesh/Blossom/Addressing.lean

Content addressing over runs of the Blossom server, with writes that fail and
a process that stops in the middle of one.

`serve_cases` says once what a request can do to the files: nothing, or leave
some beginning of an uploaded body under the name of its hash.  As long as no
write leaves a proper beginning behind, every file holds the body that its
name is the hash of (`Addressed`), and from that follows what a client sees.
A write that does leave one is never repaired: the next `PUT` of that body
finds the file and answers 200.

A `GET` here asks for the whole blob, unconditionally; requests for a range, or
with an `If-None-Match`, are left to `res.sendFile`.
-/
import Mathlib.Data.Set.Function
import NostrMesh.Blossom.Server

namespace NostrMesh.Blossom

variable (L : Library) (config : Config)

/-! ### Runs -/

/-- The files after a list of requests. -/
def run (inputs : List Input) (files : Files) : Files :=
  inputs.foldl (fun files input => (serve L config input files).2) files

/-- The empty storage directory. -/
def noFiles : Files := fun _ => none

/-- The answer to the request that comes after `past`. -/
def answer (past : List Input) (input : Input) : Response :=
  (serve L config input (run L config past noFiles)).1

/-- The body of a `PUT`. -/
def Input.body (input : Input) : Option Bytes :=
  match input.request with
  | .put _ body => body
  | _ => none

/-- The request gets to `writeFileSync` with this body: a `PUT` from an allowed
origin that is small enough, authorized and not empty, and there is no file of
its hash. -/
structure Input.Writes (input : Input) (files : Files) (body : Bytes) : Prop where
  allowed : (input.origin.filter fun origin => !isAllowedOrigin config origin) = none
  length_le : body.length ≤ config.maxUploadBytes
  authorized : ∃ authorization pubkey, input.request = .put authorization (some body) ∧
    parseAuthEvent L config input.now authorization "upload" = .ok pubkey
  ne_nil : body ≠ []
  free : files (hashBuffer L body) = none

/-- The hash that a `GET` asks for. -/
def Input.asks (input : Input) (hash : String) : Prop :=
  ∃ authorization name, input.request = .get authorization name ∧ normalizeHash name = .ok hash

/-- What content addressing promises to the clients of the server: it is
stated for each point of a run, after the requests `past`. -/
structure ContentAddressed (inputs : List Input) : Prop where
  /-- A `PUT` answers the hash of its body, and from then on a `GET` of that
  hash that succeeds answers the body. -/
  uploaded : ∀ past input later, inputs = past ++ input :: later →
    ∀ hash size url, answer L config past input = .uploaded hash size url →
    ∃ body, input.body = some body ∧ hash = hashBuffer L body ∧
      ∀ between get rest, later = between ++ get :: rest → get.asks hash →
      ∀ bytes, answer L config (past ++ input :: between) get = .content bytes → bytes = body
  /-- No request changes a blob that is stored completely. -/
  kept : ∀ past input later, inputs = past ++ input :: later →
    ∀ content, run L config past noFiles (hashBuffer L content) = some content →
    run L config (past ++ [input]) noFiles (hashBuffer L content) = some content
  /-- No `GET` answers bytes with another hash. -/
  served : ∀ past input later, inputs = past ++ input :: later →
    ∀ hash, input.asks hash →
    ∀ bytes, answer L config past input = .content bytes → hashBuffer L bytes = hash

/-! ### What a request does to the files -/

variable {L config}

/-- A `PUT` is refused, or it gets to its end with a body that is not
empty. -/
theorem putUpload_cases (L : Library) (config : Config) (now : ℤ) (write : Write)
    (authorization : Option String) (body : Option Bytes) (files : Files) :
    (∃ e, putUpload L config now write authorization body files = (errorResponse e, files)) ∨
    ∃ b, body = some b ∧
      putUpload L config now write authorization body files = storeBlob L config write b files := by
  rw [putUpload]
  split
  · exact Or.inl ⟨_, rfl⟩
  · split
    · exact Or.inl ⟨_, rfl⟩
    · split
      · exact Or.inl ⟨_, rfl⟩
      · next hne =>
        rcases body with - | b
        · exact absurd rfl hne
        · exact Or.inr ⟨b, rfl, rfl⟩

/-- What a `PUT` does in the end: it finds a file, or it makes one with some
beginning of the body, or the write leaves nothing. -/
theorem storeBlob_cases (L : Library) (config : Config) (write : Write) (body : Bytes) (files : Files) :
    ((storeBlob L config write body files).2 = files ∧
      ∀ hash size url, (storeBlob L config write body files).1 = .uploaded hash size url →
        hash = hashBuffer L body ∧ files hash ≠ none) ∨
    ∃ n, files (hashBuffer L body) = none ∧
      (storeBlob L config write body files).2
        = Function.update files (hashBuffer L body) (some (body.take n)) ∧
      (body.length ≤ n ∨ write = .fails (some n) ∨ write = .stops (some n)) ∧
      ∀ hash size url, (storeBlob L config write body files).1 = .uploaded hash size url →
        hash = hashBuffer L body ∧ body.length ≤ n := by
  rcases hf : files (hashBuffer L body) with - | content
  · rcases write with - | left | left
    · refine Or.inr ⟨body.length, rfl, ?_, Or.inl le_rfl, ?_⟩
      · simp only [storeBlob, hf, List.take_length]
      · rintro hash size url h
        simp only [storeBlob, hf, Response.uploaded.injEq] at h
        exact ⟨h.1.symm, le_rfl⟩
    · rcases left with - | n
      · exact Or.inl ⟨by simp only [storeBlob, hf, leave], by simp [storeBlob, hf, errorResponse]⟩
      · exact Or.inr ⟨n, rfl, by simp only [storeBlob, hf, leave], Or.inr (Or.inl rfl),
          by simp [storeBlob, hf, errorResponse]⟩
    · rcases left with - | n
      · exact Or.inl ⟨by simp only [storeBlob, hf, leave], by simp [storeBlob, hf]⟩
      · exact Or.inr ⟨n, rfl, by simp only [storeBlob, hf, leave], Or.inr (Or.inr rfl),
          by simp [storeBlob, hf]⟩
  · refine Or.inl ⟨by simp only [storeBlob, hf], ?_⟩
    rintro hash size url h
    simp only [storeBlob, hf, Response.uploaded.injEq] at h
    obtain ⟨rfl, -⟩ := h
    exact ⟨rfl, by simp [hf]⟩

/-- A `PUT` that changes the files was small enough, authorized and not empty,
and there was no file of its hash. -/
theorem putUpload_files_ne {now : ℤ} {write : Write} {authorization : Option String}
    {body : Option Bytes} {files : Files}
    (h : (putUpload L config now write authorization body files).2 ≠ files) :
    (body.getD []).length ≤ config.maxUploadBytes ∧
      (∃ pubkey, parseAuthEvent L config now authorization "upload" = .ok pubkey) ∧
      body.getD [] ≠ [] ∧ files (hashBuffer L (body.getD [])) = none := by
  rw [putUpload] at h
  split at h
  · exact absurd rfl h
  next hsize =>
  split at h
  · exact absurd rfl h
  next pubkey hauth =>
  refine ⟨not_lt.mp hsize, ⟨pubkey, hauth⟩, ?_⟩
  split at h
  · exact absurd rfl h
  · next hne =>
    rcases storeBlob_cases L config write (body.getD []) files with ⟨hsame, -⟩ | ⟨n, hfree, -⟩
    · exact absurd hsame h
    · exact ⟨hne, hfree⟩

/-- An upload that answers is one of the two. -/
def Answers (response : Response) (hash : String) : Prop :=
  ∃ size url, response = .uploaded hash size url

theorem not_answers_errorResponse (e : ServerError) (hash : String) :
    ¬ Answers (errorResponse e) hash := by
  rintro ⟨size, url, h⟩
  cases e <;> simp [errorResponse] at h

/-- **One request**: it leaves the files alone, or it adds a file that was
not there, with some beginning of the uploaded body.  It answers a hash only
if a file of that name was there before, or is there now and complete. -/
theorem serve_cases (L : Library) (config : Config) (input : Input) (files : Files) :
    ((serve L config input files).2 = files ∧
      ∀ hash, Answers (serve L config input files).1 hash →
        ∃ body, input.body = some body ∧ hash = hashBuffer L body ∧ files hash ≠ none) ∨
    ∃ body n, input.body = some body ∧ files (hashBuffer L body) = none ∧
      (serve L config input files).2
        = Function.update files (hashBuffer L body) (some (body.take n)) ∧
      (body.length ≤ n ∨ input.write = .fails (some n) ∨ input.write = .stops (some n)) ∧
      ∀ hash, Answers (serve L config input files).1 hash →
        hash = hashBuffer L body ∧ body.length ≤ n := by
  rw [serve]
  split
  · exact Or.inl ⟨rfl, fun hash h => absurd h (not_answers_errorResponse (.http 403 _) hash)⟩
  · split
    · exact Or.inl ⟨rfl, fun hash h => by obtain ⟨size, url, h⟩ := h; cases h⟩
    · next authorization body hreq =>
      have hbody : input.body = body := by rw [Input.body, hreq]
      rcases putUpload_cases L config input.now input.write authorization body
        files with ⟨e, he⟩ | ⟨b, rfl, he⟩
      · rw [he]
        exact Or.inl ⟨rfl, fun hash h => absurd h (not_answers_errorResponse _ hash)⟩
      · rw [he]
        rcases storeBlob_cases L config input.write b files with
          ⟨hsame, hup⟩ | ⟨n, hf, hupdate, hn, hup⟩
        · refine Or.inl ⟨hsame, fun hash ⟨size, url, h⟩ => ?_⟩
          obtain ⟨rfl, hfile⟩ := hup hash size url h
          exact ⟨b, hbody, rfl, hfile⟩
        · exact Or.inr ⟨b, n, hbody, hf, hupdate, hn, fun hash ⟨size, url, h⟩ =>
            hup hash size url h⟩
    · refine Or.inl ⟨rfl, fun hash h => ?_⟩
      obtain ⟨size, url, h⟩ := h
      simp only [headBlob] at h
      split at h
      · exact absurd ⟨size, url, h⟩ (not_answers_errorResponse _ hash)
      · cases h
    · refine Or.inl ⟨rfl, fun hash h => ?_⟩
      obtain ⟨size, url, h⟩ := h
      simp only [getBlob] at h
      split at h
      · exact absurd ⟨size, url, h⟩ (not_answers_errorResponse _ hash)
      · cases h

/-- Only a write changes the files. -/
theorem writes_of_files_ne {input : Input} {files : Files} {body : Bytes} (hbody : input.body = some body)
    (h : (serve L config input files).2 ≠ files) : input.Writes L config files body := by
  rw [serve] at h
  split at h
  · exact absurd rfl h
  next hallowed =>
  split at h
  · exact absurd rfl h
  · next authorization put hrequest =>
    obtain rfl : put = some body := by rw [← hbody, Input.body, hrequest]
    obtain ⟨hlength, ⟨pubkey, hauth⟩, hne, hfree⟩ := putUpload_files_ne h
    exact ⟨hallowed, hlength, ⟨authorization, pubkey, hrequest, hauth⟩, hne, hfree⟩
  · exact absurd rfl h
  · exact absurd rfl h

/-- A `PUT` that answers a hash was authorized. -/
theorem authorized_of_answers {origin authorization : Option String} {body : Option Bytes} {now : ℤ}
    {write : Write} {files : Files} {hash : String}
    (h : Answers (serve L config ⟨origin, .put authorization body, now, write⟩ files).1 hash) :
    ∃ pubkey, parseAuthEvent L config now authorization "upload" = .ok pubkey := by
  rcases hauth : parseAuthEvent L config now authorization "upload" with e | pubkey
  · exfalso
    revert h
    rw [serve]
    split
    · exact not_answers_errorResponse (.http 403 _) hash
    · simp only [putUpload, hauth]
      split
      · exact not_answers_errorResponse .tooLarge hash
      · exact not_answers_errorResponse e hash
  · exact ⟨pubkey, rfl⟩

/-- A `GET` that succeeds answers the file of the hash that it asks for. -/
theorem content_of_get {input : Input} {files : Files} {hash : String} {bytes : Bytes}
    (hasks : input.asks hash) (h : (serve L config input files).1 = .content bytes) :
    files hash = some bytes := by
  obtain ⟨authorization, name, hreq, hname⟩ := hasks
  rw [serve] at h
  split at h
  · simp [errorResponse] at h
  · rw [hreq] at h
    simp only [getBlob, lookup, hname] at h
    split at h
    · next e he =>
      exfalso
      cases e <;> simp [errorResponse] at h
    · next content hcontent =>
      simp only [Response.content.injEq] at h
      subst h
      split at hcontent
      · cases hcontent
      · split at hcontent
        · cases hcontent
        · next c hc =>
          simp only [Except.ok.injEq] at hcontent
          rw [hc, hcontent]

/-! ### Every file holds the body that its name is the hash of -/

/-- If the request writes a file, that leaves the whole body or no file. -/
def Input.Clean (L : Library) (config : Config) (input : Input) (files : Files) : Prop :=
  ∀ body, input.Writes L config files body → ∀ n,
    input.write = .fails (some n) ∨ input.write = .stops (some n) → body.length ≤ n

/-- All writes of the run do. -/
def CleanRun (L : Library) (config : Config) (inputs : List Input) (files : Files) : Prop :=
  ∀ past input later, inputs = past ++ input :: later →
    input.Clean L config (run L config past files)

/-- The bodies that a list of requests uploads. -/
def bodies (inputs : List Input) : Set Bytes :=
  {body | ∃ input ∈ inputs, input.body = some body}

/-- Each file is named by the hash of its content, which is one of the
bodies `B`. -/
def Addressed (L : Library) (B : Set Bytes) (files : Files) : Prop :=
  ∀ hash content, files hash = some content → hash = hashBuffer L content ∧ content ∈ B

variable {B : Set Bytes} {files : Files} {input : Input}

/-- A file that a request adds is complete. -/
theorem length_le_of_clean {body : Bytes} {n : ℕ} (hclean : input.Clean L config files)
    (hbody : input.body = some body) (hfree : files (hashBuffer L body) = none)
    (hupdate : (serve L config input files).2
      = Function.update files (hashBuffer L body) (some (body.take n)))
    (hn : body.length ≤ n ∨ input.write = .fails (some n) ∨ input.write = .stops (some n)) :
    body.length ≤ n := by
  refine hn.elim id (hclean body (writes_of_files_ne hbody fun hsame => ?_) n)
  rw [hupdate] at hsame
  have hnone := congrFun hsame (hashBuffer L body)
  rw [Function.update_self, hfree] at hnone
  cases hnone

theorem Addressed.serve (h : Addressed L B files) (hclean : input.Clean L config files)
    (hB : ∀ body, input.body = some body → body ∈ B) :
    Addressed L B (serve L config input files).2 := by
  rcases serve_cases L config input files with
    ⟨hsame, -⟩ | ⟨body, n, hbody, hfree, hupdate, hn, -⟩
  · rw [hsame]
    exact h
  · have hlen := length_le_of_clean hclean hbody hfree hupdate hn
    rw [hupdate, List.take_of_length_le hlen]
    intro hash content hcontent
    by_cases heq : hash = hashBuffer L body
    · subst heq
      rw [Function.update_self, Option.some.injEq] at hcontent
      subst hcontent
      exact ⟨rfl, hB body hbody⟩
    · rw [Function.update_of_ne heq] at hcontent
      exact h hash content hcontent

theorem Addressed.run (inputs : List Input) (h : Addressed L B files)
    (hclean : CleanRun L config inputs files) (hB : bodies inputs ⊆ B) :
    Addressed L B (run L config inputs files) := by
  induction inputs generalizing files with
  | nil => exact h
  | cons input inputs ih =>
      refine ih (h.serve (hclean [] input inputs rfl) fun body hbody =>
        hB ⟨input, List.mem_cons_self, hbody⟩) ?_ ?_
      · rintro past i later rfl
        exact hclean (input :: past) i later rfl
      rintro body ⟨i, hi, hbody⟩
      exact hB ⟨i, List.mem_cons_of_mem _ hi, hbody⟩

/-- A file is never changed or removed. -/
theorem file_serve {hash : String} {content : Bytes} (h : files hash = some content)
    (input : Input) : (serve L config input files).2 hash = some content := by
  rcases serve_cases L config input files with
    ⟨hsame, -⟩ | ⟨body, n, -, hf, hupdate, -⟩
  · rw [hsame]
    exact h
  · have hne : hash ≠ hashBuffer L body := by
      rintro rfl
      rw [hf] at h
      cases h
    rw [hupdate, Function.update_of_ne hne]
    exact h

theorem file_run {hash : String} {content : Bytes} (h : files hash = some content)
    (inputs : List Input) : run L config inputs files hash = some content := by
  induction inputs generalizing files with
  | nil => exact h
  | cons input inputs ih => exact ih (file_serve h input)

/-- After an upload that answered, the file of the hash is the body. -/
theorem file_of_answers (h : Addressed L B files) (hinj : Set.InjOn (hashBuffer L) B)
    (hclean : input.Clean L config files) (hB : ∀ body, input.body = some body → body ∈ B)
    {hash : String}
    (hanswers : Answers (serve L config input files).1 hash) :
    ∃ body, input.body = some body ∧ hash = hashBuffer L body ∧
      (serve L config input files).2 hash = some body := by
  rcases serve_cases L config input files with
    ⟨hsame, hup⟩ | ⟨body, n, hbody, hfree, hupdate, hn, hup⟩
  · -- the server has found a file: it can only be the same body
    obtain ⟨body, hbody, rfl, hfile⟩ := hup hash hanswers
    obtain ⟨content, hcontent⟩ := Option.ne_none_iff_exists'.mp hfile
    obtain ⟨heq, hmem⟩ := h _ _ hcontent
    obtain rfl := hinj (hB body hbody) hmem heq
    exact ⟨body, hbody, rfl, by rw [hsame]; exact hcontent⟩
  · have hlen := length_le_of_clean hclean hbody hfree hupdate hn
    obtain ⟨rfl, -⟩ := hup hash hanswers
    exact ⟨body, hbody, rfl, by rw [hupdate, List.take_of_length_le hlen, Function.update_self]⟩

/-! ### Content addressing -/

theorem run_append (L : Library) (config : Config) (past later : List Input) (files : Files) :
    run L config (past ++ later) files = run L config later (run L config past files) :=
  List.foldl_append

/-- **Content addressing survives failures** that leave the whole body or no
file, as long as no two uploaded bodies have one hash. -/
theorem contentAddressed_of_clean (L : Library) (config : Config) (inputs : List Input)
    (hclean : CleanRun L config inputs noFiles)
    (hinj : Set.InjOn L.sha256 (bodies inputs)) : ContentAddressed L config inputs := by
  have hinj' : Set.InjOn (hashBuffer L) (bodies inputs) :=
    fun b hb c hc h => hinj hb hc (Bytes.toHex_injective h)
  have haddressed : ∀ past later, inputs = past ++ later →
      Addressed L (bodies inputs) (run L config past noFiles) := by
    rintro past later rfl
    refine Addressed.run past (fun _ _ h => by cases h) ?_ ?_
    · rintro past i between rfl
      exact hclean past i (between ++ later) (by simp)
    rintro body ⟨i, hi, hbody⟩
    exact ⟨i, List.mem_append_left _ hi, hbody⟩
  refine ⟨?_, ?_, ?_⟩
  · intro past input later hsplit hash size url hanswer
    have hmem : input ∈ inputs := by rw [hsplit]; simp
    obtain ⟨body, hbody, hhash, hfile⟩ := file_of_answers (haddressed past _ hsplit) hinj'
      (hclean past input later hsplit) (fun b hb => ⟨input, hmem, hb⟩) ⟨size, url, hanswer⟩
    refine ⟨body, hbody, hhash, fun between get rest _ hasks bytes hget => ?_⟩
    have hcontent := content_of_get hasks hget
    rw [run_append] at hcontent
    have hkeep : run L config between _ hash = some body := file_run hfile between
    exact Option.some.inj (hcontent.symm.trans hkeep)
  · intro past input later _ content hcontent
    rw [run_append]
    exact file_serve hcontent input
  · intro past input later hsplit hash hasks bytes hget
    exact (haddressed past _ hsplit hash bytes (content_of_get hasks hget)).1.symm

/-! ### A server that takes requests without authorization -/

/-- SHA-256 of two byte strings. -/
def sampleLibrary : Library where
  sha256 b :=
    if b = [0x68, 0x69] then
      Bytes.ofHex "8f434346648f6b96df89dda901c5176b10a6d83961dd3c1ac88b59b2dc327aa4"
    else if b = [0x68] then
      Bytes.ofHex "aaa9402664f1a41f40ebbc52c9993eb66aeb366602958fdfaa283b71e64db123"
    else []
  parseJson _ := none
  verifyEvent _ := .ok false
  textOf _ := ""

def openConfig : Config := ⟨"http://localhost:3000", 104857600, ["*"], false, 30⟩

/-- `PUT /upload` of two bytes. -/
def putHi (write : Write) : Input := ⟨none, .put none (some [0x68, 0x69]), 1700000000, write⟩

def getHi : Input :=
  ⟨none, .get none "8f434346648f6b96df89dda901c5176b10a6d83961dd3c1ac88b59b2dc327aa4",
    1700000001, .completes⟩

theorem contentAddressed_hi :
    ContentAddressed sampleLibrary openConfig [putHi (.fails none), putHi .completes, getHi] := by
  refine contentAddressed_of_clean _ _ _ ?_ ?_
  · intro past input later hsplit body _ n hwrite
    have hinput : input ∈ [putHi (.fails none), putHi .completes, getHi] := by rw [hsplit]; simp
    simp only [List.mem_cons, List.not_mem_nil, or_false] at hinput
    rcases hinput with rfl | rfl | rfl <;> simp [putHi, getHi] at hwrite
  · have hbody : ∀ b ∈ bodies [putHi (.fails none), putHi .completes, getHi],
        b = [0x68, 0x69] := by
      rintro b ⟨input, hinput, hb⟩
      simp only [List.mem_cons, List.not_mem_nil, or_false] at hinput
      rcases hinput with rfl | rfl | rfl
      · exact (Option.some.inj hb).symm
      · exact (Option.some.inj hb).symm
      · cases hb
    intro b hb c hc _
    rw [hbody b hb, hbody c hc]

/-- A write that fails after one byte: the next upload answers 200, and a
`GET` serves the one byte. -/
theorem not_contentAddressed_hi :
    ¬ ContentAddressed sampleLibrary openConfig
      [putHi (.fails (some 1)), putHi .completes, getHi] := by
  intro h
  have hserved := h.served [putHi (.fails (some 1)), putHi .completes] getHi [] rfl
    "8f434346648f6b96df89dda901c5176b10a6d83961dd3c1ac88b59b2dc327aa4"
    ⟨none, _, rfl, by decide⟩ [0x68] (by decide)
  exact absurd hserved (by decide)

end NostrMesh.Blossom
