/-
NostrMesh/Api/Handlers.lean

What the handlers guarantee and promise, whatever the others do meanwhile.

First one lemma for each operation: an upload adds the file of its own hash,
an accepted metadata event is a write to its register, a query reads one.
Then each handler is safe: it keeps the world sound, touches no hash but its
own, and promises something with its answer (`Promise`): an upload that its
content and its record are there, a deletion that its record is marked.

The promise of a deletion depends on `Timely`: the relay drops an event that
is not newer than the one it holds, and acknowledges it all the same.
-/
import NostrMesh.Api.System

namespace NostrMesh.Api

open Interleaving Relay

variable {L : Library} {config : Config} {B : Blossom.Library} {server : Blossom.Config}
variable {W W' : World} {hash : String}

/-! ### Operations -/

/-- A query reads the register of its hash. -/
theorem Queries.spec (hL : L.Lawful) (hW : Sound L config W) (hhash : Blossom.isHash hash = true)
    {arrived : List Event} (h : Queries (metadataFilterByHash hash) W arrived W') :
    W.Waits W' ∧ resolveMetadata L config.nostrSecretKey arrived
      = reading (recordAt L config.nostrSecretKey W.db hash) := by
  obtain ⟨hwaits, order, answer, hanswer, harrived⟩ := h
  obtain ⟨answer', hanswer', hresolve⟩ := (hwaits.sound hW).shelf.resolve hL hhash order
  obtain rfl : answer = answer' := Except.ok.inj (hanswer.symm.trans hanswer')
  refine ⟨hwaits, ?_⟩
  rw [hresolve arrived harrived, hwaits.db]

/-- A query can always be answered. -/
theorem exists_queries (hL : L.Lawful) (hW : Sound L config W)
    (hhash : Blossom.isHash hash = true) :
    ∃ arrived, Queries (metadataFilterByHash hash) W arrived W := by
  obtain ⟨answer, hanswer, -⟩ := hW.shelf.resolve hL hhash tableOrder
  exact ⟨answer, hW.waits, tableOrder, answer, hanswer, fun _ => Iff.rfl⟩

/-- A metadata event writes to the register of its hash, unless it is not
accepted and nothing happens. -/
theorem Publishes.spec (hL : L.Lawful) (hW : Sound L config W) {metadata : BlobMetadata}
    {event : Event} {iv : Bytes} {now : ℤ} (hhash : Blossom.isHash metadata.hash = true)
    (hfinite : metadata.uploadedAt.isFinite = true) (hiv : iv.length = 12)
    (hbuild : buildMetadataEvent L iv now metadata config.nostrSecretKey = .ok event)
    {accepted : Bool} (h : Publishes event W accepted W') :
    Sound L config W' ∧ W.now ≤ W'.now ∧ W'.files = W.files ∧
      ((accepted = false ∧ W'.db = W.db) ∨ ∀ hash, recordAt L config.nostrSecretKey W'.db hash =
        if hash = metadata.hash then
          Registers.write (recordAt L config.nostrSecretKey W.db hash) (now, .ok metadata)
        else recordAt L config.nostrSecretKey W.db hash) := by
  obtain ⟨W₁, hwaits, ⟨hlost, rfl⟩ | ⟨F, firstSeen, remoteAddress, emits, db', hhandled, rfl, hack⟩⟩ := h
  · exact ⟨hwaits.sound hW, hwaits.now_le, hwaits.files, Or.inl ⟨hlost, hwaits.db⟩⟩
  · have hW₁ := hwaits.sound hW
    obtain ⟨hshelf, hrecord⟩ :=
      hW₁.shelf.publish hL hhash hfinite hiv hbuild F firstSeen remoteAddress hhandled
    refine ⟨⟨hW₁.now_le, hshelf⟩, hwaits.now_le, hwaits.files, ?_⟩
    rcases hrecord with ⟨hrefused, hsame⟩ | ⟨-, hrecord⟩
    · refine Or.inl ⟨?_, hsame.trans hwaits.db⟩
      rcases accepted with - | -
      · rfl
      · exact absurd (hack rfl) hrefused
    · rw [hwaits.db] at hrecord
      exact Or.inr hrecord

/-- An upload changes no file but that of its hash.  If it answers, and the
file was not there before, then it is there now. -/
theorem PutsUpload.spec (hB : Compatible L B) {authorization : String} {payload : Bytes}
    {response : Blossom.Response} (h : PutsUpload B server authorization payload W response W') :
    (Sound L config W → Sound L config W') ∧ W.now ≤ W'.now ∧ W'.db = W.db ∧
      (∀ hash, Bytes.toHex (L.sha256 payload) ≠ hash → W'.files hash = W.files hash) ∧
      ∀ sha256 size url, response = .uploaded sha256 size url →
        W.files (Bytes.toHex (L.sha256 payload)) = none →
        sha256 = Bytes.toHex (L.sha256 payload) ∧ W'.files sha256 = some payload ∧
        ∃ now pubkey, W.now ≤ now ∧
          Blossom.parseAuthEvent B server now (some authorization) "upload" = .ok pubkey := by
  have hhash : Blossom.hashBuffer B payload = Bytes.toHex (L.sha256 payload) := by
    rw [Blossom.hashBuffer, hB.sha256]
  obtain ⟨W₁, hwaits, ⟨rfl, rfl⟩ | ⟨write, rfl, hresponse⟩⟩ := h
  · refine ⟨hwaits.sound, hwaits.now_le, hwaits.db, fun _ _ => by rw [hwaits.files], ?_⟩
    rintro sha256 size url ⟨⟩
  · refine ⟨fun hW => ⟨(hwaits.sound hW).now_le, (hwaits.sound hW).shelf⟩, hwaits.now_le,
      hwaits.db, ?_, ?_⟩
    · intro hash hne
      rcases Blossom.serve_cases B server
        ⟨none, .put (some authorization) (some payload), W₁.now, write⟩ W₁.files with
        ⟨hsame, -⟩ | ⟨body, n, hbody, -, hupdate, -⟩
      · show (serveUpload B server authorization payload write W₁).2 hash = _
        rw [serveUpload, hsame, hwaits.files]
      · obtain rfl : payload = body := Option.some.inj hbody
        show (serveUpload B server authorization payload write W₁).2 hash = _
        rw [serveUpload, hupdate, hhash, Function.update_of_ne (Ne.symm hne), hwaits.files]
    · intro sha256 size url hup hfree
      rcases hresponse with hresponse | hresponse
      · have hanswers : Blossom.Answers (serveUpload B server authorization payload write W₁).1
            sha256 := ⟨size, url, hresponse.symm.trans hup⟩
        obtain ⟨pubkey, hauth⟩ := Blossom.authorized_of_answers hanswers
        rcases Blossom.serve_cases B server
          ⟨none, .put (some authorization) (some payload), W₁.now, write⟩ W₁.files with
          ⟨-, hfound⟩ | ⟨body, n, hbody, -, hupdate, -, hcomplete⟩
        · -- a file of that name was there before
          obtain ⟨body, hbody, rfl, hfile⟩ := hfound sha256 hanswers
          obtain rfl : payload = body := Option.some.inj hbody
          rw [hhash, hwaits.files] at hfile
          exact absurd hfree hfile
        · obtain rfl : payload = body := Option.some.inj hbody
          obtain ⟨rfl, hlen⟩ := hcomplete sha256 hanswers
          refine ⟨hhash, ?_, W₁.now, pubkey, by exact_mod_cast hwaits.now_le, hauth⟩
          show (serveUpload B server authorization payload write W₁).2 _ = _
          rw [serveUpload, hupdate, Function.update_self, List.take_of_length_le hlen]
      · rw [hup] at hresponse
        cases hresponse

/-! ### Timely deletions -/

/-- A deletion that publishes its event finds the stored event of the hash
marked as deleted already, or older than its own. -/
def Timely (L : Library) (config : Config) (request : Request) (o : Op) (W : World) : Prop :=
  match request, o with
  | .delete _ _, .publish event => ∀ row ∈ W.db.events, SameAddress event row →
      row.eventCreatedAt < event.createdAt ∨
        ∃ metadata, parseMetadataEvent L (toNostrEvent row) config.nostrSecretKey = .ok metadata ∧
          metadata.isDeleted = true
  | _, _ => True

/-- What the operations of a request do, where deletions are timely if
`timely` says so. -/
def stepOf (L : Library) (config : Config) (B : Blossom.Library) (server : Blossom.Config)
    (timely : Prop) (request : Request) (o : Op) (W : World) (r : Res o) (W' : World) : Prop :=
  eff B server o W r W' ∧ (timely → Timely L config request o W)

theorem stepOf_false (L : Library) (config : Config) {ι : Type*} (requests : ι → Request) :
    (fun i => stepOf L config B server False (requests i)) = fun _ => eff B server := by
  funext i o W r W'
  simp [stepOf]

/-! ### What the handlers promise -/

/-- The content of an upload is stored under its hash, and its record, as
long as nobody deletes it. -/
structure Uploaded (L : Library) (config : Config) (server : Blossom.Config) (P : String → Prop)
    (file : UploadedFile) (random : Random) (metadata : BlobMetadata) (W : World) : Prop where
  hash : Bytes.toHex (L.sha256 (encryptedContent L file random)) = metadata.hash
  content : W.files metadata.hash = some (encryptedContent L file random)
  record : P metadata.hash → ∃ now,
    recordAt L config.nostrSecretKey W.db metadata.hash = some (now, .ok metadata)
  encryptionKey : metadata.encryptionKey = Bytes.toHex random.key
  notDeleted : metadata.deleted = none
  /-- The server accepted a header that was made before. -/
  live : server.requireAuth = true → 0 ≤ 60 + server.maxClockSkewSeconds

/-- What holds from the answer to a request on. -/
def Promise (L : Library) (config : Config) (server : Blossom.Config) (P : String → Prop)
    (timely : Prop) (request : Request) (answer : Answer) (W : World) : Prop :=
  match request, answer with
  | .post (some file) _ random, .created _ hash _ metadata =>
      hash = metadata.hash ∧ Uploaded L config server P file random metadata W
  | .delete _ _, .deleted hash _ => timely → Deleted L config hash W
  | _, _ => True

variable {P : String → Prop} {timely : Prop} {request : Request}

theorem promise_error (status : ℕ) (error : String) :
    Promise L config server P timely request (.error status error) W := by
  unfold Promise
  split
  · next h => cases h
  · next h => cases h
  · trivial

/-- A handler that has failed. -/
theorem safe_error (status : ℕ) (error : String) :
    Safe (stepOf L config B server timely request) (Sound L config) (Rely L config P request)
      (Guarantee L config request) (Promise L config server P timely request)
      (.ret (.error status error)) W :=
  fun _ _ _ => promise_error status error

/-- The clock is read in a world that the others have changed meanwhile. -/
theorem safe_now {α : Type} {Q : α → World → Prop} {k : ℤ → Handler α}
    (h : ∀ W', Rely L config P request W W' → Sound L config W' →
      Safe (stepOf L config B server timely request) (Sound L config) (Rely L config P request)
        (Guarantee L config request) Q (k W'.now) W') :
    Safe (stepOf L config B server timely request) (Sound L config) (Rely L config P request)
      (Guarantee L config request) Q (.op .now k) W := by
  rintro W₁ hR₁ hW₁ now W₂ ⟨⟨hwaits, rfl⟩, -⟩
  exact ⟨hwaits.sound hW₁, hwaits.guarantee,
    h W₂ (hR₁.trans hwaits.rely) (hwaits.sound hW₁)⟩

/-! ### Reading handlers -/

/-- The operations that change nothing. -/
def Op.IsRead : Op → Prop
  | .now => True
  | .getBlob _ _ => True
  | .querySync _ => True
  | _ => False

theorem read_step {o : Op} (h : o.IsRead) {r : Res o} (hW : Sound L config W)
    (he : stepOf L config B server timely request o W r W') :
    Sound L config W' ∧ Guarantee L config request W W' := by
  have hwaits : W.Waits W' := by
    cases o with
    | now => exact he.1.1
    | getBlob authorization sha256 => exact he.1.1
    | querySync filter => exact he.1.1
    | putUpload authorization payload => exact absurd h id
    | publish event => exact absurd h id
  exact ⟨hwaits.sound hW, hwaits.guarantee⟩

theorem all_downloadBlob (sha256 : String) : (downloadBlob L config sha256).All Op.IsRead := by
  simp only [downloadBlob, perform, Prog.bind_eq, Prog.perform_bind, Prog.pure_eq]
  refine ⟨trivial, fun now => ?_⟩
  dsimp only
  split
  · trivial
  · exact ⟨trivial, fun _ => trivial⟩

theorem all_resolveHash (hash : String) : (resolveHash L config hash).All Op.IsRead :=
  ⟨trivial, fun _ => trivial⟩

theorem all_getMetadata (name : String) : (getMetadata L config name).All Op.IsRead := by
  unfold getMetadata
  split
  · trivial
  · simp only [Prog.bind_eq, Prog.pure_eq]
    refine (all_resolveHash _).bind fun r => ?_
    split
    · trivial
    · trivial
    · split <;> trivial

theorem all_decryptedContent (name : String) : (decryptedContent L config name).All Op.IsRead := by
  unfold decryptedContent
  split
  · trivial
  · simp only [Prog.bind_eq, Prog.pure_eq]
    refine (all_resolveHash _).bind fun r => ?_
    split
    · trivial
    · trivial
    · split
      · trivial
      · refine (all_downloadBlob _).bind fun payload => ?_
        split
        · trivial
        · split <;> trivial

theorem all_getContent (name : String) : (getContent L config name).All Op.IsRead := by
  simp only [getContent, Prog.bind_eq, Prog.pure_eq]
  refine (all_decryptedContent name).bind fun r => ?_
  split <;> trivial

/-- A handler that only reads is safe. -/
theorem safe_of_all_isRead {p : Handler Answer} (h : p.All Op.IsRead) :
    Safe (stepOf L config B server timely request) (Sound L config) (Rely L config P request)
      (Guarantee L config request) (fun _ _ => True) p W :=
  .of_all h fun _ ho _ _ _ hW he => read_step ho hW he

/-! ### Uploads -/

theorem lastSecond_lt : lastSecond + 60 < Js.exponentBound := by
  decide +kernel

theorem uploadResult_eq_ok {response : Blossom.Response} {sha256 : String}
    (h : uploadResult response = .ok sha256) : ∃ size url, response = .uploaded sha256 size url := by
  cases response with
  | uploaded sha256' size url =>
      simp only [uploadResult] at h
      split at h
      · cases h
      · exact ⟨size, url, by rw [Except.ok.inj h]⟩
  | found => cases h
  | content bytes => cases h
  | noContent => cases h
  | error status reason => cases h
  | none => cases h

/-- An accepted header was made at most its life before. -/
theorem live_of_parseAuthEvent (hB : Compatible L B) {header content : String} {now serverNow : ℤ}
    {pubkey : Json.Value} (hheader : buildAuthHeader L config.nostrSecretKey "upload" content 60 now
      = .ok header)
    (hnow : 0 ≤ now) (hlast : now ≤ lastSecond) (hle : now ≤ serverNow)
    (hauth : Blossom.parseAuthEvent B server serverNow (some header) "upload" = .ok pubkey) :
    server.requireAuth = true → 0 ≤ 60 + server.maxClockSkewSeconds := by
  intro hrequire
  have hbound : (now + 60).natAbs < Js.exponentBound := by
    have := lastSecond_lt
    omega
  obtain ⟨-, hserver⟩ := (parseAuthEvent_buildAuthHeader hB hrequire hheader hbound).mp ⟨pubkey, hauth⟩
  omega

section

variable {file : UploadedFile} {folder : Option String} {random : Random}

/-- `uploadBlob` stores the content, or at least leaves the register of its
hash empty. -/
theorem safe_uploadBlob (hB : Compatible L B) {payload : Bytes} (filename : String)
    (hpayload : payloadOf L request = some payload)
    (hfile : W.files (Bytes.toHex (L.sha256 payload)) = none)
    (hrecord : recordAt L config.nostrSecretKey W.db (Bytes.toHex (L.sha256 payload)) = none) :
    Safe (stepOf L config B server timely request) (Sound L config) (Rely L config P request)
      (Guarantee L config request)
      (fun r W => recordAt L config.nostrSecretKey W.db (Bytes.toHex (L.sha256 payload)) = none ∧
        ∀ sha256, r = .ok sha256 → sha256 = Bytes.toHex (L.sha256 payload) ∧
          W.files sha256 = some payload ∧
          (server.requireAuth = true → 0 ≤ 60 + server.maxClockSkewSeconds))
      (uploadBlob L config payload filename) W := by
  have huploads : Uploads L request (Bytes.toHex (L.sha256 payload)) := ⟨payload, hpayload, rfl⟩
  simp only [uploadBlob, perform, Prog.bind_eq, Prog.perform_bind, Prog.pure_eq]
  refine safe_now fun W₂ hR₂ hW₂ => ?_
  have hrecord₂ : recordAt L config.nostrSecretKey W₂.db (Bytes.toHex (L.sha256 payload)) = none :=
    hR₂.created _ huploads hrecord
  have hfile₂ : W₂.files (Bytes.toHex (L.sha256 payload)) = none :=
    (hR₂.files _ huploads).trans hfile
  rcases hheader : buildAuthHeader L config.nostrSecretKey "upload" ("Upload " ++ filename) 60
    W₂.now with e | header
  · exact fun W₃ hR₃ _ => ⟨hR₃.created _ huploads hrecord₂, by rintro _ ⟨⟩⟩
  · rintro W₃ hR₃ hW₃ response W₄ ⟨hput, -⟩
    obtain ⟨hsound, hnow, hdb, hfiles, hup⟩ := PutsUpload.spec hB hput
    have hrecord₄ : recordAt L config.nostrSecretKey W₄.db (Bytes.toHex (L.sha256 payload))
        = none := by
      rw [hdb]
      exact hR₃.created _ huploads hrecord₂
    refine ⟨hsound hW₃, ⟨hnow, fun hash hhash => hfiles hash fun heq => hhash ⟨payload, hpayload, heq⟩,
      fun _ _ _ => by rw [hdb], fun _ _ h => by rwa [hdb], fun _ h => by rwa [hdb],
      fun _ h => by rwa [Deleted, hdb]⟩, ?_⟩
    intro W₅ hR₅ _
    refine ⟨hR₅.created _ huploads hrecord₄, fun sha256 hsha256 => ?_⟩
    obtain ⟨size, url, rfl⟩ := uploadResult_eq_ok hsha256
    obtain ⟨rfl, hstored, serverNow, pubkey, hserver, hauth⟩ := hup sha256 size url rfl (by
      rw [hR₃.files _ huploads, hfile₂])
    refine ⟨rfl, by rw [hR₅.files _ huploads, hstored], ?_⟩
    refine live_of_parseAuthEvent hB hheader (Int.natCast_nonneg _) ?_ ?_ hauth
    · exact_mod_cast hW₂.now_le
    · have := hR₃.now_le
      omega

/-- **`POST /`** keeps its promise: nobody else touches its hash. -/
theorem safe_postBlob (hL : L.Lawful) (hB : Compatible L B)
    (hrequest : request = .post (some file) folder random) (hkey : random.key.length = 32)
    (hiv : random.metadataIv.length = 12)
    (hfile : ∀ hash, Uploads L request hash → W.files hash = none)
    (hrecord : ∀ hash, Uploads L request hash →
      recordAt L config.nostrSecretKey W.db hash = none) :
    Safe (stepOf L config B server timely request) (Sound L config) (Rely L config P request)
      (Guarantee L config request) (Promise L config server P timely request)
      (postBlob L config (some file) folder random) W := by
  have hpayload : payloadOf L request = some (encryptedContent L file random) := by
    rw [hrequest]
    rfl
  have huploads : Uploads L request (Bytes.toHex (L.sha256 (encryptedContent L file random))) :=
    ⟨_, hpayload, rfl⟩
  simp only [postBlob, encryptBlob_upload L hkey, perform, Prog.bind_eq, Prog.perform_bind, Prog.pure_eq]
  refine (safe_uploadBlob hB file.originalname hpayload (hfile _ huploads)
    (hrecord _ huploads)).bind Rely.refl ?_
  rintro (e | sha256) W₁ - ⟨hnone₁, hstored₁⟩
  · exact safe_error 500 e
  obtain ⟨rfl, hfile₁, hlive⟩ := hstored₁ sha256 rfl
  -- the clock is read twice
  refine safe_now fun W₂ hR₂ _ => safe_now fun W₃ hR₃ _ => ?_
  have hR : Rely L config P request W₁ W₃ := hR₂.trans hR₃
  have hnone₃ : recordAt L config.nostrSecretKey W₃.db
      (Bytes.toHex (L.sha256 (encryptedContent L file random))) = none :=
    hR.created _ huploads hnone₁
  have hfile₃ : W₃.files (Bytes.toHex (L.sha256 (encryptedContent L file random)))
      = some (encryptedContent L file random) := (hR.files _ huploads).trans hfile₁
  generalize hmetadata : uploadedMetadata config file folder
    (Bytes.toHex (L.sha256 (encryptedContent L file random))) (Bytes.toHex random.key) W₂.now
    = metadata
  rcases hbuild : buildMetadataEvent L random.metadataIv W₃.now metadata config.nostrSecretKey with
    e | event
  · exact safe_error 500 e
  have hhash : metadata.hash = Bytes.toHex (L.sha256 (encryptedContent L file random)) := by
    rw [← hmetadata]
    rfl
  simp only [publishEvent, perform, Prog.bind_eq, Prog.perform_bind, Prog.op_bind, Prog.pure_eq]
  rintro W₄ hR₄ hW₄ (accepted : Bool) W₅ ⟨hpublish, -⟩
  have hnone₄ : recordAt L config.nostrSecretKey W₄.db metadata.hash = none := by
    rw [hhash]
    exact hR₄.created _ huploads hnone₃
  obtain ⟨hsound, hnow, hfiles, hwritten⟩ := Publishes.spec hL hW₄
    (hhash ▸ Blossom.isHash_toHex (hL.length_sha256 _)) (by rw [← hmetadata]; rfl) hiv hbuild hpublish
  rcases hwritten with ⟨rfl, hdb⟩ | hwritten
  · exact ⟨hsound, .of_eq hnow hfiles hdb, safe_error 500 _⟩
  refine ⟨hsound, .of_write hnow hfiles hwritten (Or.inl ⟨hhash ▸ huploads, hnone₄⟩), ?_⟩
  rcases accepted with - | -
  · exact safe_error 500 _
  -- the register was empty, so the record is in it now
  have hrecord₅ : recordAt L config.nostrSecretKey W₅.db metadata.hash
      = some ((W₃.now : ℤ), .ok metadata) := by
    rw [hwritten, if_pos rfl, hnone₄, Registers.write_none]
  intro W₆ hR₆ _
  rw [hrequest]
  refine ⟨rfl, hhash.symm, ?_, fun hP => ⟨W₃.now, ?_⟩, by rw [← hmetadata]; rfl,
    by rw [← hmetadata]; rfl, hlive⟩
  · rw [hhash, hR₆.files _ huploads, hfiles, hR₄.files _ huploads, hfile₃]
  · rw [hR₆.record _ (hhash ▸ huploads) hP, hrecord₅]

end

/-! ### Deletions -/

/-- **`DELETE /:hash`** keeps its promise: its event finds a record, which it
replaces if it is timely. -/
theorem safe_deleteBlob (hL : L.Lawful) {name : String} {metadataIv : Bytes}
    (hrequest : request = .delete name metadataIv) (hiv : metadataIv.length = 12) :
    Safe (stepOf L config B server timely request) (Sound L config) (Rely L config P request)
      (Guarantee L config request) (Promise L config server P timely request)
      (deleteBlob L config name metadataIv) W := by
  unfold deleteBlob
  rcases hname : normalizeHash name with e | hash
  · exact safe_error 500 e
  have hdeletes : request.Deletes hash := ⟨name, metadataIv, hrequest, hname⟩
  simp only [resolveHash, perform, Prog.bind_eq, Prog.perform_bind, Prog.op_bind, Prog.pure_eq]
  rintro W₁ hR₁ hW₁ (arrived : List Event) W₂ ⟨hquery, -⟩
  obtain ⟨hwaits₂, hresolve⟩ := Queries.spec hL hW₁ (isHash_of_normalizeHash hname) hquery
  refine ⟨hwaits₂.sound hW₁, hwaits₂.guarantee, ?_⟩
  simp only [Prog.ret_bind, hresolve]
  rcases hheld₁ : recordAt L config.nostrSecretKey W₁.db hash with - | held
  · exact safe_error 404 _
  obtain ⟨_, -, metadata, _, -, hhash, rfl⟩ := hW₁.shelf.row_of_recordAt hL hheld₁
  dsimp only [reading]
  -- the clock is read twice
  refine safe_now fun W₃ hR₃ _ => safe_now fun W₄ hR₄ _ => ?_
  have hheld₂ : recordAt L config.nostrSecretKey W₂.db hash ≠ none := by
    rw [hwaits₂.db, hheld₁]
    exact Option.some_ne_none _
  have hheld₄ : recordAt L config.nostrSecretKey W₄.db hash ≠ none :=
    (hR₃.trans hR₄).kept hash hheld₂
  dsimp only [buildSoftDeleteEvent]
  rcases hbuild : buildMetadataEvent L metadataIv W₄.now (softDeleted W₃.now metadata)
    config.nostrSecretKey with e | event
  · exact safe_error 500 e
  simp only [publishEvent, perform, Prog.bind_eq, Prog.perform_bind, Prog.op_bind, Prog.pure_eq]
  rintro W₅ hR₅ hW₅ (accepted : Bool) W₆ ⟨hpublish, htimely⟩
  have hheld₅ : recordAt L config.nostrSecretKey W₅.db hash ≠ none := hR₅.kept hash hheld₄
  have hhash' : (softDeleted W₃.now metadata).hash = hash := hhash
  obtain ⟨hsound, hnow, hfiles, hwritten⟩ := Publishes.spec hL hW₅
    (hhash' ▸ isHash_of_normalizeHash hname) rfl hiv hbuild hpublish
  rcases hwritten with ⟨rfl, hdb⟩ | hwritten
  · exact ⟨hsound, .of_eq hnow hfiles hdb, safe_error 500 _⟩
  have hguarantee : Guarantee L config request W₅ W₆ :=
    .of_write hnow hfiles hwritten (Or.inr ⟨hhash' ▸ hdeletes, hhash' ▸ hheld₅, rfl⟩)
  refine ⟨hsound, hguarantee, ?_⟩
  rcases accepted with - | -
  · exact safe_error 500 _
  intro W₇ hR₇ _
  rw [hrequest]
  intro ht
  refine hR₇.deleted hash ?_
  obtain ⟨held, hheld⟩ := Option.ne_none_iff_exists'.mp hheld₅
  obtain ⟨row, hrow, m, e, hapi, hm, rfl⟩ := hW₅.shelf.row_of_recordAt hL hheld
  have hsame : SameAddress event row :=
    hapi.sameAddress hbuild (hapi.atHash_iff.mpr (hm.trans hhash'.symm))
  have hcases := htimely ht
  rw [hrequest] at hcases
  rcases hcases row hrow hsame with hlt | ⟨m', hparse, hdeleted⟩
  · have hevent : event.createdAt = W₄.now := (buildMetadataEvent_spec hbuild).2.2.1
    refine ⟨W₄.now, softDeleted W₃.now metadata, ?_, rfl⟩
    rw [hwritten, if_pos hhash'.symm, hheld, Registers.write_of_lt (by rwa [← hevent])]
  · obtain rfl : m = m' := Except.ok.inj ((hapi.parse hL).symm.trans hparse)
    exact hguarantee.deleted hash ⟨_, m, hheld, hdeleted⟩

/-! ### Runs -/

section

variable {ι : Type*} {requests : ι → Request}

/-- The random bytes of the requests have their sizes, no iv is drawn twice
for a file, and SHA-256 does not collide on the payloads. -/
structure Fresh (L : Library) (requests : ι → Request) : Prop where
  post : ∀ i file folder random, requests i = .post (some file) folder random →
    random.key.length = 32 ∧ random.iv.length = 12 ∧ random.metadataIv.length = 12
  delete : ∀ i name metadataIv, requests i = .delete name metadataIv → metadataIv.length = 12
  iv : ∀ i j, i ≠ j → ∀ file folder random file' folder' random',
    requests i = .post (some file) folder random →
    requests j = .post (some file') folder' random' → random.iv ≠ random'.iv
  sha256 : Set.InjOn L.sha256 {payload | ∃ i, payloadOf L (requests i) = some payload}

/-- The world before the first request: the relay may hold anything but
metadata events, and the server no file of a hash that is to come. -/
structure Start (L : Library) (requests : ι → Request) (W : World) : Prop where
  now_le : W.now ≤ lastSecond
  unique : Tables.Unique flatSchema.enforced W.db.events
  tagIndex : TagIndex W.db
  noMetadata : ∀ row ∈ W.db.events, row.eventKind ≠ metadataKind
  noFile : ∀ i hash, Uploads L (requests i) hash → W.files hash = none

theorem Start.sound (h : Start L requests W) : Sound L config W :=
  ⟨h.now_le, h.unique, h.tagIndex, fun row hrow hkind => absurd hkind (h.noMetadata row hrow)⟩

theorem Start.recordAt_eq_none (h : Start L requests W) (hash : String) :
    recordAt L config.nostrSecretKey W.db hash = none := by
  refine recordAt_eq_none_iff.mpr fun row hrow => ?_
  by_contra hat
  exact h.noMetadata row hrow (eventKind_of_atHash (by simpa using hat))

theorem iv_of_encryptedContent {file file' : UploadedFile} {random random' : Random}
    (hiv : random.iv.length = 12) (hiv' : random'.iv.length = 12)
    (h : encryptedContent L file random = encryptedContent L file' random') :
    random.iv = random'.iv := by
  simp only [encryptedContent, sealPayload, List.append_assoc, List.singleton_append] at h
  exact (List.cons.inj (List.append_inj h (by simp [hiv, hiv'])).1).2

/-- No two requests upload content of one hash. -/
theorem Fresh.not_uploads (h : Fresh L requests) {i j : ι} (hij : i ≠ j)
    (hup : Uploads L (requests i) hash) : ¬ Uploads L (requests j) hash := by
  rintro ⟨payload', hpayload', hhash'⟩
  obtain ⟨payload, hpayload, hhash⟩ := hup
  obtain rfl := h.sha256 ⟨i, hpayload⟩ ⟨j, hpayload'⟩
    (Bytes.toHex_injective (hhash.trans hhash'.symm))
  rcases hi : requests i with ⟨- | file, folder, random⟩ | name | name | ⟨name, metadataIv⟩ <;>
    rw [hi] at hpayload <;> cases hpayload
  rcases hj : requests j with ⟨- | file', folder', random'⟩ | name | name | ⟨name, metadataIv⟩ <;>
    rw [hj] at hpayload'
  · cases hpayload'
  · refine h.iv i j hij _ _ _ _ _ _ hi hj ?_
    exact iv_of_encryptedContent (h.post i _ _ _ hi).2.1 (h.post j _ _ _ hj).2.1
      (Option.some.inj hpayload').symm
  · cases hpayload'
  · cases hpayload'
  · cases hpayload'

/-- A pool of handlers that have not begun. -/
def begun (L : Library) (config : Config) (requests : ι → Request) (W : World) :
    Pool Op Res World Answer ι :=
  (W, fun i => handle L config (requests i))

/-- Nobody deletes the hash. -/
def NobodyDeletes (requests : ι → Request) (hash : String) : Prop :=
  ∀ i, ¬ (requests i).Deletes hash

theorem safe_handle (hL : L.Lawful) (hB : Compatible L B) (hfresh : Fresh L requests)
    (hstart : Start L requests W) (i : ι) :
    Safe (stepOf L config B server timely (requests i)) (Sound L config)
      (Rely L config P (requests i)) (Guarantee L config (requests i))
      (Promise L config server P timely (requests i)) (handle L config (requests i)) W := by
  rcases hi : requests i with ⟨- | file, folder, random⟩ | name | name | ⟨name, metadataIv⟩
  · exact safe_error 400 _
  · obtain ⟨hkey, -, hmetadataIv⟩ := hfresh.post i _ _ _ hi
    exact safe_postBlob hL hB rfl hkey hmetadataIv (fun hash hup => hstart.noFile i hash (hi ▸ hup))
      fun hash _ => hstart.recordAt_eq_none hash
  · exact (safe_of_all_isRead (all_getMetadata name)).imp fun _ _ _ _ => trivial
  · exact (safe_of_all_isRead (all_getContent name)).imp fun _ _ _ _ => trivial
  · exact safe_deleteBlob hL rfl (hfresh.delete i _ _ hi)

variable [DecidableEq ι] {c : Pool Op Res World Answer ι}

/-- **Every run** keeps the world sound, and every handler safe. -/
theorem run_safe (hL : L.Lawful) (hB : Compatible L B) (hfresh : Fresh L requests)
    (hstart : Start L requests W)
    (hr : PoolReaches (fun i => stepOf L config B server timely (requests i))
      (begun L config requests W) c) :
    Sound L config c.1 ∧ ∀ i, Safe (stepOf L config B server timely (requests i)) (Sound L config)
      (Rely L config (NobodyDeletes requests) (requests i)) (Guarantee L config (requests i))
      (Promise L config server (NobodyDeletes requests) timely (requests i)) (c.2 i) c.1 := by
  refine pool_safe (fun _ => Rely.refl) (fun _ _ _ _ => Rely.trans) ?_ hr hstart.sound
    fun i => safe_handle hL hB hfresh hstart i
  intro i j hij W W' hG
  exact hG.rely (fun hash hup => hfresh.not_uploads hij hup) fun hash hP => hP j

/-- What a handler has promised with its answer holds. -/
theorem promise_of_run (hL : L.Lawful) (hB : Compatible L B) (hfresh : Fresh L requests)
    (hstart : Start L requests W)
    (hr : PoolReaches (fun i => stepOf L config B server timely (requests i))
      (begun L config requests W) c) {i : ι} {answer : Answer} (hi : c.2 i = .ret answer) :
    Promise L config server (NobodyDeletes requests) timely (requests i) answer c.1 := by
  obtain ⟨hsound, hsafe⟩ := run_safe hL hB hfresh hstart hr
  have hret := hsafe i
  rw [hi] at hret
  exact hret c.1 (Rely.refl c.1) hsound

end

end NostrMesh.Api
