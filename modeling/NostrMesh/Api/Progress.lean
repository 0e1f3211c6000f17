/-
NostrMesh/Api/Progress.lean

What the handlers achieve when nothing goes wrong.

A metadata event fits the columns of the relay, so that the relay can accept
it (`exists_publishes`).  With that, an upload can run to its 201
(`runs_postBlob`) and a deletion to `deleted: true` (`runs_deleteBlob`).
-/
import NostrMesh.Api.Handlers

namespace NostrMesh.Api

open Interleaving Relay

variable {L : Library} {config : Config} {B : Blossom.Library} {server : Blossom.Config}
variable {W W' : World} {metadata : BlobMetadata} {event : Event} {iv : Bytes} {now : ℤ}
variable {timely : Prop}

/-! ### Publishing -/

theorem textError_eq_none {s : String} (h : ∀ c ∈ s.toList, c.toNat ≠ 0) : textError s = none := by
  refine if_neg fun hzero => h _ hzero ?_
  decide

theorem textError_of_isHash {hash : String} (h : Blossom.isHash hash = true) :
    textError hash = none := by
  refine textError_eq_none fun c hc => ?_
  have := (isPlain_of_isHash h c hc).2.2
  omega

theorem textError_toBase64 (bs : Bytes) : textError (Bytes.toBase64 bs) = none := by
  refine textError_eq_none fun c hc => ?_
  rw [Bytes.toBase64, String.toList_ofList] at hc
  have := (Bytes.toNat_of_mem_base64Chars hc).1
  omega

/-- A metadata event fits the columns, as long as its time does. -/
theorem columnError_metadata (hhash : Blossom.isHash metadata.hash = true)
    (hbuild : buildMetadataEvent L iv now metadata config.nostrSecretKey = .ok event)
    (hnow : integerError now = none) (firstSeen : ℕ) :
    (upsertRow firstSeen ((received event none).incoming
      (attached (received event none).toEvent))).columnError = none := by
  obtain ⟨-, hkind, hcreatedAt, htags, hcontent⟩ := buildMetadataEvent_spec hbuild
  have haddr := addressOf_buildMetadataEvent hbuild
  have hdedup : (upsertRow firstSeen ((received event none).incoming
      (attached (received event none).toEvent))).eventDeduplication
      = some (.ofStrings [metadata.hash]) := by
    have hsome : (addressOf (received event none).toEvent).isSome := by
      rw [show (received event none).toEvent = event from rfl, haddr]
      rfl
    exact (rowOf_upsertRow _ firstSeen hsome).eventDeduplication.trans haddr
  have htext := textError_of_isHash hhash
  have hnames : textError "d" = none ∧ textError "client" = none ∧ textError "nostrmesh" = none ∧
      textError "encrypted" = none ∧ textError "aead-v1" = none := by decide
  have hinteger : integerError (metadataKind : ℤ) = none := by decide
  rw [EventRow.columnError, hdedup]
  simp [upsertRow, insertRow, ReceivedEvent.incoming, received, hkind, hcreatedAt, hnow, hinteger,
    htags, hnames, hcontent, encryptMetadata, textError_toBase64, Deduplication.error, htext]

/-- **The relay can accept a metadata event**, if its id is new or the
register holds something that is not older. -/
theorem exists_publishes (hL : L.Lawful) (hW : Sound L config W)
    (hhash : Blossom.isHash metadata.hash = true)
    (hbuild : buildMetadataEvent L iv now metadata config.nostrSecretKey = .ok event)
    (hnow : integerError now = none)
    (hid : toBuffer event.id ∉ W.db.ids ∨ ∃ t held,
      recordAt L config.nostrSecretKey W.db metadata.hash = some (t, held) ∧ now ≤ t) :
    ∃ W', Publishes event W true W' ∧ W'.now = W.now ∧
      ∀ id ∈ W'.db.ids, id = toBuffer event.id ∨ id ∈ W.db.ids := by
  have hevent : (received event none).toEvent = event := rfl
  have haddr : (addressOf (received event none).toEvent).isSome := by
    rw [hevent, addressOf_buildMetadataEvent hbuild]
    rfl
  have hack := acknowledged_of_fits (F := ⟨none, none⟩) 0 haddr hW.shelf.unique rfl
    (columnError_metadata hhash hbuild hnow 0) (by
      refine hid.imp id ?_
      rintro ⟨t, held, hheld, hle⟩
      obtain ⟨row, hrow, m, e, hapi, hm, hfound⟩ := hW.shelf.row_of_recordAt hL hheld
      obtain ⟨rfl, -⟩ := Prod.mk.inj hfound
      refine ⟨row, hrow, hapi.sameAddress hbuild (hapi.atHash_iff.mpr hm), ?_⟩
      rw [hevent, (buildMetadataEvent_spec hbuild).2.2.1]
      exact hle)
  obtain ⟨hcases, -⟩ := handleEvent_addressed ⟨none, none⟩ 0 W.db haddr
  refine ⟨{ W with db := (handleEvent flatSchema ⟨none, none⟩ 0 (received event none) W.db).2 },
    ⟨W, hW.waits, Or.inr ⟨⟨none, none⟩, 0, none, _, _, rfl, rfl, fun _ => hack⟩⟩, rfl, ?_⟩
  obtain ⟨hrefused, -⟩ | ⟨-, hup⟩ := hcases
  · exact absurd hack hrefused
  · dsimp only
    intro id hmem
    generalize (handleEvent flatSchema ⟨none, none⟩ 0 (received event none) W.db).2 = db' at hup hmem
    obtain ⟨row, hrow, rfl⟩ := List.mem_map.mp hmem
    cases hup with
    | inserted new hnew hfree =>
        rcases (by simpa [Tables.Change.apply] using hrow : row ∈ W.db.events ∨ row = new) with
          hold | rfl
        · exact Or.inr (List.mem_map_of_mem hold)
        · exact Or.inl hnew.eventId
    | replaced old new hold hsame hlt hnew =>
        rcases (Tables.mem_apply_update hold).mp hrow with rfl | ⟨hother, -⟩
        · exact Or.inl hnew.eventId
        · exact Or.inr (List.mem_map_of_mem hother)
    | kept old hold hsame hle => exact Or.inr (List.mem_map_of_mem hrow)

/-! ### Uploads -/

/-- The server stores a body that is small enough, under a header that it
accepts. -/
theorem serveUpload_completes (hB : Compatible L B) {header content : String} {payload : Bytes}
    (hnow : W.now ≤ lastSecond)
    (hheader : buildAuthHeader L config.nostrSecretKey "upload" content 60 W.now = .ok header)
    (hlive : server.requireAuth = true → 0 ≤ 60 + server.maxClockSkewSeconds)
    (hsize : payload.length ≤ server.maxUploadBytes) (hne : payload ≠ [])
    (hfree : W.files (Bytes.toHex (L.sha256 payload)) = none) :
    serveUpload B server header payload .completes W =
      (.uploaded (Bytes.toHex (L.sha256 payload)) payload.length
          (server.publicBaseUrl ++ "/" ++ Bytes.toHex (L.sha256 payload)),
        Function.update W.files (Bytes.toHex (L.sha256 payload)) (some payload)) := by
  obtain ⟨pubkey, hauth⟩ : ∃ pubkey,
      Blossom.parseAuthEvent B server W.now (some header) "upload" = .ok pubkey := by
    rcases hrequire : server.requireAuth with - | -
    · exact ⟨some (.str "anonymous"), by simp [Blossom.parseAuthEvent, hrequire]⟩
    · have hbound : ((W.now : ℤ) + 60).natAbs < Js.exponentBound := by
        have := lastSecond_lt
        omega
      have := hlive hrequire
      exact (parseAuthEvent_buildAuthHeader hB hrequire hheader hbound).mpr ⟨rfl, by omega⟩
  have hhash : Blossom.hashBuffer B payload = Bytes.toHex (L.sha256 payload) := by
    rw [Blossom.hashBuffer, hB.sha256]
  simp only [serveUpload, Blossom.serve, Option.filter_none, Blossom.putUpload, Option.getD_some,
    hauth]
  rw [if_neg (by omega), if_neg hne]
  simp only [Blossom.storeBlob, hhash, hfree]

/-- The payload is stored at once, and nothing is lost. -/
theorem putsUpload_completes (hB : Compatible L B) {header content hash : String} {payload : Bytes}
    (hnow : W.now ≤ lastSecond)
    (hheader : buildAuthHeader L config.nostrSecretKey "upload" content 60 W.now = .ok header)
    (hlive : server.requireAuth = true → 0 ≤ 60 + server.maxClockSkewSeconds)
    (hsize : payload.length ≤ server.maxUploadBytes) (hne : payload ≠ [])
    (hhash : Bytes.toHex (L.sha256 payload) = hash) (hfree : W.files hash = none) :
    PutsUpload B server header payload W
      (.uploaded hash payload.length (server.publicBaseUrl ++ "/" ++ hash))
      ⟨W.now, Function.update W.files hash (some payload), W.db⟩ := by
  subst hhash
  have hserved := serveUpload_completes hB hnow hheader hlive hsize hne hfree
  exact ⟨W, World.waits_self hnow, Or.inr ⟨.completes, by rw [hserved], Or.inl (by rw [hserved])⟩⟩

section

variable {file : UploadedFile} {folder : Option String} {random : Random}

/-- **An upload can run to its 201**, within one second. -/
theorem runs_postBlob (hL : L.Lawful) (hB : Compatible L B) (hW : Sound L config W)
    (hkey : random.key.length = 32) (hiv : random.metadataIv.length = 12) {hash : String}
    (hhash : Bytes.toHex (L.sha256 (encryptedContent L file random)) = hash)
    (hmetadata : uploadedMetadata config file folder hash (Bytes.toHex random.key) W.now = metadata)
    (hbuild : buildMetadataEvent L random.metadataIv W.now metadata config.nostrSecretKey
      = .ok event)
    (hlive : server.requireAuth = true → 0 ≤ 60 + server.maxClockSkewSeconds)
    (hsize : (encryptedContent L file random).length ≤ server.maxUploadBytes)
    (hfree : W.files hash = none)
    (hnow : integerError W.now = none) (hid : toBuffer event.id ∉ W.db.ids) :
    ∃ W', Runs (stepOf L config B server timely (.post (some file) folder random))
        (postBlob L config (some file) folder random) W
        (.created event.id hash (downloadUrl hash) metadata) W' ∧
      W'.now = W.now ∧ (∀ id ∈ W'.db.ids, id = toBuffer event.id ∨ id ∈ W.db.ids) ∧
      recordAt L config.nostrSecretKey W'.db hash
        = Registers.write (recordAt L config.nostrSecretKey W.db hash) (W.now, .ok metadata) := by
  have hisHash : Blossom.isHash hash = true := hhash ▸ Blossom.isHash_toHex (hL.length_sha256 _)
  have hmetadataHash : metadata.hash = hash := by
    rw [← hmetadata]
    rfl
  have hne : encryptedContent L file random ≠ [] := by
    simp [encryptedContent, sealPayload]
  have hhashNe : hash ≠ "" := by
    rintro rfl
    exact absurd hisHash (by decide)
  obtain ⟨header, hheader⟩ : ∃ header, buildAuthHeader L config.nostrSecretKey "upload"
      ("Upload " ++ file.originalname) 60 W.now = .ok header :=
    exists_buildAuthHeader_iff.mpr (exists_buildMetadataEvent_iff.mp ⟨event, hbuild⟩).2
  -- the file is written, and then the event is published in this world
  let W₁ : World := ⟨W.now, Function.update W.files hash (some (encryptedContent L file random)), W.db⟩
  have hput : PutsUpload B server header (encryptedContent L file random) W _ W₁ :=
    putsUpload_completes hB hW.now_le hheader hlive hsize hne hhash hfree
  obtain ⟨W', hpublish, hnow', hids⟩ := exists_publishes (W := W₁) hL ⟨hW.now_le, hW.shelf⟩
    (hmetadataHash ▸ hisHash) hbuild hnow (Or.inl hid)
  obtain ⟨-, -, -, ⟨hrefused, -⟩ | hwritten⟩ := Publishes.spec (W := W₁) hL ⟨hW.now_le, hW.shelf⟩
    (hmetadataHash ▸ hisHash) (by rw [← hmetadata]; rfl) hiv hbuild hpublish
  · cases hrefused
  refine ⟨W', ?_, hnow', hids, by rw [hwritten, if_pos hmetadataHash.symm]⟩
  simp only [postBlob, encryptBlob_upload L hkey, uploadBlob, publishEvent, perform, Prog.bind_eq,
    Prog.perform_bind, Prog.op_bind, Prog.pure_eq]
  refine runs_op_iff.mpr ⟨(W.now : ℤ), W, ⟨readsClock_now hW.now_le, fun _ => trivial⟩, ?_⟩
  rw [hheader]
  refine runs_op_iff.mpr ⟨_, W₁, ⟨hput, fun _ => trivial⟩, ?_⟩
  simp only [uploadResult, hhashNe, if_false, Prog.ret_bind]
  refine runs_op_iff.mpr ⟨(W.now : ℤ), W₁, ⟨@readsClock_now W₁ hW.now_le, fun _ => trivial⟩, ?_⟩
  refine runs_op_iff.mpr ⟨(W.now : ℤ), W₁, ⟨@readsClock_now W₁ hW.now_le, fun _ => trivial⟩, ?_⟩
  simp only [hmetadata, hbuild]
  refine runs_op_iff.mpr ⟨true, W', ⟨hpublish, fun _ => trivial⟩, ?_⟩
  simp only [if_true, hmetadataHash]
  exact .ret _ _

end

/-! ### Deletions -/

/-- **A deletion can run to its `deleted: true`**, within one second `W'.now`;
its event is timely if the register holds something older. -/
theorem runs_deleteBlob (hL : L.Lawful) (hW : Sound L config W) (hwaits : W.Waits W')
    {name hash : String} (hname : normalizeHash name = .ok hash) {t : ℤ}
    (hheld : recordAt L config.nostrSecretKey W.db hash = some (t, .ok metadata))
    (hbuild : buildSoftDeleteEvent L iv W'.now W'.now metadata config.nostrSecretKey = .ok event)
    (hnow : integerError W'.now = none) (hid : toBuffer event.id ∉ W.db.ids ∨ (W'.now : ℤ) ≤ t)
    (htimely : timely → t < W'.now) :
    ∃ W'', Runs (stepOf L config B server timely (.delete name iv)) (deleteBlob L config name iv) W
        (.deleted hash event.id) W'' ∧ Publishes event W' true W'' := by
  have hW' := hwaits.sound hW
  rw [← hwaits.db] at hheld hid
  obtain ⟨row, hrow, m, e, hapi, hhash, hfound⟩ := hW'.shelf.row_of_recordAt hL hheld
  obtain ⟨rfl, hm⟩ := Prod.mk.inj hfound
  obtain rfl := Except.ok.inj hm
  have hdeleted : (softDeleted W'.now metadata).hash = hash := hhash
  obtain ⟨arrived, hquery⟩ := exists_queries hL hW' (isHash_of_normalizeHash hname)
  obtain ⟨-, hresolve⟩ := Queries.spec hL hW' (isHash_of_normalizeHash hname) hquery
  obtain ⟨W'', hpublish, -, -⟩ := exists_publishes hL hW'
    (hdeleted ▸ isHash_of_normalizeHash hname) hbuild hnow
    (hid.imp id fun hle => ⟨_, _, hdeleted ▸ hheld, hle⟩)
  have hstep : stepOf L config B server timely (.delete name iv) (.publish event) W' true W'' := by
    refine ⟨hpublish, fun ht r hr hsame => Or.inl ?_⟩
    have hrow' : SameAddress event row :=
      hapi.sameAddress hbuild (hapi.atHash_iff.mpr (hhash.trans hdeleted.symm))
    obtain rfl := eq_of_sameAddress hW'.shelf.unique hr hrow hsame hrow'
    rw [(buildMetadataEvent_spec hbuild).2.2.1]
    exact htimely ht
  refine ⟨W'', ?_, hpublish⟩
  simp only [deleteBlob, hname, resolveHash, publishEvent, perform, Prog.bind_eq,
    Prog.perform_bind, Prog.op_bind, Prog.pure_eq]
  refine runs_op_iff.mpr ⟨arrived, W', ⟨⟨hwaits, hquery.2⟩, fun _ => trivial⟩, ?_⟩
  simp only [Prog.ret_bind, hresolve, hheld, reading]
  refine runs_op_iff.mpr ⟨(W'.now : ℤ), W', ⟨⟨hW'.waits, rfl⟩, fun _ => trivial⟩, ?_⟩
  refine runs_op_iff.mpr ⟨(W'.now : ℤ), W', ⟨⟨hW'.waits, rfl⟩, fun _ => trivial⟩, ?_⟩
  simp only [hbuild]
  refine runs_op_iff.mpr ⟨true, W'', hstep, ?_⟩
  simp only [if_true]
  exact .ret _ _

end NostrMesh.Api
