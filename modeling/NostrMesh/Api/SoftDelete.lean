/-
NostrMesh/Api/SoftDelete.lean

A confirmed deletion sticks, if it is timely.

`DeleteSticks` is the property of a family of requests: in every run, from
the answer `deleted: true` on, a new `GET` answers 410 and a new download
sends no file.  It holds of the runs whose deletions are timely
(`deleteSticks_of_timely`): `Deleted` is then an invariant of what remains of
the run.  It fails for a deletion in the second of the upload
(`not_deleteSticks_same_second`): the relay keeps the older of two events with
one `created_at`, and answers `OK true` all the same.
-/
import NostrMesh.Api.RoundTrip

namespace NostrMesh.Api

open Interleaving Relay

variable {L : Library} {config : Config} {B : Blossom.Library} {server : Blossom.Config}
variable {W : World} {name hash : String} {timely : Prop} {request : Request} {P : String → Prop}

/-! ### The property -/

section

variable {ι : Type*} [DecidableEq ι]

/-- `c'` can follow `c`, in a run of these requests. -/
def Follows (L : Library) (config : Config) (B : Blossom.Library) (server : Blossom.Config)
    (timely : Prop) (requests : ι → Request) (c c' : Pool Op Res World Answer ι) : Prop :=
  PoolReaches (fun i => stepOf L config B server timely (requests i)) c c'

/-- Once a deletion has answered, a `GET` that nobody disturbs answers 410,
and whatever the others do, so does every `GET` that has not begun yet, and
no download that has not begun yet sends a file. -/
def DeleteSticks (L : Library) (config : Config) (B : Blossom.Library) (server : Blossom.Config)
    (timely : Prop) (requests : ι → Request) (W : World) : Prop :=
  ∀ c, Follows L config B server timely requests (begun L config requests W) c →
  ∀ i deleted metadataIv, requests i = .delete deleted metadataIv →
  ∀ hash eventId, c.2 i = .ret (.deleted hash eventId) →
  ∀ c', Follows L config B server timely requests c c' →
  ∀ name, normalizeHash name = .ok hash →
    (Surely (eff B server) (getMetadata L config name) c'.1 fun answer _ =>
      answer = .error 410 "Blob metadata is marked deleted") ∧
    (∀ j, c.2 j = getMetadata L config name → ∀ answer, c'.2 j = .ret answer →
      answer = .error 410 "Blob metadata is marked deleted") ∧
    ∀ j, c.2 j = getContent L config name → ∀ contentType contentDisposition body,
      c'.2 j ≠ .ret (.file contentType contentDisposition body)

end

/-! ### Reading a deleted record -/

/-- A query finds the mark. -/
theorem Queries.deleted (hL : L.Lawful) (hW : Sound L config W) (hdeleted : Deleted L config hash W)
    (hhash : Blossom.isHash hash = true) {arrived : List Event} {W' : World}
    (h : Queries (metadataFilterByHash hash) W arrived W') :
    ∃ metadata, resolveMetadata L config.nostrSecretKey arrived = .ok (some metadata) ∧
      metadata.isDeleted = true := by
  obtain ⟨now, metadata, hheld, hmarked⟩ := hdeleted
  obtain ⟨-, hresolve⟩ := Queries.spec hL hW hhash h
  exact ⟨metadata, by rw [hresolve, hheld]; rfl, hmarked⟩

section

variable {R : World → World → Prop}

/-- A query is safe where the record is deleted, and so is what comes after
it, if it is for every marked record. -/
theorem safe_resolveHash_bind {α : Type} (hL : L.Lawful) (hhash : Blossom.isHash hash = true)
    {k : Except String (Option BlobMetadata) → Handler α} {Q : α → World → Prop}
    (hk : ∀ metadata : BlobMetadata, metadata.isDeleted = true → ∀ W,
      Safe (stepOf L config B server timely request)
        (fun W => Sound L config W ∧ Deleted L config hash W) R (Guarantee L config request) Q
        (k (.ok (some metadata))) W) :
    Safe (stepOf L config B server timely request)
      (fun W => Sound L config W ∧ Deleted L config hash W) R (Guarantee L config request) Q
      ((resolveHash L config hash).bind k) W := by
  simp only [resolveHash, perform, Prog.bind_eq, Prog.perform_bind, Prog.op_bind, Prog.pure_eq]
  rintro W₁ - ⟨hW₁, hdeleted⟩ (arrived : List Event) W₂ ⟨hquery, -⟩
  obtain ⟨metadata, hresolve, hmarked⟩ := Queries.deleted hL hW₁ hdeleted hhash hquery
  have hwaits := hquery.1
  refine ⟨⟨hwaits.sound hW₁, ?_⟩, hwaits.guarantee, ?_⟩
  · rwa [Deleted, hwaits.db]
  · simp only [Prog.ret_bind, hresolve]
    exact hk metadata hmarked W₂

/-- A `GET` of a deleted record answers 410, whatever the others do. -/
theorem safe_getMetadata_of_deleted (hL : L.Lawful) (hname : normalizeHash name = .ok hash) :
    Safe (stepOf L config B server timely request)
      (fun W => Sound L config W ∧ Deleted L config hash W) R (Guarantee L config request)
      (fun answer _ => answer = .error 410 "Blob metadata is marked deleted")
      (getMetadata L config name) W := by
  simp only [getMetadata, hname, Prog.bind_eq, Prog.pure_eq]
  refine safe_resolveHash_bind hL (isHash_of_normalizeHash hname) fun metadata hmarked W => ?_
  simp only [hmarked, if_true]
  exact fun _ _ _ => rfl

/-- A download of a deleted record answers 404, whatever the others do. -/
theorem safe_getContent_of_deleted (hrefl : ∀ W, R W W) (hL : L.Lawful)
    (hname : normalizeHash name = .ok hash) :
    Safe (stepOf L config B server timely request)
      (fun W => Sound L config W ∧ Deleted L config hash W) R (Guarantee L config request)
      (fun answer _ => answer = .error 404 "Blob not found") (getContent L config name) W := by
  simp only [getContent, decryptedContent, hname, Prog.bind_eq, Prog.pure_eq]
  refine Safe.bind (Q := fun r _ => r = .error (.error 404 "Blob not found")) hrefl ?_ ?_
  · refine safe_resolveHash_bind hL (isHash_of_normalizeHash hname) fun metadata hmarked W => ?_
    simp only [hmarked, if_true]
    exact fun _ _ _ => rfl
  · rintro _ W₁ - rfl
    exact fun _ _ _ => rfl

end

/-! ### Runs -/

section

variable {ι : Type*} [DecidableEq ι] {requests : ι → Request}
variable {c c' : Pool Op Res World Answer ι}

/-- From a state on in which a record is deleted, it stays deleted, and a
member that is safe there answers as it should. -/
theorem Follows.deleted (hL : L.Lawful) (hB : Compatible L B) (hfresh : Fresh L requests)
    (hstart : Start L requests W)
    (hr : Follows L config B server timely requests (begun L config requests W) c)
    (hdeleted : Deleted L config hash c.1)
    (hr' : Follows L config B server timely requests c c') {j : ι} {Q : Answer → Prop}
    (hj : Safe (stepOf L config B server timely (requests j))
      (fun W => Sound L config W ∧ Deleted L config hash W)
      (Rely L config (NobodyDeletes requests) (requests j)) (Guarantee L config (requests j))
      (fun answer _ => Q answer) (c.2 j) c.1) :
    (Sound L config c'.1 ∧ Deleted L config hash c'.1) ∧ ∀ answer, c'.2 j = .ret answer → Q answer := by
  obtain ⟨hsound, hsafe⟩ := run_safe hL hB hfresh hstart hr
  have hall : ∀ i, Safe (stepOf L config B server timely (requests i))
      (fun W => Sound L config W ∧ Deleted L config hash W)
      (Rely L config (NobodyDeletes requests) (requests i)) (Guarantee L config (requests i))
      (fun answer _ => i = j → Q answer) (c.2 i) c.1 := by
    intro i
    by_cases hij : i = j
    · subst hij
      exact hj.imp fun answer _ _ hQ _ => hQ
    · exact ((hsafe i).inv fun _ _ hG => hG.deleted hash).imp fun _ _ _ _ heq => absurd heq hij
  obtain ⟨hI, hsafe'⟩ := pool_safe (fun _ => Rely.refl) (fun _ _ _ _ => Rely.trans)
    (fun i j hij _ _ hG => hG.rely (fun hash hup => hfresh.not_uploads hij hup) fun hash hP => hP j)
    hr' ⟨hsound, hdeleted⟩ hall
  refine ⟨hI, fun answer hanswer => ?_⟩
  have hret := hsafe' j
  rw [hanswer] at hret
  exact hret c'.1 (Rely.refl c'.1) hI rfl

/-- **A confirmed deletion sticks** in every run whose deletions are
timely. -/
theorem deleteSticks_of_timely (hL : L.Lawful) (hB : Compatible L B) (hfresh : Fresh L requests)
    (hstart : Start L requests W) : DeleteSticks L config B server True requests W := by
  intro c hr i deleted metadataIv hi hash eventId hanswer c' hr' name hname
  have hdeleted : Deleted L config hash c.1 := by
    have hpromise := promise_of_run hL hB hfresh hstart hr hanswer
    rw [hi] at hpromise
    exact hpromise trivial
  refine ⟨?_, fun j hj answer hanswered => ?_, fun j hj contentType contentDisposition body hsent => ?_⟩
  · have htrue : Safe (stepOf L config B server True (requests i))
        (fun W => Sound L config W ∧ Deleted L config hash W)
        (Rely L config (NobodyDeletes requests) (requests i)) (Guarantee L config (requests i))
        (fun _ _ => True) (c.2 i) c.1 := by
      rw [hanswer]
      exact fun _ _ _ => trivial
    obtain ⟨⟨hsound, now, metadata, hheld, hmarked⟩, -⟩ :=
      Follows.deleted hL hB hfresh hstart hr hdeleted hr' htrue
    have hget : Surely (eff B server) (getMetadata L config name) c'.1 fun answer _ => _ :=
      surely_getMetadata fairQueries_eff hL hsound hname hheld
    simpa [hmarked] using hget
  · refine (Follows.deleted (j := j) (Q := fun answer => answer = _) hL hB hfresh hstart hr hdeleted
      hr' ?_).2 answer hanswered
    rw [hj]
    exact safe_getMetadata_of_deleted hL hname
  · have hnone : Answer.file contentType contentDisposition body = .error 404 "Blob not found" := by
      refine (Follows.deleted (j := j) (Q := fun answer => answer = _) hL hB hfresh hstart hr hdeleted
        hr' ?_).2 _ hsent
      rw [hj]
      exact safe_getContent_of_deleted Rely.refl hL hname
    cases hnone

end

/-! ### A deletion in the second of the upload, and one second later -/

theorem normalizeHash_sampleHash : normalizeHash sampleHash = .ok sampleHash :=
  normalizeHash_of_isHash isHash_sampleHash

/-- After the upload, the deletion runs to its answer, in a second that is
not before. -/
theorem sample_deleted (timely : Prop) {metadataIv : Bytes} (now : ℕ) {event : Event}
    (hiv : metadataIv.length = 12) (hle : 1700000000 ≤ now) (hlast : now ≤ 2147483647)
    (hbuild : buildSoftDeleteEvent sampleLibrary metadataIv now now sampleMetadata sampleSecret
      = .ok event)
    (hid : toBuffer event.id ≠ toBuffer sampleCreatedEvent.id ∨ now = 1700000000)
    (htimely : timely → 1700000000 < now) :
    ∃ c : Pool Op Res World Answer Bool,
      Follows sampleLibrary sampleConfig sampleServerLibrary sampleServer timely
        (sampleRequests sampleHash metadataIv)
        (begun sampleLibrary sampleConfig (sampleRequests sampleHash metadataIv) sampleWorld) c ∧
      c.2 false = .ret (.deleted sampleHash event.id) ∧ Sound sampleLibrary sampleConfig c.1 ∧
      recordAt sampleLibrary sampleSecret c.1.db sampleHash
        = Registers.write (some (1700000000, .ok sampleMetadata))
            ((now : ℤ), .ok (softDeleted now sampleMetadata)) := by
  obtain ⟨⟨W, p⟩, hr, -, hp, hnow, hids, hrecord⟩ := sample_created timely sampleHash metadataIv
  dsimp only at hp hnow hids hrecord
  obtain ⟨hsound, -⟩ := run_safe sampleLibrary_lawful sampleLibrary_compatible (sample_fresh hiv)
    sample_start hr
  have hwaits : W.Waits ⟨now, W.files, W.db⟩ :=
    ⟨now, by omega, hlast.trans (by decide), rfl⟩
  obtain ⟨W', hruns, hpublish⟩ : ∃ W', Runs (stepOf sampleLibrary sampleConfig sampleServerLibrary
        sampleServer timely (.delete sampleHash metadataIv)) (p false) W
        (.deleted sampleHash event.id) W' ∧ Publishes event ⟨now, W.files, W.db⟩ true W' := by
    rw [hp]
    refine runs_deleteBlob sampleLibrary_lawful hsound hwaits normalizeHash_sampleHash hrecord hbuild
      ?_ ?_ ?_
    · simp only [integerError]
      rw [if_pos ⟨by omega, by exact_mod_cast hlast⟩]
    · refine hid.imp (fun hne hmem => hne (hids _ hmem)) fun heq => ?_
      simp [heq]
    · exact fun ht => by exact_mod_cast htimely ht
  have hisHash : Blossom.isHash (softDeleted now sampleMetadata).hash = true :=
    isHash_of_normalizeHash normalizeHash_sampleHash
  obtain ⟨hsound', -, -, ⟨hrefused, -⟩ | hwritten⟩ := Publishes.spec sampleLibrary_lawful
    (hwaits.sound hsound) hisHash rfl hiv hbuild hpublish
  · cases hrefused
  refine ⟨_, hr.trans (PoolReaches.of_runs (i := false) hruns), by simp only [Function.update_self],
    hsound', ?_⟩
  have hafter := hwritten sampleHash
  rw [if_pos (show sampleHash = (softDeleted now sampleMetadata).hash from rfl)] at hafter
  rw [← hrecord]
  exact hafter

/-- **A deletion in the second of the upload** is confirmed, and nothing is
deleted. -/
theorem not_deleteSticks_same_second :
    ¬ DeleteSticks sampleLibrary sampleConfig sampleServerLibrary sampleServer False
      (sampleRequests sampleHash sampleIvDeleted₀) sampleWorld := by
  intro h
  have hbuild : buildSoftDeleteEvent sampleLibrary sampleIvDeleted₀ (1700000000 : ℕ)
      (1700000000 : ℕ) sampleMetadata sampleSecret = .ok (sampleEventOf sampleIvDeleted₀
        (1700000000 : ℕ) (softDeleted (1700000000 : ℕ) sampleMetadata)) :=
    buildMetadataEvent_sample _ _
      ((validateMetadata_softDeleted _ _).trans validateMetadata_sampleMetadata)
  obtain ⟨c, hr, hanswer, hsound, hrecord⟩ := sample_deleted False 1700000000 (by decide) le_rfl
    (by decide) hbuild (Or.inr rfl) False.elim
  obtain ⟨⟨⟨answer, W', hget⟩, hgone⟩, -⟩ :=
    h c hr false _ _ rfl _ _ hanswer c .refl sampleHash normalizeHash_sampleHash
  -- the register holds the event of the upload
  rw [Registers.write_of_le (by exact le_rfl)] at hrecord
  have hfound : Surely (eff sampleServerLibrary sampleServer)
      (getMetadata sampleLibrary sampleConfig sampleHash) c.1 fun answer _ => _ :=
    surely_getMetadata fairQueries_eff sampleLibrary_lawful hsound normalizeHash_sampleHash hrecord
  have hmetadata := hfound.2 _ _ hget
  rw [hgone _ _ hget, if_neg (by decide)] at hmetadata
  cases hmetadata

/-- **One second later** it is deleted. -/
theorem deleteSticks_next_second : ∃ c : Pool Op Res World Answer Bool,
    Follows sampleLibrary sampleConfig sampleServerLibrary sampleServer True
      (sampleRequests sampleHash sampleIvDeleted₁)
      (begun sampleLibrary sampleConfig (sampleRequests sampleHash sampleIvDeleted₁) sampleWorld) c ∧
    Surely (eff sampleServerLibrary sampleServer) (getMetadata sampleLibrary sampleConfig sampleHash)
      c.1 fun answer _ => answer = .error 410 "Blob metadata is marked deleted" := by
  have hbuild : buildSoftDeleteEvent sampleLibrary sampleIvDeleted₁ (1700000001 : ℕ)
      (1700000001 : ℕ) sampleMetadata sampleSecret = .ok (sampleEventOf sampleIvDeleted₁
        (1700000001 : ℕ) (softDeleted (1700000001 : ℕ) sampleMetadata)) :=
    buildMetadataEvent_sample _ _
      ((validateMetadata_softDeleted _ _).trans validateMetadata_sampleMetadata)
  have hid : toBuffer (sampleEventOf sampleIvDeleted₁ (1700000001 : ℕ)
      (softDeleted (1700000001 : ℕ) sampleMetadata)).id ≠ toBuffer sampleCreatedEvent.id := by
    have hkind : ¬ metadataKind = authKind := by decide
    have hlater : ¬ (1700000000 : ℤ) = 1700000001 := by decide
    simp only [sampleCreatedEvent, sampleEventOf, signedEvent, sampleLibrary, sampleEventHash,
      metadataTemplate, hkind, hlater, if_false, Nat.cast_ofNat, if_true]
    split_ifs <;> decide +kernel
  obtain ⟨c, hr, hanswer, -⟩ := sample_deleted True 1700000001 (by decide) (by decide) (by decide)
    hbuild (Or.inl hid) fun _ => by decide
  have hsticks : DeleteSticks sampleLibrary sampleConfig sampleServerLibrary sampleServer True
      (sampleRequests sampleHash sampleIvDeleted₁) sampleWorld :=
    deleteSticks_of_timely sampleLibrary_lawful sampleLibrary_compatible (sample_fresh (by decide))
      sample_start
  exact ⟨c, hr, (hsticks c hr false _ _ rfl _ _ hanswer c .refl sampleHash
    normalizeHash_sampleHash).1⟩

end NostrMesh.Api
