/-
NostrMesh/Api/Tampering.lean

What `decryptBlob` makes of payloads that were tampered with.

The version byte is not under the tag, and the fields are cut by hand; with a
cipher that only verifies what it has encrypted (`Ideal`) this leaves no gap:
`decryptBlob` returns data exactly for the payloads that `encryptBlob` has
produced for it under that key, byte for byte (`decryptBlob_eq_ok_iff`), and
fails on all others.

The calls of `encryptBlob` that have been made are a set, so that "produced"
has a meaning: what the cipher could produce under some iv is not enough.  If
the payloads of one key never meet in the iv or behind it (`Spread`), then a
payload that is cut, continued or changed in one byte is none of the others.

Main result: `tamperProof`.
-/
import NostrMesh.Api.Reference

namespace NostrMesh.Api

/-! ### Calls of `encryptBlob` -/

/-- A call of `encryptBlob`, with the bytes that it draws. -/
structure EncryptCall where
  data : Bytes
  existingKeyHex : Option String
  randomKey : Bytes
  iv : Bytes
  length_iv : iv.length = ivLength

namespace EncryptCall

variable (C : Cipher) (call : EncryptCall)

def run : Except String EncryptedBlob :=
  encryptBlob C call.randomKey call.iv call.data call.existingKeyHex

/-- The key that the call takes. -/
def key : Bytes :=
  match call.existingKeyHex with
  | some hex => if hex = "" then call.randomKey else Bytes.ofHex hex
  | none => call.randomKey

/-- The payload under that key. -/
def payload : Bytes := sealPayload C payloadVersion call.key call.iv call.data

variable {C call}

/-- The call succeeds if the key has its size. -/
theorem run_eq_ok_iff {blob : EncryptedBlob} : call.run C = .ok blob ↔
    call.key.length = keyLength ∧ blob = ⟨call.payload C, Bytes.toHex call.key⟩ := by
  show (if call.key.length ≠ keyLength then _ else Except.ok (⟨call.payload C, Bytes.toHex call.key⟩ :
    EncryptedBlob)) = Except.ok blob ↔ _
  by_cases hkey : call.key.length = keyLength
  · rw [if_neg (not_not.mpr hkey), Except.ok.injEq, and_iff_right hkey, eq_comm]
  · simp [hkey]

end EncryptCall

/-! ### Statements -/

section

variable (C : Cipher) (calls : Set EncryptCall)

/-- The cipher verifies what the calls have encrypted, and nothing else. -/
structure Ideal : Prop where
  length_tag : ∀ call ∈ calls, call.key.length = keyLength →
    (C.encrypt call.key call.iv call.data).2.length = authTagLength
  decrypt_encrypt : ∀ call ∈ calls, call.key.length = keyLength →
    C.decrypt call.key call.iv (C.encrypt call.key call.iv call.data).2
      (C.encrypt call.key call.iv call.data).1 = some call.data
  only : ∀ key iv tag encrypted data, key.length = keyLength → iv.length = ivLength →
    tag.length = authTagLength → C.decrypt key iv tag encrypted = some data →
      ∃ call ∈ calls, call.key = key ∧ call.iv = iv ∧
        C.encrypt call.key call.iv call.data = (encrypted, tag)

/-- A call has produced the payload for the data, under the key that the text
stands for. -/
def Produced (encryptionKeyHex : String) (data payload : Bytes) : Prop :=
  ∃ call ∈ calls, ∃ blob, call.run C = .ok blob ∧ call.data = data ∧ blob.ciphertext = payload ∧
    Bytes.ofHex blob.encryptionKey = Bytes.ofHex encryptionKeyHex

/-- Payloads of one key that share their iv, or all that follows it, are the
same. -/
def Spread : Prop :=
  ∀ call ∈ calls, ∀ call' ∈ calls, call.key.length = keyLength → call.key = call'.key →
    (call.iv = call'.iv ∨ C.encrypt call.key call.iv call.data
      = C.encrypt call'.key call'.iv call'.data) →
    call.payload C = call'.payload C

end

/-- Ways to spoil a payload. -/
inductive Tampered (payload : Bytes) : Bytes → Prop
  | truncated (n : ℕ) : n < payload.length → Tampered payload (payload.take n)
  | extended (more : Bytes) : more ≠ [] → Tampered payload (payload ++ more)
  | changed (i : ℕ) (hi : i < payload.length) (byte : UInt8) : byte ≠ payload[i] →
      Tampered payload (payload.set i byte)

/-- The call raises an error. -/
def Fails {α : Type} (result : Except String α) : Prop := ∃ error, result = .error error

/-- Only what was encrypted is decrypted; every other payload fails, however
it came about.  One that was tampered with is such a payload if those of a key
are spread. -/
structure TamperProof (C : Cipher) (calls : Set EncryptCall) : Prop where
  returns : ∀ payload encryptionKeyHex data, decryptBlob C payload encryptionKeyHex = .ok data ↔
    Produced C calls encryptionKeyHex data payload
  rejects : ∀ payload encryptionKeyHex, (∀ data, ¬ Produced C calls encryptionKeyHex data payload) →
    Fails (decryptBlob C payload encryptionKeyHex)
  short : ∀ payload encryptionKeyHex, payload.length ≤ 28 →
    Fails (decryptBlob C payload encryptionKeyHex)
  version : ∀ payload encryptionKeyHex, readUInt8 payload ≠ payloadVersion →
    Fails (decryptBlob C payload encryptionKeyHex)
  tampered : Spread C calls → ∀ payload encryptionKeyHex data,
    Produced C calls encryptionKeyHex data payload → ∀ payload', Tampered payload payload' →
      Fails (decryptBlob C payload' encryptionKeyHex)

variable {C : Cipher} {calls : Set EncryptCall} {payload payload' data : Bytes}
  {encryptionKeyHex : String}

theorem produced_iff : Produced C calls encryptionKeyHex data payload ↔
    ∃ call ∈ calls, call.key.length = keyLength ∧ call.key = Bytes.ofHex encryptionKeyHex ∧
      call.data = data ∧ call.payload C = payload := by
  constructor
  · rintro ⟨call, hmem, blob, hrun, hdata, hpayload, hkey⟩
    obtain ⟨hlength, rfl⟩ := EncryptCall.run_eq_ok_iff.mp hrun
    rw [Bytes.ofHex_toHex] at hkey
    exact ⟨call, hmem, hlength, hkey, hdata, hpayload⟩
  · rintro ⟨call, hmem, hlength, hkey, hdata, hpayload⟩
    exact ⟨call, hmem, _, EncryptCall.run_eq_ok_iff.mpr ⟨hlength, rfl⟩, hdata, hpayload, by
      rw [Bytes.ofHex_toHex, hkey]⟩

/-! ### The fields of a payload -/

theorem take_append_subarray {buffer : Bytes} {start stop : ℕ} (h : start ≤ stop) :
    buffer.take start ++ subarray buffer start stop = buffer.take stop := by
  have hsplit := List.take_append_drop start (buffer.take stop)
  rwa [List.take_take, Nat.min_eq_left h] at hsplit

theorem length_subarray {buffer : Bytes} {start stop : ℕ} (h : stop ≤ buffer.length) :
    (subarray buffer start stop).length = stop - start := by
  rw [subarray, List.length_drop, List.length_take, Nat.min_eq_left h]

/-- A payload that is long enough consists of its fields. -/
theorem fields_append (h : 1 + ivLength + authTagLength ≤ payload.length) :
    [readUInt8 payload] ++ subarray payload 1 (1 + ivLength) ++
      subarray payload (1 + ivLength) (1 + ivLength + authTagLength) ++
      payload.drop (1 + ivLength + authTagLength) = payload := by
  have hhead : [readUInt8 payload] = payload.take 1 := by
    rcases payload with - | ⟨v, rest⟩
    · simp at h
    · rfl
  rw [hhead, take_append_subarray (by simp), take_append_subarray (by simp), List.take_append_drop]

/-- What `decryptBlob` checks, in its order, and what it then gives to the
cipher. -/
theorem decryptBlob_eq_ok : decryptBlob C payload encryptionKeyHex = .ok data ↔
    (Bytes.ofHex encryptionKeyHex).length = keyLength ∧
      1 + ivLength + authTagLength ≤ payload.length ∧ readUInt8 payload = payloadVersion ∧
      C.decrypt (Bytes.ofHex encryptionKeyHex) (subarray payload 1 (1 + ivLength))
        (subarray payload (1 + ivLength) (1 + ivLength + authTagLength))
        (payload.drop (1 + ivLength + authTagLength)) = some data := by
  simp only [decryptBlob]
  split_ifs with hkey hshort hversion
  · simp [hkey]
  · simp [not_le.mpr hshort]
  · simp [hversion]
  · rw [not_not] at hkey hversion
    simp only [hkey, not_lt.mp hshort, hversion, true_and, openPayload]
    split
    · next d hd => rw [hd, Except.ok.injEq, Option.some.injEq]
    · next hd => simp [hd]

/-! ### What is decrypted -/

theorem decryptBlob_eq_ok_iff (h : Ideal C calls) :
    decryptBlob C payload encryptionKeyHex = .ok data ↔
      Produced C calls encryptionKeyHex data payload := by
  rw [decryptBlob_eq_ok, produced_iff]
  constructor
  · -- what verifies comes from a call, and the cut fields are put together again
    rintro ⟨hkey, hlength, hversion, hdecrypt⟩
    obtain ⟨call, hmem, hcallKey, hcallIv, hencrypt⟩ := h.only _ _ _ _ _ hkey
      (length_subarray (by omega)) (length_subarray hlength) hdecrypt
    have hcallLength : call.key.length = keyLength := by rw [hcallKey, hkey]
    refine ⟨call, hmem, hcallLength, hcallKey, ?_, ?_⟩
    · have hback := h.decrypt_encrypt call hmem hcallLength
      rw [hencrypt, hcallKey, hcallIv, hdecrypt] at hback
      exact (Option.some.inj hback).symm
    · rw [EncryptCall.payload, sealPayload, hencrypt, hcallIv, ← hversion]
      exact fields_append hlength
  · -- the fields that the call has joined are cut where they were joined
    rintro ⟨call, hmem, hcallLength, hcallKey, rfl, rfl⟩
    have htag := h.length_tag call hmem hcallLength
    obtain ⟨hcutIv, hcutTag, hcutData⟩ := @cut_append [payloadVersion] call.iv
      (C.encrypt call.key call.iv call.data).2 (C.encrypt call.key call.iv call.data).1 rfl
      call.length_iv htag
    rw [← hcallKey]
    refine ⟨hcallLength, ?_, readUInt8_sealPayload, ?_⟩
    · simp only [EncryptCall.payload, sealPayload, List.length_append, List.length_singleton,
        call.length_iv, htag]
      omega
    · rw [EncryptCall.payload, sealPayload, hcutIv, hcutTag, hcutData]
      exact h.decrypt_encrypt call hmem hcallLength

theorem fails_of_not_ok {α : Type} {result : Except String α} (h : ∀ a, result ≠ .ok a) :
    Fails result := by
  rcases result with e | a
  · exact ⟨e, rfl⟩
  · exact absurd rfl (h a)

/-! ### Tampering -/

theorem EncryptCall.take_payload (call : EncryptCall) :
    (call.payload C).take (1 + ivLength) = payloadVersion :: call.iv := by
  rw [EncryptCall.payload, sealPayload, List.append_assoc]
  exact List.take_left' (by rw [List.length_append, List.length_singleton, call.length_iv])

theorem EncryptCall.drop_payload (call : EncryptCall) :
    (call.payload C).drop (1 + ivLength) = (C.encrypt call.key call.iv call.data).2 ++
      (C.encrypt call.key call.iv call.data).1 := by
  rw [EncryptCall.payload, sealPayload, List.append_assoc]
  exact List.drop_left' (by rw [List.length_append, List.length_singleton, call.length_iv])

/-- A payload that was tampered with is another one, but it still has the
iv, or all that follows it. -/
theorem Tampered.shares (h : Tampered payload payload') (hlength : 1 + ivLength ≤ payload.length)
    (hlength' : 1 + ivLength ≤ payload'.length) :
    payload' ≠ payload ∧ (payload'.take (1 + ivLength) = payload.take (1 + ivLength) ∨
      payload'.drop (1 + ivLength) = payload.drop (1 + ivLength)) := by
  cases h with
  | truncated n hn =>
      rw [List.length_take, Nat.min_eq_left hn.le] at hlength'
      refine ⟨fun heq => ?_, Or.inl ?_⟩
      · have := congrArg List.length heq
        rw [List.length_take] at this
        omega
      · rw [List.take_take, Nat.min_eq_left hlength']
  | extended more hmore =>
      refine ⟨fun heq => hmore (List.append_right_eq_self.mp heq), Or.inl ?_⟩
      exact List.take_append_of_le_length hlength
  | changed i hi byte hbyte =>
      refine ⟨fun heq => hbyte ?_, ?_⟩
      · have hget : (payload.set i byte)[i]? = payload[i]? := by rw [heq]
        simpa [hi] using hget
      · rcases lt_or_ge i (1 + ivLength) with hlt | hge
        · exact Or.inr (List.drop_set_of_lt hlt)
        · exact Or.inl (List.take_set_of_le hge)

/-- A payload that was tampered with is none that was produced. -/
theorem Tampered.not_produced (h : Ideal C calls) (hspread : Spread C calls)
    (hproduced : Produced C calls encryptionKeyHex data payload) (ht : Tampered payload payload')
    (data' : Bytes) : ¬ Produced C calls encryptionKeyHex data' payload' := by
  intro hproduced'
  obtain ⟨-, hlength, -⟩ := decryptBlob_eq_ok.mp ((decryptBlob_eq_ok_iff h).mpr hproduced)
  obtain ⟨-, hlength', -⟩ := decryptBlob_eq_ok.mp ((decryptBlob_eq_ok_iff h).mpr hproduced')
  obtain ⟨call, hmem, hkeyLength, hkey, -, rfl⟩ := produced_iff.mp hproduced
  obtain ⟨call', hmem', hkeyLength', hkey', -, rfl⟩ := produced_iff.mp hproduced'
  -- two calls under one key, whose payloads share one of the two parts
  obtain ⟨hne, hshares⟩ := ht.shares (by omega) (by omega)
  refine hne (hspread call hmem call' hmem' hkeyLength (hkey.trans hkey'.symm) ?_).symm
  rcases hshares with hiv | hrest
  · rw [EncryptCall.take_payload, EncryptCall.take_payload] at hiv
    exact Or.inl (List.cons.inj hiv).2.symm
  · -- both tags have their size, so they end at the same place
    rw [EncryptCall.drop_payload, EncryptCall.drop_payload] at hrest
    obtain ⟨htag, hencrypted⟩ := List.append_inj hrest (by
      rw [h.length_tag call hmem hkeyLength, h.length_tag call' hmem' hkeyLength'])
    exact Or.inr (Prod.ext hencrypted.symm htag.symm)

/-- **Tampered ciphertext is rejected.** -/
theorem tamperProof (h : Ideal C calls) : TamperProof C calls where
  returns _ _ _ := decryptBlob_eq_ok_iff h
  rejects payload encryptionKeyHex hnot :=
    fails_of_not_ok fun data hok => hnot data ((decryptBlob_eq_ok_iff h).mp hok)
  short payload encryptionKeyHex hshort := by
    refine fails_of_not_ok fun data hok => ?_
    obtain ⟨-, hlength, -⟩ := decryptBlob_eq_ok.mp hok
    simp only [ivLength, authTagLength] at hlength
    omega
  version payload encryptionKeyHex hversion :=
    fails_of_not_ok fun data hok => hversion (decryptBlob_eq_ok.mp hok).2.2.1
  tampered hspread payload encryptionKeyHex data hproduced payload' ht :=
    fails_of_not_ok fun data' hok =>
      ht.not_produced h hspread hproduced data' ((decryptBlob_eq_ok_iff h).mp hok)

/-! ### One call -/

/-- The upload of `hi.txt`. -/
def sampleCall : EncryptCall := ⟨[0x68, 0x69], none, Bytes.ofHex sampleKeyHex, sampleBlobIv, rfl⟩

def sampleCallTag : Bytes := Bytes.ofHex "7888cbc733ae37bfb98361fcb624c6f0"

/-- The cipher of the table, which verifies that call alone. -/
def sampleStrictCipher : Cipher where
  encrypt := (tableCipher sampleEntries).encrypt
  decrypt key iv tag encrypted :=
    if key = sampleCall.key ∧ iv = sampleCall.iv ∧ encrypted = Bytes.ofHex "265e" ∧
      tag = sampleCallTag then some sampleCall.data
    else none

theorem sampleStrictCipher_encrypt : sampleStrictCipher.encrypt sampleCall.key sampleCall.iv
    sampleCall.data = (Bytes.ofHex "265e", sampleCallTag) := by
  decide +kernel

theorem sampleStrictCipher_ideal : Ideal sampleStrictCipher {sampleCall} where
  length_tag := by
    rintro call rfl -
    rw [sampleStrictCipher_encrypt]
    rfl
  decrypt_encrypt := by
    rintro call rfl -
    rw [sampleStrictCipher_encrypt]
    simp only [sampleStrictCipher, and_self, if_true]
  only key iv tag encrypted data _ _ _ hdecrypt := by
    simp only [sampleStrictCipher] at hdecrypt
    split at hdecrypt
    · next hall =>
      obtain ⟨rfl, rfl, rfl, rfl⟩ := hall
      exact ⟨sampleCall, rfl, rfl, rfl, sampleStrictCipher_encrypt⟩
    · cases hdecrypt

theorem tamperProof_sample : TamperProof sampleStrictCipher {sampleCall} :=
  tamperProof sampleStrictCipher_ideal

end NostrMesh.Api
