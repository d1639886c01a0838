import PlayerInterface.Drm.ClearKeyHelper
import PlayerInterface.Drm.ClearKeyOutcome
import PlayerInterface.Drm.SubSamples

/-!
# From init data to clear samples

A packager encrypts samples with the key of a key id, a license server knows the keys, and a
session gets from the init data to the samples.
-/

namespace PlayerInterface.Drm

open PlayerInterface.Core PlayerInterface.BaseConversion PlayerInterface.Json

/-! ## Counter mode on ranges -/

theorem counterMode_counterMode (keystream : Nat → UInt8) (bs : Bytes) :
    counterMode keystream (counterMode keystream bs) = bs := by
  apply List.ext_getElem (by rw [counterMode_length, counterMode_length])
  intro i _ _
  simp only [counterMode, List.getElem_mapIdx, UInt8.xor_assoc, UInt8.xor_self, UInt8.xor_zero]

/-- Positions of 32 bits are the true ones in a sample that fits them. -/
theorem collectedAt_eq {sample : Bytes} {ranges : List (Nat × Nat)} {source : Nat}
    (hrange : source + rangesTotal ranges ≤ sample.length) (hsmall : sample.length < 2 ^ 32) :
    collectedAt sample ranges source = encryptedBytes ranges (sample.drop source) := by
  induction ranges generalizing source with
  | nil => rfl
  | cons r ranges ih =>
      rw [rangesTotal_cons] at hrange
      have hstart : (source + r.1) % 2 ^ 32 = source + r.1 := Nat.mod_eq_of_lt (by omega)
      have hnext : (source + r.1 + r.2) % 2 ^ 32 = source + (r.1 + r.2) := by omega
      rw [collectedAt, encryptedBytes, hstart, hnext, ih (by omega), List.drop_drop,
        List.drop_drop]

section

variable {ranges : List (Nat × Nat)} {bs xs ys : Bytes}

theorem replaced_length (hbs : rangesTotal ranges ≤ bs.length)
    (hxs : xs.length = encryptedTotal ranges) : (replaced ranges bs xs).length = bs.length := by
  induction ranges generalizing bs xs with
  | nil => rfl
  | cons r ranges ih =>
      rw [rangesTotal_cons] at hbs
      rw [encryptedTotal_cons] at hxs
      rw [replaced, List.length_append, List.length_append, List.length_take, List.length_take,
        ih (by rw [List.length_drop]; omega) (by rw [List.length_drop]; omega), List.length_drop]
      omega

/-- A range and what is behind it, in the sample after the replacement. -/
theorem drop_replaced (r : Nat × Nat) (ranges : List (Nat × Nat)) {bs xs : Bytes}
    (hbs : r.1 + r.2 ≤ bs.length) (hxs : r.2 ≤ xs.length) :
    (replaced (r :: ranges) bs xs).take r.1 = bs.take r.1 ∧
      ((replaced (r :: ranges) bs xs).drop r.1).take r.2 = xs.take r.2 ∧
      (replaced (r :: ranges) bs xs).drop (r.1 + r.2) =
        replaced ranges (bs.drop (r.1 + r.2)) (xs.drop r.2) := by
  have hclear : (bs.take r.1).length = r.1 := by
    rw [List.length_take]
    omega
  have hencrypted : (xs.take r.2).length = r.2 := by
    rw [List.length_take]
    omega
  have hdrop : (replaced (r :: ranges) bs xs).drop r.1 =
      xs.take r.2 ++ replaced ranges (bs.drop (r.1 + r.2)) (xs.drop r.2) :=
    List.drop_left' hclear
  refine ⟨List.take_left' hclear, ?_, ?_⟩
  · rw [hdrop]
    exact List.take_left' hencrypted
  · rw [← List.drop_drop, hdrop]
    exact List.drop_left' hencrypted

/-- What was put into the ranges is found there. -/
theorem encryptedBytes_replaced (hbs : rangesTotal ranges ≤ bs.length)
    (hxs : xs.length = encryptedTotal ranges) :
    encryptedBytes ranges (replaced ranges bs xs) = xs := by
  induction ranges generalizing bs xs with
  | nil => exact (List.eq_nil_of_length_eq_zero hxs).symm
  | cons r ranges ih =>
      rw [rangesTotal_cons] at hbs
      rw [encryptedTotal_cons] at hxs
      have hroom : r.1 + r.2 ≤ bs.length := by omega
      have hdata : r.2 ≤ xs.length := by omega
      obtain ⟨-, hrange, hrest⟩ := drop_replaced r ranges hroom hdata
      rw [encryptedBytes, hrange, hrest, ih (by rw [List.length_drop]; omega)
        (by rw [List.length_drop]; omega), List.take_append_drop]

/-- The last replacement counts. -/
theorem replaced_replaced (hbs : rangesTotal ranges ≤ bs.length)
    (hxs : xs.length = encryptedTotal ranges) :
    replaced ranges (replaced ranges bs xs) ys = replaced ranges bs ys := by
  induction ranges generalizing bs xs ys with
  | nil => rfl
  | cons r ranges ih =>
      rw [rangesTotal_cons] at hbs
      rw [encryptedTotal_cons] at hxs
      have hroom : r.1 + r.2 ≤ bs.length := by omega
      have hdata : r.2 ≤ xs.length := by omega
      obtain ⟨hclear, -, hrest⟩ := drop_replaced r ranges hroom hdata
      rw [replaced, hclear, hrest, ih (by rw [List.length_drop]; omega)
        (by rw [List.length_drop]; omega), replaced]

theorem replaced_encryptedBytes (hbs : rangesTotal ranges ≤ bs.length) :
    replaced ranges bs (encryptedBytes ranges bs) = bs := by
  induction ranges generalizing bs with
  | nil => rfl
  | cons r ranges ih =>
      rw [rangesTotal_cons] at hbs
      have hlength : ((bs.drop r.1).take r.2).length = r.2 := by
        rw [List.length_take, List.length_drop]
        omega
      rw [encryptedBytes, replaced, List.take_left' hlength, List.drop_left' hlength,
        ih (by rw [List.length_drop]; omega), ← List.drop_drop, List.take_append_drop,
        List.take_append_drop]

end

/-! ## Content -/

/-- What a packager makes of a sample. -/
def encrypted (keystream : Nat → UInt8) (ranges : List (Nat × Nat)) (sample : Bytes) : Bytes :=
  replaced ranges sample (counterMode keystream (encryptedBytes ranges sample))

theorem encrypted_length (keystream : Nat → UInt8) {ranges : List (Nat × Nat)} {sample : Bytes}
    (h : rangesTotal ranges ≤ sample.length) :
    (encrypted keystream ranges sample).length = sample.length :=
  replaced_length h (by rw [counterMode_length, encryptedBytes_length h])

theorem encrypted_encrypted (keystream : Nat → UInt8) {ranges : List (Nat × Nat)} {sample : Bytes}
    (h : rangesTotal ranges ≤ sample.length) :
    encrypted keystream ranges (encrypted keystream ranges sample) = sample := by
  have hlength : (counterMode keystream (encryptedBytes ranges sample)).length =
      encryptedTotal ranges := by
    rw [counterMode_length, encryptedBytes_length h]
  rw [encrypted, encrypted, encryptedBytes_replaced h hlength, counterMode_counterMode,
    replaced_replaced h hlength, replaced_encryptedBytes h]

/-- A sample that the plugin can hand over, with its map. -/
structure Content where
  iv : Bytes
  sample : Bytes
  map : List SubSample
  ivLength : iv.length = 8 ∨ iv.length = 16
  total : rangesTotal (map.map SubSample.counts) = sample.length
  protects : 0 < encryptedTotal (map.map SubSample.counts)
  small : sample.length < 2 ^ 31
  mapSize : 6 * map.length < 2 ^ 32

/-- The sample as it is delivered. -/
def Content.delivered (c : Content) (keystream : Bytes → Bytes → Nat → UInt8) (key : Bytes) :
    Bytes :=
  encrypted (keystream key (ClearKeySession.paddedIV c.iv)) (c.map.map SubSample.counts) c.sample

structure DecryptMemory.Enough (mem : DecryptMemory) : Prop where
  mapped : mem.bufferMapped = true ∧ mem.ivMapped = true ∧ mem.reader = true ∧
    mem.subSampleMapped = true
  allocated : mem.pbData = true ∧ mem.decryptedDataBuf = true ∧ mem.ivBuff = true

/-- Whatever is delivered under the key is decrypted. -/
def ClearKeySession.Plays (s : ClearKeySession) (key : Bytes) : Prop :=
  ∀ (keystream : Bytes → Bytes → Nat → UInt8) (mem : DecryptMemory) (c : Content), mem.Enough →
    (s.decryptBuffer (aes_128_ctr keystream) mem (some c.iv) (some (c.delivered keystream key))
      c.map.length (some (mapBytes c.map))).2 = some (0, some c.sample)

theorem encryptedTotal_le (ranges : List (Nat × Nat)) :
    encryptedTotal ranges ≤ rangesTotal ranges := by
  induction ranges with
  | nil => exact Nat.le_refl 0
  | cons r ranges ih =>
      rw [encryptedTotal_cons, rangesTotal_cons]
      omega

/-- A ready session makes of a delivered sample what its own key makes of it. -/
theorem decrypt_delivered {s : ClearKeySession} {held : Bytes}
    (hready : s.m_eKeyState = .KEY_READY) (hctx : s.mOpensslCtx = true)
    (hheld : s.m_keyStr = some held) {mem : DecryptMemory} (hmem : mem.Enough) (c : Content)
    (keystream : Bytes → Bytes → Nat → UInt8) (key : Bytes) :
    (s.decryptBuffer (aes_128_ctr keystream) mem (some c.iv) (some (c.delivered keystream key))
      c.map.length (some (mapBytes c.map))).2 =
      some (0, some (encrypted (keystream held (ClearKeySession.paddedIV c.iv))
        (c.map.map SubSample.counts) (c.delivered keystream key))) := by
  have hlength : (c.delivered keystream key).length = c.sample.length :=
    encrypted_length _ c.total.le
  have htotal := c.total.trans hlength.symm
  have hsmall := c.small
  have hbound := encryptedTotal_le (c.map.map SubSample.counts)
  rw [c.total] at hbound
  have hcollected : collectedAt (c.delivered keystream key) (c.map.map SubSample.counts) 0 =
      encryptedBytes (c.map.map SubSample.counts) (c.delivered keystream key) :=
    collectedAt_eq (by omega) (by omega)
  have hfits : MapFits s mem (c.delivered keystream key) c.map :=
    ⟨hmem.mapped, hmem.allocated, hctx, c.protects, by omega, c.mapSize, hcollected⟩
  obtain ⟨held', hheld', hrun⟩ := mapFits_decrypted hready hheld c.ivLength htotal hfits keystream
  cases hheld.symm.trans hheld'
  exact hrun

/-- One encrypted byte. -/
def oneByte : Content where
  iv := List.replicate 8 0
  sample := [0]
  map := [⟨Word.ofNat 0, Word.ofNat 1⟩]
  ivLength := .inl rfl
  total := rfl
  protects := by decide
  small := by decide
  mapSize := by decide

theorem plays_iff {s : ClearKeySession} {held : Bytes} (hready : s.m_eKeyState = .KEY_READY)
    (hctx : s.mOpensslCtx = true) (hheld : s.m_keyStr = some held) (key : Bytes) :
    s.Plays key ↔ held = key := by
  constructor
  · intro h
    by_contra hne
    -- a key stream that tells the two keys apart
    have hone := h (fun k _ _ => if k = key then 1 else 0) enoughMemory oneByte
      ⟨⟨rfl, rfl, rfl, rfl⟩, rfl, rfl, rfl⟩
    rw [decrypt_delivered hready hctx hheld ⟨⟨rfl, rfl, rfl, rfl⟩, rfl, rfl, rfl⟩,
      Content.delivered, if_pos rfl, if_neg hne] at hone
    revert hone
    decide
  · intro heq keystream mem c hmem
    rw [decrypt_delivered hready hctx hheld hmem, heq, Content.delivered,
      encrypted_encrypted _ c.total.le]

theorem not_plays {s : ClearKeySession} (h : s.m_eKeyState ≠ .KEY_READY) (key : Bytes) :
    ¬ s.Plays key := by
  intro hplays
  have hrun := hplays (fun _ _ _ => 0) enoughMemory oneByte ⟨⟨rfl, rfl, rfl, rfl⟩, rfl, rfl, rfl⟩
  obtain ⟨-, hcount⟩ := decryptBuffer_zero_iff.mp hrun
  rw [if_neg (show ¬ oneByte.map.length = 0 by decide)] at hcount
  obtain ⟨-, -, -, decrypted, hbytes, -⟩ := decryptSubSamples_zero_iff.mp hcount.2
  obtain ⟨padded, hcalls, -⟩ := decryptBytes_ctr.mp hbytes
  exact h hcalls.ready

/-! ## The license server -/

/-- The keys of a server, each for one key id. -/
structure LicenseServer where
  keyOf : Bytes → Option Bytes
  length : ∀ keyId key, keyOf keyId = some key → key.length = 16
  distinct : ∀ keyId keyId' key, keyOf keyId = some key → keyOf keyId' = some key → keyId = keyId'

def keyEntryOf (keyId key : Bytes) : cJSON :=
  .object [(ascii "kty", .string (ascii "oct")), (ascii "kid", .string (base64_URL_Encode keyId)),
    (ascii "k", .string (base64_URL_Encode key))]

namespace LicenseServer

def entry (server : LicenseServer) (kid : cJSON) : Option cJSON :=
  (kid.GetStringValue.bind base64_URL_Decode).bind fun keyId =>
    (server.keyOf keyId).map (keyEntryOf keyId)

/-- The keys it has of those that are asked for. -/
def answer (server : LicenseServer) (request : cJSON) : cJSON :=
  let kids := match request.GetObjectItem (ascii "kids") with
    | some (.array kids) => kids
    | _ => []
  .object [(ascii "keys", .array (kids.filterMap server.entry)),
    (ascii "type", .string (ascii "temporary"))]

theorem answer_request (server : LicenseServer) (keyId : Bytes) :
    server.answer (ClearKeySession.licenseRequest (base64_URL_Encode keyId)) =
      .object [(ascii "keys", .array ((server.keyOf keyId).map (keyEntryOf keyId)).toList),
        (ascii "type", .string (ascii "temporary"))] := by
  have hentry : server.entry (.string (base64_URL_Encode keyId)) =
      (server.keyOf keyId).map (keyEntryOf keyId) := by
    rw [entry, cJSON.GetStringValue, Option.bind_some, base64_URL_Decode_Encode, Option.bind_some]
  have hkids : (ClearKeySession.licenseRequest (base64_URL_Encode keyId)).GetObjectItem
      (ascii "kids") = some (.array [.string (base64_URL_Encode keyId)]) := rfl
  rw [answer, hkids]
  dsimp only
  rw [List.filterMap_cons, hentry]
  cases server.keyOf keyId <;> rfl

end LicenseServer

/-! ## From the init data on -/

/-- The server's answer to the session's request. -/
def Answered (cJSON_Parse : Bytes → Option cJSON) (server : LicenseServer) (s : ClearKeySession)
    (data : Bytes) : Prop :=
  ∃ request, (s.generateKeyRequest true).1 = some request ∧
    cJSON_Parse (cText data) = some (server.answer request)

/-- A session is bound, asks for its key and gets the answer. -/
def playback (initData : Bytes) (beyond : Mem) (data : Bytes) : List ClearKeyCall :=
  [.generateDRMSession (some (Mem.ofBytes initData beyond)) initData.length,
    .generateKeyRequest true, .processDRMKey (some data)]

section

variable {cJSON_Parse : Bytes → Option cJSON} {s : ClearKeySession} {keyId data : Bytes}

/-- The answer to a pending session makes it ready with the key for its key id, if there is one. -/
theorem processDRMKey_answer (hpending : s.m_eKeyState = .KEY_PENDING) (hid : HasKeyId s keyId)
    {server : LicenseServer} (hparse : cJSON_Parse (cText data) =
      some (server.answer (ClearKeySession.licenseRequest (base64_URL_Encode keyId)))) :
    s.processDRMKey cJSON_Parse (some data) = some (match server.keyOf keyId with
      | some key => (1, { s with m_keyStr := some key, m_keyLen := 16, m_eKeyState := .KEY_READY })
      | none => (0, s.keyError)) := by
  rw [server.answer_request] at hparse
  simp only [ClearKeySession.processDRMKey, if_pos hpending, hparse]
  cases hkey : server.keyOf keyId with
  | none => rfl
  | some key =>
      have htake : s.takeKey (some (base64_URL_Encode key)) (some (base64_URL_Encode keyId)) =
          some (1, { s with m_keyStr := some key, m_keyLen := 16, m_eKeyState := .KEY_READY }) := by
        have hmatch : s.matchesKeyId (some keyId) = true := (hid.matchesKeyId_iff _).mpr rfl
        have hlength : key.length = AES_CTR_KEY_LEN := server.length keyId key hkey
        simp only [ClearKeySession.takeKey, base64_URL_Decode_Encode, if_pos hmatch,
          Option.getD_some, if_pos hlength]
        rw [hlength]
        rfl
      exact htake

end

/-- The session that the init data and the answer lead to. -/
theorem playback_run {cJSON_Parse : Bytes → Option cJSON} {server : LicenseServer}
    {initData : Bytes} (hlen : 48 ≤ initData.length) (beyond : Mem) {data : Bytes}
    (hdata : Answered cJSON_Parse server (boundSession (.new true) initData beyond) data) :
    ∃ s, (clearKeySystem cJSON_Parse).run ⟨.new true, none⟩ (playback initData beyond data) =
        some s ∧
      match server.keyOf (keyIdOf (Mem.ofBytes initData beyond)) with
      | some key => s.session.m_eKeyState = .KEY_READY ∧ s.session.mOpensslCtx = true ∧
          s.session.m_keyStr = some key
      | none => s.session.m_eKeyState = .KEY_ERROR := by
  have hid : (keyIdOf (Mem.ofBytes initData beyond)).length = 16 := keyIdOf_length _
  obtain ⟨request, hrequest, hparse⟩ := hdata
  have hbound := boundSession_eq (.new true) hlen beyond
  rw [hbound, (setKeyId_requests (.new true) hid).1] at hrequest
  cases hrequest
  have hbind : (ClearKeySession.new true).generateDRMSession
      (some (Mem.ofBytes initData beyond)) initData.length =
        (ClearKeySession.new true).setKeyId (keyIdOf (Mem.ofBytes initData beyond)) := hbound
  generalize keyIdOf (Mem.ofBytes initData beyond) = keyId at hid hparse hbind
  let pending : ClearKeySession :=
    { (ClearKeySession.new true).setKeyId keyId with m_eKeyState := .KEY_PENDING }
  have hpending : (((ClearKeySession.new true).setKeyId keyId).generateKeyRequest true).2 =
      pending := by
    simp [ClearKeySession.generateKeyRequest, ClearKeySession.setKeyId, hid, pending]
  have hanswer := processDRMKey_answer (s := pending) rfl ⟨rfl, hid, hid⟩ hparse
  rw [playback, System.run, clearKeySystem]
  simp only [clearKeyStep, Option.bind_some, System.run, hbind, hpending, hanswer]
  cases server.keyOf keyId with
  | none => exact ⟨_, rfl, rfl⟩
  | some key => exact ⟨_, rfl, rfl, rfl, rfl⟩

def onesKeyOf (keyId : Bytes) : Option Bytes :=
  if keyId = List.replicate 16 1 then some (List.replicate 16 2) else none

theorem onesKeyOf_some {keyId key : Bytes} (h : onesKeyOf keyId = some key) :
    keyId = List.replicate 16 1 ∧ key = List.replicate 16 2 :=
  (Option.ite_none_right_eq_some.mp h).imp_right fun hkey => (Option.some.inj hkey).symm

/-- A server with one key. -/
def onesServer : LicenseServer where
  keyOf := onesKeyOf
  length _ _ h := (onesKeyOf_some h).2 ▸ rfl
  distinct _ _ _ h h' := (onesKeyOf_some h).1.trans (onesKeyOf_some h').1.symm

/-- A PSSH box with the key id of sixteen ones. -/
def onesPssh : Bytes := zeroFirstPssh.take 32 ++ List.replicate 16 1 ++ [0, 0, 0, 0]

def servedText : Bytes :=
  ascii ("\x7b\"keys\":[\x7b\"kty\":\"oct\",\"kid\":\"AQEBAQEBAQEBAQEBAQEBAQ\"," ++
    "\"k\":\"AgICAgICAgICAgICAgICAg\"\x7d],\"type\":\"temporary\"\x7d")

def parseServed (text : Bytes) : Option cJSON :=
  if text = servedText then
    some (.object [(ascii "keys", .array [.object [(ascii "kty", .string (ascii "oct")),
      (ascii "kid", .string (ascii "AQEBAQEBAQEBAQEBAQEBAQ")),
      (ascii "k", .string (ascii "AgICAgICAgICAgICAgICAg"))]]),
      (ascii "type", .string (ascii "temporary"))])
  else none

theorem onesPssh_request :
    ((boundSession (.new true) onesPssh fun _ => 0).generateKeyRequest true).1 =
      some (ClearKeySession.licenseRequest (base64_URL_Encode (List.replicate 16 1))) := by
  have hlen : 48 ≤ onesPssh.length := by decide
  have hkid : keyIdOf (Mem.ofBytes onesPssh fun _ => 0) = List.replicate 16 1 := by decide +kernel
  rw [boundSession_eq _ hlen, hkid]
  exact (setKeyId_requests _ (List.length_replicate)).1

theorem parseServed_answer : parseServed (cText servedText) = some (onesServer.answer
    (ClearKeySession.licenseRequest (base64_URL_Encode (List.replicate 16 1)))) := by
  have htext : cText servedText = servedText := by decide +kernel
  have hkid : ascii "AQEBAQEBAQEBAQEBAQEBAQ" = base64_URL_Encode (List.replicate 16 1) := by
    decide +kernel
  have hk : ascii "AgICAgICAgICAgICAgICAg" = base64_URL_Encode (List.replicate 16 2) := by
    decide +kernel
  rw [htext, parseServed, if_pos rfl, onesServer.answer_request, hkid, hk]
  rfl

end PlayerInterface.Drm
