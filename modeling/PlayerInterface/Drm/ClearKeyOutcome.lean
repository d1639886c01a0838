import PlayerInterface.Drm.ClearKeyReady

/-!
# What a ClearKey license response leads to

A response may bring many keys and the one asked for may be any of them. The session
looks at the first one only, compares the decoded key id, takes every item for a string
and forgets to fail when there is no list of keys at all.
-/

namespace PlayerInterface.Drm

open PlayerInterface.Core PlayerInterface.BaseConversion PlayerInterface.Json

/-! ## What a response grants -/

/-- An entry names the key id and has a key of sixteen bytes. -/
structure Grants (entry : cJSON) (keyId key : Bytes) : Prop where
  kid : (entry.GetObjectItem (ascii "kid")).bind cJSON.GetStringValue =
    some (base64_URL_Encode keyId)
  k : ((entry.GetObjectItem (ascii "k")).bind cJSON.GetStringValue).bind base64_URL_Decode =
    some key
  length : key.length = 16

/-- The entry may be anywhere in the array. -/
def Granted (licenseResponse : cJSON) (keyId key : Bytes) : Prop :=
  ∃ keys, licenseResponse.GetObjectItem (ascii "keys") = some (.array keys) ∧
    ∃ entry ∈ keys, Grants entry keyId key

/-- Success brings a granted key, and failure means that there is none. -/
inductive Settled (granted : Bytes → Prop) : Nat → ClearKeySession → Prop
  | taken {key : Bytes} {s : ClearKeySession} (hgranted : granted key)
      (hstate : s.m_eKeyState = .KEY_READY) (hkey : s.m_keyStr = some key)
      (hlength : s.m_keyLen = 16) : Settled granted 1 s
  | refused {s : ClearKeySession} (hnone : ∀ key, ¬ granted key)
      (hstate : s.m_eKeyState = .KEY_ERROR) : Settled granted 0 s

/-- A pending session is settled by the response, any other one is left alone. -/
structure Answers (cJSON_Parse : Bytes → Option cJSON) (s : ClearKeySession) (data : Bytes) :
    Prop where
  pending : s.m_eKeyState = .KEY_PENDING → ∃ keyId ret t, s.m_keyId = some keyId ∧
    s.processDRMKey cJSON_Parse (some data) = some (ret, t) ∧
    Settled (fun key => ∃ licenseResponse, cJSON_Parse (cText data) = some licenseResponse ∧
      Granted licenseResponse keyId key) ret t
  idle : s.m_eKeyState ≠ .KEY_PENDING →
    s.processDRMKey cJSON_Parse (some data) = some (0, s)

/-! ## What the session looks at -/

/-- The text of an item of the first entry. -/
def itemText (licenseResponse : cJSON) (name : Bytes) : Option Bytes :=
  (keyItem licenseResponse name).bind cJSON.GetStringValue

structure FirstGrants (licenseResponse : cJSON) (keyId key : Bytes) : Prop where
  kid : (itemText licenseResponse (ascii "kid")).bind base64_URL_Decode = some keyId
  k : (itemText licenseResponse (ascii "k")).bind base64_URL_Decode = some key
  length : key.length = 16

/-- There are keys, what is taken for a string is one, and the first entry stands for all. -/
structure FirstDecides (licenseResponse : cJSON) (keyId : Bytes) : Prop where
  keys : licenseResponse.GetObjectItem (ascii "keys") ≠ none
  texts : keyItem licenseResponse (ascii "k") ≠ none →
    keyItem licenseResponse (ascii "kid") ≠ none →
      itemText licenseResponse (ascii "kid") ≠ none ∧
      ((itemText licenseResponse (ascii "kid")).bind base64_URL_Decode = some keyId →
        itemText licenseResponse (ascii "k") ≠ none)
  granted : ∀ key, FirstGrants licenseResponse keyId key → Granted licenseResponse keyId key
  first : ∀ key, Granted licenseResponse keyId key → ∃ key, FirstGrants licenseResponse keyId key

/-- The key id of a pending session, with its length. -/
def HasKeyId (s : ClearKeySession) (keyId : Bytes) : Prop :=
  s.m_keyId = some keyId ∧ keyId.length = 16 ∧ s.m_keyIdLen = 16

theorem ClearKeySession.Shaped.hasKeyId {s : ClearKeySession} (h : s.Shaped)
    (hpending : s.m_eKeyState = .KEY_PENDING) : ∃ keyId, HasKeyId s keyId := by
  rcases Option.ne_none_iff_exists'.mp (h.pending hpending) with ⟨keyId, hkeyId⟩
  exact ⟨keyId, hkeyId, h.keyId keyId hkeyId⟩

theorem HasKeyId.matchesKeyId_iff {s : ClearKeySession} {keyId : Bytes} (h : HasKeyId s keyId)
    (resKeyId : Option Bytes) : s.matchesKeyId resKeyId = true ↔ resKeyId = some keyId := by
  rcases h with ⟨hid, hlength, hlen⟩
  rw [ClearKeySession.matchesKeyId, decide_eq_true_eq, hid, hlen]
  cases resKeyId with
  | none => simp
  | some resKeyId =>
      rw [Option.getD_some, Option.getD_some, Option.some.injEq]
      exact ⟨And.right, fun h => ⟨h ▸ hlength, h⟩⟩

theorem settled_error_iff {granted : Bytes → Prop} {s : ClearKeySession}
    (hstate : s.m_eKeyState = .KEY_ERROR) : Settled granted 0 s ↔ ∀ key, ¬ granted key := by
  constructor
  · intro h
    cases h with
    | refused hnone => exact hnone
  · exact fun hnone => .refused hnone hstate

theorem settled_ready_iff {granted : Bytes → Prop} {s : ClearKeySession} {key : Bytes}
    (hstate : s.m_eKeyState = .KEY_READY) (hkey : s.m_keyStr = some key)
    (hlength : s.m_keyLen = 16) : Settled granted 1 s ↔ granted key := by
  constructor
  · intro h
    cases h with
    | taken hgranted _ hother =>
        cases hkey.symm.trans hother
        exact hgranted
  · exact fun hgranted => .taken hgranted hstate hkey hlength

theorem Settled.congr {granted granted' : Bytes → Prop} {ret : Nat} {s : ClearKeySession}
    (h : Settled granted ret s) (hiff : ∀ key, granted key ↔ granted' key) :
    Settled granted' ret s := by
  cases h with
  | taken hgranted hstate hkey hlength =>
      exact .taken ((hiff _).mp hgranted) hstate hkey hlength
  | refused hnone hstate => exact .refused (fun key h => hnone key ((hiff key).mpr h)) hstate

theorem exists_result {ret : Nat} {s : ClearKeySession} {P : Nat → ClearKeySession → Prop} :
    (∃ ret' t, some (ret, s) = some (ret', t) ∧ P ret' t) ↔ P ret s := by
  constructor
  · rintro ⟨ret', t, hrun, h⟩
    cases hrun
    exact h
  · exact fun h => ⟨ret, s, rfl, h⟩

section

variable {licenseResponse : cJSON} {keyId : Bytes}

/-- A first entry that grants nothing decides when no other entry does. -/
theorem firstDecides_none (hkeys : licenseResponse.GetObjectItem (ascii "keys") ≠ none)
    (htexts : keyItem licenseResponse (ascii "k") ≠ none →
      keyItem licenseResponse (ascii "kid") ≠ none →
        itemText licenseResponse (ascii "kid") ≠ none ∧
        ((itemText licenseResponse (ascii "kid")).bind base64_URL_Decode = some keyId →
          itemText licenseResponse (ascii "k") ≠ none))
    (hfirst : ∀ key, ¬ FirstGrants licenseResponse keyId key) :
    FirstDecides licenseResponse keyId ↔ ∀ key, ¬ Granted licenseResponse keyId key := by
  constructor
  · intro h key hgranted
    rcases h.first key hgranted with ⟨other, hother⟩
    exact hfirst other hother
  · intro h
    exact ⟨hkeys, htexts, fun key hkey => absurd hkey (hfirst key),
      fun key hgranted => absurd hgranted (h key)⟩

/-- A first entry that grants a key decides when the key is granted. -/
theorem firstDecides_some (hkeys : licenseResponse.GetObjectItem (ascii "keys") ≠ none)
    {key : Bytes} (hfirst : FirstGrants licenseResponse keyId key) :
    FirstDecides licenseResponse keyId ↔ Granted licenseResponse keyId key := by
  constructor
  · exact fun h => h.granted key hfirst
  · intro h
    refine ⟨hkeys, fun _ _ => ⟨fun hnone => ?_, fun _ hnone => ?_⟩, fun other hother => ?_,
      fun _ _ => ⟨key, hfirst⟩⟩
    · have hkid := hfirst.kid
      rw [hnone] at hkid
      cases hkid
    · have hk := hfirst.k
      rw [hnone] at hk
      cases hk
    · cases hfirst.k.symm.trans hother.k
      exact h

/-- The strings of the first entry settle the session when they decide. -/
theorem takeKey_settled_iff {s : ClearKeySession} (hid : HasKeyId s keyId)
    (hkeys : licenseResponse.GetObjectItem (ascii "keys") ≠ none) {keyJsonObj keyIdJsonObj : cJSON}
    (hk : keyItem licenseResponse (ascii "k") = some keyJsonObj)
    (hkid : keyItem licenseResponse (ascii "kid") = some keyIdJsonObj) :
    (∃ ret t, s.takeKey keyJsonObj.GetStringValue keyIdJsonObj.GetStringValue = some (ret, t) ∧
      Settled (Granted licenseResponse keyId) ret t) ↔ FirstDecides licenseResponse keyId := by
  have htext : itemText licenseResponse (ascii "k") = keyJsonObj.GetStringValue := by
    rw [itemText, hk, Option.bind_some]
  have hidText : itemText licenseResponse (ascii "kid") = keyIdJsonObj.GetStringValue := by
    rw [itemText, hkid, Option.bind_some]
  have hkSome : keyItem licenseResponse (ascii "k") ≠ none := by
    rw [hk]
    exact Option.some_ne_none keyJsonObj
  have hkidSome : keyItem licenseResponse (ascii "kid") ≠ none := by
    rw [hkid]
    exact Option.some_ne_none keyIdJsonObj
  rw [← htext, ← hidText]
  cases hkidStr : itemText licenseResponse (ascii "kid") with
  | none =>
      refine iff_of_false (fun h => ?_) fun h => ?_
      · rcases h with ⟨ret, t, hrun, -⟩
        cases hrun
      · exact (h.texts hkSome hkidSome).1 hkidStr
  | some keyIdStr =>
      have hmatch := hid.matchesKeyId_iff (base64_URL_Decode keyIdStr)
      unfold ClearKeySession.takeKey
      dsimp only
      by_cases hsame : base64_URL_Decode keyIdStr = some keyId
      · rw [if_pos (hmatch.mpr hsame)]
        cases hkStr : itemText licenseResponse (ascii "k") with
        | none =>
            refine iff_of_false (fun h => ?_) fun h => ?_
            · rcases h with ⟨ret, t, hrun, -⟩
              cases hrun
            · refine (h.texts hkSome hkidSome).2 ?_ hkStr
              rw [hkidStr, Option.bind_some, hsame]
        | some keyJsonStr =>
            dsimp only
            have hother : ∀ key, FirstGrants licenseResponse keyId key →
                base64_URL_Decode keyJsonStr = some key := by
              intro key hfirst
              have hdecoded := hfirst.k
              rwa [hkStr, Option.bind_some] at hdecoded
            have htexts : itemText licenseResponse (ascii "kid") ≠ none ∧
                itemText licenseResponse (ascii "k") ≠ none := by
              rw [hkidStr, hkStr]
              exact ⟨Option.some_ne_none keyIdStr, Option.some_ne_none keyJsonStr⟩
            by_cases hlen : ((base64_URL_Decode keyJsonStr).getD []).length = AES_CTR_KEY_LEN
            · rw [if_pos hlen]
              cases hkey : base64_URL_Decode keyJsonStr with
              | none =>
                  rw [hkey] at hlen
                  cases hlen
              | some key =>
                  rw [hkey, Option.getD_some] at hlen
                  have hfirst : FirstGrants licenseResponse keyId key := by
                    refine ⟨?_, ?_, hlen⟩
                    · rw [hkidStr, Option.bind_some, hsame]
                    · rw [hkStr, Option.bind_some, hkey]
                  rw [exists_result, firstDecides_some hkeys hfirst]
                  exact settled_ready_iff rfl rfl hlen
            · rw [if_neg hlen, exists_result, settled_error_iff rfl]
              refine (firstDecides_none hkeys (fun _ _ => ⟨htexts.1, fun _ => htexts.2⟩) ?_).symm
              intro key hfirst
              rw [hother key hfirst] at hlen
              exact hlen hfirst.length
      · rw [if_neg fun h => hsame (hmatch.mp h), exists_result, settled_error_iff rfl]
        have hdecoded : (itemText licenseResponse (ascii "kid")).bind base64_URL_Decode ≠
            some keyId := by
          rw [hkidStr, Option.bind_some]
          exact hsame
        refine (firstDecides_none hkeys (fun _ _ => ⟨?_, fun h => absurd h hdecoded⟩) ?_).symm
        · rw [hkidStr]
          exact Option.some_ne_none keyIdStr
        · exact fun key hfirst => hdecoded hfirst.kid

end

/-! ## The call -/

section

variable {cJSON_Parse : Bytes → Option cJSON} {s : ClearKeySession} {keyId : Bytes}

/-- A response that parses settles a pending session exactly when its first entry decides. -/
theorem processDRMKey_settled_iff (hpending : s.m_eKeyState = .KEY_PENDING) (hid : HasKeyId s keyId)
    {data : Bytes} {licenseResponse : cJSON}
    (hparse : cJSON_Parse (cText data) = some licenseResponse) :
    (∃ ret t, s.processDRMKey cJSON_Parse (some data) = some (ret, t) ∧
      Settled (Granted licenseResponse keyId) ret t) ↔ FirstDecides licenseResponse keyId := by
  simp only [ClearKeySession.processDRMKey, if_pos hpending, hparse]
  cases hkeys : licenseResponse.GetObjectItem (ascii "keys") with
  | none =>
      rw [Option.isSome_none, if_neg Bool.false_ne_true, exists_result]
      refine iff_of_false (fun h => ?_) fun h => h.keys hkeys
      cases h with
      | refused _ hstate => cases hpending.symm.trans hstate
  | some keys =>
      have hpresent : licenseResponse.GetObjectItem (ascii "keys") ≠ none := by
        rw [hkeys]
        exact Option.some_ne_none keys
      rw [Option.isSome_some, if_pos rfl]
      cases hk : keyItem licenseResponse (ascii "k") with
      | none =>
          dsimp only
          rw [exists_result, settled_error_iff rfl]
          refine (firstDecides_none hpresent (fun h => absurd hk h) fun key hfirst => ?_).symm
          have hnone := hfirst.k
          rw [itemText, hk] at hnone
          cases hnone
      | some keyJsonObj =>
          cases hkid : keyItem licenseResponse (ascii "kid") with
          | none =>
              dsimp only
              rw [exists_result, settled_error_iff rfl]
              refine (firstDecides_none hpresent (fun _ h => absurd hkid h) fun key hfirst => ?_).symm
              have hnone := hfirst.kid
              rw [itemText, hkid] at hnone
              cases hnone
          | some keyIdJsonObj => exact takeKey_settled_iff hid hpresent hk hkid

/-- A response is answered as it should be exactly when it does not parse or when its first
entry decides. -/
theorem processDRMKey_answers_iff (cJSON_Parse : Bytes → Option cJSON) (s : ClearKeySession)
    (hid : s.m_eKeyState = .KEY_PENDING → ∃ keyId, HasKeyId s keyId) (data : Bytes) :
    Answers cJSON_Parse s data ↔ (s.m_eKeyState = .KEY_PENDING → ∀ keyId, s.m_keyId = some keyId →
      ∀ licenseResponse, cJSON_Parse (cText data) = some licenseResponse →
        FirstDecides licenseResponse keyId) := by
  by_cases hpending : s.m_eKeyState = .KEY_PENDING
  · rcases hid hpending with ⟨keyId, hkeyId⟩
    rw [imp_iff_right hpending]
    cases hparse : cJSON_Parse (cText data) with
    | none =>
        refine iff_of_true ⟨fun _ => ⟨keyId, 0, s.keyError, hkeyId.1, ?_, ?_⟩,
          fun h => absurd hpending h⟩ fun _ _ _ h => by cases h
        · simp only [ClearKeySession.processDRMKey, if_pos hpending, hparse]
        · refine .refused ?_ rfl
          rintro key ⟨licenseResponse, hnone, -⟩
          cases hparse.symm.trans hnone
    | some licenseResponse =>
        have hiff := processDRMKey_settled_iff hpending hkeyId hparse
        have hgranted : ∀ keyId key, Granted licenseResponse keyId key ↔
            ∃ response, some licenseResponse = some response ∧ Granted response keyId key := by
          intro keyId key
          constructor
          · exact fun h => ⟨licenseResponse, rfl, h⟩
          · rintro ⟨response, heq, h⟩
            cases heq
            exact h
        constructor
        · intro h keyId' hsame response hresponse
          cases hresponse
          cases hkeyId.1.symm.trans hsame
          rcases h.pending hpending with ⟨other, ret, t, hother, hrun, hsettled⟩
          cases hkeyId.1.symm.trans hother
          rw [hparse] at hsettled
          exact hiff.mp ⟨ret, t, hrun, hsettled.congr fun key => (hgranted keyId key).symm⟩
        · intro h
          rcases hiff.mpr (h keyId hkeyId.1 licenseResponse rfl) with ⟨ret, t, hrun, hsettled⟩
          refine ⟨fun _ => ⟨keyId, ret, t, hkeyId.1, hrun, ?_⟩, fun h => absurd hpending h⟩
          rw [hparse]
          exact hsettled.congr (hgranted keyId)
  · refine iff_of_true ⟨fun h => absurd h hpending, fun _ => ?_⟩ fun h => absurd h hpending
    rw [ClearKeySession.processDRMKey, if_neg hpending]

end

/-- A session that has asked for the key id of sixteen ones. -/
def pendingOnes : ClearKeySession where
  m_eKeyState := .KEY_PENDING
  m_keyStr := none
  m_keyLen := 0
  m_keyId := some (List.replicate 16 1)
  m_keyIdLen := 16
  mOpensslCtx := true

theorem pendingOnes_hasKeyId : HasKeyId pendingOnes (List.replicate 16 1) := ⟨rfl, rfl, rfl⟩

theorem onesResponse_answers : Answers parseOnes pendingOnes onesResponse := by
  refine (processDRMKey_answers_iff parseOnes pendingOnes
    (fun _ => ⟨_, pendingOnes_hasKeyId⟩) onesResponse).mpr ?_
  intro _ keyId hkeyId licenseResponse hparse
  obtain ⟨response, hresponse, hkeys, hfirst, hgranted⟩ : ∃ response,
      parseOnes (cText onesResponse) = some response ∧
      (response.GetObjectItem (ascii "keys")).isSome = true ∧
      FirstGrants response (List.replicate 16 1) (List.replicate 16 2) ∧
      Granted response (List.replicate 16 1) (List.replicate 16 2) := by
    refine ⟨_, rfl, rfl, ⟨rfl, rfl, rfl⟩, _, rfl, _, List.mem_singleton.mpr rfl, by decide, rfl, rfl⟩
  cases hkeyId
  cases hresponse.symm.trans hparse
  exact (firstDecides_some (Option.isSome_iff_ne_none.mp hkeys) hfirst).mpr hgranted

def parseEmpty (text : Bytes) : Option cJSON :=
  if text = ascii "\x7b\x7d" then some (.object []) else none

/-- An object without `keys` leaves the session pending. -/
theorem emptyObject_not_answers : ¬ ∀ (cJSON_Parse : Bytes → Option cJSON) (s : ClearKeySession)
    (data : Bytes), (s.m_eKeyState = .KEY_PENDING → ∃ keyId, HasKeyId s keyId) →
      Answers cJSON_Parse s data := by
  intro hclaim
  have hanswers := hclaim parseEmpty pendingOnes (ascii "\x7b\x7d")
    fun _ => ⟨_, pendingOnes_hasKeyId⟩
  rcases hanswers.pending rfl with ⟨keyId, ret, t, -, hrun, hsettled⟩
  have hdropped : pendingOnes.processDRMKey parseEmpty (some (ascii "\x7b\x7d")) =
      some (0, pendingOnes) := rfl
  cases hdropped.symm.trans hrun
  cases hsettled with
  | refused _ hstate => cases hstate

end PlayerInterface.Drm
