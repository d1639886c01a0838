import PlayerInterface.Core.Transition
import PlayerInterface.Drm.ClearKeySession

/-!
# What a ready ClearKey session holds

A session becomes ready when a response for its key id brings a key. It stays usable
as long as no other key id is put in its place, and only if its cipher context is
there: clearing the context gives it back and nothing makes another one.
-/

namespace PlayerInterface.Drm

open PlayerInterface.Core PlayerInterface.BaseConversion PlayerInterface.Json

inductive ClearKeyCall where
  | generateDRMSession (f_pbInitData : Option Mem) (f_cbInitData : Nat)
  | generateKeyRequest (allocated : Bool)
  | processDRMKey (key : Option Bytes)
  | decrypt (f_cbIV : Nat) (evp : Bool)
  | clearDecryptContext

/-- A session, and the key id its last accepted response was for. -/
structure LicensedSession where
  session : ClearKeySession
  matched : Option Bytes

section

variable (cJSON_Parse : Bytes → Option cJSON)

/-- A field of the first key of a response, decoded. -/
def responseItem (name data : Bytes) : Option Bytes :=
  (cJSON_Parse (cText data)).bind fun licenseResponse =>
    (keyItem licenseResponse name).bind fun item => item.GetStringValue.bind base64_URL_Decode

def clearKeyStep (s : LicensedSession) : ClearKeyCall → Option LicensedSession
  | .generateDRMSession f_pbInitData f_cbInitData =>
      some { s with session := s.session.generateDRMSession f_pbInitData f_cbInitData }
  | .generateKeyRequest allocated =>
      some { s with session := (s.session.generateKeyRequest allocated).2 }
  | .processDRMKey key =>
      match s.session.processDRMKey cJSON_Parse key with
      | none => none
      | some (ret, session) =>
          some { session
                 matched := if ret = 1 then key.bind (responseItem cJSON_Parse (ascii "kid"))
                   else s.matched }
  | .decrypt _ _ => some s
  | .clearDecryptContext => some { s with session := s.session.clearDecryptContext }

def clearKeySystem : System LicensedSession ClearKeyCall where
  init s := ∃ allocated, s = ⟨.new allocated, none⟩
  step := clearKeyStep cJSON_Parse

/-- A ready session has a context, a key of sixteen bytes and the key id the key was sent for. -/
def LicensedSession.Usable (s : LicensedSession) : Prop :=
  s.session.m_eKeyState = .KEY_READY →
    s.session.mOpensslCtx = true ∧
    (∃ key, s.session.m_keyStr = some key ∧ key.length = 16) ∧
    ∃ keyId, s.session.m_keyId = some keyId ∧ keyId.length = 16 ∧ s.matched = some keyId

/-- The response has a key of sixteen bytes for the session's key id. -/
def Carries (s : ClearKeySession) (data : Bytes) : Prop :=
  s.m_keyId ≠ none ∧ responseItem cJSON_Parse (ascii "kid") data = s.m_keyId ∧
    ∃ key, responseItem cJSON_Parse (ascii "k") data = some key ∧ key.length = 16

/-- No license is taken without a cipher context, and a ready session keeps its key id. -/
def KeepsUsable (s : LicensedSession) : ClearKeyCall → Prop
  | .generateDRMSession (some initData) f_cbInitData =>
      s.session.m_eKeyState = .KEY_READY → 0 < f_cbInitData →
        s.session.m_keyId = some (keyIdOf initData)
  | .processDRMKey (some data) =>
      s.session.m_eKeyState = .KEY_PENDING → Carries cJSON_Parse s.session data →
        s.session.mOpensslCtx = true
  | _ => True

/-! ## Key ids -/

/-- A key id has sixteen bytes, and a request is pending for some key id only. -/
structure ClearKeySession.Shaped (s : ClearKeySession) : Prop where
  keyId : ∀ keyId, s.m_keyId = some keyId → keyId.length = 16 ∧ s.m_keyIdLen = 16
  pending : s.m_eKeyState = .KEY_PENDING → s.m_keyId ≠ none

theorem shaped_new (allocated : Bool) : (ClearKeySession.new allocated).Shaped where
  keyId := nofun
  pending := nofun

variable {cJSON_Parse}

theorem ClearKeySession.Shaped.setKeyId {s : ClearKeySession} (initData : Mem) :
    (s.setKeyId (keyIdOf initData)).Shaped where
  keyId keyId h := by
    cases h
    exact ⟨keyIdOf_length initData, keyIdOf_length initData⟩
  pending _ := nofun

/-- Leaving the key id as it is, for a state that is not pending. -/
theorem ClearKeySession.Shaped.settle {s t : ClearKeySession} (h : s.Shaped)
    (hid : t.m_keyId = s.m_keyId) (hlen : t.m_keyIdLen = s.m_keyIdLen)
    (hstate : t.m_eKeyState ≠ .KEY_PENDING) : t.Shaped where
  keyId keyId ht := by
    rw [hlen]
    exact h.keyId keyId (hid ▸ ht)
  pending ht := absurd ht hstate

theorem ClearKeySession.Shaped.matchesKeyId_iff {s : ClearKeySession} (h : s.Shaped) {keyId : Bytes}
    (hs : s.m_keyId = some keyId) (resKeyId : Option Bytes) :
    s.matchesKeyId resKeyId = true ↔ resKeyId = s.m_keyId := by
  have hlen := h.keyId keyId hs
  rw [ClearKeySession.matchesKeyId, decide_eq_true_eq, hs, hlen.2]
  cases resKeyId with
  | none =>
      refine iff_of_false ?_ nofun
      rintro ⟨hzero, -⟩
      cases hzero
  | some resKeyId =>
      simp only [Option.getD_some, Option.some.injEq]
      exact ⟨fun hr => hr.2, fun hr => ⟨hr ▸ hlen.1, hr⟩⟩

/-! ## One license response -/

/-- How a response leaves the session: with its key when it is `good`, else not ready. -/
inductive Processed (s : ClearKeySession) (good : Prop) : Nat → ClearKeySession → Prop
  | taken {key : Bytes} (hgood : good) (hlen : key.length = 16) :
      Processed s good 1
        { s with m_keyStr := some key, m_keyLen := 16, m_eKeyState := .KEY_READY }
  | dropped (hbad : ¬ good) : Processed s good 0 s
  | failed {t : ClearKeySession} (hbad : ¬ good) (hstate : t.m_eKeyState = .KEY_ERROR)
      (hid : t.m_keyId = s.m_keyId) (hlen : t.m_keyIdLen = s.m_keyIdLen) : Processed s good 0 t

theorem Processed.congr {s t : ClearKeySession} {good good' : Prop} {ret : Nat}
    (h : Processed s good ret t) (hiff : good ↔ good') : Processed s good' ret t := by
  cases h with
  | taken hgood hlen => exact .taken (hiff.mp hgood) hlen
  | dropped hbad => exact .dropped fun h => hbad (hiff.mpr h)
  | failed hbad hstate hid hlen => exact .failed (fun h => hbad (hiff.mpr h)) hstate hid hlen

theorem takeKey_processed {s t : ClearKeySession} (hs : s.Shaped) (hid : s.m_keyId ≠ none)
    {keyJsonStr keyIdStr : Option Bytes} {ret : Nat}
    (hrun : s.takeKey keyJsonStr keyIdStr = some (ret, t)) :
    Processed s (keyIdStr.bind base64_URL_Decode = s.m_keyId ∧
      ∃ key, keyJsonStr.bind base64_URL_Decode = some key ∧ key.length = 16) ret t := by
  rcases Option.ne_none_iff_exists'.mp hid with ⟨keyId, hkeyId⟩
  cases keyIdStr with
  | none => cases hrun
  | some keyIdStr =>
      have hmatch := hs.matchesKeyId_iff hkeyId (base64_URL_Decode keyIdStr)
      dsimp only [ClearKeySession.takeKey] at hrun
      rw [Option.bind_some]
      by_cases hsame : base64_URL_Decode keyIdStr = s.m_keyId
      · rw [if_pos (hmatch.mpr hsame)] at hrun
        cases keyJsonStr with
        | none => cases hrun
        | some keyJsonStr =>
            rw [Option.bind_some]
            dsimp only at hrun
            cases hkey : base64_URL_Decode keyJsonStr with
            | none =>
                rw [hkey] at hrun
                cases hrun
                exact .failed (fun h => by cases h.2.choose_spec.1) rfl rfl rfl
            | some key =>
                rw [hkey, Option.getD_some] at hrun
                by_cases hlen : key.length = AES_CTR_KEY_LEN
                · rw [if_pos hlen, hlen] at hrun
                  cases hrun
                  exact .taken ⟨hsame, key, rfl, hlen⟩ hlen
                · rw [if_neg hlen] at hrun
                  cases hrun
                  refine .failed ?_ rfl rfl rfl
                  rintro ⟨-, other, hother, hsixteen⟩
                  cases hother
                  exact hlen hsixteen
      · rw [if_neg fun h => hsame (hmatch.mp h)] at hrun
        cases hrun
        exact .failed (fun h => hsame h.1) rfl rfl rfl

theorem responseItem_eq {data : Bytes} {licenseResponse : cJSON}
    (hparse : cJSON_Parse (cText data) = some licenseResponse) (name : Bytes) :
    responseItem cJSON_Parse name data = (keyItem licenseResponse name).bind
      fun item => item.GetStringValue.bind base64_URL_Decode := by
  rw [responseItem, hparse]
  rfl

/-- A pending session takes the key exactly when the response carries it. -/
theorem processDRMKey_pending {s t : ClearKeySession} (hs : s.Shaped)
    (hpending : s.m_eKeyState = .KEY_PENDING) {data : Bytes} {ret : Nat}
    (hrun : s.processDRMKey cJSON_Parse (some data) = some (ret, t)) :
    Processed s (Carries cJSON_Parse s data) ret t := by
  have hid := hs.pending hpending
  simp only [ClearKeySession.processDRMKey, if_pos hpending] at hrun
  cases hparse : cJSON_Parse (cText data) with
  | none =>
      rw [hparse] at hrun
      cases hrun
      refine .failed ?_ rfl rfl rfl
      rintro ⟨-, -, key, hkey, -⟩
      rw [responseItem, hparse] at hkey
      cases hkey
  | some licenseResponse =>
      have hitem := responseItem_eq hparse
      simp only [hparse] at hrun
      by_cases hkeys : (licenseResponse.GetObjectItem (ascii "keys")).isSome
      · rw [if_pos hkeys] at hrun
        cases hk : keyItem licenseResponse (ascii "k") with
        | none =>
            simp only [hk] at hrun
            cases hrun
            refine .failed ?_ rfl rfl rfl
            rintro ⟨-, -, key, hkey, -⟩
            rw [hitem, hk] at hkey
            cases hkey
        | some keyJsonObj =>
            cases hkid : keyItem licenseResponse (ascii "kid") with
            | none =>
                simp only [hk, hkid] at hrun
                cases hrun
                refine .failed ?_ rfl rfl rfl
                rintro ⟨hne, hsame, -⟩
                rw [hitem, hkid] at hsame
                exact hne hsame.symm
            | some keyIdJsonObj =>
                simp only [hk, hkid] at hrun
                refine (takeKey_processed hs hid hrun).congr ?_
                rw [Carries, hitem, hitem, hk, hkid]
                exact (and_iff_right hid).symm
      · rw [if_neg hkeys] at hrun
        cases hrun
        refine .dropped ?_
        rintro ⟨-, -, key, hkey, -⟩
        rw [hitem, keyItem, keyEntry, Option.not_isSome_iff_eq_none.mp hkeys] at hkey
        cases hkey

/-- A session that is not pending ignores the response. -/
theorem processDRMKey_cases {s t : ClearKeySession} (hs : s.Shaped) {key : Option Bytes} {ret : Nat}
    (hrun : s.processDRMKey cJSON_Parse key = some (ret, t)) :
    ((key = none ∨ s.m_eKeyState ≠ .KEY_PENDING) ∧ ret = 0 ∧ t = s) ∨
    ∃ data, key = some data ∧ s.m_eKeyState = .KEY_PENDING ∧
      Processed s (Carries cJSON_Parse s data) ret t := by
  cases key with
  | none =>
      cases hrun
      exact .inl ⟨.inl rfl, rfl, rfl⟩
  | some data =>
      by_cases hpending : s.m_eKeyState = .KEY_PENDING
      · exact .inr ⟨data, rfl, hpending, processDRMKey_pending hs hpending hrun⟩
      · rw [ClearKeySession.processDRMKey, if_neg hpending] at hrun
        cases hrun
        exact .inl ⟨.inr hpending, rfl, rfl⟩

theorem clearKeyStep_processDRMKey {s t : LicensedSession} {key : Option Bytes}
    (hstep : clearKeyStep cJSON_Parse s (.processDRMKey key) = some t) :
    ∃ ret session, s.session.processDRMKey cJSON_Parse key = some (ret, session) ∧
      t = { session
            matched := if ret = 1 then key.bind (responseItem cJSON_Parse (ascii "kid"))
              else s.matched } := by
  simp only [clearKeyStep] at hstep
  cases hrun : s.session.processDRMKey cJSON_Parse key with
  | none =>
      rw [hrun] at hstep
      cases hstep
  | some r =>
      rcases r with ⟨ret, session⟩
      rw [hrun] at hstep
      cases hstep
      exact ⟨ret, session, rfl, rfl⟩

/-- A request is made for a key id, or nothing happens. -/
theorem generateKeyRequest_session (s : ClearKeySession) (allocated : Bool) :
    (s.generateKeyRequest allocated).2 = s ∨ s.m_keyId ≠ none ∧
      (s.generateKeyRequest allocated).2 = { s with m_eKeyState := .KEY_PENDING } := by
  rw [ClearKeySession.generateKeyRequest]
  cases hid : s.m_keyId with
  | none => exact .inl rfl
  | some keyId =>
      dsimp only
      split
      · exact .inl rfl
      · split
        · exact .inr ⟨nofun, rfl⟩
        · exact .inl rfl

/-- Init data puts its key id in place, or the session fails. -/
theorem generateDRMSession_session (s : ClearKeySession) (f_pbInitData : Option Mem)
    (f_cbInitData : Nat) :
    (∃ initData, f_pbInitData = some initData ∧ 0 < f_cbInitData ∧
      s.generateDRMSession f_pbInitData f_cbInitData = s.setKeyId (keyIdOf initData)) ∨
    (∀ initData, f_pbInitData = some initData → ¬ 0 < f_cbInitData) ∧
      s.generateDRMSession f_pbInitData f_cbInitData = s.keyError := by
  cases f_pbInitData with
  | none => exact .inr ⟨nofun, rfl⟩
  | some initData =>
      by_cases hlen : 0 < f_cbInitData
      · exact .inl ⟨initData, rfl, hlen, s.generateDRMSession_keyId initData hlen⟩
      · exact .inr ⟨fun _ _ => hlen, if_neg hlen⟩

/-! ## One call -/

theorem shaped_step {s t : LicensedSession} {a : ClearKeyCall} (hs : s.session.Shaped)
    (hstep : clearKeyStep cJSON_Parse s a = some t) : t.session.Shaped := by
  cases a with
  | generateDRMSession f_pbInitData f_cbInitData =>
      cases hstep
      rcases generateDRMSession_session s.session f_pbInitData f_cbInitData with
        ⟨initData, -, -, heq⟩ | ⟨-, heq⟩
      · simp only [heq]
        exact .setKeyId initData
      · simp only [heq]
        exact hs.settle rfl rfl nofun
  | generateKeyRequest allocated =>
      cases hstep
      rcases generateKeyRequest_session s.session allocated with heq | ⟨hid, heq⟩
      · simp only [heq]
        exact hs
      · simp only [heq]
        exact ⟨hs.keyId, fun _ => hid⟩
  | processDRMKey key =>
      obtain ⟨ret, session, hrun, rfl⟩ := clearKeyStep_processDRMKey hstep
      rcases processDRMKey_cases hs hrun with
        ⟨-, -, heq⟩ | ⟨data, -, -, ⟨-, -⟩ | - | ⟨-, hstate, hid, hlen⟩⟩
      · exact heq ▸ hs
      · exact hs.settle rfl rfl nofun
      · exact hs
      · exact hs.settle hid hlen (by rw [hstate]; nofun)
  | decrypt f_cbIV evp =>
      cases hstep
      exact hs
  | clearDecryptContext =>
      cases hstep
      exact ⟨nofun, nofun⟩

/-- A session that is not ready has nothing to hold. -/
theorem usable_of_not_ready {s : LicensedSession} (h : s.session.m_eKeyState ≠ .KEY_READY) :
    s.Usable := fun hready => absurd hready h

/-- A ready session stays usable with the key id it has, and with no other one. -/
theorem usable_setKeyId_iff {s : LicensedSession} (hgood : s.Usable) (initData : Mem) :
    LicensedSession.Usable { s with session := s.session.setKeyId (keyIdOf initData) } ↔
      (s.session.m_eKeyState = .KEY_READY → s.session.m_keyId = some (keyIdOf initData)) := by
  by_cases hready : s.session.m_eKeyState = .KEY_READY
  · rcases hgood hready with ⟨hctx, hkey, keyId, hid, hsixteen, hmatched⟩
    rw [imp_iff_right hready, hid, Option.some.injEq]
    constructor
    · intro h
      rcases (h hready).2.2 with ⟨new, hnew, -, hmatchedNew⟩
      cases hnew
      exact Option.some.inj (hmatched.symm.trans hmatchedNew)
    · rintro heq -
      exact ⟨hctx, hkey, keyId, congrArg some heq.symm, hsixteen, hmatched⟩
  · exact iff_of_true (fun h => absurd h hready) fun h => absurd h hready

/-- One call keeps the session usable exactly under the condition. -/
theorem usable_step_iff {s t : LicensedSession} {a : ClearKeyCall} (hs : s.session.Shaped)
    (hgood : s.Usable) (hstep : clearKeyStep cJSON_Parse s a = some t) :
    t.Usable ↔ KeepsUsable cJSON_Parse s a := by
  cases a with
  | generateDRMSession f_pbInitData f_cbInitData =>
      cases hstep
      rcases generateDRMSession_session s.session f_pbInitData f_cbInitData with
        ⟨initData, rfl, hlen, heq⟩ | ⟨hnone, heq⟩
      · simp only [heq, KeepsUsable, hlen, true_implies]
        exact usable_setKeyId_iff hgood initData
      · simp only [heq]
        refine iff_of_true (usable_of_not_ready nofun) ?_
        cases f_pbInitData with
        | none => trivial
        | some initData => exact fun _ hlen => absurd hlen (hnone initData rfl)
  | generateKeyRequest allocated =>
      refine iff_of_true ?_ trivial
      cases hstep
      rcases generateKeyRequest_session s.session allocated with heq | ⟨-, heq⟩
      · simp only [heq]
        exact hgood
      · simp only [heq]
        exact usable_of_not_ready nofun
  | processDRMKey key =>
      obtain ⟨ret, session, hrun, rfl⟩ := clearKeyStep_processDRMKey hstep
      rcases processDRMKey_cases hs hrun with
        ⟨hidle, rfl, rfl⟩ | ⟨data, rfl, hpending, hprocessed⟩
      · refine iff_of_true hgood ?_
        cases key with
        | none => trivial
        | some data => exact fun hpending => absurd hpending (hidle.resolve_left nofun)
      · rw [KeepsUsable, imp_iff_right hpending]
        rcases hprocessed with ⟨hcarries, hlen⟩ | hbad | ⟨hbad, hstate, -, -⟩
        · rcases Option.ne_none_iff_exists'.mp hcarries.1 with ⟨keyId, hid⟩
          have hkid := hcarries.2.1.trans hid
          rw [imp_iff_right hcarries]
          constructor
          · exact fun h => (h rfl).1
          · exact fun hctx _ => ⟨hctx, ⟨_, rfl, hlen⟩, keyId, hid, (hs.keyId keyId hid).1, hkid⟩
        · exact iff_of_true hgood fun h => absurd h hbad
        · refine iff_of_true (usable_of_not_ready ?_) fun h => absurd h hbad
          rw [hstate]
          nofun
  | decrypt f_cbIV evp =>
      cases hstep
      exact iff_of_true hgood trivial
  | clearDecryptContext =>
      cases hstep
      exact iff_of_true (usable_of_not_ready nofun) trivial

end

/-- A session is usable whenever it is ready, in every state of a run, exactly when no call
takes a license without a cipher context or changes the key id of a ready session. -/
theorem clearKeySession_usable_iff (cJSON_Parse : Bytes → Option cJSON) (allocated : Bool)
    (calls : List ClearKeyCall) :
    (clearKeySystem cJSON_Parse).RunAll LicensedSession.Usable ⟨.new allocated, none⟩ calls ↔
      (clearKeySystem cJSON_Parse).RunOk (KeepsUsable cJSON_Parse) ⟨.new allocated, none⟩ calls := by
  let M := clearKeySystem cJSON_Parse
  have hshaped : ∀ s a t, s.session.Shaped → M.step s a = some t → t.session.Shaped :=
    fun _ _ _ hs hstep => shaped_step hs hstep
  have husable : ∀ s a t, s.session.Shaped → s.Usable → M.step s a = some t →
      (t.Usable ↔ KeepsUsable cJSON_Parse s a) :=
    fun _ _ _ hs hgood hstep => usable_step_iff hs hgood hstep
  have hinit : LicensedSession.Usable ⟨.new allocated, none⟩ := nofun
  exact System.runAll_iff_runOk_of_invariant hshaped husable (shaped_new allocated) hinit calls

/-! ## A context that is not made again -/

/-- A response with a key for the key id of sixteen ones. -/
def onesResponse : Bytes :=
  ascii ("\x7b\"keys\":[\x7b\"kty\":\"oct\",\"kid\":\"AQEBAQEBAQEBAQEBAQEBAQ\"," ++
    "\"k\":\"AgICAgICAgICAgICAgICAg\"\x7d]\x7d")

def parseOnes (text : Bytes) : Option cJSON :=
  if text = onesResponse then
    some (.object [(ascii "keys", .array [.object [(ascii "kty", .string (ascii "oct")),
      (ascii "kid", .string (ascii "AQEBAQEBAQEBAQEBAQEBAQ")),
      (ascii "k", .string (ascii "AgICAgICAgICAgICAgICAg"))]])])
  else none

/-- Binding init data, asking for its key and taking the key. -/
def bindOnes : List ClearKeyCall :=
  [.generateDRMSession (some fun _ => 1) 52, .generateKeyRequest true,
    .processDRMKey (some onesResponse)]

/-- After `clearDecryptContext` a second binding ends ready without a cipher context. -/
theorem clearDecryptContext_not_usable :
    ¬ ∀ (cJSON_Parse : Bytes → Option cJSON) (calls : List ClearKeyCall),
      (clearKeySystem cJSON_Parse).RunAll LicensedSession.Usable ⟨.new true, none⟩ calls := by
  intro hclaim
  have hrebound : ∃ t, (clearKeySystem parseOnes).run ⟨.new true, none⟩
      (bindOnes ++ .clearDecryptContext :: bindOnes) = some t ∧
      t.session.m_eKeyState = .KEY_READY ∧ t.session.mOpensslCtx = false := ⟨_, rfl, rfl, rfl⟩
  rcases hrebound with ⟨t, hrun, hready, hctx⟩
  have husable := (hclaim parseOnes _).run hrun hready
  rw [hctx] at husable
  cases husable.1

end PlayerInterface.Drm
