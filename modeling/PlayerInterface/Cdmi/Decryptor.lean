import Mathlib.Algebra.Group.Nat.Defs
import PlayerInterface.Core.Transition

/-!
# The CDMI decryptor

`transformIp` passes each buffer to the DRM session and keeps two counters of
failed buffers. A failure of the HDCP output protection has a counter of its
own, and does not leave through the failure exit.
-/

namespace PlayerInterface.Cdmi

open PlayerInterface.Core

/-! ## Data -/

def DECRYPT_FAILURE_THRESHOLD : UInt16 := 5

def HDCP_COMPLIANCE_CHECK_FAILURE : Int := 4327

def HDCP_OUTPUT_PROTECTION_FAILURE : Int := 4427

inductive GstFlowReturn where
  | ok
  | notSupported
  | error
deriving DecidableEq, Repr

/-- The types a decryptor gets from its caps, `manifest` before that. -/
inductive GstMediaType where
  | video
  | audio
  | manifest
deriving DecidableEq, Repr

/-- The fields of the `info` structure; `none` where `gst_structure_get_*` fails. For
the subsamples the value says whether the buffer can be mapped. -/
structure ProtectionInfo where
  iv_size : Option Nat
  encrypted : Option Bool
  subsample_count : Option Nat
  iv : Option Unit
  kid : Option Unit
  subsamples : Option Bool
deriving DecidableEq, Repr

structure Buffer where
  protectionMeta : Option ProtectionInfo
deriving DecidableEq, Repr

/-- The members `transformIp` writes. -/
structure GstCDMIDecryptor where
  firstsegprocessed : Bool := false
  decryptFailCount : UInt16 := 0
  hdcpOpProtectionFailCount : UInt16 := 0
  notifyDecryptError : Bool := true
  streamEncrypted : Bool := false
deriving DecidableEq, Repr

/-- A call: the buffer, the members other functions have set by then, whether the
stream has been received behind the wait for it, and what `decrypt` returns. -/
structure Call where
  buffer : Option Buffer
  canWait : Bool
  streamReceived : Bool
  receivedInWait : Bool
  hasSession : Bool
  hasSessionManager : Bool
  mediaType : GstMediaType
  errorCode : Int
deriving DecidableEq, Repr

inductive Event where
  | application (name message : String)
  | error (message debug : String)
  | profileBeginCb (mediaType : GstMediaType)
  | profileEndCb (mediaType : GstMediaType)
  | profileErrorCb (mediaType : GstMediaType) (result : GstFlowReturn)
deriving DecidableEq, Repr

/-- What a call leaves behind: the code of the encrypted buffer it has decrypted, if
any, and whether it has come to the path behind a successful decryption. -/
structure Outcome where
  result : GstFlowReturn
  element : GstCDMIDecryptor
  events : List Event
  decrypted : Option Int := none
  begun : Bool := false
deriving DecidableEq, Repr

/-! ## The code -/

/-- The end of the function, from `free_resources` on. -/
def freeResources (c : Call) (o : Outcome) : Outcome :=
  if o.element.firstsegprocessed = false ∧ c.hasSessionManager then
    { o with
      element.firstsegprocessed := true
      events := o.events ++
        [if o.element.streamEncrypted then .profileErrorCb c.mediaType o.result
          else .profileEndCb c.mediaType] }
  else o

/-- The path behind a successful decryption. -/
def beginSegment (c : Call) (o : Outcome) : Outcome :=
  if o.element.firstsegprocessed = false ∧ c.hasSessionManager then
    freeResources c
      { o with
        begun := true
        element.firstsegprocessed := true
        events := o.events ++ [.profileBeginCb c.mediaType] }
  else freeResources c { o with begun := true }

def decryptError (errorCode : Int) : Event :=
  .error
    (if errorCode = HDCP_COMPLIANCE_CHECK_FAILURE then "HDCP Compliance Check Failure"
      else "Decrypt Error: code " ++ toString errorCode)
    "Decrypt Failed"

/-- From the call of `decrypt` on. -/
def decryptBuffer (c : Call) (e : GstCDMIDecryptor) : Outcome :=
  let errorCode := c.errorCode
  let e := { e with streamEncrypted := true }
  let o : Outcome :=
    { result := .ok, element := e, events := [], decrypted := some errorCode }
  if errorCode ≠ 0 ∨ e.hdcpOpProtectionFailCount ≠ 0 then
    if errorCode = HDCP_OUTPUT_PROTECTION_FAILURE then
      beginSegment c
        { o with element.hdcpOpProtectionFailCount := e.hdcpOpProtectionFailCount + 1 }
    else if e.hdcpOpProtectionFailCount ≠ 0 then
      let posted :=
        if e.hdcpOpProtectionFailCount ≥ DECRYPT_FAILURE_THRESHOLD then
          [.application "HDCPProtectionFailure" "HDCP Output Protection Error"]
        else []
      beginSegment c { o with element.hdcpOpProtectionFailCount := 0, events := posted }
    else
      let e := { e with decryptFailCount := e.decryptFailCount + 1 }
      if e.decryptFailCount ≥ DECRYPT_FAILURE_THRESHOLD ∧ e.notifyDecryptError then
        freeResources c
          { o with
            result := .error
            element := { e with notifyDecryptError := false }
            events := [decryptError errorCode] }
      else freeResources c { o with element := e }
  else
    beginSegment c
      { o with element := { e with decryptFailCount := 0, hdcpOpProtectionFailCount := 0 } }

/-- `AMLOGIC` is the build in which a clear buffer is copied by the session as well. -/
def transformIp (AMLOGIC : Bool) (c : Call) (e : GstCDMIDecryptor) : Outcome :=
  let leave (result : GstFlowReturn) : Outcome :=
    freeResources c { result, element := e, events := [] }
  match c.buffer with
  | none => leave .notSupported
  | some buffer =>
      match buffer.protectionMeta with
      | none => if AMLOGIC ∧ c.hasSession = false then leave .notSupported else leave .ok
      | some info =>
          if c.canWait = false ∧ c.streamReceived = false then leave .notSupported
          else if c.streamReceived = false ∧ c.receivedInWait = false then leave .notSupported
          else if c.hasSession = false then leave .notSupported
          else
            match info.iv_size, info.encrypted with
            | none, _ => leave .notSupported
            | some _, none => leave .notSupported
            | some iv_size, some encrypted =>
                if iv_size = 0 ∨ encrypted = false then leave .ok
                else
                  match info.subsample_count, info.iv, info.kid with
                  | some subSampleCount, some _, some _ =>
                      if subSampleCount ≠ 0 ∧ info.subsamples ≠ some true then leave .notSupported
                      else decryptBuffer c e
                  | _, _, _ => leave .notSupported

/-! ## One call -/

section
variable (c : Call) (o : Outcome)

@[simp] theorem freeResources_decrypted : (freeResources c o).decrypted = o.decrypted := by
  unfold freeResources
  split <;> rfl

@[simp] theorem freeResources_begun : (freeResources c o).begun = o.begun := by
  unfold freeResources
  split <;> rfl

@[simp] theorem freeResources_decryptFailCount :
    (freeResources c o).element.decryptFailCount = o.element.decryptFailCount := by
  unfold freeResources
  split <;> rfl

@[simp] theorem freeResources_hdcpOpProtectionFailCount :
    (freeResources c o).element.hdcpOpProtectionFailCount =
      o.element.hdcpOpProtectionFailCount := by
  unfold freeResources
  split <;> rfl

@[simp] theorem beginSegment_decrypted : (beginSegment c o).decrypted = o.decrypted := by
  unfold beginSegment
  split <;> simp

@[simp] theorem beginSegment_begun : (beginSegment c o).begun = true := by
  unfold beginSegment
  split <;> simp

@[simp] theorem beginSegment_decryptFailCount :
    (beginSegment c o).element.decryptFailCount = o.element.decryptFailCount := by
  unfold beginSegment
  split <;> simp

@[simp] theorem beginSegment_hdcpOpProtectionFailCount :
    (beginSegment c o).element.hdcpOpProtectionFailCount =
      o.element.hdcpOpProtectionFailCount := by
  unfold beginSegment
  split <;> simp

end

/-- A call that leaves before the decryption. -/
structure LeavesEarly (e : GstCDMIDecryptor) (o : Outcome) : Prop where
  decrypted : o.decrypted = none
  decryptFailCount : o.element.decryptFailCount = e.decryptFailCount
  hdcpOpProtectionFailCount : o.element.hdcpOpProtectionFailCount = e.hdcpOpProtectionFailCount

/-- What a decryption with some code does to the counters, and whether its buffer comes
to the path behind a successful one. -/
inductive DecryptsTo (e : GstCDMIDecryptor) (errorCode : Int) (o : Outcome) : Prop where
  | success : errorCode = 0 → e.hdcpOpProtectionFailCount = 0 →
      o.element.decryptFailCount = 0 → o.element.hdcpOpProtectionFailCount = 0 →
      o.begun = true → DecryptsTo e errorCode o
  | protection : errorCode = HDCP_OUTPUT_PROTECTION_FAILURE →
      o.element.decryptFailCount = e.decryptFailCount →
      o.element.hdcpOpProtectionFailCount = e.hdcpOpProtectionFailCount + 1 →
      o.begun = true → DecryptsTo e errorCode o
  | forgets : errorCode ≠ HDCP_OUTPUT_PROTECTION_FAILURE → e.hdcpOpProtectionFailCount ≠ 0 →
      o.element.decryptFailCount = e.decryptFailCount →
      o.element.hdcpOpProtectionFailCount = 0 → o.begun = true → DecryptsTo e errorCode o
  | failure : errorCode ≠ 0 → errorCode ≠ HDCP_OUTPUT_PROTECTION_FAILURE →
      e.hdcpOpProtectionFailCount = 0 →
      o.element.decryptFailCount = e.decryptFailCount + 1 →
      o.element.hdcpOpProtectionFailCount = 0 → o.begun = false → DecryptsTo e errorCode o

theorem decryptBuffer_cases (c : Call) (e : GstCDMIDecryptor) :
    (decryptBuffer c e).decrypted = some c.errorCode ∧
      DecryptsTo e c.errorCode (decryptBuffer c e) := by
  unfold decryptBuffer
  dsimp only
  by_cases hfirst : c.errorCode ≠ 0 ∨ e.hdcpOpProtectionFailCount ≠ 0
  · rw [if_pos hfirst]
    by_cases hprotection : c.errorCode = HDCP_OUTPUT_PROTECTION_FAILURE
    · rw [if_pos hprotection]
      exact ⟨by simp, .protection hprotection (by simp) (by simp) (by simp)⟩
    · rw [if_neg hprotection]
      by_cases hcount : e.hdcpOpProtectionFailCount ≠ 0
      · rw [if_pos hcount]
        exact ⟨by simp, .forgets hprotection hcount (by simp) (by simp) (by simp)⟩
      · have hzero : e.hdcpOpProtectionFailCount = 0 := Decidable.not_not.mp hcount
        have hfailed : c.errorCode ≠ 0 := hfirst.resolve_right hcount
        rw [if_neg hcount]
        split
        · exact ⟨by simp, .failure hfailed hprotection hzero (by simp) (by simp [hzero])
            (by simp)⟩
        · exact ⟨by simp, .failure hfailed hprotection hzero (by simp) (by simp [hzero])
            (by simp)⟩
  · obtain ⟨hcode, hzero⟩ := not_or.mp hfirst
    rw [if_neg hfirst]
    exact ⟨by simp, .success (Decidable.not_not.mp hcode) (Decidable.not_not.mp hzero) (by simp)
      (by simp) (by simp)⟩

theorem transformIp_cases (AMLOGIC : Bool) (c : Call) (e : GstCDMIDecryptor) :
    LeavesEarly e (transformIp AMLOGIC c e) ∨ transformIp AMLOGIC c e = decryptBuffer c e := by
  have hleave : ∀ result,
      LeavesEarly e (freeResources c { result, element := e, events := [] }) :=
    fun _ => ⟨by simp, by simp, by simp⟩
  unfold transformIp
  dsimp only
  split
  · exact Or.inl (hleave _)
  · split
    · split <;> exact Or.inl (hleave _)
    · split
      · exact Or.inl (hleave _)
      · split
        · exact Or.inl (hleave _)
        · split
          · exact Or.inl (hleave _)
          · split
            · exact Or.inl (hleave _)
            · exact Or.inl (hleave _)
            · split
              · exact Or.inl (hleave _)
              · split
                · split
                  · exact Or.inl (hleave _)
                  · exact Or.inr rfl
                · exact Or.inl (hleave _)

/-! ## Counting -/

/-- The codes of the decryptions behind the last successful one, the latest first. -/
def sinceSuccess (history : List Int) : List Int := history.takeWhile (· ≠ 0)

def failures (history : List Int) : Nat :=
  (sinceSuccess history).countP (· ≠ HDCP_OUTPUT_PROTECTION_FAILURE)

def protectionFailures (history : List Int) : Nat :=
  (sinceSuccess history).countP (· = HDCP_OUTPUT_PROTECTION_FAILURE)

/-- The element, with the codes of its decryptions, the latest first. -/
structure State where
  element : GstCDMIDecryptor
  history : List Int

def State.outcome (AMLOGIC : Bool) (s : State) (c : Call) : Outcome :=
  transformIp AMLOGIC c s.element

def State.after (AMLOGIC : Bool) (s : State) (c : Call) : State where
  element := (s.outcome AMLOGIC c).element
  history := (s.outcome AMLOGIC c).decrypted.toList ++ s.history

/-- Calls one after the other, from an element just made. -/
def callSystem (AMLOGIC : Bool) : System State Call where
  init s := s = { element := {}, history := [] }
  step s c := some (s.after AMLOGIC c)

/-- Both counters are right behind the call, and a failed buffer has not come to the path
behind a successful decryption. -/
structure Accounts (AMLOGIC : Bool) (s : State) (c : Call) : Prop where
  decryptFailCount : (s.after AMLOGIC c).element.decryptFailCount.toNat =
    failures (s.after AMLOGIC c).history
  hdcpOpProtectionFailCount : (s.after AMLOGIC c).element.hdcpOpProtectionFailCount.toNat =
    protectionFailures (s.after AMLOGIC c).history
  exit : ∀ errorCode, (s.outcome AMLOGIC c).decrypted = some errorCode → errorCode ≠ 0 →
    (s.outcome AMLOGIC c).begun = false

/-- The code is no failure of the output protection, and the failures fit their counter. -/
def FitsCounters (history : List Int) (errorCode : Int) : Prop :=
  errorCode ≠ HDCP_OUTPUT_PROTECTION_FAILURE ∧ failures (errorCode :: history) < 2 ^ 16

theorem failures_success (history : List Int) :
    failures (0 :: history) = 0 ∧ protectionFailures (0 :: history) = 0 :=
  ⟨rfl, rfl⟩

theorem failures_failure {errorCode : Int} (hfailed : errorCode ≠ 0)
    (hother : errorCode ≠ HDCP_OUTPUT_PROTECTION_FAILURE) (history : List Int) :
    failures (errorCode :: history) = failures history + 1 ∧
      protectionFailures (errorCode :: history) = protectionFailures history := by
  have hsince : sinceSuccess (errorCode :: history) = errorCode :: sinceSuccess history := by
    rw [sinceSuccess, List.takeWhile_cons_of_pos (by simpa using hfailed)]
    rfl
  rw [failures, protectionFailures, hsince]
  exact ⟨List.countP_cons_of_pos (by simpa using hother),
    List.countP_cons_of_neg (by simpa using hother)⟩

/-- Both counters are right, and no failure of the output protection has to be counted. -/
structure Tallied (s : State) : Prop where
  decryptFailCount : s.element.decryptFailCount.toNat = failures s.history
  hdcpOpProtectionFailCount : s.element.hdcpOpProtectionFailCount = 0
  none : protectionFailures s.history = 0

section
variable {AMLOGIC : Bool} {s : State} {c : Call}

theorem after_early (h : LeavesEarly s.element (s.outcome AMLOGIC c)) :
    (s.after AMLOGIC c).history = s.history := by
  rw [State.after, h.decrypted]
  rfl

theorem after_decrypted {errorCode : Int} (h : (s.outcome AMLOGIC c).decrypted = some errorCode) :
    (s.after AMLOGIC c).history = errorCode :: s.history := by
  rw [State.after, h]
  rfl

/-- From right counters on, a call that meets the condition keeps them right. -/
theorem Tallied.after (h : Tallied s)
    (hfits : ∀ errorCode, (s.outcome AMLOGIC c).decrypted = some errorCode →
      FitsCounters s.history errorCode) :
    Tallied (s.after AMLOGIC c) ∧ ∀ errorCode, (s.outcome AMLOGIC c).decrypted = some errorCode →
      errorCode ≠ 0 → (s.outcome AMLOGIC c).begun = false := by
  rcases transformIp_cases AMLOGIC c s.element with hearly | hdecrypts
  · refine ⟨⟨?_, ?_, ?_⟩, fun errorCode hcode => ?_⟩
    · rw [after_early hearly, ← h.decryptFailCount]
      exact congrArg UInt16.toNat hearly.decryptFailCount
    · exact hearly.hdcpOpProtectionFailCount.trans h.hdcpOpProtectionFailCount
    · rw [after_early hearly, h.none]
    · cases hearly.decrypted.symm.trans hcode
  · obtain ⟨hdecrypted, hto⟩ := decryptBuffer_cases c s.element
    rw [← hdecrypts] at hdecrypted hto
    obtain ⟨hnot, hbound⟩ := hfits c.errorCode hdecrypted
    have hhistory := after_decrypted hdecrypted
    cases hto with
    | success hzero _ hfail hprotection _ =>
        rw [hzero] at hhistory
        obtain ⟨hnone, hnone'⟩ := failures_success s.history
        refine ⟨⟨?_, hprotection, by rw [hhistory, hnone']⟩, fun errorCode hcode hfailed => ?_⟩
        · rw [hhistory, hnone]
          exact congrArg UInt16.toNat hfail
        · exact absurd ((Option.some.inj (hdecrypted.symm.trans hcode)).symm.trans hzero) hfailed
    | protection hprotection => exact absurd hprotection hnot
    | forgets _ hcount => exact absurd h.hdcpOpProtectionFailCount hcount
    | failure hfailed hother _ hfail hprotection hbegun =>
        obtain ⟨hone, hnone⟩ := failures_failure hfailed hother s.history
        refine ⟨⟨?_, hprotection, by rw [hhistory, hnone, h.none]⟩, fun _ _ _ => hbegun⟩
        rw [hone] at hbound
        rw [hhistory, hone, ← h.decryptFailCount]
        refine (congrArg UInt16.toNat hfail).trans ?_
        rw [UInt16.toNat_add, h.decryptFailCount]
        exact Nat.mod_eq_of_lt hbound

theorem Tallied.accounts_iff (h : Tallied s) : Accounts AMLOGIC s c ↔
    ∀ errorCode, (s.outcome AMLOGIC c).decrypted = some errorCode →
      FitsCounters s.history errorCode := by
  constructor
  · intro haccounts errorCode hcode
    have hhistory := after_decrypted hcode
    rcases transformIp_cases AMLOGIC c s.element with hearly | hdecrypts
    · cases hearly.decrypted.symm.trans hcode
    · obtain ⟨hdecrypted, hto⟩ := decryptBuffer_cases c s.element
      rw [← hdecrypts] at hdecrypted hto
      obtain rfl := Option.some.inj (hdecrypted.symm.trans hcode)
      refine ⟨fun hprotection => ?_, ?_⟩
      · have hfailed : c.errorCode ≠ 0 := by
          rw [hprotection]
          decide
        have hbegun := haccounts.exit c.errorCode hcode hfailed
        cases hto with
        | success hzero => exact hfailed hzero
        | protection _ _ _ hbegun' => cases hbegun.symm.trans hbegun'
        | forgets _ _ _ _ hbegun' => cases hbegun.symm.trans hbegun'
        | failure _ hother => exact hother hprotection
      · rw [← hhistory, ← haccounts.decryptFailCount]
        exact UInt16.toNat_lt _
  · intro hfits
    obtain ⟨hafter, hexit⟩ := h.after hfits
    refine ⟨hafter.decryptFailCount, ?_, hexit⟩
    rw [hafter.hdcpOpProtectionFailCount, hafter.none]
    rfl

end

/-- In every run the counters are right behind each call, and failed buffers leave through
the failure exit, exactly when no failure of the output protection is returned and the
other failures fit 16 bits. -/
theorem accounts_run_iff (AMLOGIC : Bool) (calls : List Call) :
    (callSystem AMLOGIC).RunOk (Accounts AMLOGIC) { element := {}, history := [] } calls ↔
      (callSystem AMLOGIC).RunOk (fun s c => ∀ errorCode,
          (s.outcome AMLOGIC c).decrypted = some errorCode → FitsCounters s.history errorCode)
        { element := {}, history := [] } calls := by
  refine System.runOk_iff_of_invariant
    (fun (s : State) (c : Call) (h : Tallied s) => h.accounts_iff) ?_ ⟨rfl, rfl, rfl⟩ calls
  rintro s c t h haccounts ⟨⟩
  exact (h.after (h.accounts_iff.mp haccounts)).1

/-- An encrypted buffer, and a session that fails for the output protection. -/
def protectedCall : Call where
  buffer := some ⟨some
    { iv_size := some 16, encrypted := some true, subsample_count := some 0, iv := some ()
      kid := some (), subsamples := none }⟩
  canWait := true
  streamReceived := true
  receivedInWait := true
  hasSession := true
  hasSessionManager := true
  mediaType := .video
  errorCode := HDCP_OUTPUT_PROTECTION_FAILURE

/-- The first failed buffer of a stream is reported as the begin of its decryption. -/
example : (transformIp false protectedCall {}).events = [.profileBeginCb .video] := by decide

theorem protectedCall_not_accounts :
    ¬ ∀ (AMLOGIC : Bool) (calls : List Call),
      (callSystem AMLOGIC).RunOk (Accounts AMLOGIC) { element := {}, history := [] } calls := by
  intro h
  obtain ⟨haccounts, -⟩ := h false [protectedCall] _ rfl
  have hbegun := haccounts.exit HDCP_OUTPUT_PROTECTION_FAILURE (by decide) (by decide)
  exact absurd hbegun (by decide)

end PlayerInterface.Cdmi
