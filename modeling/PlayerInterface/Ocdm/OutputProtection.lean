import PlayerInterface.Core.Transition

/-!
# HDCP 2.2 for content that requires it

The gate in front of every decryption asks an object that the first session adapter makes. The
handlers of the HDMI events refresh another object of the same class, which nothing asks.
-/

namespace PlayerInterface.Ocdm

open PlayerInterface.Core

/-! ## The state of the link -/

inductive HdcpProtocolVersion where
  | dsHDCP_VERSION_1X
  | dsHDCP_VERSION_2X
  | dsHDCP_VERSION_MAX
deriving DecidableEq, Repr

/-- The answers of the device settings; `none` is an exception. An answer that is only logged
may still be one. -/
structure VideoOutputPort where
  isDisplayConnected : Option Bool
  getHDCPProtocol : Option Unit := some ()
  getHDCPStatus : Option Unit := some ()
  isContentProtected : Option Bool := none
  getHDCPReceiverProtocol : Option Unit := some ()
  getHDCPCurrentProtocol : Option HdcpProtocolVersion := none
deriving DecidableEq, Repr

/-- The variables of `SetHDMIStatus` with their first values. -/
structure HdmiStatus where
  isConnected : Bool := false
  isHDCPEnabled : Bool := true
  hdcpCurrentProtocol : HdcpProtocolVersion := .dsHDCP_VERSION_MAX
deriving DecidableEq, Repr

/-- An exception leaves the variables behind it as they are. -/
def VideoOutputPort.status (vPort : VideoOutputPort) : HdmiStatus :=
  match vPort.isDisplayConnected, vPort.getHDCPProtocol with
  | none, _ => {}
  | some isConnected, none => { isConnected }
  | some false, some _ => { isHDCPEnabled := false }
  | some true, some _ =>
      match vPort.getHDCPStatus, vPort.isContentProtected with
      | some _, some isHDCPEnabled =>
          match vPort.getHDCPReceiverProtocol, vPort.getHDCPCurrentProtocol with
          | some _, some hdcpCurrentProtocol =>
              { isConnected := true, isHDCPEnabled, hdcpCurrentProtocol }
          | _, _ => { isConnected := true, isHDCPEnabled }
      | _, _ => { isConnected := true }

/-- A display that is protected with HDCP 2. -/
def VideoOutputPort.Hdcp2 (vPort : VideoOutputPort) : Prop :=
  vPort.status = ⟨true, true, .dsHDCP_VERSION_2X⟩

instance (vPort : VideoOutputPort) : Decidable vPort.Hdcp2 :=
  inferInstanceAs (Decidable (_ = _))

/-- A display without protection: the version is left as it is. -/
def VideoOutputPort.Unprotected (vPort : VideoOutputPort) : Prop :=
  vPort.status.isConnected = true ∧ vPort.status.isHDCPEnabled = false

instance (vPort : VideoOutputPort) : Decidable vPort.Unprotected :=
  inferInstanceAs (Decidable (_ ∧ _))

/-! ## The objects -/

section

variable {ι : Type}

/-- The decoders are of type `ι`. -/
structure IarmInterface (ι : Type) where
  m_hdcpCurrentProtocol : HdcpProtocolVersion
  m_gstElement : Option ι := none

namespace IarmInterface

/-- `fake` is the class that is used in containers and without the IARM bus. -/
def SetHDMIStatus (fake : Bool) (vPort : VideoOutputPort) (r : IarmInterface ι) :
    IarmInterface ι :=
  if fake then { r with m_hdcpCurrentProtocol := .dsHDCP_VERSION_1X }
  else
    let status := vPort.status
    let r :=
      if status.isHDCPEnabled then
        if status.hdcpCurrentProtocol = .dsHDCP_VERSION_2X then
          { r with m_hdcpCurrentProtocol := status.hdcpCurrentProtocol }
        else { r with m_hdcpCurrentProtocol := .dsHDCP_VERSION_1X }
      else r
    if status.isConnected then r
    else { r with m_hdcpCurrentProtocol := .dsHDCP_VERSION_1X }

def isHDCPConnection2_2 (r : IarmInterface ι) : Bool :=
  r.m_hdcpCurrentProtocol = .dsHDCP_VERSION_2X

end IarmInterface

/-- A sample at the gate: whether its source was found to be UHD, what the gate said, and the
link it would be shown over. -/
structure Decision where
  uhd : Bool
  decrypted : Bool
  vPort : VideoOutputPort

structure ProtectionState (ι : Type) where
  vPort : VideoOutputPort
  video_height : ι → Option Int
  video_width : ι → Option Int
  s_pPlayerOP : Option (IarmInterface ι) := none
  /-- the object of the event handlers -/
  s_pPlayerIarmRdkOP : Option (IarmInterface ι) := none
  sourceHeight : Int := 0
  sourceWidth : Int := 0
  /-- what lay in memory and what the link was when the object of the gate was made -/
  made : Option (HdcpProtocolVersion × VideoOutputPort) := none
  decisions : List Decision := []

inductive ProtectionAct (ι : Type) where
  | link (vPort : VideoOutputPort)
  | properties (e : ι) (video_height video_width : Option Int)
  /-- a session adapter is constructed; `memory` is where the version is not written -/
  | OCDMSessionAdapter (memory : HdcpProtocolVersion)
  | HDMIEventHandler (memory : HdcpProtocolVersion)
  /-- the state of a decoder changes -/
  | bus_message (decoder : ι)
  | Stop
  | decrypt (isHdcp22Required : Bool)

def UHD_WIDTH : Int := 3840

def UHD_HEIGHT : Int := 2160

namespace ProtectionState

/-- A property the decoder does not have leaves the static variable as it is. -/
def IsSourceUHD (s : ProtectionState ι) (r : IarmInterface ι) : Bool × ProtectionState ι :=
  match r.m_gstElement with
  | none => (false, s)
  | some e =>
      let sourceHeight := (s.video_height e).getD s.sourceHeight
      let sourceWidth := (s.video_width e).getD s.sourceWidth
      (sourceWidth ≠ 0 ∧ sourceHeight ≠ 0 ∧
          (UHD_WIDTH ≤ sourceWidth ∨ UHD_HEIGHT ≤ sourceHeight),
        { s with sourceHeight, sourceWidth })

/-- Beside the result, whether the source was found to be UHD. -/
def verifyOutputProtection (s : ProtectionState ι) (r : IarmInterface ι)
    (isHdcp22Required : Bool) : Bool × Bool × ProtectionState ι :=
  if isHdcp22Required then
    let (uhd, s) := s.IsSourceUHD r
    if uhd then (r.isHDCPConnection2_2, true, s) else (true, false, s)
  else (true, false, s)

def GetPlayerExternalsInterfaceInstance (fake : Bool) (memory : HdcpProtocolVersion)
    (s : ProtectionState ι) : ProtectionState ι :=
  match s.s_pPlayerOP with
  | some _ => s
  | none =>
      let m_pIarmInterface : IarmInterface ι := { m_hdcpCurrentProtocol := memory }
      { s with
        s_pPlayerOP := some (m_pIarmInterface.SetHDMIStatus fake s.vPort)
        made := some (memory, s.vPort) }

def HDMIEventHandler (memory : HdcpProtocolVersion) (s : ProtectionState ι) :
    ProtectionState ι :=
  let pInstance := s.s_pPlayerIarmRdkOP.getD { m_hdcpCurrentProtocol := memory }
  { s with s_pPlayerIarmRdkOP := some (pInstance.SetHDMIStatus false s.vPort) }

def setGstElement (element : Option ι) (s : ProtectionState ι) : ProtectionState ι :=
  { s with s_pPlayerOP := s.s_pPlayerOP.map fun r => { r with m_gstElement := element } }

/-- The sample is handed to the CDM where the gate lets it pass. -/
def decrypt (isHdcp22Required : Bool) (r : IarmInterface ι) (s : ProtectionState ι) :
    ProtectionState ι :=
  let (decrypted, uhd, t) := s.verifyOutputProtection r isHdcp22Required
  { t with decisions := s.decisions ++ [⟨uhd, decrypted, s.vPort⟩] }

end ProtectionState

/-- Handlers are registered with the object of the gate, and only on the IARM bus. -/
def protectionStep [DecidableEq ι] (fake : Bool) (s : ProtectionState ι) :
    ProtectionAct ι → Option (ProtectionState ι)
  | .link vPort => some { s with vPort }
  | .properties e video_height video_width =>
      some { s with
        video_height := fun d => if d = e then video_height else s.video_height d
        video_width := fun d => if d = e then video_width else s.video_width d }
  | .OCDMSessionAdapter memory => some (s.GetPlayerExternalsInterfaceInstance fake memory)
  | .HDMIEventHandler memory =>
      if fake ∨ s.s_pPlayerOP.isNone then none else some (s.HDMIEventHandler memory)
  | .bus_message decoder => some (s.setGstElement (some decoder))
  | .Stop => some (s.setGstElement none)
  | .decrypt isHdcp22Required => s.s_pPlayerOP.map fun r => s.decrypt isHdcp22Required r

def protectionSystem (ι : Type) [DecidableEq ι] (fake : Bool) :
    System (ProtectionState ι) (ProtectionAct ι) where
  init s := s.s_pPlayerOP = none ∧ s.decisions = []
  step := protectionStep fake

/-! ## The link at the start -/

/-- The object of the gate was made over a link with HDCP 2, or over one without protection
while the memory looked like it. -/
def ProtectionState.StartedHdcp2 (fake : Bool) (s : ProtectionState ι) : Prop :=
  fake = false ∧ ∃ memory vPort, s.made = some (memory, vPort) ∧
    (vPort.Hdcp2 ∨ vPort.Unprotected ∧ memory = .dsHDCP_VERSION_2X)

theorem SetHDMIStatus_hdcp2_iff (fake : Bool) (vPort : VideoOutputPort) (r : IarmInterface ι) :
    (r.SetHDMIStatus fake vPort).isHDCPConnection2_2 = true ↔ fake = false ∧
      (vPort.Hdcp2 ∨ vPort.Unprotected ∧ r.m_hdcpCurrentProtocol = .dsHDCP_VERSION_2X) := by
  rw [IarmInterface.isHDCPConnection2_2, decide_eq_true_eq, IarmInterface.SetHDMIStatus,
    VideoOutputPort.Hdcp2, VideoOutputPort.Unprotected]
  cases fake with
  | true => simp
  | false =>
      obtain ⟨isConnected, isHDCPEnabled, hdcpCurrentProtocol⟩ := vPort.status
      cases isConnected with
      | false => simp
      | true =>
          cases isHDCPEnabled with
          | false => simp
          | true => cases hdcpCurrentProtocol <;> simp

/-- Whatever came since, the object of the gate holds what it was made with. -/
def ProtectionState.Frozen (fake : Bool) (s : ProtectionState ι) : Prop :=
  ∀ r, s.s_pPlayerOP = some r → (r.isHDCPConnection2_2 = true ↔ s.StartedHdcp2 fake)

/-- UHD samples that require HDCP 2.2 were decrypted over such a link only. -/
def ProtectionState.Protected (s : ProtectionState ι) : Prop :=
  ∀ d ∈ s.decisions, d.uhd = true → d.decrypted = true → d.vPort.Hdcp2

/-- A UHD sample that requires HDCP 2.2 comes while the link has it, unless the link had not when
the object of the gate was made. -/
def LinkKept (fake : Bool) (s : ProtectionState ι) : ProtectionAct ι → Prop
  | .decrypt isHdcp22Required => ∀ r, s.s_pPlayerOP = some r → isHdcp22Required = true →
      (s.IsSourceUHD r).1 = true → s.StartedHdcp2 fake → s.vPort.Hdcp2
  | _ => True

namespace ProtectionState

theorem StartedHdcp2.congr {fake : Bool} {s t : ProtectionState ι} (h : t.made = s.made) :
    t.StartedHdcp2 fake ↔ s.StartedHdcp2 fake := by
  rw [StartedHdcp2, StartedHdcp2, h]

/-- Only the two fields matter, and of the object only the version. -/
theorem Frozen.congr {fake : Bool} {s t : ProtectionState ι} (h : s.Frozen fake)
    (hmade : t.made = s.made)
    (hobject : ∀ r, t.s_pPlayerOP = some r → ∃ r', s.s_pPlayerOP = some r' ∧
      r.m_hdcpCurrentProtocol = r'.m_hdcpCurrentProtocol) : t.Frozen fake := by
  intro r hr
  obtain ⟨r', hr', hversion⟩ := hobject r hr
  rw [StartedHdcp2.congr hmade, ← h r' hr', IarmInterface.isHDCPConnection2_2,
    IarmInterface.isHDCPConnection2_2, hversion]

theorem frozen_instance {fake : Bool} {s : ProtectionState ι} (h : s.Frozen fake)
    (memory : HdcpProtocolVersion) :
    (s.GetPlayerExternalsInterfaceInstance fake memory).Frozen fake := by
  rw [GetPlayerExternalsInterfaceInstance]
  cases s.s_pPlayerOP with
  | some r => exact h
  | none =>
      intro r hr
      cases hr
      rw [SetHDMIStatus_hdcp2_iff]
      refine and_congr_right fun _ => ⟨fun hlink => ⟨memory, s.vPort, rfl, hlink⟩, ?_⟩
      intro ⟨memory', vPort, hmade, hlink⟩
      cases hmade
      exact hlink

theorem frozen_setGstElement {fake : Bool} {s : ProtectionState ι} (h : s.Frozen fake)
    (element : Option ι) : (s.setGstElement element).Frozen fake := by
  refine h.congr rfl fun r hr => ?_
  obtain ⟨r', hr', heq⟩ := Option.map_eq_some_iff.mp hr
  exact ⟨r', hr', heq ▸ rfl⟩

/-- What a sample leaves behind. -/
theorem decrypt_eq (s : ProtectionState ι) (isHdcp22Required : Bool) (r : IarmInterface ι) :
    (s.decrypt isHdcp22Required r).s_pPlayerOP = s.s_pPlayerOP ∧
      (s.decrypt isHdcp22Required r).made = s.made ∧
      (s.decrypt isHdcp22Required r).decisions = s.decisions ++
        [⟨isHdcp22Required && (s.IsSourceUHD r).1,
          !(isHdcp22Required && (s.IsSourceUHD r).1) || r.isHDCPConnection2_2, s.vPort⟩] := by
  have hkeep : (s.IsSourceUHD r).2.s_pPlayerOP = s.s_pPlayerOP ∧
      (s.IsSourceUHD r).2.made = s.made := by
    rw [IsSourceUHD]
    cases r.m_gstElement with
    | none => exact ⟨rfl, rfl⟩
    | some e => exact ⟨rfl, rfl⟩
  rw [decrypt, verifyOutputProtection]
  cases isHdcp22Required with
  | false => exact ⟨rfl, rfl, rfl⟩
  | true =>
      cases huhd : (s.IsSourceUHD r).1 with
      | false => simp [huhd, hkeep]
      | true => simp [huhd, hkeep]

end ProtectionState

theorem frozen_step [DecidableEq ι] {fake : Bool} {s t : ProtectionState ι}
    {a : ProtectionAct ι} (h : s.Frozen fake) (hstep : protectionStep fake s a = some t) :
    t.Frozen fake := by
  cases a with
  | link vPort =>
      cases hstep
      exact h.congr rfl fun r hr => ⟨r, hr, rfl⟩
  | properties e video_height video_width =>
      cases hstep
      exact h.congr rfl fun r hr => ⟨r, hr, rfl⟩
  | OCDMSessionAdapter memory =>
      cases hstep
      exact ProtectionState.frozen_instance h memory
  | HDMIEventHandler memory =>
      simp only [protectionStep] at hstep
      split at hstep
      · cases hstep
      · cases hstep
        exact h.congr rfl fun r hr => ⟨r, hr, rfl⟩
  | bus_message decoder =>
      cases hstep
      exact ProtectionState.frozen_setGstElement h _
  | Stop =>
      cases hstep
      exact ProtectionState.frozen_setGstElement h _
  | decrypt isHdcp22Required =>
      obtain ⟨r, -, rfl⟩ := Option.map_eq_some_iff.mp hstep
      obtain ⟨hobject, hmade, -⟩ := s.decrypt_eq isHdcp22Required r
      exact h.congr hmade fun r' hr' => ⟨r', hobject ▸ hr', rfl⟩

theorem protected_step_iff [DecidableEq ι] {fake : Bool} {s t : ProtectionState ι}
    {a : ProtectionAct ι} (hfrozen : s.Frozen fake) (h : s.Protected)
    (hstep : protectionStep fake s a = some t) : t.Protected ↔ LinkKept fake s a := by
  cases a with
  | link vPort | properties e video_height video_width | bus_message decoder | Stop =>
      cases hstep
      exact iff_of_true h trivial
  | OCDMSessionAdapter memory =>
      cases hstep
      refine iff_of_true ?_ trivial
      rw [ProtectionState.GetPlayerExternalsInterfaceInstance]
      cases s.s_pPlayerOP with
      | some r => exact h
      | none => exact h
  | HDMIEventHandler memory =>
      simp only [protectionStep] at hstep
      split at hstep
      · cases hstep
      · cases hstep
        exact iff_of_true h trivial
  | decrypt isHdcp22Required =>
      obtain ⟨r, hr, rfl⟩ := Option.map_eq_some_iff.mp hstep
      obtain ⟨-, -, hdecisions⟩ := s.decrypt_eq isHdcp22Required r
      have hlink := hfrozen r hr
      have hsample : (s.decrypt isHdcp22Required r).Protected ↔
          ((isHdcp22Required && (s.IsSourceUHD r).1) = true →
            (!(isHdcp22Required && (s.IsSourceUHD r).1) || r.isHDCPConnection2_2) = true →
            s.vPort.Hdcp2) := by
        rw [ProtectionState.Protected, hdecisions, List.forall_mem_append,
          List.forall_mem_singleton]
        exact and_iff_right h
      rw [hsample]
      constructor
      · intro hshown r' hr' hrequired huhd hstarted
        cases hr.symm.trans hr'
        exact hshown (by simp [hrequired, huhd]) (by simp [hlink.mpr hstarted])
      · intro hkept huhd hdecrypted
        obtain ⟨hrequired, hfound⟩ := Bool.and_eq_true_iff.mp huhd
        refine hkept r hr hrequired hfound (hlink.mp ?_)
        simpa [hrequired, hfound] using hdecrypted

/-- Over a run, UHD samples that require HDCP 2.2 are decrypted over such a link only, exactly when
each of them comes while the link has it or the link had not when the first session adapter was
constructed: no event in between counts. -/
theorem protected_iff [DecidableEq ι] (fake : Bool) (vPort : VideoOutputPort)
    (video_height video_width : ι → Option Int) (acts : List (ProtectionAct ι)) :
    (protectionSystem ι fake).RunAll ProtectionState.Protected
        { vPort, video_height, video_width } acts ↔
      (protectionSystem ι fake).RunOk (LinkKept fake) { vPort, video_height, video_width } acts :=
  System.runAll_iff_runOk_of_invariant (fun _ _ _ => frozen_step)
    (fun _ _ _ => protected_step_iff) nofun nofun acts

end

/-- A display with HDCP 2. -/
def newDisplay : VideoOutputPort where
  isDisplayConnected := some true
  isContentProtected := some true
  getHDCPCurrentProtocol := some .dsHDCP_VERSION_2X

def oldDisplay : VideoOutputPort := { newDisplay with
  getHDCPCurrentProtocol := some .dsHDCP_VERSION_1X }

/-- The event of a display without HDCP 2 is handled, and the next UHD sample decrypted. -/
example : ((protectionSystem Unit false).run
    { vPort := newDisplay, video_height := fun _ => some 2160, video_width := fun _ => some 3840 }
    [.OCDMSessionAdapter .dsHDCP_VERSION_MAX, .bus_message (), .link oldDisplay,
      .HDMIEventHandler .dsHDCP_VERSION_MAX, .decrypt true]).map
      (fun s => s.decisions.map fun d => (d.uhd, d.decrypted)) = some [(true, true)] := by
  decide

end PlayerInterface.Ocdm
