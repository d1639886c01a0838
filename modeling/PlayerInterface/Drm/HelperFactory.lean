import PlayerInterface.Core.Registry
import PlayerInterface.Drm.VerimatrixHelper
import PlayerInterface.Drm.WidevineHelper

/-!
# The helper engine

Each factory registers itself when its static object is constructed, in an order C++ leaves open,
and the engine sorts its factories by weight with a sort that is not stable. The first factory
that knows the DRM of a manifest makes the helper.
-/

namespace PlayerInterface.Drm

open PlayerInterface.Core

inductive DrmHelperFactory where
  | WidevineDrmHelperFactory
  | PlayReadyHelperFactory
  | VerimatrixHelperFactory
  | ClearKeyHelperFactory
deriving DecidableEq, Repr

/-- A helper as its factory makes it. -/
inductive MadeHelper where
  | WidevineDrmHelper (mDrmInfo : DrmInfo) (helper : WidevineDrmHelper)
  | PlayReadyHelper (mDrmInfo : DrmInfo) (helper : PlayReadyHelper)
  | VerimatrixHelper (helper : VerimatrixHelper)
  | ClearKeyHelper (mDrmInfo : DrmInfo) (helper : ClearKeyHelper)

def WIDEVINE_OCDM_ID : String := "com.widevine.alpha"
def PLAYREADY_OCDM_ID : String := "com.microsoft.playready"
def VERIMATRIX_OCDM_ID : String := "com.verimatrix.ott"

def DEFAULT_WEIGHTING : Nat := 50
def CLEARKEY_WEIGHTING : Nat := DEFAULT_WEIGHTING * 2

/-- The system is named by its UUID or by the format of its keys. -/
def DrmInfo.names (drmInfo : DrmInfo) (uuid ocdmId : String) : Bool :=
  uuid == drmInfo.systemUUID || ocdmId == drmInfo.keyFormat

namespace DrmHelperFactory

/-- Larger weights have lower priority. -/
def getWeighting : DrmHelperFactory → Nat
  | ClearKeyHelperFactory => CLEARKEY_WEIGHTING
  | _ => DEFAULT_WEIGHTING

def isDRM (drmInfo : DrmInfo) : DrmHelperFactory → Bool
  | WidevineDrmHelperFactory =>
      drmInfo.names WIDEVINE_UUID WIDEVINE_OCDM_ID &&
        (drmInfo.mediaFormat == .eMEDIAFORMAT_DASH || drmInfo.mediaFormat == .eMEDIAFORMAT_HLS_MP4)
  | PlayReadyHelperFactory =>
      drmInfo.names PLAYREADY_UUID PLAYREADY_OCDM_ID &&
        (drmInfo.mediaFormat == .eMEDIAFORMAT_DASH || drmInfo.mediaFormat == .eMEDIAFORMAT_HLS_MP4)
  | VerimatrixHelperFactory =>
      drmInfo.names VERIMATRIX_UUID VERIMATRIX_OCDM_ID &&
        (drmInfo.mediaFormat == .eMEDIAFORMAT_DASH || drmInfo.mediaFormat == .eMEDIAFORMAT_HLS)
  | ClearKeyHelperFactory =>
      drmInfo.method == .eMETHOD_AES_128 &&
        (drmInfo.mediaFormat == .eMEDIAFORMAT_DASH || drmInfo.mediaFormat == .eMEDIAFORMAT_HLS_MP4)

def make (drmInfo : DrmInfo) : DrmHelperFactory → MadeHelper
  | WidevineDrmHelperFactory => .WidevineDrmHelper drmInfo .new
  | PlayReadyHelperFactory => .PlayReadyHelper drmInfo {}
  | VerimatrixHelperFactory => .VerimatrixHelper { mDrmInfo := drmInfo }
  | ClearKeyHelperFactory => .ClearKeyHelper drmInfo ⟨drmInfo.mediaFormat, [], []⟩

def createHelper (drmInfo : DrmInfo) (factory : DrmHelperFactory) : Option MadeHelper :=
  if factory.isDRM drmInfo then some (factory.make drmInfo) else none

def systemId : DrmHelperFactory → String
  | WidevineDrmHelperFactory => WIDEVINE_UUID
  | PlayReadyHelperFactory => PLAYREADY_UUID
  | VerimatrixHelperFactory => VERIMATRIX_UUID
  | ClearKeyHelperFactory => CLEARKEY_UUID

/-- The static objects. -/
def all : List DrmHelperFactory :=
  [WidevineDrmHelperFactory, PlayReadyHelperFactory, VerimatrixHelperFactory,
    ClearKeyHelperFactory]

theorem mem_all (factory : DrmHelperFactory) : factory ∈ all := by
  cases factory <;> decide

end DrmHelperFactory

structure DrmHelperEngine where
  factories : List DrmHelperFactory

namespace DrmHelperEngine

def createHelper (engine : DrmHelperEngine) (drmInfo : DrmInfo) : Option MadeHelper :=
  (engine.factories.find? (·.isDRM drmInfo)).bind (·.createHelper drmInfo)

def hasDRM (engine : DrmHelperEngine) (drmInfo : DrmInfo) : Bool :=
  engine.factories.any (·.isDRM drmInfo)

def getSystemIds (engine : DrmHelperEngine) : List String :=
  engine.factories.map DrmHelperFactory.systemId

/-- An engine with which all factories are registered, in one of the orders. -/
def Complete (engine : DrmHelperEngine) : Prop :=
  ∃ order : List DrmHelperFactory, order.Perm DrmHelperFactory.all ∧
    Registered DrmHelperFactory.getWeighting order engine.factories

end DrmHelperEngine

/-! ## What a helper tells of its factory -/

def MadeHelper.factory : MadeHelper → DrmHelperFactory
  | WidevineDrmHelper _ _ => .WidevineDrmHelperFactory
  | PlayReadyHelper _ _ => .PlayReadyHelperFactory
  | VerimatrixHelper _ => .VerimatrixHelperFactory
  | ClearKeyHelper _ _ => .ClearKeyHelperFactory

@[simp] theorem factory_make (drmInfo : DrmInfo) (factory : DrmHelperFactory) :
    (factory.make drmInfo).factory = factory := by
  cases factory <;> rfl

namespace DrmHelperEngine

/-- The factory that is found makes the helper. -/
theorem createHelper_eq (engine : DrmHelperEngine) (drmInfo : DrmInfo) :
    engine.createHelper drmInfo =
      (engine.factories.find? (·.isDRM drmInfo)).map (·.make drmInfo) := by
  cases hfind : engine.factories.find? (·.isDRM drmInfo) with
  | none => rw [createHelper, hfind]; rfl
  | some factory =>
      have hdrm := List.find?_some hfind
      simp only [createHelper, hfind, Option.bind_some, DrmHelperFactory.createHelper, hdrm,
        if_true, Option.map_some]

theorem createHelper_factory (engine : DrmHelperEngine) (drmInfo : DrmInfo) :
    (engine.createHelper drmInfo).map MadeHelper.factory =
      engine.factories.find? (·.isDRM drmInfo) := by
  rw [createHelper_eq, Option.map_map]
  cases engine.factories.find? (·.isDRM drmInfo) <;> simp

/-- A DRM is known exactly when a helper can be made for it. -/
theorem hasDRM_eq_isSome (engine : DrmHelperEngine) (drmInfo : DrmInfo) :
    engine.hasDRM drmInfo = (engine.createHelper drmInfo).isSome := by
  rw [createHelper_eq, Option.isSome_map, List.isSome_find?, hasDRM]

theorem mem_factories {engine : DrmHelperEngine} (h : engine.Complete)
    (factory : DrmHelperFactory) : factory ∈ engine.factories := by
  obtain ⟨order, horder, hregistered⟩ := h
  exact (hregistered.perm.trans horder).mem_iff.mpr factory.mem_all

end DrmHelperEngine

/-! ## Manifests that name two systems -/

/-- Two factories of the default weight know the DRM: its UUID is that of one, the format of its
keys that of the other. -/
def DrmInfo.Ambiguous (drmInfo : DrmInfo) : Prop :=
  ∃ f g : DrmHelperFactory, f ≠ g ∧ f.getWeighting = DEFAULT_WEIGHTING ∧
    g.getWeighting = DEFAULT_WEIGHTING ∧ f.isDRM drmInfo = true ∧ g.isDRM drmInfo = true

theorem ambiguous_iff_tied (drmInfo : DrmInfo) :
    drmInfo.Ambiguous ↔ Tied DrmHelperFactory.getWeighting (·.isDRM drmInfo) DrmHelperFactory.all := by
  have hleast : ∀ f : DrmHelperFactory, DEFAULT_WEIGHTING ≤ f.getWeighting := by
    intro f
    cases f <;> decide
  constructor
  · rintro ⟨f, g, hne, hf, hg, hfdrm, hgdrm⟩
    refine ⟨f, f.mem_all, g, g.mem_all, hne, hfdrm, hgdrm, hf.trans hg.symm, fun z _ _ => ?_⟩
    rw [hf]
    exact hleast z
  · rintro ⟨f, -, g, -, hne, hfdrm, hgdrm, hweight, -⟩
    -- the only factory of another weight is the only one of its weight
    have hdefault : f.getWeighting = DEFAULT_WEIGHTING := by
      cases f with
      | ClearKeyHelperFactory =>
          cases g with
          | ClearKeyHelperFactory => exact absurd rfl hne
          | WidevineDrmHelperFactory | PlayReadyHelperFactory | VerimatrixHelperFactory =>
              cases hweight
      | WidevineDrmHelperFactory | PlayReadyHelperFactory | VerimatrixHelperFactory => rfl
    exact ⟨f, g, hne, hdefault, hweight ▸ hdefault, hfdrm, hgdrm⟩

/-- A manifest that gives the UUID alone names one system. -/
theorem not_ambiguous_of_uuid {drmInfo : DrmInfo} (h : drmInfo.keyFormat = "") :
    ¬ drmInfo.Ambiguous := by
  have hnames : ∀ uuid ocdmId, ocdmId ≠ "" → drmInfo.names uuid ocdmId = true →
      drmInfo.systemUUID = uuid := by
    intro uuid ocdmId hne hnamed
    simp only [DrmInfo.names, h, Bool.or_eq_true, beq_iff_eq] at hnamed
    exact (hnamed.resolve_right hne).symm
  have huuid : ∀ f : DrmHelperFactory, f.getWeighting = DEFAULT_WEIGHTING →
      f.isDRM drmInfo = true → drmInfo.systemUUID = f.systemId := by
    intro f hweight hdrm
    cases f with
    | ClearKeyHelperFactory => cases hweight
    | WidevineDrmHelperFactory | PlayReadyHelperFactory | VerimatrixHelperFactory =>
        simp only [DrmHelperFactory.isDRM, Bool.and_eq_true] at hdrm
        exact hnames _ _ (by decide) hdrm.1
  rintro ⟨f, g, hne, hf, hg, hfdrm, hgdrm⟩
  have hsame := (huuid f hf hfdrm).symm.trans (huuid g hg hgdrm)
  apply hne
  revert hsame
  cases f <;> cases g <;> decide

/-- The helper does not depend on the order of the static objects, nor on the sort, exactly for
the manifests that do not name two systems at once. -/
theorem createHelper_registration_iff (drmInfo : DrmInfo) :
    (∀ engine engine' : DrmHelperEngine, engine.Complete → engine'.Complete →
        engine.createHelper drmInfo = engine'.createHelper drmInfo) ↔ ¬ drmInfo.Ambiguous := by
  rw [ambiguous_iff_tied, ← find?_registered_iff]
  constructor
  · intro h order order' xs ys horder horder' hxs hys
    have hsame := h ⟨xs⟩ ⟨ys⟩ ⟨order, horder, hxs⟩ ⟨order', horder', hys⟩
    have hfactory := congrArg (Option.map MadeHelper.factory) hsame
    rwa [DrmHelperEngine.createHelper_factory, DrmHelperEngine.createHelper_factory] at hfactory
  · rintro h engine engine' ⟨order, horder, hxs⟩ ⟨order', horder', hys⟩
    rw [DrmHelperEngine.createHelper_eq, DrmHelperEngine.createHelper_eq,
      h order order' _ _ horder horder' hxs hys]

/-- The UUID of Widevine with the key format of PlayReady. -/
example : DrmInfo.Ambiguous
    { mediaFormat := .eMEDIAFORMAT_DASH, systemUUID := WIDEVINE_UUID,
      keyFormat := PLAYREADY_OCDM_ID } :=
  ⟨.WidevineDrmHelperFactory, .PlayReadyHelperFactory, by decide, rfl, rfl, by decide, by decide⟩

/-- No helper is made whose init data would be a pointer that was never set. -/
theorem made_createInitData {drmInfo : DrmInfo} {helper : VerimatrixHelper}
    {engine : DrmHelperEngine}
    (h : engine.createHelper drmInfo = some (.VerimatrixHelper helper)) :
    helper.createInitData ≠ none := by
  rw [DrmHelperEngine.createHelper_eq] at h
  obtain ⟨factory, hfind, hmake⟩ := Option.map_eq_some_iff.mp h
  have hdrm := List.find?_some hfind
  cases factory with
  | WidevineDrmHelperFactory | PlayReadyHelperFactory | ClearKeyHelperFactory => cases hmake
  | VerimatrixHelperFactory =>
      cases hmake
      simp only [DrmHelperFactory.isDRM, Bool.and_eq_true, Bool.or_eq_true, beq_iff_eq] at hdrm
      rcases hdrm.2 with hformat | hformat <;> simp [VerimatrixHelper.createInitData, hformat]

end PlayerInterface.Drm
