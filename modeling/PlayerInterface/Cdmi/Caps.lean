import Mathlib.Data.List.Nodup
import Mathlib.Data.List.Perm.Subperm
import PlayerInterface.Core.Distinct
import PlayerInterface.Drm.HelperFactory

/-!
# The caps of a decryptor

`transform_caps` gives each structure of the caps on one side of the element what it stands for on
the other. The protection system that it writes is the first known one that it has read.
-/

namespace PlayerInterface.Cdmi

open PlayerInterface.Core PlayerInterface.Drm

/-! ## Structures -/

/-- Values up to `gst_value_compare`; a string may be null. -/
inductive GValue (V : Type) where
  | string (text : Option String)
  | other (value : V)
deriving DecidableEq, Repr

def nameChar (c : Char) : Bool := c.isAlphanum || "/-_.:+".toList.contains c

def gst_structure_validate_name (name : String) : Bool :=
  match name.toList with
  | [] => false
  | c :: cs => c.isAlpha && cs.all nameChar

/-- Each field has one value. -/
@[ext] structure GstStructure (V : Type) where
  name : String
  fields : List (String × GValue V)
  named : gst_structure_validate_name name = true
  nodup : (fields.map Prod.fst).Nodup
deriving DecidableEq

namespace GstStructure

variable {V : Type}

def has_field (s : GstStructure V) (field : String) : Bool := s.fields.any (·.1 = field)

def get_string (s : GstStructure V) (field : String) : Option String :=
  match s.fields.find? (·.1 = field) with
  | some (_, .string text) => text
  | _ => none

def remove_field (s : GstStructure V) (field : String) : GstStructure V where
  name := s.name
  fields := s.fields.filter (·.1 ≠ field)
  named := s.named
  nodup := s.nodup.sublist (List.filter_sublist.map _)

/-- The list with the value of a field replaced in its place, or at the end. -/
def setIn (field : String) (value : GValue V) (fields : List (String × GValue V)) :
    List (String × GValue V) :=
  if field ∈ fields.map Prod.fst then fields.map fun f => (f.1, if f.1 = field then value else f.2)
  else fields ++ [(field, value)]

def set (s : GstStructure V) (field : String) (value : GValue V) : GstStructure V where
  name := s.name
  fields := setIn field value s.fields
  named := s.named
  nodup := by
    rw [setIn]
    split
    · simpa [Function.comp_def] using s.nodup
    · rename_i hfield
      rw [List.map_append, List.nodup_append]
      refine ⟨s.nodup, List.nodup_singleton _, fun a ha b hb => ?_⟩
      intro heq
      rw [heq, List.mem_singleton.mp hb] at ha
      exact hfield ha

/-- A name that is none is refused. -/
def set_name (s : GstStructure V) (name : Option String) : GstStructure V :=
  match name with
  | none => s
  | some name =>
      if h : gst_structure_validate_name name = true then { s with name := name, named := h } else s

variable [DecidableEq V]

def is_equal (a b : GstStructure V) : Bool :=
  a.name = b.name && a.fields.length = b.fields.length && a.fields.all (· ∈ b.fields)

theorem is_equal_iff (a b : GstStructure V) :
    a.is_equal b = true ↔ a.name = b.name ∧ a.fields.Perm b.fields := by
  have ha : a.fields.Nodup := List.Nodup.of_map Prod.fst a.nodup
  simp only [is_equal, Bool.and_eq_true, decide_eq_true_eq, List.all_eq_true, and_assoc]
  refine and_congr_right fun _ => ⟨fun ⟨hlength, hall⟩ => ?_, fun h => ⟨h.length_eq, ?_⟩⟩
  · exact (ha.subperm hall).perm_of_length_le (Nat.le_of_eq hlength.symm)
  · exact fun f hf => h.mem_iff.mp hf

end GstStructure

/-! ## The two directions -/

def PROTECTION_SYSTEM : String := "protection-system"
def ORIGINAL_MEDIA_TYPE : String := "original-media-type"

def srcMimeTypes : List String :=
  ["video/x-h264", "video/x-h264(memory:SecMem)", "audio/mpeg", "video/x-h265",
    "video/x-h265(memory:SecMem)", "audio/x-eac3", "audio/x-gst-fourcc-ec_3", "audio/x-ac3",
    "audio/x-opus"]

/-- What caps negotiation with adaptive streams must not depend on. -/
def videoField (field : String) : Bool :=
  field ∈ ["base-profile", "codec_data", "height", "framerate", "level", "pixel-aspect-ratio",
    "profile", "rate", "width"]

def drmField (field : String) : Bool :=
  PROTECTION_SYSTEM.toList.isPrefixOf field.toList ||
    ORIGINAL_MEDIA_TYPE.toList.isPrefixOf field.toList

inductive GstPadDirection where
  | GST_PAD_SRC
  | GST_PAD_SINK
deriving DecidableEq, Repr

/-- The members that caps set. -/
structure CapsElement (V : Type) where
  selectedProtection : Option String := none
  ignoreSVP : Bool := false
  sinkCaps : Option (List (GstStructure V)) := none

section
variable {V : Type}

def removeFields (remove : String → Bool) (names : List String) (out : GstStructure V) :
    GstStructure V :=
  names.foldl (fun out name => if remove name then out.remove_field name else out) out

/-- The loop from the last field to the first. -/
def withoutVideo (s : GstStructure V) : GstStructure V :=
  removeFields videoField (s.fields.map Prod.fst).reverse s

def ofSrc (selectedProtection : Option String) (s : GstStructure V) : GstStructure V :=
  (((withoutVideo s).set PROTECTION_SYSTEM (.string selectedProtection)).set ORIGINAL_MEDIA_TYPE
    (.string (some s.name))).set_name (some "application/x-cenc")

/-- Without a media type of its own only a structure that can pass through has something to stand
for. -/
def ofSink (s : GstStructure V) : Option (GstStructure V) :=
  if s.has_field ORIGINAL_MEDIA_TYPE then
    some (removeFields drmField (s.fields.map Prod.fst)
      (s.set_name (s.get_string ORIGINAL_MEDIA_TYPE)))
  else if s.name ∈ srcMimeTypes then some s
  else none

def transformed (direction : GstPadDirection) (selectedProtection : Option String)
    (s : GstStructure V) : Option (GstStructure V) :=
  match direction with
  | .GST_PAD_SRC => some (ofSrc selectedProtection s)
  | .GST_PAD_SINK => ofSink s

/-- The systems whose names in caps a decryptor takes. -/
def knownSystems : List String := [PLAYREADY_UUID, WIDEVINE_UUID, CLEARKEY_UUID, VERIMATRIX_UUID]

def selectProtection (e : CapsElement V) (caps : List (GstStructure V)) : CapsElement V :=
  if e.selectedProtection ≠ none then e
  else
    match caps.head?.bind (·.get_string PROTECTION_SYSTEM) with
    | none => e
    | some capsinfo =>
        if capsinfo ∈ knownSystems then
          { e with
            selectedProtection := some capsinfo
            ignoreSVP := e.ignoreSVP || capsinfo = CLEARKEY_UUID }
        else e

variable [DecidableEq V]

/-- `gst_cdmicapsappendifnotduplicate` in a loop. Features are not read, and what is appended has
none. -/
def transformAll (direction : GstPadDirection) (selectedProtection : Option String)
    (caps : List (GstStructure V)) : List (GstStructure V) :=
  firstOnes GstStructure.is_equal (caps.filterMap (transformed direction selectedProtection))

def transform_caps (gst_caps_intersect_full : List (GstStructure V) → List (GstStructure V) →
      List (GstStructure V))
    (direction : GstPadDirection) (caps : List (GstStructure V))
    (filter : Option (List (GstStructure V))) (e : CapsElement V) :
    List (GstStructure V) × CapsElement V :=
  let e := selectProtection e caps
  let transformedCaps := transformAll direction e.selectedProtection caps
  let transformedCaps :=
    match filter with
    | none => transformedCaps
    | some filter => gst_caps_intersect_full transformedCaps filter
  if direction = .GST_PAD_SINK ∧ transformedCaps ≠ [] then
    (transformedCaps, { e with sinkCaps := some transformedCaps })
  else (transformedCaps, e)

end

/-! ## There and back -/

section
variable {V : Type} {s : GstStructure V}

/-- Without fields that the way back takes for the decryptor's own. -/
def Plain (s : GstStructure V) : Prop := ∀ f ∈ s.fields, drmField f.1 = false

theorem removeFields_name (remove : String → Bool) (names : List String) (out : GstStructure V) :
    (removeFields remove names out).name = out.name := by
  induction names generalizing out with
  | nil => rfl
  | cons name names ih =>
      rw [removeFields, List.foldl_cons, ← removeFields, ih]
      split <;> rfl

theorem removeFields_fields (remove : String → Bool) (names : List String)
    (out : GstStructure V) :
    (removeFields remove names out).fields =
      out.fields.filter fun f => ¬ (remove f.1 = true ∧ f.1 ∈ names) := by
  induction names generalizing out with
  | nil => simp [removeFields]
  | cons name names ih =>
      rw [removeFields, List.foldl_cons, ← removeFields, ih]
      split
      · rename_i hname
        rw [GstStructure.remove_field, List.filter_filter]
        refine List.filter_congr fun f _ => ?_
        by_cases heq : f.1 = name
        · simp [heq, hname]
        · simp [heq]
      · rename_i hname
        refine List.filter_congr fun f _ => ?_
        by_cases heq : f.1 = name
        · simp [heq, hname]
        · simp [heq]

/-- When every field is gone through, what is left does not depend on the order. -/
theorem removeFields_all (remove : String → Bool) {names : List String} {out : GstStructure V}
    (h : ∀ f ∈ out.fields, f.1 ∈ names) :
    (removeFields remove names out).fields = out.fields.filter fun f => !remove f.1 := by
  rw [removeFields_fields]
  refine List.filter_congr fun f hf => ?_
  simp [h f hf]

theorem withoutVideo_name (s : GstStructure V) : (withoutVideo s).name = s.name :=
  removeFields_name _ _ _

theorem withoutVideo_fields (s : GstStructure V) :
    (withoutVideo s).fields = s.fields.filter fun f => !videoField f.1 :=
  removeFields_all _ fun _ hf => List.mem_reverse.mpr (List.mem_map_of_mem hf)

theorem Plain.withoutVideo (h : Plain s) : Plain (withoutVideo s) := by
  intro f hf
  rw [withoutVideo_fields] at hf
  exact h f (List.mem_of_mem_filter hf)

theorem drmField_written :
    drmField PROTECTION_SYSTEM = true ∧ drmField ORIGINAL_MEDIA_TYPE = true := by decide

theorem Plain.not_mem (h : Plain s) {field : String} (hfield : drmField field = true) :
    field ∉ s.fields.map Prod.fst := by
  intro hmem
  obtain ⟨f, hf, rfl⟩ := List.mem_map.mp hmem
  rw [h f hf] at hfield
  cases hfield

theorem ofSrc_name (selectedProtection : Option String) (s : GstStructure V) :
    (ofSrc selectedProtection s).name = "application/x-cenc" := by
  have hvalid : gst_structure_validate_name "application/x-cenc" = true := by decide
  rw [ofSrc, GstStructure.set_name, dif_pos hvalid]

/-- Both fields are new to the structure. -/
theorem Plain.ofSrc_fields (h : Plain s) (selectedProtection : Option String) :
    (ofSrc selectedProtection s).fields = (Cdmi.withoutVideo s).fields ++
      [(PROTECTION_SYSTEM, .string selectedProtection),
        (ORIGINAL_MEDIA_TYPE, .string (some s.name))] := by
  have hsystem := h.withoutVideo.not_mem drmField_written.1
  have htype : ORIGINAL_MEDIA_TYPE ∉
      ((Cdmi.withoutVideo s).fields ++
        [(PROTECTION_SYSTEM, GValue.string selectedProtection)]).map Prod.fst := by
    rw [List.map_append, List.mem_append]
    exact not_or_intro (h.withoutVideo.not_mem drmField_written.2)
      (by simp [PROTECTION_SYSTEM, ORIGINAL_MEDIA_TYPE])
  have hvalid : gst_structure_validate_name "application/x-cenc" = true := by decide
  rw [ofSrc, GstStructure.set_name, dif_pos hvalid]
  simp only [GstStructure.set]
  rw [GstStructure.setIn, GstStructure.setIn, if_neg hsystem, if_neg htype, List.append_assoc, List.singleton_append]

theorem Plain.ofSink_ofSrc (h : Plain s) (selectedProtection : Option String) :
    ofSink (ofSrc selectedProtection s) = some (Cdmi.withoutVideo s) := by
  have hfields := h.ofSrc_fields selectedProtection
  have hnone : (Cdmi.withoutVideo s).fields.find? (·.1 = ORIGINAL_MEDIA_TYPE) = none := by
    rw [List.find?_eq_none]
    intro f hf heq
    exact h.withoutVideo.not_mem drmField_written.2
      (List.mem_map.mpr ⟨f, hf, of_decide_eq_true heq⟩)
  have htype : (ofSrc selectedProtection s).get_string ORIGINAL_MEDIA_TYPE = some s.name := by
    rw [GstStructure.get_string, hfields, List.find?_append, hnone]
    rfl
  have hhas : (ofSrc selectedProtection s).has_field ORIGINAL_MEDIA_TYPE = true := by
    rw [GstStructure.has_field, hfields]
    simp
  have hplain : (Cdmi.withoutVideo s).fields.filter (fun f => !drmField f.1) =
      (Cdmi.withoutVideo s).fields :=
    List.filter_eq_self.mpr fun f hf => by rw [h.withoutVideo f hf]; rfl
  have hwritten : [(PROTECTION_SYSTEM, GValue.string selectedProtection),
      (ORIGINAL_MEDIA_TYPE, (.string (some s.name) : GValue V))].filter
        (fun f => !drmField f.1) = [] := by
    simp [List.filter, drmField_written]
  rw [ofSink, if_pos hhas, htype, GstStructure.set_name, dif_pos s.named]
  refine congrArg some (GstStructure.ext ?_ ?_)
  · rw [removeFields_name, withoutVideo_name]
  · rw [removeFields_all]
    · dsimp only
      rw [hfields, List.filter_append, hplain, hwritten, List.append_nil]
    · exact fun f hf => List.mem_map_of_mem hf

variable [DecidableEq V]

/-- The way up tells two structures apart just when they differ in more than what it takes off. -/
theorem is_equal_ofSrc {a b : GstStructure V} (ha : Plain a) (hb : Plain b)
    (selectedProtection : Option String) :
    (ofSrc selectedProtection a).is_equal (ofSrc selectedProtection b) =
      (withoutVideo a).is_equal (withoutVideo b) := by
  rw [Bool.eq_iff_iff, GstStructure.is_equal_iff, GstStructure.is_equal_iff, ofSrc_name, ofSrc_name,
    ha.ofSrc_fields, hb.ofSrc_fields, withoutVideo_name, withoutVideo_name, and_iff_right rfl]
  constructor
  · intro hperm
    have hmem : (ORIGINAL_MEDIA_TYPE, (GValue.string (some a.name) : GValue V)) ∈
        (withoutVideo b).fields ++ [(PROTECTION_SYSTEM, .string selectedProtection),
          (ORIGINAL_MEDIA_TYPE, .string (some b.name))] :=
      hperm.mem_iff.mp (List.mem_append_right _ (List.mem_cons_of_mem _ List.mem_cons_self))
    have hname : a.name = b.name := by
      cases List.mem_append.mp hmem with
      | inl hfields =>
          exact absurd (List.mem_map_of_mem hfields)
            (hb.withoutVideo.not_mem drmField_written.2)
      | inr hnew => simpa [PROTECTION_SYSTEM, ORIGINAL_MEDIA_TYPE] using hnew
    rw [hname] at hperm
    exact ⟨hname, (List.perm_append_right_iff _).mp hperm⟩
  · intro ⟨hname, hperm⟩
    rw [hname]
    exact hperm.append_right _

theorem transform_caps_selected
    (gst_caps_intersect_full : List (GstStructure V) → List (GstStructure V) →
      List (GstStructure V))
    (direction : GstPadDirection) (caps : List (GstStructure V))
    (filter : Option (List (GstStructure V))) (e : CapsElement V) :
    (transform_caps gst_caps_intersect_full direction caps filter e).2.selectedProtection =
      (selectProtection e caps).selectedProtection := by
  unfold transform_caps
  dsimp only
  split <;> split <;> rfl

/-- Caps that go up through a decryptor and come down again are the caps without the fields of
their video, each structure once. -/
theorem transform_caps_round_trip
    (gst_caps_intersect_full : List (GstStructure V) → List (GstStructure V) →
      List (GstStructure V))
    (e : CapsElement V) {caps : List (GstStructure V)} (h : ∀ s ∈ caps, Plain s) :
    let up := transform_caps gst_caps_intersect_full .GST_PAD_SRC caps none e
    (transform_caps gst_caps_intersect_full .GST_PAD_SINK up.1 none up.2).1 =
      firstOnes GstStructure.is_equal (caps.map withoutVideo) := by
  intro up
  have hup : up.1 = firstOnes GstStructure.is_equal
      (caps.map (ofSrc (selectProtection e caps).selectedProtection)) := by
    rw [← List.filterMap_eq_map]
    rfl
  have hdown : (transform_caps gst_caps_intersect_full .GST_PAD_SINK up.1 none up.2).1 =
      firstOnes GstStructure.is_equal (up.1.filterMap ofSink) := by
    rw [transform_caps]
    split <;> rfl
  have hback : ∀ s ∈ up.1, ofSink s = some ((ofSink s).getD s) := by
    intro s hs
    rw [hup] at hs
    obtain ⟨t, ht, rfl⟩ := List.mem_map.mp (mem_of_mem_firstOnes hs)
    rw [(h t ht).ofSink_ofSrc, Option.getD_some]
  have hsame : ∀ a ∈ caps, (ofSink (ofSrc (selectProtection e caps).selectedProtection a)).getD
      (ofSrc (selectProtection e caps).selectedProtection a) = withoutVideo a := by
    intro a ha
    rw [(h a ha).ofSink_ofSrc, Option.getD_some]
  have hmap : up.1.filterMap ofSink = up.1.map fun s => (ofSink s).getD s := by
    rw [List.filterMap_congr hback, List.filterMap_eq_map']
  rw [hdown, hmap, hup, firstOnes_map_firstOnes]
  · exact congrArg _ (List.map_congr_left hsame)
  · intro a ha b hb
    rw [hsame a ha, hsame b hb]
    exact is_equal_ofSrc (h a ha) (h b hb) _

end

/-- Two qualities of one video, and an audio that can pass through. -/
def sampleCaps : List (GstStructure Nat) :=
  [{ name := "video/x-h264", fields := [("width", .other 1280), ("stream-format", .string (some "avc"))]
     named := by decide, nodup := by decide },
    { name := "video/x-h264", fields := [("stream-format", .string (some "avc")), ("width", .other 640)]
      named := by decide, nodup := by decide },
    { name := "audio/mpeg", fields := [("mpegversion", .other 4), ("rate", .other 48000)]
      named := by decide, nodup := by decide }]

theorem sampleCaps_round_trip :
    let e : CapsElement Nat := { selectedProtection := some WIDEVINE_UUID }
    let up := transform_caps (fun caps _ => caps) .GST_PAD_SRC sampleCaps none e
    up.1.length = 2 ∧ (transform_caps (fun caps _ => caps) .GST_PAD_SINK up.1 none up.2).1 =
      firstOnes GstStructure.is_equal (sampleCaps.map withoutVideo) :=
  ⟨by decide +kernel, transform_caps_round_trip (fun caps _ => caps) _
    (by simp only [Plain]; decide +kernel)⟩

end PlayerInterface.Cdmi
