import Mathlib.Algebra.Group.Nat.Defs
import PlayerInterface.Core.Transition

/-!
# The closed-caption manager

`PlayerCCManagerBase` with the overrides of `PlayerSubtecCCManager`. The renderer
hears `StartRendering` and `StopRendering` only; the set-up of the HAL and of the
packet sender that precedes each command does not hold it back and is left out,
as are the attributes that `SetStyle` sends.
-/

namespace PlayerInterface.ClosedCaptions

open PlayerInterface.Core

/-! ## Choice of the channel -/

/-- How `std::stoul` fails. -/
inductive StoulError where
  | invalid_argument
  | out_of_range
deriving DecidableEq, Repr

def isspace (c : Char) : Bool :=
  [' ', '\t', '\n', '\x0b', '\x0c', '\x0d'].contains c

/-- `std::stoul` in base ten, for a 64-bit `unsigned long`. -/
def stoul (s : List Char) : Except StoulError Nat :=
  let s := s.dropWhile isspace
  let negative := s.head? = some '-'
  let digits := (if negative ∨ s.head? = some '+' then s.drop 1 else s).takeWhile Char.isDigit
  let value := digits.foldl (fun n c => 10 * n + (c.toNat - 48)) 0
  if digits = [] then .error .invalid_argument
  else if 2 ^ 64 ≤ value then .error .out_of_range
  else .ok (if negative then (2 ^ 64 - value) % 2 ^ 64 else value)

inductive CCFormat where
  | eCLOSEDCAPTION_FORMAT_608
  | eCLOSEDCAPTION_FORMAT_708
  | eCLOSEDCAPTION_FORMAT_DEFAULT
deriving DecidableEq, Repr

/-- A conversion to `unsigned int`. -/
def unsignedInt (n : Nat) : Nat := n % 2 ^ 32

/-- `(int)c - 48`, assigned to an `unsigned int`. -/
def charNum (c : Option Char) : Nat :=
  unsignedInt ((c.elim 0 Char.toNat) + (2 ^ 32 - 48))

/-- What the text of a track says: its number and the format it implies. -/
def inferTrack (track : List Char) : Except StoulError (Nat × CCFormat) :=
  if (track.head?.any fun c => decide (49 ≤ c.toNat ∧ c.toNat ≤ 54)) then
    (stoul track).map fun n => (unsignedInt n, .eCLOSEDCAPTION_FORMAT_DEFAULT)
  else if 2 < track.length && "CC".toList.isPrefixOf track then
    .ok (charNum track[2]?, .eCLOSEDCAPTION_FORMAT_608)
  else if 3 < track.length && "TXT".toList.isPrefixOf track then
    .ok (unsignedInt (charNum track[3]? + 4), .eCLOSEDCAPTION_FORMAT_608)
  else if 4 < track.length && "TEXT".toList.isPrefixOf track then
    .ok (unsignedInt (charNum track[4]? + 4), .eCLOSEDCAPTION_FORMAT_608)
  else if 7 < track.length && "SERVICE".toList.isPrefixOf track then
    (stoul (track.drop 7)).map fun n => (unsignedInt n, .eCLOSEDCAPTION_FORMAT_708)
  else .ok (0, .eCLOSEDCAPTION_FORMAT_DEFAULT)

/-- The format argument overrides what the text implies. -/
def forceFormat (inferred : Nat × CCFormat) (format : CCFormat) : Nat × CCFormat :=
  if format ≠ .eCLOSEDCAPTION_FORMAT_DEFAULT ∧ inferred.2 ≠ format then
    if format = .eCLOSEDCAPTION_FORMAT_608 then
      (if 8 < inferred.1 then 0 else inferred.1, .eCLOSEDCAPTION_FORMAT_608)
    else (inferred.1, .eCLOSEDCAPTION_FORMAT_708)
  else inferred

inductive Channel where
  | digital (id : Nat)
  | analog (id : Nat)
deriving DecidableEq, Repr

def GSW_CC_ANALOG_SERVICE_CC1 : Nat := 1000

/-- The channel `SetTrack` selects; `ok none` when it ignores the track. -/
def selectedChannel (track : List Char) (format : CCFormat) :
    Except StoulError (Option Channel) :=
  (inferTrack track).map fun inferred =>
    match forceFormat inferred format with
    | (trackNum, .eCLOSEDCAPTION_FORMAT_708) =>
        if 0 < trackNum ∧ trackNum ≤ 63 then some (.digital trackNum) else none
    | (trackNum, .eCLOSEDCAPTION_FORMAT_608) =>
        if 0 < trackNum ∧ trackNum ≤ 8 then
          some (.analog (GSW_CC_ANALOG_SERVICE_CC1 + (trackNum - 1)))
        else none
    | _ => none

example : selectedChannel "SERVICE12".toList .eCLOSEDCAPTION_FORMAT_DEFAULT =
    .ok (some (.digital 12)) := by decide

/-! ## State -/

inductive Rendering where
  | StartRendering
  | StopRendering
deriving DecidableEq, Repr

structure CCTrackInfo where
  instreamId : List Char := []
  language : List Char := []
deriving DecidableEq, Repr

/-- `rendering` is the last command the renderer was given. -/
structure CCManager where
  mOptions : List Char := []
  mTrack : List Char := []
  mLastTextTracks : List CCTrackInfo := []
  mEnabled : Bool := false
  mTrickplayStarted : Bool := false
  mParentalCtrlLocked : Bool := false
  rendering : Option Rendering := none
deriving DecidableEq, Repr

namespace CCManager

def Stop (m : CCManager) : CCManager :=
  { m with rendering := some .StopRendering }

def Start (m : CCManager) : CCManager :=
  { m with rendering := some .StartRendering }

/-- `parses` when `PlayerJsonObject` accepts the options. -/
def SetStyle (m : CCManager) (options : List Char) (parses : Bool) : CCManager × Int :=
  if m.mEnabled then
    if options ≠ [] then
      if parses then ({ m with mOptions := options }, 0) else (m, -1)
    else (m, -1)
  else (m, -1)

/-- The options it passes on are the ones already stored. -/
def EnsureRendererStateConsistency (m : CCManager) : CCManager :=
  let m := if m.mEnabled then m.Start else m.Stop
  (m.SetStyle m.mOptions true).1

/-- `none` for the exceptions of `std::stoul`, which leave the function. -/
def SetTrack (m : CCManager) (track : List Char) (format : CCFormat) : CCManager × Option Int :=
  let m := { m with mTrack := track }
  match selectedChannel track format with
  | .error _ => (m, none)
  | .ok none => (m, some (-1))
  | .ok (some _) => (m.EnsureRendererStateConsistency, some 0)

/-- The track `RestoreCC` selects. -/
def restoredTrack (m : CCManager) : List Char :=
  match m.mLastTextTracks with
  | [] => "CC1".toList
  | first :: rest =>
      if (first :: rest).any fun track => m.mTrack == track.instreamId then m.mTrack
      else if first.instreamId = [] then "CC1".toList
      else first.instreamId

def RestoreCC (m : CCManager) : CCManager :=
  (m.SetTrack m.restoredTrack .eCLOSEDCAPTION_FORMAT_DEFAULT).1

/-- `handle` when the decoder handle is not null; `Initialize` does not fail. -/
def Init (m : CCManager) (handle : Bool) : CCManager × Int :=
  if handle then (if m.mEnabled then m.Start else m.Stop, 0) else (m, -1)

def SetTrickplayStatus (m : CCManager) (on : Bool) : CCManager :=
  let m := if on then m.Stop else if m.mEnabled then m.Start else m
  { m with mTrickplayStarted := on }

def SetParentalControlStatus (m : CCManager) (locked : Bool) : CCManager :=
  let m := if locked then m.Stop else if m.mEnabled then m.Start else m
  { m with mParentalCtrlLocked := locked }

/-- Not overridden by `PlayerSubtecCCManager`. -/
def CheckCCHandle (_ : CCManager) : Bool := true

def SetStatus (m : CCManager) (enable : Bool) : CCManager × Int :=
  let m := { m with mEnabled := enable }
  if !m.mTrickplayStarted && !m.mParentalCtrlLocked && m.CheckCCHandle then
    (if m.mEnabled then m.Start else m.Stop, 0)
  else (m, 0)

/-- The constructor. -/
def PlayerSubtecCCManager : CCManager :=
  (({} : CCManager).SetTrack "CC1".toList .eCLOSEDCAPTION_FORMAT_DEFAULT).1

end CCManager

inductive Act where
  | Init (handle : Bool)
  | SetStatus (enable : Bool)
  | SetTrack (track : List Char) (format : CCFormat)
  | SetStyle (options : List Char) (parses : Bool)
  | RestoreCC
  | SetTrickplayStatus (on : Bool)
  | SetParentalControlStatus (locked : Bool)
  | updateLastTextTracks (tracks : List CCTrackInfo)

def CCManager.after (m : CCManager) : Act → CCManager
  | .Init handle => (m.Init handle).1
  | .SetStatus enable => (m.SetStatus enable).1
  | .SetTrack track format => (m.SetTrack track format).1
  | .SetStyle options parses => (m.SetStyle options parses).1
  | .RestoreCC => m.RestoreCC
  | .SetTrickplayStatus on => m.SetTrickplayStatus on
  | .SetParentalControlStatus locked => m.SetParentalControlStatus locked
  | .updateLastTextTracks tracks => { m with mLastTextTracks := tracks }

def ccSystem : System CCManager Act where
  init m := m = .PlayerSubtecCCManager
  step m a := some (m.after a)

end PlayerInterface.ClosedCaptions
