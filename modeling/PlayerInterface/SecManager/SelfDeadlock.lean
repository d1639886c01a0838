import PlayerInterface.SecManager.FireboltOutcome

/-!
# Managers let go under the mutex

The destructor of a manager closes its session under the mutex a license call holds. A
Firebolt call makes handles for the session of the caller alone; a Thunder call makes one for
every session a response names.
-/

namespace PlayerInterface.SecManager

open PlayerInterface.Core PlayerInterface.Json

variable {η : Type} [DecidableEq η]

namespace FireboltLoop

omit [DecidableEq η] in
/-- The session a round makes a handle for is the one of a valid caller's handle. -/
theorem not_discards {s : FireboltLoop η} (h : s.HasVariable) (hash : Nat) : ¬ Discards s.world.sessions (some (s.sessionId, hash)) := by
  rintro ⟨id, hash', heq, -, hvalid, hnot⟩
  cases heq
  obtain ⟨hnone, -⟩ | hid := h
  · exact hvalid hnone
  · exact hnot ⟨.session, hid⟩

theorem round_lost (lib : JsonLibrary) {s : FireboltLoop η} (hs : Ready s.world.sessions)
    (h : s.HasVariable) (hlost : s.world.lost = false) (reply : FireboltReply) :
    (s.round lib reply).world.lost = false := by
  have hkeep : ∀ made, ¬ Discards s.world.sessions made →
      (s.world.keepSession made).lost = false := by
    intro made hnot
    rw [← Bool.not_eq_true, (keepSession_end hs made).lost, hlost]
    rintro (hyes | hdiscards)
    · cases hyes
    · exact hnot hdiscards
  cases s.round_case lib reply with
  | silent _ hworld _ | unread _ hworld _ => exact (congrArg World.lost hworld).trans hlost
  | unparsed _ _ _ hworld _ =>
      rw [hworld]
      exact hkeep none nofun
  | parsed _ _ _ _ _ hworld _ =>
      rw [hworld]
      exact hkeep _ (not_discards h s.inputSummaryHash)

/-- A call keeps every manager that is shared. -/
structure Keeping (s : FireboltLoop η) : Prop where
  ready : Ready s.world.sessions
  session : s.HasVariable
  lost : s.world.lost = false

theorem keeping_step {lib : JsonLibrary} {s t : FireboltLoop η} {a : CallAct η FireboltReply}
    (h : s.Keeping) (ht : (system lib).step s a = some t) : t.Keeping := by
  cases a with
  | round reply =>
      obtain ⟨-, heq⟩ := Option.ite_none_right_eq_some.mp ht
      cases heq
      exact ⟨(round_kept (s.round_case lib reply) h.ready).1.ready,
        round_hasVariable h.ready h.session lib reply, round_lost lib h.ready h.session h.lost reply⟩
  | other a =>
      obtain ⟨world, hworld, heq⟩ := Option.map_eq_some_iff.mp ht
      cases heq
      obtain ⟨hkept, hsame, -⟩ := World.others_kept h.ready hworld
      exact ⟨hkept.ready, others_hasVariable h.ready h.session hworld, hsame.trans h.lost⟩

end FireboltLoop

/-- A Firebolt call never lets go the last handle of a manager; a Thunder call does not exactly
when its responses name shared sessions. -/
theorem licenseCall_keeps {sessions : State (Handle η)}
    (hreach : (sessionSystem (Handle η)).Reachable sessions) (hsession : .session ∈ sessions.handles)
    (hnew : .newSession ∉ sessions.handles) (htemp : .temporary ∉ sessions.handles)
    (hash : Bytes → Nat) (r : LicenseRequest) :
    (∀ lib uninitialised as, (FireboltLoop.system lib).RunAll (fun s => s.world.lost = false)
      (FireboltLoop.start sessions hash r uninitialised) as) ∧
    ∀ as, ThunderLoop.system.RunAll (fun s => s.world.lost = false)
        (ThunderLoop.start sessions hash r) as ↔
      ThunderLoop.system.RunOk ThunderLoop.NamesShared (ThunderLoop.start sessions hash r) as := by
  have hready : Ready sessions := ⟨registered_of_reachable hreach, hsession, hnew, htemp⟩
  constructor
  · intro lib uninitialised as
    have hstart : (FireboltLoop.start sessions hash r uninitialised).Keeping :=
      ⟨hready, FireboltLoop.start_hasVariable hready hash r uninitialised, rfl⟩
    exact System.runAll_of_invariant (fun _ _ _ => FireboltLoop.keeping_step) (fun _ h => h.lost)
      hstart as
  · intro as
    apply System.runAll_iff_runOk_of_invariant
    · exact fun s a t h ht => (ThunderLoop.step_lost_iff h ht).1
    · intro s a t h hlost ht
      rw [← Bool.not_eq_true, (ThunderLoop.step_lost_iff h ht).2, hlost, or_iff_right nofun,
        not_not]
    · exact hready
    · rfl

/-! ## Two responses -/

/-- A response without a license that asks for another attempt. -/
def busyResponse (sessionId : Int) : CallAct Unit ThunderReply :=
  .round ⟨true, true, sessionId, [], some ⟨some 200, some 5, none⟩, true⟩

/-- The session of the first response is kept. -/
theorem busyResponse_keeps :
    ThunderLoop.system.RunAll (fun s => s.world.lost = false)
      (ThunderLoop.start FireboltCall.invalidSession (fun _ => 0) (tokenRequest [0x61] [0x62]))
      [busyResponse 5] := by
  refine ((licenseCall_keeps FireboltCall.invalidSession_reachable (by decide) (by decide)
    (by decide) (fun _ => 0) (tokenRequest [0x61] [0x62])).2 [busyResponse 5]).mpr ?_
  exact fun t _ => ⟨fun _ _ _ hvalid => absurd hvalid (by decide), trivial⟩

/-- The one of the second is let go. -/
theorem secondSession_lost :
    ¬ ThunderLoop.system.RunAll (fun s => s.world.lost = false)
      (ThunderLoop.start FireboltCall.invalidSession (fun _ => 0) (tokenRequest [0x61] [0x62]))
      [busyResponse 5, busyResponse 7] := by
  intro hall
  have hrun : ((ThunderLoop.system.run (ThunderLoop.start FireboltCall.invalidSession (fun _ => 0)
      (tokenRequest [0x61] [0x62])) [busyResponse 5, busyResponse 7]).map (·.world.lost)) =
        some true := by decide
  obtain ⟨t, ht, hlost⟩ := Option.map_eq_some_iff.mp hrun
  rw [hall.run ht] at hlost
  cases hlost

end PlayerInterface.SecManager
