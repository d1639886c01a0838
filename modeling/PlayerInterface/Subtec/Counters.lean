import Mathlib.Data.List.Chain
import PlayerInterface.Subtec.Channel

/-!
# The counters of a channel

The packets of a channel that have their counter, the queued ones and then the one
on its way, are numbered in sequence: only the holder of `mChannelMtx` has one on its
way. Entering the queue moves a packet from the end of this row to the queue and
leaves the row as it is.
-/

namespace PlayerInterface.Subtec

open PlayerInterface.Core

/-- The packet of a client that has not entered the queue yet. -/
def ClientPc.packet? {α : Type} : ClientPc α → Option α
  | sendLock packet | sendPush packet => some packet
  | _ => none

/-- The channel whose mutex a client holds. -/
def ChannelPc.inside {χ : Type} : ChannelPc χ → Option χ
  | locked ch _ | sending ch => some ch
  | outside | locking _ _ => none

section

variable {ι χ : Type} [DecidableEq ι] [DecidableEq χ]

/-! ## The packet sender and the packets on their way -/

omit [DecidableEq ι] in
theorem notifyAll_client {α : Type} (s : PacketSender ι α) : s.notifyAll.client = s.client := by
  unfold PacketSender.notifyAll
  split <;> rfl

omit [DecidableEq ι] in
theorem lockBySender_client {α : Type} {s t : PacketSender ι α} {pc : SenderPc}
    (h : s.lockBySender pc = some t) : t.client = s.client := by
  rcases Option.ite_none_right_eq_some.mp h with ⟨-, ht⟩
  cases ht
  rfl

omit [DecidableEq ι] in
theorem senderStep_client {α : Type} {s t : PacketSender ι α} (h : s.senderStep = some t) :
    t.client = s.client := by
  simp only [PacketSender.senderStep] at h
  split at h
  case h_1 | h_5 | h_9 => cases h
  case h_2 | h_6 => exact lockBySender_client h
  case h_3 | h_4 =>
      cases h
      rfl
  case h_7 | h_8 =>
      cases h
      split <;> rfl

/-- The client goes on to a place with the same packet on its way. -/
def GoesOn {α : Type} (s t : PacketSender ι α) (c : ι) : Prop :=
  ∃ pc, t.client = Function.update s.client c pc ∧ pc.packet? = (s.client c).packet?

theorem goesOn_of_eq {α : Type} {s t : PacketSender ι α} (c : ι) (h : t.client = s.client) :
    GoesOn s t c := ⟨s.client c, by rw [h, Function.update_eq_self], rfl⟩

theorem lockByClient_goesOn {α : Type} {s t : PacketSender ι α} {c : ι} {m : SenderMutex}
    {pc : ClientPc α} (h : s.lockByClient c m pc = some t)
    (hpc : pc.packet? = (s.client c).packet?) : GoesOn s t c := by
  rcases Option.ite_none_right_eq_some.mp h with ⟨-, ht⟩
  cases ht
  exact ⟨pc, rfl, hpc⟩

/-- Only the push takes a packet from a client. -/
theorem clientStep_goesOn {α : Type} {s t : PacketSender ι α} {c : ι} {ok : Bool}
    (h : s.clientStep c ok = some t) (hpush : ∀ p, s.client c ≠ .sendPush p) : GoesOn s t c := by
  cases hpc : s.client c with
  | sendPush p => exact absurd hpc (hpush p)
  | idle =>
      simp only [PacketSender.clientStep, hpc] at h
      cases h
  | initLock | sendLock p | flushLock =>
      simp only [PacketSender.clientStep, hpc] at h
      exact lockByClient_goesOn h (by rw [hpc]; rfl)
  | initTest | initSocket | initReturn ret | sendReturn | flushReturn | closeTest | flushSwap
  | closeStore | closeJoinable =>
      simp only [PacketSender.clientStep, hpc] at h
      cases h
      refine ⟨_, rfl, ?_⟩
      rw [hpc]
      first | rfl | (split <;> rfl)
  | sendNotify | closeNotify =>
      simp only [PacketSender.clientStep, hpc] at h
      cases h
      exact ⟨_, notifyAll_client _, by rw [hpc]; rfl⟩
  | initSenderTask =>
      simp only [PacketSender.clientStep, hpc] at h
      cases h
      cases ok with
      | false => exact ⟨_, rfl, by rw [hpc]; rfl⟩
      | true =>
          simp only [if_true, PacketSender.createThread]
          split
          · exact goesOn_of_eq c rfl
          · exact ⟨_, rfl, by rw [hpc]; rfl⟩
  | closeJoin =>
      simp only [PacketSender.clientStep, hpc, PacketSender.join] at h
      split at h
      · rcases Option.ite_none_right_eq_some.mp h with ⟨-, ht⟩
        cases ht
        exact ⟨_, rfl, by rw [hpc]; rfl⟩
      · cases h
        exact goesOn_of_eq c rfl

theorem GoesOn.packet {α : Type} {s t : PacketSender ι α} {c : ι} (h : GoesOn s t c) (k : ι) :
    (t.client k).packet? = (s.client k).packet? := by
  rcases h with ⟨pc, hclient, hpc⟩
  rw [hclient]
  by_cases hk : k = c
  · subst hk
    rw [Function.update_self, hpc]
  · rw [Function.update_of_ne hk]

/-- A step that is not the start of a `SendPacket` pushes the packet of one client, or leaves
every packet where it is. -/
theorem step_packets {α : Type} {s t : PacketSender ι α} {a : SenderAct ι α}
    (h : s.step a = some t) (hcall : ∀ c p, a ≠ .call c (.SendPacket p)) :
    (∃ c ok p, a = .client c ok ∧ s.client c = .sendPush p ∧
      t.client = Function.update s.client c .sendNotify) ∨
    (∀ k, (t.client k).packet? = (s.client k).packet?) ∧
      ∀ c ok p, a = .client c ok → s.client c ≠ .sendPush p := by
  simp only [PacketSender.step] at h
  split at h
  · cases h
  · cases a with
    | call c f =>
        simp only [PacketSender.startCall] at h
        split at h
        · rename_i hidle
          cases h
          refine .inr ⟨GoesOn.packet ⟨f.start, rfl, ?_⟩, nofun⟩
          rw [hidle]
          cases f with
          | SendPacket p => exact absurd rfl (hcall c p)
          | Init | Flush | Close => rfl
        · cases h
    | client c ok =>
        by_cases hpush : ∃ p, s.client c = .sendPush p
        · rcases hpush with ⟨p, hp⟩
          simp only [PacketSender.clientStep, hp] at h
          cases h
          exact .inl ⟨c, ok, p, rfl, hp, rfl⟩
        · have hno : ∀ p, s.client c ≠ .sendPush p := fun p hp => hpush ⟨p, hp⟩
          refine .inr ⟨(clientStep_goesOn h hno).packet, fun k _ p hk => ?_⟩
          cases hk
          exact hno p
    | sender =>
        refine .inr ⟨fun k => ?_, nofun⟩
        rw [senderStep_client h]
    | spuriousWakeup =>
        rcases Option.ite_none_right_eq_some.mp h with ⟨-, ht⟩
        cases ht
        exact .inr ⟨fun _ => rfl, nofun⟩

/-! ## The row of a channel -/

namespace ChannelState

/-- The packet that the holder of `mChannelMtx` has on its way. -/
def inFlight (s : ChannelState ι χ) (ch : χ) : List Packet :=
  match (s.channel ch).holder with
  | none => []
  | some c => (s.sender.client c).packet?.toList.map Prod.snd

/-- The numbered packets of a channel in order. -/
def row (s : ChannelState ι χ) (ch : χ) : List Packet := s.enteredBy ch ++ s.inFlight ch

structure Numbered (s : ChannelState ι χ) : Prop where
  holder : ∀ c ch, (s.pc c).inside = some ch ↔ (s.channel ch).holder = some c
  packet : ∀ c p, (s.sender.client c).packet? = some p → s.pc c = .sending p.1
  chain : ∀ ch, (s.row ch).IsChain Follows
  counter : ∀ ch p, p ∈ (s.row ch).getLast? →
    ∃ type number, p.header = some (type, number) ∧ (s.channel ch).m_counter = number + 1

omit [DecidableEq ι] in
/-- A client that is not in `SendPacket` has no packet. -/
theorem Numbered.noPacket {s : ChannelState ι χ} (h : s.Numbered) {c : ι}
    (hpc : ∀ ch, s.pc c ≠ .sending ch) : (s.sender.client c).packet? = none := by
  cases hp : (s.sender.client c).packet? with
  | none => rfl
  | some p => exact absurd (h.packet c p hp) (hpc p.1)

omit [DecidableEq ι] [DecidableEq χ] in
theorem inFlight_of_holder {s : ChannelState ι χ} {ch : χ} {c : ι}
    (h : (s.channel ch).holder = some c) :
    s.inFlight ch = (s.sender.client c).packet?.toList.map Prod.snd := by
  rw [inFlight, h]

omit [DecidableEq ι] in
/-- The row is the same when the holder, its packet and the queue are. -/
theorem row_congr {s t : ChannelState ι χ} {ch : χ} (hentered : t.entered = s.entered)
    (hholder : (t.channel ch).holder = (s.channel ch).holder)
    (hpacket : ∀ c, (s.channel ch).holder = some c →
      (t.sender.client c).packet? = (s.sender.client c).packet?) : t.row ch = s.row ch := by
  have hflight : t.inFlight ch = s.inFlight ch := by
    rw [inFlight, inFlight, hholder]
    cases hc : (s.channel ch).holder with
    | none => rfl
    | some c =>
        dsimp only
        rw [hpacket c hc]
  rw [row, row, enteredBy, enteredBy, hentered, hflight]

omit [DecidableEq ι] in
/-- A client moves on without a packet, its channel and all rows being as they are. -/
theorem Numbered.keep {s t : ChannelState ι χ} (h : s.Numbered)
    (hholder : ∀ c ch, (t.pc c).inside = some ch ↔ (t.channel ch).holder = some c)
    (hpacket : ∀ c p, (t.sender.client c).packet? = some p → t.pc c = .sending p.1)
    (hrow : ∀ ch, t.row ch = s.row ch)
    (hcounter : ∀ ch, (t.channel ch).m_counter = (s.channel ch).m_counter) : t.Numbered where
  holder := hholder
  packet := hpacket
  chain ch := by
    rw [hrow]
    exact h.chain ch
  counter ch p hp := by
    rw [hcounter]
    exact h.counter ch p (hrow ch ▸ hp)

theorem send_numbered {s t : ChannelState ι χ} {c : ι} {ch : χ} {f : Send} (h : s.Numbered)
    (hstep : subtecStep s (.send c ch f) = some t) : t.Numbered := by
  simp only [subtecStep] at hstep
  split at hstep
  · rename_i hpc hidle
    cases hstep
    refine h.keep (fun k l => ?_) (fun k p hp => ?_) (fun l => row_congr rfl rfl fun _ _ => rfl)
      fun _ => rfl
    · by_cases hk : k = c
      · subst hk
        have hout := h.holder k l
        rw [hpc] at hout
        simpa [atPc, ChannelPc.inside] using hout
      · simpa [atPc, hk] using h.holder k l
    · by_cases hk : k = c
      · subst hk
        simp only [atPc, hidle, ClientPc.packet?] at hp
        cases hp
      · simpa [atPc, hk] using h.packet k p hp
  · cases hstep

/-- A packet enters the queue from the end of its row, or nothing moves. -/
theorem sender_numbered {s t : ChannelState ι χ} {a : SenderAct ι (χ × Packet)} (h : s.Numbered)
    (hstep : subtecStep s (.sender a) = some t) : t.Numbered := by
  rcases Option.ite_none_right_eq_some.mp hstep with ⟨hadmits, hrun⟩
  rcases Option.map_eq_some_iff.mp hrun with ⟨sender, hsender, rfl⟩
  have hcall : ∀ c p, a ≠ .call c (.SendPacket p) := by
    rintro c p rfl
    cases hadmits
  rcases step_packets hsender hcall with ⟨c, ok, p, rfl, hpush, hclient⟩ | ⟨hsame, hno⟩
  · have hpc : s.pc c = .sending p.1 := h.packet c p (by rw [hpush]; rfl)
    have hheld : (s.channel p.1).holder = some c := (h.holder c p.1).mp (by rw [hpc]; rfl)
    have hpushed : s.pushed (.client c ok) = [p] := by
      simp only [pushed, hpush]
    refine h.keep h.holder (fun k q hq => ?_) (fun ch => ?_) fun _ => rfl
    · by_cases hk : k = c
      · subst hk
        rw [hclient, Function.update_self] at hq
        cases hq
      · rw [hclient, Function.update_of_ne hk] at hq
        exact h.packet k q hq
    · by_cases hch : ch = p.1
      · subst hch
        have hbefore : s.inFlight p.1 = [p.2] := by
          rw [inFlight_of_holder hheld, hpush]
          rfl
        let t : ChannelState ι χ := { s with sender, entered := s.entered ++ [p] }
        have hafter : t.inFlight p.1 = [] := by
          rw [inFlight_of_holder (s := t) hheld, hclient, Function.update_self]
          rfl
        rw [hpushed]
        show t.enteredBy p.1 ++ t.inFlight p.1 = s.enteredBy p.1 ++ s.inFlight p.1
        rw [hbefore, hafter, enteredBy, enteredBy]
        simp [t]
      · have hother : ∀ k, (s.channel ch).holder = some k → k ≠ c := by
          rintro k hk rfl
          have hinside := (h.holder k ch).mpr hk
          rw [hpc] at hinside
          exact hch (Option.some.inj hinside).symm
        have hskip : (s.entered ++ [p]).filter (fun entry => entry.1 = ch) =
            s.entered.filter fun entry => entry.1 = ch := by
          simp [Ne.symm hch]
        let t : ChannelState ι χ := { s with sender }
        have hrow : t.row ch = s.row ch := row_congr rfl rfl fun k hk => by
          rw [hclient, Function.update_of_ne (hother k hk)]
        rw [← hrow, hpushed, row, row, enteredBy, enteredBy, hskip]
        rfl
  · have hpushed : s.pushed a = [] := by
      cases a with
      | client c ok =>
          simp only [pushed]
          split
          · rename_i p hp
            exact absurd hp (hno c ok p rfl)
          · rfl
      | call c f | sender | spuriousWakeup => rfl
    refine h.keep h.holder (fun k q hq => h.packet k q (hsame k ▸ hq)) (fun ch => ?_) fun _ => rfl
    exact row_congr (by rw [hpushed, List.append_nil]) rfl fun k _ => hsame k

/-- The holder of one mutex changes, for a client that then stands outside or inside it. -/
theorem holder_update {s : ChannelState ι χ} (h : s.Numbered) {c : ι} {ch : χ}
    {pc : ChannelPc χ} {k : SubtecChannel ι}
    (hfree : ∀ d, (s.channel ch).holder = some d → d = c)
    (hhere : ∀ l, (s.pc c).inside = some l → l = ch)
    (hpc : pc.inside = some ch ∧ k.holder = some c ∨ pc.inside = none ∧ k.holder = none)
    (d : ι) (l : χ) :
    (((s.atPc c pc).setChannel ch k).pc d).inside = some l ↔
      (((s.atPc c pc).setChannel ch k).channel l).holder = some d := by
  by_cases hl : l = ch
  · subst hl
    by_cases hd : d = c
    · subst hd
      rcases hpc with ⟨hin, hk⟩ | ⟨hin, hk⟩ <;> simp [setChannel, atPc, hin, hk]
    · have hbefore : (s.pc d).inside ≠ some l := fun hin => hd (hfree d ((h.holder d l).mp hin))
      have hkd : k.holder ≠ some d := by
        rcases hpc with ⟨-, hk⟩ | ⟨-, hk⟩
        · rw [hk]
          exact fun heq => hd (Option.some.inj heq).symm
        · rw [hk]
          nofun
      simp [setChannel, atPc, hd, hbefore, hkd]
  · by_cases hd : d = c
    · subst hd
      have hafter : pc.inside ≠ some l := by
        rcases hpc with ⟨hin, -⟩ | ⟨hin, -⟩
        · rw [hin]
          exact fun heq => hl (Option.some.inj heq).symm
        · rw [hin]
          nofun
      have hbefore : (s.channel l).holder ≠ some d :=
        fun hheld => hl (hhere l ((h.holder d l).mpr hheld))
      simp [setChannel, atPc, hl, hafter, hbefore]
    · simpa [setChannel, atPc, hl, hd] using h.holder d l

/-- Locking or unlocking the mutex of a channel, without a packet on its way. -/
theorem Numbered.lockStep {s : ChannelState ι χ} (h : s.Numbered) {c : ι} {ch : χ}
    {pc : ChannelPc χ} {holder : Option ι} (hidle : (s.sender.client c).packet? = none)
    (hfree : ∀ d, (s.channel ch).holder = some d → d = c)
    (hhere : ∀ l, (s.pc c).inside = some l → l = ch)
    (hpc : pc.inside = some ch ∧ holder = some c ∨ pc.inside = none ∧ holder = none) :
    ((s.atPc c pc).setChannel ch { s.channel ch with holder := holder }).Numbered := by
  let t := (s.atPc c pc).setChannel ch { s.channel ch with holder := holder }
  refine h.keep (holder_update h hfree hhere hpc) (fun d p hp => ?_) (fun l => ?_) fun l => ?_
  · have hd : d ≠ c := by
      rintro rfl
      have hnone := hidle.symm.trans hp
      cases hnone
    simpa [setChannel, atPc, hd] using h.packet d p hp
  · by_cases hl : l = ch
    · subst hl
      have hbefore : s.inFlight l = [] := by
        rw [inFlight]
        cases hd : (s.channel l).holder with
        | none => rfl
        | some d =>
            dsimp only
            rw [hfree d hd, hidle]
            rfl
      have hafter : t.inFlight l = [] := by
        have hholder : (t.channel l).holder = holder := by simp [t, setChannel]
        rw [inFlight, hholder]
        rcases hpc with ⟨-, hk⟩ | ⟨-, hk⟩
        · rw [hk]
          show (s.sender.client c).packet?.toList.map Prod.snd = []
          rw [hidle]
          rfl
        · rw [hk]
      show t.enteredBy l ++ t.inFlight l = s.enteredBy l ++ s.inFlight l
      rw [hbefore, hafter]
      rfl
    · refine row_congr rfl ?_ fun _ _ => rfl
      simp [setChannel, atPc, hl]
  · by_cases hl : l = ch
    · subst hl
      simp [setChannel]
    · simp [setChannel, atPc, hl]

omit [DecidableEq ι] in
/-- The counter a packet is built with continues the row. -/
theorem Numbered.follows {s : ChannelState ι χ} (h : s.Numbered) {ch : χ} {f : Send} {p q : Packet}
    (hq : q ∈ (s.row ch).getLast?)
    (hbuild : (f.construction (s.channel ch).m_channelId (s.channel ch).m_counter).build = some p) :
    Follows q p := by
  rcases h.counter ch q hq with ⟨tq, nq, hheader, hcounter⟩
  rcases header_of_build hbuild with ⟨tp, np, hp, hnumber, -⟩
  exact ⟨tq, nq, tp, np, hheader, hp, hcounter ▸ hnumber⟩

/-- A client takes the counter of its channel and starts `SendPacket`. -/
theorem build_numbered {s : ChannelState ι χ} (h : s.Numbered) {c : ι} {ch : χ} {f : Send}
    {p : Packet} (hpc : s.pc c = .locked ch f)
    (hbuild : (f.construction (s.channel ch).m_channelId (s.channel ch).m_counter).build = some p) :
    Numbered { (s.atPc c (.sending ch)).setChannel ch
      { s.channel ch with m_counter := f.nextCounter (s.channel ch).m_counter } with
      sender := s.sender.atClient c (.sendLock (ch, p)) } := by
  let t : ChannelState ι χ := { (s.atPc c (.sending ch)).setChannel ch
    { s.channel ch with m_counter := f.nextCounter (s.channel ch).m_counter } with
    sender := s.sender.atClient c (.sendLock (ch, p)) }
  have hheld : (s.channel ch).holder = some c := (h.holder c ch).mp (by rw [hpc]; rfl)
  have hthis : t.channel ch =
      { s.channel ch with m_counter := f.nextCounter (s.channel ch).m_counter } :=
    Function.update_self ..
  have hothers : ∀ l, l ≠ ch → t.channel l = s.channel l := fun l hl => Function.update_of_ne hl ..
  have hclient : ∀ d, d ≠ c → t.sender.client d = s.sender.client d :=
    fun d hd => Function.update_of_ne hd ..
  have hpcs : ∀ d, d ≠ c → t.pc d = s.pc d := fun d hd => Function.update_of_ne hd ..
  have hpcc : t.pc c = .sending ch := Function.update_self ..
  have hrow : t.row ch = s.row ch ++ [p] := by
    have hbefore : s.inFlight ch = [] := by
      rw [inFlight_of_holder hheld, h.noPacket fun l => by rw [hpc]; nofun]
      rfl
    have hafter : t.inFlight ch = [p] := by
      have hheldAfter : (t.channel ch).holder = some c := by rw [hthis]; exact hheld
      have hpacket : t.sender.client c = .sendLock (ch, p) := Function.update_self ..
      rw [inFlight_of_holder hheldAfter, hpacket]
      rfl
    show t.enteredBy ch ++ t.inFlight ch = s.enteredBy ch ++ s.inFlight ch ++ [p]
    rw [hbefore, hafter, List.append_nil]
    rfl
  have hrows : ∀ l, l ≠ ch → t.row l = s.row l := by
    intro l hl
    refine row_congr rfl (by rw [hothers l hl]) fun d hd => ?_
    have hdc : d ≠ c := by
      rintro rfl
      have hin := (h.holder d l).mpr hd
      rw [hpc] at hin
      exact hl (Option.some.inj hin).symm
    rw [hclient d hdc]
  refine ⟨fun d l => ?_, fun d q hq => ?_, fun l => ?_, fun l q hq => ?_⟩
  · show (t.pc d).inside = some l ↔ (t.channel l).holder = some d
    have hsame : (t.channel l).holder = (s.channel l).holder := by
      by_cases hl : l = ch
      · subst hl
        rw [hthis]
      · rw [hothers l hl]
    rw [hsame, ← h.holder d l]
    by_cases hd : d = c
    · subst hd
      rw [hpcc, hpc]
      rfl
    · rw [hpcs d hd]
  · by_cases hd : d = c
    · subst hd
      have hpacket : t.sender.client d = .sendLock (ch, p) := Function.update_self ..
      rw [show ClientPc.packet? _ = some (ch, p) from congrArg ClientPc.packet? hpacket] at hq
      cases hq
      exact hpcc
    · exact (hpcs d hd).trans (h.packet d q (hclient d hd ▸ hq))
  · show (t.row l).IsChain Follows
    by_cases hl : l = ch
    · subst hl
      rw [hrow]
      refine (h.chain l).append (List.isChain_singleton p) fun q hq r hr => ?_
      cases hr
      exact h.follows hq hbuild
    · rw [hrows l hl]
      exact h.chain l
  · replace hq : q ∈ (t.row l).getLast? := hq
    show ∃ type number, q.header = some (type, number) ∧ (t.channel l).m_counter = number + 1
    by_cases hl : l = ch
    · subst hl
      rw [hrow, List.getLast?_concat] at hq
      cases hq
      rcases header_of_build hbuild with ⟨type, number, hheader, -, hnext⟩
      exact ⟨type, number, hheader, by rw [hthis]; exact hnext⟩
    · rw [hothers l hl]
      exact h.counter l q (hrows l hl ▸ hq)

theorem channel_numbered {s t : ChannelState ι χ} {c : ι} (h : s.Numbered)
    (hstep : s.channelStep c = some t) : t.Numbered := by
  cases hpc : s.pc c with
  | outside =>
      simp only [channelStep, hpc] at hstep
      cases hstep
  | locking ch f =>
      simp only [channelStep, hpc] at hstep
      rcases Option.ite_none_right_eq_some.mp hstep with ⟨hfree, ht⟩
      cases ht
      have hout : ∀ l, s.pc c ≠ .sending l := fun l => by rw [hpc]; nofun
      refine h.lockStep (h.noPacket hout) (fun d hd => ?_) (fun l hl => ?_) (.inl ⟨rfl, rfl⟩)
      · rw [hfree] at hd
        cases hd
      · rw [hpc] at hl
        cases hl
  | locked ch f =>
      simp only [channelStep, hpc, Option.bind_eq_bind] at hstep
      rcases Option.bind_eq_some_iff.mp hstep with ⟨p, hbuild, hrest⟩
      rcases Option.bind_eq_some_iff.mp hrest with ⟨sender, hcall, ht⟩
      cases ht
      simp only [PacketSender.step, PacketSender.startCall] at hcall
      split at hcall
      · cases hcall
      · split at hcall
        · cases hcall
          exact build_numbered h hpc hbuild
        · cases hcall
  | sending ch =>
      simp only [channelStep, hpc] at hstep
      split at hstep
      · rename_i hidle
        cases hstep
        have hheld : (s.channel ch).holder = some c := (h.holder c ch).mp (by rw [hpc]; rfl)
        refine h.lockStep (by rw [hidle]; rfl) (fun d hd => ?_) (fun l hl => ?_) (.inr ⟨rfl, rfl⟩)
        · exact Option.some.inj (hd.symm.trans hheld)
        · rw [hpc] at hl
          exact (Option.some.inj hl).symm
      · cases hstep

theorem step_numbered {s t : ChannelState ι χ} {a : ChannelAct ι χ} (h : s.Numbered)
    (hstep : subtecStep s a = some t) : t.Numbered := by
  cases a with
  | send c ch f => exact send_numbered h hstep
  | channel c => exact channel_numbered h hstep
  | sender a => exact sender_numbered h hstep

omit [DecidableEq ι] in
theorem Initial.numbered {s : ChannelState ι χ} (h : s.Initial) : s.Numbered := by
  have hrow : ∀ ch, s.row ch = [] := fun ch => by
    rw [row, enteredBy, inFlight, h.entered, h.holder]
    rfl
  refine ⟨fun c ch => ?_, fun c p hp => ?_, fun ch => ?_, fun ch p hp => ?_⟩
  · rw [h.pc, h.holder]
    exact iff_of_false nofun nofun
  · rw [h.sender] at hp
    cases hp
  · rw [hrow]
    exact List.isChain_nil
  · rw [hrow] at hp
    cases hp

end ChannelState

/-- The packets of every channel enter the queue with consecutive counters, a reset of all
channels with 0. -/
theorem channel_counters_consecutive {s : ChannelState ι χ} (h : (subtecSystem ι χ).Reachable s)
    (ch : χ) : (s.enteredBy ch).IsChain Follows := by
  have hnumbered : s.Numbered :=
    h.invariant (fun _ hinit => hinit.numbered) fun _ _ _ hs _ hstep =>
      ChannelState.step_numbered hs hstep
  exact (List.isChain_append.mp (hnumbered.chain ch)).1

end

/-- A client sends a packet while no other one does. -/
def sendOnce (c : Bool) (f : Send) : List (ChannelAct Bool Unit) :=
  [.send c () f, .channel c, .channel c, .sender (.client c true), .sender (.client c true),
    .sender (.client c true), .sender (.client c true), .channel c]

def oneChannel : ChannelState Bool Unit where
  channel _ := { m_channelId := 7 }

/-- Two clients pause, reset and mute one channel. -/
theorem oneChannel_counters :
    ∃ s : ChannelState Bool Unit, s.entered.length = 3 ∧ (s.enteredBy ()).IsChain Follows := by
  have hend : ∃ s, (subtecSystem Bool Unit).run oneChannel
      (sendOnce false .PausePacket ++ sendOnce true .ResetAllPacket ++
        sendOnce false .MutePacket) = some s ∧ s.entered.length = 3 := ⟨_, rfl, rfl⟩
  rcases hend with ⟨s, hrun, hlength⟩
  have hstart : (subtecSystem Bool Unit).init oneChannel :=
    ⟨rfl, fun _ => rfl, fun _ => rfl, fun _ => rfl, rfl⟩
  exact ⟨s, hlength, channel_counters_consecutive (System.reachable_of_run hstart hrun) ()⟩

end PlayerInterface.Subtec
