import Cnetmod.Consensus.Run
import Cnetmod.Quic.Spec.Ledger

/-!
# Runs of a recovery controller

The calls of `quic_recovery_controller`, a record of what they sent, took out of
flight and handed back, and the balance of its three ledgers.
-/
namespace Cnetmod.Quic

open List CongestionController LossDetector Function PacketStore

inductive RecoveryCall where
  | onPacketSent (space : PnSpace) (packetNumber bytes : Nat) (sentAt : Time) (recoveryTracked : Bool)
      (frames : RetransmittableFrameStorage) (pathMtuProbeTarget : Option Nat) (retransmissionAlias : Bool)
  | onAckReceived (space : PnSpace) (frame : AckFrame) (receivedAt : Time)
  | onPtoExpired (space : PnSpace)
  | discardNonRetransmittable (space : PnSpace)
  | takeOutstandingFrames (space : PnSpace)
  | takeEarlyDataFrames
  | discardPacketNumberSpace (space : PnSpace)

/-- How a packet leaves flight. -/
inductive Fate where
  | acknowledged
  | lost
  | discarded

namespace QuicRecoveryController

/-- The controller after a call. -/
def call (c : QuicRecoveryController) : RecoveryCall → QuicRecoveryController
  | .onPacketSent space packetNumber bytes sentAt recoveryTracked frames target repeated =>
    c.onPacketSent packetNumber bytes sentAt recoveryTracked space frames target repeated
  | .onAckReceived space frame receivedAt => (c.onAckReceived frame receivedAt space).1
  | .onPtoExpired space => c.onPtoExpired space
  | .discardNonRetransmittable space => (c.discardNonRetransmittable space).1
  | .takeOutstandingFrames space => (c.takeOutstandingFrames space).1
  | .takeEarlyDataFrames => c.takeEarlyDataFrames.1
  | .discardPacketNumberSpace space => c.discardPacketNumberSpace space

/-- The numbers that the store of a space holds. -/
def numbers (c : QuicRecoveryController) (space : PnSpace) : List Nat :=
  (c.sentPackets space).entries.map Prod.fst

/-- What an ACK frame acknowledges, and what then counts as lost. -/
def ackOutcome (c : QuicRecoveryController) (frame : AckFrame) (receivedAt : Time) (space : PnSpace) : List Nat × List Nat :=
  match c.detector.onAckReceived frame frame.largestAcked receivedAt space with
  | (_, .error _) => ([], [])
  | (detector, .ok acknowledged) => (acknowledged, (detector.detectLostPackets receivedAt space).2)

/-- The packets that a call takes out of flight. -/
def leaving (c : QuicRecoveryController) : RecoveryCall → List (PnSpace × Nat × Fate)
  | .onAckReceived space frame receivedAt =>
    let (acknowledged, lost) := c.ackOutcome frame receivedAt space
    acknowledged.map (space, ·, .acknowledged) ++ lost.map (space, ·, .lost)
  | .discardNonRetransmittable space | .discardPacketNumberSpace space =>
    (c.numbers space).map (space, ·, .discarded)
  | .takeEarlyDataFrames =>
    ((c.numbers .application).filter (· ∉ c.takeEarlyDataFrames.1.numbers .application)).map (.application, ·, .discarded)
  | _ => []

/-- The frames that a call hands back. -/
def handedBack (c : QuicRecoveryController) : RecoveryCall → List (PnSpace × QuicSendFrame)
  | .onAckReceived space frame receivedAt =>
    match (c.onAckReceived frame receivedAt space).2 with
    | .error _ => []
    | .ok update => update.lostFrames.map (space, ·)
  | .takeOutstandingFrames space => (c.takeOutstandingFrames space).2.map (space, ·)
  | .takeEarlyDataFrames => c.takeEarlyDataFrames.2.map (.application, ·)
  | _ => []

end QuicRecoveryController

structure SentRecord where
  space : PnSpace
  packetNumber : Nat
  recoveryTracked : Bool
  frames : RetransmittableFrameStorage

/-- What a call sends. -/
def RecoveryCall.sent : RecoveryCall → List SentRecord
  | .onPacketSent space packetNumber _ _ recoveryTracked frames _ _ =>
    [⟨space, packetNumber, recoveryTracked, frames⟩]
  | _ => []

/-- The spaces that a call discards. -/
def RecoveryCall.discarded : RecoveryCall → List PnSpace
  | .discardPacketNumberSpace space => [space]
  | _ => []

/-- A controller and what happened so far. -/
structure RecoveryWorld where
  controller : QuicRecoveryController := {}
  sent : List SentRecord := []
  departed : List (PnSpace × Nat × Fate) := []
  returned : List (PnSpace × QuicSendFrame) := []
  discarded : List PnSpace := []

namespace RecoveryWorld

def step (w : RecoveryWorld) (call : RecoveryCall) : Option RecoveryWorld :=
  some {
    controller := w.controller.call call
    sent := call.sent ++ w.sent
    departed := w.controller.leaving call ++ w.departed
    returned := w.controller.handedBack call ++ w.returned
    discarded := call.discarded ++ w.discarded }

/-- Packet numbers increase in each space. -/
def Increasing (w : RecoveryWorld) (call : RecoveryCall) : Prop :=
  ∀ new ∈ call.sent, ∀ r ∈ w.sent, r.space = new.space → r.packetNumber < new.packetNumber

instance (w : RecoveryWorld) (call : RecoveryCall) : Decidable (w.Increasing call) :=
  inferInstanceAs (Decidable (∀ new ∈ call.sent, ∀ r ∈ w.sent, r.space = new.space → r.packetNumber < new.packetNumber))

end RecoveryWorld

/-- A sum over the three spaces. -/
def PnSpace.sum (f : PnSpace → Nat) : Nat := f .initial + f .handshake + f .application

lemma PnSpace.sum_change (sp : PnSpace) (ho : ∀ other, other ≠ sp → g other = f other) :
    PnSpace.sum g + f sp = PnSpace.sum f + g sp := by
  unfold PnSpace.sum
  cases sp with
  | initial => rw [ho .handshake (by decide), ho .application (by decide)]; omega
  | handshake => rw [ho .initial (by decide), ho .application (by decide)]; omega
  | application => rw [ho .initial (by decide), ho .handshake (by decide)]; omega

namespace QuicRecoveryController

variable {c c' : QuicRecoveryController} {space : PnSpace}

/-- The loss detector, the store and the congestion controller say the same. -/
structure Balanced (c : QuicRecoveryController) : Prop where
  sound : ∀ space, (c.detector.space space).Sound
  stored : ∀ space, (c.sentPackets space).WellFormed
  agree : ∀ space n bytes, (∃ p, (n, p) ∈ (c.sentPackets space).entries ∧ p.bytes = bytes) ↔
    ∃ p, (n, p) ∈ (c.detector.space space).inFlightPackets.entries ∧ p.bytes = bytes
  counted : c.congestion.bytesInFlight = PnSpace.sum fun space => (c.sentPackets space).totalBytes
  unsent : ∀ space, (c.detector.space space).hasSentPacket = false → (c.sentPackets space).entries = []

lemma balanced_start : ({} : QuicRecoveryController).Balanced where
  sound _ := PnSpaceState.sound_empty
  stored _ := PacketStore.wellFormed_empty
  agree := by simp [PacketStore.entries]
  counted := rfl
  unsent _ _ := rfl

lemma Balanced.bytes_eq (hb : c.Balanced) (sp : PnSpace) :
    (c.detector.space sp).bytesInFlight = (c.sentPackets sp).totalBytes := by
  have hs := (hb.sound sp).wf.perm_of_same
    (hb.stored sp) fun n b => (hb.agree sp n b).symm
  have ht := (hs.map Prod.snd).sum_nat
  rw [map_map, map_map] at ht
  exact (hb.sound sp).counted.trans ht

variable {left : List Nat} {n : Nat}

/-- Numbers are in flight for the detector when the store holds them. -/
lemma Balanced.mem_flying (hb : c.Balanced) : n ∈ (c.detector.space space).flying ↔ n ∈ c.numbers space := by
  have hs := hb.agree space n
  rw [PnSpaceState.mem_flying]
  simp only [numbers, mem_map, Prod.exists, exists_and_right, exists_eq_right]
  constructor
  · rintro ⟨p, hm⟩
    obtain ⟨q, ht, -⟩ := (hs p.bytes).mpr ⟨p, hm, rfl⟩
    exact ⟨q, ht⟩
  rintro ⟨p, hm⟩
  obtain ⟨q, ht, -⟩ := (hs p.bytes).mp ⟨p, hm, rfl⟩
  exact ⟨q, ht⟩

/-- The congestion controller counts the packets of one space and the rest. -/
lemma Balanced.rest (hb : c.Balanced) (sp : PnSpace) :
    ∃ rest, c.congestion.bytesInFlight = rest + (c.sentPackets sp).totalBytes := by
  rw [hb.counted]
  cases sp with
  | initial => exact ⟨_, (add_assoc ..).trans (add_comm ..)⟩
  | handshake => exact ⟨_, Nat.add_right_comm ..⟩
  | application => exact ⟨_, rfl⟩

/-- In one space the numbers of the list leave all three ledgers. -/
structure Leaves (settled : QuicSendFrame → Prop) (c : QuicRecoveryController) (space : PnSpace)
    (left : List Nat) (c' : QuicRecoveryController) : Prop where
  stage : Stage settled (c.sentPackets space) left (c'.sentPackets space)
  departed : c.detector.Departed space left c'.detector
  others : ∀ other, other ≠ space → c'.sentPackets other = c.sentPackets other
  bytes : c'.congestion.bytesInFlight + (c.sentPackets space).totalBytes =
    c.congestion.bytesInFlight + (c'.sentPackets space).totalBytes

lemma Balanced.leaves (hb : c.Balanced) (hl : Leaves settled c space left c') : c'.Balanced where
  sound o := by
    by_cases hs : o = space
    · exact hs ▸ hl.departed.here.sound
    · rw [hl.departed.others o hs]
      exact hb.sound o
  stored o := by
    by_cases hs : o = space
    · exact hs ▸ hl.stage.wf
    · rw [hl.others o hs]
      exact hb.stored o
  agree o n bytes := by
    by_cases hs : o = space
    · subst hs
      rw [hl.stage.mem_sizes, hb.agree]
      simp only [hl.departed.here.left, and_assoc, exists_and_left]
    · rw [hl.others o hs, hl.departed.others o hs]
      exact hb.agree o n bytes
  counted := by
    have change := PnSpace.sum_change space fun o ne => congrArg totalBytes (hl.others o ne)
    have := hl.bytes
    have := hb.counted
    omega
  unsent o none := by
    by_cases hs : o = space
    · subst hs
      rw [hl.departed.here.hasSent] at none
      have he := hb.unsent o none
      refine eq_nil_iff_forall_not_mem.mpr fun ⟨n, p'⟩ hm => ?_
      obtain ⟨-, p, ht, -⟩ := hl.stage.left n p' hm
      simp [he] at ht
    rw [hl.departed.others o hs] at none
    rw [hl.others o hs]
    exact hb.unsent o none

lemma Leaves.mono (hl : Leaves settled c space left c') (hw : ∀ f, settled f → settled' f) : Leaves settled' c space left c' :=
  ⟨hl.stage.mono hw, hl.departed, hl.others, hl.bytes⟩

lemma Leaves.mem_numbers (hl : Leaves settled c space left c') :
    n ∈ c'.numbers o ↔ n ∈ c.numbers o ∧ ¬ (o = space ∧ n ∈ left) := by
  by_cases hs : o = space
  · subst hs
    simp only [numbers, mem_map, Prod.exists, exists_and_right, exists_eq_right, true_and]
    constructor
    · rintro ⟨p', hm⟩
      obtain ⟨ha, p, ht, -⟩ := hl.stage.left n p' hm
      exact ⟨⟨p, ht⟩, ha⟩
    rintro ⟨⟨p, hm⟩, ha⟩
    obtain ⟨p', ht, -⟩ := hl.stage.stays n p hm ha
    exact ⟨p', ht⟩
  · simp [numbers, hl.others o hs, hs]

section

variable (hb : c.Balanced)

include hb

lemma Balanced.leaves_nil (sp : PnSpace) : Leaves settled c sp [] c :=
  ⟨.refl (hb.stored sp), ⟨(hb.sound sp).without_nil, fun _ _ => rfl⟩, fun _ _ => rfl, rfl⟩

lemma Balanced.onPtoExpired (sp : PnSpace) : Leaves settled c sp [] (c.onPtoExpired sp) := by
  have hs := hb.sound sp
  exact ⟨.refl (hb.stored sp), departed_setSpace
    ⟨⟨hs.wf, hs.filed, hs.counted⟩, rfl, by simp⟩, fun _ _ => rfl, rfl⟩

/-- A refused frame changes nothing. Otherwise what it acknowledges leaves flight, and what then
counts as lost. -/
lemma Balanced.onAckReceived (fr : AckFrame) (rt : Time) (sp : PnSpace) :
    (∃ e, c.onAckReceived fr rt sp = (c, .error e) ∧ c.ackOutcome fr rt sp = ([], [])) ∨
    ∃ c' update acknowledged lost, c.onAckReceived fr rt sp = (c', .ok update) ∧ c.ackOutcome fr rt sp = (acknowledged, lost) ∧
      Leaves (fun f => c.Contained sp acknowledged f ∨ f ∈ update.lostFrames) c sp (acknowledged ++ lost) c' ∧
      (acknowledged ++ lost).Nodup ∧ ∀ n ∈ acknowledged ++ lost, n ∈ c.numbers sp := by
  unfold QuicRecoveryController.onAckReceived ackOutcome
  rcases onAckReceived_spec (hb.sound sp) fr fr.largestAcked rt with
    ⟨e, -, run⟩ | ⟨d, acknowledged, -, run, hde, hno, hc⟩
  · rw [run]
    exact .inl ⟨e, rfl, rfl⟩
  rw [run]
  obtain ⟨hp, hn, hf⟩ := detectLostPackets_spec hde.here.sound rt
  obtain ⟨tl, ho⟩ := hb.rest sp
  obtain ⟨ht, hs, bs⟩ := ackPasses_spec (hb.stored sp) ho d acknowledged rt
  dsimp only
  generalize c.ackPasses d acknowledged rt sp = passes at ht hs bs ⊢
  obtain ⟨after, pass⟩ := passes
  subst ht
  generalize d.detectLostPackets rt sp = losses at hp hn hf hs ⊢
  obtain ⟨after, lost⟩ := losses
  refine .inr ⟨_, _, acknowledged, lost, rfl, rfl, ⟨?_, hde.trans hp, ?_, ?_⟩, ?_, ?_⟩
  · simpa only [setSent, update_self] using hs
  · intro o ne
    simp [setSent, ne]
  · simp only [setSent, update_self] at bs ⊢
    omega
  · refine nodup_append'.mpr ⟨hno, hn, fun n hm hl => ?_⟩
    exact (hde.here.mem_flying.mp (hf n hl)).1 hm
  intro n hm
  rw [← hb.mem_flying]
  rcases mem_append.mp hm with ha | lost
  · exact ((hc n).mp ha).1
  · exact (hde.here.mem_flying.mp (hf n lost)).2

lemma Balanced.discardNonRetransmittable (sp : PnSpace) (done : ∀ n p, (n, p) ∈ (c.sentPackets sp).entries → p.frames.Fine →
      ∀ f ∈ p.frames.frames, f.Whole → settled f) : Leaves settled c sp (c.numbers sp) (c.discardNonRetransmittable sp).1 := by
  obtain ⟨tl, hc⟩ := hb.rest sp
  obtain ⟨hs, he, bs⟩ := discardNonRetransmittable_spec (hb.stored sp) hc (hb.sound sp) done
  refine ⟨hs, he, fun o ne => ?_, by omega⟩
  simp [QuicRecoveryController.discardNonRetransmittable, setSent, ne]

lemma Balanced.takeOutstandingFrames (sp : PnSpace) :
    Leaves (· ∈ (c.takeOutstandingFrames sp).2) c sp [] (c.takeOutstandingFrames sp).1 := by
  have hs := takeOutstandingFrames_spec (hb.stored sp)
  refine ⟨hs, ⟨(hb.sound sp).without_nil, fun _ _ => rfl⟩, fun o ne => ?_, ?_⟩
  · simp [QuicRecoveryController.takeOutstandingFrames, setSent, ne]
  · rw [hs.totalBytes_eq (hb.stored sp)]
    rfl

lemma Balanced.takeEarlyDataFrames : ∃ left, Leaves (fun f => f.isIn c.takeEarlyDataFrames.2 = true) c .application left
      c.takeEarlyDataFrames.1 := by
  obtain ⟨left, hw⟩ := takeEarlyAll { controller := c } (hb.stored .application)
    (hb.sound .application) (orderedPacketNumbers (c.sentPackets .application))
  refine ⟨left, hw.stage, hw.departed, hw.others, ?_⟩
  obtain ⟨tl, hc⟩ := hb.rest .application
  have bs := hw.bytes
  unfold QuicRecoveryController.takeEarlyDataFrames
  dsimp only [onPacketsDiscarded, leave] at bs ⊢
  omega

end

/-- A packet that is tracked joins the store of its space, and its bytes are counted. -/
structure Joins (c : QuicRecoveryController) (space : PnSpace) (recoveryTracked : Bool) (packetNumber : Nat)
    (packet : SentPacket) (c' : QuicRecoveryController) : Prop where
  stored : (c'.sentPackets space).WellFormed
  held : ∀ n p, (n, p) ∈ (c'.sentPackets space).entries ↔
    (recoveryTracked = true ∧ n = packetNumber ∧ p = packet) ∨ (n, p) ∈ (c.sentPackets space).entries
  others : ∀ other, other ≠ space → c'.sentPackets other = c.sentPackets other
  bytes : c'.congestion.bytesInFlight + (c.sentPackets space).totalBytes =
    c.congestion.bytesInFlight + (c'.sentPackets space).totalBytes

section Sent

lemma onPacketSent_joins (wf : (c.sentPackets space).WellFormed) (hf : packetNumber ∉ c.numbers space) :
    Joins c space recoveryTracked packetNumber ⟨frames, bytes, target, repeated⟩
      (c.onPacketSent packetNumber bytes sentAt recoveryTracked space frames target repeated) := by
  have ha (p : SentPacket) : (packetNumber, p) ∉ (c.sentPackets space).entries := fun hm => hf (mem_map_of_mem hm)
  have ho (o : PnSpace) (ne : o ≠ space) :
      (c.onPacketSent packetNumber bytes sentAt recoveryTracked space frames target repeated).sentPackets
        o = c.sentPackets o := by
    cases recoveryTracked <;> simp [onPacketSent, setSent, ne]
  cases recoveryTracked with
  | false => exact ⟨wf, by simp [onPacketSent], ho, rfl⟩
  | true =>
    have hs : (c.onPacketSent packetNumber bytes sentAt true space frames target repeated).sentPackets space =
        (c.sentPackets space).insert packetNumber ⟨frames, bytes, target, repeated⟩ := by
      simp [onPacketSent, setSent]
    have hi := wf.insert packetNumber ⟨frames, bytes, target, repeated⟩
    have ht : ((c.sentPackets space).insert packetNumber ⟨frames, bytes, target, repeated⟩).totalBytes =
        bytes + (c.sentPackets space).totalBytes := wf.totalBytes_insert hf
    refine ⟨hs ▸ hi.1, fun n p => ?_, ho, ?_⟩
    · rw [hs, hi.2]
      simp only [true_and]
      refine or_congr_right ⟨And.right, fun hm => ⟨?_, hm⟩⟩
      rintro rfl
      exact ha p hm
    rw [hs]
    simp only [onPacketSent, setSent, Bool.true_eq_false, if_false, CongestionController.onPacketSent]
    omega

lemma Balanced.onPacketSent (hb : c.Balanced) (ha : packetNumber ∉ c.numbers space) :
    (c.onPacketSent packetNumber bytes sentAt recoveryTracked space frames target repeated).Balanced := by
  generalize hc : c.onPacketSent packetNumber bytes sentAt recoveryTracked space frames target repeated = after
  have hj : Joins c space recoveryTracked packetNumber ⟨frames, bytes, target, repeated⟩ after :=
    hc ▸ onPacketSent_joins (hb.stored space) ha
  have hg : after.detector = c.detector.onPacketSent packetNumber bytes sentAt recoveryTracked space := by
    rw [← hc]
    cases recoveryTracked <;> rfl
  obtain ⟨ho, he, hf, hr⟩ := onPacketSent_spec (hb.sound space)
    (fun hm => ha (hb.mem_flying.mp hm)) bytes sentAt recoveryTracked
  rw [← hg] at ho he hf hr
  refine ⟨fun o => ?_, fun o => ?_, fun o n sz => ?_, ?_, fun o none => ?_⟩
  · by_cases hs : o = space
    · exact hs ▸ ho
    · exact hr o hs ▸ hb.sound o
  · by_cases hs : o = space
    · exact hs ▸ hj.stored
    · exact hj.others o hs ▸ hb.stored o
  · by_cases hs : o = space
    · subst hs
      simp only [hj.held, hf, or_and_right, exists_or]
      exact or_congr (by simp) (hb.agree o n sz)
    · rw [hj.others o hs, hr o hs]
      exact hb.agree o n sz
  · have change := PnSpace.sum_change space fun o ne => congrArg totalBytes (hj.others o ne)
    have := hj.bytes
    have := hb.counted
    omega
  by_cases hs : o = space
  · subst hs
    rw [he] at none
    cases none
  rw [hr o hs] at none
  rw [hj.others o hs]
  exact hb.unsent o none

end Sent

lemma sentPackets_discardPacketNumberSpace (o : PnSpace) : (c.discardPacketNumberSpace space).sentPackets o =
      if o = space then {} else c.sentPackets o := by
  simp [QuicRecoveryController.discardPacketNumberSpace, setSent, update_apply, release]

/-- A discarded space is empty in all three ledgers. -/
lemma Balanced.discardPacketNumberSpace (hb : c.Balanced) (sp : PnSpace) : (c.discardPacketNumberSpace sp).Balanced := by
  have ha (o : PnSpace) : o ≠ sp → (c.discardPacketNumberSpace sp).detector.space o = c.detector.space o := by
    intro ne
    simp only [QuicRecoveryController.discardPacketNumberSpace, LossDetector.discardPacketNumberSpace]
    split
    · rfl
    · exact setSpace_other _ ne
  -- The early exit is taken only when nothing was sent, and then nothing is in flight either.
  have hh : ((c.discardPacketNumberSpace sp).detector.space sp).Sound ∧
      ((c.discardPacketNumberSpace sp).detector.space sp).inFlightPackets.entries = [] := by
    simp only [QuicRecoveryController.discardPacketNumberSpace, LossDetector.discardPacketNumberSpace]
    split
    next hi =>
      refine ⟨hb.sound sp, eq_nil_iff_forall_not_mem.mpr fun ⟨n, p⟩ hm => ?_⟩
      obtain ⟨q, ht, -⟩ := (hb.agree sp n p.bytes).mpr ⟨p, hm, rfl⟩
      simp [hb.unsent sp hi.1] at ht
    rw [setSpace_self]
    exact ⟨PnSpaceState.sound_empty, rfl⟩
  have bs : (c.discardPacketNumberSpace sp).congestion.bytesInFlight +
      (c.sentPackets sp).totalBytes = c.congestion.bytesInFlight := by
    obtain ⟨tl, hc⟩ := hb.rest sp
    have ho := hb.bytes_eq sp
    simp only [QuicRecoveryController.discardPacketNumberSpace, LossDetector.discardPacketNumberSpace,
      onPacketsDiscarded, leave]
    split
    next hi =>
      have none : (c.sentPackets sp).totalBytes = 0 := by
        rw [totalBytes, hb.unsent sp hi.1]
        rfl
      omega
    next => omega
  refine ⟨fun o => ?_, fun o => ?_, fun o n sz => ?_, ?_, fun o none => ?_⟩
  · by_cases hs : o = sp
    · exact hs ▸ hh.1
    · exact ha o hs ▸ hb.sound o
  · rw [sentPackets_discardPacketNumberSpace]
    split
    · exact wellFormed_empty
    · exact hb.stored o
  · rw [sentPackets_discardPacketNumberSpace]
    split
    next hs =>
      subst hs
      rw [hh.2]
      simp [entries]
    next ne =>
      rw [ha o ne]
      exact hb.agree o n sz
  · have change := PnSpace.sum_change sp fun o ne => congrArg totalBytes
      ((sentPackets_discardPacketNumberSpace (c := c) o).trans (if_neg ne))
    have he : ((c.discardPacketNumberSpace sp).sentPackets sp).totalBytes = 0 := by
      rw [sentPackets_discardPacketNumberSpace, if_pos rfl]
      rfl
    have := hb.counted
    omega
  · rw [sentPackets_discardPacketNumberSpace]
    split
    · rfl
    next ne => exact hb.unsent o (ha o ne ▸ none)

end QuicRecoveryController

end Cnetmod.Quic
