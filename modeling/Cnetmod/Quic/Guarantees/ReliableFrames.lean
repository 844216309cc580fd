import Cnetmod.Quic.Spec.RecoveryRuns

/-!
# Reliable frames are never lost

A frame of a tracked packet stays with a packet in flight until it is handed back or
a packet with an equal frame is acknowledged.
-/
namespace Cnetmod.Quic

open List QuicRecoveryController

open Consensus (Reached)

namespace QuicRecoveryController

variable {c : QuicRecoveryController} {call : RecoveryCall}

/-- What a call settles in a space: frames equal to one that it hands back, and frames equal to one
in a packet that it finds acknowledged. -/
def Settles (c : QuicRecoveryController) (call : RecoveryCall) (space : PnSpace) (f : QuicSendFrame) : Prop :=
  (∃ g, (space, g) ∈ c.handedBack call ∧ g.same f = true) ∨
    ∃ n p, (space, n, .acknowledged) ∈ c.leaving call ∧ (n, p) ∈ (c.sentPackets space).entries ∧
      ∃ g ∈ p.frames.frames, g.same f = true

/-- A call that sends nothing and discards no space: in one space packets leave, and their frames
are settled. Packets are retired only when none of them holds a frame. -/
lemma Balanced.call_leaves (hb : c.Balanced) (hn : call.sent = []) (hk : call.discarded = [])
    (hr : ∀ sp, call = .discardNonRetransmittable sp → c.newestProbeFrames sp = none) :
    ∃ sp left, Leaves (c.Settles call sp) c sp left (c.call call) := by
  cases call with
  | onPacketSent => cases hn
  | discardPacketNumberSpace => cases hk
  | onAckReceived sp fr rt =>
    rcases hb.onAckReceived fr rt sp with
      ⟨e, run, -⟩ | ⟨c', update, acknowledged, lost, run, ho, hl, -⟩
    · refine ⟨sp, [], ?_⟩
      rw [call, run]
      exact hb.leaves_nil sp
    refine ⟨sp, acknowledged ++ lost, ?_⟩
    rw [call, run]
    refine hl.mono fun f hc => ?_
    rcases hc with ⟨n, hm, p, hh, g, ha, hs⟩ | lost
    · refine .inr ⟨n, p, ?_, hh, g, ha, hs⟩
      simp [leaving, ho, hm]
    · refine .inl ⟨f, ?_, f.same_refl⟩
      simp [handedBack, run, lost]
  | onPtoExpired sp => exact ⟨sp, [], hb.onPtoExpired sp⟩
  | discardNonRetransmittable sp =>
    refine ⟨sp, c.numbers sp, hb.discardNonRetransmittable sp fun n p hm hf f hh hw => ?_⟩
    have he := frames_of_newestProbeFrames (hr sp rfl) hm
    rcases hf with ht | hsp
    · rw [ht.frames_eq_nil he] at hh
      cases hh
    · exact absurd hw (hsp.not_whole hh)
  | takeOutstandingFrames sp =>
    refine ⟨sp, [], (hb.takeOutstandingFrames sp).mono fun f hm => .inl ⟨f, ?_, f.same_refl⟩⟩
    simpa [handedBack] using hm
  | takeEarlyDataFrames =>
    obtain ⟨left, hl⟩ := hb.takeEarlyDataFrames
    refine ⟨.application, left, hl.mono fun f hi => ?_⟩
    obtain ⟨g, hm, hs⟩ := QuicSendFrame.isIn_iff.mp hi
    exact .inl ⟨g, by simpa [handedBack] using hm, hs⟩

end QuicRecoveryController

namespace RecoveryWorld

variable {w w' : RecoveryWorld} {call : RecoveryCall}

/-- The calls as the connection makes them: numbers increase, the frames of a packet have bytes, and
packets are retired without retransmission only when no packet has frames to probe with. -/
structure Dependable (w : RecoveryWorld) (call : RecoveryCall) : Prop where
  increasing : w.Increasing call
  tidy : ∀ new ∈ call.sent, new.frames.Tidy
  retires : ∀ space, call = .discardNonRetransmittable space → w.controller.newestProbeFrames space = none

/-- What the store holds was sent. -/
structure Holding (w : RecoveryWorld) : Prop where
  balanced : w.controller.Balanced
  known : ∀ space n p, (n, p) ∈ (w.controller.sentPackets space).entries → p.frames.Fine ∧
    ∃ r ∈ w.sent, r.space = space ∧ r.packetNumber = n ∧ r.recoveryTracked = true ∧
      ∀ f ∈ p.frames.frames, f.Whole → f ∈ r.frames.frames

lemma holding_start : ({} : RecoveryWorld).Holding :=
  ⟨balanced_start, by simp [PacketStore.entries]⟩

variable {space here : PnSpace}

lemma Holding.fresh (hh : w.Holding)
    (ha : ∀ r ∈ w.sent, r.space = space → r.packetNumber < n) : n ∉ w.controller.numbers space := by
  intro hm
  obtain ⟨⟨_, p⟩, hhe, rfl⟩ := mem_map.mp hm
  obtain ⟨-, r, he, ht, hs, -⟩ := hh.known space _ p hhe
  exact lt_irrefl _ (hs ▸ ha r he ht)

/-- A packet of the space holds the frame. -/
def Held (c : QuicRecoveryController) (space : PnSpace) (f : QuicSendFrame) : Prop :=
  ∃ n p, (n, p) ∈ (c.sentPackets space).entries ∧ f ∈ p.frames.frames

lemma Holding.leaves (hh : w.Holding) (hl : QuicRecoveryController.Leaves settled w.controller here left w'.controller)
    (ho : w'.sent = w.sent) :
    w'.Holding ∧ ∀ sp f, Held w.controller sp f → f.Whole → Held w'.controller sp f ∨ sp = here ∧ settled f := by
  refine ⟨⟨hh.balanced.leaves hl, fun sp n p' hm => ?_⟩, fun sp f hj hw => ?_⟩
  · by_cases hs : sp = here
    · subst hs
      obtain ⟨-, p, hb, ht⟩ := hl.stage.left n p' hm
      obtain ⟨hf, r, hr, ha, hn, he, hk⟩ := hh.known sp n p hb
      exact ⟨ht.fine hf, r, ho ▸ hr, ha, hn, he, fun f hi hw => hk f (ht.fewer f hi hw) hw⟩
    · rw [hl.others sp hs] at hm
      exact ho ▸ hh.known sp n p' hm
  obtain ⟨n, p, hm, hi⟩ := hj
  by_cases hs : sp = here
  · subst hs
    have hf := (hh.known sp n p hm).1
    by_cases hg : n ∈ left
    · exact .inr ⟨rfl, hl.stage.gone n p hm hg hf f hi hw⟩
    · obtain ⟨p', ha, ht⟩ := hl.stage.stays n p hm hg
      exact (ht.kept hf f hi hw).imp (fun hc => ⟨n, p', ha, hc⟩) (⟨rfl, ·⟩)
  · exact .inl ⟨n, p, hl.others sp hs ▸ hm, hi⟩

lemma Holding.discards (hh : w.Holding)
    (hc : w'.controller = w.controller.discardPacketNumberSpace gone) (he : w'.sent = w.sent) :
    w'.Holding ∧ ∀ sp f, Held w.controller sp f → Held w'.controller sp f ∨ sp = gone := by
  have hs (sp : PnSpace) : w'.controller.sentPackets sp = if sp = gone then {} else w.controller.sentPackets sp := by
    rw [hc, sentPackets_discardPacketNumberSpace]
  refine ⟨⟨hc ▸ hh.balanced.discardPacketNumberSpace gone, fun sp n p hm => ?_⟩, fun sp f ha => ?_⟩
  · rw [hs] at hm
    split at hm
    · simp [PacketStore.entries] at hm
    · exact he ▸ hh.known sp n p hm
  by_cases hsa : sp = gone
  · exact .inr hsa
  · obtain ⟨n, p, hm, hi⟩ := ha
    exact .inl ⟨n, p, by rwa [hs, if_neg hsa], hi⟩

/-- A packet that is sent leaves what is held; if it is tracked, its own frames are held too. -/
lemma Holding.sends (hh : w.Holding) (hn : w.Dependable (.onPacketSent here number bs sentAt tracked fs tgt repeated))
    (ht : w.step (.onPacketSent here number bs sentAt tracked fs tgt repeated) = some w') :
    w'.Holding ∧ (∀ sp f, Held w.controller sp f → Held w'.controller sp f) ∧
      (tracked = true → ∀ f ∈ fs.frames, Held w'.controller here f) := by
  obtain ⟨hc, he⟩ : w'.controller = w.controller.onPacketSent number bs sentAt tracked here fs
      tgt repeated ∧ w'.sent = ⟨here, number, tracked, fs⟩ :: w.sent := by
    cases ht
    exact ⟨rfl, rfl⟩
  have hf := hh.fresh (hn.increasing _ (mem_singleton_self _))
  have hj : w.controller.Joins here tracked number ⟨fs, bs, tgt, repeated⟩ w'.controller :=
    hc ▸ onPacketSent_joins (hh.balanced.stored here) hf
  have ho {sp : PnSpace} {n : Nat} {p : SentPacket}
      (hb : (n, p) ∈ (w.controller.sentPackets sp).entries) : p.frames.Fine ∧
      ∃ r ∈ w'.sent, r.space = sp ∧ r.packetNumber = n ∧ r.recoveryTracked = true ∧
        ∀ f ∈ p.frames.frames, f.Whole → f ∈ r.frames.frames := by
    obtain ⟨ha, r, hr, hl⟩ := hh.known sp n p hb
    exact ⟨ha, r, he ▸ mem_cons_of_mem _ hr, hl⟩
  refine ⟨⟨hc ▸ hh.balanced.onPacketSent hf, fun sp n p hm => ?_⟩, fun sp f hg => ?_, fun hk f hi => ?_⟩
  · by_cases hs : sp = here
    · subst hs
      rcases (hj.held n p).mp hm with ⟨hk, rfl, rfl⟩ | hb
      · exact ⟨.inl (hn.tidy _ (mem_singleton_self _)), _, he ▸ mem_cons_self, rfl, rfl, hk, fun _ hi _ => hi⟩
      · exact ho hb
    · exact ho (hj.others sp hs ▸ hm)
  · obtain ⟨n, p, hm, hi⟩ := hg
    by_cases hs : sp = here
    · subst hs
      exact ⟨n, p, (hj.held n p).mpr (.inr hm), hi⟩
    · exact ⟨n, p, hj.others sp hs ▸ hm, hi⟩
  · exact ⟨number, _, (hj.held number _).mpr (.inl ⟨hk, rfl, rfl⟩), hi⟩

/-- What one call does to a frame that is held. -/
lemma Holding.step (ho : w.Holding) (hg : w.Dependable call) (ht : w.step call = some w') :
    w'.Holding ∧ ∀ sp f, Held w.controller sp f → f.Whole →
      Held w'.controller sp f ∨ w.controller.Settles call sp f ∨ sp ∈ call.discarded := by
  obtain ⟨hc, hs⟩ : w'.controller = w.controller.call call ∧ w'.sent = call.sent ++ w.sent := by
    cases ht
    exact ⟨rfl, rfl⟩
  by_cases hn : call.sent = []
  · rw [hn] at hs
    by_cases hk : call.discarded = []
    · obtain ⟨here, left, hl⟩ := ho.balanced.call_leaves hn hk hg.retires
      rw [← hc] at hl
      obtain ⟨hh, he⟩ := ho.leaves hl hs
      refine ⟨hh, fun sp f hf hw => (he sp f hf hw).imp id ?_⟩
      rintro ⟨rfl, hb⟩
      exact .inl hb
    cases call with
    | discardPacketNumberSpace gone =>
      obtain ⟨hh, he⟩ := ho.discards hc hs
      exact ⟨hh, fun sp f hf _ => (he sp f hf).imp id fun ha => .inr (mem_singleton.mpr ha)⟩
    | _ => exact absurd rfl hk
  · cases call with
    | onPacketSent =>
      obtain ⟨hh, he, -⟩ := ho.sends hg ht
      exact ⟨hh, fun sp f hf _ => .inl (he sp f hf)⟩
    | _ => exact absurd rfl hn

/-- The frame is held, was handed back, was in a packet that is acknowledged, or its space is gone. -/
def Safe (w : RecoveryWorld) (space : PnSpace) (f : QuicSendFrame) : Prop :=
  Held w.controller space f ∨
  (∃ g, (space, g) ∈ w.returned ∧ g.same f = true) ∨
  (∃ r ∈ w.sent, r.space = space ∧ r.recoveryTracked = true ∧
    (space, r.packetNumber, .acknowledged) ∈ w.departed ∧ ∃ g ∈ r.frames.frames, g.same f = true) ∨
  space ∈ w.discarded

/-- The world with an empty record of departures, of frames handed back and of discarded spaces. -/
def fromHere (w : RecoveryWorld) : RecoveryWorld := { w with departed := [], returned := [], discarded := [] }

lemma Safe.step (hp : w.Safe space f) (hw : f.Whole)
    (hh : w.Holding) (hq : w.Dependable call) (ho : w.step call = some w') : w'.Safe space f := by
  have hl := (hh.step hq ho).2 space f
  obtain rfl := Option.some.inj ho
  rcases hp with hhl | ⟨g, hb, hs⟩ | ⟨r, ha, hk, ht, left, he⟩ | hg
  · rcases hl hhl hw with hst | (⟨g, hb, hs⟩ | ⟨n, p, left, hm, g, hi, hs⟩) | hg
    · exact .inl hst
    · exact .inr (.inl ⟨g, mem_append_left _ hb, hs⟩)
    · -- The acknowledged packet held the frame as it was sent with it, not one that was moved from.
      obtain ⟨hc, r, ha, hk, hn, ht, hf⟩ := hh.known space n p hm
      have hj : g ∈ r.frames.frames := by
        rcases hc with hti | hsp
        · exact hf g hi (hti.whole g hi)
        · exact absurd hs (hw.not_same (hsp g hi))
      exact .inr (.inr (.inl ⟨r, mem_append_right _ ha, hk, ht, mem_append_left _ (hn ▸ left), g, hj, hs⟩))
    · exact .inr (.inr (.inr (mem_append_left _ hg)))
  · exact .inr (.inl ⟨g, mem_append_right _ hb, hs⟩)
  · exact .inr (.inr (.inl ⟨r, mem_append_right _ ha, hk, ht, mem_append_right _ left, he⟩))
  · exact .inr (.inr (.inr (mem_append_right _ hg)))

end RecoveryWorld

/-- In every run, every frame given with a tracked packet is safe at every later point: a packet in flight
holds it, it was handed back since, a packet that contains an equal frame was acknowledged since, or the
space was discarded. -/
theorem reliable_frames_never_lost {w sent later : RecoveryWorld} {space : PnSpace} {packetNumber bytes : Nat}
    {sentAt : Time} {frames : RetransmittableFrameStorage} {target : Option Nat} {repeated : Bool}
    (before : Reached RecoveryWorld.step RecoveryWorld.Dependable {} w)
    (dependable : w.Dependable (.onPacketSent space packetNumber bytes sentAt true frames target repeated))
    (sends : w.step (.onPacketSent space packetNumber bytes sentAt true frames target repeated) = some sent)
    (after : Reached RecoveryWorld.step RecoveryWorld.Dependable sent.fromHere later) :
    ∀ f ∈ frames.frames, later.Safe space f := by
  intro f hi
  have hw := (dependable.tidy _ (mem_singleton_self _)).whole f hi
  have hh : w.Holding := before.invariant RecoveryWorld.Holding RecoveryWorld.holding_start
    fun hh dependable ht => (hh.step dependable ht).1
  obtain ⟨hf, -, own⟩ := hh.sends dependable sends
  have hs : sent.fromHere.Holding ∧ sent.fromHere.Safe space f :=
    ⟨⟨hf.balanced, hf.known⟩, .inl (own rfl f hi)⟩
  exact (after.invariant (fun w => w.Holding ∧ w.Safe space f) hs fun hb dependable ht =>
    ⟨(hb.1.step dependable ht).1, hb.2.step hw hb.1 dependable ht⟩).2

/-- A frame that is sent twice, the second time as a probe. -/
def probedFrame : QuicSendFrame := { ownedBytes := [0x0a, 0x00, 0x01, 0x42] }

lemma whole_probedFrame : probedFrame.Whole := ⟨rfl, by decide⟩

/-- The world after the frame was sent in packet 1. -/
def probedWorld : RecoveryWorld := (RecoveryWorld.step {}
  (.onPacketSent .application 1 40 0 true (.ofFrames [probedFrame]) none false)).getD {}

/-- The frame is sent again as a probe, and the copy is acknowledged. -/
theorem reliable_frames_never_lost_probe :
    ∃ w later, Reached RecoveryWorld.step RecoveryWorld.Dependable {} w ∧
      Reached RecoveryWorld.step RecoveryWorld.Dependable w.fromHere later ∧
      later.departed = [(.application, 2, .acknowledged)] ∧ later.Safe .application probedFrame := by
  have hs : (RetransmittableFrameStorage.ofFrames [probedFrame]).Tidy :=
    (RetransmittableFrameStorage.ofFrames_spec (by simpa using whole_probedFrame)).1
  have hf : RecoveryWorld.Dependable {} (.onPacketSent .application 1 40 0 true (.ofFrames [probedFrame]) none false) :=
    ⟨by decide, fun new hm => mem_singleton.mp hm ▸ hs, by simp⟩
  have later : Reached RecoveryWorld.step RecoveryWorld.Dependable probedWorld.fromHere _ := .next (.next .start
    (a := .onPacketSent .application 2 40 9 true (.ofFrames [probedFrame]) none true)
    ⟨by decide, fun new hm => mem_singleton.mp hm ▸ hs, by simp⟩ rfl)
    (a := .onAckReceived .application { largestAcked := 2 } 20)
    ⟨by decide, by simp [RecoveryCall.sent], by simp⟩ rfl
  exact ⟨probedWorld, _, .next .start hf rfl, later, rfl, reliable_frames_never_lost .start hf rfl later _ (by decide)⟩

/-- A frame that closes the connection. -/
def closeFrame : QuicSendFrame := { ownedBytes := [0x1c, 0x00, 0x00, 0x00] }

/-- A packet that is not tracked, as one that closes the connection, is sent without keeping its frames;
and packets are retired with their frames if the call is made while they hold some. -/
theorem frames_lost_untracked_or_retired :
    (∃ w, RecoveryWorld.step {} (.onPacketSent .application 1 40 0 false (.ofFrames [closeFrame]) none false) =
        some w ∧ ¬ w.fromHere.Safe .application closeFrame) ∧
    ∃ w later, RecoveryWorld.step {} (.onPacketSent .application 1 40 0 true (.ofFrames [probedFrame]) none false) = some w ∧
      w.fromHere.step (.discardNonRetransmittable .application) = some later ∧
      ¬ later.Safe .application probedFrame := by
  refine ⟨⟨_, rfl, ?_⟩, _, _, rfl, rfl, ?_⟩
  · rintro (⟨n, p, hm, -⟩ | ⟨g, hm, -⟩ | ⟨r, -, -, -, hm, -⟩ | hm) <;> cases hm
  rintro (⟨n, p, hm, -⟩ | ⟨g, hm, -⟩ | ⟨r, -, -, -, hm, -⟩ | hm)
  · cases hm
  · cases hm
  · change _ ∈ [(PnSpace.application, 1, Fate.discarded)] at hm
    simp at hm
  · cases hm

end Cnetmod.Quic
