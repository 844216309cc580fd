import Cnetmod.Quic.Spec.Flight
import Cnetmod.Quic.Spec.SentFrames

/-!
# The ledger of sent packets

What one operation of the recovery controller does to the packets of a space: some
numbers go, the packets that stay may lose frames, and the bytes are counted off.
-/
namespace Cnetmod.Quic

open List AckPass RetransmittableFrameStorage QuicSendFrame PacketStore Function
open CongestionController

/-- A packet that stayed: it holds the frames it held, those that are settled apart. -/
structure SentPacket.Trimmed (settled : QuicSendFrame → Prop) (p p' : SentPacket) : Prop where
  bytes : p'.bytes = p.bytes
  fine : p.frames.Fine → p'.frames.Fine
  fewer : ∀ f ∈ p'.frames.frames, f.Whole → f ∈ p.frames.frames
  kept : p.frames.Fine → ∀ f ∈ p.frames.frames, f.Whole → f ∈ p'.frames.frames ∨ settled f

namespace SentPacket.Trimmed

variable {sd settled' : QuicSendFrame → Prop} {p p' p'' : SentPacket}

lemma refl (p : SentPacket) : Trimmed sd p p :=
  ⟨rfl, id, fun _ hm _ => hm, fun _ _ hm _ => .inl hm⟩

lemma trans (hf : Trimmed sd p p') (hs : Trimmed sd p' p'') : Trimmed sd p p'' where
  bytes := hs.bytes.trans hf.bytes
  fine h := hs.fine (hf.fine h)
  fewer f hm hw := hf.fewer f (hs.fewer f hm hw) hw
  kept h f hm hw := by
    rcases hf.kept h f hm hw with ht | done
    · exact hs.kept (hf.fine h) f ht hw
    · exact .inr done

lemma mono (more : ∀ f, sd f → settled' f) (ht : Trimmed sd p p') : Trimmed settled' p p' :=
  ⟨ht.bytes, ht.fine, ht.fewer, fun h f hm hw => (ht.kept h f hm hw).imp id (more f)⟩

end SentPacket.Trimmed

/-- The numbers of the list leave the store, and what they held is settled; the others stay. -/
structure Stage (settled : QuicSendFrame → Prop) (store : PacketStore SentPacket) (numbers : List Nat)
    (store' : PacketStore SentPacket) : Prop where
  wf : store'.WellFormed
  left : ∀ n p', (n, p') ∈ store'.entries → n ∉ numbers ∧ ∃ p, (n, p) ∈ store.entries ∧ p.Trimmed settled p'
  stays : ∀ n p, (n, p) ∈ store.entries → n ∉ numbers → ∃ p', (n, p') ∈ store'.entries ∧ p.Trimmed settled p'
  gone : ∀ n p, (n, p) ∈ store.entries → n ∈ numbers → p.frames.Fine → ∀ f ∈ p.frames.frames, f.Whole → settled f

namespace Stage

variable {sd settled' : QuicSendFrame → Prop} {ps store' store'' : PacketStore SentPacket} {ns more : List Nat}

lemma refl (wf : ps.WellFormed) : Stage sd ps [] ps :=
  ⟨wf, fun _ p hm => ⟨by simp, p, hm, .refl p⟩, fun _ p hm _ => ⟨p, hm, .refl p⟩, by simp⟩

lemma trans (hf : Stage sd ps ns store') (hs : Stage sd store' more store'') :
    Stage sd ps (ns ++ more) store'' where
  wf := hs.wf
  left n p'' hm := by
    obtain ⟨ha, p', hb, hr⟩ := hs.left n p'' hm
    obtain ⟨hc, p, hg, ht⟩ := hf.left n p' hb
    exact ⟨by simp [ha, hc], p, hg, ht.trans hr⟩
  stays n p hm ha := by
    rw [mem_append, not_or] at ha
    obtain ⟨p', hb, ht⟩ := hf.stays n p hm ha.1
    obtain ⟨p'', hl, hr⟩ := hs.stays n p' hb ha.2
    exact ⟨p'', hl, ht.trans hr⟩
  gone n p hm out hfi f hh hw := by
    by_cases he : n ∈ ns
    · exact hf.gone n p hm he hfi f hh hw
    obtain ⟨p', hb, ht⟩ := hf.stays n p hm he
    rcases ht.kept hfi f hh hw with hst | done
    · exact hs.gone n p' hb ((mem_append.mp out).resolve_left he) (ht.fine hfi) f hst hw
    · exact done

lemma mono (hw : ∀ f, sd f → settled' f) (hs : Stage sd ps ns store') : Stage settled' ps ns store' where
  wf := hs.wf
  left n p' hm := by
    obtain ⟨ha, p, he, ht⟩ := hs.left n p' hm
    exact ⟨ha, p, he, ht.mono hw⟩
  stays n p hm ha := by
    obtain ⟨p', hb, ht⟩ := hs.stays n p hm ha
    exact ⟨p', hb, ht.mono hw⟩
  gone n p hm out hf f hh hwh := hw f (hs.gone n p hm out hf f hh hwh)

lemma erase (wf : ps.WellFormed)
    (done : ∀ p, (n, p) ∈ ps.entries → p.frames.Fine → ∀ f ∈ p.frames.frames, f.Whole → sd f) :
    Stage sd ps [n] (ps.erase n) where
  wf := (wf.erase n).1
  left k p' hm := by
    obtain ⟨ho, hh⟩ := ((wf.erase n).2 k p').mp hm
    exact ⟨by simpa using ho, p', hh, .refl p'⟩
  stays k p hm ha := ⟨p, ((wf.erase n).2 k p).mpr ⟨by simpa using ha, hm⟩, .refl p⟩
  gone k p hm out := by
    obtain rfl := mem_singleton.mp out
    exact done p hm

/-- A number that is not there is as good as gone. -/
lemma absent (wf : ps.WellFormed) (none : ps.find n = none) : Stage sd ps [n] ps := by
  have ha (p : SentPacket) : (n, p) ∉ ps.entries := by
    rw [← wf.find_eq_some_iff, none]
    simp
  refine ⟨wf, fun k p hm => ⟨?_, p, hm, .refl p⟩, fun _ p hm _ => ⟨p, hm, .refl p⟩, ?_⟩
  · rintro out
    obtain rfl := mem_singleton.mp out
    exact ha p hm
  intro k p hm out
  obtain rfl := mem_singleton.mp out
  exact absurd hm (ha p)

/-- No number leaves when every packet is only trimmed. -/
lemma mapPackets (wf : ps.WellFormed)
    (ht : ∀ n p, (n, p) ∈ ps.entries → p.Trimmed sd (change p)) :
    Stage sd ps [] (ps.mapPackets change) where
  wf := wf.mapPackets change
  left n p' hm := by
    rw [entries_mapPackets] at hm
    obtain ⟨⟨k, p⟩, hh, hs⟩ := mem_map.mp hm
    obtain ⟨rfl, rfl⟩ := Prod.mk.inj hs
    exact ⟨by simp, p, hh, ht k p hh⟩
  stays n p hm _ := by
    refine ⟨change p, ?_, ht n p hm⟩
    rw [entries_mapPackets]
    exact mem_map.mpr ⟨(n, p), hm, rfl⟩
  gone := by simp

lemma modify (wf : ps.WellFormed)
    (ht : ∀ p, (n, p) ∈ ps.entries → p.Trimmed sd (change p)) :
    Stage sd ps [] (ps.modify n change) where
  wf := (wf.modify n change).1
  left k p' hm := by
    obtain ⟨p, hh, rfl⟩ := ((wf.modify n change).2 k p').mp hm
    refine ⟨by simp, p, hh, ?_⟩
    split
    next hs => exact ht p (hs ▸ hh)
    next => exact .refl p
  stays k p hm _ := by
    refine ⟨_, ((wf.modify n change).2 k _).mpr ⟨p, hm, rfl⟩, ?_⟩
    split
    next hs => exact ht p (hs ▸ hm)
    next => exact .refl p
  gone := by simp

/-- Nothing stays. -/
lemma empty (none : store'.entries = []) (wf : store'.WellFormed)
    (done : ∀ n p, (n, p) ∈ ps.entries → p.frames.Fine → ∀ f ∈ p.frames.frames, f.Whole → sd f) :
    Stage sd ps (ps.entries.map Prod.fst) store' where
  wf := wf
  left n p' hm := by simp [none] at hm
  stays n p hm ha := absurd (mem_map_of_mem hm) ha
  gone n p hm _ := done n p hm

/-- The sizes of what stays. -/
lemma mem_sizes (hs : Stage sd ps ns store') :
    (∃ p, (n, p) ∈ store'.entries ∧ p.bytes = bs) ↔ n ∉ ns ∧ ∃ p, (n, p) ∈ ps.entries ∧ p.bytes = bs := by
  constructor
  · rintro ⟨p', hm, rfl⟩
    obtain ⟨ha, p, hh, ht⟩ := hs.left n p' hm
    exact ⟨ha, p, hh, ht.bytes.symm⟩
  rintro ⟨ha, p, hm, rfl⟩
  obtain ⟨p', hb, ht⟩ := hs.stays n p hm ha
  exact ⟨p', hb, ht.bytes⟩

end Stage

/-- The bytes of the packets of a store. -/
def PacketStore.totalBytes (store : PacketStore SentPacket) : Nat :=
  (store.entries.map fun entry => entry.2.bytes).sum

section Total

variable {ps : PacketStore SentPacket} {n : Nat} {p : SentPacket}

lemma PacketStore.WellFormed.totalBytes_erase (wf : ps.WellFormed) (hm : (n, p) ∈ ps.entries) :
    ps.totalBytes = p.bytes + (ps.erase n).totalBytes := by
  have ht := ((wf.perm_erase hm).map fun e => e.2.bytes).sum_nat
  rwa [map_cons] at ht

lemma PacketStore.WellFormed.totalBytes_insert (wf : ps.WellFormed) (ha : n ∉ ps.entries.map Prod.fst) :
    (ps.insert n p).totalBytes = p.bytes + ps.totalBytes := by
  have more : (ps.insert n p).entries.Perm ((n, p) :: ps.entries) := wf.perm_insert ha
  have ht := (more.map fun e => e.2.bytes).sum_nat
  rwa [map_cons] at ht

lemma PacketStore.totalBytes_mapPackets
    (hs : ∀ p, (change p).bytes = p.bytes) : (ps.mapPackets change).totalBytes = ps.totalBytes := by
  rw [totalBytes, entries_mapPackets, map_map]
  exact congrArg sum (map_congr_left fun e _ => hs e.2)

/-- The bytes stay when the packets do. -/
lemma Stage.totalBytes_eq (wf : ps.WellFormed) (hs : Stage sd ps [] store') : store'.totalBytes = ps.totalBytes := by
  have ha := hs.wf.perm_of_same wf fun n b => by
    simpa using hs.mem_sizes
  have ht := (ha.map Prod.snd).sum_nat
  rwa [map_map, map_map] at ht

end Total

namespace AckPass

variable {ep : AckPass} {rest : Nat}

/-- The congestion controller counts the packets still there, those found lost, and `rest`. -/
structure Counted (rest : Nat) (pass : AckPass) : Prop where
  wf : pass.sent.WellFormed
  bytes : pass.congestion.bytesInFlight = rest + pass.lostBytes + pass.lostProbeBytes + pass.sent.totalBytes

lemma Counted.acknowledge (hc : Counted rest ep) (ra : Bool) (pn : Nat) : Counted rest (ep.acknowledge ra pn) := by
  unfold AckPass.acknowledge
  split
  · exact hc
  rename_i packet hf
  have hm := hc.wf.find_eq_some_iff.mp hf
  have ht := hc.wf.totalBytes_erase hm
  have hb := hc.bytes
  refine ⟨(hc.wf.erase pn).1, ?_⟩
  dsimp only [onPacketAcked, leave]
  omega

lemma Counted.resolve (hc : Counted rest ep) : Counted rest ep.resolve := by
  unfold AckPass.resolve
  split
  · exact hc
  refine ⟨hc.wf.mapPackets _, ?_⟩
  rw [totalBytes_mapPackets (fun p => by split <;> rfl)]
  exact hc.bytes

lemma Counted.lose (hc : Counted rest ep) (pn : Nat) : Counted rest (ep.lose pn) := by
  unfold AckPass.lose
  split
  · exact hc
  rename_i packet hf
  have hm := hc.wf.find_eq_some_iff.mp hf
  have ht := hc.wf.totalBytes_erase hm
  have hb := hc.bytes
  refine ⟨(hc.wf.erase pn).1, ?_⟩
  dsimp only
  split <;> omega

lemma leave_unless_zero (c : CongestionController) (bs : Nat) : (if bs ≠ 0 then c.leave bs else c) = c.leave bs := by
  split
  · rfl
  next hz => simp [leave, Decidable.not_not.mp hz]

/-- With the lost bytes gone, only the packets still there are counted. -/
lemma Counted.settle (hc : Counted rest ep) : ep.settle.congestion.bytesInFlight = rest + ep.sent.totalBytes := by
  have hb := hc.bytes
  unfold AckPass.settle
  dsimp only [onPacketsDiscarded, onCongestionEvent]
  rw [leave_unless_zero, leave_unless_zero]
  dsimp only [leave]
  omega

lemma Counted.foldl {round : AckPass → Nat → AckPass} (hk : ∀ ep n, Counted rest ep → Counted rest (round ep n)) (ns : List Nat)
    (hc : Counted rest ep) : Counted rest (ns.foldl round ep) := by
  induction ns generalizing ep with
  | nil => exact hc
  | cons n ns ih => exact ih (hk ep n hc)

variable {sd : QuicSendFrame → Prop}

lemma stage_acknowledge (wf : ep.sent.WellFormed) (ra : Bool)
    (done : ∀ p, (n, p) ∈ ep.sent.entries → ∀ f ∈ p.frames.frames, sd f) : Stage sd ep.sent [n] (ep.acknowledge ra n).sent := by
  unfold acknowledge
  split
  next none => exact .absent wf none
  next => exact .erase wf fun p hm _ f hh _ => done p hm f hh

variable {resolveAliases : Bool}

lemma mem_acknowledge (wf : ep.sent.WellFormed)
    (hm : (k, p) ∈ (ep.acknowledge resolveAliases n).sent.entries) : (k, p) ∈ ep.sent.entries := by
  unfold acknowledge at hm
  split at hm
  · exact hm
  · exact (((wf.erase n).2 k p).mp hm).2

lemma delivered_acknowledge (wf : ep.sent.WellFormed) (hm : g ∈ (ep.acknowledge resolveAliases n).deliveredFrames) :
    g ∈ ep.deliveredFrames ∨ ∃ p, (n, p) ∈ ep.sent.entries ∧ g ∈ p.frames.frames := by
  unfold acknowledge at hm
  split at hm
  · exact .inl hm
  rename_i packet hf
  refine (mem_append.mp hm).imp id fun hh => ⟨packet, wf.find_eq_some_iff.mp hf, ?_⟩
  split at hh
  · exact hh
  · simp at hh

/-- The loop over the acknowledged packets. -/
lemma stage_acknowledgeAll (ep : AckPass) (sd : QuicSendFrame → Prop) (wf : ep.sent.WellFormed) (ra : Bool) (ns : List Nat)
    (done : ∀ n ∈ ns, ∀ p, (n, p) ∈ ep.sent.entries → ∀ f ∈ p.frames.frames, sd f)
    (he : ∀ f, (∃ g ∈ ep.deliveredFrames, g.same f = true) → sd f) (ht : ∀ f g, sd f → f.same g = true → sd g) :
    Stage sd ep.sent ns (ns.foldl (acknowledge ra) ep).sent ∧
      ∀ f, f.isIn (ns.foldl (acknowledge ra) ep).deliveredFrames = true → sd f := by
  induction ns generalizing ep with
  | nil => exact ⟨.refl wf, fun f hi => he f (isIn_iff.mp hi)⟩
  | cons n ns ih =>
    have hf := stage_acknowledge wf ra (done n mem_cons_self)
    obtain ⟨tl, all⟩ := ih _ hf.wf
      (fun k hm p hh => done k (mem_cons_of_mem n hm) p (mem_acknowledge wf hh))
      (fun f ⟨g, hm, hs⟩ => by
        rcases delivered_acknowledge wf hm with hb | ⟨p, hh, ha⟩
        · exact he f ⟨g, hb, hs⟩
        · exact ht g f (done n mem_cons_self p hh g ha) hs)
    exact ⟨hf.trans tl, all⟩

/-- Dropping delivered frames from the packets that stay. -/
lemma stage_resolve (wf : ep.sent.WellFormed) (hl : ∀ f, f.isIn ep.deliveredFrames = true → sd f) :
    Stage sd ep.sent [] ep.resolve.sent := by
  unfold resolve
  split
  · exact .refl wf
  refine .mapPackets wf fun n p hm => ?_
  split
  · exact .refl p
  have he : ∀ (s : Unit) (f : QuicSendFrame), ((fun (_ : Unit) candidate => ((), candidate.isIn ep.deliveredFrames)) s f).2 =
        f.isIn ep.deliveredFrames := fun _ _ => rfl
  refine ⟨rfl, fun hf => hf.eraseIf he (), fun f hh _ =>
    frames_eraseIf_subset he () f hh, fun hf f hh hw => ?_⟩
  rcases hf with ht | hs
  · rw [(ht.eraseIf he ()).2, mem_filter]
    cases out : f.isIn ep.deliveredFrames with
    | true => exact .inr (hl f out)
    | false => exact .inl ⟨hh, rfl⟩
  · exact absurd hw (hs.not_whole hh)

/-- The loop over the lost packets hands back what they held. -/
lemma stage_loseAll (wf : ep.sent.WellFormed) (ns : List Nat) :
    Stage (· ∈ (ns.foldl lose ep).update.lostFrames) ep.sent ns (ns.foldl lose ep).sent ∧
      ∀ f ∈ ep.update.lostFrames, f ∈ (ns.foldl lose ep).update.lostFrames := by
  induction ns generalizing ep with
  | nil => exact ⟨.refl wf, fun _ => id⟩
  | cons n ns ih =>
    have hf : Stage (· ∈ (ep.lose n).update.lostFrames) ep.sent [n] (ep.lose n).sent ∧
        ∀ f ∈ ep.update.lostFrames, f ∈ (ep.lose n).update.lostFrames := by
      unfold lose
      split
      next none => exact ⟨.absent wf none, fun _ => id⟩
      rename_i packet hfo
      refine ⟨.erase wf fun p hm _ f hh _ => ?_, fun f hb => mem_append_left _ hb⟩
      rw [← wf.find_eq_some_iff, hfo, Option.some.injEq] at hm
      subst hm
      exact mem_append_right _ (mem_reverse.mpr hh)
    obtain ⟨tl, hg⟩ := ih hf.1.wf
    exact ⟨(hf.1.mono hg).trans tl, fun f hb => hg f (hf.2 f hb)⟩

end AckPass

namespace QuicRecoveryController

variable {c : QuicRecoveryController} {space : PnSpace}

/-- A frame equal to one in a packet of the list. -/
def Contained (c : QuicRecoveryController) (space : PnSpace) (numbers : List Nat) (f : QuicSendFrame) : Prop :=
  ∃ n ∈ numbers, ∃ p, (n, p) ∈ (c.sentPackets space).entries ∧ ∃ g ∈ p.frames.frames, g.same f = true

/-- The three passes take the acknowledged and the lost numbers out of the store. A frame that
goes with them is contained in an acknowledged packet or handed back. -/
lemma ackPasses_spec (wf : (c.sentPackets space).WellFormed)
    (hc : c.congestion.bytesInFlight = tl + (c.sentPackets space).totalBytes)
    (detector : LossDetector) (ack : List Nat) (rt : Time) : let ran := c.ackPasses detector ack rt space
    ran.1 = (detector.detectLostPackets rt space).1 ∧ Stage (fun f => c.Contained space ack f ∨ f ∈ ran.2.update.lostFrames)
        (c.sentPackets space) (ack ++ (detector.detectLostPackets rt space).2) ran.2.sent ∧
      ran.2.congestion.bytesInFlight = tl + ran.2.sent.totalBytes := by
  unfold ackPasses
  generalize detector.detectLostPackets rt space = outcome
  obtain ⟨after, lost⟩ := outcome
  refine ⟨rfl, ?_, ?_⟩
  · obtain ⟨hb, hf⟩ := stage_acknowledgeAll
      ⟨c.sentPackets space, c.aliasCounts space, c.congestion, {}, [], false, 0, 0⟩
      (c.Contained space ack) wf (decide (c.aliasCounts space ≠ 0)) ack
      (fun n hm p hh f ha => ⟨n, hm, p, hh, f, ha, f.same_refl⟩) (by simp)
      (fun f g ⟨n, hm, p, hh, k, ha, hs⟩ he => ⟨n, hm, p, hh, k, ha, same_trans hs he⟩)
    have hr := hb.trans (stage_resolve hb.wf hf)
    obtain ⟨hl, -⟩ := stage_loseAll hr.wf lost
    rw [append_nil] at hr
    exact (hr.mono fun f => .inl).trans (hl.mono fun f => .inr)
  · refine AckPass.Counted.settle (.foldl (fun ep n h => h.lose n) lost (.resolve (.foldl
      (fun ep n h => h.acknowledge _ n) ack ⟨wf, hc⟩)))

lemma mem_orderedPacketNumbers : n ∈ orderedPacketNumbers st ↔ ∃ p, (n, p) ∈ st.entries := by
  simp [orderedPacketNumbers]

/-- Moving the frames out of packets, one packet after the other. -/
lemma stage_moveOut (wf : st.WellFormed)
    (done : ∀ n p, (n, p) ∈ st.entries → ∀ f ∈ p.frames.frames, f.Whole → sd f) (ns : List Nat) :
    Stage sd st [] (ns.foldl (fun st pn => st.modify pn fun pkt => { pkt with frames := pkt.frames.moveOut }) st) := by
  induction ns generalizing st with
  | nil => exact .refl wf
  | cons n ns ih =>
    have hf : Stage sd st [] (st.modify n fun pkt => { pkt with frames := pkt.frames.moveOut }) := .modify wf fun p hm => {
        bytes := rfl
        fine := fun _ => .inr (spent_moveOut p.frames)
        fewer := fun f hh hw => absurd hw ((spent_moveOut p.frames).not_whole hh)
        kept := fun _ f hh hw => .inr (done n p hm f hh hw) }
    refine hf.trans (ih hf.wf fun k p' hm f hh hw => ?_)
    obtain ⟨-, p, ha, ht⟩ := hf.left k p' hm
    exact done k p ha f (ht.fewer f hh hw) hw

lemma takeOutstandingFrames_spec (wf : (c.sentPackets space).WellFormed) :
    Stage (· ∈ (c.takeOutstandingFrames space).2) (c.sentPackets space) []
      ((c.takeOutstandingFrames space).1.sentPackets space) := by
  unfold takeOutstandingFrames setSent
  simp only [update_self]
  refine stage_moveOut wf (fun n p hm f hh _ => ?_) _
  refine mem_flatMap.mpr ⟨n, mem_orderedPacketNumbers.mpr ⟨p, hm⟩, ?_⟩
  rw [wf.find_eq_some_iff.mpr hm]
  exact hh

/-- `discard_inflight_packet` for every number of a list. -/
lemma discardAll (d : LossDetector) (sp : PnSpace) (hs : (d.space sp).Sound) (es : List (Nat × SentPacket)) :
    d.Departed sp (es.map Prod.fst) (es.foldl (fun d e => d.discardInflightPacket e.1 sp) d) := by
  induction es generalizing d with
  | nil => exact ⟨hs.without_nil, fun _ _ => rfl⟩
  | cons e es ih =>
    have hf : d.Departed sp [e.1] (d.discardInflightPacket e.1 sp) :=
      LossDetector.departed_setSpace (hs.removeIfInflight e.1)
    exact hf.trans (ih _ hf.here.sound)

/-- Without frames to probe with, no packet holds a frame. -/
lemma frames_of_newestProbeFrames (none : c.newestProbeFrames space = none)
    (hm : (n, p) ∈ (c.sentPackets space).entries) : p.frames.isEmpty = true := by
  have hk (es : List (Nat × SentPacket)) (newest : Option (Nat × RetransmittableFrameStorage))
      (hn : es.foldl newer newest = Option.none) :
      newest = Option.none ∧ ∀ e ∈ es, e.2.frames.isEmpty = true := by
    induction es generalizing newest with
    | nil => exact ⟨hn, by simp⟩
    | cons e es ih =>
      obtain ⟨hh, tl⟩ := ih _ hn
      unfold newer at hh
      split at hh
      next => cases hh
      rename_i hs
      subst hh
      refine ⟨rfl, fun o ha => ?_⟩
      rcases mem_cons.mp ha with rfl | hl
      · simpa using hs
      · exact tl o hl
  exact (hk _ _ (Option.map_eq_none_iff.mp none)).2 (n, p) hm

lemma discardNonRetransmittable_spec (wf : (c.sentPackets space).WellFormed)
    (hc : c.congestion.bytesInFlight = tl + (c.sentPackets space).totalBytes) (hs : (c.detector.space space).Sound)
    (done : ∀ n p, (n, p) ∈ (c.sentPackets space).entries → p.frames.Fine → ∀ f ∈ p.frames.frames, f.Whole → sd f) :
    let after := (c.discardNonRetransmittable space).1
    Stage sd (c.sentPackets space) ((c.sentPackets space).entries.map Prod.fst) (after.sentPackets space) ∧
      c.detector.Departed space ((c.sentPackets space).entries.map Prod.fst) after.detector ∧
      after.congestion.bytesInFlight = tl + (after.sentPackets space).totalBytes := by
  have split (es : List (Nat × SentPacket)) :
      ((es.filter fun e => e.2.pathMtuProbeTarget.isNone).map fun e => e.2.bytes).sum +
        ((es.filter fun e => e.2.pathMtuProbeTarget.isSome).map fun e => e.2.bytes).sum =
        (es.map fun e => e.2.bytes).sum := by
    induction es with
    | nil => rfl
    | cons e es ih => cases ht : e.2.pathMtuProbeTarget <;> simp [ht] <;> omega
  unfold discardNonRetransmittable setSent
  simp only [update_self]
  refine ⟨.empty entries_clear wf.clear done, discardAll _ space hs _, ?_⟩
  refine AckPass.Counted.settle ⟨wf.clear, ?_⟩
  have hp := split (c.sentPackets space).entries
  rw [hc]
  dsimp only [totalBytes]
  rw [entries_clear]
  simp only [map_nil, sum_nil]
  omega

lemma withdraw_decides (r : List QuicSendFrame) (f : QuicSendFrame) : (withdraw r f).2 = f.earlyData := by
  unfold withdraw
  split <;> simp_all

lemma withdraw_takes (r : List QuicSendFrame) (f : QuicSendFrame) (he : f.earlyData = true) :
    f.isIn (withdraw r f).1 = true := by
  unfold withdraw
  rw [if_pos he]
  split
  next hh => exact hh
  next => exact isIn_of_mem (by simp)

lemma withdraw_keeps (r : List QuicSendFrame) (f g : QuicSendFrame) (hb : g.isIn r = true) :
    g.isIn (withdraw r f).1 = true := by
  unfold withdraw
  split
  · split
    · exact hb
    · obtain ⟨k, hm, hs⟩ := isIn_iff.mp hb
      exact isIn_iff.mpr ⟨k, mem_append_left _ hm, hs⟩
  · exact hb

/-- What the loop of `take_early_data_frames` has done so far. -/
structure Withdrawn (pass : EarlyPass) (left : List Nat) (pass' : EarlyPass) : Prop where
  stage : Stage (fun f => f.isIn pass'.result = true) (pass.controller.sentPackets .application) left
    (pass'.controller.sentPackets .application)
  departed : pass.controller.detector.Departed .application left pass'.controller.detector
  bytes : pass'.discarded + (pass'.controller.sentPackets .application).totalBytes =
    pass.discarded + (pass.controller.sentPackets .application).totalBytes
  grows : ∀ f : QuicSendFrame, f.isIn pass.result = true → f.isIn pass'.result = true
  others : ∀ space, space ≠ .application → pass'.controller.sentPackets space = pass.controller.sentPackets space
  congestion : pass'.controller.congestion = pass.controller.congestion

lemma Withdrawn.trans
    (hf : Withdrawn ep left pass') (hs : Withdrawn pass' more pass'') :
    Withdrawn ep (left ++ more) pass'' where
  stage := (hf.stage.mono hs.grows).trans hs.stage
  departed := hf.departed.trans hs.departed
  bytes := hs.bytes.trans hf.bytes
  grows f h := hs.grows f (hf.grows f h)
  others space ne := (hs.others space ne).trans (hf.others space ne)
  congestion := hs.congestion.trans hf.congestion

/-- One round: a packet that held nothing but early data goes. -/
lemma takeEarly_spec (wf : (ep.controller.sentPackets .application).WellFormed)
    (hs : (ep.controller.detector.space .application).Sound) (n : Nat) : ∃ left, Withdrawn ep left (takeEarly ep n) := by
  unfold takeEarly
  dsimp only
  split
  next => exact ⟨[], .refl wf, ⟨hs.without_nil, fun _ _ => rfl⟩, rfl, fun _ => id, fun _ _ => rfl, rfl⟩
  rename_i pkt hfo
  have only (p : SentPacket) (hm : (n, p) ∈ (ep.controller.sentPackets .application).entries) : p = pkt := by
    rw [← wf.find_eq_some_iff, hfo, Option.some.injEq] at hm
    exact hm.symm
  have hm := wf.find_eq_some_iff.mp hfo
  obtain ⟨ha, hg⟩ := pkt.frames.eraseIf_state
    withdraw_decides withdraw_takes withdraw_keeps ep.result
  have hj (h : pkt.frames.Fine) := h.eraseIf withdraw_decides ep.result
  have hb (h : pkt.frames.Tidy) := h.eraseIf withdraw_decides ep.result
  have hf := pkt.frames.frames_eraseIf_subset withdraw_decides ep.result
  generalize pkt.frames.eraseIf withdraw ep.result = outcome at ha hg hj hb hf ⊢
  obtain ⟨r, frames⟩ := outcome
  split
  next out =>
    refine ⟨[n], ?_, LossDetector.departed_setSpace (hs.removeIfInflight n), ?_, hg, ?_, rfl⟩
    · simp only [setSent, update_self]
      refine .erase wf fun p ht hc f hh hw => ?_
      obtain rfl := only p ht
      rcases hc with hn | hsp
      · obtain ⟨left, hl⟩ := hb hn
        have none := left.frames_eq_nil out.2.1
        rw [hl, filter_eq_nil_iff] at none
        exact ha f hh (by simpa using none f hh)
      · exact absurd hw (hsp.not_whole hh)
    · simp only [setSent, update_self]
      have := wf.totalBytes_erase hm
      omega
    · intro sp ne
      simp [setSent, ne]
  next =>
    have hk : Stage (fun f => f.isIn r = true) (ep.controller.sentPackets .application) []
        ((ep.controller.sentPackets .application).modify n fun pkt => { pkt with frames }) := by
      refine .modify wf fun p ht => ?_
      obtain rfl := only p ht
      refine ⟨rfl, hj, fun f hh _ => hf f hh, fun hc f hh hw => ?_⟩
      rcases hc with hn | hsp
      · rw [(hb hn).2, mem_filter]
        cases he : f.earlyData with
        | true => exact .inr (ha f hh he)
        | false => exact .inl ⟨hh, rfl⟩
      · exact absurd hw (hsp.not_whole hh)
    refine ⟨[], ?_, ⟨hs.without_nil, fun _ _ => rfl⟩, ?_, hg, ?_, rfl⟩
    · simpa only [setSent, update_self] using hk
    · simp only [setSent, update_self]
      rw [hk.totalBytes_eq wf]
    · intro sp ne
      simp [setSent, ne]

lemma takeEarlyAll (ep : EarlyPass) (wf : (ep.controller.sentPackets .application).WellFormed)
    (hs : (ep.controller.detector.space .application).Sound) (ns : List Nat) :
    ∃ left, Withdrawn ep left (ns.foldl takeEarly ep) := by
  induction ns generalizing ep with
  | nil => exact ⟨[], .refl wf, ⟨hs.without_nil, fun _ _ => rfl⟩, rfl, fun _ => id, fun _ _ => rfl, rfl⟩
  | cons n ns ih =>
    obtain ⟨left, hf⟩ := takeEarly_spec wf hs n
    obtain ⟨more, tl⟩ := ih _ hf.stage.wf hf.departed.here.sound
    exact ⟨left ++ more, hf.trans tl⟩

end QuicRecoveryController

end Cnetmod.Quic
