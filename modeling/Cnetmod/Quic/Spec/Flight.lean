import Cnetmod.Quic.Source.LossDetection
import Cnetmod.Quic.Spec.PacketStoreMap

/-!
# Packets in flight

What taking packets out of flight leaves, one by one and for all the ranges of an
ACK frame. Bytes are counted with the packets.
-/
namespace Cnetmod.Quic

open List PnSpaceState

open Coding (Interval Covered)

namespace PnSpaceState

/-- The packets of the state are filed under their numbers, and their bytes are counted. -/
structure Sound (state : PnSpaceState) : Prop where
  wf : state.inFlightPackets.WellFormed
  filed : ∀ n packet, (n, packet) ∈ state.inFlightPackets.entries → packet.pn = n
  counted : state.bytesInFlight = (state.inFlightPackets.entries.map fun entry => entry.2.bytes).sum

/-- The numbers in flight. -/
def flying (state : PnSpaceState) : List Nat := state.inFlightPackets.entries.map Prod.fst

lemma sound_empty : ({} : PnSpaceState).Sound where
  wf := PacketStore.wellFormed_empty
  filed := by simp [PacketStore.entries]
  counted := rfl

/-- What is left when the numbers of a list have left flight. -/
structure Without (state : PnSpaceState) (numbers : List Nat) (state' : PnSpaceState) : Prop where
  sound : state'.Sound
  hasSent : state'.hasSentPacket = state.hasSentPacket
  left : ∀ n packet, (n, packet) ∈ state'.inFlightPackets.entries ↔ n ∉ numbers ∧ (n, packet) ∈ state.inFlightPackets.entries

variable {st : PnSpaceState}

lemma Sound.without_nil (hs : st.Sound) : st.Without [] st :=
  ⟨hs, rfl, by simp⟩

variable {state' : PnSpaceState} {ns : List Nat} {n : Nat}

lemma Without.trans (hf : st.Without ns state') (hs : state'.Without more state'') : st.Without (ns ++ more) state'' := by
  refine ⟨hs.sound, hs.hasSent.trans hf.hasSent, fun n p => ?_⟩
  rw [hs.left, hf.left, mem_append]
  tauto

lemma Sound.removeIfInflight (hs : st.Sound) (pn : Nat) : st.Without [pn] (st.removeIfInflight pn) := by
  unfold PnSpaceState.removeIfInflight
  have he := hs.wf.erase pn
  split
  next ha =>
    refine ⟨hs, rfl, fun n pkt => ⟨fun hm => ⟨?_, hm⟩, And.right⟩⟩
    rintro hb
    obtain rfl := mem_singleton.mp hb
    rw [hs.wf.find_eq_some_iff.mpr hm] at ha
    simp at ha
  next pkt hf =>
    have hm := hs.wf.find_eq_some_iff.mp hf
    refine ⟨⟨he.1, fun n p hc => hs.filed n p ((he.2 n p).mp hc).2, ?_⟩, rfl, fun n p => by simpa using he.2 n p⟩
    have ht := ((hs.wf.perm_erase hm).map fun e => e.2.bytes).sum_nat
    rw [hs.counted, ht, map_cons]
    exact Nat.add_sub_cancel_left _ _

lemma Sound.removeAll (hs : st.Sound) (ns : List Nat) : st.Without ns (ns.foldl PnSpaceState.removeIfInflight st) := by
  induction ns generalizing st with
  | nil => exact hs.without_nil
  | cons pn ns ih =>
    have hf := hs.removeIfInflight pn
    exact hf.trans (ih hf.sound)

lemma Sound.mem_inFlightWhere (hs : st.Sound) :
    n ∈ st.inFlightWhere which ↔ ∃ p, (n, p) ∈ st.inFlightPackets.entries ∧ which p = true := by
  simp only [inFlightWhere, mem_map, mem_filter, Prod.exists]
  constructor
  · rintro ⟨number, p, ⟨hm, hp⟩, rfl⟩
    have ha := hs.filed number p hm
    exact ⟨p, ha ▸ hm, hp⟩
  · rintro ⟨p, hm, hp⟩
    exact ⟨n, p, ⟨hm, hp⟩, hs.filed n p hm⟩

lemma Sound.nodup_inFlightWhere (hs : st.Sound) (which : InflightPacket → Bool) : (st.inFlightWhere which).Nodup := by
  have hk : (st.inFlightPackets.entries.filter fun e => which e.2).map (fun e => e.2.pn) =
      (st.inFlightPackets.entries.filter fun e => which e.2).map Prod.fst :=
    map_congr_left fun e hm => hs.filed _ _ (mem_of_mem_filter hm)
  rw [inFlightWhere, hk]
  exact hs.wf.nodup_keys.sublist (filter_sublist.map _)

lemma mem_flying : n ∈ st.flying ↔ ∃ packet, (n, packet) ∈ st.inFlightPackets.entries := by simp [flying]

lemma Without.mem_flying (hw : st.Without ns state') : n ∈ state'.flying ↔ n ∉ ns ∧ n ∈ st.flying := by
  simp [PnSpaceState.mem_flying, hw.left]

/-- The loop over the ranges of an ACK frame takes out what they cover, each number once. -/
lemma Sound.acknowledgeRanges (hs : st.Sound) (rs : List Interval) (acked : List Nat) :
    ∃ ns state', rs.foldl acknowledgeRange (st, acked) = (state', acked ++ ns) ∧ st.Without ns state' ∧ ns.Nodup ∧
      ∀ n, n ∈ ns ↔ n ∈ st.flying ∧ Covered rs n := by
  induction rs generalizing st acked with
  | nil => exact ⟨[], st, by simp, hs.without_nil, nodup_nil, by simp⟩
  | cons range rs ih =>
    have hf := hs.removeAll (st.inFlightWhere fun p => range.low ≤ p.pn ∧ p.pn ≤ range.high)
    have hi (n : Nat) : n ∈ st.inFlightWhere (fun p =>
        range.low ≤ p.pn ∧ p.pn ≤ range.high) ↔ n ∈ st.flying ∧ range.Has n := by
      rw [hs.mem_inFlightWhere, mem_flying]
      constructor
      · rintro ⟨p, hm, ha⟩
        exact ⟨⟨p, hm⟩, hs.filed n p hm ▸ of_decide_eq_true ha⟩
      rintro ⟨⟨p, hm⟩, ha⟩
      rw [← hs.filed n p hm] at ha
      exact ⟨p, hm, decide_eq_true ha⟩
    have hb := hs.nodup_inFlightWhere fun p => range.low ≤ p.pn ∧ p.pn ≤ range.high
    rw [foldl_cons, acknowledgeRange]
    generalize st.inFlightWhere (fun p => range.low ≤ p.pn ∧ p.pn ≤ range.high) = here
      at hf hi hb ⊢
    obtain ⟨ns, state', run, hw, hn, hc⟩ := ih hf.sound (acked ++ here)
    refine ⟨here ++ ns, state', by rw [run, append_assoc], hf.trans hw, ?_, fun n => ?_⟩
    · refine nodup_append'.mpr ⟨hb, hn, fun n hm hl => ?_⟩
      exact (hf.mem_flying.mp ((hc n).mp hl).1).1 hm
    · rw [mem_append, hc, hf.mem_flying, hi, Coding.covered_cons]
      tauto

end PnSpaceState

namespace LossDetector

variable {d : LossDetector} {sp : PnSpace}

@[simp] lemma setSpace_self (st : PnSpaceState) : (d.setSpace sp st).space sp = st := by simp [setSpace]

lemma setSpace_other (st : PnSpaceState) (ne : o ≠ sp) : (d.setSpace sp st).space o = d.space o := by
  simp [setSpace, ne]

/-- In one space the numbers of a list have left flight; the others are as they were. -/
structure Departed (d : LossDetector) (space : PnSpace) (numbers : List Nat) (d' : LossDetector) :
    Prop where
  here : (d.space space).Without numbers (d'.space space)
  others : ∀ other, other ≠ space → d'.space other = d.space other

variable {ns : List Nat}

lemma Departed.trans (hf : d.Departed sp ns d') (hs : d'.Departed sp more d'') : d.Departed sp (ns ++ more) d'' :=
  ⟨hf.here.trans hs.here, fun o ne => (hs.others o ne).trans (hf.others o ne)⟩

lemma departed_setSpace (hw : (d.space sp).Without ns st) : d.Departed sp ns (d.setSpace sp st) :=
  ⟨by rwa [setSpace_self], fun _ ne => setSpace_other st ne⟩

variable (hs : (d.space sp).Sound)

include hs

/-- Noting the largest number leaves the packets in flight. -/
lemma departed_noteLargest (f : AckFrame) (la : Nat) (rcv : Time) : d.Departed sp [] (d.noteLargest f la rcv sp) := by
  have ha {st : PnSpaceState} (hp : st.inFlightPackets = (d.space sp).inFlightPackets)
      (hb : st.bytesInFlight = (d.space sp).bytesInFlight)
      (hh : st.hasSentPacket = (d.space sp).hasSentPacket) :
      (d.space sp).Without [] st := by
    refine ⟨⟨?_, ?_, ?_⟩, hh, fun n p => ?_⟩
    · rw [hp]; exact hs.wf
    · rw [hp]; exact hs.filed
    · rw [hp, hb]; exact hs.counted
    · rw [hp]; simp
  unfold noteLargest
  dsimp only
  split
  · refine departed_setSpace (ha ?_ ?_ ?_) <;> split <;> rfl
  refine ⟨?_, fun o ne => setSpace_other _ ne⟩
  rw [setSpace_self]
  refine ha ?_ ?_ ?_ <;> (dsimp only; split <;> rfl)

/-- A frame that is refused changes nothing; one that is accepted takes out of flight what
its ranges cover. -/
lemma onAckReceived_spec (f : AckFrame) (la : Nat) (rcv : Time) :
    (∃ e, d.checkAck f la sp = .error e ∧ d.onAckReceived f la rcv sp = (d, .error e)) ∨
    ∃ d' ns, d.checkAck f la sp = .ok () ∧ d.onAckReceived f la rcv sp = (d', .ok ns) ∧ d.Departed sp ns d' ∧ ns.Nodup ∧
      ∀ n, n ∈ ns ↔ n ∈ (d.space sp).flying ∧ Covered (acknowledgedRanges f la) n := by
  cases hc : d.checkAck f la sp with
  | error e => exact .inl ⟨e, rfl, by rw [onAckReceived, hc]⟩
  | ok _ =>
    have hn := departed_noteLargest hs f la rcv
    obtain ⟨ns, st, run, hw, ho, hb⟩ := hn.here.sound.acknowledgeRanges (acknowledgedRanges f la) []
    have ha : ((d.noteLargest f la rcv sp).space sp).Without ns (if ns = [] then st else { st with ptoCount := 0 }) := by
      split
      · exact hw
      · exact ⟨⟨hw.sound.wf, hw.sound.filed, hw.sound.counted⟩, hw.hasSent, hw.left⟩
    refine .inr ⟨_, ns, rfl, ?_, hn.trans (departed_setSpace ha), ho, fun n => ?_⟩
    · rw [onAckReceived, hc]
      dsimp only
      rw [run]
      rfl
    · rw [hb, hn.here.mem_flying]
      simp

/-- The lost packets leave flight, each once. -/
lemma detectLostPackets_spec (now : Time) : d.Departed sp (d.detectLostPackets now sp).2 (d.detectLostPackets now sp).1 ∧
      (d.detectLostPackets now sp).2.Nodup ∧ ∀ n ∈ (d.detectLostPackets now sp).2, n ∈ (d.space sp).flying := by
  unfold detectLostPackets
  dsimp only
  split
  · exact ⟨⟨hs.without_nil, fun _ _ => rfl⟩, nodup_nil, by simp⟩
  dsimp only
  refine ⟨departed_setSpace (hs.removeAll _), hs.nodup_inFlightWhere _, fun n hm => ?_⟩
  obtain ⟨p, hf, -⟩ := hs.mem_inFlightWhere.mp hm
  exact mem_flying.mpr ⟨p, hf⟩

/-- A packet that elicits an acknowledgement is in flight when it is sent. -/
lemma onPacketSent_spec (hf : pn ∉ (d.space sp).flying) (bs : Nat) (sent : Time) (eliciting : Bool) :
    let after := d.onPacketSent pn bs sent eliciting sp
    (after.space sp).Sound ∧ (after.space sp).hasSentPacket = true ∧
      (∀ n p, (n, p) ∈ (after.space sp).inFlightPackets.entries ↔
        (eliciting = true ∧ n = pn ∧ p = ⟨pn, bs, sent, eliciting⟩) ∨ (n, p) ∈ (d.space sp).inFlightPackets.entries) ∧
      ∀ other, other ≠ sp → after.space other = d.space other := by
  have ha (p : InflightPacket) : (pn, p) ∉ (d.space sp).inFlightPackets.entries :=
    fun hm => hf (mem_flying.mpr ⟨p, hm⟩)
  unfold onPacketSent
  cases eliciting with
  | false =>
    simp only [Bool.false_eq_true, if_false, setSpace_self, false_and, false_or]
    exact ⟨⟨hs.wf, hs.filed, hs.counted⟩, trivial, fun _ _ => trivial, fun _ ne => setSpace_other _ ne⟩
  | true =>
    simp only [if_true, setSpace_self, true_and]
    have hi := hs.wf.insert pn ⟨pn, bs, sent, true⟩
    have hh (n : Nat) (p : InflightPacket) : (n, p) ∈ ((d.space sp).inFlightPackets.insert pn ⟨pn, bs, sent, true⟩).entries ↔
        (n = pn ∧ p = ⟨pn, bs, sent, true⟩) ∨ (n, p) ∈ (d.space sp).inFlightPackets.entries := by
      rw [hi.2]
      refine or_congr_right ⟨And.right, fun hm => ⟨?_, hm⟩⟩
      rintro rfl
      exact ha p hm
    refine ⟨⟨hi.1, fun n p hm => ?_, ?_⟩, hh, fun _ ne => setSpace_other _ ne⟩
    · rcases (hh n p).mp hm with ⟨rfl, rfl⟩ | hb
      · rfl
      · exact hs.filed n p hb
    have ho : ((d.space sp).inFlightPackets.insert pn ⟨pn, bs, sent, true⟩).entries.Perm
        ((pn, ⟨pn, bs, sent, true⟩) :: (d.space sp).inFlightPackets.entries) :=
      hs.wf.perm_insert hf
    have ht := (ho.map fun e => e.2.bytes).sum_nat
    rw [map_cons, sum_cons, ← hs.counted] at ht
    exact (add_comm _ _).trans ht.symm

end LossDetector

end Cnetmod.Quic
