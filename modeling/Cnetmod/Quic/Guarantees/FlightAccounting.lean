import Cnetmod.Quic.Spec.RecoveryRuns

/-!
# Flight accounting

In every run of a recovery controller its three ledgers agree, and every packet
leaves flight once.
-/
namespace Cnetmod.Quic

open List Function

open Consensus (Reached)

namespace QuicRecoveryController

variable {c c' : QuicRecoveryController}

/-- The packets of the list were in flight, each is there once, and they are what leaves flight. -/
structure Exits (c : QuicRecoveryController) (exits : List (PnSpace × Nat × Fate))
    (c' : QuicRecoveryController) : Prop where
  once : (exits.map fun exit => (exit.1, exit.2.1)).Nodup
  before : ∀ space n fate, (space, n, fate) ∈ exits → n ∈ c.numbers space
  after : ∀ space n, n ∈ c'.numbers space ↔ n ∈ c.numbers space ∧ ∀ fate, (space, n, fate) ∉ exits

lemma Leaves.exits {exits : List (PnSpace × Nat × Fate)} (ha : Leaves settled c sp left c') (hn : left.Nodup)
    (hb : ∀ n ∈ left, n ∈ c.numbers sp)
    (hs : (exits.map fun exit => (exit.1, exit.2.1)) = left.map (sp, ·)) : Exits c exits c' := by
  have hl (o : PnSpace) (n : Nat) : (∃ fate, (o, n, fate) ∈ exits) ↔ o = sp ∧ n ∈ left := by
    have : (o, n) ∈ exits.map (fun exit => (exit.1, exit.2.1)) ↔ (o, n) ∈ left.map (sp, ·) := by rw [hs]
    grind
  refine ⟨?_, fun o n fate hm => ?_, fun o n => ?_⟩
  · rw [hs]
    exact hn.map fun a b he => (Prod.mk.inj he).2
  · obtain ⟨rfl, hi⟩ := (hl o n).mp ⟨fate, hm⟩
    exact hb n hi
  · rw [ha.mem_numbers, ← hl, not_exists]

lemma Balanced.nodup_numbers (hb : c.Balanced) (sp : PnSpace) : (c.numbers sp).Nodup :=
  (hb.stored sp).nodup_keys

/-- A call that sends nothing keeps the balance, and `leaving` lists what it takes out of flight. -/
lemma Balanced.call_exits (hb : c.Balanced) {call : RecoveryCall} (ha : call.sent = []) :
    (c.call call).Balanced ∧ Exits c (c.leaving call) (c.call call) := by
  cases call with
  | onPacketSent => cases ha
  | onAckReceived sp f rt =>
    rcases hb.onAckReceived f rt sp with
      ⟨e, run, ho⟩ | ⟨c', update, acknowledged, lost, run, ho, hl, hn, hbe⟩
    · simp only [QuicRecoveryController.call, leaving, run, ho, map_nil, append_nil]
      exact ⟨hb, by simp, by simp, by simp⟩
    · simp only [QuicRecoveryController.call, leaving, run, ho]
      exact ⟨hb.leaves hl, hl.exits hn hbe (by simp [comp_def])⟩
  | onPtoExpired sp =>
    have hl : Leaves (fun _ => True) c sp [] (c.onPtoExpired sp) := hb.onPtoExpired sp
    exact ⟨hb.leaves hl, hl.exits nodup_nil (by simp) rfl⟩
  | discardNonRetransmittable sp =>
    have hl : Leaves (fun _ => True) c sp (c.numbers sp) (c.discardNonRetransmittable sp).1 :=
      hb.discardNonRetransmittable sp fun _ _ _ _ _ _ _ => trivial
    exact ⟨hb.leaves hl, hl.exits (hb.nodup_numbers sp) (fun _ => id) (by simp [leaving, comp_def])⟩
  | takeOutstandingFrames sp =>
    have hl := hb.takeOutstandingFrames sp
    exact ⟨hb.leaves hl, hl.exits nodup_nil (by simp) rfl⟩
  | takeEarlyDataFrames =>
    obtain ⟨left, hl⟩ := hb.takeEarlyDataFrames
    refine ⟨hb.leaves hl, ?_, fun sp n fate hm => ?_, fun sp n => ?_⟩
    · have hn := (hb.nodup_numbers .application).filter fun n => decide (n ∉ c.takeEarlyDataFrames.1.numbers .application)
      simp only [leaving, map_map, comp_def]
      exact hn.map fun a b he => (Prod.mk.inj he).2
    · simp only [leaving, mem_map, mem_filter, Prod.mk.injEq] at hm
      obtain ⟨k, hi, rfl, rfl, -⟩ := hm
      exact hi.1
    have hf : n ∈ c.takeEarlyDataFrames.1.numbers sp ↔ _ := hl.mem_numbers
    by_cases hh : sp = .application
    · subst hh
      simp only [QuicRecoveryController.call, leaving]
      simp
      tauto
    · simp [QuicRecoveryController.call, leaving, hf, hh, Ne.symm hh]
  | discardPacketNumberSpace sp =>
    refine ⟨hb.discardPacketNumberSpace sp, ?_, fun o n fate hm => ?_, fun o n => ?_⟩
    · simp only [leaving, map_map, comp_def]
      exact (hb.nodup_numbers sp).map fun a b he => (Prod.mk.inj he).2
    · simp only [leaving, mem_map, Prod.mk.injEq] at hm
      obtain ⟨k, hi, rfl, rfl, -⟩ := hm
      exact hi
    have hs : (c.discardPacketNumberSpace sp).sentPackets o = _ := sentPackets_discardPacketNumberSpace o
    by_cases hh : o = sp
    · subst hh
      have none : (c.discardPacketNumberSpace o).numbers o = [] := by
        rw [numbers, hs, if_pos rfl]
        rfl
      simp [QuicRecoveryController.call, leaving, none]
    · simp [QuicRecoveryController.call, leaving, numbers, hs, hh, Ne.symm hh]

end QuicRecoveryController

namespace RecoveryWorld

open QuicRecoveryController (Exits)

/-- The packet was sent and is tracked for recovery. -/
def Tracked (w : RecoveryWorld) (space : PnSpace) (n : Nat) : Prop :=
  ∃ r ∈ w.sent, r.space = space ∧ r.packetNumber = n ∧ r.recoveryTracked = true

def HasLeft (w : RecoveryWorld) (space : PnSpace) (n : Nat) : Prop := ∃ fate, (space, n, fate) ∈ w.departed

/-- The ledgers agree, and every tracked packet is in flight or has left, once. -/
structure Accounted (w : RecoveryWorld) : Prop where
  balanced : w.controller.Balanced
  once : (w.departed.map fun exit => (exit.1, exit.2.1)).Nodup
  known : ∀ space n, w.Tracked space n ↔ n ∈ w.controller.numbers space ∨ w.HasLeft space n
  apart : ∀ space n, n ∈ w.controller.numbers space → ¬ w.HasLeft space n

lemma accounted_start : ({} : RecoveryWorld).Accounted where
  balanced := QuicRecoveryController.balanced_start
  once := nodup_nil
  known := by simp [Tracked, HasLeft, QuicRecoveryController.numbers, PacketStore.entries]
  apart := by simp [HasLeft]

variable {w w' : RecoveryWorld} {space : PnSpace} {n : Nat}

lemma Accounted.exits {exits : List (PnSpace × Nat × Fate)} (ha : w.Accounted)
    (hb : w'.controller.Balanced) (out : Exits w.controller exits w'.controller)
    (hc : w'.sent = w.sent) (he : w'.departed = exits ++ w.departed) : w'.Accounted := by
  have left (sp : PnSpace) (n : Nat) : w'.HasLeft sp n ↔ (∃ fate, (sp, n, fate) ∈ exits) ∨ w.HasLeft sp n := by
    simp [HasLeft, he, exists_or]
  refine ⟨hb, ?_, fun sp n => ?_, fun sp n hi => ?_⟩
  · rw [he, map_append, nodup_append']
    refine ⟨out.once, ha.once, fun ⟨sp, n⟩ hh ht => ?_⟩
    obtain ⟨⟨_, _, fate⟩, hm, hsa⟩ := mem_map.mp hh
    obtain ⟨⟨_, _, fate'⟩, hme, hs⟩ := mem_map.mp ht
    obtain ⟨rfl, rfl⟩ := Prod.mk.inj hsa
    obtain ⟨rfl, rfl⟩ := Prod.mk.inj hs
    exact ha.apart _ _ (out.before _ _ fate hm) ⟨fate', hme⟩
  · have hk := ha.known sp n
    have hf := out.before sp n
    rw [left, out.after]
    unfold Tracked at hk ⊢
    rw [hc, hk]
    by_cases hg : ∃ fate, (sp, n, fate) ∈ exits
    · obtain ⟨fate, hm⟩ := hg
      exact ⟨fun _ => .inr (.inl ⟨fate, hm⟩), fun _ => .inl (hf fate hm)⟩
    · simp [not_exists.mp hg]
  · rw [out.after] at hi
    rw [left, not_or]
    exact ⟨fun ⟨fate, hm⟩ => hi.2 fate hm, ha.apart sp n hi.1⟩

/-- A new number is not in flight and has not left. -/
lemma Accounted.fresh (ha : w.Accounted) (hb : ∀ r ∈ w.sent, r.space = space → r.packetNumber < n) :
    n ∉ w.controller.numbers space ∧ ¬ w.HasLeft space n := by
  have hu : ¬ w.Tracked space n := by
    rintro ⟨r, hm, hs, rfl, -⟩
    exact lt_irrefl _ (hb r hm hs)
  rw [ha.known] at hu
  exact not_or.mp hu

/-- A packet that is sent is known and in flight if it is tracked. -/
lemma Accounted.sends (ha : w.Accounted) (hb : w'.controller.Balanced)
    (hj : w.controller.Joins space tracked n pkt w'.controller) (ht : ¬ w.HasLeft space n)
    (hc : w'.sent = ⟨space, n, tracked, fs⟩ :: w.sent) (he : w'.departed = w.departed) : w'.Accounted := by
  have hn (o : PnSpace) (k : Nat) : k ∈ w'.controller.numbers o ↔
      (tracked = true ∧ o = space ∧ k = n) ∨ k ∈ w.controller.numbers o := by
    by_cases hs : o = space
    · subst hs
      simp only [QuicRecoveryController.numbers, mem_map, Prod.exists, hj.held, exists_and_right, exists_eq_right, exists_or]
      simp
    · simp [QuicRecoveryController.numbers, hj.others o hs, hs]
  have left (o : PnSpace) (k : Nat) : w'.HasLeft o k ↔ w.HasLeft o k := by rw [HasLeft, he, HasLeft]
  refine ⟨hb, he ▸ ha.once, fun o k => ?_, fun o k hi => ?_⟩
  · have hk := ha.known o k
    rw [hn, left, or_assoc, ← hk]
    unfold Tracked
    rw [hc]
    simp only [mem_cons, exists_eq_or_imp]
    grind
  rw [left]
  rcases (hn o k).mp hi with ⟨-, rfl, rfl⟩ | hbe
  · exact ht
  · exact ha.apart o k hbe

lemma Accounted.step (ha : w.Accounted) (hi : w.Increasing call) (ht : w.step call = some w') : w'.Accounted := by
  obtain rfl := Option.some.inj ht
  by_cases hn : call.sent = []
  · obtain ⟨hb, he⟩ := ha.balanced.call_exits hn
    exact ha.exits hb he (by rw [hn, nil_append]) rfl
  cases call with
  | onPacketSent sp n bs time tracked fs tgt repeated =>
    obtain ⟨hf, hs⟩ := ha.fresh (hi _ (mem_singleton_self _))
    have hj : QuicRecoveryController.Joins w.controller sp tracked n ⟨fs, bs, tgt, repeated⟩
        (w.controller.onPacketSent n bs time tracked sp fs tgt repeated) :=
      QuicRecoveryController.onPacketSent_joins (ha.balanced.stored sp) hf
    exact ha.sends (ha.balanced.onPacketSent hf) hj hs rfl rfl
  | _ => exact absurd rfl hn

end RecoveryWorld

/-- In every run, in every space, the store holds the packets that the detector has in flight,
with the same sizes. Their bytes are the bytes in flight, every tracked packet is in flight or has left it
once, and an ACK frame that is refused changes nothing. -/
theorem flight_accounting {w : RecoveryWorld}
    (run : Reached RecoveryWorld.step RecoveryWorld.Increasing {} w) :
    (∀ space, (w.controller.numbers space).Nodup ∧
      ((w.controller.sentPackets space).entries.map fun entry => (entry.1, entry.2.bytes)).Perm
        ((w.controller.detector.space space).inFlightPackets.entries.map fun entry =>
          (entry.1, entry.2.bytes))) ∧
    w.controller.congestion.bytesInFlight = PnSpace.sum (fun space =>
      ((w.controller.sentPackets space).entries.map fun entry => entry.2.bytes).sum) ∧
    (w.departed.map fun exit => (exit.1, exit.2.1)).Nodup ∧
    (∀ space n, (w.Tracked space n ↔ n ∈ w.controller.numbers space ∨ w.HasLeft space n) ∧
      ¬ (n ∈ w.controller.numbers space ∧ w.HasLeft space n)) ∧
    ∀ frame receivedAt space e, (w.controller.onAckReceived frame receivedAt space).2 = .error e →
      (w.controller.onAckReceived frame receivedAt space).1 = w.controller := by
  have ha : w.Accounted := run.invariant RecoveryWorld.Accounted RecoveryWorld.accounted_start fun ha hi ht => ha.step hi ht
  have hb := ha.balanced
  refine ⟨fun space => ⟨hb.nodup_numbers space, ?_⟩, hb.counted, ha.once,
    fun space n => ⟨ha.known space n, fun ho => ha.apart space n ho.1 ho.2⟩, ?_⟩
  · exact (hb.stored space).perm_of_same (hb.sound space).wf (hb.agree space)
  intro frame receivedAt space e hr
  rcases hb.onAckReceived frame receivedAt space with
    ⟨_, hs, -⟩ | ⟨_, _, _, _, hac, -⟩
  · rw [hs]
  · rw [hac] at hr
    cases hr

/-- Two packets, one of which is acknowledged. -/
theorem flight_accounting_acknowledged :
    ∃ w, Reached RecoveryWorld.step RecoveryWorld.Increasing {} w ∧
      w.departed = [(.application, 1, .acknowledged)] ∧
      w.controller.congestion.bytesInFlight = PnSpace.sum (fun space =>
        ((w.controller.sentPackets space).entries.map fun entry => entry.2.bytes).sum) := by
  have run : Reached RecoveryWorld.step RecoveryWorld.Increasing {} _ := .runChecked .start
    [.onPacketSent .application 1 1200 0 true {} none false,
      .onPacketSent .application 2 80 5 true {} none false,
      .onAckReceived .application { largestAcked := 1 } 20] rfl
  exact ⟨_, run, rfl, (flight_accounting run).2.1⟩

end Cnetmod.Quic
