import Cnetmod.Consensus.Run
import Cnetmod.Quic.Source.ReceivePath

/-!
# Packets that arrive again

The receive path keeps the numbers of the packets it has seen only to acknowledge them.
Packets take effect once exactly when none arrives that authenticates as one before.
-/
namespace Cnetmod.Quic

open List

open Coding (Bytes)

/-- What can happen to the receive path: a packet arrives while some keys are there, or the application
takes a datagram. -/
inductive ReceiveEvent (κ : Type) where
  | packet (keys : ReadKeys κ) (packet : ArrivedPacket)
  | receiveDatagram

namespace ReceivePath

variable {κ : Type}

def step (protection : PacketProtection κ) (config : DatagramConfig) (state : ReceivePath) : ReceiveEvent κ → ReceivePath
  | .packet keys packet => state.processPacket protection config keys packet
  | .receiveDatagram => state.receiveDatagram

def run (protection : PacketProtection κ) (config : DatagramConfig) (events : List (ReceiveEvent κ)) :
    ReceivePath :=
  events.foldl (step protection config) {}

/-- The packets whose frames were processed. -/
def keys (state : ReceivePath) : List PacketKey := state.processed.map Prod.fst

/-- The DATAGRAM frames that were delivered, each as a place in a packet. -/
def places (state : ReceivePath) : List (PacketKey × Nat) := state.delivered.map fun entry => (entry.1, entry.2.1)

/-- Every packet was processed once, and every DATAGRAM frame of it was delivered at most once. -/
structure Once (state : ReceivePath) : Prop where
  packets : state.keys.Nodup
  datagrams : state.places.Nodup

/-- The event is not the arrival of a packet that authenticates as one processed before. -/
def Fresh (protection : PacketProtection κ) (state : ReceivePath) : ReceiveEvent κ → Prop
  | .packet keys packet => ∀ key plaintext,
    authenticate protection keys state packet = some (key, plaintext) → key ∉ state.keys
  | .receiveDatagram => True

/-- Frames leave the record of packets, and what they deliver is their own. -/
lemma processFrames_spec (key : PacketKey) (es : List (Frame × Nat)) (st : ReceivePath) :
    (es.foldl (processFrame cfg key) st).processed = st.processed ∧
      ∃ pos : List Nat, (es.foldl (processFrame cfg key) st).places = st.places ++ pos.map (key, ·) ∧
        pos.Sublist (es.map Prod.snd) := by
  induction es generalizing st with
  | nil => exact ⟨rfl, [], by simp, List.Sublist.refl _⟩
  | cons e es ih =>
    obtain ⟨hs, pos, hm, ha⟩ := ih (processFrame cfg key st e)
    have hf : (processFrame cfg key st e).processed = st.processed ∧
        ((processFrame cfg key st e).places = st.places ∨ (processFrame cfg key st e).places = st.places ++ [(key, e.2)]) := by
      unfold processFrame
      split
      · unfold processDatagramFrame
        split
        · exact ⟨rfl, .inl rfl⟩
        split
        · exact ⟨rfl, .inr (by simp [ReceivePath.places])⟩
        · exact ⟨rfl, .inl rfl⟩
      · exact ⟨rfl, .inl rfl⟩
    refine ⟨hs.trans hf.1, ?_⟩
    rw [foldl_cons, hm]
    rcases hf.2 with none | one
    · exact ⟨pos, by rw [none], ha.cons _⟩
    · exact ⟨e.2 :: pos, by simp [one], ha.cons_cons _⟩

lemma processPlaintext_spec (early : Bool) (st : ReceivePath) (key : PacketKey) (pl : Bytes) :
    (st.processPlaintext cfg early key pl).keys = st.keys ++ [key] ∧
      ∃ pos : List Nat, (st.processPlaintext cfg early key pl).places = st.places ++ pos.map (key, ·) ∧ pos.Nodup := by
  unfold processPlaintext
  generalize plaintextFrames early (pl.length + 1) pl = outcome
  obtain ⟨fs, complete⟩ := outcome
  dsimp only
  generalize hst : ({ st with
    largestReceived := _
    processed := st.processed ++ [(key, fs)] } : ReceivePath) = started
  obtain ⟨hs, pos, hm, ha⟩ := processFrames_spec key fs.zipIdx started
  have hi : (fs.zipIdx.map Prod.snd).Nodup := by
    rw [zipIdx_map_snd]
    exact nodup_range'
  have hb : started.keys = st.keys ++ [key] ∧ started.places = st.places := by
    rw [← hst]
    exact ⟨by simp [keys], rfl⟩
  generalize fs.zipIdx.foldl (processFrame cfg key) started = after at hs hm ⊢
  have hu : after.keys = st.keys ++ [key] := by rw [keys, hs]; exact hb.1
  rw [hb.2] at hm
  split
  · exact ⟨hu, pos, hm, hi.sublist ha⟩
  · exact ⟨hu, pos, hm, hi.sublist ha⟩

/-- An event leaves the records as they are, or adds one packet and DATAGRAM frames of it. -/
lemma step_cases (st : ReceivePath) (ev : ReceiveEvent κ) : let after := step pr cfg st ev
    (after.keys = st.keys ∧ after.places = st.places ∧ Fresh pr st ev) ∨
    ∃ (key : PacketKey) (pos : List Nat), after.keys = st.keys ++ [key] ∧
      after.places = st.places ++ pos.map (key, ·) ∧ pos.Nodup ∧
      (Fresh pr st ev ↔ key ∉ st.keys) := by
  cases ev with
  | receiveDatagram => exact .inl ⟨rfl, rfl, trivial⟩
  | packet readKeys p =>
    simp only [step, processPacket, Fresh]
    cases hf : authenticate pr readKeys st p with
    | none => exact .inl ⟨rfl, rfl, by simp⟩
    | some outcome =>
      obtain ⟨key, pl⟩ := outcome
      obtain ⟨hm, pos, he, hn⟩ := processPlaintext_spec (p.kind = .zeroRtt) st key pl
      refine .inr ⟨key, pos, hm, he, hn, fun all => all key pl rfl, ?_⟩
      rintro ha _ _ ⟨⟩
      exact ha

lemma run_concat (evs : List (ReceiveEvent κ)) (last : ReceiveEvent κ) :
    run pr cfg (evs ++ [last]) = step pr cfg (run pr cfg evs) last :=
  foldl_append

/-- Delivered frames belong to packets that were processed. -/
lemma places_known (evs : List (ReceiveEvent κ)) : ∀ place ∈ (run pr cfg evs).places, place.1 ∈ (run pr cfg evs).keys := by
  induction evs using reverseRecOn with
  | nil => simp [run, places]
  | append_singleton evs last ih =>
    rw [run_concat]
    rcases step_cases (run pr cfg evs) last with ⟨keys, places, -⟩ | ⟨key, new, keys, places, -⟩
    · rwa [keys, places]
    rw [keys, places]
    intro place member
    rcases mem_append.mp member with before | here
    · exact mem_append_left _ (ih place before)
    · obtain ⟨n, -, rfl⟩ := mem_map.mp here
      exact mem_append_right _ (mem_singleton_self key)

/-- One event keeps the property exactly when it is fresh. -/
lemma once_concat_iff (evs : List (ReceiveEvent κ)) (last : ReceiveEvent κ) :
    (run pr cfg (evs ++ [last])).Once ↔ (run pr cfg evs).Once ∧ Fresh pr (run pr cfg evs) last := by
  have he : ∀ place ∈ (run pr cfg evs).places, _ := places_known evs
  rw [run_concat]
  rcases step_cases (run pr cfg evs) last with
    ⟨hk, hpl, hf⟩ | ⟨key, new, hk, hpl, hn, hf⟩
  · constructor
    · rintro ⟨hp, hc⟩
      exact ⟨⟨hk ▸ hp, hpl ▸ hc⟩, hf⟩
    · rintro ⟨⟨hp, hc⟩, -⟩
      exact ⟨by rwa [hk], by rwa [hpl]⟩
  rw [hf]
  constructor
  · rintro ⟨hp, hc⟩
    rw [hk, nodup_append'] at hp
    rw [hpl, nodup_append'] at hc
    exact ⟨⟨hp.1, hc.1⟩, fun hm => hp.2.2 hm (mem_singleton_self key)⟩
  rintro ⟨ho, ha⟩
  refine ⟨?_, ?_⟩
  · rw [hk]
    exact nodup_append'.mpr ⟨ho.packets, nodup_singleton key, by simpa using ha⟩
  rw [hpl]
  refine nodup_append'.mpr ⟨ho.datagrams, hn.map fun a b hs => (Prod.mk.inj hs).2, ?_⟩
  intro place hb hh
  obtain ⟨n, -, rfl⟩ := mem_map.mp hh
  exact ha (he _ hb)

lemma once_start : (run pr cfg []).Once := ⟨nodup_nil, nodup_nil⟩

end ReceivePath

open ReceivePath in
/-- In every run the frames of a packet are processed once, and its DATAGRAM frames delivered at most once, exactly
when no packet arrives that authenticates as one processed before. -/
theorem packets_take_effect_once_iff {κ : Type} (protection : PacketProtection κ) (config : DatagramConfig)
    (events : List (ReceiveEvent κ)) :
    (run protection config events).Once ↔
      ∀ k (inside : k < events.length), Fresh protection (run protection config (events.take k)) events[k] :=
  Consensus.forall_take_iff (fun before => (run protection config before).Once)
    (fun before => Fresh protection (run protection config before)) once_start once_concat_iff events

/-- Protection that covers nothing: the packet number is one byte, and the payload is sent in the clear. -/
def plainProtection : PacketProtection Unit where
  unprotectHeader _ wire _ _ := some (1, wire)
  openPayload _ ciphertext _ _ _ := some ciphertext

/-- A 1-RTT packet with number 7 and a DATAGRAM frame. -/
def datagramPacket : ReceiveEvent Unit :=
  .packet { application := [((), false)] } ⟨.oneRtt (some 0), [0x40, 7, 0x31, 2, 0xaa, 0xbb], 1⟩

/-- The packet arrives twice, and its datagram is delivered twice. -/
theorem repeated_packet_delivered_twice :
    let state := ReceivePath.run plainProtection ⟨1200, 128⟩ [datagramPacket, datagramPacket]
    state.keys = [⟨.application, 0, 7⟩, ⟨.application, 0, 7⟩] ∧ state.datagrams = [[0xaa, 0xbb], [0xaa, 0xbb]] ∧
      ¬ state.Once := by
  refine ⟨by decide +kernel, by decide +kernel, fun ho => ?_⟩
  have : [(⟨.application, 0, 7⟩ : PacketKey), ⟨.application, 0, 7⟩].Nodup := ho.packets
  simp at this

end Cnetmod.Quic
