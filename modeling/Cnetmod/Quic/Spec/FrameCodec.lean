import Mathlib.Tactic.Ring
import Cnetmod.Quic.Source.Frame

/-!
# Reading what was written

Every value up to the largest one survives its variable-length encoding, and so
does every ACK frame made of such values.
-/
namespace Cnetmod.Quic

open List

open Coding (Bytes)

@[simp] lemma length_lowBytes (n v : Nat) : (lowBytes n v).length = n := by
  induction n with
  | zero => rfl
  | succ n ih => rw [lowBytes, length_cons, ih]

/-- The bytes after the first add the rest of the value. -/
lemma foldl_lowBytes (n v acc : Nat) :
    (lowBytes n v).foldl (fun v b => (v <<< 8) ||| b.toNat) acc = acc * 256 ^ n + v % 256 ^ n := by
  induction n generalizing acc with
  | zero => simp [lowBytes, Nat.mod_one]
  | succ n ih =>
    have hb : (UInt8.ofNat ((v >>> (8 * n)) &&& 0xff)).toNat = v / 256 ^ n % 256 := by
      rw [show (0xff : Nat) = 2 ^ 8 - 1 from rfl, Nat.and_two_pow_sub_one_eq_mod,
        Nat.shiftRight_eq_div_pow, pow_mul, UInt8.toNat_ofNat']
      exact Nat.mod_mod _ _
    have hs : v / 256 ^ n % 256 < 2 ^ 8 := Nat.mod_lt _ (by decide)
    rw [lowBytes, foldl_cons, ih, hb, ← Nat.shiftLeft_add_eq_or_of_lt hs, Nat.shiftLeft_eq, pow_succ 256 n, Nat.mod_mul]
    ring

variable {f : AckFrame}

lemma toNat_tagged (hb : tag < 4) (hs : low < 64) : (UInt8.ofNat (64 * tag + low)).toNat = 64 * tag + low := by
  rw [UInt8.toNat_ofNat']
  omega

/-- A first byte with its tag, and as many bytes after it as the tag says. -/
lemma decodeVarint_tagged (hb : tag < 4) (hs : low < 64)
    (hh : v / 256 ^ (1 <<< tag - 1) = low) (hf : v ≤ maxVarintValue) (tl : Bytes) :
    decodeVarint (UInt8.ofNat (64 * tag + low) :: lowBytes (1 <<< tag - 1) v ++ tl) = .ok (v, 1 <<< tag) := by
  have ht : ((64 * tag + low) >>> 6) &&& 3 = tag := by
    rw [show (3 : Nat) = 2 ^ 2 - 1 from rfl, Nat.and_two_pow_sub_one_eq_mod]
    omega
  have hu : (64 * tag + low) &&& 0x3f = low := by
    rw [show (0x3f : Nat) = 2 ^ 6 - 1 from rfl, Nat.and_two_pow_sub_one_eq_mod]
    omega
  have hw : low * 256 ^ (1 <<< tag - 1) + v % 256 ^ (1 <<< tag - 1) = v := by
    rw [← hh, mul_comm]
    exact Nat.div_add_mod v _
  rw [cons_append, decodeVarint]
  simp only [toNat_tagged hb hs, ht, hu]
  rw [if_neg (by simp; omega), take_append_of_le_length (by simp),
    take_of_length_le (by simp), foldl_lowBytes, hw, if_neg (by omega)]

lemma tag_or (hs : low < 64) : 64 * tag ||| low = 64 * tag + low :=
  (Nat.two_pow_add_eq_or_of_lt (i := 6) hs tag).symm

/-- The encoding is a tagged byte and the low bytes, in each of the four sizes. -/
lemma varintBytes_tagged (hf : v ≤ maxVarintValue) :
    ∃ tag low, tag < 4 ∧ low < 64 ∧ v / 256 ^ (1 <<< tag - 1) = low ∧ 1 <<< tag = varintSize v ∧
      varintBytes v = UInt8.ofNat (64 * tag + low) :: lowBytes (1 <<< tag - 1) v := by
  rw [varintBytes, encodeVarint, if_neg (not_lt.mpr hf), varintSize]
  unfold maxVarintValue at hf
  split_ifs with one two four
  · exact ⟨0, v, by decide, one, by simp, rfl, by simp [lowBytes]⟩
  · have hs : v / 256 ^ 1 < 64 := by omega
    refine ⟨1, v / 256 ^ 1, by decide, hs, rfl, rfl, ?_⟩
    rw [← tag_or hs]
    simp only [Nat.shiftRight_eq_div_pow]
    rfl
  · have hs : v / 256 ^ 3 < 64 := by omega
    refine ⟨2, v / 256 ^ 3, by decide, hs, rfl, rfl, ?_⟩
    rw [← tag_or hs]
    simp only [Nat.shiftRight_eq_div_pow]
    rfl
  have hs : v / 256 ^ 7 < 64 := by omega
  refine ⟨3, v / 256 ^ 7, by decide, hs, rfl, rfl, ?_⟩
  rw [← tag_or hs]
  simp only [Nat.shiftRight_eq_div_pow]
  rfl

namespace FrameReader

lemma bind_ok {read : FrameReader α} {next : α → FrameReader β} {v : α} (done : read d = .ok (v, tl)) :
    (read >>= next) d = next v tl := by
  simp only [bind, StateT.bind, done, Except.bind]

lemma varint_append (hf : v ≤ maxVarintValue) (tl : Bytes) : varint (varintBytes v ++ tl) = .ok (v, tl) := by
  obtain ⟨tag, low, hb, hs, hh, ha, hw⟩ := varintBytes_tagged hf
  have hp : 0 < 1 <<< tag := by
    rw [Nat.one_shiftLeft]
    exact Nat.two_pow_pos tag
  rw [hw, varint, decodeVarint_tagged hb hs hh hf]
  simp only [bind, Except.bind, pure, Except.pure]
  rw [drop_left' (by simp; omega)]

lemma ackRanges_append (fit : ∀ range ∈ rs, range.gap ≤ maxVarintValue ∧ range.ackRangeLength ≤ maxVarintValue)
    (tl : Bytes) : ackRanges rs.length (rs.flatMap (fun range =>
      varintBytes range.gap ++ varintBytes range.ackRangeLength) ++ tl) = .ok (rs, tl) := by
  induction rs with
  | nil => rfl
  | cons range rs ih =>
    rw [forall_mem_cons] at fit
    rw [length_cons, ackRanges, flatMap_cons, append_assoc, append_assoc,
      bind_ok (varint_append fit.1.1 _), bind_ok (varint_append fit.1.2 _), bind_ok (ih fit.2)]
    rfl

end FrameReader

/-- Every number of the frame can be written, and the count is that of the ranges. -/
structure AckFrame.Encodable (f : AckFrame) : Prop where
  largestAcked : f.largestAcked ≤ maxVarintValue
  ackDelay : f.ackDelay ≤ maxVarintValue
  ackRangeCount : f.ackRangeCount = f.ackRanges.length
  countFits : f.ackRangeCount ≤ maxVarintValue
  firstAckRange : f.firstAckRange ≤ maxVarintValue
  ackRanges : ∀ range ∈ f.ackRanges, range.gap ≤ maxVarintValue ∧ range.ackRangeLength ≤ maxVarintValue
  ecn : f.ect0Count ≤ maxVarintValue ∧ f.ect1Count ≤ maxVarintValue ∧ f.ecnCeCount ≤ maxVarintValue
  noEcn : f.hasEcn = false → f.ect0Count = 0 ∧ f.ect1Count = 0 ∧ f.ecnCeCount = 0

lemma FrameReader.ackFrame_append (he : f.Encodable) (tl : Bytes) : ackFrame f.hasEcn (ackBytes f ++ tl) = .ok (f, tl) := by
  obtain ⟨hl, ha, ho, hc, hf, hr, ⟨ht, hb, ce⟩, hno⟩ := he
  have hn := ackRanges_append hr
  rw [← ho] at hn
  unfold ackBytes ackFrame
  simp only [append_assoc]
  rw [bind_ok (varint_append hl _), bind_ok (varint_append ha _),
    bind_ok (varint_append hc _), bind_ok (varint_append hf _), bind_ok (hn _)]
  cases f with
  | mk largestAcked ackDelay ackRangeCount firstAckRange ackRanges hasEcn ect0Count ect1Count ecnCeCount =>
    cases hasEcn with
    | false =>
      obtain ⟨rfl, rfl, rfl⟩ := hno rfl
      rfl
    | true =>
      simp only [if_true, append_assoc]
      rw [bind_ok (varint_append ht _), bind_ok (varint_append hb _), bind_ok (varint_append ce _)]
      rfl

lemma decodeFrame_encodeAckFrame (he : f.Encodable) (tl : Bytes) : decodeFrame (encodeAckFrame f ++ tl) = .ok (.ack f, tl) := by
  have hf := FrameReader.ackFrame_append he tl
  rw [encodeAckFrame, decodeFrame, append_assoc]
  cases ecn : f.hasEcn <;> rw [ecn] at hf <;>
    rw [FrameReader.bind_ok (FrameReader.varint_append (by decide) _)] <;>
    exact FrameReader.bind_ok hf

lemma decodeFrame_encodePathAckFrame (hp : pathId < 2 ^ 32) (he : f.Encodable) (tl : Bytes) :
    decodeFrame (encodePathAckFrame pathId f ++ tl) = .ok (.pathAck pathId f, tl) := by
  have hf := FrameReader.ackFrame_append he tl
  have hr : FrameReader.pathId (varintBytes pathId ++ (ackBytes f ++ tl)) = .ok (pathId, ackBytes f ++ tl) := by
    rw [FrameReader.pathId, FrameReader.bind_ok (FrameReader.varint_append
      (by unfold maxVarintValue; omega) _), if_neg (by omega)]
    rfl
  rw [encodePathAckFrame, decodeFrame, append_assoc, append_assoc]
  cases ecn : f.hasEcn <;> rw [ecn] at hf <;>
    rw [FrameReader.bind_ok (FrameReader.varint_append (by decide) _)] <;>
    exact (FrameReader.bind_ok hr).trans (FrameReader.bind_ok hf)

end Cnetmod.Quic
