import Mathlib.Data.Nat.Dist
import Cnetmod.Quic.Source.ReceivePath

/-!
# Packet numbers are recovered

The number that is decoded is the nearest to the one expected next. What the sender
truncates is nearer to it than half the window.
-/
namespace Cnetmod.Quic

/-- Of the numbers that end in `truncated` the nearest to `expected`, the larger of two that are as near. -/
def IsNearest (decoded truncated nbits expected : Nat) : Prop :=
  decoded % 2 ^ nbits = truncated ∧ ∀ other, other % 2 ^ nbits = truncated →
    decoded.dist expected < other.dist expected ∨ decoded.dist expected = other.dist expected ∧ other ≤ decoded

variable {truncated nb largest : Nat}

/-- Numbers that end alike are equal or at least a window apart. -/
lemma windows_apart {a b win : Nat} (hs : a % win = b % win) : a = b ∨ a + win ≤ b ∨ b + win ≤ a := by
  have apart {a b : Nat} (hl : a < b) (hs : a % win = b % win) : a + win ≤ b := by
    have hd := Nat.le_of_dvd (by omega) (Nat.dvd_of_mod_eq_zero (Nat.sub_mod_eq_zero_of_mod_eq hs.symm))
    omega
  rcases Nat.lt_trichotomy a b with hl | he | hg
  · exact .inr (.inl (apart hl hs))
  · exact .inl he
  · exact .inr (.inr (apart hg hs.symm))

lemma packetNumberDecode_nearest (hp : 0 < nb) (hb : nb ≤ 32) (ht : truncated < 2 ^ nb) (hl : largest < 2 ^ 62) :
    IsNearest (packetNumberDecode truncated nb largest) truncated nb (largest + 1) := by
  have hw : 2 ^ nb ≤ 2 ^ 32 := Nat.pow_le_pow_right (by decide) hb
  have hh : 2 ∣ 2 ^ nb := dvd_pow_self 2 hp.ne'
  have hm : largest ≠ maxUint64 := by
    rw [maxUint64]
    omega
  have he := Nat.div_add_mod' (largest + 1) (2 ^ nb)
  have hz : (largest + 1) / 2 ^ nb * 2 ^ nb = 0 ∨ 2 ^ nb ≤ (largest + 1) / 2 ^ nb * 2 ^ nb :=
    (Nat.eq_zero_or_pos _).imp_right fun hc => Nat.le_of_dvd hc (Nat.dvd_mul_left ..)
  have ho := Nat.mul_add_mod' ((largest + 1) / 2 ^ nb) (2 ^ nb) truncated
  rw [Nat.mod_eq_of_lt ht] at ho
  rw [packetNumberDecode, if_neg (by omega), if_neg hm]
  dsimp only
  rw [← Nat.div_mul_self_eq_mod_sub_self, ← Nat.shiftLeft_eq, ← Nat.shiftLeft_add_eq_or_of_lt ht, Nat.shiftLeft_eq]
  have near {decoded : Nat} (hd : decoded % 2 ^ nb = truncated)
      (hn : largest + 1 < decoded + 2 ^ nb / 2 ∧ (decoded ≤ largest + 1 + 2 ^ nb / 2 ∨ decoded < 2 ^ nb)) :
      IsNearest decoded truncated nb (largest + 1) := by
    refine ⟨hd, fun o hs => ?_⟩
    have ha := windows_apart (hs.trans hd.symm)
    simp only [Nat.dist]
    omega
  split
  · rw [Nat.mod_eq_of_lt (by omega)]
    exact near (by rw [Nat.add_mod_right, ho]) (by omega)
  split
  · exact near ((Nat.mod_eq_sub_mod (by omega)).symm.trans ho) (by omega)
  · exact near ho (by omega)

lemma widen_spec (hu : unacked < 2 ^ 31) (hn : nb ≤ 32) (hr : 32 < nb + n) :
    widen unacked n nb ≤ 32 ∧ 2 * unacked < 2 ^ widen unacked n nb := by
  induction n generalizing nb with
  | zero => omega
  | succ n ih =>
    rw [widen]
    split
    next hs =>
      have he : nb ≠ 32 := by
        rintro rfl
        omega
      exact ih (by omega) (by omega)
    next hw => exact ⟨hn, by omega⟩

/-- A packet number is read as it was sent, and what is read is the nearest number to the one expected. -/
theorem packet_numbers_recovered :
    (∀ pn acked received, acked ≤ received → received < pn → pn < 2 ^ 62 → pn - acked < 2 ^ 31 →
      packetNumberDecode (packetNumberEncode pn acked).1 (packetNumberEncode pn acked).2 received = pn) ∧
    ∀ truncated nbits largest, 0 < nbits → nbits ≤ 32 → truncated < 2 ^ nbits → largest < 2 ^ 62 →
      IsNearest (packetNumberDecode truncated nbits largest) truncated nbits (largest + 1) := by
  refine ⟨fun pn acked received ha hr hb hu => ?_, fun _ _ _ hp hb ht hl => packetNumberDecode_nearest hp hb ht hl⟩
  obtain ⟨hw, hg⟩ := widen_spec hu (show 1 ≤ 32 by decide) (show 32 < 1 + 64 by decide)
  rw [packetNumberEncode, if_neg (by omega)]
  dsimp only
  obtain ⟨nbits, hn⟩ : ∃ nbits, nbits = min (max (widen (pn - acked) 64 1) 4) 32 := ⟨_, rfl⟩
  have he : 2 ^ widen (pn - acked) 64 1 ≤ 2 ^ nbits := Nat.pow_le_pow_right (by decide) (by omega)
  rw [← hn]
  obtain ⟨hd, hf⟩ := packetNumberDecode_nearest (show 0 < nbits by omega) (by omega)
    (Nat.mod_lt pn (Nat.two_pow_pos nbits)) (show received < 2 ^ 62 by omega)
  have hc := hf pn rfl
  have hj := windows_apart hd
  simp only [Nat.dist] at hc
  omega

theorem packet_numbers_recovered_wrapped :
    packetNumberDecode (packetNumberEncode 300 250).1 (packetNumberEncode 300 250).2 255 = 300 ∧
      IsNearest (packetNumberDecode 3 8 254) 3 8 255 :=
  ⟨packet_numbers_recovered.1 300 250 255 (by decide) (by decide) (by decide) (by decide),
    packet_numbers_recovered.2 3 8 254 (by decide) (by decide) (by decide) (by decide)⟩

end Cnetmod.Quic
