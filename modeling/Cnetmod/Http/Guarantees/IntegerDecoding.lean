import Cnetmod.Http.Spec.HeaderBlocks

/-!
# Prefixed integers

The decoder adds up the groups modulo 2^32. It stops after five of them, and a fifth group
may still exceed 32 bits.
-/
namespace Cnetmod.Http.V2

open Coding (Bytes)

/-- The number that at most `n` seven-bit groups denote, lowest first, and what follows them. -/
def groupsValue : Nat → Bytes → Option (Nat × Bytes)
  | n + 1, byte :: rest =>
    let low := (byte &&& 0x7f).toNat
    if byte &&& 0x80 = 0 then some (low, rest) else (groupsValue n rest).map fun (v, rest) => (low + 128 * v, rest)
  | _, _ => none

/-- The number that a prefix of `width` bits and the groups after it denote, if those are five at most. -/
def integerValue (input : Bytes) (width : Nat) : Option (Nat × Bytes) :=
  match input with
  | [] => none
  | first :: rest =>
    let value := first.toNat &&& (2 ^ width - 1)
    if value < 2 ^ width - 1 then some (value, rest) else (groupsValue 5 rest).map fun (v, rest) => (value + v, rest)

lemma highBit_iff (b : UInt8) : b &&& 0x80 = 0 ↔ ¬ b > 0x7f := by
  have hd : ∀ n < 256, UInt8.ofNat n &&& 0x80 = 0 ↔ ¬ UInt8.ofNat n > 0x7f := by decide +kernel
  simpa using hd b.toNat b.toNat_lt

/-- What the decoder makes of the groups after `k` of them. -/
lemma decodeGroups_eq {n k : Nat} (hk : n + k = 5) (bs : Bytes) (acc : Nat) :
    decodeGroups bs (7 * k) acc = (groupsValue n bs).map fun x => ((acc + x.1 * 2 ^ (7 * k)) % 2 ^ 32, x.2) := by
  induction bs generalizing n k acc with
  | nil => cases n <;> rfl
  | cons b bs ih =>
    cases n with
    | zero =>
      rw [decodeGroups, if_pos (by omega)]
      rfl
    | succ n =>
      rw [decodeGroups, groupsValue, if_neg (by omega)]
      dsimp only
      by_cases hb : b &&& 0x80 = 0
      · simp [(highBit_iff b).mp hb, hb, Nat.shiftLeft_eq]
      have hg := not_not.mp (mt (highBit_iff b).mpr hb)
      rw [if_neg hb, if_neg hb]
      by_cases h4 : 7 * k = 28
      · rw [if_pos ⟨h4, hg⟩, show n = 0 by omega]
        rfl
      rw [if_neg fun h => h4 h.1, ← Nat.mul_succ, ih (show n + k.succ = 5 by omega), Option.map_map]
      congr 1
      funext x
      have he : (b &&& 0x7f).toNat <<< (7 * k) + x.1 * 2 ^ (7 * k.succ) = ((b &&& 0x7f).toNat + 128 * x.1) * 2 ^ (7 * k) := by
        rw [Nat.shiftLeft_eq, Nat.mul_succ, Nat.pow_add, Nat.add_mul, mul_comm 128, mul_assoc,
          mul_comm (2 ^ (7 * k))]
      simp only [Function.comp, Nat.mod_add_mod, add_assoc, he]

/-- What is decoded is the number that is denoted exactly if that is below 2^32, and whatever 32-bit number is encoded is read
back. -/
theorem integer_decoding_exact_iff (w : Nat) (input : Bytes) :
    ((∀ r, decodeInteger input w = some r → integerValue input w = some r) ↔
      ∀ v rest, integerValue input w = some (v, rest) → v < 2 ^ 32) ∧
      ∀ head v rest, LeavesLow w head → v < 2 ^ 32 → decodeInteger (encodeInteger v w head ++ rest) w = some (v, rest) := by
  refine ⟨?_, fun head v rest hf hv => decodeInteger_encodeInteger hf hv rest⟩
  cases input with
  | nil => exact ⟨nofun, nofun⟩
  | cons first rest =>
    simp only [decodeInteger, integerValue]
    have hw : first.toNat &&& (2 ^ w - 1) < 256 := Nat.and_le_left.trans_lt first.toNat_lt
    split
    · simp only [Option.some.injEq, imp_self, implies_true, Prod.mk.injEq, true_iff]
      rintro v rest ⟨rfl, rfl⟩
      omega
    have hd := decodeGroups_eq (Nat.add_zero 5) rest (first.toNat &&& (2 ^ w - 1))
    rw [Nat.mul_zero] at hd
    rw [hd]
    cases groupsValue 5 rest with
    | none => simp
    | some x =>
      simp only [Option.map_some, Option.some.injEq, forall_eq', Prod.mk.injEq, and_true]
      refine ⟨fun h v tl he => ?_, fun h => ?_⟩
      · rw [← he.1]
        omega
      · have := h _ _ ⟨rfl, rfl⟩
        omega

/-- A number of 35 bits is read as one of 32. -/
theorem integer_decoded_reduced : decodeInteger [0xff, 0xff, 0xff, 0xff, 0xff, 0x7f] 8 = some (254, []) ∧
    integerValue [0xff, 0xff, 0xff, 0xff, 0xff, 0x7f] 8 = some (2 ^ 35 + 254, []) := by decide +kernel

end Cnetmod.Http.V2
