import Mathlib.Data.Nat.Bitwise

/-!
# Bit strings

Bits of numbers and bytes, most significant first, as they appear on a wire.
-/
namespace Cnetmod.Coding

abbrev Bytes := List UInt8

/-- The bytes of a string literal with characters below 256. -/
def ascii (text : String) : Bytes := text.toList.map fun c => UInt8.ofNat c.toNat

instance : Coe String Bytes := ⟨ascii⟩

/-- The low `width` bits of `n`. -/
def bitsOf : (width : Nat) → (n : Nat) → List Bool
  | 0, _ => []
  | width + 1, n => n.testBit width :: bitsOf width n

def byteBits (b : UInt8) : List Bool := bitsOf 8 b.toNat

def bytesBits (bytes : Bytes) : List Bool := bytes.flatMap byteBits

@[simp] lemma length_bitsOf (w n : Nat) : (bitsOf w n).length = w := by
  induction w with
  | zero => rfl
  | succ w ih => simp [bitsOf, ih]

@[simp] lemma bytesBits_nil : bytesBits [] = [] := rfl

@[simp] lemma bytesBits_cons (b : UInt8) (bs : Bytes) : bytesBits (b :: bs) = byteBits b ++ bytesBits bs := rfl

@[simp] lemma bytesBits_append (xs ys : Bytes) : bytesBits (xs ++ ys) = bytesBits xs ++ bytesBits ys := by
  simp [bytesBits]

lemma length_bytesBits (bs : Bytes) : (bytesBits bs).length = 8 * bs.length := by
  induction bs with
  | nil => rfl
  | cons b bs ih =>
    simp only [bytesBits_cons, List.length_append, ih, List.length_cons, byteBits, length_bitsOf]
    omega

lemma bytesBits_injective : Function.Injective bytesBits
  | [], [], _ => rfl
  | x :: xs, y :: ys, h => by
    obtain ⟨hx, ht⟩ := List.append_inj h (by simp [byteBits])
    have hv : ∀ n < 256, (bitsOf 8 n).foldl (fun n bit => 2 * n + bit.toNat) 0 = n := by decide +kernel
    have he : x.toNat = y.toNat := by rw [← hv _ x.toNat_lt, ← hv _ y.toNat_lt]; exact congrArg _ hx
    rw [bytesBits_injective ht, UInt8.toNat_inj.mp he]

/-- Only the low bits matter. -/
lemma bitsOf_congr {w n m : Nat} (hs : ∀ i < w, n.testBit i = m.testBit i) : bitsOf w n = bitsOf w m := by
  induction w with
  | zero => rfl
  | succ w ih => rw [bitsOf, bitsOf, hs w (Nat.lt_succ_self _), ih fun i hm => hs i (Nat.lt_succ_of_lt hm)]

lemma bitsOf_add (high low n : Nat) : bitsOf (high + low) n = bitsOf high (n >>> low) ++ bitsOf low n := by
  induction high with
  | zero => simp [bitsOf]
  | succ high ih =>
    rw [Nat.succ_add, bitsOf, bitsOf, ih, List.cons_append, Nat.testBit_shiftRight, add_comm low high]

lemma bitsOf_mod {w k : Nat} (n : Nat) (hw : w ≤ k) : bitsOf w (n % 2 ^ k) = bitsOf w n := by
  apply bitsOf_congr
  intro i hs
  simp [lt_of_lt_of_le hs hw]

lemma byteBits_ofNat (n : Nat) : byteBits (UInt8.ofNat n) = bitsOf 8 n := by
  rw [byteBits, UInt8.toNat_ofNat', bitsOf_mod n (Nat.le_refl 8)]

/-- Shifting a value up and filling in the freed bits puts the two side by side. -/
lemma bitsOf_shiftLeft_or (high low n fill : Nat) (hf : fill < 2 ^ low) :
    bitsOf (high + low) ((n <<< low) ||| fill) = bitsOf high n ++ bitsOf low fill := by
  rw [bitsOf_add]
  congr 1
  · apply bitsOf_congr
    intro i _
    have ha : fill.testBit (low + i) = false :=
      Nat.testBit_lt_two_pow (lt_of_lt_of_le hf (Nat.pow_le_pow_right (by decide) (by omega)))
    rw [Nat.testBit_shiftRight, Nat.testBit_or, ha]
    simp
  apply bitsOf_congr
  intro i hs
  have hb : ¬ low ≤ i := by omega
  simp [hb]

lemma bitsOf_ones (w : Nat) : bitsOf w (2 ^ w - 1) = List.replicate w true := by
  have ho : ∀ k ≤ w, bitsOf k (2 ^ w - 1) = List.replicate k true := by
    intro k
    induction k with
    | zero => simp [bitsOf]
    | succ k ih =>
      intro le
      rw [bitsOf, ih (by omega), List.replicate_succ]
      simp [show k < w by omega]
  exact ho w (le_rfl)

end Cnetmod.Coding
