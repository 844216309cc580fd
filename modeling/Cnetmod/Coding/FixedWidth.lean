import Mathlib.Tactic.Ring
import Cnetmod.Coding.Digits
import Cnetmod.Coding.SortedMap

/-!
# Numbers of a fixed width

Decimal numbers with leading zeros, whose order is that of their texts, and
binary numbers with the least byte first.
-/
namespace Cnetmod.Coding

variable {w n : Nat}

/-- `n` in `width` decimal digits. -/
def decimalDigits : (width n : Nat) → Bytes
  | 0, _ => []
  | width + 1, n => UInt8.ofNat (48 + n / 10 ^ width) :: decimalDigits width (n % 10 ^ width)

lemma div_lt_ten (hf : n < 10 ^ (w + 1)) : n / 10 ^ w < 10 :=
  Nat.div_lt_of_lt_mul (by rwa [Nat.pow_succ] at hf)

lemma toNat_decimal {d : Nat} (ha : d < 10) : (UInt8.ofNat (48 + d)).toNat = 48 + d := by
  rw [UInt8.toNat_ofNat']
  omega

lemma digitValue_decimal {d : Nat} (ha : d < 10) : digitValue (UInt8.ofNat (48 + d)) = some d :=
  (by decide : ∀ d < 10, digitValue (UInt8.ofNat (48 + d)) = some d) d ha

lemma lt_iff_div_mod (p a b : Nat) : a < b ↔ a / p < b / p ∨ a / p = b / p ∧ a % p < b % p := by
  have hf := Nat.div_add_mod a p
  have he := Nat.div_add_mod b p
  constructor
  · intro hl
    rcases (Nat.div_le_div_right hl.le : a / p ≤ b / p).lt_or_eq with ha | hs
    · exact .inl ha
    refine .inr ⟨hs, ?_⟩
    rw [hs] at hf
    omega
  rintro (ha | ⟨hs, hl⟩)
  · exact Nat.lt_of_div_lt_div ha
  · rw [hs] at hf
    omega

lemma decimalDigits_lt_iff {w a b : Nat} (hf : a < 10 ^ w) (hs : b < 10 ^ w) :
    decimalDigits w a < decimalDigits w b ↔ a < b := by
  induction w generalizing a b with
  | zero =>
    rw [Nat.pow_zero, Nat.lt_one_iff] at hf hs
    rw [hf, hs]
    simp
  | succ w ih =>
    have ha := div_lt_ten hf
    have hg := div_lt_ten hs
    have hp : 0 < 10 ^ w := Nat.pow_pos (by decide)
    rw [decimalDigits, decimalDigits, List.cons_lt_cons_iff,
      ih (Nat.mod_lt _ hp) (Nat.mod_lt _ hp), UInt8.lt_iff_toNat_lt, ← UInt8.toNat_inj,
      toNat_decimal ha, toNat_decimal hg, lt_iff_div_mod (10 ^ w) a b]
    omega

lemma isDigit_decimalDigits (hf : n < 10 ^ w) : ∀ c ∈ decimalDigits w n, isDigit 10 c = true := by
  induction w generalizing n with
  | zero => simp [decimalDigits]
  | succ w ih =>
    intro c hm
    rcases List.mem_cons.mp hm with rfl | hl
    · rw [isDigit, digitValue_decimal (div_lt_ten hf)]
      simpa using div_lt_ten hf
    · exact ih (Nat.mod_lt _ (Nat.pow_pos (by decide))) c hl

/-- Horner's rule from any value read before. -/
lemma foldl_decimalDigits (hf : n < 10 ^ w) (pre : Nat) :
    (decimalDigits w n).foldl (fun n c => n * 10 + (digitValue c).getD 0) pre = pre * 10 ^ w + n := by
  induction w generalizing n pre with
  | zero =>
    simp at hf
    simp [decimalDigits, hf]
  | succ w ih =>
    have hp := Nat.div_add_mod n (10 ^ w)
    rw [decimalDigits, List.foldl_cons, ih (Nat.mod_lt _ (Nat.pow_pos (by decide))),
      digitValue_decimal (div_lt_ten hf), Option.getD_some]
    calc (pre * 10 + n / 10 ^ w) * 10 ^ w + n % 10 ^ w
        = pre * 10 ^ (w + 1) + (10 ^ w * (n / 10 ^ w) + n % 10 ^ w) := by ring
      _ = pre * 10 ^ (w + 1) + n := by rw [hp]

lemma fromChars_decimalDigits (hp : w ≠ 0) (hf : n < 10 ^ w) (ho : n < 2 ^ 64) : fromChars 10 (decimalDigits w n) = some n := by
  have ha : (decimalDigits w n).takeWhile (isDigit 10) = decimalDigits w n := by
    simpa using @takeWhile_digits 10 (decimalDigits w n) [] (isDigit_decimalDigits hf) (by simp)
  have hv : digitsValue 10 (decimalDigits w n) = n := by
    rw [digitsValue, foldl_decimalDigits hf, Nat.zero_mul, zero_add]
  have hw : decimalDigits w n ≠ [] := by
    cases w with
    | zero => exact absurd rfl hp
    | succ w => simp [decimalDigits]
  rw [fromChars, ha, hv, if_neg (by simp only [hw, false_or]; omega)]

/-- The low `width` bytes of `n`. -/
def littleEndian : (width n : Nat) → Bytes
  | 0, _ => []
  | width + 1, n => UInt8.ofNat n :: littleEndian width (n / 256)

def littleEndianValue : Bytes → Nat
  | [] => 0
  | byte :: rest => byte.toNat + 256 * littleEndianValue rest

@[simp] lemma length_littleEndian (w n : Nat) : (littleEndian w n).length = w := by
  induction w generalizing n with
  | zero => rfl
  | succ w ih => rw [littleEndian, List.length_cons, ih]

lemma littleEndianValue_littleEndian (hf : n < 256 ^ w) : littleEndianValue (littleEndian w n) = n := by
  induction w generalizing n with
  | zero =>
    simp at hf
    rw [hf]
    rfl
  | succ w ih =>
    have hr : n / 256 < 256 ^ w := Nat.div_lt_of_lt_mul (by rwa [Nat.pow_succ, mul_comm] at hf)
    rw [littleEndian, littleEndianValue, ih hr, UInt8.toNat_ofNat']
    omega

end Cnetmod.Coding
