import Cnetmod.Coding.Bits

/-!
# Numbers written in digits
-/
namespace Cnetmod.Coding

def digitValue (c : UInt8) : Option Nat :=
  if 48 ≤ c ∧ c ≤ 57 then some (c.toNat - 48)
  else if 97 ≤ c ∧ c ≤ 102 then some (c.toNat - 87)
  else if 65 ≤ c ∧ c ≤ 70 then some (c.toNat - 55)
  else none

def isDigit (base : Nat) (c : UInt8) : Bool := (digitValue c).any (· < base)

def digitsValue (base : Nat) (digits : Bytes) : Nat :=
  digits.foldl (fun n c => n * base + (digitValue c).getD 0) 0

/-- `std::from_chars` into a 64-bit number: the longest run of digits at the
beginning, whatever follows it. It fails without a digit and on overflow. -/
def fromChars (base : Nat) (text : Bytes) : Option Nat :=
  let digits := text.takeWhile (isDigit base)
  if digits = [] ∨ 2 ^ 64 ≤ digitsValue base digits then none else some (digitsValue base digits)

lemma takeWhile_digits {base : Nat} {t tl : Bytes} (ha : ∀ c ∈ t, isDigit base c = true)
    (he : ∀ c, tl.head? = some c → isDigit base c = false) : (t ++ tl).takeWhile (isDigit base) = t := by
  rw [List.takeWhile_append_of_pos ha]
  cases tl with
  | nil => simp
  | cons c tl => simp [he c rfl]

end Cnetmod.Coding
