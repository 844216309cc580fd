import Mathlib.Data.Nat.ModEq

/-!
# Required insert counts

`encode_required_insert_count` and `decode_required_insert_count` of `qpack.cpp`, on numbers below 2^64.
A sum or a difference wraps where it may leave them; a capacity counts 32 bytes an entry.
-/
namespace Cnetmod.Http.V3

def encodeRequiredInsertCount (required capacity : Nat) : Nat :=
  if required = 0 then 0
  else
    let maxEntries := capacity / 32
    if maxEntries = 0 then 0 else required % (2 * maxEntries) + 1

/-- No count is the error. -/
def decodeRequiredInsertCount (encoded insertCount capacity : Nat) : Option Nat :=
  if encoded = 0 then some 0
  else
    let maxEntries := capacity / 32
    if maxEntries = 0 ∨ encoded > 2 * maxEntries then none
    else
      let fullRange := 2 * maxEntries
      let maxValue := (insertCount + maxEntries) % 2 ^ 64
      let required := (encoded - 1 + fullRange * (maxValue / fullRange)) % 2 ^ 64
      let required := if required > maxValue then (required + 2 ^ 64 - fullRange) % 2 ^ 64 else required
      if required = 0 then none else some required

end Cnetmod.Http.V3
