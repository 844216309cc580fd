import Cnetmod.Http.Source.Qpack

/-!
# Reconstruction of required insert counts

The decoder subtracts the range of the encoding from a count above the highest possible one without
asking whether the count is that large, and none of its sums is checked. Where neither matters it
finds the one count that the encoding may stand for.
-/
namespace Cnetmod.Http.V3

variable {capacity insertCount encoded : Nat}

/-- The encoding stands for the count, next to the insertions so far. -/
def IsRequired (capacity insertCount encoded r : Nat) : Prop :=
  encodeRequiredInsertCount r capacity = encoded ∧ (1 ≤ r → insertCount < r + capacity / 32 ∧ r ≤ insertCount + capacity / 32)

/-- No sum and no difference leaves the numbers. -/
def Unwrapped (capacity insertCount encoded : Nat) : Prop :=
  let fullRange := 2 * (capacity / 32)
  let maxValue := insertCount + capacity / 32
  encoded = 0 ∨ encoded > fullRange ∨
    maxValue < 2 ^ 64 ∧ encoded - 1 ≤ maxValue ∧ encoded - 1 + fullRange * (maxValue / fullRange) < 2 ^ 64

/-- The value before the last test: it lies near the insertions and in the class of the encoding. -/
lemma exists_value (hp : 0 < e) (hf : e ≤ 2 * M) (hl : e - 1 ≤ N + M) (hw : e - 1 + 2 * M * ((N + M) / (2 * M)) < 2 ^ 64) :
    ∃ x, (if e - 1 + 2 * M * ((N + M) / (2 * M)) > N + M then (e - 1 + 2 * M * ((N + M) / (2 * M)) + 2 ^ 64 - 2 * M) % 2 ^ 64
      else e - 1 + 2 * M * ((N + M) / (2 * M))) = x ∧ x % (2 * M) = e - 1 ∧ N < x + M ∧ x ≤ N + M := by
  have hb := Nat.mul_div_le (N + M) (2 * M)
  have hn := Nat.lt_mul_div_succ (N + M) (show 0 < 2 * M by omega)
  have hc (k : Nat) : (e - 1 + 2 * M * k) % (2 * M) = e - 1 := by
    rw [Nat.add_mul_mod_self_left, Nat.mod_eq_of_lt (by omega)]
  generalize (N + M) / (2 * M) = k at *
  by_cases hg : e - 1 + 2 * M * k > N + M
  · -- the range can be subtracted, since the encoding is not above the highest value
    cases k with
    | zero => omega
    | succ k =>
      rw [Nat.mul_succ] at *
      exact ⟨e - 1 + 2 * M * k, by rw [if_pos hg]; omega, hc k, by omega, by omega⟩
  · rw [Nat.mul_succ] at hn
    exact ⟨_, if_neg hg, hc k, by omega, by omega⟩

/-- Where nothing wraps, the decoder returns the count that the encoding stands for and nothing else. -/
theorem insert_count_reconstructed (entries : 32 ≤ capacity) (unwrapped : Unwrapped capacity insertCount encoded) (r : Nat) :
    decodeRequiredInsertCount encoded insertCount capacity = some r ↔ r < 2 ^ 64 ∧ IsRequired capacity insertCount encoded r := by
  have hp : 0 < capacity / 32 := by omega
  rw [decodeRequiredInsertCount, IsRequired, encodeRequiredInsertCount]
  rw [Unwrapped] at unwrapped
  dsimp only at unwrapped ⊢
  generalize capacity / 32 = M at *
  rw [if_neg (Nat.ne_of_gt hp)]
  have hr := Nat.mod_lt r (show 2 * M > 0 by omega)
  by_cases he : encoded = 0
  · rw [if_pos he, Option.some.injEq]
    split <;> omega
  rw [if_neg he]
  by_cases hfit : encoded > 2 * M
  · rw [if_pos (.inr hfit)]
    refine iff_of_false nofun ?_
    split <;> omega
  obtain ⟨ht, hb, hw⟩ := (unwrapped.resolve_left he).resolve_left hfit
  obtain ⟨x, hx, hc, hl, hh⟩ := exists_value (Nat.pos_of_ne_zero he) (not_lt.mp hfit) hb hw
  rw [if_neg (by omega), Nat.mod_eq_of_lt ht, Nat.mod_eq_of_lt hw, hx]
  constructor
  · intro hs
    split at hs
    · cases hs
    cases hs
    rw [if_neg (by omega)]
    omega
  rintro ⟨-, ha, hn⟩
  split at ha
  · omega
  obtain rfl : r = x := Nat.ModEq.eq_of_abs_lt (m := 2 * M) (show r % (2 * M) = x % (2 * M) by omega) (by rw [abs_lt]; omega)
  exact if_neg (by omega)

/-- Ten insertions behind, at a table of 128 entries. -/
theorem insert_count_reconstructed_late : decodeRequiredInsertCount (encodeRequiredInsertCount 990 4096) 1000 4096 = some 990 :=
  (insert_count_reconstructed (by decide) (.inr (.inr (by decide))) 990).mpr ⟨by decide, rfl, by decide⟩

/-- Nothing is inserted, and a count of almost 2^64 is returned for an encoding that stands for none. -/
theorem insert_count_wraps : decodeRequiredInsertCount 150 0 3200 = some (2 ^ 64 - 51) ∧ ∀ r, ¬ IsRequired 3200 0 150 r := by
  refine ⟨by decide, fun r ⟨he, hwin⟩ => ?_⟩
  rw [encodeRequiredInsertCount] at he
  split at he
  · omega
  dsimp only at he
  rw [if_neg (by decide)] at he
  omega

end Cnetmod.Http.V3
