import Mathlib.Algebra.Ring.Nat
import Mathlib.Data.List.Infix

/-!
# Tables bounded by weight

A table holds its newest item first and is cut at the far end until the weights
of what is left fit a limit.
-/
namespace Cnetmod.Coding

open List

variable {α : Type*} (weight : α → Nat)

def total (items : List α) : Nat := (items.map weight).sum

/-- The longest beginning whose weights fit `limit`. -/
def fit : (limit : Nat) → List α → List α
  | _, [] => []
  | limit, item :: items => if weight item ≤ limit then item :: fit (limit - weight item) items else []

variable {weight} {lim : Nat}

@[simp] lemma total_nil : total weight [] = 0 := rfl

@[simp] lemma total_cons (x : α) (xs : List α) : total weight (x :: xs) = weight x + total weight xs := by
  simp [total]

@[simp] lemma total_append (xs ys : List α) : total weight (xs ++ ys) = total weight xs + total weight ys := by
  simp [total]

lemma total_le_of_prefix {xs ys : List α} (hb : xs <+: ys) : total weight xs ≤ total weight ys := by
  obtain ⟨tl, rfl⟩ := hb
  simp

lemma fit_begins (xs : List α) : fit weight lim xs <+: xs := by
  induction xs generalizing lim with
  | nil => exact prefix_refl _
  | cons x xs ih =>
    rw [fit]
    split
    · exact (prefix_cons_inj x).mpr ih
    · exact nil_prefix

lemma total_fit_le (xs : List α) : total weight (fit weight lim xs) ≤ lim := by
  induction xs generalizing lim with
  | nil => simp [fit]
  | cons x xs ih =>
    rw [fit]
    split
    case isTrue hf =>
      have := @ih (lim - weight x)
      rw [total_cons]
      omega
    case isFalse => simp

/-- Every beginning that fits is part of the longest one. -/
lemma prefix_fit {xs is : List α} (hb : xs <+: is) (hf : total weight xs ≤ lim) : xs <+: fit weight lim is := by
  induction is generalizing xs lim with
  | nil =>
    rw [prefix_nil.mp hb]
    exact nil_prefix
  | cons item is ih =>
    cases xs with
    | nil => exact nil_prefix
    | cons x xs =>
      obtain ⟨rfl, hi⟩ := cons_prefix_cons.mp hb
      rw [total_cons] at hf
      rw [fit, if_pos (by omega)]
      exact (prefix_cons_inj x).mpr (ih hi (by omega))

lemma fit_eq_self {xs : List α} (hf : total weight xs ≤ lim) : fit weight lim xs = xs :=
  (fit_begins xs).eq_of_length_le (prefix_fit (prefix_refl _) hf).length_le

/-- An item at the far end that does not fit changes nothing. -/
lemma fit_concat {xs : List α} {oldest : α} (hl : lim < total weight (xs ++ [oldest])) :
    fit weight lim (xs ++ [oldest]) = fit weight lim xs := by
  have hh : fit weight lim (xs ++ [oldest]) <+: xs := by
    have hb : fit weight lim (xs ++ [oldest]) <+: xs ++ [oldest] := fit_begins _
    rcases prefix_concat_iff.mp hb with hw | hi
    · have hs : total weight (fit weight lim (xs ++ [oldest])) ≤ lim := total_fit_le _
      rw [hw] at hs
      omega
    · exact hi
  have he := prefix_fit hh (total_fit_le _)
  have ha : fit weight lim xs <+: fit weight lim (xs ++ [oldest]) :=
    prefix_fit ((fit_begins xs).trans (prefix_append _ _)) (total_fit_le _)
  exact he.eq_of_length_le ha.length_le

end Cnetmod.Coding
