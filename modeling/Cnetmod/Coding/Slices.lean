import Mathlib.Data.List.TakeDrop
import Mathlib.Data.Nat.Find

/-!
# Slices of a string

Pieces of one string with their offsets, what they cover, and how far they cover it
from the beginning.
-/
namespace Cnetmod.Coding

open List

/-- Some elements and the offset of the first of them. -/
structure Piece (α : Type*) where
  offset : Nat
  data : List α
  deriving DecidableEq

namespace Piece

variable {α : Type*} {s : List α} {p : Piece α} {i k : Nat}

/-- The offset behind the last element. -/
def stop (p : Piece α) : Nat := p.offset + p.data.length

def Has (p : Piece α) (i : Nat) : Prop := p.offset ≤ i ∧ i < p.stop

instance (p : Piece α) (i : Nat) : Decidable (p.Has i) := inferInstanceAs (Decidable (_ ∧ _))

/-- The piece is cut out of the string. -/
structure IsSlice (s : List α) (p : Piece α) : Prop where
  inside : p.offset ≤ s.length
  cut : p.data <+: s.drop p.offset

instance [DecidableEq α] (s : List α) (p : Piece α) : Decidable (p.IsSlice s) :=
  decidable_of_iff (p.offset ≤ s.length ∧ p.data <+: s.drop p.offset)
    ⟨fun ⟨inside, cut⟩ => ⟨inside, cut⟩, fun slice => ⟨slice.inside, slice.cut⟩⟩

lemma IsSlice.stop_le (hs : p.IsSlice s) : p.stop ≤ s.length := by
  have := hs.cut.length_le
  have := hs.inside
  rw [length_drop] at *
  unfold stop
  omega

/-- The string up to a slice, continued by the slice. -/
lemma IsSlice.take_append (hs : p.IsSlice s) : s.take p.offset ++ p.data = s.take p.stop := by
  obtain ⟨tl, hw⟩ := hs.cut
  rw [stop, take_add, ← hw, take_left]

/-- What is left of a slice from an offset on. -/
lemma IsSlice.drop (hs : p.IsSlice s) (k : Nat) (hh : k ≤ p.data.length) :
    (⟨p.offset + k, p.data.drop k⟩ : Piece α).IsSlice s where
  inside := by
    have := hs.stop_le
    unfold stop at this
    dsimp only
    omega
  cut := by
    obtain ⟨tl, hw⟩ := hs.cut
    refine ⟨tl, ?_⟩
    rw [← drop_drop, ← hw, drop_append_of_le_length hh]

lemma IsSlice.take (hs : p.IsSlice s) (k : Nat) : (⟨p.offset, p.data.take k⟩ : Piece α).IsSlice s :=
  ⟨hs.inside, ( take_prefix k p.data).trans hs.cut⟩

/-- Two slices that follow each other. -/
lemma IsSlice.append {hd second : List α} (hb : (⟨k, hd⟩ : Piece α).IsSlice s)
    (ha : (⟨k + hd.length, second⟩ : Piece α).IsSlice s) : (⟨k, hd ++ second⟩ : Piece α).IsSlice s where
  inside := hb.inside
  cut := by
    obtain ⟨tl, hw⟩ := hb.cut
    obtain ⟨last, ht⟩ := ha.cut
    refine ⟨last, ?_⟩
    rw [← drop_drop, ← hw, drop_left] at ht
    rw [append_assoc, ht, hw]

/-- A part of a slice is what the string has there. -/
lemma IsSlice.part_eq (hs : p.IsSlice s) {n : Nat} (hi : k + n ≤ p.data.length) :
    (p.data.drop k).take n = (s.drop (p.offset + k)).take n := by
  obtain ⟨tl, hw⟩ := hs.cut
  rw [← drop_drop, ← hw, drop_append_of_le_length (by omega), take_append_of_le_length]
  rw [length_drop]
  omega

end Piece

/-- The offset is that of an element of a piece. -/
def PieceCovered {α : Type*} (pieces : List (Piece α)) (i : Nat) : Prop := ∃ p ∈ pieces, p.Has i

instance {α : Type*} (pieces : List (Piece α)) (i : Nat) : Decidable (PieceCovered pieces i) :=
  inferInstanceAs (Decidable (∃ p ∈ pieces, p.Has i))

lemma pieceCovered_concat {α : Type*} {ps : List (Piece α)} {p : Piece α} {i : Nat} :
    PieceCovered (ps ++ [p]) i ↔ PieceCovered ps i ∨ p.Has i := by
  simp [PieceCovered, or_and_right, exists_or]

/-- Everything below the offset is covered, and the offset is not. -/
structure CoveredUpTo {α : Type*} (pieces : List (Piece α)) (k : Nat) : Prop where
  below : ∀ i < k, PieceCovered pieces i
  uncovered : ¬ PieceCovered pieces k

/-- Pieces that end somewhere cover up to some offset. -/
lemma exists_coveredUpTo {α : Type*} {ps : List (Piece α)} {n : Nat} (he : ∀ p ∈ ps, p.stop ≤ n) : ∃ k, CoveredUpTo ps k := by
  have hl : ∃ k, ¬ PieceCovered ps k := ⟨n, fun ⟨p, hm, has⟩ => by
    have := he p hm
    have := has.2
    omega⟩
  exact ⟨Nat.find hl, fun i ha => not_not.mp (Nat.find_min hl ha), Nat.find_spec hl⟩

end Cnetmod.Coding
