import Cnetmod.Coding.Slices
import Cnetmod.Coding.SortedMap

/-!
# Segments kept under their offsets

A map from offsets to the elements there, whose segments do not overlap.
-/
namespace Cnetmod.Coding.SortedMap

variable {α : Type*} {m : SortedMap Nat (List α)} {p : Piece α} {k : Nat} {v : List α}

/-- The values as pieces at the offsets they are kept under. -/
def pieces (m : SortedMap Nat (List α)) : List (Piece α) := m.records.map fun record => ⟨record.1, record.2⟩

structure Segmented (m : SortedMap Nat (List α)) : Prop where
  filled : ∀ p ∈ m.pieces, p.data ≠ []
  apart : ∀ p ∈ m.pieces, ∀ q ∈ m.pieces, p.offset < q.offset → p.stop ≤ q.offset

lemma mem_pieces : p ∈ m.pieces ↔ (p.offset, p.data) ∈ m.records := by
  constructor
  · intro hm
    obtain ⟨r, hi, rfl⟩ := List.mem_map.mp hm
    exact hi
  · exact fun hi => List.mem_map.mpr ⟨_, hi, rfl⟩

lemma mem_pieces_mk {r : Nat × List α} : (⟨r.1, r.2⟩ : Piece α) ∈ m.pieces ↔ r ∈ m.records := mem_pieces

lemma get_eq_some_iff_mem_pieces : m.get k = some v ↔ (⟨k, v⟩ : Piece α) ∈ m.pieces := by
  rw [mem_pieces, get_eq_some_iff]

/-- Of one offset there is one segment. -/
lemma eq_of_mem_pieces {q : Piece α} (hf : p ∈ m.pieces) (hs : q ∈ m.pieces) (ha : p.offset = q.offset) : p = q := by
  obtain ⟨o, d⟩ := p
  subst ha
  rw [← get_eq_some_iff_mem_pieces] at hf hs
  rw [Option.some.inj (hf.symm.trans hs)]

lemma segmented_empty : (empty : SortedMap Nat (List α)).Segmented :=
  ⟨by simp [pieces], by simp [pieces]⟩

/-- No segment reaches into the range. -/
def Free (m : SortedMap Nat (List α)) (k stop : Nat) : Prop := ∀ q ∈ m.pieces, q.stop ≤ k ∨ stop ≤ q.offset

namespace Segmented

variable (segmented : m.Segmented)
include segmented

lemma stop_gt (hm : p ∈ m.pieces) : p.offset < p.stop :=
  Nat.lt_add_of_pos_right (List.length_pos_of_ne_nil (segmented.filled p hm))

lemma get_eq_none (hr : m.Free k (k + v.length)) (hf : v ≠ []) : m.get k = none := by
  by_contra some
  obtain ⟨w, ho⟩ := Option.ne_none_iff_exists'.mp some
  have hm := get_eq_some_iff_mem_pieces.mp ho
  have := segmented.stop_gt hm
  have := List.length_pos_of_ne_nil hf
  rcases hr _ hm with hb | ha
  · dsimp only at *
    omega
  · dsimp only at ha
    omega

lemma mem_pieces_tryEmplace (hr : m.Free k (k + v.length)) (hf : v ≠ []) :
    p ∈ (m.tryEmplace k v).pieces ↔ p = ⟨k, v⟩ ∨ p ∈ m.pieces := by
  have hm := segmented.get_eq_none hr hf
  rw [tryEmplace, hm, Option.isSome_none, if_neg Bool.false_ne_true, mem_pieces, mem_put, mem_pieces]
  constructor
  · rintro (⟨at_, hv⟩ | ⟨-, old⟩)
    · exact .inl (by rw [← at_, ← hv])
    · exact .inr old
  rintro (rfl | old)
  · exact .inl ⟨rfl, rfl⟩
  refine .inr ⟨fun hs => ?_, old⟩
  rw [← get_eq_some_iff, hs, hm] at old
  cases old

lemma tryEmplace (hr : m.Free k (k + v.length)) (hf : v ≠ []) : (m.tryEmplace k v).Segmented where
  filled p hm := by
    rcases (segmented.mem_pieces_tryEmplace hr hf).mp hm with rfl | old
    · exact hf
    · exact segmented.filled p old
  apart p hfi q hs hl := by
    rcases (segmented.mem_pieces_tryEmplace hr hf).mp hfi with rfl | hfi <;>
      rcases (segmented.mem_pieces_tryEmplace hr hf).mp hs with rfl | hs
    · exact absurd hl (lt_irrefl _)
    · rcases hr q hs with hb | ha
      · have := segmented.stop_gt hs
        dsimp only at hl
        omega
      · exact ha
    · rcases hr p hfi with hb | ha
      · exact hb
      · dsimp only at hl
        omega
    · exact segmented.apart p hfi q hs hl

end Segmented

lemma mem_pieces_delete : p ∈ (m.delete k).pieces ↔ p.offset ≠ k ∧ p ∈ m.pieces := by
  rw [mem_pieces, mem_delete, mem_pieces]

lemma Segmented.delete (segmented : m.Segmented) (k : Nat) : (m.delete k).Segmented where
  filled p hm := segmented.filled p (mem_pieces_delete.mp hm).2
  apart p hf q hs := segmented.apart p (mem_pieces_delete.mp hf).2 q (mem_pieces_delete.mp hs).2

end Cnetmod.Coding.SortedMap
