import Mathlib.Data.List.TakeWhile
import Cnetmod.Coding.Segments
import Cnetmod.Quic.Source.Stream

/-!
# The stores of received bytes

The bytes in order as a queue, and what filling the holes of the segments leaves:
segments that do not overlap, hold what they held, and cover the range.
-/
namespace Cnetmod.Quic

open List

open Coding (Bytes SortedMap Piece PieceCovered)

namespace InOrderBytes

variable {b : InOrderBytes} {bytes : Bytes} {n : Nat}

lemma take_overwrite_zero (buf bs : Bytes) : (overwrite buf 0 bs).take bs.length = bs := by simp [overwrite]

lemma unread_compact : b.compact.unread = b.unread := by
  rw [unread, size, compact, endAt_store, beginAt_store, data_store, Nat.sub_zero, drop_zero,
    ← length_unread, take_overwrite_zero]

lemma unread_grow (hm : 0 < b.size + n) : (b.grow n).unread = b.unread := by
  rw [unread, data_grow b n hm]
  change ((overwrite _ 0 b.unread).drop 0).take (b.size - 0) = _
  rw [Nat.sub_zero, drop_zero, ← length_unread, take_overwrite_zero]

lemma unread_makeRoom (hm : 0 < n) : (b.makeRoom n).unread = b.unread := by
  unfold makeRoom
  split
  · rfl
  split
  · exact unread_compact
  · exact unread_grow (by omega)

lemma unread_write (hf : b.endAt + bytes.length ≤ b.data.length) : (b.write bytes hf).unread = b.unread ++ bytes := by
  have ho := b.ordered
  rw [unread, size, write, endAt_store, beginAt_store, data_store, overwrite, append_assoc,
    drop_append_of_le_length (by rw [length_take]; omega), drop_take, ← append_assoc,
    unread, size]
  refine take_left' ?_
  rw [length_append, length_take, length_drop]
  omega

lemma unread_append : (b.append bytes).unread = b.unread ++ bytes := by
  unfold append
  split
  next none => rw [none, append_nil]
  next hf => rw [unread_write, unread_makeRoom (length_pos_of_ne_nil hf)]

lemma unread_consume (hi : n ≤ b.size) : (b.consume n hi).unread = b.unread.drop n := by
  unfold consume
  split
  next all =>
    have done : b.unread.length ≤ n := by
      rw [length_unread, size]
      omega
    rw [drop_eq_nil_of_le done, ← length_eq_zero_iff]
    rfl
  rw [unread, unread, drop_take, drop_drop, size, Nat.sub_add_eq]
  rfl

@[simp] lemma unread_clear : b.clear.unread = [] := rfl

lemma size_eq_zero_iff : b.size = 0 ↔ b.unread = [] := by rw [← length_unread, length_eq_zero_iff]

end InOrderBytes

namespace QuicStream

variable {buf after : SortedMap Nat Bytes} {off cur c : Nat}

/-- The segments left out by `segmentsFrom` come first and end where the range begins. -/
lemma segmentsFrom_spec (hs : buf.Segmented) (o : Nat) :
    ∃ pre, buf.records = pre ++ segmentsFrom buf o ∧ ∀ r ∈ pre, r.1 + r.2.length ≤ o := by
  have hw := takeWhile_append_dropWhile (p := fun r : Nat × Bytes => decide (r.1 < o)) (l := buf.records)
  -- Two segments that follow each other: the first ends before the second begins.
  have ha {a b : List (Nat × Bytes)} (split_ : buf.records = a ++ b) (r : Nat × Bytes) (hf : r ∈ a)
      (q : Nat × Bytes) (hc : q ∈ b) : r.1 + r.2.length ≤ q.1 := by
    refine hs.apart ⟨r.1, r.2⟩ (SortedMap.mem_pieces_mk.mpr ?_) ⟨q.1, q.2⟩ (SortedMap.mem_pieces_mk.mpr ?_) ?_
    · exact split_ ▸ mem_append_left b hf
    · exact split_ ▸ mem_append_right a hc
    · exact (pairwise_append.mp (split_ ▸ buf.sorted)).2.2 r hf q hc
  unfold segmentsFrom
  split
  next prev hl =>
    obtain ⟨pre, split_⟩ := getLast?_eq_some_iff.mp hl
    have hb : prev.1 < o := by
      have := mem_takeWhile_imp (split_ ▸ mem_append_right pre (mem_singleton_self prev))
      simpa using this
    rw [split_, append_assoc] at hw
    have he (r : Nat × Bytes) (hm : r ∈ pre) : r.1 + r.2.length ≤ o :=
      Nat.le_of_lt (lt_of_le_of_lt (ha hw.symm r hm prev mem_cons_self) hb)
    split
    next ho => exact ⟨pre, hw.symm, he⟩
    rename_i hen
    refine ⟨pre ++ [prev], by rw [append_assoc, singleton_append]; exact hw.symm, ?_⟩
    intro r hm
    rcases mem_append.mp hm with hf | hsa
    · exact he r hf
    · rw [mem_singleton.mp hsa]
      exact not_lt.mp hen
  next none =>
    refine ⟨[], ?_, by simp⟩
    rw [getLast?_eq_none_iff.mp none] at hw
    exact hw.symm

/-- A piece of the range. -/
structure PartOf (offset : Nat) (data : Bytes) (p : Piece UInt8) : Prop where
  begins : offset ≤ p.offset
  ends : p.stop ≤ offset + data.length
  bytes : p.data = (data.drop (p.offset - offset)).take p.data.length

/-- What a part of filling holes leaves: the cursor has come to `c`. -/
structure Filled (offset : Nat) (data : Bytes) (cursor c : Nat) (buffer after : SortedMap Nat Bytes) : Prop where
  segmented : after.Segmented
  rises : cursor ≤ c
  kept : ∀ p ∈ buffer.pieces, p ∈ after.pieces
  added : ∀ p ∈ after.pieces, p ∈ buffer.pieces ∨ PartOf offset data p
  covered : ∀ i, cursor ≤ i → i < c → i < offset + data.length → PieceCovered after.pieces i
  free : after.Free c (offset + data.length)

/-- What filling the hole in front of a segment leaves. -/
structure HoleFilled (offset : Nat) (data : Bytes) (cursor stop : Nat) (buffer after : SortedMap Nat Bytes) : Prop where
  segmented : after.Segmented
  kept : ∀ p ∈ buffer.pieces, p ∈ after.pieces
  added : ∀ p ∈ after.pieces, p ∈ buffer.pieces ∨ PartOf offset data p ∧ p.stop = stop
  covered : ∀ i, cursor ≤ i → i < stop → PieceCovered after.pieces i

lemma holeFilled (d : Bytes) (hs : buf.Segmented) (hb : off ≤ cur) (he : stop ≤ off + d.length) (ha : buf.Free cur stop) :
    HoleFilled off d cur stop buf (if cur < stop then buf.tryEmplace cur ((d.drop (cur - off)).take (stop - cur)) else buf) := by
  split
  next hg =>
    generalize hv : (d.drop (cur - off)).take (stop - cur) = v
    have hl : v.length = stop - cur := by
      rw [← hv, length_take, length_drop]
      omega
    have hr : (⟨cur, v⟩ : Piece UInt8).stop = stop := by
      rw [Piece.stop]
      dsimp only
      omega
    have hf : v ≠ [] := ne_nil_of_length_pos (by omega)
    have ha : buf.Free cur (cur + v.length) := by rwa [show cur + v.length = stop from hr]
    have hm (p : Piece UInt8) := hs.mem_pieces_tryEmplace (p := p) ha hf
    refine ⟨hs.tryEmplace ha hf, fun p old => (hm p).mpr (.inr old), ?_, ?_⟩
    · intro p hc
      rcases (hm p).mp hc with rfl | old
      · exact .inr ⟨⟨hb, hr ▸ he, by dsimp only; rw [hl, hv]⟩, hr⟩
      · exact .inl old
    · exact fun i ge lt => ⟨_, (hm _).mpr (.inl rfl), ge, hr.symm ▸ lt⟩
  next => exact ⟨hs, fun _ old => old, fun _ old => .inl old, fun i ge lt => by omega⟩

lemma fillHoles_spec (hs : buf.Segmented) (hj : off ≤ cur) (hc : segs.Pairwise (·.1 < ·.1)) (hg : ∀ r ∈ segs, r ∈ buf.records)
    (ho : ∀ p ∈ buf.pieces, (p.offset, p.data) ∉ segs → p.stop ≤ cur ∨ off + d.length ≤ p.offset)
    (hr : fillHoles off d segs cur buf = (some c, after)) : Filled off d cur c buf after := by
  induction segs generalizing cur buf with
  | nil =>
    cases hr
    exact ⟨hs, le_rfl, fun _ old => old, fun _ old => .inl old, fun i ge lt => by omega, fun p hm => ho p hm not_mem_nil⟩
  | cons seg segs ih =>
    obtain ⟨hd, existing⟩ := seg
    obtain ⟨hl, hc⟩ := pairwise_cons.mp hc
    have hf : (⟨hd, existing⟩ : Piece UInt8) ∈ buf.pieces := SortedMap.mem_pieces.mpr (hg _ mem_cons_self)
    -- The segments still to be met begin with the one in turn.
    have ha (p : Piece UInt8) (hm : p ∈ buf.pieces) : p.stop ≤ cur ∨ off + d.length ≤ p.offset ∨ hd ≤ p.offset := by
      by_cases hi : (p.offset, p.data) ∈ (hd, existing) :: segs
      · rcases mem_cons.mp hi with hsa | hb
        · exact .inr (.inr (le_of_eq (Prod.mk.inj hsa).1.symm))
        · exact .inr (.inr (Nat.le_of_lt (hl _ hb)))
      · exact (ho p hm hi).imp_right .inl
    unfold fillHoles at hr
    dsimp only at hr
    split at hr
    next hi =>
      split at hr
      · cases hr
      rw [min_eq_right hi.le] at hr
      have hh := holeFilled d hs hj hi.le (fun p hm => by
        have := ha p hm
        omega)
      have he := ih hh.segmented (by omega) hc
        (fun r hm => SortedMap.mem_pieces_mk.mp (hh.kept _ (SortedMap.mem_pieces_mk.mpr (hg r (mem_cons_of_mem _ hm)))))
        (fun p hm out => by
          rcases hh.added p hm with old | ⟨-, ht⟩
          · by_cases hsa : p = ⟨hd, existing⟩
            · subst hsa
              exact .inl (le_max_right _ _)
            have := ho p old (fun hi => by
              rcases mem_cons.mp hi with hf | hb
              · obtain ⟨rfl, rfl⟩ := Prod.mk.inj hf
                exact hsa rfl
              · exact out hb)
            omega
          · exact .inl (by omega))
        hr
      refine ⟨he.segmented, by have := he.rises; omega, fun p old => he.kept p (hh.kept p old), ?_, ?_, he.free⟩
      · intro p hm
        rcases he.added p hm with old | hp
        · exact (hh.added p old).imp_right And.left
        · exact .inr hp
      intro i ge hk hw
      by_cases hbe : i < hd
      · obtain ⟨p, hm, hn⟩ := hh.covered i ge hbe
        exact ⟨p, he.kept p hm, hn⟩
      by_cases hin : i < hd + existing.length
      · exact ⟨_, he.kept _ (hh.kept _ hf), not_lt.mp hbe, hin⟩
      · exact he.covered i (by omega) hk hw
    next hy =>
      cases hr
      refine ⟨hs, le_rfl, fun _ old => old, fun _ old => .inl old, fun i ge lt => by omega, ?_⟩
      intro p hm
      have := ha p hm
      omega

/-- Segments of one string do not contradict a range of it. -/
lemma fillHoles_isSome (hl : (⟨off, d⟩ : Piece UInt8).IsSlice s)
    (hs : ∀ r ∈ segs, (⟨r.1, r.2⟩ : Piece UInt8).IsSlice s) (cur : Nat) (buf : SortedMap Nat Bytes) :
    (fillHoles off d segs cur buf).1.isSome := by
  induction segs generalizing cur buf with
  | nil => rfl
  | cons seg segs ih =>
    have hh := hs _ mem_cons_self
    have hr := ih fun r hm => hs r (mem_cons_of_mem _ hm)
    unfold fillHoles
    dsimp only
    split
    next hi =>
      rw [if_neg]
      · exact hr _ _
      rintro ⟨ho, ha⟩
      refine ha ?_
      rw [hl.part_eq, hh.part_eq]
      · dsimp only
        congr 2
        omega
      · dsimp only
        omega
      · dsimp only
        omega
    · rfl

end QuicStream

end Cnetmod.Quic
