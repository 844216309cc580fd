import Cnetmod.Coding.Slices
import Cnetmod.Quic.Source.CryptoStream

/-!
# Reassembly of CRYPTO frames

What is provided to the TLS library is a part of the stream from its beginning. It is
all that the received frames cover exactly when no frame crosses the point where the
provided part ends.
-/
namespace Cnetmod.Quic

open List Option

open Coding (Bytes SortedMap Piece PieceCovered CoveredUpTo)
open Coding.SortedMap

def CryptoFrame.piece (frame : CryptoFrame) : Piece UInt8 := ⟨frame.offset, frame.data⟩

namespace CryptoReceiver

variable {s : Bytes} {r : CryptoReceiver} {r' : CryptoReceiver} {data : Bytes}

/-- Fragments lead from one offset to the other. -/
inductive Chained (fragments : SortedMap Nat Bytes) (start : Nat) : Nat → Prop where
  | start : Chained fragments start start
  | next {p : Nat} {data : Bytes} (before : Chained fragments start p)
      (here : (p, data) ∈ fragments.records) : Chained fragments start (p + data.length)

/-- A fragment begins before the offset and ends after it. -/
def Crossed (fragments : SortedMap Nat Bytes) (p : Nat) : Prop :=
  ∃ o data, (o, data) ∈ fragments.records ∧ o < p ∧ p < o + data.length

/-- The frame leads to a point that no fragment crosses: it ends before what is provided, begins after
it, or continues it to where other fragments continue or end. -/
def Continues (r : CryptoReceiver) (frame : CryptoFrame) : Prop :=
  frame.data = [] ∨ frame.piece.stop ≤ r.nextOffset ∨ r.nextOffset < frame.offset ∨
    frame.offset = r.nextOffset ∧ ∀ p, Chained r.fragments frame.piece.stop p → Crossed r.fragments p →
      ∃ data, (p, data) ∈ r.fragments.records

variable {p a o : Nat}

lemma Chained.ge (hc : Chained frs n0 p) : n0 ≤ p := by
  induction hc with
  | start => exact le_rfl
  | next _ _ ih => exact le_trans ih (Nat.le_add_right _ _)

lemma Chained.trans (hf : Chained frs a b) (hs : Chained frs b p) : Chained frs a p := by
  induction hs with
  | start => exact hf
  | next _ hh ih => exact .next ih hh

lemma Chained.mono (hf : ∀ o data, (o, data) ∈ frs.records → (o, data) ∈ more.records)
    (hc : Chained frs a p) : Chained more a p := by
  induction hc with
  | start => exact .start
  | next _ hh ih => exact .next ih (hf _ _ hh)

/-- The first fragment of a chain. -/
lemma Chained.head (hc : Chained frs a p) : a = p ∨ ∃ d, (a, d) ∈ frs.records ∧ Chained frs (a + d.length) p := by
  induction hc with
  | start => exact .inl rfl
  | next hb hh ih =>
    rcases ih with rfl | ⟨d, hf, hr⟩
    · exact .inr ⟨_, hh, .start⟩
    · exact .inr ⟨d, hf, .next hr hh⟩

/-- A chain that ends where no fragment begins passes every point that fragments lead to. -/
lemma Chained.through (hc : Chained frs a p) (hl : ∀ d, (p, d) ∉ frs.records) (ho : Chained frs a q) : Chained frs q p := by
  induction ho with
  | start => exact hc
  | next _ hh ih =>
    rcases ih.head with rfl | ⟨d, hf, hr⟩
    · exact absurd hh (hl _)
    · rw [← get_eq_some_iff] at hh hf
      exact some.inj (hf.symm.trans hh) ▸ hr

/-- A chain that begins with a fragment just put there. -/
lemma Chained.of_put (hf : data ≠ []) (hc : Chained (frs.put n data) n p) : p = n ∨ Chained frs (n + data.length) p := by
  induction hc with
  | start => exact .inl rfl
  | @next q o hb hh ih =>
    rcases ih with rfl | hr
    · rcases mem_put.mp hh with ⟨-, rfl⟩ | ⟨ne, -⟩
      · exact .inr .start
      · exact absurd rfl ne
    have he := hr.ge
    have := length_pos_of_ne_nil hf
    rcases mem_put.mp hh with ⟨rfl, -⟩ | ⟨-, old⟩
    · omega
    · exact .inr (.next hr old)

/-- What is provided and what is kept, for the pieces received so far. -/
structure Kept (s : Bytes) (pieces : List (Piece UInt8)) (r : CryptoReceiver) : Prop where
  inside : r.nextOffset ≤ s.length
  provided : r.provided = s.take r.nextOffset
  slices : ∀ o data, (o, data) ∈ r.fragments.records → (⟨o, data⟩ : Piece UInt8).IsSlice s ∧ data ≠ []
  covers : ∀ i, PieceCovered pieces i ↔ i < r.nextOffset ∨
    ∃ o data, (o, data) ∈ r.fragments.records ∧ (⟨o, data⟩ : Piece UInt8).Has i

/-- No fragment is waiting where the provided part ends. -/
def Idle (r : CryptoReceiver) : Prop := r.fragments.get r.nextOffset = none

lemma Idle.not_mem (hi : r.Idle) (d : Bytes) : (r.nextOffset, d) ∉ r.fragments.records := by
  rw [← get_eq_some_iff, hi]
  simp

/-- All that is covered is provided. -/
def Exact (s : Bytes) (pieces : List (Piece UInt8)) (r : CryptoReceiver) : Prop :=
  ∃ k ≤ s.length, r.provided = s.take k ∧ CoveredUpTo pieces k

/-- The state is exact when the first offset that is not provided is not covered. -/
lemma Kept.exact_iff_uncovered (hk : r.Kept s ps) : r.Exact s ps ↔ ¬ PieceCovered ps r.nextOffset := by
  constructor
  · rintro ⟨k, hi, hp, hc⟩
    have hs : k = r.nextOffset := by
      have := congrArg length (hp.symm.trans hk.provided)
      rwa [length_take_of_le hi, length_take_of_le hk.inside] at this
    exact hs ▸ hc.uncovered
  · intro hf
    exact ⟨r.nextOffset, hk.inside, hk.provided, fun i hl => (hk.covers i).mpr (.inl hl), hf⟩

lemma mem_keep (hm : (o, data) ∈ (keep frs f).records) : (o, data) ∈ frs.records ∨ (o, data) = (f.offset, f.data) := by
  unfold keep at hm
  split at hm
  · rcases mem_put.mp hm with ⟨rfl, rfl⟩ | ⟨-, hb⟩
    · exact .inr rfl
    · exact .inl hb
  split at hm
  · rcases mem_put.mp hm with ⟨rfl, rfl⟩ | ⟨-, hb⟩
    · exact .inr rfl
    · exact .inl hb
  · exact .inl hm

/-- What a fragment or the frame covers is covered by a fragment that is kept. -/
lemma covered_keep (hm : (o, data) ∈ frs.records ∨ (o, data) = (f.offset, f.data)) (ha : (⟨o, data⟩ : Piece UInt8).Has i) :
    ∃ o' data', (o', data') ∈ (keep frs f).records ∧ (⟨o', data'⟩ : Piece UInt8).Has i := by
  unfold keep
  split
  next none =>
    refine ⟨o, data, mem_put.mpr ?_, ha⟩
    rcases hm with hb | hs
    · refine .inr ⟨?_, hb⟩
      rintro rfl
      rw [← get_eq_some_iff, none] at hb
      cases hb
    · exact .inl (Prod.mk.inj hs)
  next held hf =>
    have hk := get_eq_some_iff.mp hf
    have only (hb : (o, data) ∈ frs.records) (hs : o = f.offset) : data = held := by
      subst hs
      rw [← get_eq_some_iff, hf, some.injEq] at hb
      exact hb.symm
    unfold Piece.Has Piece.stop at ha
    dsimp only at ha
    split
    next hl =>
      rcases hm with hb | hs
      · by_cases hh : o = f.offset
        · have := only hb hh
          subst this hh
          exact ⟨_, _, mem_put.mpr (.inl ⟨rfl, rfl⟩), ha.1, by dsimp only [Piece.stop]; omega⟩
        · exact ⟨o, data, mem_put.mpr (.inr ⟨hh, hb⟩), ha⟩
      · obtain ⟨rfl, rfl⟩ := Prod.mk.inj hs
        exact ⟨_, _, mem_put.mpr (.inl ⟨rfl, rfl⟩), ha⟩
    next hc =>
      rcases hm with hb | hs
      · exact ⟨o, data, hb, ha⟩
      · obtain ⟨rfl, rfl⟩ := Prod.mk.inj hs
        exact ⟨_, held, hk, ha.1, by dsimp only [Piece.stop]; omega⟩

lemma Kept.keep (hk : r.Kept s ps) (hc : f.piece.IsSlice s) (hf : f.data ≠ []) :
    ({ r with fragments := keep r.fragments f } : CryptoReceiver).Kept s (ps ++ [f.piece]) where
  inside := hk.inside
  provided := hk.provided
  slices o d hm := by
    rcases mem_keep hm with hb | hs
    · exact hk.slices o d hb
    · obtain ⟨rfl, rfl⟩ := Prod.mk.inj hs
      exact ⟨hc, hf⟩
  covers i := by
    rw [Coding.pieceCovered_concat, hk.covers i]
    constructor
    · rintro ((hl | ⟨o, d, hm, ha⟩) | ha)
      · exact .inl hl
      · exact .inr (covered_keep (.inl hm) ha)
      · exact .inr (covered_keep (.inr rfl) ha)
    rintro (hl | ⟨o, d, hm, ha⟩)
    · exact .inl (.inl hl)
    rcases mem_keep hm with old | hs
    · exact .inl (.inr ⟨o, d, old, ha⟩)
    · obtain ⟨rfl, rfl⟩ := Prod.mk.inj hs
      exact .inr ha

lemma Kept.release (hk : r.Kept s ps) (hh : (r.nextOffset, data) ∈ r.fragments.records) : (r.release data).Kept s ps := by
  have hs := (hk.slices _ _ hh).1
  have only {d : Bytes} (ha : (r.nextOffset, d) ∈ r.fragments.records) : d = data := by
    rw [← get_eq_some_iff] at ha hh
    exact some.inj (ha.symm.trans hh)
  refine ⟨hs.stop_le, ?_, fun o d hm => hk.slices o d (mem_delete.mp hm).2, fun i => ?_⟩
  · show r.provided ++ data = _
    rw [hk.provided]
    exact hs.take_append
  rw [hk.covers]
  constructor
  · rintro (hl | ⟨o, d, hm, hb⟩)
    · exact .inl (Nat.lt_add_right _ hl)
    by_cases hsa : o = r.nextOffset
    · subst hsa
      exact .inl (only hm ▸ hb.2)
    · exact .inr ⟨o, d, mem_delete.mpr ⟨hsa, hm⟩, hb⟩
  rintro (hl | ⟨o, d, hm, hb⟩)
  · by_cases low : i < r.nextOffset
    · exact .inl low
    · exact .inr ⟨_, data, hh, Nat.le_of_not_lt low, hl⟩
  · exact .inr ⟨o, d, (mem_delete.mp hm).2, hb⟩

/-- What releasing fragments does: they lead on from where the provided part ended, and only what is
provided by then is taken out. -/
structure Released (r r' : CryptoReceiver) : Prop where
  chained : Chained r.fragments r.nextOffset r'.nextOffset
  fewer : ∀ o data, (o, data) ∈ r'.fragments.records → (o, data) ∈ r.fragments.records
  taken : ∀ o data, (o, data) ∈ r.fragments.records → (o, data) ∈ r'.fragments.records ∨ o + data.length ≤ r'.nextOffset

lemma Released.refl (r : CryptoReceiver) : Released r r := ⟨.start, fun _ _ => id, fun _ _ => .inl⟩

lemma Released.cons (hh : (r.nextOffset, data) ∈ r.fragments.records)
    (hl : Released (r.release data) r') : Released r r' where
  chained := by
    have hr : Chained r.fragments (r.nextOffset + data.length) r'.nextOffset :=
      hl.chained.mono fun o d hm => (mem_delete.mp hm).2
    exact (Chained.next .start hh).trans hr
  fewer o d hm := (mem_delete.mp (hl.fewer o d hm)).2
  taken o d hm := by
    by_cases hs : o = r.nextOffset
    · subst hs
      rw [← get_eq_some_iff] at hm hh
      obtain rfl := some.inj (hm.symm.trans hh)
      exact .inr hl.chained.ge
    · exact hl.taken o d (mem_delete.mpr ⟨hs, hm⟩)

/-- A frame that does not begin where the provided part ends releases nothing. -/
lemma Idle.released_other (hi : r.Idle) (ho : f.offset ≠ r.nextOffset)
    (hr : Released { r with fragments := keep r.fragments f } r') : r'.nextOffset = r.nextOffset := by
  rcases hr.chained.head with hs | ⟨d, hm, -⟩
  · exact hs.symm
  rcases mem_keep hm with hb | hh
  · exact absurd hb (hi.not_mem d)
  · exact absurd (Prod.mk.inj hh).1.symm ho

/-- A frame that begins there leads on to its end, and from there along the fragments. -/
lemma Idle.released_next (ha : r.Idle) (hf : f.data ≠ []) (hb : f.offset = r.nextOffset) (hi : r'.Idle)
    (hl : ∀ o d, (o, d) ∈ r.fragments.records → d ≠ []) (hr : Released { r with fragments := keep r.fragments f } r') :
    Chained r.fragments f.piece.stop r'.nextOffset ∧ ∀ d, (r'.nextOffset, d) ∉ r.fragments.records := by
  have put : keep r.fragments f = r.fragments.put r.nextOffset f.data := by rw [keep, hb, ha]
  have hc := hr.chained
  have ht := hr.taken
  rw [put] at hc ht
  have ho : r'.nextOffset ≠ r.nextOffset := by
    intro he
    have := length_pos_of_ne_nil hf
    rcases ht r.nextOffset f.data (mem_put.mpr (.inl ⟨rfl, rfl⟩)) with hs | done
    · exact hi.not_mem _ (he ▸ hs)
    · omega
  refine ⟨?_, fun d hm => ?_⟩
  · have := (hc.of_put hf).resolve_left ho
    rwa [← hb] at this
  have := length_pos_of_ne_nil (hl _ _ hm)
  rcases ht _ d (mem_put.mpr (.inr ⟨ho, hm⟩)) with hs | done
  · exact hi.not_mem _ hs
  · omega

/-- After an exact state the next is exact when the frame continues it. -/
lemma Kept.exact_after (hk : r.Kept s ps) (hi : r.Idle) (hf : f.data ≠ []) (hq : r'.Kept s (ps ++ [f.piece])) (ht : r'.Idle)
    (hr : Released { r with fragments := CryptoReceiver.keep r.fragments f } r')
    (hu : r.Exact s ps) : r'.Exact s (ps ++ [f.piece]) ↔ r.Continues f := by
  have hp := hk.exact_iff_uncovered.mp hu
  rw [hq.exact_iff_uncovered, Coding.pieceCovered_concat, not_or]
  have hsi := length_pos_of_ne_nil hf
  by_cases hb : f.offset = r.nextOffset
  · obtain ⟨hg, hl⟩ := hi.released_next hf hb ht (fun o d hm => (hk.slices o d hm).2) hr
    have hj := hg.ge
    have haf : r.nextOffset < r'.nextOffset := by
      unfold Piece.stop CryptoFrame.piece at hj
      dsimp only at hj
      omega
    have hv : PieceCovered ps r'.nextOffset ↔ Crossed r.fragments r'.nextOffset := by
      rw [hk.covers]
      constructor
      · rintro (hls | ⟨o, d, hm, hs, hn⟩)
        · omega
        refine ⟨o, d, hm, Nat.lt_of_le_of_ne hs ?_, hn⟩
        rintro rfl
        exact hl d hm
      · rintro ⟨o, d, hm, hs, hn⟩
        exact .inr ⟨o, d, hm, hs.le, hn⟩
    rw [hv]
    constructor
    · rintro ⟨hw, -⟩
      refine .inr (.inr (.inr ⟨hb, fun p hx ha => ?_⟩))
      -- The chain passes `p`: it ends there, or a fragment begins there.
      rcases (hg.through hl hx).head with rfl | ⟨d, hm, -⟩
      · exact absurd ha hw
      · exact ⟨d, hm⟩
    intro hc
    refine ⟨fun ha => ?_, fun hy => absurd hy.2 (not_lt.mpr hj)⟩
    unfold Continues Piece.stop CryptoFrame.piece at hc
    dsimp only at hc
    rcases hc with he | low | hh | ⟨-, hz⟩
    · exact hf he
    · omega
    · omega
    · obtain ⟨d, hm⟩ := hz _ hg ha
      exact hl d hm
  · rw [hi.released_other hb hr]
    show _ ∧ ¬ (f.offset ≤ r.nextOffset ∧ _) ↔ _
    constructor
    · rintro ⟨-, ho⟩
      by_cases low : f.piece.stop ≤ r.nextOffset
      · exact .inr (.inl low)
      · exact .inr (.inr (.inl (by omega)))
    rintro (he | low | hh | ⟨hsa, -⟩)
    · exact absurd he hf
    · exact ⟨hp, by omega⟩
    · exact ⟨hp, by omega⟩
    · exact absurd hsa hb

end CryptoReceiver

namespace CryptoConnection

open CryptoReceiver (Kept Idle Exact Released Continues Crossed Chained)

variable {tls : ProvideQuicData} {lv : EncryptionLevel} {s : Bytes}

/-- The TLS library accepts the stream of a level. -/
def Accepts (tls : ProvideQuicData) (level : EncryptionLevel) (s : Bytes) : Prop :=
  ∀ n data, s.take n ++ data <+: s → tls level (s.take n) data = true

/-- The loop comes to its end: nothing is waiting then. -/
lemma provideContiguous_spec (hb : Accepts tls lv s) (ps : List (Piece UInt8)) (n : Nat)
    (c : CryptoConnection) (hk : (c.receiver lv).Kept s ps) (he : (c.receiver lv).fragments.records.length < n) :
    let c' := provideContiguous tls lv n c
    (c'.receiver lv).Kept s ps ∧ (c'.receiver lv).Idle ∧ Released (c.receiver lv) (c'.receiver lv) ∧ c'.closing = c.closing ∧
      ∀ o, o ≠ lv → c'.receiver o = c.receiver o := by
  induction n generalizing c with
  | zero => omega
  | succ n ih =>
    unfold provideContiguous
    dsimp only
    split
    next none => exact ⟨hk, none, .refl _, rfl, fun _ _ => rfl⟩
    rename_i data hf
    have hh := get_eq_some_iff.mp hf
    have hl := (hk.slices _ _ hh).1
    have ha : tls lv (c.receiver lv).provided data = true := by
      rw [hk.provided]
      refine hb _ _ ?_
      rw [hl.take_append]
      exact take_prefix _ _
    rw [if_neg (by simp [ha])]
    have hs : ((c.receiver lv).release data).fragments.records.length < n := by
      have : ((c.receiver lv).fragments.delete (c.receiver lv).nextOffset).records.length <
          (c.receiver lv).fragments.records.length := by
        refine length_filter_lt_length_iff_exists.mpr ⟨_, hh, by simp⟩
      show ((c.receiver lv).fragments.delete _).records.length < _
      omega
    obtain ⟨hg, hi, hr, hc, ho⟩ := ih
      { c.setReceiver lv ((c.receiver lv).release data) with
        postHandshakeDataPending := c.postHandshakeDataPending || lv = .application }
      (by simpa [setReceiver] using hk.release hh) (by simpa [setReceiver] using hs)
    refine ⟨hg, hi, ?_, hc, fun o ne => (ho o ne).trans (by simp [setReceiver, ne])⟩
    exact .cons hh (by simpa [setReceiver] using hr)

/-- What one frame does: nothing is waiting after it, and the state was exact before and is exact after it
when the frame continues what is there. -/
lemma processCryptoFrame_spec (ha : Accepts tls lv s)
    (hl : f.piece.IsSlice s) (hk : (c.receiver lv).Kept s ps) (hg : (c.receiver lv).Idle) :
    let c' := processCryptoFrame tls lv c f
    (c'.receiver lv).Kept s (ps ++ [f.piece]) ∧ (c'.receiver lv).Idle ∧
      c'.closing = c.closing ∧ (∀ o, o ≠ lv → c'.receiver o = c.receiver o) ∧
      ((c.receiver lv).Exact s ps → ((c'.receiver lv).Exact s (ps ++ [f.piece]) ↔ (c.receiver lv).Continues f)) := by
  unfold processCryptoFrame
  by_cases he : f.data = []
  · rw [if_pos he]
    have hs (i : Nat) : PieceCovered (ps ++ [f.piece]) i ↔ PieceCovered ps i := by
      rw [Coding.pieceCovered_concat]
      refine or_iff_left fun ⟨ht, hen⟩ => ?_
      simp only [Piece.stop, CryptoFrame.piece, he, length_nil] at ht hen
      omega
    have hf : (c.receiver lv).Kept s (ps ++ [f.piece]) :=
      ⟨hk.inside, hk.provided, hk.slices, fun i => (hs i).trans (hk.covers i)⟩
    refine ⟨hf, hg, rfl, fun _ _ => rfl, fun hb => ?_⟩
    rw [hf.exact_iff_uncovered, hs, ← hk.exact_iff_uncovered]
    exact ⟨fun _ => .inl he, fun _ => hb⟩
  · rw [if_neg he]
    have hp := provideContiguous_spec ha (ps ++ [f.piece])
      ((CryptoReceiver.keep (c.receiver lv).fragments f).records.length + 1)
      (c.setReceiver lv { c.receiver lv with
        fragments := CryptoReceiver.keep (c.receiver lv).fragments f })
      (by simpa [setReceiver] using hk.keep hl he) (by simp [setReceiver])
    obtain ⟨hf, hi, hr, hc, ho⟩ := hp
    refine ⟨hf, hi, hc, fun o ne => (ho o ne).trans (by simp [setReceiver, ne]),
      fun hb => hk.exact_after hg he hf hi (by simpa [setReceiver] using hr) hb⟩

/-- CRYPTO frames, each with the level it arrives at. -/
def run (tls : ProvideQuicData) (frames : List (EncryptionLevel × CryptoFrame)) : CryptoConnection :=
  frames.foldl (fun c frame => processCryptoFrame tls frame.1 c frame.2) {}

/-- The pieces received at a level. -/
def received (frames : List (EncryptionLevel × CryptoFrame)) (level : EncryptionLevel) : List (Piece UInt8) :=
  (frames.filter (·.1 = level)).map (·.2.piece)

lemma run_concat (tls : ProvideQuicData) (fs : List (EncryptionLevel × CryptoFrame)) (last : EncryptionLevel × CryptoFrame) :
    run tls (fs ++ [last]) = processCryptoFrame tls last.1 (run tls fs) last.2 := foldl_append

lemma received_concat (fs : List (EncryptionLevel × CryptoFrame)) (last : EncryptionLevel × CryptoFrame)
    (l : EncryptionLevel) : received (fs ++ [last]) l = received fs l ++ if last.1 = l then [last.2.piece] else [] := by
  rw [received, filter_append, map_append]
  congr 1
  split <;> simp_all

variable {streams : EncryptionLevel → Bytes} {frames : List (EncryptionLevel × CryptoFrame)}

/-- In every run what is provided at a level is a part of its stream from the beginning, and nothing waits
where it ends. -/
lemma run_spec (ha : ∀ l, Accepts tls l (streams l)) (hs : ∀ e ∈ fs, e.2.piece.IsSlice (streams e.1)) :
    (run tls fs).closing = false ∧ ∀ l,
      ((run tls fs).receiver l).Kept (streams l) (received fs l) ∧ ((run tls fs).receiver l).Idle := by
  induction fs using reverseRecOn with
  | nil =>
    refine ⟨rfl, fun l => ⟨⟨Nat.zero_le _, rfl, ?_, ?_⟩, rfl⟩⟩
    · simp [run]
    · simp [run, received, PieceCovered]
  | append_singleton fs last ih =>
    obtain ⟨hc, he⟩ := ih fun e hm => hs e (mem_append_left _ hm)
    obtain ⟨hk, hi, hl, ho, -⟩ := processCryptoFrame_spec (ha last.1) (hs last (by simp)) (he last.1).1 (he last.1).2
    rw [run_concat]
    refine ⟨hl.trans hc, fun l => ?_⟩
    rw [received_concat]
    split
    next hb =>
      subst hb
      exact ⟨hk, hi⟩
    next ht =>
      rw [ho l (Ne.symm ht), append_nil]
      exact he l

lemma exact_concat_iff (ha : ∀ lv, Accepts tls lv (streams lv)) (hs : ∀ e ∈ frames ++ [last], e.2.piece.IsSlice (streams e.1))
    (hb : ((run tls frames).receiver lv).Exact (streams lv) (received frames lv)) :
    ((run tls (frames ++ [last])).receiver lv).Exact (streams lv) (received (frames ++ [last]) lv) ↔
      (last.1 = lv → ((run tls frames).receiver lv).Continues last.2) := by
  obtain ⟨-, hf⟩ := run_spec ha fun e hm => hs e (mem_append_left _ hm)
  obtain ⟨-, -, -, ht, he⟩ := processCryptoFrame_spec (ha last.1) (hs last (by simp)) (hf last.1).1 (hf last.1).2
  rw [run_concat, received_concat]
  split
  next hc =>
    subst hc
    rw [he hb]
    exact ⟨fun h _ => h, fun h => h rfl⟩
  next ho =>
    rw [ht lv (Ne.symm ho), append_nil]
    exact ⟨fun _ hc => absurd hc ho, fun _ => hb⟩

end CryptoConnection

open CryptoConnection in
/-- The TLS library is provided with exactly what the frames cover from the beginning, after every frame, when
every frame continues what was there when it arrived. -/
theorem crypto_reassembly_exact_iff (tls : ProvideQuicData) (streams : EncryptionLevel → Bytes)
    (accepts : ∀ level, Accepts tls level (streams level)) (frames : List (EncryptionLevel × CryptoFrame))
    (slices : ∀ entry ∈ frames, entry.2.piece.IsSlice (streams entry.1)) (level : EncryptionLevel) :
    (run tls frames).closing = false ∧
    ((∀ k ≤ frames.length, ((run tls (frames.take k)).receiver level).Exact (streams level) (received (frames.take k) level)) ↔
      ∀ k (inside : k < frames.length), frames[k].1 = level →
        ((run tls (frames.take k)).receiver level).Continues frames[k].2) := by
  refine ⟨(run_spec accepts slices).1, ?_⟩
  have hs (k : Nat) (inside : k < frames.length)
      (hb : ((run tls (frames.take k)).receiver level).Exact (streams level) (received (frames.take k) level)) :
      ((run tls (frames.take (k + 1))).receiver level).Exact (streams level) (received (frames.take (k + 1)) level) ↔
        (frames[k].1 = level → ((run tls (frames.take k)).receiver level).Continues frames[k].2) := by
    rw [take_succ_eq_append_getElem inside]
    refine exact_concat_iff accepts (fun entry hm => slices entry ?_) hb
    rw [← take_succ_eq_append_getElem inside] at hm
    exact mem_of_mem_take hm
  constructor
  · intro all k inside
    exact (hs k inside (all k (Nat.le_of_lt inside))).mp (all (k + 1) inside)
  intro he k
  induction k with
  | zero =>
    intro _
    refine ⟨0, Nat.zero_le _, rfl, fun i hl => absurd hl (Nat.not_lt_zero i), ?_⟩
    simp [received, PieceCovered]
  | succ k ih =>
    intro inside
    exact (hs k inside (ih (Nat.le_of_lt inside))).mpr (he k inside)

/-- Three frames out of order, at two levels. -/
def cryptoReordered : List (EncryptionLevel × CryptoFrame) :=
  [(.handshake, ⟨2, [3, 4]⟩), (.initial, ⟨0, [9]⟩), (.handshake, ⟨0, [1, 2]⟩)]

open CryptoConnection in
/-- All of the three frames is provided. -/
theorem crypto_reassembly_exact_reordered :
    ((run (fun _ _ _ => true) cryptoReordered).receiver .handshake).Exact [1, 2, 3, 4]
      (received cryptoReordered .handshake) := by
  refine ((crypto_reassembly_exact_iff (fun _ _ _ => true)
    (fun lv => if lv = .handshake then [1, 2, 3, 4] else [9]) (fun _ _ _ _ => rfl) cryptoReordered
    ?_ .handshake).2.mpr ?_) 3 (Nat.le_refl _)
  · intro e hm
    simp only [cryptoReordered, mem_cons, not_mem_nil, or_false] at hm
    rcases hm with rfl | rfl | rfl <;> exact ⟨by decide, by decide⟩
  intro k hi hs
  match k with
  | 0 => exact .inr (.inr (.inl (show 0 < 2 by decide)))
  | 1 => cases hs
  | 2 =>
    refine .inr (.inr (.inr ⟨rfl, fun p hl => ?_⟩))
    rintro ⟨o, d, hm, ht, he⟩
    change CryptoReceiver.Chained _ 2 p at hl
    obtain ⟨rfl, rfl⟩ : o = 2 ∧ d = [3, 4] := by
      change (o, d) ∈ [(2, ([3, 4] : Bytes))] at hm
      simpa using hm
    rcases hl.head with rfl | ⟨data', hf, hr⟩
    · exact ⟨[3, 4], mem_singleton_self _⟩
    obtain rfl : data' = [3, 4] := by
      change (2, data') ∈ [(2, ([3, 4] : Bytes))] at hf
      simpa using hf
    have := hr.ge
    omega

open CryptoConnection in
/-- A frame is received again with more data behind it. Its first part was provided before, and the rest never is. -/
theorem crypto_retransmission_not_provided :
    let frames : List (EncryptionLevel × CryptoFrame) :=
      [(.initial, ⟨0, [1, 2]⟩), (.initial, ⟨0, [1, 2, 3, 4]⟩)]
    (∀ entry ∈ frames, entry.2.piece.IsSlice [1, 2, 3, 4]) ∧
      ((run (fun _ _ _ => true) frames).receiver .initial).provided = [1, 2] ∧
      ¬ ((run (fun _ _ _ => true) frames).receiver .initial).Exact [1, 2, 3, 4] (received frames .initial) := by
  refine ⟨?_, rfl, ?_⟩
  · intro entry hm
    simp only [mem_cons, not_mem_nil, or_false] at hm
    rcases hm with rfl | rfl <;> exact ⟨by decide, by decide⟩
  rintro ⟨k, hi, provided, hc⟩
  obtain rfl : k = 2 := by
    have := congrArg List.length provided
    rw [length_take_of_le hi] at this
    exact this.symm
  exact hc.uncovered (by decide)

end Cnetmod.Quic
