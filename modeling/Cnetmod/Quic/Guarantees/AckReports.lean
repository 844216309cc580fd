import Mathlib.Data.List.TakeWhile
import Cnetmod.Quic.Spec.FrameCodec
import Cnetmod.Quic.Spec.Flight

/-!
# ACK frames report what was received

The ranges that are kept, the frame made of them, its bytes and what the other
side reads out of it all stand for one set of packet numbers.
-/
namespace Cnetmod.Quic

open List Option

open Coding (Interval Covered Separated)
open Coding

namespace ReceivedPacketRanges

/-- The ranges are apart, and their numbers are of 64 bits. -/
structure Kept (ranges : List Interval) : Prop where
  separated : Separated ranges
  bounded : ∀ r ∈ ranges, r.high ≤ maxUint64

variable {pre after : List Interval}

/-- An interval put between those that end before it and those that begin after it. -/
lemma Kept.insert (hf : Kept pre)
    (hs : Kept after) (hp : r.low ≤ r.high) (hb : r.high ≤ maxUint64)
    (he : ∀ a ∈ pre, a.high + 1 < r.low) (ha : ∀ b ∈ after, r.high + 1 < b.low) :
    Kept (pre ++ r :: after) where
  separated := Coding.separated_insert hf.separated hs.separated hp he ha
  bounded a hm := by
    rcases mem_append.mp hm with left | right
    · exact hf.bounded a left
    rcases mem_cons.mp right with rfl | right
    · exact hb
    · exact hs.bounded a right

lemma Kept.left (hk : Kept (pre ++ after)) : Kept pre :=
  ⟨hk.separated.left, fun r hm => hk.bounded r (mem_append_left after hm)⟩

lemma Kept.right (hk : Kept (pre ++ after)) : Kept after :=
  ⟨hk.separated.right, fun r hm => hk.bounded r (mem_append_right pre hm)⟩

lemma Kept.tail (hk : Kept (r :: rs)) : Kept rs :=
  ⟨hk.separated.tail, fun b hm => hk.bounded b (mem_cons_of_mem r hm)⟩

section Between

variable {pre after : List Interval} {pn : Nat}

lemma apart_before (hk : Kept pre) (hn : pn ≤ maxUint64) (hl : ∀ r ∈ pre, r.high < pn)
    (ha : pre.getLast?.any (fun p => p.high ≠ maxUint64 ∧ p.high + 1 = pn) = false) : ∀ r ∈ pre, r.high + 1 < pn := by
  rcases pre.eq_nil_or_concat with rfl | ⟨init, p, rfl⟩
  · simp
  rw [concat_eq_append] at *
  have hb := hl p (by simp)
  have ho : p.high + 1 ≠ pn := by
    intro hs
    simp [hs] at ha
    omega
  intro r hm
  rcases mem_append.mp hm with he | hh
  · have := hk.separated.between he (mem_singleton_self p)
    have := hk.separated.proper p (by simp)
    omega
  · obtain rfl := mem_singleton.mp hh
    omega

lemma joined_before (hk : Kept pre) (hj : pre.getLast?.any (fun p => p.high ≠ maxUint64 ∧ p.high + 1 = pn) = true)
    (hl : pre.getLast? = some p) : ∃ init, pre = init ++ [p] ∧ p.high + 1 = pn ∧ ∀ a ∈ init, a.high + 1 < p.low := by
  have split := dropLast_append_getLast? p hl
  refine ⟨_, split.symm, ?_, fun a hm => ?_⟩
  · rw [hl] at hj
    exact (of_decide_eq_true hj).2
  · rw [← split] at hk
    exact hk.separated.between hm (mem_singleton_self p)

lemma beyond_after (hk : Kept after) (hh : ∀ r ∈ after.head?, pn < r.low) : ∀ r ∈ after, pn < r.low := by
  cases after with
  | nil => simp
  | cons next tl =>
    intro r hm
    have he := hh next rfl
    have own := hk.separated.proper next mem_cons_self
    rcases mem_cons.mp hm with rfl | hl
    · exact he
    · have := hk.separated.head_lt hl
      omega

lemma apart_after (hk : Kept after) (hb : ∀ r ∈ after, pn < r.low)
    (ha : after.head?.any (fun next => pn ≠ maxUint64 ∧ pn + 1 = next.low) = false) : ∀ r ∈ after, pn + 1 < r.low := by
  refine beyond_after hk fun r hf => ?_
  have hm := mem_of_mem_head? hf
  have hp := hb r hm
  have own := hk.separated.proper r hm
  have hc := hk.bounded r hm
  have ho : pn + 1 ≠ r.low := by
    intro hs
    rw [mem_def.mp hf] at ha
    simp [hs] at ha
    omega
  omega

/-- The number as a range of its own, or joined to its neighbours. -/
lemma mergeBetween_spec (hk : Kept (pre ++ after)) (hn : pn ≤ maxUint64)
    (hm : ∀ r ∈ pre, r.high < pn) (hh : ∀ r ∈ after.head?, pn ≤ r.high) : Kept (mergeBetween pre after pn) ∧
      ∀ n, Covered (mergeBetween pre after pn) n ↔ n = pn ∨ Covered (pre ++ after) n := by
  unfold mergeBetween
  split
  next hi =>
    refine ⟨hk, fun n => ⟨.inr, ?_⟩⟩
    rintro (rfl | hc)
    · obtain ⟨next, hf, low⟩ := (any_eq_true _ _).mp hi
      exact ⟨next, mem_append_right pre (mem_of_mem_head? hf), by simpa using low, hh next hf⟩
    · exact hc
  next ho =>
    have hb : ∀ r ∈ after, pn < r.low := beyond_after hk.right fun r hf => by
      simpa [mem_def.mp hf] using ho
    dsimp only
    split
    next _ _ _ _ p next tl hj hg he =>
      obtain ⟨init, rfl, hq, ha⟩ := joined_before hk.left hj hg
      have hr : pn + 1 = next.low := by simp at he; exact he.2
      have own := hk.left.separated.proper p (by simp)
      have hw := hk.right.separated.proper next (by simp)
      rw [dropLast_concat]
      refine ⟨hk.left.left.insert hk.right.tail (by simp; omega)
        (hk.right.bounded next (by simp)) ha (fun b hl => hk.right.separated.head_lt hl),
        fun n => ?_⟩
      simp only [covered_append, covered_cons, not_covered_nil, Interval.Has]
      grind
    next _ _ _ _ p hj hg he =>
      obtain ⟨init, rfl, hq, ha⟩ := joined_before hk.left hj hg
      have own := hk.left.separated.proper p (by simp)
      rw [dropLast_concat]
      refine ⟨hk.left.left.insert hk.right (by simp; omega) hn ha (apart_after hk.right hb he), fun n => ?_⟩
      simp only [covered_append, covered_cons, not_covered_nil, Interval.Has]
      grind
    next _ _ _ _ next tl hj he =>
      have hr : pn + 1 = next.low := by simp at he; exact he.2
      have own := hk.right.separated.proper next (by simp)
      refine ⟨hk.left.insert hk.right.tail (by simp; omega)
        (hk.right.bounded next (by simp)) (apart_before hk.left hn hm hj)
        (fun b hl => hk.right.separated.head_lt hl), fun n => ?_⟩
      simp only [covered_append, covered_cons, Interval.Has]
      grind
    next after _ _ _ _ ht hu hv =>
      -- the branches above are all there are unless the number joins no range
      have hp : pre.getLast?.any (fun p => p.high ≠ maxUint64 ∧ p.high + 1 = pn) = false ∧
          after.head?.any (fun next => pn ≠ maxUint64 ∧ pn + 1 = next.low) = false := by
        rcases p : pre.getLast? with _ | previous' <;> rcases after with _ | ⟨next, tl⟩ <;>
          grind
      refine ⟨hk.left.insert hk.right (le_rfl) hn
        (apart_before hk.left hn hm hp.1) (apart_after hk.right hb hp.2), fun n => ?_⟩
      simp only [covered_append, covered_cons, Interval.Has]
      grind

lemma length_mergeBetween_le (pre after : List Interval) (pn : Nat) :
    (mergeBetween pre after pn).length ≤ (pre ++ after).length + 1 := by
  unfold mergeBetween
  split
  · omega
  · dsimp only
    split <;> simp <;> omega

end Between

lemma merge_spec {ranges : List Interval} (hk : Kept ranges)
    (hn : pn ≤ maxUint64) : Kept (merge ranges pn) ∧ ∀ n, Covered (merge ranges pn) n ↔ n = pn ∨ Covered ranges n := by
  have hw : ranges.takeWhile (·.high < pn) ++ ranges.dropWhile (·.high < pn) = ranges := takeWhile_append_dropWhile
  have hp : Kept (ranges.takeWhile (·.high < pn) ++ ranges.dropWhile (·.high < pn)) := by rwa [hw]
  have hs := mergeBetween_spec hp hn
    (fun r hm => by simpa using mem_takeWhile_imp hm) (fun r hf => by
      have := head?_dropWhile_not (fun r : Interval => decide (r.high < pn)) ranges
      rw [mem_def.mp hf] at this
      simpa using this)
  rw [hw] at hs
  exact hs

/-- What recording a number does to the set of those to report: when there is one run too
many, the lowest is dropped. -/
def report (s : Finset Nat) (packetNumber : Nat) : Finset Nat :=
  let s := s ∪ {packetNumber}
  if Coding.runCount s > maximumRanges then Coding.dropLowestRun s else s

lemma insert_spec {got : ReceivedPacketRanges} (hk : Kept got.ranges) (hs : ∀ n, Covered got.ranges n ↔ n ∈ s)
    (hn : pn ≤ maxUint64) : Kept (got.insert pn).ranges ∧ ∀ n, Covered (got.insert pn).ranges n ↔ n ∈ report s pn := by
  obtain ⟨hm, ha⟩ := merge_spec hk hn
  have ho : ∀ n, Covered (merge got.ranges pn) n ↔ n ∈ s ∪ {pn} := by
    intro n
    rw [ha, hs, Finset.mem_union, Finset.mem_singleton, or_comm]
  rw [insert, report, ← hm.separated.length_eq_runCount ho]
  split
  next hc =>
    cases hl : merge got.ranges pn with
    | nil => rw [hl] at hc; exact absurd hc (by decide)
    | cons lowest tl =>
      rw [hl] at hm ho
      exact ⟨hm.tail, fun n => hm.separated.covered_tail_iff ho⟩
  next => exact ⟨hm, ho⟩

lemma length_insert_le {got : ReceivedPacketRanges} (few : got.ranges.length ≤ maximumRanges)
    (pn : Nat) : (got.insert pn).ranges.length ≤ maximumRanges := by
  have hg : (merge got.ranges pn).length ≤ got.ranges.length + 1 := by
    have := length_mergeBetween_le (got.ranges.takeWhile (·.high < pn)) (got.ranges.dropWhile (·.high < pn)) pn
    rwa [takeWhile_append_dropWhile] at this
  rw [insert]
  dsimp only
  split
  · rw [length_tail]
    omega
  · omega

/-- Everything recorded in turn. -/
def record (numbers : List Nat) : ReceivedPacketRanges := numbers.foldl insert {}

/-- Everything to report. -/
def reported (numbers : List Nat) : Finset Nat := numbers.foldl report ∅

/-- Along every run the ranges are those of the set to report. -/
lemma record_spec (hb : ∀ n ∈ ns, n ≤ maxUint64) : Kept (record ns).ranges ∧ (record ns).ranges.length ≤ maximumRanges ∧
      ∀ n, Covered (record ns).ranges n ↔ n ∈ reported ns := by
  induction ns using reverseRecOn with
  | nil => exact ⟨⟨separated_nil, by simp [record]⟩, by decide, by simp [record, reported]⟩
  | append_singleton ns last ih =>
    obtain ⟨hk, few, ha⟩ := ih fun n hm => hb n (mem_append_left _ hm)
    have hs := insert_spec hk ha (hb last (by simp))
    rw [record, reported, foldl_append, foldl_append]
    exact ⟨hs.1, length_insert_le few last, hs.2⟩

lemma record_ne_nil (hf : ns ≠ []) (hb : ∀ n ∈ ns, n ≤ maxUint64) : (record ns).ranges ≠ [] := by
  obtain ⟨pre, last, rfl⟩ := (eq_nil_or_concat ns).resolve_left hf
  rw [concat_eq_append] at hb ⊢
  obtain ⟨hk, -, -⟩ := record_spec fun n ha => hb n (mem_append_left [last] ha)
  have hm : Covered (merge (record pre).ranges last) last := ((merge_spec hk (hb last (by simp))).2 last).mpr (.inl rfl)
  rw [record, foldl_append]
  show (insert (record pre) last).ranges ≠ []
  rw [insert]
  dsimp only
  split
  next hc =>
    intro he
    have := congrArg length he
    rw [length_tail, length_nil] at this
    unfold maximumRanges at hc
    omega
  intro he
  rw [he] at hm
  simp at hm

lemma report_subset (s : Finset Nat) (pn : Nat) : report s pn ⊆ s ∪ {pn} := by
  rw [report]
  split
  · exact Finset.filter_subset _ _
  · exact Finset.Subset.refl _

lemma mem_of_reported (hm : n ∈ reported ns) : n ∈ ns := by
  induction ns using reverseRecOn with
  | nil => simp [reported] at hm
  | append_singleton ns last ih =>
    rw [reported, foldl_append] at hm
    rcases Finset.mem_union.mp (report_subset _ _ hm) with pre | hh
    · exact mem_append_left _ (ih pre)
    · exact mem_append_right _ (by simpa using hh)

/-- As long as there are never too many runs, nothing is dropped. -/
lemma reported_eq (few : ∀ k, Coding.runCount (ns.take k).toFinset ≤ maximumRanges) : reported ns = ns.toFinset := by
  induction ns using reverseRecOn with
  | nil => rfl
  | append_singleton ns last ih =>
    have pre : reported ns = ns.toFinset := by
      refine ih fun k => ?_
      rcases Nat.le_total k ns.length with hs | hl
      · have := few k
        rwa [take_append_of_le_length hs] at this
      · have := few ns.length
        rwa [take_left, ← take_of_length_le hl] at this
    have all : ns.toFinset ∪ {last} = (ns ++ [last]).toFinset := by
      rw [toFinset_append]
      rfl
    have hf := few (ns ++ [last]).length
    rw [take_length] at hf
    rw [reported, foldl_append]
    show report (reported ns) last = _
    rw [pre, report, all]
    exact if_neg (not_lt.mpr hf)

end ReceivedPacketRanges

lemma wrapSub_of_le (le : b ≤ a) (hb : a ≤ maxUint64) : wrapSub a b = a - b := by
  unfold maxUint64 at hb
  unfold wrapSub
  omega

/-- From a range down, the gaps lead back to the ranges. -/
lemma gapsBelow_spec (hs : Separated (p :: lower).reverse) (hb : ∀ r ∈ p :: lower, r.high ≤ maxUint64) :
    validBelow p.low (gapsBelow p lower) = true ∧ rangesBelow p.low (gapsBelow p lower) = lower ∧
      ∀ range ∈ gapsBelow p lower, range.gap ≤ p.high ∧ range.ackRangeLength ≤ p.high := by
  induction lower generalizing p with
  | nil => simp [gapsBelow, validBelow, rangesBelow]
  | cons cur lower ih =>
    rw [reverse_cons] at hs
    have he := ih hs.left fun r hm => hb r (mem_cons_of_mem p hm)
    have ha : cur.high + 1 < p.low := hs.between (by simp) (mem_singleton_self p)
    have own := hs.left.proper cur (by simp)
    have top := hs.right.proper p (by simp)
    have hg := hb p (by simp)
    have gap : wrapSub (wrapSub p.low cur.high) 2 = p.low - cur.high - 2 := by
      rw [wrapSub_of_le (b := cur.high) (by omega) (by omega), wrapSub_of_le (by omega) (by omega)]
    have hl : wrapSub cur.high cur.low = cur.high - cur.low := wrapSub_of_le own (by omega)
    have hh : wrapSub (wrapSub p.low 2) (p.low - cur.high - 2) = cur.high := by
      rw [wrapSub_of_le (b := 2) (by omega) (by omega), wrapSub_of_le (by omega) (by omega)]
      omega
    have low : wrapSub cur.high (cur.high - cur.low) = cur.low := by
      rw [wrapSub_of_le (by omega) (by omega)]
      omega
    have hc : p.low - 2 - (p.low - cur.high - 2) = cur.high := by omega
    have hf : cur.high - (cur.high - cur.low) = cur.low := by omega
    rw [gapsBelow, gap, hl]
    refine ⟨?_, ?_, fun range hm => ?_⟩
    · rw [validBelow, if_neg (by dsimp only; omega)]
      dsimp only
      rw [hc, if_neg (by omega), hf]
      exact he.1
    · rw [rangesBelow]
      rw [hh, low, he.2.1]
    rcases mem_cons.mp hm with rfl | hla
    · exact ⟨by dsimp only; omega, by dsimp only; omega⟩
    · have := he.2.2 range hla
      omega

open ReceivedPacketRanges in
/-- The frame made of ranges that are kept: the other side finds it valid, and reads the
ranges out of it. -/
lemma takeAckFrame_spec (hk : Kept got.ranges) (ha : got.ranges ≠ []) :
    ∃ frame, takeAckFrame got = some frame ∧ validAckRanges frame frame.largestAcked = true ∧
      acknowledgedRanges frame frame.largestAcked = got.ranges.reverse := by
  unfold takeAckFrame
  cases hr : got.ranges.reverse with
  | nil => exact absurd (reverse_eq_nil_iff.mp hr) ha
  | cons hi lower =>
    have hc : (hi :: lower).reverse = got.ranges := by rw [← hr, reverse_reverse]
    have hb : ∀ r ∈ hi :: lower, r.high ≤ maxUint64 := fun r hm => hk.bounded r (by rwa [← mem_reverse, hr])
    have hp := hk.separated.proper hi (by rw [← mem_reverse, hr]; simp)
    have hl := hb hi (by simp)
    obtain ⟨hv, he, -⟩ := gapsBelow_spec (by rw [hc]; exact hk.separated) hb
    have hf : wrapSub hi.high hi.low = hi.high - hi.low := wrapSub_of_le hp hl
    have low : hi.high - (hi.high - hi.low) = hi.low := by omega
    refine ⟨_, rfl, ?_, ?_⟩
    · rw [validAckRanges]
      dsimp only
      rw [hf, if_neg (by omega), low]
      exact hv
    rw [acknowledgedRanges]
    dsimp only
    rw [hf, wrapSub_of_le (by omega) hl, low, he]

open ReceivedPacketRanges in
/-- Numbers that variable-length integers can express make a frame that can be written. -/
lemma encodable_takeAckFrame {f : AckFrame} (hk : Kept got.ranges) (few : got.ranges.length ≤ maximumRanges)
    (hs : ∀ r ∈ got.ranges, r.high ≤ maxVarintValue) (ht : takeAckFrame got = some f) : f.Encodable := by
  unfold takeAckFrame at ht
  cases hr : got.ranges.reverse with
  | nil => rw [hr] at ht; simp at ht
  | cons hi lower =>
    rw [hr] at ht
    obtain rfl := some.inj ht
    have hb : (hi :: lower).reverse = got.ranges := by rw [← hr, reverse_reverse]
    have top : hi ∈ got.ranges := by rw [← mem_reverse, hr]; simp
    obtain ⟨-, -, hg⟩ := gapsBelow_spec (by rw [hb]; exact hk.separated) fun r hm =>
      hk.bounded r (by rwa [← mem_reverse, hr])
    have hp := hk.separated.proper hi top
    have hf := hs hi top
    have hc : (gapsBelow hi lower).length ≤ maxVarintValue := by
      have ho : lower.length + 1 ≤ maximumRanges := by rwa [← hb, length_reverse] at few
      have : (gapsBelow hi lower).length = lower.length := by
        clear * -
        induction lower generalizing hi with
        | nil => rfl
        | cons cur lower ih => rw [gapsBelow, length_cons, ih, length_cons]
      have : maximumRanges ≤ maxVarintValue := by decide
      omega
    refine ⟨hf, Nat.zero_le _, rfl, hc, ?_, fun range hm => ?_, ?_, fun _ => ⟨rfl, rfl, rfl⟩⟩
    · dsimp only
      rw [wrapSub_of_le hp (hk.bounded hi top)]
      omega
    · have := hg range hm
      omega
    · exact ⟨Nat.zero_le _, Nat.zero_le _, Nat.zero_le _⟩

open ReceivedPacketRanges in
/-- Whatever numbers are recorded, the frame is valid, and what it denotes to the other
side, also after it was written and read, is what was recorded without the ranges that were
dropped. Nothing is dropped while there are at most 256 ranges. -/
theorem ack_frame_reports (numbers : List Nat) (filled : numbers ≠ [])
    (bounded : ∀ n ∈ numbers, n ≤ maxUint64) (d : LossDetector) (space : PnSpace) (recvTime : Time)
    (sound : (d.space space).Sound) (sent : (d.space space).hasSentPacket = true)
    (reached : ∀ n ∈ numbers, n ≤ (d.space space).largestSentPacketNumber) :
    ((∀ k, Coding.runCount (numbers.take k).toFinset ≤ maximumRanges) → reported numbers = numbers.toFinset) ∧
    (∀ n ∈ reported numbers, n ∈ numbers) ∧
    ∃ frame, takeAckFrame (record numbers) = some frame ∧
      validAckRanges frame frame.largestAcked = true ∧
      (∀ n, Covered (acknowledgedRanges frame frame.largestAcked) n ↔ n ∈ reported numbers) ∧
      ((∀ n ∈ numbers, n ≤ maxVarintValue) → ∀ rest,
        decodeFrame (encodeAckFrame frame ++ rest) = .ok (.ack frame, rest) ∧
        ∀ pathId < 2 ^ 32, decodeFrame (encodePathAckFrame pathId frame ++ rest) = .ok (.pathAck pathId frame, rest)) ∧
      ∃ d' acked, d.onAckReceived frame frame.largestAcked recvTime space = (d', .ok acked) ∧
        ∀ n, n ∈ acked ↔ n ∈ (d.space space).flying ∧ n ∈ reported numbers := by
  refine ⟨reported_eq, fun n => mem_of_reported, ?_⟩
  obtain ⟨hk, few, hs⟩ := record_spec bounded
  have hj : ∀ r ∈ (record numbers).ranges, r.high ∈ numbers := fun r hm =>
    mem_of_reported ((hs r.high).mp ⟨r, hm, hk.separated.proper r hm, Nat.le_refl _⟩)
  obtain ⟨frame, ht, hv, hr⟩ := takeAckFrame_spec hk (record_ne_nil filled bounded)
  have hg : ∀ n, Covered (acknowledgedRanges frame frame.largestAcked) n ↔ n ∈ reported numbers := by
    intro n
    rw [hr, covered_reverse, hs]
  have hl : frame.largestAcked ∈ numbers := by
    have hf : ⟨wrapSub frame.largestAcked frame.firstAckRange, frame.largestAcked⟩ ∈ (record numbers).ranges := by
      rw [← mem_reverse, ← hr, acknowledgedRanges]
      exact mem_cons_self
    exact hj _ hf
  refine ⟨frame, ht, hv, hg, fun hb rest => ?_, ?_⟩
  · have he := encodable_takeAckFrame hk few (fun r hm => hb _ (hj r hm)) ht
    exact ⟨decodeFrame_encodeAckFrame he rest, fun pathId hp => decodeFrame_encodePathAckFrame hp he rest⟩
  have ha : d.checkAck frame frame.largestAcked space = .ok () := by
    have := reached _ hl
    rw [LossDetector.checkAck, if_neg (by rw [sent]; simpa using this), if_neg (by simp), if_neg (by rw [hv]; simp)]
  rcases LossDetector.onAckReceived_spec sound frame frame.largestAcked recvTime with
    ⟨e, hrf, -⟩ | ⟨d', acked, -, run, -, -, hc⟩
  · rw [ha] at hrf
    simp at hrf
  · exact ⟨d', acked, run, fun n => by rw [hc, hg]⟩

open ReceivedPacketRanges in
/-- Four packets out of order, to a side that has sent ten. -/
theorem ack_frame_reports_reordered :
    ∃ frame, takeAckFrame (record [5, 3, 9, 4]) = some frame ∧
      (∀ n, Covered (acknowledgedRanges frame frame.largestAcked) n ↔ n ∈ [5, 3, 9, 4].toFinset) ∧
      decodeFrame (encodeAckFrame frame ++ []) = .ok (.ack frame, []) := by
  obtain ⟨all, -, frame, ht, -, he, hc, -⟩ :=
    ack_frame_reports [5, 3, 9, 4] (by decide) (by decide)
      (LossDetector.setSpace {} .application { hasSentPacket := true, largestSentPacketNumber := 9 })
      .application 0 ⟨PacketStore.wellFormed_empty, by simp [PacketStore.entries], rfl⟩ rfl (by decide)
  have few : ∀ k, runCount ([5, 3, 9, 4].take k).toFinset ≤ maximumRanges := by
    have hs : ∀ k < 5, runCount ([5, 3, 9, 4].take k).toFinset ≤ maximumRanges := by decide
    intro k
    rcases Nat.lt_or_ge k 5 with hl | hm
    · exact hs k hl
    · rw [take_of_length_le (by simp; omega)]
      exact hs 4 (by decide)
  exact ⟨frame, ht, fun n => by rw [he, all few], (hc (by decide) []).1⟩

/-- Odd numbers that make 258 ranges, from the highest down; a number that joins two of them;
and then 0. -/
def oddThenZero : List Nat := (List.range 258).map (515 - 2 * ·) ++ [6, 0]

open ReceivedPacketRanges in
/-- The two lowest of 258 odd numbers are dropped, and 0 comes when there is room again. It is
reported while 3 is not: what is missing is not the lowest part of what was recorded. -/
theorem ack_frame_drops_above_lowest :
    ∃ frame, takeAckFrame (record oddThenZero) = some frame ∧
      ¬ ∃ lowest, ∀ n, Covered (acknowledgedRanges frame frame.largestAcked) n ↔ n ∈ oddThenZero ∧ lowest ≤ n := by
  have hf : (takeAckFrame (record oddThenZero)).any (fun frame =>
      decide (Covered (acknowledgedRanges frame frame.largestAcked) 0) &&
      !decide (Covered (acknowledgedRanges frame frame.largestAcked) 3)) = true := by decide +kernel
  obtain ⟨frame, ht, hh⟩ := (Option.any_eq_true _ _).mp hf
  rw [Bool.and_eq_true, Bool.not_eq_true', decide_eq_true_iff, decide_eq_false_iff_not] at hh
  refine ⟨frame, ht, fun ⟨lowest, he⟩ => hh.2 ((he 3).mpr ⟨by decide +kernel, ?_⟩)⟩
  exact Nat.le_trans ((he 0).mp hh.1).2 (by decide)

end Cnetmod.Quic
