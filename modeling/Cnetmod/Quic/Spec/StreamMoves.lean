import Cnetmod.Quic.Spec.StreamBuffers

/-!
# What the operations of a stream do

A range that is accepted extends what the stream holds by the range; a read takes
the bytes that follow the consumed ones. Both keep the stores and the counters in
order, and the receive direction ends when all bytes up to the final size are
consumed.
-/
namespace Cnetmod.Quic.QuicStream

open List Option

open Coding (Bytes SortedMap Piece PieceCovered)
open Coding.SortedMap InOrderBytes

/-- The unread bytes, in both stores. -/
def held (st : QuicStream) : List (Piece UInt8) :=
  (if st.inOrder.unread = [] then [] else [⟨st.nextExpectedOffset, st.inOrder.unread⟩]) ++ st.receiveBuffer.pieces

/-- The stores are not used at once, and hold bytes between the consumed ones and the highest. -/
structure Buffered (st : QuicStream) : Prop where
  exclusive : st.inOrder.unread = [] ∨ st.receiveBuffer.records = []
  segmented : st.receiveBuffer.Segmented
  ahead : ∀ p ∈ st.receiveBuffer.pieces, st.nextExpectedOffset ≤ p.offset
  below : ∀ p ∈ st.receiveBuffer.pieces, p.stop ≤ st.highestReceivedOffset
  consumed : st.nextExpectedOffset + st.inOrder.unread.length ≤ st.highestReceivedOffset

variable {st st' : QuicStream} {off size i : Nat} {d s copied : Bytes} {fin : Bool} {p : Piece UInt8}

lemma hasBufferedData_eq_false_iff : st.hasBufferedData = false ↔ st.inOrder.unread = [] ∧ st.receiveBuffer.records = [] := by
  simp [hasBufferedData, size_eq_zero_iff]

lemma held_eq_nil (none : st.hasBufferedData = false) : st.held = [] := by
  obtain ⟨hu, hr⟩ := hasBufferedData_eq_false_iff.mp none
  simp [held, hu, pieces, hr]

lemma held_of_unread_eq_nil (none : st.inOrder.unread = []) : st.held = st.receiveBuffer.pieces := by
  rw [held, if_pos none, nil_append]

lemma held_of_records_eq_nil (some : st.inOrder.unread ≠ []) (none : st.receiveBuffer.records = []) :
    st.held = [⟨st.nextExpectedOffset, st.inOrder.unread⟩] := by
  rw [held, if_neg some, pieces, none, map_nil, append_nil]

namespace Buffered

lemma next_le (b : Buffered st) : st.nextExpectedOffset ≤ st.highestReceivedOffset := by
  have := b.consumed
  omega

lemma held_ahead (b : Buffered st) (hm : p ∈ st.held) : st.nextExpectedOffset ≤ p.offset := by
  rcases mem_append.mp hm with hf | hs
  · split at hf
    · cases hf
    · rw [mem_singleton.mp hf]
  · exact b.ahead p hs

lemma held_below (b : Buffered st) (hm : p ∈ st.held) : p.stop ≤ st.highestReceivedOffset := by
  rcases mem_append.mp hm with hf | hs
  · split at hf
    · cases hf
    · rw [mem_singleton.mp hf]
      exact b.consumed
  · exact b.below p hs

/-- Nothing is held when everything received is consumed. -/
lemma hasBufferedData_eq_false (b : Buffered st) (all : st.nextExpectedOffset = st.highestReceivedOffset) :
    st.hasBufferedData = false := by
  refine hasBufferedData_eq_false_iff.mpr ⟨?_, ?_⟩
  · have := b.consumed
    exact length_eq_zero_iff.mp (by omega)
  refine eq_nil_iff_forall_not_mem.mpr fun r hm => ?_
  have hm := mem_pieces_mk.mpr hm
  have := b.segmented.stop_gt hm
  have := b.ahead _ hm
  have := b.below _ hm
  omega

end Buffered

lemma migrate_unread (st : QuicStream) : st.migrate.inOrder.unread = [] := by
  unfold migrate
  split
  next none => exact size_eq_zero_iff.mp none
  · exact unread_clear

lemma migrate_same (st : QuicStream) : st.migrate.nextExpectedOffset = st.nextExpectedOffset ∧
    st.migrate.highestReceivedOffset = st.highestReceivedOffset ∧ st.migrate.finalSize = st.finalSize ∧
    st.migrate.state = st.state ∧ st.migrate.maxData = st.maxData ∧ st.migrate.receiveAbandoned = st.receiveAbandoned := by
  unfold migrate
  split <;> exact ⟨rfl, rfl, rfl, rfl, rfl, rfl⟩

/-- Migration leaves what is held. -/
lemma Buffered.migrate (b : Buffered st) : st.migrate.receiveBuffer.Segmented ∧
    ∀ p, p ∈ st.migrate.receiveBuffer.pieces ↔ p ∈ st.held := by
  unfold QuicStream.migrate
  split
  next none =>
    rw [held_of_unread_eq_nil (size_eq_zero_iff.mp none)]
    exact ⟨b.segmented, fun p => Iff.rfl⟩
  next some =>
    have some : st.inOrder.unread ≠ [] := fun none => some (size_eq_zero_iff.mpr none)
    have none := b.exclusive.resolve_left some
    have hf (k stop : Nat) : st.receiveBuffer.Free k stop := by simp [SortedMap.Free, pieces, none]
    refine ⟨b.segmented.tryEmplace (hf _ _) some, fun p => ?_⟩
    rw [b.segmented.mem_pieces_tryEmplace (hf _ _) some, held_of_records_eq_nil some none]
    simp [pieces, none]

/-- What is held is extended by a range. -/
structure Extended (st : QuicStream) (offset : Nat) (data : Bytes) (st' : QuicStream) : Prop where
  buffered : Buffered st'
  next : st'.nextExpectedOffset = st.nextExpectedOffset
  highest : st'.highestReceivedOffset = max st.highestReceivedOffset (offset + data.length)
  final : st'.finalSize = st.finalSize
  limit : st'.maxData = st.maxData
  abandoned : st'.receiveAbandoned = st.receiveAbandoned
  covered : ∀ i, st.nextExpectedOffset ≤ i →
    (PieceCovered st'.held i ↔ PieceCovered st.held i ∨ offset ≤ i ∧ i < offset + data.length)
  slices : ∀ s, (∀ p ∈ st.held, p.IsSlice s) → (⟨offset, data⟩ : Piece UInt8).IsSlice s → ∀ p ∈ st'.held, p.IsSlice s

lemma PartOf.isSlice (hp : PartOf off d p) (hs : (⟨off, d⟩ : Piece UInt8).IsSlice s) : p.IsSlice s := by
  have hb := hp.begins
  have he := hp.ends
  unfold Piece.stop at he
  have cut := (hs.drop (p.offset - off) (by dsimp only; omega)).take p.data.length
  rwa [← hp.bytes, Nat.add_sub_cancel' hb] at cut

/-- A range is put among segments. -/
structure Merged (offset : Nat) (data : Bytes) (buffer after : SortedMap Nat Bytes) : Prop where
  segmented : after.Segmented
  kept : ∀ p ∈ buffer.pieces, p ∈ after.pieces
  added : ∀ p ∈ after.pieces, p ∈ buffer.pieces ∨ PartOf offset data p
  covered : ∀ i, offset ≤ i → i < offset + data.length → PieceCovered after.pieces i

lemma merged_range (hs : n0.Segmented) (hr : fillHoles off d (segmentsFrom n0 off) off n0 = (some cur, buf)) :
    Merged off d n0 (if cur < off + d.length then buf.tryEmplace cur (d.drop (cur - off)) else buf) := by
  obtain ⟨pre, split_, he⟩ := segmentsFrom_spec hs off
  have hf := fillHoles_spec hs (Nat.le_refl off)
    (pairwise_append.mp (split_ ▸ n0.sorted)).2.1
    (fun r hm => split_ ▸ mem_append_right pre hm)
    (fun p hm out => .inl (by
      have hi := mem_pieces.mp hm
      rw [split_] at hi
      exact he _ ((mem_append.mp hi).resolve_right out)))
    hr
  have hh := holeFilled d hf.segmented hf.rises (le_rfl) hf.free
  rw [take_of_length_le (by rw [length_drop]; have := hf.rises; omega)] at hh
  refine ⟨hh.segmented, fun p old => hh.kept p (hf.kept p old), ?_, ?_⟩
  · intro p hm
    rcases hh.added p hm with old | ⟨hp, -⟩
    · exact hf.added p old
    · exact .inr hp
  intro i ge hl
  by_cases pre : i < cur
  · obtain ⟨p, hm, ha⟩ := hf.covered i ge pre hl
    exact ⟨p, hh.kept p hm, ha⟩
  · exact hh.covered i (not_lt.mp pre) hl

lemma Extended.withState (he : Extended st off d st') (state : StreamState) : Extended st off d { st' with state } :=
  ⟨⟨he.buffered.1, he.buffered.2, he.buffered.3, he.buffered.4, he.buffered.5⟩, he.2, he.3, he.4, he.5, he.6, he.7, he.8⟩

lemma Extended.markOpen (he : Extended st off d st') : Extended st off d st'.markOpen := by
  unfold QuicStream.markOpen
  split
  · exact he.withState _
  · exact he

lemma Extended.endIfConsumed (he : Extended st off d st') : Extended st off d st'.endIfConsumed := by
  unfold QuicStream.endIfConsumed
  split
  · exact he.withState _
  · exact he

variable {after : SortedMap Nat Bytes} {n : Nat} {seg : Bytes}

lemma extended_merged (b : Buffered st) (hr : st.nextExpectedOffset < off + d.length)
    (hg : Merged (max off st.migrate.nextExpectedOffset)
      (d.drop (st.migrate.nextExpectedOffset - off)) st.migrate.receiveBuffer after) : Extended st off d { st.migrate with
      receiveBuffer := after
      highestReceivedOffset := max st.migrate.highestReceivedOffset (off + d.length) } := by
  obtain ⟨next, hn, hf, -, hl, ha⟩ := migrate_same st
  obtain ⟨ht, hk⟩ := b.migrate
  rw [next] at hg
  rw [hn]
  have none := migrate_unread st
  have hs : max off st.nextExpectedOffset + (d.drop (st.nextExpectedOffset - off)).length = off + d.length := by
    rw [length_drop]
    omega
  -- A segment is an old one or lies in the range, behind the consumed bytes.
  have hc (p : Piece UInt8) (hm : p ∈ after.pieces) : p ∈ st.held ∨
      PartOf (max off st.nextExpectedOffset) (d.drop (st.nextExpectedOffset - off)) p :=
    (hg.added p hm).imp_left (hk p).mp
  have hh : held { st.migrate with
      receiveBuffer := after
      highestReceivedOffset := max st.highestReceivedOffset (off + d.length) } = after.pieces :=
    held_of_unread_eq_nil none
  refine ⟨⟨.inl none, hg.segmented, ?_, ?_, ?_⟩, next, rfl, hf, hl, ha, ?_, ?_⟩
  · intro p hm
    rw [next]
    rcases hc p hm with old | hp
    · exact b.held_ahead old
    · exact le_trans (le_max_right _ _) hp.begins
  · intro p hm
    rcases hc p hm with old | hp
    · exact le_trans (b.held_below old) (le_max_left _ _)
    · exact le_trans (hs ▸ hp.ends) (le_max_right _ _)
  · dsimp only
    rw [none, length_nil]
    omega
  · intro i ge
    rw [hh]
    constructor
    · rintro ⟨p, hm, hj⟩
      rcases hc p hm with old | hp
      · exact .inl ⟨p, old, hj⟩
      have hb := hp.begins
      have he := hp.ends
      have := hj.1
      have := hj.2
      omega
    rintro (⟨p, hm, hj⟩ | ⟨hb, he⟩)
    · exact ⟨p, hg.kept p ((hk p).mpr hm), hj⟩
    · exact hg.covered i (Nat.max_le.mpr ⟨hb, ge⟩) (hs ▸ he)
  · intro s ho hq p hm
    rw [hh] at hm
    rcases hc p hm with old | hp
    · exact ho p old
    refine hp.isSlice ?_
    have cut := hq.drop (st.nextExpectedOffset - off) (by dsimp only; omega)
    rwa [show off + (st.nextExpectedOffset - off) = max off st.nextExpectedOffset by omega] at cut

lemma reassemble_spec (b : Buffered st) (hb : st.nextExpectedOffset < off + d.length)
    (ok : st.reassemble off d = (.ok (), st')) : Extended st off d st' := by
  unfold reassemble at ok
  dsimp only at ok
  split at ok
  · cases ok
  rename_i cursor buffer hr
  have hm := merged_range b.migrate.1 hr
  have hs : max off st.migrate.nextExpectedOffset + (d.drop (st.migrate.nextExpectedOffset - off)).length = off + d.length := by
    rw [length_drop, (migrate_same st).1]
    omega
  rw [hs] at hm
  cases ok
  exact (extended_merged b hb hm).markOpen.endIfConsumed

/-- A range that follows the unread bytes in order. -/
lemma extended_append (b : Buffered st) (none : st.receiveBuffer.records = [])
    (hf : off = st.nextExpectedOffset + st.inOrder.size) (hb : st.nextExpectedOffset < off + d.length) :
    Extended st off d { st with
      inOrder := st.inOrder.append d
      highestReceivedOffset := max st.highestReceivedOffset (off + d.length) } := by
  rw [← length_unread] at hf
  have some : (st.inOrder.append d).unread ≠ [] := by
    rw [unread_append, ← length_pos_iff, length_append]
    omega
  have hn : st.receiveBuffer.pieces = [] := by rw [pieces, none, map_nil]
  have hh : held { st with
      inOrder := st.inOrder.append d
      highestReceivedOffset := max st.highestReceivedOffset (off + d.length) } =
      [⟨st.nextExpectedOffset, st.inOrder.unread ++ d⟩] := by
    refine Eq.trans (held_of_records_eq_nil (by exact some) (by exact none)) ?_
    rw [unread_append]
  have hu (i : Nat) (ge : st.nextExpectedOffset ≤ i) :
      PieceCovered st.held i ↔ i < st.nextExpectedOffset + st.inOrder.unread.length := by
    by_cases he : st.inOrder.unread = []
    · rw [held_of_unread_eq_nil he, hn, he, length_nil]
      simp only [PieceCovered, not_mem_nil, false_and, exists_false, false_iff]
      omega
    rw [held_of_records_eq_nil he none]
    simp only [PieceCovered, mem_singleton, exists_eq_left, Piece.Has, Piece.stop]
    omega
  refine ⟨⟨.inr none, b.segmented, b.ahead, ?_, ?_⟩, rfl, rfl, rfl, rfl, rfl, ?_, ?_⟩
  · intro p hm
    rw [hn] at hm
    cases hm
  · dsimp only
    rw [unread_append, length_append]
    omega
  · intro i ge
    rw [hh, hu i ge]
    simp only [PieceCovered, mem_singleton, exists_eq_left, Piece.Has, Piece.stop, length_append]
    omega
  intro s hl hs p hm
  rw [hh, mem_singleton] at hm
  subst hm
  by_cases he : st.inOrder.unread = []
  · rw [he]
    rw [he, length_nil] at hf
    rwa [hf] at hs
  · have ha := hl _ (held_of_records_eq_nil he none ▸ mem_singleton_self _)
    exact ha.append (hf ▸ hs)

/-- A range of consumed bytes adds nothing. -/
lemma extended_consumed (b : Buffered st) (old : off + d.length ≤ st.nextExpectedOffset) : Extended st off d st := by
  refine ⟨b, rfl, ?_, rfl, rfl, rfl, ?_, fun _ hs _ => hs⟩
  · have := b.next_le
    omega
  intro i ge
  have : ¬ (off ≤ i ∧ i < off + d.length) := by omega
  rw [or_iff_left this]

lemma acceptRange_spec (b : Buffered st) (hl : st.receiveAbandoned = false)
    (ok : st.acceptRange off d fin = (.ok (), st')) : Extended st off d st' := by
  unfold acceptRange at ok
  rw [if_neg (by rw [hl]; exact Bool.false_ne_true)] at ok
  split at ok
  next old =>
    cases ok
    exact (extended_consumed b old).endIfConsumed
  next hb =>
    split at ok
    next hi =>
      cases ok
      exact (extended_append b hi.1 hi.2 (not_le.mp hb)).markOpen
    next => exact reassemble_spec b (not_le.mp hb) ok

lemma remoteEnded_markOpen (st : QuicStream) : st.markOpen.remoteEnded = false := by
  unfold markOpen
  split
  · rfl
  rename_i hi
  rw [remoteEnded, not_not.mp hi]
  rfl

lemma remoteEnded_endIfConsumed (hr : st.remoteEnded = false) : st.endIfConsumed.remoteEnded = true ↔
    st.finalSize = some st.nextExpectedOffset ∧ st.hasBufferedData = false := by
  unfold endIfConsumed
  split
  next hc =>
    refine ⟨fun _ => hc, fun _ => ?_⟩
    split <;> rfl
  next ho => simp only [hr, Bool.false_eq_true, ho]

@[simp] lemma finalSize_endIfConsumed (st : QuicStream) : st.endIfConsumed.finalSize = st.finalSize := by
  unfold endIfConsumed
  split <;> rfl

@[simp] lemma nextExpectedOffset_endIfConsumed (st : QuicStream) :
    st.endIfConsumed.nextExpectedOffset = st.nextExpectedOffset := by
  unfold endIfConsumed
  split <;> rfl

/-- The receive direction ends with the range that leaves nothing to consume. -/
lemma acceptRange_ended (b : Buffered st) (hl : st.receiveAbandoned = false) (hr : st.remoteEnded = false)
    (ha : ∀ f, st.finalSize = some f → max st.highestReceivedOffset (off + d.length) = f)
    (ok : st.acceptRange off d fin = (.ok (), st')) : st'.remoteEnded = true ↔ st.finalSize = some st.nextExpectedOffset := by
  have hg (hb : st.nextExpectedOffset < off + d.length) : st.finalSize ≠ some st.nextExpectedOffset := fun hf => by
    have := ha _ hf
    omega
  unfold acceptRange at ok
  rw [if_neg (by rw [hl]; exact Bool.false_ne_true)] at ok
  split at ok
  next old =>
    cases ok
    rw [remoteEnded_endIfConsumed hr]
    refine ⟨And.left, fun hf => ⟨hf, b.hasBufferedData_eq_false ?_⟩⟩
    have := ha _ hf
    have := b.next_le
    omega
  next hb =>
    have hn := hg (not_le.mp hb)
    split at ok
    next hi =>
      cases ok
      simp only [remoteEnded_markOpen, Bool.false_eq_true, false_iff]
      exact hn
    have he := reassemble_spec b (not_le.mp hb) ok
    unfold reassemble at ok
    dsimp only at ok
    split at ok
    · cases ok
    cases ok
    have hf := he.final
    have next := he.next
    rw [finalSize_endIfConsumed] at hf
    rw [nextExpectedOffset_endIfConsumed] at next
    rw [remoteEnded_endIfConsumed (remoteEnded_markOpen _), hf, next]
    exact iff_of_false (fun hc => hn hc.1) hn

/-- The stores, the counters and the end agree. -/
structure Sound (st : QuicStream) : Prop extends Buffered st where
  limited : st.highestReceivedOffset ≤ st.maxData
  finished : ∀ f, st.finalSize = some f → st.highestReceivedOffset = f
  emptied : st.remoteEnded = true → st.hasBufferedData = false
  dropped : st.receiveAbandoned = true → st.hasBufferedData = false

/-- The range agrees with the end of the stream. -/
def Ends (st : QuicStream) (stop : Nat) (fin : Bool) : Prop :=
  (fin = true → st.highestReceivedOffset ≤ stop) ∧ ∀ f, st.finalSize = some f → stop ≤ f ∧ (fin = true → stop = f)

/-- The stream with the end that a range has brought. -/
def withFinal (st : QuicStream) (stop : Nat) (fin : Bool) : QuicStream :=
  if fin then { st with finalSize := some stop } else st

lemma pushReceived_eq (st : QuicStream) (hw : off + d.length < 2 ^ 64)
    (he : st.Ends (off + d.length) fin) : st.pushReceived off d fin =
      if st.remoteEnded then (if off + d.length ≤ st.nextExpectedOffset then .ok () else .error .finalSizeError, st)
      else if off + d.length ≤ st.maxData then (st.withFinal (off + d.length) fin).acceptRange off d fin
      else (.error .flowControlError, st) := by
  obtain ⟨hb, hf⟩ := he
  have ha : (st.finalSize.any fun f => decide (f < off + d.length) || fin && decide (off + d.length ≠ f)) = false := by
    cases sz : st.finalSize with
    | none => rfl
    | some f =>
      obtain ⟨hi, hs⟩ := hf f sz
      cases fin with
      | false => simpa using hi
      | true => simp [hs rfl]
  have hn : ¬ (fin = true ∧ (st.finalSize.any fun f => decide (f ≠ off + d.length)) = true) := by
    rintro ⟨hc, ho⟩
    obtain ⟨f, sz, hg⟩ := (any_eq_true _ _).mp ho
    exact (of_decide_eq_true hg) ((hf f sz).2 hc).symm
  unfold pushReceived
  rw [if_neg (by omega), if_neg (fun h => by have := hb h.1; omega), ha, if_neg Bool.false_ne_true]
  split
  · rfl
  by_cases hfi : off + d.length ≤ st.maxData
  · rw [if_neg (by omega), if_pos hfi]
    rfl
  · rw [if_pos (by omega), if_neg hfi]

/-- A range is only accepted if it agrees with the end. -/
lemma ends_of_pushReceived (ok : st.pushReceived off d fin = (.ok (), st')) : st.Ends (off + d.length) fin := by
  unfold pushReceived at ok
  dsimp only at ok
  split at ok
  · cases ok
  split at ok
  · cases ok
  rename_i hab
  split at ok
  · cases ok
  rename_i ha
  refine ⟨fun hi => not_lt.mp fun hl => hab ⟨hi, hl⟩, fun f sz => ?_⟩
  rw [sz, any_some, Bool.or_eq_true, not_or] at ha
  refine ⟨by simpa using ha.1, fun hi => ?_⟩
  simpa [hi] using ha.2

/-- What follows from an accepted range: it was one of consumed bytes after the end, or it was taken. -/
lemma pushReceived_cases (ok : st.pushReceived off d fin = (.ok (), st')) :
    st.remoteEnded = true ∧ off + d.length ≤ st.nextExpectedOffset ∧ st' = st ∨
      st.remoteEnded = false ∧ off + d.length ≤ st.maxData ∧
        (st.withFinal (off + d.length) fin).acceptRange off d fin = (.ok (), st') := by
  unfold pushReceived at ok
  dsimp only at ok
  split at ok
  · cases ok
  split at ok
  · cases ok
  split at ok
  · cases ok
  split at ok
  next he =>
    obtain ⟨hf, hs⟩ := Prod.mk.inj ok
    split at hf
    next old => exact .inl ⟨he, old, hs.symm⟩
    · cases hf
  next hr =>
    split at ok
    · cases ok
    split at ok
    · cases ok
    · exact .inr ⟨Bool.not_eq_true _ ▸ hr, by omega, ok⟩

lemma withFinal_same (st : QuicStream) (stop : Nat) (fin : Bool) : let after := st.withFinal stop fin
    after.held = st.held ∧ after.nextExpectedOffset = st.nextExpectedOffset ∧
      after.highestReceivedOffset = st.highestReceivedOffset ∧ after.receiveAbandoned = st.receiveAbandoned ∧
      after.maxData = st.maxData ∧ after.remoteEnded = st.remoteEnded ∧
      after.finalSize = if fin then some stop else st.finalSize := by
  unfold withFinal
  split <;> exact ⟨rfl, rfl, rfl, rfl, rfl, rfl, rfl⟩

lemma Buffered.withFinal (b : Buffered st) (stop : Nat) (fin : Bool) : Buffered (st.withFinal stop fin) := by
  unfold QuicStream.withFinal
  split
  · exact ⟨b.1, b.2, b.3, b.4, b.5⟩
  · exact b

/-- The highest offset is the final size once the range with the end is there. -/
lemma Ends.highest (he : st.Ends stop fin) (ha : ∀ f, st.finalSize = some f → st.highestReceivedOffset = f)
    (hf : (if fin then some stop else st.finalSize) = some f) : max st.highestReceivedOffset stop = f := by
  cases fin with
  | true =>
    have := he.1 rfl
    have := some.inj hf
    omega
  | false =>
    have := he.2 f hf
    have := ha f hf
    omega

/-- A range is received by a stream whose data is wanted. -/
structure Pushed (st : QuicStream) (offset : Nat) (data : Bytes) (fin : Bool) (st' : QuicStream) : Prop where
  sound : Sound st'
  next : st'.nextExpectedOffset = st.nextExpectedOffset
  highest : st'.highestReceivedOffset = max st.highestReceivedOffset (offset + data.length)
  limit : st'.maxData = st.maxData
  live : st'.receiveAbandoned = false
  covered : ∀ i, st.nextExpectedOffset ≤ i →
    (PieceCovered st'.held i ↔ PieceCovered st.held i ∨ offset ≤ i ∧ i < offset + data.length)
  slices : ∀ s, (∀ p ∈ st.held, p.IsSlice s) → (⟨offset, data⟩ : Piece UInt8).IsSlice s → ∀ p ∈ st'.held, p.IsSlice s
  frozen : st.remoteEnded = true → st' = st
  final : st.remoteEnded = false → st'.finalSize = if fin then some (offset + data.length) else st.finalSize
  ended : st.remoteEnded = false → (st'.remoteEnded = true ↔ st'.finalSize = some st'.nextExpectedOffset)

lemma pushReceived_spec (hs : Sound st) (hl : st.receiveAbandoned = false)
    (ok : st.pushReceived off d fin = (.ok (), st')) : Pushed st off d fin st' := by
  rcases pushReceived_cases ok with ⟨hn, old, rfl⟩ | ⟨hr, ht, hc⟩
  · have he := extended_consumed hs.toBuffered old
    exact ⟨hs, rfl, he.highest, rfl, hl, he.covered, he.slices, fun _ => rfl,
      fun hr => absurd (hr.symm.trans hn) Bool.false_ne_true,
      fun hr => absurd (hr.symm.trans hn) Bool.false_ne_true⟩
  have hb := ends_of_pushReceived ok
  obtain ⟨hj, next, hh, ha, hk, ho, hf⟩ := withFinal_same st (off + d.length) fin
  have b := hs.toBuffered.withFinal (off + d.length) fin
  have he := acceptRange_spec b (ha.trans hl) hc
  have hn := acceptRange_ended b (ha.trans hl) (ho.trans hr) (fun f sz => by
    rw [hh]
    exact hb.highest hs.finished (hf ▸ sz)) hc
  rw [← he.final, ← he.next] at hn
  have hf := he.final.trans hf
  have top := he.highest
  rw [hh] at top
  have hm (f : Nat) (sz : st'.finalSize = some f) : st'.highestReceivedOffset = f :=
    top.trans (hb.highest hs.finished (hf ▸ sz))
  refine ⟨⟨he.buffered, ?_, hm, ?_, ?_⟩, he.next.trans next, top, he.limit.trans hk,
    (he.abandoned.trans ha).trans hl, ?_, ?_, ?_, fun _ => hf, fun _ => hn⟩
  · rw [top, he.limit, hk]
    exact Nat.max_le.mpr ⟨hs.limited, ht⟩
  · exact fun hi => he.buffered.hasBufferedData_eq_false (hm _ (hn.mp hi)).symm
  · intro hg
    rw [he.abandoned, ha, hl] at hg
    cases hg
  · rw [← hj, ← next]
    exact he.covered
  · rw [← hj]
    exact he.slices
  · exact fun hi => absurd (hr.symm.trans hi) Bool.false_ne_true

/-- A range of the string whose parts the stream holds is taken. -/
lemma acceptRange_isOk (b : Buffered st) (hl : st.receiveAbandoned = false)
    (hb : ∀ p ∈ st.held, p.IsSlice s) (he : (⟨off, d⟩ : Piece UInt8).IsSlice s) :
    ∃ st', st.acceptRange off d fin = (.ok (), st') := by
  unfold acceptRange
  rw [if_neg (by rw [hl]; exact Bool.false_ne_true)]
  split
  · exact ⟨_, rfl⟩
  split
  · exact ⟨_, rfl⟩
  unfold reassemble
  dsimp only
  split
  next hc =>
    obtain ⟨next, -⟩ := migrate_same st
    obtain ⟨hs, hf⟩ := b.migrate
    obtain ⟨pre, split_, -⟩ := segmentsFrom_spec hs (max off st.migrate.nextExpectedOffset)
    have cut := he.drop (st.migrate.nextExpectedOffset - off) (by rw [next]; dsimp only; omega)
    rw [show off + (st.migrate.nextExpectedOffset - off) = max off st.migrate.nextExpectedOffset by omega] at cut
    have ha := fillHoles_isSome cut (fun r hm => hb _ ((hf _).mp (mem_pieces_mk.mpr
      (split_ ▸ mem_append_right pre hm)))) (max off st.migrate.nextExpectedOffset)
      st.migrate.receiveBuffer
    rw [hc] at ha
    cases ha
  · exact ⟨_, rfl⟩

/-- Bytes that follow the consumed ones are taken. -/
structure Advanced (st : QuicStream) (copied : Bytes) (st' : QuicStream) : Prop where
  buffered : Buffered st'
  next : st'.nextExpectedOffset = st.nextExpectedOffset + copied.length
  highest : st'.highestReceivedOffset = st.highestReceivedOffset
  final : st'.finalSize = st.finalSize
  limit : st'.maxData = st.maxData
  abandoned : st'.receiveAbandoned = st.receiveAbandoned
  covered : ∀ i, st'.nextExpectedOffset ≤ i → (PieceCovered st'.held i ↔ PieceCovered st.held i)
  taken : ∀ i, st.nextExpectedOffset ≤ i → i < st'.nextExpectedOffset → PieceCovered st.held i
  slices : ∀ s, st.nextExpectedOffset ≤ s.length → (∀ p ∈ st.held, p.IsSlice s) →
    (⟨st.nextExpectedOffset, copied⟩ : Piece UInt8).IsSlice s ∧ ∀ p ∈ st'.held, p.IsSlice s

lemma Advanced.refl (b : Buffered st) : Advanced st [] st :=
  ⟨b, rfl, rfl, rfl, rfl, rfl, fun _ _ => Iff.rfl, fun i ge hl => by omega, fun _ hi hs => ⟨⟨hi, nil_prefix⟩, hs⟩⟩

lemma Advanced.trans (a : Advanced st hd mid)
    (b : Advanced mid second st') : Advanced st (hd ++ second) st' where
  buffered := b.buffered
  next := by rw [b.next, a.next, length_append, add_assoc]
  highest := b.highest.trans a.highest
  final := b.final.trans a.final
  limit := b.limit.trans a.limit
  abandoned := b.abandoned.trans a.abandoned
  covered i ge := (b.covered i ge).trans (a.covered i (by have := b.next; omega))
  taken i ge hl := by
    by_cases hb : i < mid.nextExpectedOffset
    · exact a.taken i ge hb
    · exact (a.covered i (not_lt.mp hb)).mp (b.taken i (not_lt.mp hb) hl)
  slices s hi hs := by
    obtain ⟨one, hr⟩ := a.slices s hi hs
    obtain ⟨two, hr⟩ := b.slices s (by rw [a.next]; exact one.stop_le) hr
    exact ⟨one.append (a.next ▸ two), hr⟩

/-- Part of the unread bytes in order. -/
lemma advanced_inOrder (b : Buffered st) (some : st.inOrder.size ≠ 0) (hi : n ≤ st.inOrder.size) :
    Advanced st (st.inOrder.unread.take n) { st with
      inOrder := st.inOrder.consume n hi
      nextExpectedOffset := st.nextExpectedOffset + n } := by
  have hl := st.inOrder.length_unread
  have cp : (st.inOrder.unread.take n).length = n := by
    rw [length_take]
    omega
  have some : st.inOrder.unread ≠ [] := fun none => some (size_eq_zero_iff.mpr none)
  have none := b.exclusive.resolve_left some
  have hn : st.receiveBuffer.pieces = [] := by rw [pieces, none, map_nil]
  have hb := held_of_records_eq_nil some none
  have ha (p : Piece UInt8) (hm : p ∈ held { st with
      inOrder := st.inOrder.consume n hi
      nextExpectedOffset := st.nextExpectedOffset + n }) :
      p = ⟨st.nextExpectedOffset + n, st.inOrder.unread.drop n⟩ := by
    rcases mem_append.mp hm with hf | hs
    · split at hf
      · cases hf
      · rw [mem_singleton.mp hf, unread_consume]
    · rw [hn] at hs
      cases hs
  refine ⟨⟨.inr none, b.segmented, ?_, b.below, ?_⟩, by rw [cp], rfl, rfl, rfl, rfl, ?_, ?_, ?_⟩
  · intro p hm
    rw [hn] at hm
    cases hm
  · have := b.consumed
    dsimp only
    rw [unread_consume, length_drop]
    omega
  · intro i ge
    dsimp only at ge
    rw [hb]
    constructor
    · rintro ⟨p, hm, hc⟩
      have := ha p hm
      subst this
      simp only [Piece.Has, Piece.stop, length_drop] at hc
      refine ⟨_, mem_singleton_self _, ?_⟩
      simp only [Piece.Has, Piece.stop]
      omega
    rintro ⟨p, hm, hc⟩
    rw [mem_singleton] at hm
    subst hm
    simp only [Piece.Has, Piece.stop] at hc
    have left : (st.inOrder.consume n hi).unread ≠ [] := by
      rw [unread_consume, ← length_pos_iff, length_drop]
      omega
    refine ⟨_, by rw [held_of_records_eq_nil (by exact left) (by exact none)]; exact mem_singleton_self _, ?_⟩
    simp only [Piece.Has, Piece.stop, unread_consume, length_drop]
    omega
  · intro i ge hg
    dsimp only at hg
    rw [hb]
    refine ⟨_, mem_singleton_self _, ?_⟩
    simp only [Piece.Has, Piece.stop]
    omega
  · intro s _ hj
    have he := hj _ (hb ▸ mem_singleton_self _)
    refine ⟨he.take n, fun p hm => ?_⟩
    rw [ha p hm]
    exact he.drop n (by dsimp only; omega)

/-- The segment at the consumed bytes, or its first part; the rest of it stays. -/
lemma advanced_segment (b : Buffered st) (none : st.inOrder.unread = []) (hf : (⟨st.nextExpectedOffset, seg⟩ : Piece UInt8) ∈ st.receiveBuffer.pieces) (hi : n ≤ seg.length) (hs : after.Segmented)
    (he : ∀ p, p ∈ after.pieces ↔ p.offset ≠ st.nextExpectedOffset ∧ p ∈ st.receiveBuffer.pieces ∨
      n < seg.length ∧ p = ⟨st.nextExpectedOffset + n, seg.drop n⟩) : Advanced st (seg.take n) { st with
      receiveBuffer := after, nextExpectedOffset := st.nextExpectedOffset + n } := by
  have cp : (seg.take n).length = n := by
    rw [length_take]
    omega
  -- The other segments lie behind it.
  have hk (p : Piece UInt8) (ho : p.offset ≠ st.nextExpectedOffset) (hm : p ∈ st.receiveBuffer.pieces) :
      st.nextExpectedOffset + seg.length ≤ p.offset :=
    b.segmented.apart _ hf p hm (Nat.lt_of_le_of_ne (b.ahead p hm) ho.symm)
  have hb := held_of_unread_eq_nil none
  have hh : held { st with
      receiveBuffer := after, nextExpectedOffset := st.nextExpectedOffset + n } = after.pieces :=
    held_of_unread_eq_nil (by exact none)
  have hc := b.below _ hf
  unfold Piece.stop at hc
  dsimp only at hc
  refine ⟨⟨.inl none, hs, ?_, ?_, ?_⟩, by rw [cp], rfl, rfl, rfl, rfl, ?_, ?_, ?_⟩
  · intro p hm
    dsimp only
    rcases (he p).mp hm with ⟨ho, old⟩ | ⟨-, rfl⟩
    · have := hk p ho old
      omega
    · exact le_rfl
  · intro p hm
    rcases (he p).mp hm with ⟨ho, old⟩ | ⟨-, rfl⟩
    · exact b.below p old
    rw [Piece.stop, length_drop]
    dsimp only
    omega
  · dsimp only
    rw [none, length_nil]
    omega
  · intro i ge
    dsimp only at ge
    rw [hh, hb]
    constructor
    · rintro ⟨p, hm, ha⟩
      rcases (he p).mp hm with ⟨-, old⟩ | ⟨-, rfl⟩
      · exact ⟨p, old, ha⟩
      refine ⟨_, hf, ?_⟩
      simp only [Piece.Has, Piece.stop, length_drop] at ha ⊢
      omega
    rintro ⟨p, hm, ha⟩
    by_cases ho : p.offset = st.nextExpectedOffset
    · have hn := eq_of_mem_pieces hm hf ho
      subst hn
      simp only [Piece.Has, Piece.stop] at ha
      refine ⟨_, (he _).mpr (.inr ⟨by omega, rfl⟩), ?_⟩
      simp only [Piece.Has, Piece.stop, length_drop]
      omega
    · exact ⟨p, (he p).mpr (.inl ⟨ho, hm⟩), ha⟩
  · intro i ge hl
    dsimp only at hl
    rw [hb]
    refine ⟨_, hf, ?_⟩
    simp only [Piece.Has, Piece.stop]
    omega
  · intro s _ hg
    have hj := hg _ (hb ▸ hf)
    refine ⟨hj.take n, fun p hm => ?_⟩
    rw [hh] at hm
    rcases (he p).mp hm with ⟨-, old⟩ | ⟨-, rfl⟩
    · exact hg p (hb ▸ old)
    · exact hj.drop n hi

/-- The segments without the first part of the one at the consumed bytes. The rest of it has a place. -/
lemma takeFront_spec (b : Buffered st) (hc : (⟨st.nextExpectedOffset, seg⟩ : Piece UInt8) ∈ st.receiveBuffer.pieces)
    (ht : n = min room seg.length) :
    ∃ after, takeFront st.receiveBuffer st.nextExpectedOffset seg n = some after ∧ after.Segmented ∧
      (∀ p, p ∈ after.pieces ↔ p.offset ≠ st.nextExpectedOffset ∧ p ∈ st.receiveBuffer.pieces ∨
        n < seg.length ∧ p = ⟨st.nextExpectedOffset + n, seg.drop n⟩) ∧
      (after.records.length < st.receiveBuffer.records.length ∨ room - n = 0) := by
  have hr := b.segmented.delete st.nextExpectedOffset
  by_cases hw : n = seg.length
  · refine ⟨_, if_pos hw, hr, fun p => ?_, .inl ?_⟩
    · rw [mem_pieces_delete, or_iff_left fun hp => absurd hw (ne_of_lt hp.1)]
    · exact length_filter_lt_length_iff_exists.mpr ⟨_, mem_pieces.mp hc, by simp⟩
  have hp : n < seg.length := by omega
  have hf : seg.drop n ≠ [] := by
    rw [← length_pos_iff, length_drop]
    omega
  have ha : (st.receiveBuffer.delete st.nextExpectedOffset).Free (st.nextExpectedOffset + n)
      (st.nextExpectedOffset + n + (seg.drop n).length) := by
    intro p hg
    obtain ⟨ho, old⟩ := mem_pieces_delete.mp hg
    have hb := b.segmented.apart _ hc p old (Nat.lt_of_le_of_ne (b.ahead p old) ho.symm)
    unfold Piece.stop at hb
    dsimp only at hb
    rw [length_drop]
    omega
  have hm := hr.get_eq_none ha hf
  have he : (st.receiveBuffer.delete st.nextExpectedOffset).put (st.nextExpectedOffset + n)
      (seg.drop n) = (st.receiveBuffer.delete st.nextExpectedOffset).tryEmplace (st.nextExpectedOffset + n) (seg.drop n) := by
    rw [tryEmplace, hm, isSome_none, if_neg Bool.false_ne_true]
  refine ⟨_, by rw [takeFront, if_neg hw, hm, isSome_none, if_neg Bool.false_ne_true], ?_, fun p => ?_,
    .inr (by omega)⟩
  · rw [he]
    exact hr.tryEmplace ha hf
  · rw [he, hr.mem_pieces_tryEmplace ha hf, mem_pieces_delete, or_comm, and_iff_right hp]

lemma deliverSegments_spec (n room : Nat) (b : Buffered st) (none : st.inOrder.unread = [])
    (he : st.receiveBuffer.records.length < n ∨ room = 0) :
    ∃ cp st', deliverSegments n room st = some (cp, st') ∧ Advanced st cp st' ∧ st'.state = st.state ∧
      cp.length ≤ room ∧ (cp.length = room ∨ ¬ PieceCovered st'.held st'.nextExpectedOffset) := by
  induction n generalizing st room with
  | zero =>
    have : room = 0 := by omega
    exact ⟨[], st, rfl, .refl b, rfl, Nat.zero_le _, .inl this.symm⟩
  | succ n ih =>
    unfold deliverSegments
    split
    next hu => exact ⟨[], st, rfl, .refl b, rfl, Nat.zero_le _, .inl hu.symm⟩
    split
    next hb =>
      refine ⟨[], st, rfl, .refl b, rfl, Nat.zero_le _, .inr ?_⟩
      rintro ⟨p, hm, hg⟩
      rw [held_of_unread_eq_nil none] at hm
      have at_ : p.offset = st.nextExpectedOffset := le_antisymm hg.1 (b.ahead p hm)
      have hf := get_eq_some_iff_mem_pieces.mpr hm
      rw [at_, hb] at hf
      cases hf
    next seg hf =>
      have ha := get_eq_some_iff_mem_pieces.mp hf
      obtain ⟨after, hc, hs, hj, hl⟩ := takeFront_spec b ha (Eq.refl (min room seg.length))
      have ht := advanced_segment b none ha (Nat.min_le_right room seg.length) hs hj
      obtain ⟨cp, st', ran, hr, hk, hn, all⟩ := ih (room - min room seg.length) ht.buffered none (by dsimp only; omega)
      refine ⟨seg.take (min room seg.length) ++ cp, st', ?_, ht.trans hr, hk, ?_, ?_⟩
      · dsimp only
        rw [hc, bind_eq_bind, bind_some, ran]
        rfl
      · rw [length_append, length_take]
        omega
      · rw [length_append, length_take]
        exact all.imp_left fun _ => by omega

lemma deliverContiguousData_spec (sz : Nat) (b : Buffered st) :
    ∃ copied st', st.deliverContiguousData sz = some (copied, st') ∧ Advanced st copied st' ∧ st'.state = st.state ∧
      copied.length ≤ sz ∧ (copied.length = sz ∨ ¬ PieceCovered st'.held st'.nextExpectedOffset) := by
  unfold deliverContiguousData
  split
  next hs =>
    have hl := st.inOrder.length_unread
    have ha := advanced_inOrder b hs (Nat.min_le_right sz st.inOrder.size)
    refine ⟨_, _, rfl, ha, rfl, by rw [length_take]; omega, ?_⟩
    by_cases hsh : sz ≤ st.inOrder.size
    · exact .inl (by rw [length_take]; omega)
    refine .inr ?_
    have none := b.exclusive.resolve_left fun none => hs (size_eq_zero_iff.mpr none)
    rw [held_eq_nil]
    · simp [PieceCovered]
    refine hasBufferedData_eq_false_iff.mpr ⟨?_, none⟩
    rw [unread_consume]
    exact drop_eq_nil_of_le (by omega)
  next none =>
    exact deliverSegments_spec _ sz b (size_eq_zero_iff.mp (not_not.mp none)) (.inl (Nat.lt_succ_self _))

/-- A read from a stream whose data is wanted. -/
structure Read (st : QuicStream) (size : Nat) (copied : Bytes) (st' : QuicStream) : Prop extends
    Advanced st copied st' where
  sound : Sound st'
  fits : copied.length ≤ size
  all : copied.length = size ∨ ¬ PieceCovered st'.held st'.nextExpectedOffset
  ended : st'.remoteEnded = true → st.remoteEnded = true ∨ st'.finalSize = some st'.nextExpectedOffset
  ends : st'.finalSize = some st'.nextExpectedOffset → st'.remoteEnded = true ∨ st' = st

lemma Read.nothing (hs : Sound st) (none : st.hasBufferedData = false) : Read st size [] st where
  toAdvanced := .refl hs.toBuffered
  sound := hs
  fits := Nat.zero_le _
  all := .inr (by rw [held_eq_nil none]; simp [PieceCovered])
  ended := .inl
  ends _ := .inr rfl

lemma Advanced.withState (ha : Advanced st copied st') (state : StreamState) : Advanced st copied { st' with state } :=
  ⟨⟨ha.buffered.1, ha.buffered.2, ha.buffered.3, ha.buffered.4, ha.buffered.5⟩, ha.2, ha.3, ha.4, ha.5, ha.6, ha.7, ha.8, ha.9⟩

lemma held_endIfConsumed (st : QuicStream) : st.endIfConsumed.held = st.held := by
  unfold endIfConsumed
  split <;> rfl

lemma hasBufferedData_endIfConsumed (st : QuicStream) : st.endIfConsumed.hasBufferedData = st.hasBufferedData := by
  unfold endIfConsumed
  split <;> rfl

lemma Advanced.endIfConsumed (ha : Advanced st copied st') : Advanced st copied st'.endIfConsumed := by
  unfold QuicStream.endIfConsumed
  split
  · exact ha.withState _
  · exact ha

/-- A read of a running stream that holds data. -/
lemma Advanced.read (hs : Sound st) (hl : st.receiveAbandoned = false)
    (hr : st.remoteEnded = false) (hm : Advanced st copied mid) (ht : mid.state = st.state)
    (hb : copied.length ≤ sz) (all : copied.length = sz ∨ ¬ PieceCovered mid.held mid.nextExpectedOffset) :
    Read st sz copied mid.endIfConsumed := by
  have ha := hm.endIfConsumed
  have he := remoteEnded_endIfConsumed (show mid.remoteEnded = false by rwa [remoteEnded, ht])
  have hf (f : Nat) (sz : mid.endIfConsumed.finalSize = some f) : mid.endIfConsumed.highestReceivedOffset = f := by
    rw [ha.highest]
    exact hs.finished f (ha.final ▸ sz)
  refine ⟨ha, ⟨ha.buffered, ?_, hf, ?_, ?_⟩, hb, ?_, ?_, ?_⟩
  · rw [ha.highest, ha.limit]
    exact hs.limited
  · intro hn
    rw [hasBufferedData_endIfConsumed]
    exact (he.mp hn).2
  · intro hg
    rw [ha.abandoned, hl] at hg
    cases hg
  · rwa [nextExpectedOffset_endIfConsumed, held_endIfConsumed]
  · intro hn
    rw [finalSize_endIfConsumed, nextExpectedOffset_endIfConsumed]
    exact .inr (he.mp hn).1
  intro hc
  have none := ha.buffered.hasBufferedData_eq_false (hf _ hc).symm
  rw [hasBufferedData_endIfConsumed] at none
  rw [finalSize_endIfConsumed, nextExpectedOffset_endIfConsumed] at hc
  exact .inl (he.mpr ⟨hc, none⟩)

lemma applyReceiveState_spec (sz : Nat) (hs : Sound st) (hl : st.receiveAbandoned = false) :
    ∃ cp st', Read st sz cp st' ∧ st.applyReceiveState sz =
      some (if cp = [] ∧ st'.remoteEnded = false then .error .operationWouldBlock else .ok cp, st') := by
  unfold applyReceiveState
  rw [if_neg (by rw [hl]; exact Bool.false_ne_true)]
  split
  next hc =>
    have he : st.remoteEnded = true := by rw [remoteEnded, hc]; rfl
    exact ⟨[], st, .nothing hs (hs.emptied he), by rw [he]; rfl⟩
  next hr =>
    split
    next none =>
      refine ⟨[], st, .nothing hs none, ?_⟩
      by_cases ha : st.state = .halfClosedRemote
      · have he : st.remoteEnded = true := by rw [remoteEnded, ha]; rfl
        rw [if_pos ha, he]
        rfl
      · have he : st.remoteEnded = false := by simp [remoteEnded, hr, ha]
        rw [if_neg ha, he, if_pos ⟨rfl, rfl⟩]
    next hh =>
      have hr : st.remoteEnded = false := by
        by_contra he
        exact hh (hs.emptied (Bool.not_eq_false _ ▸ he))
      obtain ⟨cp, mid, ran, hm, ht, hf, all⟩ := deliverContiguousData_spec sz hs.toBuffered
      refine ⟨cp, mid.endIfConsumed, hm.read hs hl hr ht hf all, ?_⟩
      rw [ran]
      rfl

/-- What is received stays as it is. -/
structure LocalMove (st st' : QuicStream) : Prop where
  same : ∃ state totalSent, st' = { st with state, totalSent }
  ended : st'.remoteEnded = st.remoteEnded

lemma Sound.localMove (hs : Sound st) (hm : LocalMove st st') : Sound st' := by
  obtain ⟨⟨state, totalSent, rfl⟩, he⟩ := hm
  exact ⟨⟨hs.1.1, hs.1.2, hs.1.3, hs.1.4, hs.1.5⟩, hs.limited, hs.finished, fun hi => hs.emptied (he ▸ hi), hs.dropped⟩

lemma localMove_applyCloseLocalState (st : QuicStream) : LocalMove st st.applyCloseLocalState := by
  unfold applyCloseLocalState
  split
  · exact ⟨⟨st.state, st.totalSent, rfl⟩, rfl⟩
  refine ⟨⟨_, st.totalSent, rfl⟩, ?_⟩
  unfold remoteEnded
  cases at_ : st.state <;> simp_all

lemma localMove_stopLocal (st : QuicStream) : LocalMove st st.stopLocal := by
  unfold stopLocal
  split
  next hr => exact ⟨⟨_, st.totalSent, rfl⟩, by rw [remoteEnded, remoteEnded, hr]; rfl⟩
  split
  · refine ⟨⟨_, st.totalSent, rfl⟩, ?_⟩
    unfold remoteEnded
    cases at_ : st.state <;> simp_all
  · exact ⟨⟨st.state, st.totalSent, rfl⟩, rfl⟩

lemma localMove_applySendState (st : QuicStream) (d : Bytes) : LocalMove st (st.applySendState d).2 := by
  unfold applySendState
  split
  · exact ⟨⟨st.state, st.totalSent, rfl⟩, rfl⟩
  split
  · exact ⟨⟨st.state, st.totalSent, rfl⟩, rfl⟩
  refine ⟨⟨_, _, rfl⟩, ?_⟩
  unfold remoteEnded
  split <;> cases at_ : st.state <;> simp_all

lemma init_same (st : QuicStream) : ∃ state, st.init = { st with state } := by
  unfold init
  split
  · exact ⟨st.state, rfl⟩
  split
  · exact ⟨_, rfl⟩
  split
  · exact ⟨_, rfl⟩
  · exact ⟨st.state, rfl⟩

lemma sound_new (id : Nat) (owner : QuicRole) (bidirectional : Bool) (state : StreamState) (lim : Nat) :
    Sound { id, owner, bidirectional, state, maxData := lim } := by
  have hu : new.unread = [] := rfl
  refine ⟨⟨.inl hu, segmented_empty, by simp [pieces], by simp [pieces], ?_⟩, Nat.zero_le _, by simp, fun _ => ?_, by simp⟩
  · rw [hu]
    rfl
  · exact hasBufferedData_eq_false_iff.mpr ⟨hu, rfl⟩

lemma Sound.extendReceiveLimit (hs : Sound st) (maximum : Nat) : Sound (st.extendReceiveLimit maximum) :=
  ⟨⟨hs.1.1, hs.1.2, hs.1.3, hs.1.4, hs.1.5⟩, le_trans hs.limited (le_max_left _ _), hs.finished, hs.emptied, hs.dropped⟩

end Cnetmod.Quic.QuicStream
