import Cnetmod.Consensus.Run
import Cnetmod.Quic.Spec.StreamMoves

/-!
# Reassembly of a stream

Frames with parts of one string come in any order, again, and overlapping, between
reads of any size. The reads return the string from its beginning, as far as the
frames are contiguous, and its end after all of it. Whatever frames come, what is taken of
them stays within the limits.
-/
namespace Cnetmod.Quic

open List

open Coding (Bytes Piece PieceCovered CoveredUpTo)
open Consensus (Reached)
open QuicStream

inductive StreamCall where
  | push (piece : Piece UInt8) (fin : Bool)
  | read (size : Nat)
  | extendReceiveLimit (maximum : Nat)
  | send (data : Bytes)
  | closeLocal
  | stopLocal

/-- A stream, the frames it was given and the bytes it has returned. -/
structure StreamWorld where
  stream : QuicStream
  pushed : List (Piece UInt8) := []
  finReceived : Bool := false
  delivered : Bytes := []

namespace StreamWorld

/-- A new stream. -/
def opened (id : Nat) (owner : QuicRole) (bidirectional : Bool) (limit : Nat) : StreamWorld where
  stream := (({ id, owner, bidirectional } : QuicStream).setInitialReceiveLimit limit).init

def step (w : StreamWorld) : StreamCall → Option StreamWorld
  | .push piece fin => some { w with
      stream := (w.stream.pushReceived piece.offset piece.data fin).2
      pushed := w.pushed ++ [piece]
      finReceived := w.finReceived || fin }
  | .read size => (w.stream.applyReceiveState size).map fun (result, stream) =>
      { w with stream, delivered := w.delivered ++ (result.toOption.getD []) }
  | .extendReceiveLimit maximum => some { w with stream := w.stream.extendReceiveLimit maximum }
  | .send data => some { w with stream := (w.stream.applySendState data).2 }
  | .closeLocal => some { w with stream := w.stream.applyCloseLocalState }
  | .stopLocal => some { w with stream := w.stream.stopLocal }

/-- Frames are slices of the string within the receive limit, and only those at its end carry FIN. -/
def Allowed (s : Bytes) (w : StreamWorld) : StreamCall → Prop
  | .push piece fin => piece.IsSlice s ∧ (fin = true → piece.stop = s.length) ∧ piece.stop ≤ w.stream.maxData
  | .extendReceiveLimit maximum => maximum < 2 ^ 64
  | _ => True

instance (s : Bytes) (w : StreamWorld) : (call : StreamCall) → Decidable (w.Allowed s call)
  | .push _ _ => inferInstanceAs (Decidable (_ ∧ _))
  | .extendReceiveLimit _ => inferInstanceAs (Decidable (_ < _))
  | .read _ | .send _ | .closeLocal | .stopLocal => inferInstanceAs (Decidable True)

/-- The state between two calls. -/
structure Receiving (s : Bytes) (w : StreamWorld) : Prop where
  sound : w.stream.Sound
  live : w.stream.receiveAbandoned = false
  limit : w.stream.maxData < 2 ^ 64
  inside : w.stream.nextExpectedOffset ≤ s.length
  top : w.stream.highestReceivedOffset ≤ s.length
  delivered : w.delivered = s.take w.stream.nextExpectedOffset
  slices : ∀ p ∈ w.stream.held, p.IsSlice s
  pieces : ∀ p ∈ w.pushed, p.IsSlice s
  covers : ∀ i, PieceCovered w.pushed i ↔ i < w.stream.nextExpectedOffset ∨ PieceCovered w.stream.held i
  final : w.stream.finalSize = if w.finReceived then some s.length else none
  ended : w.stream.remoteEnded = true ↔ w.finReceived = true ∧ w.stream.nextExpectedOffset = s.length

variable {s : Bytes} {w w' : StreamWorld} {piece : Piece UInt8} {fin : Bool} {size : Nat}

namespace Receiving

variable (r : w.Receiving s)

include r

lemma length_delivered : w.delivered.length = w.stream.nextExpectedOffset := by
  rw [r.delivered, length_take, min_eq_left r.inside]

lemma delivered_eq_iff : w.delivered = s ↔ w.stream.nextExpectedOffset = s.length := by
  constructor
  · intro all
    rw [← r.length_delivered, all]
  · intro all
    rw [r.delivered, all, take_length]

lemma push_ok (hb : w.Allowed s (.push piece fin)) :
    ∃ st, w.stream.pushReceived piece.offset piece.data fin = (.ok (), st) := by
  obtain ⟨hs, hl, hw⟩ := hb
  have ht : piece.offset + piece.data.length = piece.stop := rfl
  have he : w.stream.Ends (piece.offset + piece.data.length) fin := by
    refine ⟨fun hc => by rw [ht, hl hc]; exact r.top, fun f sz => ?_⟩
    rw [r.final] at sz
    split at sz
    · obtain rfl := Option.some.inj sz
      exact ⟨hs.stop_le, hl⟩
    · cases sz
  have hf := r.limit
  rw [w.stream.pushReceived_eq (by omega) he]
  split
  next hi =>
    have := hs.stop_le
    have := (r.ended.mp hi).2
    rw [if_pos (by omega)]
    exact ⟨_, rfl⟩
  rw [if_pos (ht ▸ hw)]
  obtain ⟨hh, -, -, ha, -⟩ := w.stream.withFinal_same (piece.offset + piece.data.length) fin
  exact acceptRange_isOk (r.sound.toBuffered.withFinal _ fin) (ha.trans r.live) (by rw [hh]; exact r.slices) hs

lemma push (ha : w.Allowed s (.push piece fin)) (ht : w.step (.push piece fin) = some w') : w'.Receiving s := by
  obtain ⟨st, ok⟩ := r.push_ok ha
  obtain ⟨hs, hl, hw⟩ := ha
  have hp := pushReceived_spec r.sound r.live ok
  have ho : piece.offset + piece.data.length = piece.stop := rfl
  have hc := hs.stop_le
  have hf : st.finalSize = if w.finReceived || fin then some s.length else none := by
    cases hi : w.stream.remoteEnded with
    | true => rw [hp.frozen hi, r.final, (r.ended.mp hi).1, Bool.true_or]
    | false =>
      rw [hp.final hi, r.final]
      cases fin with
      | true => rw [ho, hl rfl, Bool.or_true]; rfl
      | false => rw [Bool.or_false]; rfl
  have he : st.remoteEnded = true ↔ (w.finReceived || fin) = true ∧ st.nextExpectedOffset = s.length := by
    cases hi : w.stream.remoteEnded with
    | true =>
      obtain ⟨hk, all⟩ := r.ended.mp hi
      simp only [hp.frozen hi, hi, hk, all, Bool.true_or, and_self]
    | false =>
      rw [hp.ended hi, hf]
      cases w.finReceived || fin with
      | true => simp [eq_comm]
      | false => simp
  dsimp only [step] at ht
  rw [ok] at ht
  cases ht
  exact {
    sound := hp.sound
    live := hp.live
    limit := by dsimp only; rw [hp.limit]; exact r.limit
    inside := by dsimp only; rw [hp.next]; exact r.inside
    top := by dsimp only; rw [hp.highest, ho]; exact Nat.max_le.mpr ⟨r.top, hc⟩
    delivered := by dsimp only; rw [hp.next]; exact r.delivered
    slices := hp.slices s r.slices hs
    pieces := by
      intro p hm
      rcases mem_append.mp hm with old | new
      · exact r.pieces p old
      · rwa [mem_singleton.mp new]
    covers := by
      intro i
      rw [Coding.pieceCovered_concat, r.covers, hp.next]
      by_cases hb : i < w.stream.nextExpectedOffset
      · simp only [hb, true_or]
      · rw [hp.covered i (not_lt.mp hb), or_assoc]
        rfl
    final := hf
    ended := he }

lemma read (sz : Nat) : ∃ cp st, w.stream.applyReceiveState sz =
    some (if cp = [] ∧ st.remoteEnded = false then .error .operationWouldBlock else .ok cp, st) ∧
    w.stream.Read sz cp st ∧ ({ w with stream := st, delivered := w.delivered ++ cp } : StreamWorld).Receiving s := by
  obtain ⟨cp, st, hr, ran⟩ := applyReceiveState_spec sz r.sound r.live
  obtain ⟨hs, hl⟩ := hr.slices s r.inside r.slices
  have next := hr.next
  refine ⟨cp, st, ran, hr, ?_⟩
  exact {
    sound := hr.sound
    live := hr.abandoned.trans r.live
    limit := by dsimp only; rw [hr.limit]; exact r.limit
    inside := by dsimp only; rw [next]; exact hs.stop_le
    top := by dsimp only; rw [hr.highest]; exact r.top
    delivered := by dsimp only; rw [r.delivered, next]; exact hs.take_append
    slices := hl
    pieces := r.pieces
    covers := by
      intro i
      rw [r.covers]
      by_cases hb : i < st.nextExpectedOffset
      · simp only [hb, true_or, iff_true]
        by_cases old : i < w.stream.nextExpectedOffset
        · exact .inl old
        · exact .inr (hr.taken i (not_lt.mp old) hb)
      rw [hr.covered i (not_lt.mp hb)]
      refine or_congr_left ⟨fun old => ?_, fun new => absurd new hb⟩
      omega
    final := by dsimp only; rw [hr.final]; exact r.final
    ended := by
      dsimp only
      have hf := hr.final.trans r.final
      constructor
      · intro hi
        rcases hr.ended hi with hb | hc
        · obtain ⟨hk, all⟩ := r.ended.mp hb
          have := hs.stop_le
          unfold Piece.stop at this
          dsimp only at this
          exact ⟨hk, by omega⟩
        rw [hf] at hc
        split at hc
        next hk => exact ⟨hk, (Option.some.inj hc).symm⟩
        · cases hc
      · rintro ⟨hk, all⟩
        rw [hk, if_pos rfl] at hf
        rcases hr.ends (by rw [hf, all]) with hi | hsa
        · exact hi
        · rw [hsa] at all ⊢
          exact r.ended.mpr ⟨hk, all⟩ }

lemma localMove (hm : w.stream.LocalMove st) : ({ w with stream := st } : StreamWorld).Receiving s := by
  have hs := r.sound.localMove hm
  obtain ⟨⟨state, totalSent, rfl⟩, he⟩ := hm
  exact ⟨hs, r.live, r.limit, r.inside, r.top, r.delivered, r.slices, r.pieces, r.covers, r.final,
    (Bool.eq_iff_iff.mp he).trans r.ended⟩

lemma step (ha : w.Allowed s call) (ht : w.step call = some w') : w'.Receiving s := by
  cases call with
  | push p fin => exact r.push ha ht
  | read sz =>
    obtain ⟨cp, st, ran, hr, hf⟩ := r.read sz
    dsimp only [StreamWorld.step] at ht
    rw [ran] at ht
    cases ht
    split
    next hb => rwa [hb.1] at hf
    next => exact hf
  | extendReceiveLimit maximum =>
    cases ht
    exact ⟨r.sound.extendReceiveLimit maximum, r.live, Nat.max_lt.mpr ⟨r.limit, ha⟩, r.inside, r.top,
      r.delivered, r.slices, r.pieces, r.covers, r.final, r.ended⟩
  | send d =>
    cases ht
    exact r.localMove (localMove_applySendState _ d)
  | closeLocal =>
    cases ht
    exact r.localMove (localMove_applyCloseLocalState _)
  | stopLocal =>
    cases ht
    exact r.localMove (localMove_stopLocal _)

/-- What a read returns, where the frames cover up to `k`. -/
lemma read_result (hu : CoveredUpTo w.pushed k) (sz : Nat) : ∃ res after, w.stream.applyReceiveState sz = some (res, after) ∧
      ((∃ bs, res = .ok bs) ∨ res = .error .operationWouldBlock) ∧
      (∀ bs, res = .ok bs → w.delivered ++ bs = s.take (min (w.delivered.length + sz) k)) ∧
      (res = .error .operationWouldBlock ↔ ¬ (w.delivered = s ∧ w.finReceived = true) ∧ (sz = 0 ∨ w.delivered.length = k)) ∧
      (res = .ok [] ↔ w.delivered = s ∧ w.finReceived = true) := by
  obtain ⟨cp, st, ran, hr, after⟩ := r.read sz
  have next := hr.next
  have ha := (hr.slices s r.inside r.slices).1
  have hs := ha.stop_le
  unfold Piece.stop at hs
  dsimp only at hs
  have hg := hr.fits
  -- The frames cover what was consumed and taken.
  have hj : st.nextExpectedOffset ≤ k := by
    by_contra hl
    exact hu.uncovered ((after.covers k).mpr (.inl (not_le.mp hl)))
  have ht : st.nextExpectedOffset = min (w.stream.nextExpectedOffset + sz) k := by
    rcases hr.all with hfu | gap
    · omega
    have : ¬ st.nextExpectedOffset < k := fun hl => by
      rcases (after.covers _).mp (hu.below _ hl) with old | hh
      · exact lt_irrefl _ old
      · exact gap hh
    omega
  have he : cp = [] → (st.remoteEnded = true ↔ w.delivered = s ∧ w.finReceived = true) := by
    rintro rfl
    rw [after.ended, r.delivered_eq_iff, and_comm]
    rw [next, length_nil, add_zero]
  have hn : cp = [] ↔ sz = 0 ∨ w.stream.nextExpectedOffset = k := by
    rw [← length_eq_zero_iff]
    omega
  have hc (all : w.delivered = s ∧ w.finReceived = true) : cp = [] := by
    have := r.delivered_eq_iff.mp all.1
    exact length_eq_zero_iff.mp (by omega)
  refine ⟨_, _, ran, ?_, ?_, ?_, ?_⟩
  · split
    · exact .inr rfl
    · exact .inl ⟨cp, rfl⟩
  · intro bs res
    split at res
    · cases res
    cases res
    rw [r.length_delivered, ← ht, next, r.delivered]
    exact ha.take_append
  · rw [r.length_delivered, ← hn]
    split
    next hb =>
      refine iff_of_true rfl ⟨fun all => ?_, hb.1⟩
      rw [(he hb.1).mpr all] at hb
      cases hb.2
    next hf =>
      refine iff_of_false (by simp) fun ⟨hm, hem⟩ => hf ⟨hem, ?_⟩
      rw [← Bool.not_eq_true, he hem]
      exact hm
  · split
    next hb =>
      refine iff_of_false (by simp) fun all => ?_
      rw [(he hb.1).mpr all] at hb
      cases hb.2
    next hf =>
      rw [Except.ok.injEq]
      constructor
      · intro none
        refine (he none).mp ?_
        by_contra hru
        exact hf ⟨none, Bool.not_eq_true _ ▸ hru⟩
      · exact hc

end Receiving

lemma receiving_opened {id : Nat} {owner : QuicRole} {bidirectional : Bool} (hi : lim < 2 ^ 64)
    (hr : (opened id owner bidirectional lim).stream.remoteEnded = false) : (opened id owner bidirectional lim).Receiving s := by
  obtain ⟨state, ha⟩ := init_same (({ id, owner, bidirectional } : QuicStream).setInitialReceiveLimit lim)
  unfold opened at hr ⊢
  rw [ha] at hr ⊢
  have hs := sound_new id owner bidirectional state lim
  have hh : held { id, owner, bidirectional, state, maxData := lim } = [] :=
    held_eq_nil (hasBufferedData_eq_false_iff.mpr ⟨rfl, rfl⟩)
  refine ⟨hs, rfl, hi, Nat.zero_le _, Nat.zero_le _, rfl, ?_, by simp, ?_, rfl, ?_⟩
  · intro p hm
    exact absurd (hh ▸ hm) not_mem_nil
  · intro i
    have : ¬ PieceCovered (held { id, owner, bidirectional, state, maxData := lim }) i := by
      rw [hh]
      simp [PieceCovered]
    simp only [PieceCovered, not_mem_nil, false_and, exists_false, false_iff, not_or]
    exact ⟨Nat.not_lt_zero i, this⟩
  · rw [hr]
    simp

/-- Whatever frames with slices of a string were pushed and whatever reads were made: no push fails, the reads
have returned the string from its beginning, and a read returns what follows as far as the frames reach and the
buffer allows. It would block when there is nothing to return before the end, and returns nothing when
the whole string was returned and FIN was received. -/
theorem stream_reassembly {id : Nat} {owner : QuicRole} {bidirectional : Bool} {limit : Nat}
    (inRange : limit < 2 ^ 64) (receives : (opened id owner bidirectional limit).stream.remoteEnded = false)
    (reached : Reached step (Allowed s) (opened id owner bidirectional limit) w) :
    (∀ piece fin, w.Allowed s (.push piece fin) → (w.stream.pushReceived piece.offset piece.data fin).1 = .ok ()) ∧
      w.delivered <+: s ∧ ∃ k, CoveredUpTo w.pushed k ∧ ∀ size, ∃ result after,
        w.stream.applyReceiveState size = some (result, after) ∧
        ((∃ bytes, result = .ok bytes) ∨ result = .error .operationWouldBlock) ∧
        (∀ bytes, result = .ok bytes → w.delivered ++ bytes = s.take (min (w.delivered.length + size) k)) ∧
        (result = .error .operationWouldBlock ↔
          ¬ (w.delivered = s ∧ w.finReceived = true) ∧ (size = 0 ∨ w.delivered.length = k)) ∧
        (result = .ok [] ↔ w.delivered = s ∧ w.finReceived = true) := by
  have r : w.Receiving s := reached.invariant (Receiving s) (receiving_opened inRange receives) fun hb ha ht => hb.step ha ht
  refine ⟨fun piece fin ha => ?_, ?_, ?_⟩
  · obtain ⟨st, ok⟩ := r.push_ok ha
    rw [ok]
  · rw [r.delivered]
    exact take_prefix _ _
  · obtain ⟨k, hu⟩ := Coding.exists_coveredUpTo fun p hm => (r.pieces p hm).stop_le
    exact ⟨k, hu, r.read_result hu⟩

/-- The end of three bytes comes first, then an overlapping part; a read of two bytes is followed by one that
returns the third. -/
theorem stream_reassembly_overlapping : ∃ w, Reached step (Allowed [1, 2, 3]) (opened 0 .server true 65536) w ∧
    w.delivered = [1, 2] ∧ ∃ k, CoveredUpTo w.pushed k ∧ ∃ result after,
      w.stream.applyReceiveState 5 = some (result, after) ∧
      ∀ bytes, result = .ok bytes → w.delivered ++ bytes = [1, 2, 3].take (min (w.delivered.length + 5) k) := by
  have run : Reached step (Allowed [1, 2, 3]) (opened 0 .server true 65536) _ := .runChecked .start
    [.push ⟨1, [2, 3]⟩ true, .push ⟨0, [1, 2]⟩ false, .read 2] rfl
  obtain ⟨k, hu, he⟩ := (stream_reassembly (by decide) (by decide) run).2.2
  obtain ⟨result, after, ran, -, hr, -⟩ := he 5
  exact ⟨_, run, rfl, k, hu, result, after, ran, hr⟩

/-- A read with an empty buffer would block although bytes are available. -/
theorem empty_buffer_would_block : ∃ w, Reached step (Allowed [1, 2]) (opened 0 .server true 65536) w ∧
    PieceCovered w.pushed w.delivered.length ∧
    (w.stream.applyReceiveState 0).map (·.1) = some (.error .operationWouldBlock) := by
  have run : Reached step (Allowed [1, 2]) (opened 0 .server true 65536) _ := .runChecked .start [.push ⟨0, [1, 2]⟩ false] rfl
  exact ⟨_, run, by decide, by decide +kernel⟩

end StreamWorld

/-- What the peer and the application do to the receiving side of a stream. -/
inductive ReceiveCall where
  | push (offset : Nat) (data : Bytes) (fin : Bool)
  | reset (finalSize : Nat)
  | abandon
  | read (size : Nat)
  | extend (maximum : Nat)

namespace QuicStream

def onCall (st : QuicStream) : ReceiveCall → QuicStream
  | .push offset data fin => (st.pushReceived offset data fin).2
  | .reset finalSize => (st.resetRemote finalSize).2
  | .abandon => st.abandonReceive
  | .read size => (st.applyReceiveState size).elim st (·.2)
  | .extend maximum => st.extendReceiveLimit maximum

/-- How far was received, how far may be, and where the stream ends. -/
def marks (st : QuicStream) : Nat × Nat × Option Nat := (st.highestReceivedOffset, st.maxData, st.finalSize)

variable {st st' start : QuicStream}

lemma marks_acceptRange (st : QuicStream) (off : Nat) (d : Bytes) (fin : Bool) :
    let after := (st.acceptRange off d fin).2
    after.marks = st.marks ∨ after.marks = (max st.highestReceivedOffset (off + d.length), st.maxData, st.finalSize) := by
  have hm := st.migrate_same
  simp only [acceptRange, reassemble]
  grind [marks, endIfConsumed, markOpen, closeRemote]

lemma marks_deliverSegments (n room : Nat) (hr : deliverSegments n room st = some (bs, st')) : st'.marks = st.marks := by
  induction n generalizing room st bs with
  | zero =>
    cases hr
    rfl
  | succ n ih =>
    rw [deliverSegments] at hr
    split at hr
    · cases hr
      rfl
    split at hr
    · cases hr
      rfl
    obtain ⟨buf, -, hr⟩ := Option.bind_eq_some_iff.mp hr
    obtain ⟨⟨bytes, t⟩, hd, hr⟩ := Option.bind_eq_some_iff.mp hr
    cases hr
    exact (ih _ hd).trans rfl

lemma marks_applyReceiveState (sz : Nat) (hr : st.applyReceiveState sz = some (res, st')) : st'.marks = st.marks := by
  unfold applyReceiveState at hr
  iterate 3
    split at hr
    · cases hr
      rfl
  obtain ⟨⟨bs, t⟩, hd, hr⟩ := Option.bind_eq_some_iff.mp hr
  cases hr
  have hm : t.marks = st.marks := by
    unfold deliverContiguousData at hd
    split at hd
    · cases hd
      rfl
    · exact marks_deliverSegments _ _ hd
  grind [marks, endIfConsumed]

/-- What was received is within the limit and the final size, and a final size of `start` stays. -/
structure Confined (start st : QuicStream) : Prop where
  limit : st.highestReceivedOffset ≤ st.maxData
  final : ∀ f ∈ st.finalSize, st.highestReceivedOffset ≤ f
  stays : ∀ f ∈ start.finalSize, f ∈ st.finalSize

lemma Confined.onCall (hc : Confined start st) (call : ReceiveCall) : Confined start (st.onCall call) := by
  obtain ⟨hl, hf, hs⟩ := hc
  cases call with
  | push off d fin =>
    -- A refused range may leave a final size behind, but one that what was received keeps to.
    have ha := marks_acceptRange (if fin then { st with finalSize := some (off + d.length) } else st) off d fin
    cases sz : st.finalSize <;> cases fin <;> grind [QuicStream.onCall, pushReceived, marks, Confined]
  | reset f => cases sz : st.finalSize <;> grind [QuicStream.onCall, resetRemote, Confined]
  | abandon => grind [QuicStream.onCall, abandonReceive, closeRemote, Confined]
  | read sz =>
    cases hr : st.applyReceiveState sz with
    | none => grind [QuicStream.onCall, Confined]
    | some r =>
      have hm := marks_applyReceiveState sz hr
      grind [QuicStream.onCall, Confined, marks]
  | extend n => exact ⟨hl.trans (le_max_left _ _), hf, hs⟩

lemma Confined.run (hc : Confined start st) (calls : List ReceiveCall) : Confined start (calls.foldl QuicStream.onCall st) :=
  List.foldlRecOn (motive := Confined start) calls _ hc fun _ hc call _ => hc.onCall call

/-- Whatever the peer sends, no byte is taken beyond the limit or the final size, which stays once it is known. -/
theorem peer_confined (id : Nat) (owner : QuicRole) (bidirectional : Bool) (limit : Nat) (calls more : List ReceiveCall) :
    let new := (StreamWorld.opened id owner bidirectional limit).stream
    let st := calls.foldl onCall new
    Confined st (more.foldl onCall st) := by
  intro new st
  have hn : Confined new new := by
    obtain ⟨state, he⟩ := init_same (({ id, owner, bidirectional } : QuicStream).setInitialReceiveLimit limit)
    rw [show new = _ from he]
    exact ⟨Nat.zero_le _, nofun, fun _ h => h⟩
  have hc := hn.run calls
  exact Confined.run ⟨hc.limit, hc.final, fun _ h => h⟩ more

end QuicStream

end Cnetmod.Quic
