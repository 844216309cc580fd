import Cnetmod.Raft.Source.SnapshotTransfer

/-!
# Putting a snapshot together

A session holds a file with as many bytes as it expects next. The last chunk
checks it against the size and the CRC of the message and gives it its final
name. A chunk that the session has already is answered without a look at the
file: if it is the last one, and an earlier attempt to finish has failed, the
snapshot is reported complete with whatever the message names.
-/
namespace Cnetmod.Raft

open Function Option
open Coding (Bytes)

lemma writeAt_end (c d : Bytes) : writeAt c c.length d = c ++ d := by
  unfold writeAt
  split
  next he => rw [he, List.append_nil]
  next => simp

lemma TransportOptions.named_eq (opts : TransportOptions) (m : SnapshotChunk) :
    ∃ id, opts.named m = { m with snapshotId := id } := by
  unfold named
  split
  · exact ⟨_, rfl⟩
  · exact ⟨m.snapshotId, rfl⟩

namespace Receiver

/-- The bytes stored under a session. -/
def held (r : Receiver) (key : String) : Bytes :=
  let state := (r.sessions key).getD {}
  if state.expectedOffset = 0 then [] else (r.files state.tempPath).getD []

/-- The bytes stored under a session once the chunk has been received. -/
def heldWith (r : Receiver) (key : String) (m : SnapshotChunk) : Bytes :=
  if m.offset < ((r.sessions key).getD {}).expectedOffset then r.held key else r.held key ++ m.data

/-- The chunk ends the snapshot and has been stored before. -/
def repeatsEnd (r : Receiver) (key : String) (m : SnapshotChunk) : Bool :=
  let state := (r.sessions key).getD {}
  m.offset < state.expectedOffset ∧ m.offset + m.size ≤ state.expectedOffset ∧ m.done ∧ state.expectedOffset = m.totalSize

/-- The file the message names consists of the bytes given, as many as the message
says and with its CRC. -/
def Reassembled (r : Receiver) (bytes : Bytes) (m : SnapshotChunk) : Prop :=
  r.files m.uri = some bytes ∧ bytes.length = m.totalSize.toNat ∧ crc32Bytes bytes = m.fileCrc32

instance (r : Receiver) (bytes : Bytes) (m : SnapshotChunk) : Decidable (r.Reassembled bytes m) :=
  inferInstanceAs (Decidable (_ ∧ _ ∧ _))

/-- A session that has stored something has it in its file. -/
def Kept (r : Receiver) (key : String) : Prop :=
  ∀ state, r.sessions key = some state → state.expectedOffset ≠ 0 →
    state.tempPath = state.finalPath ++ ".part" ∧
      ∃ content, r.files state.tempPath = some content ∧ content.length = state.expectedOffset.toNat

@[simp] lemma sessions_setSession_self (r : Receiver) (key : String) (st : Option ReceiveState) :
    (r.setSession key st).sessions key = st := update_self ..

@[simp] lemma files_setFile_self (r : Receiver) (p : String) (c : Option Bytes) :
    (r.setFile p c).files p = c := update_self ..

lemma kept_of_none {r : Receiver} (none : r.sessions key = none) : r.Kept key := by
  intro st hh
  rw [none] at hh
  cases hh

lemma kept_setSession_none (r : Receiver) (key : String) : (r.setSession key none).Kept key :=
  kept_of_none (sessions_setSession_self r key none)

lemma kept_setSession {r : Receiver} (hp : st.tempPath = st.finalPath ++ ".part") (hh : r.files st.tempPath = some c)
    (hl : c.length = st.expectedOffset.toNat) : (r.setSession key (some st)).Kept key := by
  intro o hf _
  rw [sessions_setSession_self] at hf
  cases hf
  exact ⟨hp, c, hh, hl⟩

lemma Kept.held_length {r : Receiver} (hk : r.Kept key) :
    (r.held key).length = ((r.sessions key).getD {}).expectedOffset.toNat := by
  unfold held
  dsimp only
  split
  next he =>
    rw [he]
    rfl
  next hb =>
    cases hs : r.sessions key with
    | none => exact absurd (by rw [hs]; rfl) hb
    | some st =>
      rw [hs] at hb
      obtain ⟨-, c, hh, hl⟩ := hk st hs hb
      rw [getD_some, hh, getD_some, hl]

variable {r r' : Receiver} {faults : FileFaults} {key : String}
  {m m' : SnapshotChunk}

lemma finishSnapshot_kept (hk : r.Kept key) : (r.finishSnapshot faults key state m).1.Kept key := by
  unfold finishSnapshot
  split
  · exact hk
  split
  · exact hk
  dsimp only
  split
  · exact kept_setSession_none _ key
  · exact kept_setSession_none _ key

lemma finishSnapshot_complete (hp : state.tempPath = state.finalPath ++ ".part")
    (hh : r.files state.tempPath = some content) (he : content.length = state.expectedOffset.toNat)
    (hc : r.finishSnapshot faults key state m = (r', m', .complete)) :
    r'.files m'.uri = some content ∧ content.length = m'.totalSize.toNat ∧ crc32Bytes content = m'.fileCrc32 := by
  unfold finishSnapshot at hc
  split at hc
  · cases hc
  rename_i hs
  split at hc
  · cases hc
  rename_i sum
  dsimp only at hc
  split at hc
  · cases hc
  cases hc
  have ha : state.finalPath ≠ state.tempPath := by
    intro hb
    have hl := congrArg String.length (hb.trans hp)
    simp at hl
  refine ⟨?_, ?_, ?_⟩
  · simp only [setSession, setFile, update_of_ne ha, update_self]
    exact hh
  · rw [he, not_not.mp hs]
  have sum := not_not.mp (not_or.mp sum).2
  rw [hh] at sum
  exact some.inj sum

lemma toNat_add_size (hf : ¬ o.toNat + m.data.length > fileMaxSize) : (o + m.size).toNat = o.toNat + m.data.length := by
  simp only [fileMaxSize] at hf
  rw [SnapshotChunk.size, UInt64.toNat_add, UInt64.toNat_ofNat']
  omega

lemma receiveChunk_kept (hp : state.tempPath = state.finalPath ++ ".part")
    (he : r.sessions key = some state) (hh : r.files state.tempPath = some content)
    (hl : content.length = state.expectedOffset.toNat) : (r.receiveChunk faults key state m).1.Kept key := by
  have hk : r.Kept key := by
    intro o hf _
    rw [he] at hf
    cases hf
    exact ⟨hp, content, hh, hl⟩
  unfold receiveChunk
  split
  · split <;> exact hk
  split
  · exact hk
  split
  · exact hk
  dsimp only
  rw [hh, getD_some, ← hl, writeAt_end]
  split
  · intro o hf _
    have hb : some state = some o := he.symm.trans hf
    cases hb
    exact ⟨hp, content, files_setFile_self .., hl⟩
  next ha =>
    rw [not_or, hl] at ha
    have hg : (content ++ m.data).length = (state.expectedOffset + m.size).toNat := by
      rw [List.length_append, hl, toNat_add_size ha.2]
    have hs : ((r.setFile state.tempPath (some (content ++ m.data))).setSession key
        (some { state with expectedOffset := state.expectedOffset + m.size })).Kept key :=
      kept_setSession hp (files_setFile_self ..) hg
    split
    · exact hs
    split
    · exact hs
    · exact finishSnapshot_kept hs

/-- A snapshot is complete after its last chunk, or because the chunk is known. -/
lemma receiveChunk_complete (hp : state.tempPath = state.finalPath ++ ".part")
    (hh : r.files state.tempPath = some content) (hl : content.length = state.expectedOffset.toNat)
    (hc : r.receiveChunk faults key state m = (r', m', .complete)) : if m.offset < state.expectedOffset then
      (m.offset + m.size ≤ state.expectedOffset ∧ m.done = true ∧ state.expectedOffset = m.totalSize) ∧ r' = r ∧ m' = m
    else r'.Reassembled (content ++ m.data) m' := by
  unfold receiveChunk at hc
  split at hc
  next hb =>
    rw [if_pos hb]
    split at hc
    next hk =>
      simp only [Prod.mk.injEq] at hc
      obtain ⟨rfl, rfl, hj⟩ := hc
      split at hj
      next he => exact ⟨⟨hk, he.1, he.2⟩, rfl, rfl⟩
      next => cases hj
    next => cases hc
  next ha =>
    rw [if_neg ha]
    split at hc
    · cases hc
    split at hc
    · cases hc
    dsimp only at hc
    rw [hh, getD_some, ← hl, writeAt_end, hl] at hc
    split at hc
    · cases hc
    rename_i hf
    split at hc
    · split at hc <;> cases hc
    split at hc
    · cases hc
    have hg : (content ++ m.data).length = (state.expectedOffset + m.size).toNat := by
      rw [List.length_append, hl, toNat_add_size (not_or.mp hf).2]
    refine finishSnapshot_complete ?_ ?_ ?_ hc
    · exact hp
    · exact files_setFile_self ..
    · exact hg

variable {opts : TransportOptions} {source : NodeId}

lemma materializeSnapshot_kept (hc : m.isChunked = true)
    (he : snapshotSessionKey source (opts.named m) = key) (hk : r.Kept key) :
    (r.materializeSnapshot opts faults source m).1.Kept key := by
  rw [materializeSnapshot, if_neg (not_not.mpr hc)]
  dsimp only
  rw [he]
  split
  · exact hk
  split
  · exact hk
  split
  · split
    · exact kept_setSession_none _ key
    split
    · exact kept_setSession_none _ key
    rename_i hf _ _
    refine receiveChunk_kept rfl (sessions_setSession_self ..) (files_setFile_self ..) ?_
    rw [hf.2]
    rfl
  split
  · exact kept_setSession_none _ key
  rename_i hb
  cases hs : r.sessions key with
  | none => exact absurd (by rw [hs]; rfl) hb
  | some st =>
    rw [hs] at hb
    obtain ⟨hp, c, hh, hl⟩ := hk st hs hb
    exact receiveChunk_kept hp (sessions_setSession_self ..) hh hl

lemma repeatsEnd_named (r : Receiver) (key : String) (opts : TransportOptions) (m : SnapshotChunk) :
    r.repeatsEnd key (opts.named m) = r.repeatsEnd key m := by
  obtain ⟨id, hn⟩ := opts.named_eq m
  rw [hn]
  rfl

lemma heldWith_named (r : Receiver) (key : String) (opts : TransportOptions) (m : SnapshotChunk) :
    r.heldWith key (opts.named m) = r.heldWith key m := by
  obtain ⟨id, hn⟩ := opts.named_eq m
  rw [hn]
  rfl

lemma materializeSnapshot_complete (hg : m.isChunked = true)
    (hk : snapshotSessionKey source (opts.named m) = key) (hj : r.Kept key)
    (hc : r.materializeSnapshot opts faults source m = (r', m', .complete)) :
    if r.repeatsEnd key m then r'.files = r.files ∧ m' = opts.named m else r'.Reassembled (r.heldWith key m) m' := by
  rw [materializeSnapshot, if_neg (not_not.mpr hg)] at hc
  dsimp only at hc
  rw [hk] at hc
  rw [← repeatsEnd_named r key opts, ← heldWith_named r key opts]
  generalize opts.named m = m at hc ⊢
  split at hc
  · cases hc
  split at hc
  · cases hc
  split at hc
  next hf =>
    -- a new session, which holds nothing before this chunk
    have hm : r.repeatsEnd key m = false := by simp [repeatsEnd, hf.2]
    have hn : r.heldWith key m = [] ++ m.data := by simp [heldWith, held, hf.2]
    split at hc
    · cases hc
    split at hc
    · cases hc
    have hr := receiveChunk_complete rfl (by exact files_setFile_self ..) (by rw [hf.2]; rfl) hc
    rw [hf.2] at hr
    rw [hm, hn]
    exact hr
  next =>
    split at hc
    · cases hc
    rename_i hb
    cases hs : r.sessions key with
    | none => exact absurd (by rw [hs]; rfl) hb
    | some st =>
      rw [hs, getD_some] at hb hc
      obtain ⟨hp, c, hh, hl⟩ := hj st hs hb
      have hr := receiveChunk_complete hp (by exact hh) hl hc
      have ho : r.held key = c := by simp [held, hs, hb, hh]
      rw [heldWith, ho, repeatsEnd, hs, getD_some]
      split at hr
      next he =>
        rw [if_pos (decide_eq_true ⟨he, hr.1⟩), hr.2.1, hr.2.2]
        exact ⟨rfl, rfl⟩
      next ha =>
        rw [if_neg (by simpa using fun he => absurd he ha), if_neg ha]
        exact hr

lemma cleanupSession_kept (hk : r.Kept key) : (r.cleanupSession key).Kept key := by
  unfold cleanupSession
  split
  · exact hk
  · exact kept_setSession_none _ key

end Receiver

/-- What happens to a session: a chunk arrives, or the session has been idle too long. -/
inductive SessionEvent where
  | chunk (faults : FileFaults) (m : SnapshotChunk)
  | expire

/-- The receiver after an event of the session `key`; events of other sessions are
none of its steps. -/
def Receiver.sessionStep (opts : TransportOptions) (source : NodeId) (key : String) (r : Receiver) :
    SessionEvent → Option Receiver
  | .chunk faults m =>
    if m.isChunked ∧ snapshotSessionKey source (opts.named m) = key then
      some (r.materializeSnapshot opts faults source m).1
    else none
  | .expire => some (r.cleanupSession key)

/-- Any chunks and expiries of a session, from a receiver that does not have it. -/
abbrev SessionReached (opts : TransportOptions) (source : NodeId) (key : String) : Receiver → Receiver → Prop :=
  Consensus.Reached (Receiver.sessionStep opts source key) fun _ _ => True

lemma SessionReached.kept (new : n0.sessions key = none) (hr : SessionReached opts source key n0 r) : r.Kept key := by
  refine Consensus.Reached.invariant (Receiver.Kept · key) (Receiver.kept_of_none new) ?_ hr
  intro r ev r' hk _ ht
  cases ev with
  | chunk faults m =>
    obtain ⟨hf, ⟨⟩⟩ := ite_none_right_eq_some.mp ht
    exact Receiver.materializeSnapshot_kept hf.1 hf.2 hk
  | expire =>
    cases ht
    exact Receiver.cleanupSession_kept hk

/-- A completed snapshot has been put together as the message says, unless the chunk
repeats the end of the snapshot; then it has if and only if the message names a file
with the bytes of the session and has their CRC. -/
theorem snapshot_reassembled_iff (opts : TransportOptions) (source : NodeId) (key : String)
    (start r r' : Receiver) (faults : FileFaults) (m m' : SnapshotChunk)
    (new : start.sessions key = none) (reached : SessionReached opts source key start r)
    (chunked : m.isChunked = true) (keyed : snapshotSessionKey source (opts.named m) = key)
    (complete : r.materializeSnapshot opts faults source m = (r', m', .complete)) :
    r'.Reassembled (r.heldWith key m) m' ↔
      (r.repeatsEnd key m = false ∨ (r.files m.uri = some (r.held key) ∧ crc32Bytes (r.held key) = m.fileCrc32)) := by
  have hk := reached.kept new
  have ho := Receiver.materializeSnapshot_complete chunked keyed hk complete
  split at ho
  next hr =>
    obtain ⟨files, rfl⟩ := ho
    obtain ⟨id, named⟩ := opts.named_eq m
    obtain ⟨hb, -, -, ht⟩ := of_decide_eq_true hr
    have hl : (r.held key).length = m.totalSize.toNat := by rw [hk.held_length, ht]
    rw [named, Receiver.Reassembled, Receiver.heldWith, if_pos hb, files, hr]
    constructor
    · exact fun ha => .inr ⟨ha.1, ha.2.2⟩
    rintro (hn | ⟨hf, crc⟩)
    · cases hn
    · exact ⟨hf, hl, crc⟩
  next hn => exact iff_of_true ho (.inl (Bool.eq_false_of_not_eq_true hn))

/-- The first of the two bytes of a snapshot. -/
def firstChunk : SnapshotChunk :=
  { snapshotId := "s", totalSize := 2, done := false, data := [1], chunkCrc32 := crc32Bytes [1] }

/-- The second byte, with the CRC of the whole as the sender says it is. -/
def lastChunk (fileCrc32 : UInt32) : SnapshotChunk :=
  { snapshotId := "s", offset := 1, totalSize := 2, data := [2], chunkCrc32 := crc32Bytes [2], fileCrc32 }

def afterChunks (chunks : List SnapshotChunk) : Receiver :=
  chunks.foldl (fun r m => (r.materializeSnapshot {} {} "a" m).1) {}

/-- Two chunks in order. -/
theorem snapshot_reassembled_iff_two_chunks :
    (afterChunks [firstChunk, lastChunk (crc32Bytes [1, 2])]).Reassembled
      ((afterChunks [firstChunk]).heldWith "a:s" (lastChunk (crc32Bytes [1, 2])))
      { lastChunk (crc32Bytes [1, 2]) with uri := "a-0-0-s.snapshot", data := [] } := by
  have hm : firstChunk.isChunked ∧ snapshotSessionKey "a" (TransportOptions.named {} firstChunk) = "a:s" := by decide
  have hr : SessionReached {} "a" "a:s" {} (afterChunks [firstChunk]) :=
    .next (a := .chunk {} firstChunk) .start trivial (by rw [Receiver.sessionStep, if_pos hm]; rfl)
  have hc : ((afterChunks [firstChunk]).materializeSnapshot {} {} "a"
      (lastChunk (crc32Bytes [1, 2]))).2 =
        ({ lastChunk (crc32Bytes [1, 2]) with uri := "a-0-0-s.snapshot", data := [] }, .complete) := by
    decide +kernel
  exact (snapshot_reassembled_iff {} "a" "a:s" {} (afterChunks [firstChunk]) _ {}
    (lastChunk (crc32Bytes [1, 2])) _ rfl hr (by decide +kernel) (by decide +kernel)
    (Prod.ext rfl hc)).mpr (.inl (by decide +kernel))

/-- The last chunk of a snapshot whose CRC is wrong is refused once. Sent again it
completes the snapshot, of which there is no file. -/
theorem repeated_end_unchecked :
    ((afterChunks [firstChunk]).materializeSnapshot {} {} "a" (lastChunk 0)).2.2 = .failed ∧
      ((afterChunks [firstChunk, lastChunk 0]).materializeSnapshot {} {} "a" (lastChunk 0)).2 = (lastChunk 0, .complete) ∧
      ¬ (afterChunks [firstChunk, lastChunk 0, lastChunk 0]).Reassembled
        ((afterChunks [firstChunk, lastChunk 0]).heldWith "a:s" (lastChunk 0)) (lastChunk 0) ∧
      (afterChunks [firstChunk, lastChunk 0, lastChunk 0]).files (lastChunk 0).uri = none ∧
      crc32Bytes [1, 2] ≠ (lastChunk 0).fileCrc32 := by
  decide +kernel

end Cnetmod.Raft
