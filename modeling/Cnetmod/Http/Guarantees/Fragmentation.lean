import Cnetmod.Http.Spec.SessionRuns

/-!
# Header blocks in several frames

A header block may come in one HEADERS frame or in a HEADERS frame and CONTINUATION
frames. END_STREAM stands on the HEADERS frame only; the session remembers it for
the end of the block, but every CONTINUATION frame that does not end the block
overwrites it with its own flag.
-/
namespace Cnetmod.Http.V2

open Coding Session List

/-- A frame as it is sent, with its length. -/
def Frame.of (header : FrameHeader) (payload : Bytes) : Frame :=
  ⟨{ header with length := payload.length }, payload⟩

/-- The bytes of a HEADERS frame before its block: the pad length and the priority. -/
def leadSize (header : FrameHeader) : Nat :=
  (if header.has flagPadded then 1 else 0) + (if header.has flagPriority then 5 else 0)

/-- CONTINUATION frames; the last one ends the block. -/
def continuations (streamId : Nat) : List Bytes → List Frame
  | [] => []
  | [last] => [.of { type := .continuation, flags := flagEndHeaders, streamId } last]
  | piece :: rest => .of { type := .continuation, streamId } piece :: continuations streamId rest

/-- A HEADERS frame whose block is cut into `first` and `rest`. -/
def fragments (header : FrameHeader) (payload first : Bytes) (rest : List Bytes) : List Frame :=
  if rest.isEmpty then [.of header payload]
  else
    .of { header with flags := header.flags &&& ~~~flagEndHeaders }
        (payload.take (leadSize header) ++ first ++ payload.drop (leadSize header + (first ++ rest.flatten).length)) ::
      continuations header.streamId rest

lemma has_cleared (hdr : FrameHeader) (length : Nat) (flag : UInt8) (ho : ~~~flagEndHeaders &&& flag = flag) :
    ({ hdr with flags := hdr.flags &&& ~~~flagEndHeaders, length } : FrameHeader).has flag = hdr.has flag := by
  simp only [FrameHeader.has, UInt8.and_assoc, ho]

lemma has_endHeaders_cleared (hdr : FrameHeader) (length : Nat) :
    ({ hdr with flags := hdr.flags &&& ~~~flagEndHeaders, length } : FrameHeader).has flagEndHeaders = false := by
  have none : ~~~flagEndHeaders &&& flagEndHeaders = 0 := by decide
  simp [FrameHeader.has, UInt8.and_assoc, none]

/-- The padding a HEADERS frame announces. -/
def padSize (header : FrameHeader) (payload : Bytes) : Nat :=
  if header.has flagPadded then (payload.headD 0).toNat else 0

lemma fragmentOf_headers (ht : hdr.type = .headers) (pl : Bytes) : fragmentOf hdr pl =
      if leadSize hdr > pl.length ∨ padSize hdr pl > pl.length - leadSize hdr then none
      else some ((pl.drop (leadSize hdr)).take (pl.length - leadSize hdr - padSize hdr pl)) := by
  unfold fragmentOf
  simp only [ht, true_and]
  split
  next he =>
    have hs : leadSize hdr > pl.length := by
      rw [isEmpty_iff.mp he.2, leadSize, if_pos he.1, length_nil]
      omega
    rw [if_pos (.inl hs)]
  next hf => rfl

/-- A frame whose parts have the announced sizes. -/
lemma fragmentOf_parts (hdr : FrameHeader) (ht : hdr.type = .headers) (he : lead.length = leadSize hdr)
    (hp : pad.length = padSize hdr (lead ++ part ++ pad)) : fragmentOf hdr (lead ++ part ++ pad) = some part := by
  have hl : (lead ++ part ++ pad).length = lead.length + part.length + pad.length := by
    rw [length_append, length_append]
  rw [fragmentOf_headers ht, if_neg (by omega), ← he, ← hp, hl]
  have hs : lead.length + part.length + pad.length - lead.length - pad.length = part.length := by omega
  rw [hs, append_assoc, drop_left, take_left]

lemma fragmentOf_first (length : Nat) (ht : hdr.type = .headers) (hc : fragmentOf hdr pl = some b) (part : Bytes) :
    fragmentOf { hdr with flags := hdr.flags &&& ~~~flagEndHeaders, length }
      (pl.take (leadSize hdr) ++ part ++ pl.drop (leadSize hdr + b.length)) = some part := by
  have hp := has_cleared hdr length flagPadded (by decide)
  have hr := has_cleared hdr length flagPriority (by decide)
  rw [fragmentOf_headers ht] at hc
  split at hc
  · cases hc
  rename_i hf
  have sz := congrArg List.length (Option.some.inj hc)
  rw [length_take, length_drop] at sz
  refine fragmentOf_parts { hdr with flags := hdr.flags &&& ~~~flagEndHeaders, length } ht ?_ ?_
  · rw [length_take]
    simp only [leadSize, hp, hr] at hf ⊢
    omega
  rw [length_drop]
  simp only [padSize, hp] at hf sz ⊢
  split at hf
  next hi =>
    -- the pad length is still read from the front
    have ha : (pl.take (leadSize hdr) ++ part ++ pl.drop (leadSize hdr + b.length)).headD 0 = pl.headD 0 := by
      obtain ⟨sz, eq⟩ : ∃ sz, leadSize hdr = sz + 1 := ⟨leadSize hdr - 1, by simp [leadSize, hi]; omega⟩
      cases pl with
      | nil => simp [eq] at hf
      | cons byte pl => simp [eq]
    rw [if_pos hi] at sz ⊢
    rw [ha]
    omega
  next hn =>
    rw [if_neg hn] at sz ⊢
    omega

/-- What the state shows of the requests received. -/
structure View where
  streams : AList fun _ : Nat => Stream
  readyRequests : List ReadyRequest
  decoder : HeaderCompression
  lastPeerStreamId : Nat

namespace Session

variable {s : Session}

def view (s : Session) : View where
  streams := s.streams
  readyRequests := s.readyRequests
  decoder := s.decoder
  lastPeerStreamId := s.lastPeerStreamId

variable (cfg : SessionConfig)

/-- Frames one after another, up to the first that is refused. -/
def processFrames (follows : Bool) : Session → List Frame → Session
  | s, [] => s
  | s, frame :: rest =>
    match s.processFrame cfg frame.header frame.payload follows with
    | (s, .ok _) => processFrames follows s rest
    | (s, .error _) => s

/-- A block that is complete. -/
def accept (s : Session) (streamId : Nat) (block : Bytes) (endStream follows : Bool) : Session × Except Errc Unit :=
  if cfg.borrows && endStream then s.acceptDetached streamId block
  else s.acceptStream cfg streamId block endStream follows

/-- The stream is one the peer may open now. -/
def Opens (s : Session) (streamId : Nat) : Prop := streamId % 2 = 1 ∧ s.lastPeerStreamId < streamId

instance (s : Session) (streamId : Nat) : Decidable (s.Opens streamId) :=
  inferInstanceAs (Decidable (_ ∧ _))

/-- No block is being assembled. -/
def idle (s : Session) : Session := { s with continuationStreamId := 0, continuationEndStream := false }

variable {cfg}

lemma processFrames_one (s : Session) (follows : Bool) (f : Frame) :
    processFrames cfg follows s [f] = (s.processFrame cfg f.header f.payload follows).1 := by
  rw [processFrames]
  split
  next hp => rw [hp, processFrames]
  next hp => rw [hp]

lemma fragmentOf_continuation (ht : hdr.type = .continuation) (pl : Bytes) : fragmentOf hdr pl = some pl := by
  simp [fragmentOf, ht]

/-- A frame that ends its block. -/
lemma processHeaders_ended (hdr : FrameHeader) (hp : fragmentOf hdr pl = some fragment) (he : hdr.has flagEndHeaders = true)
    (hu : hdr.type = .continuation ∧ hdr.streamId = s.continuationStreamId ∨
      hdr.type = .headers ∧ s.continuationStreamId = 0) (follows : Bool) : (s.processHeaders cfg hdr pl follows).1.view =
      if s.Opens hdr.streamId then (s.idle.accept cfg hdr.streamId
          (if hdr.type = .continuation then s.headerBlock ++ fragment else fragment)
          (s.continuationEndStream || hdr.has flagEndStream) follows).1.view else s.view := by
  have hi : ¬ (hdr.type = .continuation ∧ hdr.streamId ≠ s.continuationStreamId) ∧
      ¬ (hdr.type = .headers ∧ s.continuationStreamId ≠ 0) := by
    rcases hu with ⟨ht, hs⟩ | ⟨ht, hf⟩
    · simp [ht, hs]
    · simp [ht, hf]
  unfold processHeaders
  by_cases ho : s.Opens hdr.streamId
  · obtain ⟨odd, new⟩ := id ho
    rw [if_neg (by omega), if_neg hi.1, if_neg hi.2, if_pos ho]
    simp only [hp, he, Bool.not_true, Bool.false_eq_true, if_false]
    rw [if_neg (by omega)]
    rfl
  rw [if_neg ho]
  split
  · rfl
  rw [if_neg hi.1, if_neg hi.2]
  simp only [hp, he, Bool.not_true, Bool.false_eq_true, if_false]
  rw [if_pos (by unfold Opens at ho; omega)]
  rfl

variable {id : Nat}

lemma processFrame_last (cfg : SessionConfig) (ha : s.continuationStreamId = id) (p : Bytes) (follows : Bool) :
    (s.processFrame cfg ⟨p.length, .continuation, flagEndHeaders, id⟩ p follows).1.view =
      if p.length ≤ cfg.localSettings.maxFrameSize ∧ s.Opens id then
        (s.idle.accept cfg id (s.headerBlock ++ p) s.continuationEndStream follows).1.view else s.view := by
  have he : FrameHeader.has ⟨p.length, .continuation, flagEndHeaders, id⟩ flagEndHeaders = true := by
    change decide (flagEndHeaders &&& flagEndHeaders ≠ 0) = true
    decide
  have ho : FrameHeader.has ⟨p.length, .continuation, flagEndHeaders, id⟩ flagEndStream = false := by
    change decide (flagEndHeaders &&& flagEndStream ≠ 0) = false
    decide
  unfold processFrame
  dsimp only
  split
  next hl => rw [if_neg (by omega)]
  rename_i hf
  rw [if_neg (by simp), processHeaders_ended _ (fragmentOf_continuation rfl p) he (.inl ⟨rfl, ha.symm⟩)]
  simp only [ho, Bool.or_false, Nat.le_of_not_lt hf, true_and, if_true]

lemma processFrame_more (cfg : SessionConfig) (ha : s.continuationStreamId = id)
    (hp : id ≠ 0) (p : Bytes) (follows : Bool) : s.processFrame cfg ⟨p.length, .continuation, 0, id⟩ p follows =
      if p.length ≤ cfg.localSettings.maxFrameSize then
        ({ s with headerBlock := s.headerBlock ++ p, continuationEndStream := false }, .ok ())
      else (s, .error .messageSize) := by
  have hf : ∀ flag, FrameHeader.has ⟨p.length, .continuation, 0, id⟩ flag = false := by simp [FrameHeader.has]
  unfold processFrame
  dsimp only
  split
  next hl => rw [if_neg (by omega)]
  rw [if_neg (by simp), if_pos (by omega)]
  unfold processHeaders
  rw [if_neg hp, if_neg (by simp [ha]), if_neg (by simp), fragmentOf_continuation rfl]
  subst ha
  simp only [hf, Bool.not_false, if_true]

/-- The frames after the first one. Only the first of them still knows of END_STREAM. -/
lemma view_continuations (cfg : SessionConfig) (hp : id ≠ 0) (follows : Bool) (ps : List Bytes)
    (some : ps ≠ []) (ha : s.continuationStreamId = id) : (processFrames cfg follows s (continuations id ps)).view =
      if (∀ p ∈ ps, p.length ≤ cfg.localSettings.maxFrameSize) ∧ s.Opens id then
        (s.idle.accept cfg id (s.headerBlock ++ ps.flatten) (s.continuationEndStream && ps.length = 1) follows).1.view
      else s.view := by
  induction ps generalizing s with
  | nil => exact absurd rfl some
  | cons p tl ih =>
    cases tl with
    | nil =>
      have hl := processFrame_last cfg ha p follows
      simpa [continuations, processFrames_one, Frame.of] using hl
    | cons next tl =>
      have hm := processFrame_more cfg ha hp p follows
      have hr : continuations id (p :: next :: tl) =
          .of { type := .continuation, streamId := id } p :: continuations id (next :: tl) := rfl
      rw [hr, processFrames]
      dsimp only [Frame.of]
      rw [hm]
      by_cases hf : p.length ≤ cfg.localSettings.maxFrameSize
      · rw [if_pos hf]
        rw [ih (cons_ne_nil _ _)
          (s := { s with headerBlock := s.headerBlock ++ p, continuationEndStream := false })
          ha]
        refine if_congr ?_ ?_ rfl
        · rw [forall_mem_cons (a := p)]
          exact and_congr_left fun _ => ⟨fun tl => ⟨hf, tl⟩, And.right⟩
        have hs : decide ((p :: next :: tl).length = 1) = false := by simp
        rw [hs, Bool.and_false, append_assoc]
        rfl
      · rw [if_neg hf, if_neg fun all => hf (all.1 p mem_cons_self)]

/-- The block decodes to headers of a request. -/
def validBlock (s : Session) (block : Bytes) : Bool :=
  match (s.decoder.decode block).2 with
  | .ok fields => validateHeaders fields
  | .error _ => false

/-- Only the decoder has moved on. -/
lemma view_accept_refused (hf : s.streams.lookup id = none) (hr : s.validBlock b = false) (fin follows : Bool) :
    (s.accept cfg id b fin follows).1.view = { s.view with decoder := (s.decoder.decode b).1 } := by
  unfold validBlock at hr
  have hp : ∃ strm, (s.newStream cfg id).prepareHeaders fin = some strm := ⟨_, rfl⟩
  unfold accept acceptDetached acceptStream
  match hde : s.decoder.decode b with
  | (decoder, .error code) =>
    rw [hf]
    split <;> rfl
  | (decoder, .ok fields) =>
    rw [hde] at hr
    dsimp only at hr
    rw [hf]
    simp only [hr, Bool.not_false, if_true]
    split <;> rfl

lemma startStreamingRequest_requests (s : Session) (id : Nat) :
    (s.startStreamingRequest cfg id).lastPeerStreamId = s.lastPeerStreamId ∧
      (s.startStreamingRequest cfg id).readyRequests = s.readyRequests := by
  unfold startStreamingRequest
  cases s.streams.lookup id with
  | none => exact ⟨rfl, rfl⟩
  | some strm =>
    dsimp only
    split <;> exact ⟨rfl, rfl⟩

/-- The stream is opened; a request that is complete is ready. -/
lemma accept_taken (cfg : SessionConfig) (hf : s.streams.lookup id = none)
    (hv : s.validBlock b = true) (fin follows : Bool) : (s.accept cfg id b fin follows).1.lastPeerStreamId = id ∧
      (s.accept cfg id b fin follows).1.readyRequests.length = s.readyRequests.length + if fin then 1 else 0 := by
  unfold validBlock at hv
  match hde : s.decoder.decode b with
  | (decoder, .error code) => simp [hde] at hv
  | (decoder, .ok fields) =>
    rw [hde] at hv
    dsimp only at hv
    unfold accept
    split
    next ha =>
      rw [(Bool.and_eq_true_iff.mp ha).2]
      simp [acceptDetached, hde, hv]
    next ht =>
      obtain ⟨strm, hp⟩ : ∃ strm, (s.newStream cfg id).prepareHeaders fin = some strm := ⟨_, rfl⟩
      simp only [acceptStream, hf, hp, hde, hv, Bool.not_true, Bool.false_eq_true, if_false]
      split
      next hs =>
        have ho : fin = false := by
          simp only [SessionConfig.startsStreaming, Bool.and_eq_true, Bool.not_eq_true'] at hs
          exact hs.1.1.2
        rw [(startStreamingRequest_requests _ _).1, (startStreamingRequest_requests _ _).2, ho]
        exact ⟨rfl, rfl⟩
      cases fin with
      | false => exact ⟨rfl, rfl⟩
      | true => simp

end Session

/-- Where a block in pieces and the same block in one frame part ways: it opens a stream, all
the pieces fit into frames, and either END_STREAM stands before two or more CONTINUATION
frames, or the one frame is too long to be looked at. -/
def Session.Diverges (cfg : SessionConfig) (s : Session) (header : FrameHeader) (payload first : Bytes)
    (rest : List Bytes) : Prop :=
  s.continuationStreamId = 0 ∧ s.Opens header.streamId ∧
    (∀ frame ∈ fragments header payload first rest, frame.payload.length ≤ cfg.localSettings.maxFrameSize) ∧
    if payload.length ≤ cfg.localSettings.maxFrameSize then
      header.has flagEndStream = true ∧ 2 ≤ rest.length ∧ s.validBlock (first ++ rest.flatten) = true
    else
      s.validBlock (first ++ rest.flatten) = true ∨ (s.decoder.decode (first ++ rest.flatten)).1 ≠ s.decoder

namespace Session

variable {cfg : SessionConfig} {s : Session} {hdr : FrameHeader} {pl b first : Bytes} {rest : List Bytes}

/-- A HEADERS frame that is not even looked at. -/
lemma processFrame_refused (cfg : SessionConfig) (s : Session) (hdr : FrameHeader) (pl : Bytes) (ht : hdr.type = .headers)
    (hr : hdr.length > cfg.localSettings.maxFrameSize ∨ s.continuationStreamId ≠ 0 ∨ hdr.streamId = 0) (follows : Bool) :
    ∃ code, s.processFrame cfg hdr pl follows = (s, .error code) := by
  obtain ⟨len, kind, flags, id⟩ := hdr
  obtain rfl : kind = .headers := ht
  unfold processFrame
  dsimp only at hr ⊢
  split
  · exact ⟨_, rfl⟩
  split
  · exact ⟨_, rfl⟩
  rename_i hs hb
  have hz : id = 0 := by
    have hf : s.continuationStreamId = 0 := by simpa using hb
    omega
  rw [processHeaders, if_pos hz]
  exact ⟨_, rfl⟩

lemma view_whole (hg : s.core.assembly.Clean) (ht : hdr.type = .headers)
    (he : hdr.has flagEndHeaders = true) (hc : fragmentOf hdr pl = some b) (follows : Bool) :
    (processFrames cfg follows s [.of hdr pl]).view = if s.continuationStreamId = 0 ∧ s.Opens hdr.streamId ∧
          pl.length ≤ cfg.localSettings.maxFrameSize then
        (s.idle.accept cfg hdr.streamId b (hdr.has flagEndStream) follows).1.view else s.view := by
  obtain ⟨len, kind, flags, id⟩ := hdr
  obtain rfl : kind = .headers := ht
  rw [processFrames_one]
  change (s.processFrame cfg ⟨pl.length, .headers, flags, id⟩ pl follows).1.view = _
  by_cases hl : pl.length ≤ cfg.localSettings.maxFrameSize ∧ s.continuationStreamId = 0
  · obtain ⟨ha, hf⟩ := hl
    have hj : s.continuationEndStream = false := (hg hf).1
    unfold processFrame
    rw [if_neg (not_lt.mpr ha), if_neg fun hb => hb.1 hf,
      processHeaders_ended ⟨pl.length, .headers, flags, id⟩ hc he (.inr ⟨rfl, hf⟩)]
    simp only [hj, hf, ha, true_and, and_true, Bool.false_or]
    rfl
  · obtain ⟨code, hr⟩ := processFrame_refused cfg s ⟨pl.length, .headers, flags, id⟩ pl rfl (by dsimp only; omega) follows
    rw [hr, if_neg fun all => hl ⟨all.2.2, all.1⟩]

lemma processFrame_first (hl : s.core.assembly.Clean) (ht : hdr.type = .headers)
    (hc : fragmentOf hdr pl = some b) (part : Bytes) (follows : Bool) (hf : s.continuationStreamId = 0) (hp : hdr.streamId ≠ 0)
    (ha : p = pl.take (leadSize hdr) ++ part ++ pl.drop (leadSize hdr + b.length))
    (hg : p.length ≤ cfg.localSettings.maxFrameSize) :
    s.processFrame cfg ⟨p.length, hdr.type, hdr.flags &&& ~~~flagEndHeaders, hdr.streamId⟩ p follows = ({ s with
        headerBlock := part
        continuationStreamId := hdr.streamId
        continuationEndStream := hdr.has flagEndStream }, .ok ()) := by
  obtain ⟨len, kind, flags, id⟩ := hdr
  obtain rfl : kind = .headers := ht
  have hr : s.headerBlock = [] := (hl hf).2
  have hd := fragmentOf_first p.length rfl hc part
  rw [← ha] at hd
  have hm := has_endHeaders_cleared ⟨len, .headers, flags, id⟩ p.length
  have he := has_cleared ⟨len, .headers, flags, id⟩ p.length flagEndStream (by decide)
  unfold processFrame
  rw [if_neg (not_lt.mpr hg)]
  simp [processHeaders, hp, hf, hd, hm, he, hr]

lemma continuations_payload (id : Nat) (ps : List Bytes) : (continuations id ps).map Frame.payload = ps := by
  induction ps with
  | nil => rfl
  | cons p tl ih =>
    cases tl with
    | nil => rfl
    | cons next tl => exact congrArg (p :: ·) ih

lemma view_split (he : s.core.assembly.Clean) (ht : hdr.type = .headers)
    (hg : fragmentOf hdr pl = some b) (cut : b = first ++ rest.flatten) (hs : rest ≠ []) (follows : Bool) :
    (processFrames cfg follows s (fragments hdr pl first rest)).view = if s.continuationStreamId = 0 ∧ s.Opens hdr.streamId ∧
          (∀ frame ∈ fragments hdr pl first rest, frame.payload.length ≤ cfg.localSettings.maxFrameSize) then
        (s.idle.accept cfg hdr.streamId b (hdr.has flagEndStream && rest.length = 1) follows).1.view else s.view := by
  have hf : fragments hdr pl first rest = .of { hdr with flags := hdr.flags &&& ~~~flagEndHeaders }
        (pl.take (leadSize hdr) ++ first ++ pl.drop (leadSize hdr + b.length)) ::
      continuations hdr.streamId rest := by
    rw [fragments, if_neg (by simpa using hs), cut]
  generalize hpr : pl.take (leadSize hdr) ++ first ++ pl.drop (leadSize hdr + b.length) = piece at hf
  have hj (lim : Nat) : (∀ frame ∈ fragments hdr pl first rest, frame.payload.length ≤ lim) ↔
      piece.length ≤ lim ∧ ∀ piece ∈ rest, piece.length ≤ lim := by
    rw [hf, forall_mem_cons]
    conv_rhs => rw [← continuations_payload hdr.streamId rest]
    refine and_congr Iff.rfl ?_
    rw [forall_mem_map]
  simp only [hj]
  rw [hf, processFrames]
  dsimp only [Frame.of]
  by_cases hl : piece.length ≤ cfg.localSettings.maxFrameSize ∧ s.continuationStreamId = 0 ∧ hdr.streamId ≠ 0
  · obtain ⟨ha, hb, hp⟩ := hl
    rw [processFrame_first he ht hg first follows hb hp hpr.symm ha]
    have hc := view_continuations cfg hp follows rest hs
      (s := { s with
        headerBlock := first
        continuationStreamId := hdr.streamId
        continuationEndStream := hdr.has flagEndStream }) rfl
    rw [hc, ← cut]
    refine if_congr ?_ rfl rfl
    exact ⟨fun ⟨all, ho⟩ => ⟨hb, ho, ha, all⟩, fun ⟨_, ho, _, all⟩ => ⟨all, ho⟩⟩
  · obtain ⟨code, hr⟩ := processFrame_refused cfg s
      ⟨piece.length, hdr.type, hdr.flags &&& ~~~flagEndHeaders, hdr.streamId⟩ piece
      ht (by dsimp only; omega) follows
    rw [hr, if_neg]
    rintro ⟨hb, ⟨odd, new⟩, ha, -⟩
    exact hl ⟨ha, hb, by omega⟩

lemma fragmentOf_length (ht : hdr.type = .headers) (hc : fragmentOf hdr pl = some b) : leadSize hdr + b.length ≤ pl.length := by
  rw [fragmentOf_headers ht] at hc
  split at hc
  · cases hc
  have hs := congrArg length (Option.some.inj hc)
  rw [length_take] at hs
  omega

/-- The pieces of a frame are not longer than the frame. -/
lemma fragments_length (ht : hdr.type = .headers) (hc : fragmentOf hdr pl = some b) (cut : b = first ++ rest.flatten) :
    ∀ fr ∈ fragments hdr pl first rest, fr.payload.length ≤ pl.length := by
  have ha := fragmentOf_length ht hc
  have hp : b.length = first.length + rest.flatten.length := by rw [cut, length_append]
  unfold fragments
  split
  · simp [Frame.of]
  refine forall_mem_cons.mpr ⟨?_, fun fr hm => ?_⟩
  · simp only [Frame.of, ← cut, length_append, length_take, length_drop]
    omega
  have hl := mem_map_of_mem (f := Frame.payload) hm
  rw [continuations_payload] at hl
  have hs := (sublist_flatten_of_mem hl).length_le
  omega

/-- With END_STREAM before two or more CONTINUATION frames the request is not complete. -/
lemma view_accept_endStream (cfg : SessionConfig) (b : Bytes)
    (hf : s.streams.lookup hdr.streamId = none) (follows : Bool) : (s.accept cfg hdr.streamId b false follows).1.view =
        (s.accept cfg hdr.streamId b true follows).1.view ↔ s.validBlock b = false := by
  constructor
  · intro hs
    by_contra hv
    have ho := (accept_taken cfg hf (Bool.eq_true_of_not_eq_false hv) false follows).2
    have hc := (accept_taken cfg hf (Bool.eq_true_of_not_eq_false hv) true follows).2
    have he := congrArg (fun view => view.readyRequests.length) hs
    simp only [view, ho, hc] at he
    simp at he
  · intro hr
    rw [view_accept_refused hf hr, view_accept_refused hf hr]

/-- A block that is looked at shows, unless it is refused without a trace in the decoder. -/
lemma view_accept_unseen (cfg : SessionConfig) (b : Bytes) (hf : s.streams.lookup hdr.streamId = none)
    (new : s.lastPeerStreamId < hdr.streamId) (fin follows : Bool) : (s.accept cfg hdr.streamId b fin follows).1.view = s.view ↔
      s.validBlock b = false ∧ (s.decoder.decode b).1 = s.decoder := by
  constructor
  · intro hs
    have hr : s.validBlock b = false := by
      by_contra hv
      have ho := (accept_taken cfg hf (Bool.eq_true_of_not_eq_false hv) fin follows).1
      have hl := congrArg View.lastPeerStreamId hs
      simp only [view, ho] at hl
      omega
    rw [view_accept_refused hf hr] at hs
    exact ⟨hr, congrArg View.decoder hs⟩
  · rintro ⟨hr, he⟩
    rw [view_accept_refused hf hr, he]
    rfl

end Session

/-- A block in pieces leaves the session as the same block in one frame does, but for the
cases above. -/
theorem split_block_same_iff {cfg : SessionConfig} {s : Session} (reachable : s.Reachable cfg)
    {header : FrameHeader} {payload block first : Bytes} {rest : List Bytes}
    (type : header.type = .headers) (ends : header.has flagEndHeaders = true)
    (carries : fragmentOf header payload = some block) (cut : block = first ++ rest.flatten)
    (follows : Bool) :
    (processFrames cfg follows s (fragments header payload first rest)).view =
        (processFrames cfg follows s [.of header payload]).view ↔
      ¬ s.Diverges cfg header payload first rest := by
  have hk := reachable.known
  have hb := fragments_length type carries cut
  by_cases hs : rest = []
  · subst hs
    refine ⟨fun _ hg => ?_, fun _ => rfl⟩
    obtain ⟨-, -, fit, way⟩ := hg
    have hw : payload.length ≤ cfg.localSettings.maxFrameSize :=
      fit (.of header payload) (by simp [fragments])
    rw [if_pos hw] at way
    exact absurd way.2.1 (by simp)
  rw [view_whole hk.clean type ends carries, view_split hk.clean type carries cut hs]
  unfold Diverges
  rw [← cut]
  by_cases ho : s.continuationStreamId = 0 ∧ s.Opens header.streamId
  case neg =>
    rw [if_neg fun all => ho ⟨all.1, all.2.1⟩, if_neg fun all => ho ⟨all.1, all.2.1⟩]
    exact ⟨fun _ all => ho ⟨all.1, all.2.1⟩, fun _ => rfl⟩
  obtain ⟨hf, ho⟩ := ho
  have hq : s.streams.lookup header.streamId = none := by
    cases hh : s.streams.lookup header.streamId with
    | none => rfl
    | some strm =>
      have old := hk.tabled header.streamId (by simp [core, hh])
      exact absurd ho.2 (Nat.not_lt.mpr old)
  by_cases fit : ∀ f ∈ fragments header payload first rest, f.payload.length ≤ cfg.localSettings.maxFrameSize
  case neg =>
    have hl : ¬ payload.length ≤ cfg.localSettings.maxFrameSize :=
      fun hj => fit fun f hm => (hb f hm).trans hj
    rw [if_neg fun all => fit all.2.2, if_neg fun all => hl all.2.2]
    exact ⟨fun _ all => fit all.2.2.1, fun _ => rfl⟩
  rw [if_pos ⟨hf, ho, fit⟩]
  by_cases hw : payload.length ≤ cfg.localSettings.maxFrameSize
  · rw [if_pos ⟨hf, ho, hw⟩, if_pos hw]
    cases he : header.has flagEndStream with
    | false => simp
    | true =>
      by_cases one : rest.length = 1
      · simp [one]
      have two : 2 ≤ rest.length := by
        have := length_pos_iff.mpr hs
        omega
      have hp := view_accept_endStream (s := s.idle) cfg block hq follows
      simp only [one, decide_false, Bool.and_false, hp]
      constructor
      · intro hr hg
        exact Bool.false_ne_true (hr.symm.trans hg.2.2.2.2.2)
      intro ha
      by_contra hv
      exact ha ⟨hf, ho, fit, trivial, two, Bool.eq_true_of_not_eq_false hv⟩
  · rw [if_neg fun all => hw all.2.2, if_neg hw]
    have hx := view_accept_unseen (s := s.idle) cfg block hq ho.2 (header.has flagEndStream && rest.length = 1) follows
    refine hx.trans ⟨fun hu hg => ?_, fun ha => ?_⟩
    · obtain ⟨hr, ht⟩ := hu
      rcases hg.2.2.2 with hv | hc
      · exact Bool.false_ne_true (hr.symm.trans hv)
      · exact hc ht
    by_contra hse
    refine ha ⟨hf, ho, fit, ?_⟩
    by_contra hn
    exact hse ⟨Bool.eq_false_iff.mpr fun hv => hn (.inl hv),
      by_contra fun hc => hn (.inr hc)⟩

/-- `GET` of `/` over `http`, complete with its HEADERS frame. -/
def getRoot : FrameHeader := { type := .headers, flags := flagEndHeaders ||| flagEndStream, streamId := 1 }

theorem split_block_same_iff_one_continuation :
    (processFrames {} false {} (fragments getRoot [0x82, 0x84, 0x86] [0x82] [[0x84, 0x86]])).view =
      (processFrames {} false {} [.of getRoot [0x82, 0x84, 0x86]]).view :=
  (split_block_same_iff .start rfl (by decide) (by decide) rfl false).mpr fun diverges => by simp [Diverges] at diverges

/-- In three frames the same request is not complete. -/
theorem three_frames_not_ready :
    (processFrames {} false {} [.of getRoot [0x82, 0x84, 0x86]]).readyRequests = [{ streamId := 1 }] ∧
      (processFrames {} false {} (fragments getRoot [0x82, 0x84, 0x86] [0x82] [[0x84], [0x86]]) ).readyRequests = [] := by
  decide +kernel

end Cnetmod.Http.V2
