import Cnetmod.Http.Source.Receive

/-!
# What the session does when it answers

Every function that queues a response is a sequence of a few kinds of moves on the
part of the session the guarantees speak about: its windows, the requests that are
waiting, the frames it has sent and its header encoder. A `Move` states one of them
with what the code has checked by then, and the fields it encoded. A request that
never entered the stream table moves as if it had entered when it was answered:
`Session.coreAt` is the table with that entry.
-/
namespace Cnetmod.Http.V2

open ServerResponse Coding Function List AList

/-- A header block that is not complete yet. -/
structure Assembly where
  streamId : Nat
  endStream : Bool
  block : Bytes

/-- Nothing is left over when no block is being assembled. -/
def Assembly.Clean (a : Assembly) : Prop := a.streamId = 0 → a.endStream = false ∧ a.block = []

/-- The part of a session the guarantees speak about. -/
structure Core where
  initial : Nat
  sendWindow : Int
  /-- the send windows of the stream table -/
  window : Nat → Option Int
  ready : List (Nat × Bool)
  last : Nat
  /-- the DATA frames queued: stream and size -/
  sent : List (Nat × Nat)
  encoder : HeaderCompression
  blocks : List (List HeaderField × Bytes)
  waiting : Nat → Option (List HeaderField × Bytes)
  assembly : Assembly

/-- The DATA frames among `frames`. -/
def dataFrames (frames : List Frame) : List (Nat × Nat) :=
  frames.filterMap fun frame =>
    if frame.header.type = .data then some (frame.header.streamId, frame.payload.length) else none

def Session.core (s : Session) : Core where
  initial := s.peer.initialWindowSize
  sendWindow := s.sendWindow
  window id := (s.streams.lookup id).map fun stream => stream.sendWindow.value
  ready := s.readyRequests.map fun ready => (ready.streamId, ready.detached)
  last := s.lastPeerStreamId
  sent := dataFrames s.outbound
  encoder := s.encoder
  blocks := s.sentHeaders
  waiting id := (s.sourceWrites.lookup id).bind SourceWrite.waiting
  assembly := ⟨s.continuationStreamId, s.continuationEndStream, s.headerBlock⟩

/-- One move, with the fields it encodes. The blocks encoded in advance that it may use are
those of `P`. -/
inductive Move (P : PreencodedHeaderBlock → Prop) : Core → List HeaderField → Core → Prop where
  | assemble {c : Core} {a : Assembly} (clean : a.Clean) : Move P c [] { c with assembly := a }
  /-- HEADERS opens a stream in the table -/
  | enter {c : Core} {id : Nat} (new : c.last < id) :
    Move P c [] { c with window := update c.window id (some c.initial), last := id }
  /-- HEADERS completes a request that stays out of the table -/
  | detach {c : Core} {id : Nat} (new : c.last < id) :
    Move P c [] { c with ready := c.ready ++ [(id, true)], last := id }
  /-- a request in the table is complete -/
  | complete {c : Core} {id : Nat} (open_ : (c.window id).isSome) :
    Move P c [] { c with ready := c.ready ++ [(id, false)] }
  /-- a request in the table is given to its handler -/
  | take {c : Core} {id : Nat} {rest : List (Nat × Bool)} (first : c.ready = (id, false) :: rest) :
    Move P c [] { c with ready := rest }
  /-- a detached request is answered, on the peer's initial window -/
  | answer {c : Core} {id : Nat} {rest : List (Nat × Bool)} (first : c.ready = (id, true) :: rest) :
    Move P c []
      { c with
        ready := rest
        window := update c.window id (some ((c.window id).getD c.initial)) }
  | data {c : Core} {id size : Nat} {w : Int} (open_ : c.window id = some w) (fits : size ≤ w)
    (allowed : size ≤ c.sendWindow) :
    Move P c []
      { c with
        sendWindow := c.sendWindow - size
        window := update c.window id (some (w - size))
        sent := c.sent ++ [(id, size)] }
  /-- an empty DATA frame ends a response, whether or not its stream is still there -/
  | close {c : Core} {id : Nat} : Move P c [] { c with sent := c.sent ++ [(id, 0)] }
  | retire {c : Core} {id : Nat} : Move P c [] { c with window := update c.window id none }
  | reset {c : Core} {id : Nat} :
    Move P c []
      { c with
        window := update c.window id none
        ready := c.ready.filter fun ready => ready.1 ≠ id }
  | headers {c : Core} {fields : List HeaderField} {encoder : HeaderCompression} {block : Bytes}
    (encoded : c.encoder.encode fields = (encoder, .ok block)) :
    Move P c fields { c with encoder, blocks := c.blocks ++ [(fields, block)] }
  /-- a field without a name -/
  | refuse {c : Core} {fields : List HeaderField} {encoder : HeaderCompression} {code : Errc}
    (encoded : c.encoder.encode fields = (encoder, .error code)) :
    Move P c fields { c with encoder }
  | preencoded {c : Core} {pre : PreencodedHeaderBlock} (offered : P pre) :
    Move P c [] { c with blocks := c.blocks ++ [(pre.fields, pre.block)] }
  | release {c : Core} {id : Nat} {fields : List HeaderField} {block : Bytes}
    (held : c.waiting id = some (fields, block)) :
    Move P c []
      { c with
        blocks := c.blocks ++ [(fields, block)]
        waiting := update c.waiting id none }

/-- Moves one after another, with all the fields they encode. -/
inductive Moves (P : PreencodedHeaderBlock → Prop) : Core → List HeaderField → Core → Prop where
  | refl (c : Core) : Moves P c [] c
  | step {c d e : Core} {fields rest : List HeaderField} :
    Move P c fields d → Moves P d rest e → Moves P c (fields ++ rest) e

variable {P : PreencodedHeaderBlock → Prop}

section

variable {c d e : Core} {fields rest : List HeaderField}

namespace Moves

lemma one (hm : Move P c fields d) : Moves P c fields d := by
  have := Moves.step hm (.refl d)
  rwa [append_nil] at this

lemma trans (hf : Moves P c fields d) (hs : Moves P d rest e) : Moves P c (fields ++ rest) e := by
  induction hf with
  | refl c => exact hs
  | step hm _ ih =>
    rw [append_assoc]
    exact .step hm (ih hs)

/-- Moves that encode nothing, then others. -/
lemma silent (hf : Moves P c [] d) (hs : Moves P d fields e) : Moves P c fields e := hf.trans hs

lemma of_eq (hs : c = d) : Moves P c [] d := hs ▸ .refl c

end Moves

/-- What may come last: a block that is encoded and then waits for the writer. -/
inductive Finish : Core → List HeaderField → Core → Prop where
  | done (c : Core) : Finish c [] c
  | hold {c : Core} {id : Nat} {fields : List HeaderField} {encoder : HeaderCompression}
    {block : Bytes} (some : fields ≠ [])
    (encoded : c.encoder.encode fields = (encoder, .ok block)) :
    Finish c fields { c with encoder, waiting := update c.waiting id (Option.some (fields, block)) }

/-- All that a step of the session does. -/
inductive Turn (P : PreencodedHeaderBlock → Prop) (c : Core) (fields : List HeaderField) (e : Core) : Prop where
  | mk {d : Core} {first last : List HeaderField} (all : fields = first ++ last)
    (moves : Moves P c first d) (finish : Finish d last e)

lemma Moves.turn (hm : Moves P c fields d) : Turn P c fields d := ⟨(append_nil _).symm, hm, .done d⟩

lemma Finish.turn (hf : Finish c fields d) : Turn P c fields d := ⟨(nil_append _).symm, .refl c, hf⟩

lemma Moves.before (hm : Moves P c [] d) (ht : Turn P d fields e) : Turn P c fields e := by
  obtain ⟨all, hr, hf⟩ := ht
  exact ⟨all, hm.silent hr, hf⟩

end

namespace Session

variable {cfg : SessionConfig} (s : Session)

lemma core_queueFrame {s : Session} (hc : hdr.type ≠ .data) : (s.queueFrame hdr pl).core = s.core := by
  simp [core, queueFrame, dataFrames, hc]

lemma core_queueConnectionError (code : Nat) : (s.queueConnectionError code).core = s.core := by
  simp [core, queueConnectionError, queueFrame, dataFrames]

lemma core_queueHeaders (id : Nat) (fin : Bool) (fs : List HeaderField) (b : Bytes) :
    (s.queueHeaders id fin fs b).core = { s.core with blocks := s.core.blocks ++ [(fs, b)] } := by
  simp [core, queueHeaders, queueFrame, dataFrames]

/-- The core with stream `id` in the table, on the window it is answered with. -/
def coreAt (s : Session) (id offset : Nat) : Core :=
  { s.core with window := update s.core.window id (some (s.streamWindow id offset)) }

lemma coreAt_of_lookup {s : Session} {id : Nat} (hh : s.streams.lookup id = some strm) (o : Nat) : s.coreAt id o = s.core := by
  have hw : s.core.window id = some (s.streamWindow id o) := by simp [core, streamWindow, hh]
  rw [coreAt, ← hw, update_eq_self]

lemma coreAt_queueHeaders (id o : Nat) (fin : Bool) (fs : List HeaderField) (b : Bytes) :
    (s.queueHeaders id fin fs b).coreAt id o = { s.coreAt id o with blocks := s.sentHeaders ++ [(fs, b)] } := by
  rw [coreAt, core_queueHeaders]
  rfl

/-- Off the stream itself the table is as it was. -/
lemma window_chargeData_ne {s : Session} {id o : Nat} (sz : Nat) (ha : o ≠ id) :
    (s.chargeData id sz).core.window o = s.core.window o := by
  unfold chargeData core
  dsimp only
  cases s.streams.lookup id with
  | none => rfl
  | some strm => rw [lookup_insert_ne ha]

lemma FlowWindow_consume_value {w : FlowWindow} {sz : Nat} (hf : sz ≤ w.value) :
    ((w.consume sz).getD w).value = w.value - sz := by
  unfold FlowWindow.consume
  rw [if_neg (by omega)]
  rfl

/-- A DATA frame takes as much from the stream as it carries. -/
lemma streamWindow_chargeData {s : Session} {id o sz : Nat} (hf : sz ≤ s.streamWindow id o) :
    (s.chargeData id sz).streamWindow id (o + sz) = s.streamWindow id o - sz := by
  unfold streamWindow at hf ⊢
  cases hh : s.streams.lookup id with
  | none =>
    simp only [chargeData, hh]
    omega
  | some strm =>
    rw [hh] at hf
    simp only [chargeData, hh, lookup_insert]
    exact FlowWindow_consume_value hf

lemma move_data {s : Session} {id o sz : Nat} (hl : pl.length = sz) (hf : sz ≤ s.streamWindow id o)
    (ha : sz ≤ s.sendWindow) : Move P (s.coreAt id o) []
      (((s.chargeData id sz).queueFrame { type := .data, flags, streamId := id } pl).coreAt id (o + sz)) := by
  have hw : (s.coreAt id o).window id = some (s.streamWindow id o) := update_self ..
  have ht : update (s.chargeData id sz).core.window id (some ((s.chargeData id sz).streamWindow id (o + sz))) =
      update (s.coreAt id o).window id (some (s.streamWindow id o - sz)) := by
    rw [streamWindow_chargeData hf, coreAt, update_idem, update_eq_iff]
    refine ⟨by rw [update_self], fun d hs => ?_⟩
    rw [window_chargeData_ne sz hs, update_of_ne hs]
  have he : dataFrames (s.outbound ++ [⟨{ type := .data, flags, streamId := id, length := pl.length }, pl⟩]) =
      dataFrames s.outbound ++ [(id, sz)] := by
    simp [dataFrames, hl]
  have next : ((s.chargeData id sz).queueFrame { type := .data, flags, streamId := id } pl).coreAt id (o + sz) =
      { s.coreAt id o with
        sendWindow := s.sendWindow - sz
        window := update (s.coreAt id o).window id (some (s.streamWindow id o - sz))
        sent := dataFrames s.outbound ++ [(id, sz)] } := by
    rw [← ht, ← he]
    rfl
  rw [next]
  exact .data hw hf ha

/-- Answering stream `id` from body offset `offset` to `offset'`. -/
structure Answering (s : Session) (id offset : Nat) (fields : List HeaderField) (s' : Session)
    (offset' : Nat) : Prop where
  moves : ∀ {P}, Moves P (s.coreAt id offset) fields (s'.coreAt id offset')
  member : (s'.streams.lookup id).isSome = (s.streams.lookup id).isSome
  /-- a window that is not negative does not become so -/
  window : 0 ≤ s.streamWindow id offset → 0 ≤ s'.streamWindow id offset'
  pending : s'.pendingResponses = s.pendingResponses

lemma Answering.refl (id o : Nat) : Answering s id o [] s o where
  moves := .refl _
  member := rfl
  window := fun h => h
  pending := rfl

lemma Answering.trans {s t u : Session} {id i j k : Nat}
    (a : Answering s id i hd t j) (b : Answering t id j second u k) :
    Answering s id i (hd ++ second) u k where
  moves := a.moves.trans b.moves
  member := b.member.trans a.member
  window := b.window ∘ a.window
  pending := b.pending.trans a.pending

lemma answering_data {s : Session} {id o sz : Nat} (hl : pl.length = sz) (hf : sz ≤ s.streamWindow id o)
    (ha : sz ≤ s.sendWindow) : Answering s id o [] ((s.chargeData id sz).queueFrame { type := .data, flags, streamId := id } pl)
      (o + sz) where
  moves := .one (move_data hl hf ha)
  member := by
    simp only [queueFrame, chargeData]
    cases hh : s.streams.lookup id with
    | none => simp [hh]
    | some strm => simp [lookup_insert]
  window := fun _ => by
    have hc := streamWindow_chargeData hf
    change 0 ≤ (s.chargeData id sz).streamWindow id (o + sz)
    omega
  pending := rfl

lemma answering_dataLoop (k : Nat) (s : Session) (id : Nat) (body : Bytes) (trailers : Bool) (o : Nat) :
    Answering s id o [] (dataLoop k s id body trailers o).1 (dataLoop k s id body trailers o).2.1 := by
  induction k generalizing s o with
  | zero => exact .refl ..
  | succ k ih =>
    rw [dataLoop]
    dsimp only
    split
    case isFalse => exact .refl ..
    split
    case isTrue => exact .refl ..
    case isFalse hm hc =>
      refine Answering.trans (answering_data ?_ ?_ ?_) (ih ..)
      · rw [length_take, length_drop]
        omega
      · omega
      · omega

lemma answering_queueResponseTrailers (id o : Nat) (resp : ServerResponse) :
    Answering s id o resp.responseTrailers (s.queueResponseTrailers id resp).1 o := by
  unfold queueResponseTrailers
  match he : s.encoder.encode resp.responseTrailers with
  | (encoder, .error code) => exact ⟨.one (.refuse he), rfl, fun h => h, rfl⟩
  | (encoder, .ok block) =>
    refine ⟨?_, rfl, fun h => h, rfl⟩
    rw [coreAt_queueHeaders]
    exact .one (.headers he)

lemma moves_queueResponseTrailers (id : Nat) (resp : ServerResponse) :
    Moves P s.core resp.responseTrailers (s.queueResponseTrailers id resp).1.core := by
  unfold queueResponseTrailers
  match he : s.encoder.encode resp.responseTrailers with
  | (encoder, .error code) => exact .one (.refuse he)
  | (encoder, .ok block) =>
    rw [core_queueHeaders]
    exact .one (.headers he)

lemma answering_queueConnectionError (id o code : Nat) : Answering s id o [] (s.queueConnectionError code) o where
  moves := .of_eq (by rw [coreAt, coreAt, core_queueConnectionError]; rfl)
  member := rfl
  window := fun h => h
  pending := rfl

/-- Nothing is encoded, or the trailers are. -/
lemma answering_queueResponseData (id : Nat) (resp : ServerResponse) (o : Nat) (det : Bool) :
    ∃ fields, (fields = [] ∨ fields = resp.responseTrailers) ∧
      Answering s id o fields (s.queueResponseData id resp o det).1 (s.queueResponseData id resp o det).2.1 := by
  unfold queueResponseData
  split
  · exact ⟨[], .inl rfl, .refl ..⟩
  have hl := answering_dataLoop (resp.bodyBytes.length - o) s id resp.bodyBytes resp.hasTrailers o
  dsimp only
  match ran : dataLoop (resp.bodyBytes.length - o) s id resp.bodyBytes
      resp.hasTrailers o with
  | (t, offset', false) =>
    rw [ran] at hl
    exact ⟨[], .inl rfl, hl⟩
  | (t, offset', true) =>
    rw [ran] at hl
    dsimp only at hl ⊢
    split
    · have ht := answering_queueResponseTrailers t id offset' resp
      match hq : t.queueResponseTrailers id resp with
      | (u, .ok _) =>
        rw [hq] at ht
        exact ⟨_, .inr rfl, hl.trans ht⟩
      | (u, .error _) =>
        rw [hq] at ht
        have hf := ht.trans (answering_queueConnectionError u id offset' errorProtocol)
        rw [append_nil] at hf
        exact ⟨_, .inr rfl, hl.trans hf⟩
    · exact ⟨[], .inl rfl, hl⟩

lemma core_erase (id : Nat) :
    ({ s with streams := s.streams.erase id } : Session).core = { s.core with window := update s.core.window id none } := by
  have ht : (fun o => ((s.streams.erase id).lookup o).map fun strm =>
      strm.sendWindow.value) = update s.core.window id none := by
    refine eq_update_iff.mpr ⟨?_, fun o hs => ?_⟩
    · rw [lookup_erase]
      rfl
    · rw [lookup_erase_ne hs]
      rfl
  rw [← ht]
  rfl

lemma core_insert (id : Nat) (strm : Stream) : ({ s with streams := s.streams.insert id strm } : Session).core =
      { s.core with window := update s.core.window id (some strm.sendWindow.value) } := by
  have ht : (fun o => ((s.streams.insert id strm).lookup o).map fun strm =>
      strm.sendWindow.value) = update s.core.window id (some strm.sendWindow.value) := by
    refine eq_update_iff.mpr ⟨?_, fun o hs => ?_⟩
    · rw [lookup_insert]
      rfl
    · rw [lookup_insert_ne hs]
      rfl
  rw [← ht]
  rfl

/-- A change of a stream that leaves its send window alone. -/
lemma core_insert_same {s : Session} {id : Nat}
    (hh : s.streams.lookup id = some strm) (hw : changed.sendWindow = strm.sendWindow) :
    ({ s with streams := s.streams.insert id changed } : Session).core = s.core := by
  have now : s.core.window id = some changed.sendWindow.value := by simp [core, hh, hw]
  rw [core_insert, ← now, update_eq_self]

lemma moves_erase (id o : Nat) : Moves P (s.coreAt id o) [] ({ s with streams := s.streams.erase id } : Session).core := by
  have hm := @Move.retire P (s.coreAt id o) id
  rw [core_erase]
  unfold coreAt at hm
  rw [update_idem] at hm
  exact .one hm

/-- A request that is not in the table leaves as it came. -/
lemma moves_leave (id o : Nat) : Moves P (s.coreAt id o) [] s.core := by
  cases hh : s.streams.lookup id with
  | some strm => exact .of_eq (coreAt_of_lookup hh o)
  | none =>
    have ha : s.core.window id = none := by simp [core, hh]
    have hm := @Move.retire P (s.coreAt id o) id
    unfold coreAt at hm
    rw [update_idem, ← ha, update_eq_self] at hm
    exact .one hm

lemma newStream_sendWindow (id : Nat) (fs : List HeaderField) :
    ((s.newStream cfg id).receiveHeaders fs true).1.sendWindow = ⟨s.peer.initialWindowSize⟩ := by
  simp [newStream, Stream.receiveHeaders]

/-- A stalled response: the stream is in the table, with what its window has left. -/
lemma core_stalled {s : Session} {id o : Nat} (hw : s.streams.lookup id = none → 0 ≤ s.streamWindow id o)
    (pending : AList fun _ : Nat => PendingResponse) : ({ s with
        streams := s.streams.insert id ((s.streams.lookup id).getD
          (let fresh := ((s.newStream cfg id).receiveHeaders [] true).1
           { fresh with sendWindow := (fresh.sendWindow.consume o).getD fresh.sendWindow }))
        pendingResponses := pending } : Session).core = s.coreAt id o := by
  refine (core_insert s id _).trans (congrArg (fun win => { s.core with window := update s.core.window id (some win) }) ?_)
  unfold streamWindow at hw ⊢
  cases hh : s.streams.lookup id with
  | some strm => rfl
  | none =>
    have hr := hw hh
    rw [hh] at hr
    dsimp only [Option.getD_none] at hr ⊢
    rw [newStream_sendWindow, FlowWindow_consume_value (by dsimp only; omega)]

lemma moves_queueResponseBody (cfg : SessionConfig) (s : Session) (id : Nat) (resp : ServerResponse) (det : Bool) :
    ∃ fs, (fs = [] ∨ fs = resp.responseTrailers) ∧ Moves P (s.coreAt id 0) fs (s.queueResponseBody cfg id resp det).core := by
  obtain ⟨fs, hb, ha⟩ := answering_queueResponseData s id resp 0 det
  refine ⟨fs, hb, ?_⟩
  unfold queueResponseBody
  match hs : s.queueResponseData id resp 0 det with
  | (t, offset, true) =>
    rw [hs] at ha
    have he := (ha.moves (P := P)).trans (moves_erase t id offset)
    rwa [append_nil] at he
  | (t, offset, false) =>
    rw [hs] at ha
    have hw : t.streams.lookup id = none → 0 ≤ t.streamWindow id offset := by
      intro hg
      have hm := ha.member
      rw [hg] at hm
      have ht : s.streams.lookup id = none := by
        cases hh : s.streams.lookup id with
        | none => rfl
        | some strm => simp [hh] at hm
      refine ha.window ?_
      simp [streamWindow, ht]
    rw [core_stalled hw]
    exact ha.moves

end Session

namespace ServerResponse

/-- The fields `queue_response` may encode. -/
def fields (r : ServerResponse) : List HeaderField := r.responseHeaders ++ r.responseTrailers

/-- The fields `write_response` encodes for a body that is pulled. -/
def sourceHeaders (r : ServerResponse) : List HeaderField :=
  match r.bodySource with
  | some source => r.headerList source.contentLength
  | none => []

/-- All that answering with `r` may encode. -/
def encodes (r : ServerResponse) : List HeaderField :=
  if r.bodySource.isSome then r.sourceHeaders else r.fields

end ServerResponse

namespace Session

variable {cfg : SessionConfig} (s : Session)

lemma moves_queueResponse (cfg : SessionConfig) {s : Session} {id : Nat}
    (ho : ∀ pre, response.usePreencoded = some pre → P pre) (hh : detached = true ∨ (s.streams.lookup id).isSome) :
    ∃ fields, fields.Sublist response.fields ∧
      Moves P (s.coreAt id 0) fields (s.queueResponse cfg id response detached).core := by
  unfold queueResponse fields
  split
  case isTrue hg =>
    -- the stream is gone, against `here`
    rcases hh with rfl | hh
    · simp at hg
    · simp [Option.isSome_iff_ne_none.mp hh] at hg
  case isFalse =>
    cases hu : response.usePreencoded with
    | some pre =>
      obtain ⟨fields, hw, hm⟩ := moves_queueResponseBody cfg
        (s.queueHeaders id (response.bodyBytes.isEmpty && !response.hasTrailers) pre.fields pre.block)
        id response detached
      rw [coreAt_queueHeaders] at hm
      refine ⟨fields, ?_, .silent (.one (.preencoded (ho pre hu))) hm⟩
      rcases hw with rfl | rfl
      · exact nil_sublist _
      · exact sublist_append_right ..
    | none =>
      match he : s.encoder.encode response.responseHeaders with
      | (encoder, .error code) =>
        have hr : Moves P (s.coreAt id 0) response.responseHeaders
            (({ s with encoder } : Session).coreAt id 0) := .one (.refuse he)
        have left := hr.trans (moves_leave _ id 0)
        rw [append_nil] at left
        exact ⟨response.responseHeaders, sublist_append_left .., left⟩
      | (encoder, .ok block) =>
        obtain ⟨fields, hw, hm⟩ := moves_queueResponseBody cfg
          (({ s with encoder } : Session).queueHeaders id
            (response.bodyBytes.isEmpty && !response.hasTrailers) response.responseHeaders block)
          id response detached
        rw [coreAt_queueHeaders] at hm
        refine ⟨response.responseHeaders ++ fields, ?_, .trans (.one (.headers he)) hm⟩
        rcases hw with rfl | rfl
        · exact List.Sublist.append_left (nil_sublist _) _
        · exact List.Sublist.refl _

/-- The trailers of the pending response of a stream. -/
def pendingTrailers (s : Session) (id : Nat) : List HeaderField :=
  match s.pendingResponses.lookup id with
  | some pending => pending.response.responseTrailers
  | none => []

lemma moves_drainOne (id : Nat) : (∃ fs, fs.Sublist (s.pendingTrailers id) ∧ Moves P s.core fs (s.drainOne id).core) ∧
      ∀ o, o ≠ id → (s.drainOne id).pendingResponses.lookup o = s.pendingResponses.lookup o := by
  unfold drainOne pendingTrailers
  cases hwa : s.pendingResponses.lookup id with
  | none => exact ⟨⟨[], nil_sublist _, .refl _⟩, fun _ _ => rfl⟩
  | some pending =>
    obtain ⟨fs, hw, ha⟩ := answering_queueResponseData s id pending.response pending.offset false
    have hs : fs.Sublist pending.response.responseTrailers := by
      rcases hw with rfl | rfl
      · exact nil_sublist _
      · exact List.Sublist.refl _
    dsimp only
    cases hh : s.streams.lookup id with
    | none =>
      -- the stream is gone, and the response with it
      have hg : s.queueResponseData id pending.response pending.offset false = (s, pending.offset, true) := by
        simp [queueResponseData, hh]
      rw [hg]
      refine ⟨⟨[], nil_sublist _, ?_⟩, fun o hb => ?_⟩
      · have he := core_erase { s with pendingResponses := s.pendingResponses.erase id } id
        rw [he]
        exact .one .retire
      · exact lookup_erase_ne hb
    | some strm =>
      have ht := coreAt_of_lookup hh pending.offset
      match hse : s.queueResponseData id pending.response pending.offset false with
      | (t, offset, true) =>
        rw [hse] at ha
        refine ⟨⟨fs, hs, ?_⟩, fun o hb => ?_⟩
        · have he := (ha.moves (P := P)).trans (moves_erase t id offset)
          rw [append_nil, ht] at he
          exact he
        · rw [lookup_erase_ne hb, ha.pending]
      | (t, offset, false) =>
        rw [hse] at ha
        refine ⟨⟨fs, hs, ?_⟩, fun o hb => ?_⟩
        · have left := (ha.moves (P := P)).trans (moves_leave t id offset)
          rw [append_nil, ht] at left
          exact left
        · rw [lookup_insert_ne hb, ha.pending]

lemma moves_drainAll (ids : List Nat) (ha : ids.Nodup) (s : Session) :
    ∃ fs, fs.Sublist (ids.flatMap s.pendingTrailers) ∧ Moves P s.core fs (ids.foldl drainOne s).core := by
  induction ids generalizing s with
  | nil => exact ⟨[], nil_sublist _, .refl _⟩
  | cons id ids ih =>
    obtain ⟨hf, ha⟩ := nodup_cons.mp ha
    obtain ⟨⟨fs, hu, hb⟩, ho⟩ := moves_drainOne s id
    obtain ⟨tl, hr, he⟩ := ih ha (s.drainOne id)
    have hs : ids.flatMap (s.drainOne id).pendingTrailers = ids.flatMap s.pendingTrailers := by
      refine flatMap_congr fun o hm => ?_
      unfold pendingTrailers
      rw [ho o (fun hs => hf (hs ▸ hm))]
    rw [hs] at hr
    exact ⟨fs ++ tl, hu.append hr, hb.trans he⟩

/-- All that a drain may encode. -/
def drainFields (cfg : SessionConfig) (s : Session) : List HeaderField :=
  (cfg.iteration.order s.pendingResponses.keys).flatMap s.pendingTrailers

lemma moves_drain (cfg : SessionConfig) (s : Session) :
    ∃ fields, fields.Sublist (s.drainFields cfg) ∧ Moves P s.core fields (s.drainPendingResponses cfg).core :=
  moves_drainAll _ ((cfg.iteration.perm _).nodup_iff.mpr s.pendingResponses.keys_nodup) s

lemma core_sourceWrites_insert (id : Nat) (write : SourceWrite) :
    ({ s with sourceWrites := s.sourceWrites.insert id write } : Session).core =
      { s.core with waiting := update s.core.waiting id write.waiting } := by
  have ht : (fun o => ((s.sourceWrites.insert id write).lookup o).bind
      SourceWrite.waiting) = update s.core.waiting id write.waiting := by
    refine eq_update_iff.mpr ⟨?_, fun o hs => ?_⟩
    · rw [lookup_insert]
      rfl
    · rw [lookup_insert_ne hs]
      rfl
  rw [← ht]
  rfl

lemma core_sourceWrites_erase (id : Nat) : ({ s with sourceWrites := s.sourceWrites.erase id } : Session).core =
      { s.core with waiting := update s.core.waiting id none } := by
  have ht : (fun o => ((s.sourceWrites.erase id).lookup o).bind SourceWrite.waiting) = update s.core.waiting id none := by
    refine eq_update_iff.mpr ⟨?_, fun o hs => ?_⟩
    · rw [lookup_erase]
      rfl
    · rw [lookup_erase_ne hs]
      rfl
  rw [← ht]
  rfl

lemma turn_writeStart (id : Nat) (response : ServerResponse) :
    ∃ fields, fields.Sublist response.sourceHeaders ∧ Turn P s.core fields (s.writeStart id response).core := by
  unfold writeStart sourceHeaders
  cases s.streams.lookup id with
  | none => exact ⟨[], nil_sublist _, (Moves.refl _).turn⟩
  | some strm =>
    cases response.bodySource with
    | none => exact ⟨[], nil_sublist _, (Moves.refl _).turn⟩
    | some source =>
      dsimp only
      split
      · exact ⟨[], nil_sublist _, (Moves.refl _).turn⟩
      refine ⟨response.headerList source.contentLength, List.Sublist.refl _, ?_⟩
      match he : s.encoder.encode (response.headerList source.contentLength) with
      | (encoder, .error code) => exact (Moves.one (.refuse he)).turn
      | (encoder, .ok block) =>
        have hh := core_sourceWrites_insert { s with encoder } id
          { response, waiting := some (response.headerList source.contentLength, block) }
        rw [hh]
        exact (Finish.hold (by simp [headerList]) he).turn

lemma moves_writeHeaders (id : Nat) : Moves P s.core [] (s.writeHeaders id).core := by
  unfold writeHeaders
  cases hh : s.sourceWrites.lookup id with
  | none => exact .refl _
  | some write =>
    dsimp only
    cases hw : write.waiting with
    | none => exact .refl _
    | some held =>
      obtain ⟨fs, b⟩ := held
      have ha : s.core.waiting id = some (fs, b) := by simp [core, hh, hw]
      have hr := core_sourceWrites_insert (s.queueHeaders id false fs b) id { write with waiting := none }
      rw [core_queueHeaders] at hr
      exact hr ▸ .one (.release ha)

/-- A write that does not wait can come and go. -/
lemma core_sourceWrites_idle {s : Session} {id : Nat} (hh : s.sourceWrites.lookup id = some write) (hi : write.waiting = none) :
    ({ s with sourceWrites := s.sourceWrites.erase id } : Session).core = s.core ∧
      ∀ next : SourceWrite, next.waiting = none →
        ({ s with sourceWrites := s.sourceWrites.insert id next } : Session).core = s.core := by
  have hw : s.core.waiting id = none := by simp [core, hh, hi]
  constructor
  · rw [core_sourceWrites_erase, ← hw, update_eq_self]
  · intro next none
    rw [core_sourceWrites_insert, none, ← hw, update_eq_self]

lemma moves_writeChunk {s : Session} {id sz : Nat}
    {chunk : Bytes} (hh : s.sourceWrites.lookup id = some write) (hi : write.waiting = none)
    (ht : s.streams.lookup id = some strm) (hs : sz ≤ chunk.length)
    (hf : sz ≤ strm.sendWindow.value) (ha : sz ≤ s.sendWindow) : Moves P s.core []
      ({ (s.chargeData id sz).queueFrame { type := .data, streamId := id } (chunk.take sz) with
          sourceWrites := s.sourceWrites.insert id { write with total := write.total + sz }
          } : Session).core := by
  have hw : sz ≤ s.streamWindow id 0 := by simpa only [streamWindow, ht] using hf
  have hm : Moves P _ _ (((s.chargeData id sz).queueFrame { type := .data, streamId := id }
      (chunk.take sz)).coreAt id (0 + sz)) :=
    (answering_data (length_take_of_le hs) hw ha).moves
  have left := hm.trans (moves_leave _ id _)
  rw [coreAt_of_lookup ht] at left
  have hk := (core_sourceWrites_idle (s := (s.chargeData id sz).queueFrame
    { type := .data, streamId := id } (chunk.take sz)) hh hi).2
    { write with total := write.total + sz } hi
  exact hk ▸ left

lemma moves_writeData (id : Nat) (chunk : Bytes) : Moves P s.core [] (s.writeData id chunk).core := by
  unfold writeData
  cases hh : s.sourceWrites.lookup id with
  | none => exact .refl _
  | some write =>
    dsimp only
    split
    case isTrue => exact .refl _
    case isFalse hi =>
      have hi : write.waiting = none := by
        cases hw : write.waiting with
        | none => rfl
        | some held => simp [hw] at hi
      have he := (core_sourceWrites_idle hh hi).1
      cases ht : s.streams.lookup id with
      | none => exact .of_eq he.symm
      | some strm =>
        dsimp only
        split
        · exact .of_eq he.symm
        split
        · exact .refl _
        split
        · exact .of_eq he.symm
        case isFalse ho _ => exact moves_writeChunk hh hi ht (by omega) (by omega) (by omega)

/-- The trailers of a response whose body is pulled. -/
def sourceTrailers (s : Session) (id : Nat) : List HeaderField :=
  match s.sourceWrites.lookup id with
  | some write => write.response.responseTrailers
  | none => []

lemma moves_writeEnd (id : Nat) :
    ∃ fields, fields.Sublist (s.sourceTrailers id) ∧ Moves P s.core fields (s.writeEnd id).core := by
  unfold writeEnd sourceTrailers
  cases hh : s.sourceWrites.lookup id with
  | none => exact ⟨[], nil_sublist _, .refl _⟩
  | some write =>
    dsimp only
    split
    case isTrue => exact ⟨[], nil_sublist _, .refl _⟩
    case isFalse hi =>
      have he := (core_sourceWrites_idle hh (by simpa using hi)).1
      generalize ({ s with sourceWrites := s.sourceWrites.erase id } : Session) = t at he
      rw [← he]
      split
      · exact ⟨[], nil_sublist _, .refl _⟩
      split
      · refine ⟨[], nil_sublist _, ?_⟩
        have hc : (t.queueFrame { type := .data, flags := flagEndStream, streamId := id } []).core =
            { t.core with sent := t.core.sent ++ [(id, 0)] } := by
          simp [core, queueFrame, dataFrames]
        rw [core_erase, hc]
        exact (Moves.one .close).trans (.one .retire)
      have ht := moves_queueResponseTrailers (P := P) t id write.response
      refine ⟨write.response.responseTrailers, List.Sublist.refl _, ?_⟩
      match hq : t.queueResponseTrailers id write.response with
      | (u, .error _) =>
        rw [hq] at ht
        exact ht
      | (u, .ok _) =>
        rw [hq] at ht
        have hr := ht.trans (.one (@Move.retire P _ id))
        rw [append_nil] at hr
        rw [core_erase]
        exact hr

lemma turn_respond (cfg : SessionConfig) (s : Session) (id : Nat) (resp : ServerResponse)
    (ho : ∀ pre, resp.usePreencoded = some pre → P pre) :
    ∃ fs, fs.Sublist resp.encodes ∧ Turn P s.core fs (s.respond cfg id resp).core := by
  unfold respond encodes
  split
  · exact turn_writeStart s id resp
  cases hh : s.streams.lookup id with
  | none =>
    have hg : s.queueResponse cfg id resp false = s := by simp [queueResponse, hh]
    exact ⟨[], nil_sublist _, (Moves.of_eq (by rw [hg])).turn⟩
  | some strm =>
    obtain ⟨fs, hs, hm⟩ := moves_queueResponse cfg ho (.inr (by rw [hh]; rfl : (s.streams.lookup id).isSome) : false = true ∨ _)
    rw [coreAt_of_lookup hh] at hm
    exact ⟨fs, hs, hm.turn⟩

/-- A detached request is answered on its own window or the peer's initial one. -/
lemma streamWindow_eq (id : Nat) : s.streamWindow id 0 = (s.core.window id).getD s.core.initial := by
  cases hh : s.streams.lookup id with
  | none | some strm => simp [streamWindow, core, hh]

/-- The stream a detached request gets when its body is pulled. -/
lemma core_answered (id : Nat) : ({ s with
        streams := s.streams.insert id ((s.streams.lookup id).getD
        ((s.newStream cfg id).receiveHeaders [] true).1) } : Session).core = s.coreAt id 0 := by
  have hw : ((s.streams.lookup id).getD
      ((s.newStream cfg id).receiveHeaders [] true).1).sendWindow.value = s.streamWindow id 0 := by
    unfold streamWindow
    cases s.streams.lookup id with
    | none => simp [newStream_sendWindow]
    | some strm => rfl
  rw [core_insert, hw]
  rfl

lemma turn_dispatch (resp : ServerResponse) (ho : ∀ pre, resp.usePreencoded = some pre → P pre) :
    ∃ fs, fs.Sublist resp.encodes ∧ Turn P s.core fs (s.dispatch cfg resp).core := by
  unfold dispatch
  match hq : s.readyRequests with
  | [] => exact ⟨[], nil_sublist _, (Moves.refl _).turn⟩
  | ready :: tl =>
    have hf : s.core.ready = (ready.streamId, ready.detached) :: tl.map fun ready => (ready.streamId, ready.detached) := by
      simp [core, hq]
    dsimp only
    split
    case isTrue hde =>
      rw [hde] at hf
      have ha : Moves P s.core [] (({ s with readyRequests := tl } : Session).coreAt ready.streamId 0) := by
        rw [coreAt, streamWindow_eq]
        exact .one (.answer hf)
      unfold encodes
      split
      · obtain ⟨fs, hs, ht⟩ := turn_writeStart _ ready.streamId resp
        exact ⟨fs, hs, ha.before (core_answered _ ready.streamId ▸ ht)⟩
      obtain ⟨fs, hs, hm⟩ := moves_queueResponse cfg ho
        (.inl rfl : _ ∨ (({ s with readyRequests := tl } : Session).streams.lookup ready.streamId).isSome)
      exact ⟨fs, hs, ha.before hm.turn⟩
    case isFalse htb =>
      rw [Bool.eq_false_iff.mpr htb] at hf
      have hb : Moves P s.core [] ({ s with readyRequests := tl } : Session).core := .one (.take hf)
      cases hh : s.streams.lookup ready.streamId with
      | none => exact ⟨[], nil_sublist _, hb.turn⟩
      | some strm =>
        let taken : Session := { s with
          readyRequests := tl
          streams := s.streams.insert ready.streamId { strm with headers := [], body := [] } }
        obtain ⟨fs, hs, ht⟩ := turn_respond cfg taken ready.streamId resp ho
        have hc : taken.core = ({ s with readyRequests := tl } : Session).core :=
          core_insert_same (s := { s with readyRequests := tl }) hh rfl
        rw [hc] at ht
        exact ⟨fs, hs, hb.before ht⟩

lemma moves_dispatchBackground : Moves P s.core [] (s.dispatchBackground cfg).core := by
  unfold dispatchBackground
  match hq : s.readyRequests with
  | [] => exact .refl _
  | ready :: tl =>
    dsimp only
    split
    case isTrue => exact .refl _
    case isFalse hta =>
      have hf : s.core.ready = (ready.streamId, false) :: tl.map fun ready => (ready.streamId, ready.detached) := by
        simp [core, hq, Bool.eq_false_iff.mpr hta]
      have ht : Moves P s.core [] ({ s with readyRequests := tl } : Session).core := .one (.take hf)
      cases hh : s.streams.lookup ready.streamId with
      | none => exact ht
      | some strm =>
        dsimp only
        split
        · exact .refl _
        · refine ht.silent (.of_eq (Eq.symm ?_))
          exact core_insert_same (s := { s with readyRequests := tl }) hh rfl

lemma core_creditLoop (credits : List (Nat × Nat)) (s : Session) (connection : Nat) :
    (creditLoop credits s connection).1.core = s.core := by
  induction credits generalizing s connection with
  | nil => rfl
  | cons credit credits ih =>
    obtain ⟨id, bs⟩ := credit
    unfold creditLoop
    split
    · rfl
    cases hh : s.streams.lookup id with
    | none => exact ih ..
    | some strm =>
      dsimp only
      cases strm.receiveWindow.increase bs with
      | none => rfl
      | some receiveWindow =>
        rw [ih, core_queueFrame (by simp)]
        exact core_insert_same hh rfl

lemma core_returnConnectionCredit (credit : Nat) : (s.returnConnectionCredit credit).core = s.core := by
  unfold returnConnectionCredit
  split
  · rfl
  · exact core_queueFrame (by decide)

lemma core_returnFlowCredit (credits : List (Nat × Nat)) : (s.returnFlowCredit credits).core = s.core := by
  have hl := core_creditLoop credits s 0
  unfold returnFlowCredit
  match ran : creditLoop credits s 0 with
  | (t, none) =>
    rw [ran] at hl
    exact hl
  | (t, some credit) =>
    rw [ran] at hl
    exact (core_returnConnectionCredit t credit).trans hl

lemma core_consumeChunk (id : Nat) : (s.consumeChunk id).core = s.core := by
  unfold consumeChunk
  cases hh : s.streams.lookup id with
  | none => rfl
  | some strm => exact core_insert_same hh rfl

end Session

end Cnetmod.Http.V2
