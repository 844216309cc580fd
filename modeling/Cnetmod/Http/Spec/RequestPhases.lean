import Cnetmod.Http.Spec.HeaderLookup

/-!
# What the request parser has read

While a message comes in, the parser is in one of five phases. Each says how the
bytes of the message so far relate to what the parser holds, for whatever bytes
are still to come, and every pass of `consume` goes from phase to phase.
-/
namespace Cnetmod.Http.V1

open Option Coding List

/-- The first empty line after a line. -/
lemma find_emptyLine (hf : findCrlf inp = some pos) : find (crlf ++ crlf) inp =
      if crlf <+: inp.drop (pos + 2) then some pos else (find (crlf ++ crlf) (inp.drop (pos + 2))).map (· + (pos + 2)) := by
  unfold findCrlf at hf
  induction inp generalizing pos with
  | nil => simp [find, crlf] at hf
  | cons c t ih =>
    by_cases hb : crlf <+: c :: t
    · rw [find_of_begins hb] at hf
      cases hf
      obtain ⟨more, ha⟩ := hb
      rw [← ha]
      change find (crlf ++ crlf) (13 :: 10 :: more) = if crlf <+: more then _ else _
      split
      next he =>
        refine find_of_begins ?_
        obtain ⟨tl, rfl⟩ := he
        exact ⟨tl, rfl⟩
      next hu =>
        have hh : ¬ crlf ++ crlf <+: 13 :: 10 :: more := by
          rintro ⟨tl, hb⟩
          simp only [crlf, cons_append, nil_append, cons.injEq, true_and] at hb
          exact hu ⟨tl, hb⟩
        have next : ¬ crlf ++ crlf <+: 10 :: more := by
          rintro ⟨tl, hb⟩
          simp [crlf] at hb
        rw [find_cons_of_not_begins hh, find_cons_of_not_begins next, Option.map_map]
        rfl
    · rw [find_cons_of_not_begins hb] at hf
      obtain ⟨q, hi, rfl⟩ := map_eq_some_iff.mp hf
      have ho : ¬ crlf ++ crlf <+: c :: t := fun hl => hb ((prefix_append _ _).trans hl)
      have hs : (c :: t).drop (q + 1 + 2) = t.drop (q + 2) := rfl
      rw [find_cons_of_not_begins ho, ih hi, hs]
      split
      · rfl
      · rw [Option.map_map]
        rfl

/-- The trailer section ends where the grammar says. -/
lemma Trailers.completed (ht : Trailers inp tl) :
    ∃ sz, (if crlf <+: inp then some 2 else (find (crlf ++ crlf) inp).map (· + 4)) = some sz ∧ inp.drop sz = tl := by
  induction ht with
  | @done inp tl line =>
    have hw := nextLine_eq line
    have hb : crlf <+: inp := ⟨tl, hw.symm⟩
    rw [if_pos hb]
    exact ⟨2, rfl, by rw [hw]; rfl⟩
  | @field inp line more tl hf some _ ih =>
    obtain ⟨sz, hc, hn⟩ := ih
    obtain ⟨pos, hh, hs⟩ := map_eq_some_iff.mp hf
    cases hs
    have ho : ¬ crlf <+: inp := by
      intro hb
      rw [findCrlf, find_of_begins hb] at hh
      cases hh
      exact some rfl
    rw [if_neg ho, find_emptyLine hh]
    refine ⟨pos + 2 + sz, ?_, by rw [← drop_drop, hn]⟩
    split at hc
    next he =>
      cases hc
      rw [if_pos he]
      rfl
    next hu =>
      obtain ⟨q, hl, rfl⟩ := map_eq_some_iff.mp hc
      rw [if_neg hu, hl]
      simp only [map_some, Option.some.injEq]
      omega

lemma chunkSize_eq (hs : chunkSize line = some n) (hr : fromChars 16 line = some m) : m = n := by
  simp only [chunkSize, fromChars] at hs hr
  split at hs
  · split at hr
    · cases hr
    · exact (some.inj hr).symm.trans (some.inj hs)
  · cases hs

section Chunks

variable {readable more body unread : Bytes} {p n : Nat}

/-- A chunked body goes on as the parser reads its next chunk. -/
lemma chunk_forced (ho : findCrlf readable = some p) (hs : fromChars 16 (readable.take p) = some n)
    (hp : n ≠ 0) (ha : p + 2 + n + 2 ≤ readable.length) (hc : ChunkedBody (readable ++ more) body unread) :
    ∃ tail, body = slice readable (p + 2) n ++ tail ∧ ChunkedBody (readable.drop (p + 2 + n + 2) ++ more) tail unread := by
  have hl := nextLine_append (nextLine_of_find ho) more
  cases hc with
  | last hf hz _ =>
    rw [hl] at hf
    cases hf
    exact absurd (chunkSize_eq hz hs) hp
  | @chunk _ _ data next body _ hf he _ tail =>
    rw [hl] at hf
    simp only [some.injEq, Prod.mk.injEq] at hf
    obtain ⟨rfl, split⟩ := hf
    have hs := chunkSize_eq he hs
    have got : slice readable (p + 2) n = data := by
      have hr := congrArg (take n) split
      rw [take_append_of_le_length (by rw [length_drop]; omega), append_assoc, hs, take_left] at hr
      exact hs ▸ hr
    have left : readable.drop (p + 2 + n + 2) ++ more = next := by
      have hb := congrArg (drop (n + 2)) split
      rw [drop_append_of_le_length (by rw [length_drop]; omega), drop_drop] at hb
      have hk : (data ++ crlf ++ next).drop (n + 2) = next := drop_left' (by simp [crlf, hs])
      rw [hk] at hb
      congr 2
    rw [got, left]
    exact ⟨body, rfl, tail⟩

variable {size : Nat}

lemma completed_le (ha : p + 2 ≤ readable.length)
    (hc : completedChunkedMessageSize readable p = some size) : size ≤ readable.length := by
  unfold completedChunkedMessageSize at hc
  dsimp only at hc
  split at hc
  next he =>
    have hl := he.length_le
    rw [length_drop] at hl
    simp only [crlf, length_cons, length_nil] at hl
    cases hc
    omega
  obtain ⟨q, hf, rfl⟩ := map_eq_some_iff.mp hc
  have hl := find_some_le hf
  rw [length_drop] at hl
  simp only [crlf, length_append, length_cons, length_nil] at hl
  omega

/-- It ends as the parser reads its last chunk. -/
lemma last_forced (ho : findCrlf readable = some p) (hz : fromChars 16 (readable.take p) = some 0)
    (hc : completedChunkedMessageSize readable p = some sz)
    (hh : ChunkedBody readable body unread) : body = [] ∧ unread = readable.drop sz := by
  have hl := nextLine_of_find ho
  cases hh with
  | last hf _ ht =>
    rw [hl] at hf
    cases hf
    obtain ⟨len, he, rfl⟩ := ht.completed
    refine ⟨rfl, ?_⟩
    rw [drop_drop]
    congr 1
    unfold completedChunkedMessageSize at hc
    dsimp only at hc
    split at hc
    next hm =>
      rw [if_pos hm] at he
      cases he
      exact some.inj hc
    next hu =>
      rw [if_neg hu] at he
      obtain ⟨q, ha, rfl⟩ := map_eq_some_iff.mp he
      rw [ha] at hc
      have sum := some.inj hc
      omega
  | chunk hf len some _ =>
    rw [hl] at hf
    simp only [Option.some.injEq, Prod.mk.injEq] at hf
    obtain ⟨rfl, -⟩ := hf
    have sz := chunkSize_eq len hz
    exact absurd (length_eq_zero_iff.mp sz.symm) some

end Chunks

lemma trim_append (v : Bytes) : ∃ tail, v.dropWhile isBlank = trim v ++ tail := by
  have hf := (dropWhile_suffix (l := (v.dropWhile isBlank).reverse) isBlank).reverse
  rw [reverse_reverse] at hf
  obtain ⟨tail, hs⟩ := hf
  exact ⟨tail, hs.symm⟩

/-- The view of a trimmed part shows the trimmed part. -/
lemma slice_trim {v after : Bytes} (hh : storage.drop off = v ++ after) :
    slice storage (off + trimmed v) (trim v).length = trim v := by
  obtain ⟨tail, hs⟩ := trim_append v
  have hr : storage.drop (off + trimmed v) = trim v ++ (tail ++ after) := by
    rw [← drop_drop, hh]
    nth_rewrite 2 [← takeWhile_append_dropWhile (l := v)]
    rw [append_assoc, trimmed, drop_left, hs, append_assoc]
  rw [slice, hr, take_left]

lemma trimmed_add_le (v : Bytes) : trimmed v + (trim v).length ≤ v.length := by
  obtain ⟨tail, hs⟩ := trim_append v
  have hw := congrArg length (takeWhile_append_dropWhile (p := isBlank) (l := v))
  rw [hs] at hw
  simp only [length_append] at hw
  unfold trimmed
  omega

lemma slice_append (hi : off + sz ≤ storage.length) (more : Bytes) : slice (storage ++ more) off sz = slice storage off sz := by
  unfold slice
  rw [drop_append_of_le_length (by omega), take_append_of_le_length (by rw [length_drop]; omega)]

/-- The coding the parser takes for chunked. -/
def chunkedCoding (fields : List Field) : Bool :=
  (find "chunked" (joinValues (valuesOf "Transfer-Encoding" fields))).isSome

/-- The length the parser takes from the fields, zero without one. -/
def declaredLength (fields : List Field) : Nat :=
  match fromChars 10 (joinValues (valuesOf "Content-Length" fields)) with
  | none => 0
  | some n => if n > maxBodySize then 0 else n

/-- How the parser has framed a message. -/
def Taken (fields : List Field) (rest body unread : Bytes) : Prop :=
  if chunkedCoding fields then
    ∀ {data left}, ChunkedBody rest data left → data = body ∧ left = unread
  else body.length = declaredLength fields ∧ rest = body ++ unread

namespace RequestParser

/-- The message up to the end of its head stays in the buffer. -/
structure Receiving (message : Bytes) (s : RequestParser) : Prop where
  waiting : s.ready = false
  headersReady : s.headersReady = false
  preserved : s.headersPreserved = false
  chunked : s.chunked = false
  body : s.body = []
  common : s.commonHeaders = List.replicate 18 none
  held : s.buf.drop s.messageStart = message
  started : s.messageStart ≤ s.readPos
  views : ∀ view ∈ s.headerFields, view.nameOffset + view.nameSize ≤ s.readPos ∧ view.valueOffset + view.valueSize ≤ s.readPos

/-- The bytes `message` have come in since the message began, and `taken` of its
body has been handed over already. -/
inductive Phase (message taken : Bytes) (s : RequestParser) : Prop where
  | requestLine (receiving : s.Receiving message) (state : s.state = .requestLine)
    (start : s.readPos = s.messageStart) (empty : s.headerFields = []) (nothing : taken = [])
  | headers (receiving : s.Receiving message) (state : s.state = .headers) (nothing : taken = [])
    (reads : ∀ {more fields rest}, FieldLines (s.readableBuffer ++ more) fields rest →
      Head (message ++ more) (s.contents ++ fields) rest)
  | fixed {fields : List Field} {rest : Bytes} (waiting : s.ready = false)
    (headersReady : s.headersReady = true) (state : s.state = .body) (chunked : s.chunked = false)
    (head : Head message fields rest) (coding : chunkedCoding fields = false)
    (parts : rest = taken ++ s.body ++ s.readableBuffer)
    (length : (taken ++ s.body).length + s.bodyBytesRemaining = declaredLength fields)
  | chunked {fields : List Field} {rest : Bytes} (waiting : s.ready = false)
    (headersReady : s.headersReady = true) (state : s.state = .body) (chunked : s.chunked = true)
    (head : Head message fields rest) (coding : chunkedCoding fields = true)
    (reads : ∀ {more body unread}, ChunkedBody (rest ++ more) body unread →
      ∃ tail, body = taken ++ s.body ++ tail ∧ ChunkedBody (s.readableBuffer ++ more) tail unread)
  | ready {fields : List Field} {rest : Bytes} (ready : s.ready = true)
    (head : Head message fields rest) (framed : Taken fields rest (taken ++ s.body) s.readableBuffer)

/-- The read position is inside the buffer, which is no longer than a string can be. -/
structure Bounded (s : RequestParser) : Prop where
  inside : s.readPos ≤ s.buf.length
  size : s.buf.length ≤ stringMaxSize

variable {s : RequestParser}

lemma Bounded.readable (hb : s.Bounded) : s.readPos + s.readableBuffer.length = s.buf.length := by
  have hi := hb.inside
  rw [readableBuffer, length_drop]
  omega

lemma Bounded.advance (hb : s.Bounded) (hf : sz ≤ s.readableBuffer.length) :
    ({ s with readPos := s.readPos + sz } : RequestParser).Bounded :=
  ⟨by have := hb.readable; dsimp only; omega, hb.size⟩

lemma readableBuffer_advance (s : RequestParser) (sz : Nat) :
    ({ s with readPos := s.readPos + sz } : RequestParser).readableBuffer = s.readableBuffer.drop sz := by
  rw [readableBuffer, readableBuffer, drop_drop]

variable {s : RequestParser}

lemma parseRequestLine_eq (s : RequestParser) (l : Bytes) :
    ∃ methodOffset methodSize methodEnum uriOffset uriSize version result, s.parseRequestLine l =
      ({ s with methodOffset, methodSize, methodEnum, uriOffset, uriSize, version }, result) := by
  unfold parseRequestLine
  split
  · exact ⟨_, _, _, _, _, _, _, rfl⟩
  dsimp only
  split
  · exact ⟨_, _, _, _, _, _, _, rfl⟩
  · split <;> exact ⟨_, _, _, _, _, _, _, rfl⟩

lemma findCrlf_le (hf : findCrlf inp = some pos) : pos + 2 ≤ inp.length := find_some_le hf

lemma phase_requestLine (hb : s.Bounded) (hr : s.Receiving msg)
    (ht : s.state = .requestLine) (ha : s.readPos = s.messageStart) (he : s.headerFields = []) (hn : got = []) :
    s.parseStep.1.Bounded ∧ s.parseStep.1.Phase msg got := by
  unfold parseStep
  rw [ht]
  dsimp only
  split
  next => exact ⟨hb, .requestLine hr ht ha he hn⟩
  rename_i pos hf
  obtain ⟨methodOffset, methodSize, methodEnum, uriOffset, uriSize, version, r, hp⟩ :=
    s.parseRequestLine_eq (s.readableBuffer.take pos)
  rw [hp]
  have hs : Receiving msg { s with methodOffset, methodSize, methodEnum, uriOffset, uriSize, version } :=
    ⟨hr.waiting, hr.headersReady, hr.preserved, hr.chunked, hr.body, hr.common, hr.held, hr.started, hr.views⟩
  cases r with
  | error => exact ⟨⟨hb.inside, hb.size⟩, .requestLine hs ht ha he hn⟩
  | ok =>
    have hw : msg = s.readableBuffer := by rw [readableBuffer, ha, hr.held]
    have hm := hb.advance (findCrlf_le hf)
    refine ⟨⟨hm.inside, hm.size⟩, .headers ?_ rfl hn ?_⟩
    · exact ⟨hs.waiting, hs.headersReady, hs.preserved, hs.chunked, hs.body, hs.common,
        hs.held, Nat.le_add_right_of_le hs.started, by simp [he]⟩
    intro more fs tl hl
    have none : contents { s with
        methodOffset, methodSize, methodEnum, uriOffset, uriSize, version
        headerBytes := s.headerBytes + (pos + 2)
        readPos := s.readPos + (pos + 2)
        state := .headers } = [] := by simp [contents, he]
    rw [none, hw]
    refine .mk (nextLine_append (nextLine_of_find hf) more) ?_
    rw [← readableBuffer_advance]
    exact hl

/-- A header line is kept as the views of its field. -/
lemma parseHeaderLine_eq (s : RequestParser) {l after : Bytes} (hh : s.buf.drop s.readPos = l ++ after) :
    s.parseHeaderLine l = (s, .error .invalidHeader) ∨ ∃ field view, fieldOf l = some field ∧
        s.parseHeaderLine l = ({ s with headerFields := s.headerFields ++ [view] }, .ok ()) ∧
        slice s.buf view.nameOffset view.nameSize = field.name ∧
        slice s.buf view.valueOffset view.valueSize = field.value ∧
        view.nameOffset + view.nameSize ≤ s.readPos + l.length ∧
        view.valueOffset + view.valueSize ≤ s.readPos + l.length := by
  unfold parseHeaderLine fieldOf
  cases hf : find ":" l with
  | none => exact .inl rfl
  | some c =>
    have hb : c + 1 ≤ l.length := find_some_le hf
    dsimp only
    split
    next => exact .inl rfl
    have ha : s.buf.drop s.readPos = l.take c ++ (l.drop c ++ after) := by
      rw [hh, ← append_assoc, take_append_drop]
    have hc : s.buf.drop (s.readPos + (c + 1)) = l.drop (c + 1) ++ after := by
      rw [← drop_drop, hh, drop_append_of_le_length hb]
    have hn := trimmed_add_le (l.take c)
    have hv := trimmed_add_le (l.drop (c + 1))
    rw [length_take] at hn
    rw [length_drop] at hv
    exact .inr ⟨⟨trim (l.take c), trim (l.drop (c + 1))⟩, _, rfl, rfl, slice_trim ha,
      slice_trim hc, by dsimp only; omega, by dsimp only; omega⟩

lemma contents_push (s : RequestParser) (view : FieldView) :
    ({ s with headerFields := s.headerFields ++ [view] } : RequestParser).contents =
      s.contents ++ [⟨slice s.storage view.nameOffset view.nameSize, slice s.storage view.valueOffset view.valueSize⟩] := by
  rw [contents, map_append]
  rfl

lemma prepareBody_eq (hs : s.Slots fs) (hh : s.contents = fs) : s.prepareBody =
      if chunkedCoding fs then ({ s with chunked := true }, true)
      else if declaredLength fs = 0 then (s, false)
      else ({ s with bodyBytesRemaining := declaredLength fs }, true) := by
  unfold prepareBody
  rw [commonHeaderValue_eq hs hh (by decide : (ascii "Transfer-Encoding", 3) ∈ commonHeaderNames),
    commonHeaderValue_eq hs hh (by decide : (ascii "Content-Length", 2) ∈ commonHeaderNames)]
  dsimp only
  unfold chunkedCoding declaredLength
  cases fromChars 10 (joinValues (valuesOf (ascii "Content-Length") fs)) with
  | none => simp
  | some n =>
    by_cases hz : n = 0
    · simp [hz]
    · by_cases hl : n > maxBodySize <;> simp [hz, hl]

lemma phase_completeHead (hb : s.Bounded) (hr : s.Receiving msg) (hn : got = [])
    (hg : ∀ {more fs rest}, FieldLines (s.readableBuffer ++ more) fs rest → Head (msg ++ more) (s.contents ++ fs) rest)
    (ho : findCrlf s.readableBuffer = some 0) : s.completeHead.Bounded ∧ s.completeHead.Phase msg got := by
  have hj := findCrlf_le ho
  have hh : Head msg s.contents (s.readableBuffer.drop 2) := by
    have hl : FieldLines (s.readableBuffer ++ []) [] (s.readableBuffer.drop 2) := by
      rw [append_nil]
      exact .done (nextLine_of_find ho)
    have all := hg hl
    rwa [append_nil, append_nil] at all
  unfold completeHead
  have hf := slots_finalizeHeaders (s := { s with
    readPos := s.readPos + 2, headerBytes := s.headerBytes + 2 }) hr.common
  generalize finalizeHeaders { s with
    readPos := s.readPos + 2, headerBytes := s.headerBytes + 2 } = t at hf ⊢
  obtain ⟨hs, ha⟩ := hf
  have hk : t.contents = s.contents := ha.contents
  have hs : ({ t with headersReady := true } : RequestParser).Slots s.contents := ⟨hs.count, hs.first, hs.repeated⟩
  dsimp only
  rw [prepareBody_eq hs hk]
  obtain ⟨buf, he, body, hw, hp⟩ := ha.kept
  have body : t.body = [] := body.trans hr.body
  have hw : t.ready = false := hw.trans hr.waiting
  have hp : t.chunked = false := hp.trans hr.chunked
  have hi : t.Bounded := by
    have hm := hb.advance hj
    exact ⟨by rw [buf, he]; exact hm.inside, by rw [buf]; exact hm.size⟩
  have unread : s.readableBuffer.drop 2 = t.readableBuffer := by
    rw [readableBuffer, readableBuffer, buf, he, drop_drop]
  rw [unread] at hh
  subst hn
  cases hc : chunkedCoding s.contents with
  | true =>
    refine ⟨⟨hi.inside, hi.size⟩, .chunked hw rfl rfl rfl hh hc ?_⟩
    intro more d left hq
    exact ⟨d, by simp [body], hq⟩
  | false =>
    by_cases hz : declaredLength s.contents = 0
    · rw [if_pos hz]
      refine ⟨⟨hi.inside, hi.size⟩, .ready rfl hh ?_⟩
      rw [Taken, hc, hz]
      exact ⟨by simp [body], by simp only [body]; rfl⟩
    rw [if_neg hz]
    refine ⟨⟨hi.inside, hi.size⟩, .fixed hw rfl rfl hp hh hc ?_ ?_⟩
    · simp only [body]
      rfl
    · simp [body]

lemma phase_headers (hb : s.Bounded) (hr : s.Receiving msg) (hs : s.state = .headers) (hn : got = [])
    (hre : ∀ {more fs rest}, FieldLines (s.readableBuffer ++ more) fs rest → Head (msg ++ more) (s.contents ++ fs) rest) :
    s.parseStep.1.Bounded ∧ s.parseStep.1.Phase msg got := by
  unfold parseStep
  rw [hs]
  dsimp only
  split
  next => exact ⟨hb, .headers hr hs hn hre⟩
  rename_i pos hf
  split
  next hla => exact phase_completeHead hb hr hn hre (hla ▸ hf)
  have hfi := findCrlf_le hf
  have hln : s.buf.drop s.readPos = s.readableBuffer.take pos ++ s.readableBuffer.drop pos := (take_append_drop ..).symm
  rcases s.parseHeaderLine_eq hln with hrf | ⟨f, view, hp, ha, hna, hv, hw⟩
  · rw [hrf]
    exact ⟨hb, .headers hr hs hn hre⟩
  rw [ha]
  have hl : (s.readableBuffer.take (pos)).length = pos := length_take_of_le (by omega)
  have hm := hb.advance hfi
  refine ⟨⟨hm.inside, hm.size⟩, .headers ?_ hs hn ?_⟩
  · refine ⟨hr.waiting, hr.headersReady, hr.preserved, hr.chunked,
      hr.body, hr.common, hr.held, Nat.le_add_right_of_le hr.started, ?_⟩
    intro o hme
    rcases mem_append.mp hme with old | new
    · have hi := hr.views o old
      dsimp only
      omega
    rw [mem_singleton] at new
    subst new
    dsimp only
    omega
  · intro more fs rest hli
    have storage : s.storage = s.buf := by rw [storage, hr.preserved]; rfl
    have he : contents { s with
        headerFields := s.headerFields ++ [view]
        headerBytes := s.headerBytes + (pos + 2)
        readPos := s.readPos + (pos + 2) } = s.contents ++ [f] := by
      refine (contents_push s view).trans ?_
      rw [storage, hna, hv]
    rw [he, append_assoc]
    refine hre (.field (nextLine_append (nextLine_of_find hf) more) ?_ hp ?_)
    · exact ne_nil_of_length_pos (by omega)
    · rw [← readableBuffer_advance]
      exact hli

lemma phase_fixed (hb : s.Bounded) (hw : s.ready = false)
    (hh : s.headersReady = true) (hs : s.state = .body) (ha : s.chunked = false)
    (he : Head msg fs rest) (hc : chunkedCoding fs = false) (hp : rest = got ++ s.body ++ s.readableBuffer)
    (hl : (got ++ s.body).length + s.bodyBytesRemaining = declaredLength fs) :
    s.parseStep.1.Bounded ∧ s.parseStep.1.Phase msg got := by
  unfold parseStep
  rw [hs]
  dsimp only
  rw [if_neg (by simp [ha])]
  generalize hsi : min s.readableBuffer.length s.bodyBytesRemaining = take
  have hf : take ≤ s.readableBuffer.length := by omega
  have hm := hb.advance hf
  have unread := s.readableBuffer_advance take
  have hp : rest = got ++ (s.body ++ s.readableBuffer.take take) ++ s.readableBuffer.drop take := by
    rw [hp]
    simp only [append_assoc, take_append_drop]
  rw [← unread] at hp
  have hr : (got ++ (s.body ++ s.readableBuffer.take take)).length + (s.bodyBytesRemaining - take) = declaredLength fs := by
    simp only [length_append, length_take_of_le hf] at hl ⊢
    omega
  split
  next => exact ⟨⟨hm.inside, hm.size⟩, .fixed hw hh rfl ha he hc hp hr⟩
  rename_i all
  refine ⟨⟨hm.inside, hm.size⟩, .ready rfl he ?_⟩
  rw [Taken, hc]
  refine ⟨?_, hp⟩
  dsimp only at all ⊢
  omega

/-- One round of the chunk loop, or the last. -/
lemma phase_chunkLoop (hk : Head msg fs rest) (ho : chunkedCoding fs = true) (k : Nat) (s : RequestParser) (hb : s.Bounded)
    (hw : s.ready = false) (hh : s.headersReady = true) (hs : s.state = .body) (hc : s.chunked = true)
    (hr : ∀ {more body unread}, ChunkedBody (rest ++ more) body unread →
      ∃ tail, body = got ++ s.body ++ tail ∧ ChunkedBody (s.readableBuffer ++ more) tail unread) :
    (chunkLoop k s).1.Bounded ∧ (if (chunkLoop k s).2 = .ok true then
        Taken fs rest (got ++ (chunkLoop k s).1.body) (chunkLoop k s).1.readableBuffer else (chunkLoop k s).1.Phase msg got) := by
  induction k generalizing s with
  | zero => exact ⟨hb, .chunked hw hh hs hc hk ho hr⟩
  | succ k ih =>
    have hj : s.Bounded ∧ s.Phase msg got := ⟨hb, .chunked hw hh hs hc hk ho hr⟩
    rw [chunkLoop]
    dsimp only
    split
    next => exact ⟨hj.1, by simpa using hj.2⟩
    rename_i p hf
    have hq := findCrlf_le hf
    split
    next => exact ⟨hj.1, by simpa using hj.2⟩
    rename_i n hre
    split
    next hz =>
      subst hz
      split
      next => split <;> exact ⟨hj.1, by simpa using hj.2⟩
      rename_i sz hcm
      have hi : sz ≤ s.readableBuffer.length := completed_le hq hcm
      have hm := hb.advance hi
      rw [Taken, ho]
      refine ⟨hm, ?_⟩
      intro d left hl
      have hn : ChunkedBody (rest ++ []) d left := by rwa [append_nil]
      obtain ⟨tail, rfl, he⟩ := hr hn
      rw [append_nil] at he
      obtain ⟨rfl, rfl⟩ := last_forced hf hre hcm he
      exact ⟨append_nil _, (s.readableBuffer_advance sz).symm⟩
    next hp =>
      split
      next => exact ⟨hj.1, by simpa using hj.2⟩
      split
      next => exact ⟨hj.1, by simpa using hj.2⟩
      rename_i hsh
      -- the sum does not wrap: neither string is that long
      have hl : p + 2 + n + 2 ≤ s.readableBuffer.length := by
        have sz := hb.size
        have readable := hb.readable
        simp only [stringMaxSize] at sz hsh
        omega
      have hm := hb.advance hl
      have hg : ∀ {more body unread}, ChunkedBody (rest ++ more) body unread →
          ∃ tail, body = got ++ (s.body ++ slice s.readableBuffer (p + 2) n) ++ tail ∧
            ChunkedBody (s.readableBuffer.drop (p + 2 + n + 2) ++ more) tail unread := by
        intro more body unread hn
        obtain ⟨tail, rfl, hj⟩ := hr hn
        obtain ⟨tail, rfl, ha⟩ := chunk_forced hf hre hp hl hj
        exact ⟨tail, by simp only [append_assoc], ha⟩
      rw [← readableBuffer_advance] at hg
      split
      next =>
        refine ⟨⟨hm.inside, hm.size⟩, ?_⟩
        exact .chunked hw hh hs hc hk ho hg
      next => exact ih _ ⟨hm.inside, hm.size⟩ hw hh hs hc hg

lemma phase_chunked (hb : s.Bounded) (hw : s.ready = false)
    (hh : s.headersReady = true) (hs : s.state = .body) (hc : s.chunked = true)
    (ha : Head msg fs rest) (ho : chunkedCoding fs = true) (hr : ∀ {more body unread}, ChunkedBody (rest ++ more) body unread →
      ∃ tail, body = got ++ s.body ++ tail ∧ ChunkedBody (s.readableBuffer ++ more) tail unread) :
    s.parseStep.1.Bounded ∧ s.parseStep.1.Phase msg got := by
  have hl := phase_chunkLoop ha ho (s.readableBuffer.length + 1) s hb hw hh hs hc hr
  unfold parseStep
  rw [hs]
  rw [if_pos hc]
  unfold processChunkedBody
  match he : chunkLoop (s.readableBuffer.length + 1) s with
  | (t, .error e) =>
    simp only [he, reduceCtorEq, if_false] at hl
    exact hl
  | (t, .ok false) =>
    simp only [he, Except.ok.injEq, Bool.false_eq_true, if_false] at hl
    exact hl
  | (t, .ok true) =>
    simp only [he, if_true] at hl
    exact ⟨⟨hl.1.inside, hl.1.size⟩, .ready rfl ha hl.2⟩

/-- The chunk loop returns before its bound is reached. -/
lemma chunkLoop_enough (k : Nat) (he : s.readableBuffer.length < k) : chunkLoop (k + 1) s = chunkLoop k s := by
  induction k generalizing s with
  | zero => omega
  | succ k ih =>
    rw [chunkLoop]
    conv => rhs; rw [chunkLoop]
    dsimp only
    split
    next => rfl
    rename_i p hf
    have ha := findCrlf_le hf
    split
    next => rfl
    rename_i n hre
    split
    next => rfl
    split
    next => rfl
    split
    next => rfl
    split
    next => rfl
    have hr := congrArg length (s.readableBuffer_advance (p + 2 + n + 2))
    rw [length_drop] at hr
    exact ih (lt_of_eq_of_lt hr (by omega))

lemma phase_parseStep (hb : s.Bounded) (hj : s.Phase msg got) (hw : s.ready = false) :
    s.parseStep.1.Bounded ∧ s.parseStep.1.Phase msg got := by
  cases hj with
  | requestLine hr hs ht he hn => exact phase_requestLine hb hr hs ht he hn
  | headers hr hs hn ha => exact phase_headers hb hr hs hn ha
  | fixed _ hh hs hk hf hc hp hl => exact phase_fixed hb hw hh hs hk hf hc hp hl
  | chunked _ hh hs hm hf hc ha => exact phase_chunked hb hw hh hs hm hf hc ha
  | ready hg =>
    rw [hw] at hg
    cases hg

/-- How many passes may still come. -/
def passes (s : RequestParser) : Nat :=
  if s.ready then 0 else if s.state = .body then 1 else s.readableBuffer.length + 2

lemma completeHead_ends (s : RequestParser) : s.completeHead.ready = true ∨ s.completeHead.state = .body := by
  unfold completeHead
  dsimp only
  split
  · exact .inl rfl
  · exact .inr rfl

/-- A pass before the body leaves fewer to come if it takes a line or is the last one. -/
lemma passes_lt {u : RequestParser} (hw : s.ready = false) (hs : s.state ≠ .body) (he : u.ready = true ∨ u.state = .body ∨
    ∃ pos, findCrlf s.readableBuffer = some pos ∧ u.readableBuffer = s.readableBuffer.drop (pos + 2)) : u.passes < s.passes := by
  have hl : u.ready = true ∨ u.state = .body ∨ u.readableBuffer.length < s.readableBuffer.length := by
    refine he.imp_right (.imp_right ?_)
    rintro ⟨pos, hf, hu⟩
    have := findCrlf_le hf
    rw [hu, length_drop]
    omega
  grind [passes]

lemma passes_parseStep (hw : s.ready = false) (ha : s.parseStep = (t, none)) : t.passes < s.passes := by
  unfold parseStep at ha
  split at ha
  next hs =>
    dsimp only at ha
    split at ha
    next => cases ha
    rename_i pos hf
    obtain ⟨methodOffset, methodSize, methodEnum, uriOffset, uriSize, ver, r, hp⟩ :=
      s.parseRequestLine_eq (s.readableBuffer.take pos)
    rw [hp] at ha
    cases r with
    | error => cases ha
    | ok =>
      cases ha
      exact passes_lt hw (by simp [hs]) (.inr (.inr ⟨pos, hf, s.readableBuffer_advance (pos + 2)⟩))
  next hs =>
    dsimp only at ha
    split at ha
    next => cases ha
    rename_i pos hf
    split at ha
    next =>
      cases ha
      exact passes_lt hw (by simp [hs]) (s.completeHead_ends.imp_right .inl)
    next =>
      rcases s.parseHeaderLine_eq (take_append_drop pos s.readableBuffer).symm with hr | ⟨field, view, -, hac, -⟩
      · rw [hr] at ha
        cases ha
      rw [hac] at ha
      cases ha
      exact passes_lt hw (by simp [hs]) (.inr (.inr ⟨pos, hf, s.readableBuffer_advance (pos + 2)⟩))
  next hs =>
    have one : s.passes = 1 := by simp [passes, hw, hs]
    rw [one]
    split at ha
    next =>
      split at ha
      next => cases ha
      next => cases ha
      next => cases ha; simp [passes]
    dsimp only at ha
    split at ha
    next => cases ha
    next => cases ha; simp [passes]

/-- `consume` returns before the bound of its loop is reached. -/
lemma consumeLoop_enough (k : Nat) (he : s.passes < k) : consumeLoop (k + 1) s = consumeLoop k s := by
  induction k generalizing s with
  | zero => omega
  | succ k ih =>
    rw [consumeLoop]
    conv => rhs; rw [consumeLoop]
    split
    next => rfl
    rename_i hw
    split
    next => rfl
    rename_i t ha
    have hf := passes_parseStep (Bool.eq_false_iff.mpr hw) ha
    exact ih (by omega)

/-- The loop of `consume` ends, and the bounds on it and on the loop over the chunks are not reached. -/
theorem consume_ends : WellFounded (fun t s : RequestParser => s.ready = false ∧ s.parseStep = (t, none)) ∧
    ∀ (s : RequestParser) (k : Nat),
      consumeLoop (s.readableBuffer.length + 3 + k) s = consumeLoop (s.readableBuffer.length + 3) s ∧
        chunkLoop (s.readableBuffer.length + 1 + k) s = chunkLoop (s.readableBuffer.length + 1) s := by
  refine ⟨Subrelation.wf (fun h => passes_parseStep h.1 h.2) (measure passes).wf, fun s k => ?_⟩
  induction k with
  | zero => exact ⟨rfl, rfl⟩
  | succ k ih =>
    have hp : s.passes < s.readableBuffer.length + 3 := by grind [passes]
    rw [← Nat.add_assoc, ← Nat.add_assoc, consumeLoop_enough _ (by omega), chunkLoop_enough _ (by omega)]
    exact ih

lemma phase_consumeLoop (k : Nat) (hb : s.Bounded) (hp : s.Phase msg got) :
    (consumeLoop k s).1.Bounded ∧ (consumeLoop k s).1.Phase msg got := by
  induction k generalizing s with
  | zero => exact ⟨hb, hp⟩
  | succ k ih =>
    rw [consumeLoop]
    split
    next => exact ⟨hb, hp⟩
    rename_i hw
    have hs := phase_parseStep hb hp (Bool.eq_false_iff.mpr hw)
    match done : s.parseStep with
    | (t, some result) =>
      rw [done] at hs
      exact hs
    | (t, none) =>
      rw [done] at hs
      exact ih hs.1 hs.2

end RequestParser

end Cnetmod.Http.V1
