import Cnetmod.Http.Spec.RequestPhases

/-!
# Runs of the request parser

A connection feeds bytes as they arrive, takes the body in pieces or at the end,
and goes on to the next message. The bytes of the current message are remembered
beside the parser.
-/
namespace Cnetmod.Http.V1

open Coding List RequestParser

/-- A parser in use, with the bytes received since the message began and the part
of its body that was taken. -/
structure Reading where
  parser : RequestParser := {}
  message : Bytes := []
  taken : Bytes := []

inductive Use where
  | consume (data : Bytes)
  | preserveHeaders
  | takeBodyChunk
  | takeBufferedData
  | resetForNextMessage
  | reset

namespace RequestParser

/-- The bytes `consume` appends: none when the message is ready or the buffer is full. -/
def accepted (s : RequestParser) (data : Bytes) : Bytes :=
  if s.ready ∨ (s.makeRoom data).buf.length + data.length > stringMaxSize then [] else data

end RequestParser

namespace Reading

def step (r : Reading) : Use → Reading
  | .consume data =>
    { r with
      parser := (r.parser.consume data).1
      message := r.message ++ r.parser.accepted data }
  | .preserveHeaders => { r with parser := r.parser.preserveHeaders }
  | .takeBodyChunk =>
    { r with parser := r.parser.takeBodyChunk.1, taken := r.taken ++ r.parser.takeBodyChunk.2 }
  | .takeBufferedData => { r with parser := r.parser.takeBufferedData.1 }
  | .resetForNextMessage =>
    { parser := r.parser.resetForNextMessage
      message := r.parser.resetForNextMessage.readableBuffer }
  | .reset => { parser := r.parser.reset }

/-- The reading after a sequence of uses of a new parser. -/
def after (uses : List Use) : Reading := uses.foldl step {}

end Reading

namespace RequestParser

variable {message taken d : Bytes} {s t : RequestParser}

/-- A phase of the body depends on a few fields only. -/
lemma phase_of_body (hk : s.Phase message taken) (hc : s.headersReady = true) (hw : s.ready = false)
    (hm : t.ready = s.ready ∧ t.headersReady = s.headersReady ∧ t.state = s.state ∧
      t.chunked = s.chunked ∧ t.body = s.body ∧ t.bodyBytesRemaining = s.bodyBytesRemaining ∧
      t.readableBuffer = s.readableBuffer) : t.Phase message taken := by
  obtain ⟨ha, hh, ht, hf, hb, hn, hg⟩ := hm
  cases hk with
  | requestLine hr | headers hr =>
    rw [hr.headersReady] at hc
    cases hc
  | fixed _ _ hs hp he ho hq hl =>
    exact .fixed (ha.trans hw) (hh.trans hc) (ht.trans hs)
      (hf.trans hp) he ho (by rw [hb, hg]; exact hq)
      (by rw [hb, hn]; exact hl)
  | chunked _ _ hs hu he ho hv =>
    exact .chunked (ha.trans hw) (hh.trans hc) (ht.trans hs) (hf.trans hu) he ho (by rw [hb, hg]; exact hv)
  | ready hj =>
    rw [hw] at hj
    cases hj

lemma preserveHeaders_of_waiting (hi : s.headersReady = false) : s.preserveHeaders = s := by
  rw [preserveHeaders, if_pos (.inr (by simp [hi]))]

lemma preserveHeaders_kept (s : RequestParser) : s.preserveHeaders.buf = s.buf ∧ s.preserveHeaders.readPos = s.readPos ∧
      s.preserveHeaders.ready = s.ready ∧ s.preserveHeaders.headersReady = s.headersReady ∧
      s.preserveHeaders.state = s.state ∧ s.preserveHeaders.chunked = s.chunked ∧ s.preserveHeaders.body = s.body ∧
      s.preserveHeaders.bodyBytesRemaining = s.bodyBytesRemaining := by
  unfold preserveHeaders
  split <;> exact ⟨rfl, rfl, rfl, rfl, rfl, rfl, rfl, rfl⟩

lemma bounded_preserveHeaders (hb : s.Bounded) : s.preserveHeaders.Bounded := by
  obtain ⟨buf, hr, -⟩ := s.preserveHeaders_kept
  exact ⟨by rw [buf, hr]; exact hb.inside, by rw [buf]; exact hb.size⟩

lemma phase_preserveHeaders (hp : s.Phase message taken) (hw : s.ready = false) : s.preserveHeaders.Phase message taken := by
  cases hc : s.headersReady with
  | false => rwa [preserveHeaders_of_waiting hc]
  | true =>
    obtain ⟨buf, he, ha, hh, hs, hf, hb, hr⟩ := s.preserveHeaders_kept
    exact phase_of_body hp hc hw ⟨ha, hh, hs, hf, hb, hr, by rw [readableBuffer, readableBuffer, buf, he]⟩

lemma compactBuffer_kept (s : RequestParser) :
    s.compactBuffer.readableBuffer = s.readableBuffer ∧ s.compactBuffer.ready = s.ready ∧
      s.compactBuffer.headersReady = s.headersReady ∧ s.compactBuffer.state = s.state ∧
      s.compactBuffer.chunked = s.chunked ∧ s.compactBuffer.body = s.body ∧
      s.compactBuffer.bodyBytesRemaining = s.bodyBytesRemaining := by
  unfold compactBuffer
  split
  · exact ⟨rfl, rfl, rfl, rfl, rfl, rfl, rfl⟩
  split
  · exact ⟨rfl, rfl, rfl, rfl, rfl, rfl, rfl⟩
  split
  next all => exact ⟨by simp [readableBuffer, all], rfl, rfl, rfl, rfl, rfl, rfl⟩
  split <;> exact ⟨rfl, rfl, rfl, rfl, rfl, rfl, rfl⟩

lemma bounded_compactBuffer (hb : s.Bounded) : s.compactBuffer.Bounded := by
  have hs := hb.size
  unfold compactBuffer
  split
  · exact hb
  split
  · exact hb
  split
  · exact ⟨Nat.le_refl 0, Nat.zero_le _⟩
  split
  · refine ⟨Nat.zero_le _, ?_⟩
    rw [length_drop]
    omega
  · exact hb

lemma phase_makeRoom (hb : s.Bounded) (hp : s.Phase message taken) (hw : s.ready = false) (d : Bytes) :
    (s.makeRoom d).Bounded ∧ (s.makeRoom d).Phase message taken ∧ (s.makeRoom d).ready = false := by
  have ha : ∀ {t : RequestParser}, t = (if d ≠ [] ∧ s.headersReady ∧ ¬ s.headersPreserved then
      s.preserveHeaders else s) → t.Bounded ∧ t.Phase message taken ∧ t.ready = false := by
    rintro t rfl
    split
    · exact ⟨bounded_preserveHeaders hb, phase_preserveHeaders hp hw, s.preserveHeaders_kept.2.2.1.trans hw⟩
    · exact ⟨hb, hp, hw⟩
  unfold makeRoom
  obtain ⟨hb, hp, hw⟩ := ha rfl
  generalize (if d ≠ [] ∧ s.headersReady ∧ ¬ s.headersPreserved then s.preserveHeaders else s) = t
    at hb hp hw ⊢
  obtain ⟨he, hr, hh, hs, hf, ho, hg⟩ := t.compactBuffer_kept
  refine ⟨bounded_compactBuffer hb, ?_, hr.trans hw⟩
  cases hc : t.headersReady with
  | false =>
    rw [compactBuffer, if_pos (by simp [hc])]
    exact hp
  | true => exact phase_of_body hp hc hw ⟨hr, hh, hs, hf, ho, hg, he⟩

lemma readableBuffer_append (hb : s.Bounded) (d : Bytes) :
    ({ s with buf := s.buf ++ d } : RequestParser).readableBuffer = s.readableBuffer ++ d := by
  rw [readableBuffer, readableBuffer, drop_append_of_le_length hb.inside]

lemma contents_append (hr : s.Receiving message) (hb : s.Bounded) (d : Bytes) :
    ({ s with buf := s.buf ++ d } : RequestParser).contents = s.contents := by
  have he : s.storage = s.buf := by rw [storage, hr.preserved]; rfl
  have ha : ({ s with buf := s.buf ++ d } : RequestParser).storage = s.buf ++ d := by
    rw [hr.preserved]
    rfl
  unfold contents
  rw [he, ha]
  refine map_congr_left fun view hm => ?_
  have hv := hr.views view hm
  have hi := hb.inside
  rw [slice_append (by omega), slice_append (by omega)]

lemma Receiving.append (hr : s.Receiving message) (hb : s.Bounded) (d : Bytes) :
    ({ s with buf := s.buf ++ d } : RequestParser).Receiving (message ++ d) where
  waiting := hr.waiting
  headersReady := hr.headersReady
  preserved := hr.preserved
  chunked := hr.chunked
  body := hr.body
  common := hr.common
  held := by rw [drop_append_of_le_length (hr.started.trans hb.inside), hr.held]
  started := hr.started
  views := hr.views

lemma phase_append (hb : s.Bounded) (hq : s.Phase message taken) (hw : s.ready = false) (d : Bytes) :
    ({ s with buf := s.buf ++ d } : RequestParser).Phase (message ++ d) taken := by
  have hf := readableBuffer_append hb d
  cases hq with
  | requestLine hr hs ht he hn => exact .requestLine (hr.append hb d) hs ht he hn
  | headers hr hs hn hg =>
    refine .headers (hr.append hb d) hs hn ?_
    intro more fs tl hl
    rw [hf, append_assoc] at hl
    rw [contents_append hr hb, append_assoc]
    exact hg hl
  | fixed _ hh hs hu hj ho hp hv =>
    refine .fixed hw hh hs hu (hj.append d) ho ?_ hv
    rw [hf, hp, append_assoc]
  | chunked _ hh hs hc hj ho hg =>
    refine .chunked hw hh hs hc (hj.append d) ho ?_
    intro more body unread hk
    rw [append_assoc] at hk
    obtain ⟨tail, hp, ha⟩ := hg hk
    rw [hf, append_assoc]
    exact ⟨tail, hp, ha⟩
  | ready hm =>
    rw [hw] at hm
    cases hm

lemma phase_consume (hb : s.Bounded) (hp : s.Phase message taken) (hw : s.ready = false) (d : Bytes) :
    (s.consume d).1.Bounded ∧ (s.consume d).1.Phase (message ++ s.accepted d) taken := by
  obtain ⟨hb, hp, hs⟩ := phase_makeRoom hb hp hw d
  unfold consume accepted
  rw [if_neg (by simp [hw])]
  dsimp only
  split
  next hl =>
    rw [if_pos (.inr hl), append_nil]
    exact ⟨hb, hp⟩
  next hf =>
    rw [if_neg (by simp only [hw, Bool.false_eq_true, false_or]; exact hf)]
    have hg : ({ s.makeRoom d with buf := (s.makeRoom d).buf ++ d } : RequestParser).Bounded := by
      have hi := hb.inside
      refine ⟨?_, ?_⟩ <;> simp only [length_append] <;> omega
    have he := phase_consumeLoop
      (({ s.makeRoom d with buf := (s.makeRoom d).buf ++ d } : RequestParser).readableBuffer.length + 3)
      hg (phase_append hb hp hs d)
    split
    next hn =>
      rw [hn] at he
      exact he
    next hn =>
      rw [hn] at he
      exact he

lemma readableBuffer_resetForNextMessage (s : RequestParser) : s.resetForNextMessage.readableBuffer = s.readableBuffer := by
  unfold resetForNextMessage
  split
  next all => simp [resetMessageState, readableBuffer, all]
  split <;> rfl

lemma phase_reset (s : RequestParser) : s.reset.Bounded ∧ s.reset.Phase [] [] := by
  refine ⟨⟨Nat.le_refl 0, Nat.zero_le _⟩, .requestLine ?_ rfl rfl rfl rfl⟩
  exact ⟨rfl, rfl, rfl, rfl, rfl, rfl, rfl, Nat.le_refl 0, fun view hm => nomatch hm⟩

lemma phase_resetForNextMessage (hb : s.Bounded) :
    s.resetForNextMessage.Bounded ∧ s.resetForNextMessage.Phase s.resetForNextMessage.readableBuffer [] := by
  have hf : ∀ {t : RequestParser}, t.Bounded →
      (resetMessageState { t with messageStart := t.readPos, headerStorage := [] }).Bounded ∧
      (resetMessageState { t with messageStart := t.readPos, headerStorage := [] }).Phase t.readableBuffer [] := by
    intro t hb
    refine ⟨⟨hb.inside, hb.size⟩, .requestLine ?_ rfl rfl rfl rfl⟩
    exact ⟨rfl, rfl, rfl, rfl, rfl, rfl, rfl, le_rfl, fun view hm => nomatch hm⟩
  rw [readableBuffer_resetForNextMessage]
  have ha := hb.size
  unfold resetForNextMessage
  split
  next all =>
    have hr := @hf { s with buf := [], readPos := 0 } ⟨Nat.le_refl 0, Nat.zero_le _⟩
    have hs : ({ s with buf := [], readPos := 0 } : RequestParser).readableBuffer = s.readableBuffer := by
      simp [readableBuffer, all]
    rwa [hs] at hr
  split
  next =>
    refine @hf { s with buf := s.buf.drop s.readPos, readPos := 0 } ⟨Nat.zero_le _, ?_⟩
    rw [length_drop]
    omega
  next => exact hf hb

lemma phase_takeBodyChunk (hp : s.Phase message taken) :
    ({ s with body := [] } : RequestParser).Phase message (taken ++ s.body) := by
  have hb : taken ++ s.body ++ [] = taken ++ s.body := append_nil _
  cases hp with
  | requestLine hr hs ht he hn =>
    refine .requestLine ⟨hr.waiting, hr.headersReady, hr.preserved, hr.chunked,
      rfl, hr.common, hr.held, hr.started, hr.views⟩ hs ht he ?_
    rw [hn, hr.body]
    rfl
  | headers hr hs hn hg =>
    refine .headers ⟨hr.waiting, hr.headersReady, hr.preserved, hr.chunked,
      rfl, hr.common, hr.held, hr.started, hr.views⟩ hs ?_ hg
    rw [hn, hr.body]
    rfl
  | fixed hw hh hs hj ha ho hk hl =>
    exact .fixed hw hh hs hj ha ho (by rw [hb]; exact hk) (by rw [hb]; exact hl)
  | chunked hw hh hs hc ha ho hg => exact .chunked hw hh hs hc ha ho (by rw [hb]; exact hg)
  | ready hm ha hf => exact .ready hm ha (by rw [hb]; exact hf)

end RequestParser

namespace Reading

/-- While a message comes in, the parser is in a phase of it. -/
structure Sound (r : Reading) : Prop where
  bounded : r.parser.Bounded
  phase : r.parser.ready = false → r.parser.Phase r.message r.taken

lemma sound_step {r : Reading} (hs : r.Sound) (use : Use) : (r.step use).Sound := by
  cases use with
  | consume d =>
    cases hr : r.parser.ready with
    | true =>
      have ha : r.parser.consume d = (r.parser, .ok 0) := by rw [consume, if_pos hr]
      refine ⟨?_, ?_⟩
      · simp only [step, ha]
        exact hs.bounded
      · simp [step, ha, hr]
    | false =>
      obtain ⟨hb, hp⟩ := phase_consume hs.bounded (hs.phase hr) hr d
      exact ⟨hb, fun _ => hp⟩
  | preserveHeaders =>
    refine ⟨bounded_preserveHeaders hs.bounded, fun hw => ?_⟩
    have hw : r.parser.ready = false := r.parser.preserveHeaders_kept.2.2.1.symm.trans hw
    exact phase_preserveHeaders (hs.phase hw) hw
  | takeBodyChunk =>
    refine ⟨⟨hs.bounded.inside, hs.bounded.size⟩, fun hw => ?_⟩
    exact phase_takeBodyChunk (hs.phase hw)
  | takeBufferedData =>
    simp only [step, takeBufferedData]
    split
    next hw => exact hs
    rename_i hr
    refine ⟨⟨Nat.le_refl 0, Nat.zero_le _⟩, fun hw => ?_⟩
    have hw : r.parser.ready = false := r.parser.preserveHeaders_kept.2.2.1.symm.trans hw
    exact absurd (by simp [hw]) hr
  | resetForNextMessage =>
    obtain ⟨hb, hp⟩ := phase_resetForNextMessage hs.bounded
    exact ⟨hb, fun _ => hp⟩
  | reset =>
    obtain ⟨hb, hp⟩ := r.parser.phase_reset
    exact ⟨hb, fun _ => hp⟩

lemma sound_after (uses : List Use) : (after uses).Sound := by
  induction uses using reverseRecOn with
  | nil =>
    obtain ⟨hb, hp⟩ := phase_reset {}
    exact ⟨hb, fun _ => hp⟩
  | append_singleton uses use ih =>
    rw [after, foldl_append, foldl_cons]
    exact sound_step ih use

end Reading

end Cnetmod.Http.V1
