import Cnetmod.Http.Spec.RequestRuns

/-!
# Where a request ends

Whenever a message becomes ready, the parser has framed it by the rule exactly if
the message is clear: its codings are just `chunked`, spelled so, with a body in
the chunked grammar; or it has no coding and lengths that are one number within
the limit; or it has neither. Every other message that becomes ready is cut
somewhere else, and what follows the cut is read as the next request.
-/
namespace Cnetmod.Http.V1

open Coding List

variable {fields : List Field}

lemma foldl_join (vs : List Bytes) (all : Bytes) :
    ∃ tl, vs.foldl (fun all v => all ++ ascii ", " ++ v) all = all ++ tl ∧ (tl = [] ∨ tl.head? = some 44) := by
  induction vs generalizing all with
  | nil => exact ⟨[], (append_nil _).symm, .inl rfl⟩
  | cons v vs ih =>
    obtain ⟨tl, hs, -⟩ := ih (all ++ ", " ++ v)
    exact ⟨", " ++ v ++ tl, by rw [foldl_cons, hs]; simp only [append_assoc], .inr rfl⟩

/-- The number the rule takes from the lengths is the one the parser reads. -/
lemma declaredLength_eq (ha : valuesOf "Content-Length" fields = hd :: others)
    (hn : LengthIs (hd :: others) n) : declaredLength fields = n := by
  obtain ⟨t, hs, some, hf, hv, hl⟩ := hn
  obtain ⟨tl, hj, hg⟩ := foldl_join others hd
  have hb : joinValues (hd :: others) = t ++ tl := by rw [joinValues, hj, hs hd (mem_cons_self ..)]
  have hr : (t ++ tl).takeWhile (isDigit 10) = t := by
    refine takeWhile_digits hf fun c hd => ?_
    rcases hg with rfl | hc
    · cases hd
    rw [hc] at hd
    cases hd
    decide
  have hw : fromChars 10 (t ++ tl) = Option.some n := by
    simp only [fromChars]
    rw [hr, hv, if_neg]
    rintro (he | hk)
    · exact some he
    · simp only [maxBodySize] at hl
      omega
  rw [declaredLength, ha, hb, hw]
  dsimp only
  rw [if_neg (not_lt.mpr hl)]

/-- A coding the rule and the parser both take for chunked is spelled so. -/
lemma coding_eq (hv : valuesOf (ascii "Transfer-Encoding") fields = codings) (hr : CodingIsChunked codings)
    (hp : chunkedCoding fields = true) : codings = [ascii "chunked"] := by
  obtain ⟨coding, rfl, he⟩ := hr
  rw [chunkedCoding, hv] at hp
  obtain ⟨pos, hf⟩ := Option.isSome_iff_exists.mp hp
  have hf : find (ascii "chunked") coding = some pos := hf
  obtain ⟨pre, after, -, hw⟩ := find_some hf
  have hl : coding.length = (ascii "chunked").length := by
    simpa using congrArg length (headerEqual_iff.mp he)
  rw [hw, length_append, length_append] at hl
  have ha : pre = [] := length_eq_zero_iff.mp (by omega)
  have hb : after = [] := length_eq_zero_iff.mp (by omega)
  rw [hw, ha, hb]
  rfl

lemma chunkedCoding_of_eq (hv : valuesOf "Transfer-Encoding" fields = ["chunked"]) :
    chunkedCoding fields = true := by
  rw [chunkedCoding, hv]
  decide

lemma chunkedCoding_of_none (hv : valuesOf "Transfer-Encoding" fields = []) : chunkedCoding fields = false := by
  rw [chunkedCoding, hv]
  decide

/-- What the parser has taken is the rule's framing for clear messages only. -/
lemma framed_iff_clear (ht : Taken fields tl body unread) : Framed fields tl body unread ↔ Clear fields tl := by
  unfold Framed Clear
  cases hcd : valuesOf "Transfer-Encoding" fields with
  | nil =>
    rw [Taken, chunkedCoding_of_none hcd] at ht
    obtain ⟨hl, hp⟩ := ht
    cases hle : valuesOf "Content-Length" fields with
    | nil =>
      have none : declaredLength fields = 0 := by
        rw [declaredLength, hle]
        rfl
      have he : body = [] := length_eq_zero_iff.mp (hl.trans none)
      rw [he] at hp
      exact iff_of_true ⟨he, hp.symm⟩ trivial
    | cons hd others =>
      constructor
      · exact fun hf => ⟨body.length, hf.1⟩
      rintro ⟨n, hn⟩
      rw [declaredLength_eq hle hn] at hl
      exact ⟨hl ▸ hn, hp⟩
  | cons hd others =>
    cases hco : chunkedCoding fields with
    | true =>
      rw [Taken, hco] at ht
      constructor
      · rintro ⟨hr, hc⟩
        exact ⟨coding_eq hcd hr hco, body, unread, hc⟩
      rintro ⟨hs, d, left, hc⟩
      obtain ⟨rfl, rfl⟩ := ht hc
      exact ⟨⟨"chunked", hs, by decide⟩, hc⟩
    | false =>
      rw [Taken, hco] at ht
      constructor
      · rintro ⟨-, hc⟩
        -- the parser has taken the raw bytes, which are more than the data
        have ho := hc.length_lt
        rw [ht.2, length_append] at ho
        exact absurd ho (lt_irrefl _)
      rintro ⟨hs, -⟩
      rw [chunkedCoding_of_eq (hcd.trans hs)] at hco
      cases hco

/-- When a message becomes ready, its head is complete, and it has been framed by
the rule, with the next message read from the byte after its body, if and only if
it is clear. -/
theorem request_framed_iff_clear (uses : List Use) (data : Bytes)
    (waiting : (Reading.after uses).parser.ready = false)
    (ready : ((Reading.after uses).step (.consume data)).parser.ready = true) :
    let r := (Reading.after uses).step (.consume data)
    (∃ fields rest, Head r.message fields rest) ∧
      ∀ fields rest, Head r.message fields rest →
        (Framed fields rest (r.taken ++ r.parser.body) r.parser.resetForNextMessage.readableBuffer ↔ Clear fields rest) := by
  have hs := Reading.sound_after uses
  have hp := (RequestParser.phase_consume hs.bounded (hs.phase waiting) waiting data).2
  generalize hhe : (Reading.after uses).step (.consume data) = r at ready ⊢
  have hp : r.parser.Phase r.message r.taken := by
    rw [← hhe]
    exact hp
  cases hp with
  | requestLine hr | headers hr =>
    rw [hr.waiting] at ready
    cases ready
  | fixed waiting | chunked waiting =>
    rw [waiting] at ready
    cases ready
  | ready _ hh hf =>
    refine ⟨⟨_, _, hh⟩, fun fields rest ho => ?_⟩
    obtain ⟨rfl, rfl⟩ := hh.unique ho
    rw [RequestParser.readableBuffer_resetForNextMessage]
    exact framed_iff_clear hf

/-- A body of two bytes and the beginning of another request. -/
def greeting : Bytes := "POST / HTTP/1.1\r\nContent-Length: 2\r\n\r\nhiGET"

/-- A clear message and what follows it. -/
theorem request_framed_iff_clear_greeting :
    let reading := (Reading.after []).step (.consume greeting)
    Framed [⟨"Content-Length", "2"⟩] "hiGET" (reading.taken ++ reading.parser.body)
      reading.parser.resetForNextMessage.readableBuffer := by
  have hh : Head ((Reading.after []).step (.consume greeting)).message [⟨"Content-Length", "2"⟩] "hiGET" := by
    have hf : nextLine ((Reading.after []).step (.consume greeting)).message =
        some (ascii "POST / HTTP/1.1", ascii "Content-Length: 2\r\n\r\nhiGET") := by decide +kernel
    have hs : nextLine "Content-Length: 2\r\n\r\nhiGET" =
        some (ascii "Content-Length: 2", ascii "\r\nhiGET") := by decide +kernel
    exact .mk hf (.field hs (by decide +kernel) (by decide +kernel) (.done (by decide +kernel)))
  have clear : Clear [⟨"Content-Length", "2"⟩] "hiGET" :=
    ⟨2, "2", by decide +kernel, by decide +kernel, by decide +kernel, by decide +kernel, by decide +kernel⟩
  exact ((request_framed_iff_clear [] greeting (by decide +kernel) (by decide +kernel)).2 _ _ hh).mpr clear

/-- A length of one byte above the limit. -/
def oversized : Bytes :=
  "POST / HTTP/1.1\r\nContent-Length: 33554433\r\n\r\nGET /inner HTTP/1.1\r\n\r\n"

/-- The message becomes ready without its body, and the body is parsed as a request. -/
theorem oversized_body_parsed :
    let reading := (Reading.after []).step (.consume oversized)
    let next := Reading.after [.consume oversized, .resetForNextMessage, .consume []]
    reading.parser.ready = true ∧
      (∃ fields rest, Head reading.message fields rest ∧ ¬ Framed fields rest (reading.taken ++ reading.parser.body)
        reading.parser.resetForNextMessage.readableBuffer) ∧
      next.parser.ready = true ∧ next.parser.method = "GET" ∧ next.parser.uri = "/inner" := by
  have hh : Head ((Reading.after []).step (.consume oversized)).message
      [⟨"Content-Length", "33554433"⟩] "GET /inner HTTP/1.1\r\n\r\n" := by
    have hf : nextLine ((Reading.after []).step (.consume oversized)).message =
        some (ascii "POST / HTTP/1.1", ascii "Content-Length: 33554433\r\n\r\nGET /inner HTTP/1.1\r\n\r\n") := by decide +kernel
    have hs : nextLine (ascii "Content-Length: 33554433\r\n\r\nGET /inner HTTP/1.1\r\n\r\n") =
        some (ascii "Content-Length: 33554433", ascii "\r\nGET /inner HTTP/1.1\r\n\r\n") := by
      decide +kernel
    exact .mk hf (.field hs (by decide +kernel) (by decide +kernel) (.done (by decide +kernel)))
  refine ⟨by decide +kernel, ⟨_, _, hh, ?_⟩, by decide +kernel, by decide +kernel, by decide +kernel⟩
  rintro ⟨⟨t, ha, -, -, hv, hl⟩, -⟩
  rw [← hv, ← ha (ascii "33554433") (by decide)] at hl
  exact absurd hl (by decide)

end Cnetmod.Http.V1
