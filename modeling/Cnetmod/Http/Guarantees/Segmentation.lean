import Cnetmod.Coding.Incremental
import Cnetmod.Http.Source.Receive

/-!
# Reads may be cut anywhere

`receive` parses in place when nothing is buffered and in its own buffer
otherwise. Where no frame is held back for the one behind it, what it does
depends on the bytes only, not on how the transport cut them.
-/
namespace Cnetmod.Http.V2

open Coding List

lemma decodeFrameHeader_append (he : frameHeaderSize ≤ inp.length)
    (after : Bytes) : decodeFrameHeader (inp ++ after) = decodeFrameHeader inp := by
  match inp, he with
  | _ :: _ :: _ :: _ :: _ :: _ :: _ :: _ :: _ :: tl, _ => rfl

def takeFrame (cfg : SessionConfig) (s : Session) (input : Bytes) : Outcome (Bool × Session) Errc UInt8 :=
  if input.length < frameHeaderSize then .more
  else
    match decodeFrameHeader input with
    | .error code => .fail (true, s) code
    | .ok header =>
      if input.length < frameHeaderSize + header.length then .more
      else
        match s.processFrame cfg header ((input.drop frameHeaderSize).take header.length) false with
        | (s, .error code) =>
          .fail (true, s.queueConnectionError (if code = .messageSize then errorFrameSize else errorProtocol)) code
        | (s, .ok _) => .step (true, s) (input.drop (frameHeaderSize + header.length))

def takePreface (cfg : SessionConfig) (s : Session) (input : Bytes) : Outcome (Bool × Session) Errc UInt8 :=
  if input.length < clientPreface.length then .more
  else if input.take clientPreface.length ≠ clientPreface then .fail (false, s) .protocolError
  else
    .step (true, s.queueFrame { type := .settings } (encodeSettings cfg.localSettings)) (input.drop clientPreface.length)

/-- What is parsed next: the preface, once, and then frames. -/
def nextFrame (cfg : SessionConfig) (c : Bool × Session) (input : Bytes) : Outcome (Bool × Session) Errc UInt8 :=
  if c.1 then takeFrame cfg c.2 input else takePreface cfg c.2 input

/-- The outcome when `after` follows the input. -/
def followedBy (after : Bytes) : Outcome (Bool × Session) Errc UInt8 → Outcome (Bool × Session) Errc UInt8
  | .more => .more
  | .fail c code => .fail c code
  | .step c rest => .step c (rest ++ after)

variable {cfg : SessionConfig} {s : Session} {c c' : Bool × Session} {input rest : Bytes}

lemma clientPreface_length : clientPreface.length = 24 := by decide

lemma takeFrame_append (after : Bytes) (he : takeFrame cfg s input ≠ .more) :
    takeFrame cfg s (input ++ after) = followedBy after (takeFrame cfg s input) := by
  unfold takeFrame at he ⊢
  by_cases hs : input.length < frameHeaderSize
  · exact absurd (if_pos hs) he
  rw [if_neg hs] at he ⊢
  rw [if_neg (by rw [length_append]; omega), decodeFrameHeader_append (by omega)]
  cases hh : decodeFrameHeader input with
  | error code => rfl
  | ok header' =>
    rw [hh] at he
    dsimp only at he ⊢
    by_cases hp : input.length < frameHeaderSize + header'.length
    · exact absurd (if_pos hp) he
    -- header and payload lie in the old input, the rest grows
    have ha : ((input ++ after).drop frameHeaderSize).take header'.length =
        (input.drop frameHeaderSize).take header'.length := by
      rw [drop_append_of_le_length (by omega), take_append_of_le_length (by rw [length_drop]; omega)]
    rw [if_neg hp, if_neg (by rw [length_append]; omega), ha]
    rcases s.processFrame cfg header' ((input.drop frameHeaderSize).take header'.length) false with ⟨s', code | ok⟩
    · rfl
    · simp only [followedBy, drop_append_of_le_length (Nat.le_of_not_lt hp)]

lemma takePreface_append (after : Bytes) (ha : takePreface cfg s input ≠ .more) :
    takePreface cfg s (input ++ after) = followedBy after (takePreface cfg s input) := by
  unfold takePreface at ha ⊢
  by_cases hs : input.length < clientPreface.length
  · exact absurd (if_pos hs) ha
  have he : clientPreface.length ≤ input.length := Nat.le_of_not_lt hs
  rw [if_neg (by rw [length_append]; omega), take_append_of_le_length he, drop_append_of_le_length he]
  split <;> rfl

lemma nextFrame_append (after : Bytes) (he : nextFrame cfg c input ≠ .more) :
    nextFrame cfg c (input ++ after) = followedBy after (nextFrame cfg c input) := by
  unfold nextFrame at he ⊢
  split
  case isTrue hg =>
    rw [if_pos hg] at he
    exact takeFrame_append after he
  case isFalse hs =>
    rw [if_neg hs] at he
    exact takePreface_append after he

lemma nextFrame_shrinks (hs : nextFrame cfg c input = .step c' rest) : rest.length < input.length := by
  have hn : frameHeaderSize = 9 := rfl
  have hp := clientPreface_length
  unfold nextFrame takeFrame takePreface at hs
  split at hs
  · split at hs
    · cases hs
    split at hs
    · cases hs
    split at hs
    · cases hs
    split at hs
    · cases hs
    cases hs
    rw [length_drop]
    omega
  · split at hs
    · cases hs
    split at hs
    · cases hs
    cases hs
    rw [length_drop]
    omega

/-- The parser of a connection. -/
def frameParser (cfg : SessionConfig) : Parser (Bool × Session) Errc UInt8 where
  next := nextFrame cfg
  needs := by
    intro c
    unfold nextFrame
    split <;> rfl
  shrinks := nextFrame_shrinks
  step_stays := by
    intro c c' input rest after step
    rw [nextFrame_append after (by rw [step]; exact fun h => by cases h), step]
    rfl
  fail_stays := by
    intro c c' input code after fails
    rw [nextFrame_append after (by rw [fails]; exact fun h => by cases h), fails]
    rfl

/-- Where complete requests are not buffered, the loop of `receive` is the parser. -/
lemma receiveLoop_eq_drain (hl : cfg.bufferCompleteRequests = false) (k : Nat) :
    (frameParser cfg).drain k (true, s) input =
      match s.receiveLoop cfg k input with
      | (s, rest, .ok _) => ((true, s), rest, none)
      | (s, rest, .error code) => ((true, s), rest, some code) := by
  induction k generalizing s input with
  | zero => rfl
  | succ k ih =>
    have hf : ∀ hdr next, Session.completeBodyFollows cfg hdr next = false := by
      intro hdr next
      simp [Session.completeBodyFollows, hl]
    have next : (frameParser cfg).next (true, s) input = takeFrame cfg s input := rfl
    unfold Parser.drain Session.receiveLoop
    rw [next]
    unfold takeFrame
    by_cases hs : input.length < frameHeaderSize
    · rw [if_pos hs, if_pos hs]
    rw [if_neg hs, if_neg hs]
    cases decodeFrameHeader input with
    | error code => rfl
    | ok hdr =>
      dsimp only
      by_cases hp : input.length < frameHeaderSize + hdr.length
      · rw [if_pos hp, if_pos hp]
      rw [if_neg hp, if_neg hp, hf]
      rcases s.processFrame cfg hdr ((input.drop frameHeaderSize).take hdr.length) false with ⟨s', code | ok⟩
      · rfl
      · exact ih

/-- The part of a connection the parser works on. -/
def Connection.parsed (k : Connection) : Bool × Session := (k.receivedPreface, k.session)

def errorOf : Except Errc Unit → Option Errc
  | .ok _ => none
  | .error code => some code

lemma errorOf_injective (hs : errorOf a = errorOf b) : a = b := by
  cases a <;> cases b <;> cases hs <;> rfl

/-- The result of a read agrees with a run of the parser. -/
structure Agrees (result : Connection × Except Errc Unit)
    (run : (Bool × Session) × Bytes × Option Errc) : Prop where
  parsed : result.1.parsed = run.1
  verdict : errorOf result.2 = run.2.2
  input : run.2.2 = none → result.1.input = run.2.1

lemma receive_agrees (hp : cfg.bufferCompleteRequests = false) (k : Connection) (bs : Bytes) :
    Agrees (k.receive cfg bs) ((frameParser cfg).run k.parsed (k.input ++ bs)) := by
  unfold Connection.receive Connection.parsed
  dsimp only
  generalize k.input ++ bs = input
  cases hg : k.receivedPreface with
  | true =>
    rw [Parser.run, receiveLoop_eq_drain hp]
    rcases Session.receiveLoop cfg input.length k.session input with ⟨s, tl, code | ok⟩
    · exact ⟨rfl, rfl, fun h => by cases h⟩
    · exact ⟨rfl, rfl, fun _ => rfl⟩
  | false =>
    have next : (frameParser cfg).next (false, k.session) input = takePreface cfg k.session input := rfl
    unfold takePreface at next
    by_cases hs : input.length < clientPreface.length
    · rw [if_pos hs] at next
      rw [Parser.run_more next, if_pos hs]
      exact ⟨rfl, rfl, fun _ => rfl⟩
    by_cases hw : input.take clientPreface.length ≠ clientPreface
    · rw [if_neg hs, if_pos hw] at next
      rw [Parser.run_fail next, if_neg hs, if_pos hw]
      exact ⟨rfl, rfl, fun h => by cases h⟩
    rw [if_neg hs, if_neg hw] at next
    rw [Parser.run_step next, if_neg hs, if_neg hw, Parser.run, receiveLoop_eq_drain hp]
    rcases Session.receiveLoop cfg (input.drop clientPreface.length).length
      (k.session.queueFrame { type := .settings } (encodeSettings cfg.localSettings))
      (input.drop clientPreface.length) with ⟨s, tl, code | ok⟩
    · exact ⟨rfl, rfl, fun h => by cases h⟩
    · exact ⟨rfl, rfl, fun _ => rfl⟩

/-- Reads fed one after another, up to the first error. -/
def Connection.receiveAll (cfg : SessionConfig) : Connection → List Bytes → Connection × Except Errc Unit
  | k, [] => (k, .ok ())
  | k, piece :: pieces =>
    match k.receive cfg piece with
    | (k, .ok _) => receiveAll cfg k pieces
    | (k, .error code) => (k, .error code)

/-- The connections there are: reads that went well, and between them anything that happens
to the session. -/
inductive Connection.Reached (cfg : SessionConfig) : Connection → Prop where
  | start (s : Session) : Reached cfg { session := s }
  | read {k k' : Connection} {bytes : Bytes} : Reached cfg k → k.receive cfg bytes = (k', .ok ()) →
    Reached cfg k'
  | act {k : Connection} (s : Session) : Reached cfg k → Reached cfg { k with session := s }

/-- Whether more is needed depends on the bytes only. -/
lemma nextFrame_more_iff (s t : Session) (greeted : Bool) :
    nextFrame cfg (greeted, s) input = .more ↔ nextFrame cfg (greeted, t) input = .more := by
  unfold nextFrame takeFrame takePreface
  cases greeted with
  | false =>
    simp only [Bool.false_eq_true, if_false]
    split
    · simp
    · split <;> simp
  | true =>
    simp only [if_true]
    split
    · simp
    cases decodeFrameHeader input with
    | error code => simp
    | ok hdr =>
      dsimp only
      split
      · simp
      · rcases s.processFrame cfg hdr _ false with ⟨s', code | ok⟩ <;>
          rcases t.processFrame cfg hdr _ false with ⟨t', code' | ok'⟩ <;> simp

lemma Connection.Reached.idle (hp : cfg.bufferCompleteRequests = false) {k : Connection}
    (hr : k.Reached cfg) : (frameParser cfg).Idle k.parsed k.input := by
  induction hr with
  | start s => exact (frameParser cfg).needs _
  | @read k k' bytes _ done ih =>
    have ha := receive_agrees hp k bytes
    rw [done] at ha
    have run : (frameParser cfg).run k.parsed (k.input ++ bytes) = (k'.parsed, k'.input, none) := by
      have hv := ha.verdict.symm
      exact Prod.ext ha.parsed.symm (Prod.ext (ha.input hv).symm hv)
    exact (Parser.run_append_ok [] run).1
  | @act k s _ ih => exact (nextFrame_more_iff k.session s k.receivedPreface).mp ih

lemma receiveAll_agrees (hl : cfg.bufferCompleteRequests = false) (ps : List Bytes) (k : Connection) :
    Agrees (k.receiveAll cfg ps) ((frameParser cfg).feedAll k.parsed k.input ps) := by
  induction ps generalizing k with
  | nil => exact ⟨rfl, rfl, fun _ => rfl⟩
  | cons p ps ih =>
    have ha := receive_agrees hl k p
    unfold Connection.receiveAll Parser.feedAll
    rcases run : (frameParser cfg).run k.parsed (k.input ++ p) with ⟨c, tl, verdict⟩
    rcases one : k.receive cfg p with ⟨k', r⟩
    rw [run, one] at ha
    obtain ⟨hp, hv, inp⟩ := ha
    cases r with
    | ok =>
      obtain rfl : none = verdict := hv
      obtain rfl : k'.parsed = c := hp
      obtain rfl : k'.input = tl := inp rfl
      exact ih k'
    | error code =>
      obtain rfl : some code = verdict := hv
      exact ⟨hp, rfl, fun h => by cases h⟩

/-- Cutting the input into reads changes neither the session nor the verdict, and unless
there was an error, nothing of what is left over. -/
theorem segmentation_independent (plain : cfg.bufferCompleteRequests = false) {k : Connection}
    (reached : k.Reached cfg) (pieces : List Bytes) :
    let cut := k.receiveAll cfg pieces
    let whole := k.receive cfg pieces.flatten
    cut.1.session = whole.1.session ∧ cut.1.receivedPreface = whole.1.receivedPreface ∧
      cut.2 = whole.2 ∧ (whole.2 = .ok () → cut.1.input = whole.1.input) := by
  have cut := receiveAll_agrees plain pieces k
  have whole := receive_agrees plain k pieces.flatten
  obtain ⟨hs, hv, left⟩ := Parser.feedAll_eq_run pieces (reached.idle plain)
  have hp : (k.receiveAll cfg pieces).1.parsed = (k.receive cfg pieces.flatten).1.parsed := by
    rw [cut.parsed, whole.parsed, hs]
  have he : errorOf (k.receiveAll cfg pieces).2 = errorOf (k.receive cfg pieces.flatten).2 := by
    rw [cut.verdict, whole.verdict, hv]
  refine ⟨congrArg Prod.snd hp, congrArg Prod.fst hp, errorOf_injective he, ?_⟩
  intro ok
  have hf : ((frameParser cfg).run k.parsed (k.input ++ pieces.flatten)).2.2 = none := by
    rw [← whole.verdict, ok]
    rfl
  rw [cut.input (hv.trans hf), whole.input hf, left (hv.trans hf)]

/-- A preface cut in two, and a SETTINGS frame cut in its header. -/
def settingsPieces : List Bytes :=
  [clientPreface.take 10, clientPreface.drop 10 ++ [0, 0, 0, 4], [0, 0, 0, 0, 0]]

theorem segmentation_independent_settings :
    let cut := Connection.receiveAll {} {} settingsPieces
    let whole := Connection.receive {} {} settingsPieces.flatten
    cut.1.session = whole.1.session ∧ cut.1.receivedPreface = whole.1.receivedPreface ∧ cut.2 = whole.2 ∧
      (whole.2 = .ok () → cut.1.input = whole.1.input) :=
  segmentation_independent rfl (.start {}) settingsPieces

end Cnetmod.Http.V2
