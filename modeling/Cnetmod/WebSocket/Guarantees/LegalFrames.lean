import Cnetmod.Consensus.Run
import Cnetmod.WebSocket.Source.Connection

/-!
# When a connection writes only legal frames

Nothing bounds the payload of a ping or the reason of a close, a frame sent as a close
does not count as one, and a ping is answered even after the close frame. Without these
every control frame is short, and a close frame is the last frame.
-/
namespace Cnetmod.WebSocket

open Coding (Bytes)
open Consensus (Reached)
open List Option

inductive ConnectionStep where
  | asyncSend (op : Opcode) (payload : Bytes) (wrote : Bool)
  | asyncPing (payload : Bytes) (wrote : Bool)
  | asyncClose (code : UInt16) (reason : Bytes) (wrote : Bool)
  | finishClose
  | receiveControl (op : Opcode) (payload : Bytes) (wrote : Bool)
  | loopPing (payload : Bytes) (wrote : Bool)
  | loopClose (payload : Bytes) (wrote : Bool)
  | loopFailure (code : UInt16) (wrote : Bool)

namespace Connection

variable {c c' : Connection}

def step (c : Connection) : ConnectionStep → Option Connection
  | .asyncSend op payload wrote => some (c.asyncSend op payload wrote).2
  | .asyncPing payload wrote => some (c.asyncPing payload wrote).2
  | .asyncClose code reason wrote => some (c.asyncClose code reason wrote).2
  | .finishClose => c.finishClose
  | .receiveControl op payload wrote => c.receiveControl op payload wrote
  | .loopPing payload wrote => c.loopPing payload wrote
  | .loopClose payload wrote => c.loopClose payload wrote
  | .loopFailure code wrote => c.loopFailure code wrote

/-- Control frames are short and not closes in disguise, and no ping comes after the close frame. -/
def Orderly (c : Connection) : ConnectionStep → Prop
  | .asyncSend op payload _ => op ≠ .close ∧ (op.isControl → payload.length ≤ 125)
  | .asyncPing payload _ => payload.length ≤ 125
  | .asyncClose _ reason _ => reason.length ≤ 123
  | .receiveControl op _ _ => op = .ping → c.closeSent = false
  | .loopPing _ _ => c.closeSent = false
  | _ => True

instance (c : Connection) (a : ConnectionStep) : Decidable (c.Orderly a) := by
  cases a <;> dsimp only [Orderly] <;> infer_instance

/-- No close frame before the last frame, and none while `close_sent_` is not set. -/
structure Sound (c : Connection) : Prop where
  short : ∀ f ∈ c.written, f.op.isControl → f.payload.length ≤ 125
  last : ∀ f ∈ c.written.dropLast, f.op ≠ .close
  unclosed : c.closeSent = false → ∀ f ∈ c.written, f.op ≠ .close

namespace Sound

lemma new : ({} : Connection).Sound := ⟨nofun, nofun, fun _ => nofun⟩

lemma refusal (hr : c.refusal = none) : c.closeSent = false := by
  simp only [Connection.refusal] at hr
  split at hr
  · cases hr
  · simpa using hr

/-- The flags may change as long as `close_sent_` is not taken back. -/
lemma of_written (hs : c.Sound) (hw : c'.written = c.written) (hc : c'.closeSent = false → c.closeSent = false) : c'.Sound :=
  ⟨hw ▸ hs.short, hw ▸ hs.last, fun h => hw ▸ hs.unclosed (hc h)⟩

/-- A frame may be written before the close frame, and a close frame sets `close_sent_`. -/
lemma write (hs : c.Sound) (hn : c.closeSent = false)
    (hl : op.isControl → pl.length ≤ 125) (hw : c'.written = (c.write op pl wrote).written)
    (hc : op = .close → c'.closeSent = true) : c'.Sound := by
  have hu := hs.unclosed hn
  cases wrote with
  | false => exact hs.of_written hw fun _ => hn
  | true =>
    have hr : c'.written = c.written ++ [⟨op, pl⟩] := hw
    refine ⟨?_, ?_, fun ho => ?_⟩
    · rw [hr]
      exact forall_mem_append.mpr ⟨hs.short, by simpa using hl⟩
    · rw [hr, dropLast_concat]
      exact hu
    rw [hr]
    refine forall_mem_append.mpr ⟨hu, ?_⟩
    simpa using fun h => absurd (hc h) (by simp [ho])

variable (hs : c.Sound)

include hs

lemma asyncSend (hn : op ≠ .close) (hl : op.isControl → pl.length ≤ 125) (wrote : Bool) :
    (c.asyncSend op pl wrote).2.Sound := by
  rw [Connection.asyncSend]
  split
  · exact hs
  next hr => exact hs.write (refusal hr) hl rfl fun h => absurd h hn

lemma asyncClose (code : UInt16) (hl : reason.length ≤ 123) (wrote : Bool) : (c.asyncClose code reason wrote).2.Sound := by
  rw [Connection.asyncClose]
  split
  · exact hs
  next hr =>
    have hp : (closePayload code reason).length ≤ 125 := Nat.add_le_add_right hl 2
    split
    · exact hs.write (refusal hr) (fun _ => hp) rfl fun _ => rfl
    · exact hs

lemma receiveControl (ho : op = .ping → c.closeSent = false) (ht : c.receiveControl op pl wrote = some c') : c'.Sound := by
  obtain ⟨ha, ⟨⟩⟩ := ite_none_right_eq_some.mp ht
  have hl : pl.length ≤ 125 := by simp_all [accepts]
  have hh : (c.handleControlFrame op pl wrote).Sound := by
    rw [handleControlFrame]
    split
    next hp => exact hs.write (ho hp) (fun _ => hl) rfl nofun
    split
    next hc => exact hs.write (by simpa using hc.2) (fun _ => hl) rfl fun _ => rfl
    · exact hs
  split
  · exact hh.of_written rfl id
  · exact hh

lemma loopPing (ho : c.closeSent = false) (ht : c.loopPing pl wrote = some c') : c'.Sound := by
  obtain ⟨ha, ⟨⟩⟩ := ite_none_right_eq_some.mp ht
  exact hs.write ho (fun _ => by simp_all [accepts]) rfl nofun

lemma loopClose (ht : c.loopClose pl wrote = some c') : c'.Sound := by
  obtain ⟨ha, ⟨⟩⟩ := ite_none_right_eq_some.mp ht
  split
  next hc => exact hs.of_written rfl fun h => nomatch h
  next hc => exact hs.write (by simpa using hc) (fun _ => by simp_all [accepts]) rfl fun _ => rfl

lemma loopFailure (ht : c.loopFailure code wrote = some c') : c'.Sound := by
  obtain ⟨-, ⟨⟩⟩ := ite_none_right_eq_some.mp ht
  split
  · exact hs.of_written rfl id
  next hc => exact hs.write (by simpa using hc) (fun _ => by simp [closePayload]) rfl fun _ => rfl

lemma step (ho : c.Orderly a) (ht : c.step a = some c') : c'.Sound := by
  cases a with
  | asyncSend op pl wrote =>
    cases ht
    exact hs.asyncSend ho.1 ho.2 wrote
  | asyncPing pl wrote =>
    cases ht
    have hn : Opcode.ping ≠ .close := by decide
    exact hs.asyncSend hn (fun _ => ho) wrote
  | asyncClose code reason wrote =>
    cases ht
    exact hs.asyncClose code ho wrote
  | finishClose =>
    simp only [Connection.step, finishClose, ite_none_right_eq_some, some.injEq] at ht
    obtain ⟨-, rfl⟩ := ht
    exact hs.of_written rfl id
  | receiveControl op pl wrote => exact hs.receiveControl ho ht
  | loopPing pl wrote => exact hs.loopPing ho ht
  | loopClose pl wrote => exact hs.loopClose ht
  | loopFailure code wrote => exact hs.loopFailure ht

end Sound

/-- In every orderly run no control frame is longer than 125 bytes, nothing follows a close frame, and there is at most one. -/
theorem connection_writes_legal_frames (run : Reached step Orderly {} c) :
    (∀ f ∈ c.written, f.op.isControl → f.payload.length ≤ 125) ∧
      (∀ pre f after, c.written = pre ++ f :: after → f.op = .close → after = []) ∧
      c.written.countP (·.op = .close) ≤ 1 := by
  have hs : c.Sound := run.invariant Sound .new fun hs ho ht => hs.step ho ht
  refine ⟨hs.short, fun pre f after hw hc => ?_, ?_⟩
  · by_contra ha
    refine hs.last f ?_ hc
    rw [hw, dropLast_append_of_ne_nil (cons_ne_nil _ _), dropLast_cons_of_ne_nil ha]
    exact mem_append_right _ (mem_cons_self ..)
  have hz : c.written.dropLast.countP (·.op = .close) = 0 := by simpa [countP_eq_zero] using hs.last
  rcases eq_nil_or_concat c.written with hn | ⟨init, f, hw⟩
  · simp [hn]
  rw [hw] at hz ⊢
  rw [concat_eq_append, dropLast_concat] at hz
  rw [concat_eq_append, countP_append, countP_singleton]
  split <;> omega

/-- A text, a ping that is answered, and a close with a reason; the peer's close ends the wait. -/
theorem connection_writes_legal_frames_closing : ∃ c, Reached step Orderly {} c ∧
    c.written = [⟨.text, [104]⟩, ⟨.pong, [1]⟩, ⟨.close, [3, 232, 111]⟩] ∧ c.written.countP (·.op = .close) ≤ 1 := by
  have run : Reached step Orderly {} _ := .runChecked .start
    [.asyncSend .text [104] true, .receiveControl .ping [1] true, .asyncClose 1000 [111] true, .receiveControl .close [3, 232] true] rfl
  exact ⟨_, run, rfl, (connection_writes_legal_frames run).2.2⟩

/-- A ping of 126 bytes is written, and so is a pong after the close frame. -/
theorem connection_writes_illegal_frames : ∃ c, Reached step (fun _ _ => True) {} c ∧
    c.written = [⟨.ping, List.replicate 126 0⟩, ⟨.close, [3, 232]⟩, ⟨.pong, [1]⟩] :=
  ⟨_, .runChecked .start [.asyncPing (List.replicate 126 0) true, .asyncClose 1000 [] true, .receiveControl .ping [1] true] rfl,
    rfl⟩

end Connection

end Cnetmod.WebSocket
