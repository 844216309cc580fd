import Cnetmod.Consensus.Run
import Cnetmod.Coro.Source.CancelToken

/-!
# Cancellation is notified once

Every registration is followed by exactly one of its three ends before the next one. After
the flag nothing is registered, so what a dispatched cancellation leaves is notified.
-/
namespace Cnetmod.Coro

open CancelToken Option
open Consensus (Reached)

inductive CancelStep where
  | requestCancel (reason : CancellationReason)
  | publish
  | dispatchCancel
  | exchangeDispatched
  | dispatchCallback
  | registerCallback (operation : Nat)
  | completeCallback (operation : Nat)
  | finishCallback (operation : Nat)

namespace CancelToken

variable {t u : CancelToken} {a : CancelStep}

def step (t : CancelToken) : CancelStep → Option CancelToken
  | .requestCancel reason => if reason = .none then none else some (t.requestCancel reason)
  | .publish => t.publish
  | .dispatchCancel => some t.dispatchCancel
  | .exchangeDispatched => t.exchangeDispatched
  | .dispatchCallback => t.dispatchCallback
  | .registerCallback operation => some (t.registerCallback operation).2
  | .completeCallback operation => some (t.completeCallback operation).2
  | .finishCallback operation => some (t.finishCallback operation)

/-- At most one registration at a time. -/
def Single (t : CancelToken) : CancelStep → Prop
  | .registerCallback _ => t.cancelled ∨ t.operation = none
  | _ => True

instance (t : CancelToken) (a : CancelStep) : Decidable (t.Single a) := by
  cases a <;> dsimp only [Single] <;> infer_instance

/-- Latest first: each registration has one end, except that the last one may be `waiting` for it. -/
def Ended : (waiting : Bool) → List CallbackEvent → Prop
  | false, [] => True
  | true, .registered :: events => Ended false events
  | false, .notified :: events | false, .completed :: events | false, .retired :: events => Ended true events
  | _, _ => False

structure Sound (t : CancelToken) : Prop where
  ended : Ended t.notify t.events
  mode : t.notify → t.callbackMode ∧ t.operation ≠ none
  seen : t.entering ≠ 0 ∨ t.dispatched → t.cancelled
  served : t.dispatched → t.notify → t.dispatching ≠ 0

lemma Sound.new : ({} : CancelToken).Sound := ⟨trivial, nofun, by decide, nofun⟩

lemma Sound.step (hs : t.Sound) (ho : t.Single a) (ht : t.step a = some u) : u.Sound := by
  obtain ⟨he, hm, hc, hd⟩ := hs
  cases a with
  | requestCancel r =>
    obtain ⟨-, ⟨⟩⟩ := ite_none_left_eq_some.mp ht
    unfold requestCancel
    split <;> exact ⟨he, hm, hc, hd⟩
  | publish =>
    obtain ⟨-, ⟨⟩⟩ := ite_none_left_eq_some.mp ht
    exact ⟨he, hm, fun _ => rfl, hd⟩
  | dispatchCancel =>
    cases ht
    unfold dispatchCancel
    split
    next hf => exact ⟨he, hm, fun _ => hf, hd⟩
    · exact ⟨he, hm, hc, hd⟩
  | exchangeDispatched =>
    obtain ⟨hn, ⟨⟩⟩ := ite_none_left_eq_some.mp ht
    dsimp only
    split
    · exact ⟨he, hm, fun _ => hc (.inl hn), hd⟩
    · exact ⟨he, hm, fun _ => hc (.inl hn), fun _ _ => Nat.succ_ne_zero _⟩
  | dispatchCallback =>
    obtain ⟨hn, ⟨⟩⟩ := ite_none_left_eq_some.mp ht
    dsimp only
    split
    next hk =>
      rw [hk.2.2] at he
      exact ⟨he, nofun, hc, fun _ => nofun⟩
    next hk =>
      have hf : ¬ t.notify := fun h => hk ⟨(hm h).1, (hm h).2, h⟩
      exact ⟨he, hm, hc, fun _ h => absurd h hf⟩
  | registerCallback o =>
    cases ht
    unfold registerCallback
    split
    · exact ⟨he, hm, hc, hd⟩
    next hf =>
      have hn : t.notify = false := Bool.eq_false_iff.mpr fun h => (hm h).2 (ho.resolve_left hf)
      rw [hn] at he
      exact ⟨he, fun _ => ⟨rfl, nofun⟩, hc, fun h => absurd (hc (.inr h)) hf⟩
  | completeCallback o =>
    cases ht
    unfold completeCallback
    split
    · exact ⟨he, hm, hc, hd⟩
    next hk =>
      have hn : t.notify = true := by simp_all
      rw [hn] at he
      exact ⟨he, nofun, hc, fun _ => nofun⟩
  | finishCallback o =>
    cases ht
    unfold finishCallback
    split
    · exact ⟨he, hm, hc, hd⟩
    refine ⟨?_, nofun, hc, fun _ => nofun⟩
    split
    next hn => rwa [hn] at he
    next hn => rwa [Bool.eq_false_iff.mpr hn] at he

lemma reason_step (ht : t.step a = some u) (hr : t.reason ≠ .none) : u.reason = t.reason := by
  cases a <;> grind [step, requestCancel, publish, dispatchCancel, exchangeDispatched, dispatchCallback, registerCallback,
    completeCallback, finishCallback, clear]

/-- With one registration at a time: every one that returned true ends in exactly one way, after its end `complete_callback`
returns false, a dispatched cancellation leaves none unnotified and lets no further one in, and the reason stays. -/
theorem cancellation_notified_once (run : Reached step Single {} t) : Ended t.notify t.events ∧
    (t.notify = false → ∀ o, (t.completeCallback o).1 = false) ∧
    (t.dispatched → t.dispatching = 0 → t.notify = false ∧ ∀ o, (t.registerCallback o).1 = false) ∧
    ∀ a u, t.step a = some u → t.reason ≠ .none → u.reason = t.reason := by
  have hs : t.Sound := run.invariant Sound .new fun hs ho ht => hs.step ho ht
  refine ⟨hs.ended, fun hn o => by simp [completeCallback, hn], fun hd hz => ⟨?_, fun o => ?_⟩, fun a u => reason_step⟩
  · exact Bool.eq_false_iff.mpr fun hn => hs.served hd hn hz
  · rw [registerCallback, if_pos (hs.seen (.inr hd))]

/-- The first registration completes; the second is made between the two steps of a cancellation and is notified. -/
theorem cancellation_notified_once_second : ∃ t, Reached step Single {} t ∧ t.notify = false ∧
    t.events = [.notified, .registered, .completed, .registered] := by
  have run : Reached step Single {} _ := .runChecked .start
    [.registerCallback 1, .completeCallback 1, .requestCancel .deadlineExceeded, .registerCallback 1, .publish, .dispatchCancel,
      .exchangeDispatched, .dispatchCallback] rfl
  exact ⟨_, run, ((cancellation_notified_once run).2.2.1 rfl rfl).1, rfl⟩

end CancelToken

end Cnetmod.Coro
