import Mathlib.Data.List.Nodup
import Cnetmod.Consensus.Run
import Cnetmod.Coro.Spec.ChannelRuns

/-!
# Channel guarantees

With threads, the documented invariants last as long as nobody goes to wait on what is no
longer so: `await_suspend` looks at the flag `closed_` only. On one event loop nothing comes
between `await_ready` and `await_suspend`, and the channel is a queue that loses nothing.
-/
namespace Cnetmod.Coro

open List Channel ChannelRun Prod Option

open Consensus (Reached)

variable {α : Type*}

namespace Channel

variable {ch : Channel α} {q : List α}

/-- The invariants at the head of `channel.cppm`. -/
def Documented (ch : Channel α) : Prop :=
  (0 < ch.ring.count → ch.receivers = []) ∧ (ch.receivers ≠ [] → ch.ring.count = 0) ∧
    (ch.senders ≠ [] → ch.ring.count = ch.capacity)

lemma Sound.documented (hs : ch.Sound q) : ch.Documented := by
  have hc := hs.holds.count
  refine ⟨fun some => ?_, fun hw => ?_, fun hw => ?_⟩
  · by_contra hw
    rw [hc, hs.receivers hw] at some
    cases some
  · rw [hc, hs.receivers hw]
    rfl
  · rw [hc, hs.senders hw]

end Channel

namespace ChannelRun

variable {s s' : ChannelRun α} {q : List α}

/-- The documented invariants, and no `receive` without a value from a channel that was not drained during the call. -/
def Upheld (s : ChannelRun α) : Prop :=
  s.channel.Documented ∧ ∀ result ∈ s.results, result.value = none → result.drained = true

lemma Sound.upheld (hs : s.Sound q) : s.Upheld := ⟨hs.channel.documented, hs.answered⟩

/-- A call that saw the channel drained sees it drained still. -/
def Faithful (s : ChannelRun α) : Prop := ∀ call, s.sawDrained call = true → s.channel.drained = true

lemma Faithful.step (hf : s.Faithful) (hs : s.Sound q) (hc : call.concurrent = true)
    (hi : s.suspendsInTime call = true) (ht : s.step call = some s') : s'.Faithful := by
  obtain ⟨pre, effect, fresh, rfl, done⟩ := hs.section_of_step hi ht
  intro call he
  rcases Bool.or_eq_true_iff.mp he with saw | now
  · exact (done.shut hc).drained hs.channel done.sound (hf call (done.saw call saw))
  · exact now

/-- Whoever goes to wait too late spoils an invariant or misses a value. -/
lemma not_upheld_of_late (hb : s.Faithful) (hl : s.suspendsInTime call = false) (ht : s.step call = some s') : ¬ s'.Upheld := by
  unfold step at ht
  split at ht
  · cases ht
  rintro ⟨⟨-, hr, hs⟩, ha⟩
  cases call with
  | sendSuspend call =>
    rw [suspendsInTime, Bool.or_eq_false_iff] at hl
    obtain ⟨n, -, rfl⟩ := map_eq_some_iff.mp ht
    have hw : s.channel.sendAwaitSuspend n.1 n.2 = (true, { s.channel with senders := s.channel.senders ++ [n] }) :=
      if_neg (by simp [hl.1])
    simp only [hw] at hs
    have hf : s.channel.ring.count = s.channel.capacity := hs (by simp [apply])
    rw [bufFull, hf] at hl
    simp at hl
  | receiveSuspend call =>
    simp only [receiveSuspend] at ht
    split at ht
    · cases ht
      by_cases hsh : s.channel.closed = true
      · -- the call ends although there is a value, and the channel was never drained
        have hc : s.channel.recvAwaitSuspend call = (false, s.channel) := if_pos hsh
        have hf : s.channel.drained = false := by rw [drained, show s.channel.bufEmpty = false from hl, Bool.and_false]
        have hg : s.sawDrained call = false := by
          by_contra saw
          rw [Bool.not_eq_false] at saw
          rw [hb call saw] at hf
          cases hf
        have hm := ha ⟨call, none, s.sawDrained call || s.channel.drained⟩ (by simp [apply, hc]) rfl
        rw [hg, hf] at hm
        cases hm
      · have hw : s.channel.recvAwaitSuspend call = (true, { s.channel with receivers := s.channel.receivers ++ [call] }) :=
          if_neg hsh
        simp only [hw] at hr
        have he : s.channel.ring.count = 0 := hr (by simp [apply])
        rw [suspendsInTime, bufEmpty, he] at hl
        cases hl
    · cases ht
  | _ => cases hl

/-- Over all interleavings: while whoever goes to wait still has to, the invariants hold and no `receive` misses a value; and
the next section keeps this exactly when it is not one that goes to wait too late. -/
theorem channel_invariants_iff (capacity : Nat)
    (run : Reached step (fun s call => call.concurrent = true ∧ s.suspendsInTime call = true) (new capacity) s) :
    s.Upheld ∧ ∀ call s', call.concurrent = true → s.step call = some s' → (s'.Upheld ↔ s.suspendsInTime call = true) := by
  obtain ⟨⟨q, hs⟩, hf⟩ : (∃ q, s.Sound q) ∧ s.Faithful := by
    refine run.invariant (fun s : ChannelRun α => (∃ q, s.Sound q) ∧ s.Faithful) ⟨⟨[], .new capacity⟩, nofun⟩ ?_
    rintro s call s' ⟨⟨q, hs⟩, hf⟩ ⟨concurrent, hi⟩ ht
    exact ⟨hs.step hi ht, hf.step hs concurrent hi ht⟩
  refine ⟨hs.upheld, fun call s' concurrent ht => ⟨fun hu => ?_, fun hi => ?_⟩⟩
  · by_contra hl
    exact not_upheld_of_late hf (by simpa using hl) ht hu
  · obtain ⟨q', ha⟩ := hs.step hi ht
    exact ha.upheld

/-- A receiver that finds the channel empty and waits. -/
theorem channel_invariants_waiting : ∃ s : ChannelRun Nat,
    Reached step (fun s call => call.concurrent = true ∧ s.suspendsInTime call = true) (new 1) s ∧ s.channel.receivers = [0] ∧
      s.Upheld := by
  obtain ⟨s, run, hw⟩ : ∃ s : ChannelRun Nat,
      Reached step (fun s call => call.concurrent = true ∧ s.suspendsInTime call = true) (new 1) s ∧ s.channel.receivers = [0] :=
    ⟨_, .runChecked .start [.receive, .receiveSuspend 0] rfl, rfl⟩
  exact ⟨s, run, hw, (channel_invariants_iff 1 run).1⟩

/-- A value comes between `await_ready` and `await_suspend` of a `receive`: the receiver waits beside it, or, when the channel
is closed as well, it goes away without it. -/
theorem receiver_waits_beside_value :
    (∃ s : ChannelRun Nat, Reached step (fun _ _ => True) (new 1) s ∧ s.channel.ring.count = 1 ∧ s.channel.receivers = [0]) ∧
      ∃ s : ChannelRun Nat, Reached step (fun _ _ => True) (new 1) s ∧ s.channel.ring.count = 1 ∧
        s.results.map (fun result => (result.value, result.drained)) = [(none, false)] :=
  ⟨⟨_, .runChecked .start [.receive, .trySend 7, .receiveSuspend 0] rfl, rfl, rfl⟩,
    ⟨_, .runChecked .start [.receive, .trySend 7, .close, .receiveSuspend 0] rfl, rfl, rfl⟩⟩

/-- Nothing comes between the two sections of a call. -/
def paired (s : ChannelRun α) : ChannelCall α → Bool
  | .sendSuspend _ | .receiveSuspend _ => true
  | _ => s.sending.isEmpty && s.receiving.isEmpty

/-- At most one call is between its sections, and it found what makes it wait. -/
structure Decided (s : ChannelRun α) : Prop where
  single : s.sending.length + s.receiving.length ≤ 1
  sending : s.sending ≠ [] → s.channel.bufFull = true
  receiving : s.receiving ≠ [] → s.channel.bufEmpty = true

namespace Decided

/-- Between calls nothing is decided. -/
lemma idle (hs : s.sending = []) (hr : s.receiving = []) : s.Decided :=
  ⟨by simp [hs, hr], fun hw => absurd hs hw, fun hw => absurd hr hw⟩

/-- The call that goes to wait is the one that found it has to. -/
lemma inTime (he : s.Decided) (ht : s.step call = some s') : s.suspendsInTime call = true := by
  unfold step at ht
  split at ht
  · cases ht
  cases call with
  | sendSuspend call =>
    obtain ⟨n, hf, -⟩ := map_eq_some_iff.mp ht
    rw [suspendsInTime, he.sending (ne_nil_of_mem (mem_of_find?_eq_some hf)), Bool.or_true]
  | receiveSuspend call =>
    simp only [receiveSuspend] at ht
    split at ht
    next hp => exact he.receiving (ne_nil_of_mem hp)
    · cases ht
  | _ => rfl

lemma send (ho : s.Sound q) (hs : s.sending = []) (hr : s.receiving = []) (v : α) : (s.send v).Decided := by
  rw [ChannelRun.send]
  split
  next hf =>
    refine ⟨by simp [apply, hs, hr], fun _ => ?_, fun hw => absurd hr hw⟩
    obtain ⟨ha, hl⟩ := offer_full ho.channel hf
    change (s.channel.offer v).2.bufFull = true
    rw [ha, bufFull, decide_eq_true_eq, ho.channel.holds.count, hl]
  · exact idle hs hr

lemma receive (ho : s.Sound q) (hs : s.sending = []) (hr : s.receiving = []) : s.receive.Decided := by
  rw [ChannelRun.receive]
  split
  · exact idle hs hr
  rename_i hw
  rw [Bool.or_eq_true, not_or, Bool.not_eq_true, isSome_eq_false_iff, isNone_iff_eq_none] at hw
  obtain ⟨rfl, -, ha⟩ := (take_spec ho.channel).2 hw.1
  refine ⟨by simp [apply, hs, hr], fun hw => absurd hs hw, fun _ => ?_⟩
  change s.channel.take.2.2.bufEmpty = true
  rw [ha]
  exact ho.channel.bufEmpty.mpr rfl

variable {call : Nat}

lemma sendSuspend (he : s.Decided) (ht : s.sendSuspend call = some s') : s'.Decided := by
  obtain ⟨n, hf, rfl⟩ := map_eq_some_iff.mp ht
  have hs := he.single
  have hm := mem_of_find?_eq_some hf
  have some := length_pos_of_mem hm
  refine idle (eq_nil_of_length_eq_zero ?_) (eq_nil_of_length_eq_zero (show s.receiving.length = 0 by omega))
  change (s.sending.eraseP (·.1 = call)).length = 0
  rw [length_eraseP_of_mem hm (find?_some hf)]
  omega

lemma receiveSuspend (he : s.Decided) (ht : s.receiveSuspend call = some s') : s'.Decided := by
  obtain ⟨hp, ⟨⟩⟩ := ite_none_right_eq_some.mp ht
  have hs := he.single
  have some := length_pos_of_mem hp
  refine idle (eq_nil_of_length_eq_zero (show s.sending.length = 0 by omega)) (eq_nil_of_length_eq_zero ?_)
  change (s.receiving.erase call).length = 0
  rw [length_erase_of_mem hp]
  omega

lemma step (he : s.Decided) (hs : s.Sound q) {call : ChannelCall α} (hp : s.paired call = true)
    (ht : s.step call = some s') : s'.Decided := by
  unfold ChannelRun.step at ht
  split at ht
  · cases ht
  have hb (ha : (s.sending.isEmpty && s.receiving.isEmpty) = true) : s.sending = [] ∧ s.receiving = [] := by
    rwa [Bool.and_eq_true, List.isEmpty_iff, List.isEmpty_iff] at ha
  cases call with
  | sendSuspend call => exact he.sendSuspend ht
  | receiveSuspend call => exact he.receiveSuspend ht
  | send v =>
    cases ht
    exact send hs (hb hp).1 (hb hp).2 v
  | receive =>
    cases ht
    exact receive hs (hb hp).1 (hb hp).2
  | reopen =>
    cases ht
    rw [reopen]
    split
    · exact idle (hb hp).1 (hb hp).2
    · exact idle (hb hp).1 (hb hp).2
  | _ =>
    cases ht
    exact idle (hb hp).1 (hb hp).2

end Decided

/-- The ids of the sends accepted differ, and the answers are what became of the values. -/
lemma Sound.answers (hs : s.Sound q) : (s.accepted.map Prod.fst).Nodup ∧
    ∀ call, ((call, true) ∈ s.reports ↔ call ∈ s.accepted.map Prod.fst) ∧
      ((call, false) ∈ s.reports → call ∉ s.accepted.map Prod.fst) := by
  have he : (s.reports.map fst).Nodup := by
    have all := hs.calls.nodup_iff.mpr nodup_range
    rw [sendCalls, append_assoc] at all
    exact (nodup_append.mp all).1
  have ha (call : Nat) : (call, true) ∈ s.reports ↔ call ∈ s.accepted.map fst := by
    rw [← hs.reported]
    simp
  refine ⟨?_, fun call => ⟨ha call, fun hr done => ?_⟩⟩
  · rw [← hs.reported]
    exact he.sublist (filter_sublist.map fst)
  · cases inj_on_of_nodup_map he hr ((ha call).mpr done) rfl

/-- On one event loop: the values that left, in order, and then those in the buffer are the values accepted, in order; only
`reopen` and the destructor discard; a send answers what became of its value; and what `try_send_move` did not take is still
the caller's. -/
theorem channel_exactly_once (capacity : Nat) (run : Reached step (fun s call => s.paired call = true) (new capacity) s) :
    (∃ q, s.channel.ring.Holds q ∧ s.accepted.map Prod.snd = s.removed.map Prod.fst ++ q) ∧
      (∀ call s', call.concurrent = true → s.step call = some s' → ∃ handed : List α,
        s'.removed = s.removed ++ handed.map (·, true)) ∧
      (s.accepted.map Prod.fst).Nodup ∧
      (∀ call, ((call, true) ∈ s.reports ↔ call ∈ s.accepted.map Prod.fst) ∧
        ((call, false) ∈ s.reports → call ∉ s.accepted.map Prod.fst)) ∧
      ∀ value, (s.channel.trySendMove value).1.accepted = false → (s.channel.trySendMove value).2.2 = some value := by
  obtain ⟨⟨q, hs⟩, hde⟩ : (∃ q, s.Sound q) ∧ s.Decided := by
    refine run.invariant (fun s : ChannelRun α => (∃ q, s.Sound q) ∧ s.Decided) ⟨⟨[], .new capacity⟩, .idle rfl rfl⟩ ?_
    rintro s call s' ⟨⟨q, hs⟩, hde⟩ paired ht
    exact ⟨hs.step (hde.inTime ht) ht, hde.step hs paired ht⟩
  refine ⟨⟨q, hs.channel.holds, hs.fifo⟩, fun call s' concurrent ht => ?_, hs.answers.1, hs.answers.2, fun value hr => ?_⟩
  · obtain ⟨pre, effect, fresh, rfl, done⟩ := hs.section_of_step (hde.inTime ht) ht
    refine ⟨effect.handed, ?_⟩
    change pre.removed ++ effect.handed.map (·, true) ++ effect.discarded.map (·, false) = _
    rw [done.kept concurrent, done.prepared.removed, map_nil, append_nil]
  · rw [Channel.trySendMove] at hr ⊢
    exact if_neg (by simpa using hr)

/-- Three values through two slots, with a sender that waits. -/
theorem channel_exactly_once_around : ∃ s : ChannelRun Nat, Reached step (fun s call => s.paired call = true) (new 2) s ∧
    s.removed = [(7, true), (8, true)] ∧ s.channel.ring.slots = [some 9, none] ∧ s.accepted.map Prod.snd = [7, 8, 9] ∧
    (s.accepted.map Prod.fst).Nodup := by
  obtain ⟨s, run, removed, slots, accepted⟩ : ∃ s : ChannelRun Nat,
      Reached step (fun s call => s.paired call = true) (new 2) s ∧ s.removed = [(7, true), (8, true)] ∧
        s.channel.ring.slots = [some 9, none] ∧ s.accepted.map Prod.snd = [7, 8, 9] :=
    ⟨_, .runChecked .start [.send 7, .trySendMove 8, .send 9, .sendSuspend 2, .receive, .tryReceive] rfl, rfl, rfl, rfl⟩
  exact ⟨s, run, removed, slots, accepted, (channel_exactly_once 2 run).2.2.1⟩

end ChannelRun

end Cnetmod.Coro
