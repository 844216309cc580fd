import Cnetmod.Coro.Source.Channel

/-!
# Runs of a channel

The sections of all calls in any order, and what becomes of the values: the sends that
were accepted, the values that were moved out, and what the calls answered.
-/
namespace Cnetmod.Coro

open List Channel Function

open Coding (RingBuffer)

variable {α : Type*}

/-- What a section does beside the change of the channel. -/
structure Effect (α : Type*) where
  channel : Channel α
  /-- The sends whose values were taken, in order. -/
  accepted : List (Nat × α) := []
  /-- The sends that failed. -/
  refused : List Nat := []
  /-- The values moved out to receivers, in order. -/
  handed : List α := []
  /-- The values destroyed. -/
  discarded : List α := []
  /-- The `receive` calls that got their answer. -/
  answered : List (Nat × Option α) := []

/-- The answer of a `receive`, and whether the channel was closed and drained at some moment of the call. -/
structure ReceiveResult (α : Type*) where
  call : Nat
  value : Option α
  drained : Bool

structure ChannelRun (α : Type*) where
  channel : Channel α
  /-- `send` calls between `await_ready` and `await_suspend`. -/
  sending : List (Nat × α) := []
  /-- `receive` calls between `await_ready` and `await_suspend`. -/
  receiving : List Nat := []
  nextSend : Nat := 0
  nextReceive : Nat := 0
  /-- The sends that were accepted, with their values, in order. -/
  accepted : List (Nat × α) := []
  /-- The values that left the channel, in order, and whether a receiver got them. -/
  removed : List (α × Bool) := []
  /-- What sends answered. -/
  reports : List (Nat × Bool) := []
  /-- Whether the channel was closed and drained at some release of the lock since the call began. -/
  sawDrained : Nat → Bool := fun _ => false
  results : List (ReceiveResult α) := []
  destroyed : Bool := false

inductive ChannelCall (α : Type*) where
  | send (value : α)
  | sendSuspend (call : Nat)
  | receive
  | receiveSuspend (call : Nat)
  | trySend (value : α)
  | trySendDeferred (value : α)
  | trySendMove (value : α)
  | trySendManyMove (values : List α)
  | tryReceive
  | tryReceiveBufferedRefill
  | tryReceiveMany (maxItems : Nat)
  | close
  | reopen
  | destroy

namespace Channel

def drained (ch : Channel α) : Bool := ch.closed && ch.bufEmpty

/-- A send that was offered. -/
def offerEffect (call : Nat) (value : α) (answer : Offer × Channel α) : Effect α :=
  match answer.1 with
  | .handed receiver => { channel := answer.2, accepted := [(call, value)], handed := [value], answered := [(receiver, some value)] }
  | .buffered => { channel := answer.2, accepted := [(call, value)] }
  | .closed | .full => { channel := answer.2, refused := [call] }

lemma discarded_offerEffect (call : Nat) (v : α) (answer : Offer × Channel α) : (offerEffect call v answer).discarded = [] := by
  rw [offerEffect]
  split <;> rfl

/-- A batch of sends, numbered from `first` on. -/
def sendManyEffect (first : Nat) (values : List α) (answer : List (Nat × α) × List α × List α × Channel α) : Effect α :=
  let (handed, pushed, left, channel) := answer
  let calls := List.range' first values.length
  { channel
    accepted := calls.zip (handed.map Prod.snd ++ pushed)
    refused := calls.drop (values.length - left.length)
    handed := handed.map Prod.snd
    answered := handed.map fun record => (record.1, some record.2) }

/-- A value taken by the caller. -/
def takeEffect (answer : Option α × Option (Nat × α) × Channel α) : Effect α :=
  { channel := answer.2.2, accepted := answer.2.1.toList, handed := answer.1.toList }

end Channel

namespace ChannelRun

def new (capacity : Nat) : ChannelRun α where
  channel := .new capacity

/-- The lock is released: the values and the answers are recorded. -/
def apply (s : ChannelRun α) (effect : Effect α) : ChannelRun α :=
  let sawDrained := fun call => s.sawDrained call || effect.channel.drained
  { s with
    channel := effect.channel
    accepted := s.accepted ++ effect.accepted
    removed := s.removed ++ effect.handed.map (·, true) ++ effect.discarded.map (·, false)
    reports := s.reports ++ effect.accepted.map (·.1, true) ++ effect.refused.map (·, false)
    sawDrained
    results := s.results ++ effect.answered.map fun answer => ⟨answer.1, answer.2, sawDrained answer.1⟩ }

/-- One form of sending that does not wait. -/
def offered (s : ChannelRun α) (value : α) (answer : Offer × Channel α) : ChannelRun α :=
  { s with nextSend := s.nextSend + 1 }.apply (Channel.offerEffect s.nextSend value answer)

/-- `await_ready` of `send`. -/
def send (s : ChannelRun α) (value : α) : ChannelRun α :=
  let answer := s.channel.sendAwaitReady value
  if answer.1 = .full then
    { s with nextSend := s.nextSend + 1, sending := s.sending ++ [(s.nextSend, value)] }.apply { channel := answer.2 }
  else s.offered value answer

/-- `await_suspend` of `send`. -/
def sendSuspend (s : ChannelRun α) (call : Nat) : Option (ChannelRun α) :=
  (s.sending.find? (·.1 = call)).map fun node =>
    let answer := s.channel.sendAwaitSuspend node.1 node.2
    let s := { s with sending := s.sending.eraseP (·.1 = call) }
    s.apply { channel := answer.2, refused := if answer.1 then [] else [node.1] }

/-- `await_ready` of `receive`. -/
def receive (s : ChannelRun α) : ChannelRun α :=
  let call := s.nextReceive
  let answer := s.channel.recvAwaitReady
  let effect := Channel.takeEffect answer
  let s := { s with nextReceive := call + 1, sawDrained := fun c => if c = call then false else s.sawDrained c }
  if answer.1.isSome || answer.2.2.closed then s.apply { effect with answered := [(call, answer.1)] }
  else { s with receiving := s.receiving ++ [call] }.apply effect

/-- `await_suspend` of `receive`. -/
def receiveSuspend (s : ChannelRun α) (call : Nat) : Option (ChannelRun α) :=
  if call ∈ s.receiving then
    let answer := s.channel.recvAwaitSuspend call
    let s := { s with receiving := s.receiving.erase call }
    some (s.apply { channel := answer.2, answered := if answer.1 then [] else [(call, none)] })
  else none

def trySendManyMove (s : ChannelRun α) (values : List α) : ChannelRun α :=
  { s with nextSend := s.nextSend + values.length }.apply
    (Channel.sendManyEffect s.nextSend values (s.channel.trySendManyMove values))

/-- The effect of `try_receive_many`. -/
def receiveManyEffect (answer : List α × List (Nat × α) × Channel α) : Effect α :=
  { channel := answer.2.2, accepted := answer.2.1, handed := answer.1 }

/-- The effect of `close`. -/
def closeEffect (ch : Channel α) : Effect α :=
  { channel := ch.close.2.2, refused := ch.close.1.map Prod.fst, answered := ch.close.2.1.map (·, none) }

/-- A failed `reopen` changes nothing. -/
def reopen (s : ChannelRun α) : ChannelRun α :=
  match s.channel.reopen with
  | none => s.apply { channel := s.channel }
  | some (discarded, channel) => s.apply { channel, discarded }

/-- The destructor: `close`, and then the slots are destroyed. -/
def destroy (s : ChannelRun α) : ChannelRun α :=
  let effect := closeEffect s.channel
  let (discarded, ring) := effect.channel.ring.popMany effect.channel.ring.count
  { s with destroyed := true }.apply { effect with channel := { effect.channel with ring }, discarded }

def step (s : ChannelRun α) (call : ChannelCall α) : Option (ChannelRun α) :=
  if s.destroyed then none
  else
    match call with
    | .send value => some (s.send value)
    | .sendSuspend call => s.sendSuspend call
    | .receive => some s.receive
    | .receiveSuspend call => s.receiveSuspend call
    | .trySend value => some (s.offered value (s.channel.trySend value))
    | .trySendDeferred value => some (s.offered value (s.channel.trySendDeferred value))
    | .trySendMove value =>
      let (answer, channel, _) := s.channel.trySendMove value
      some (s.offered value (answer, channel))
    | .trySendManyMove values => some (s.trySendManyMove values)
    | .tryReceive => some (s.apply (Channel.takeEffect s.channel.tryReceive))
    | .tryReceiveBufferedRefill => some (s.apply (Channel.takeEffect s.channel.tryReceiveBufferedRefill))
    | .tryReceiveMany maxItems => some (s.apply (receiveManyEffect (s.channel.tryReceiveMany maxItems)))
    | .close => some (s.apply (closeEffect s.channel))
    | .reopen => some s.reopen
    | .destroy => some s.destroy

end ChannelRun

namespace Channel

variable {ch : Channel α} {q : List α} {value : α}

/-- The buffer holds `q`, receivers wait only at an empty buffer and senders only at a full one, and nobody waits at a closed
channel. -/
structure Sound (ch : Channel α) (q : List α) : Prop where
  holds : ch.ring.Holds q
  capacity : ch.ring.capacity = ch.capacity
  receivers : ch.receivers ≠ [] → q = []
  senders : ch.senders ≠ [] → q.length = ch.capacity
  closed : ch.closed = true → ch.senders = [] ∧ ch.receivers = []

namespace Sound

lemma new (cap : Nat) : (new cap : Channel α).Sound [] :=
  ⟨.new cap, RingBuffer.capacity_new cap, fun hw => absurd rfl hw, fun hw => absurd rfl hw, nofun⟩

variable (hs : ch.Sound q)

include hs

lemma bufEmpty : ch.bufEmpty = true ↔ q = [] := by
  rw [Channel.bufEmpty, decide_eq_true_eq, hs.holds.count, length_eq_zero_iff]

lemma fits : q.length ≤ ch.capacity := hs.capacity ▸ hs.holds.fits

/-- A closed channel is drained when the buffer is empty. -/
lemma drained : ch.drained = true ↔ ch.closed = true ∧ q = [] := by
  rw [Channel.drained, Bool.and_eq_true, hs.bufEmpty]

/-- Without room the buffer is full, and with room there is a slot to write to. -/
lemma room : (0 < ch.capacity && !ch.bufFull) = true ↔ q.length < ch.ring.capacity := by
  rw [Bool.and_eq_true, decide_eq_true_eq, bufFull, Bool.not_eq_true', decide_eq_false_iff_not, hs.holds.count, hs.capacity]
  have := hs.fits
  omega

/-- Another buffer with the same contents and the same waiters. -/
lemma setRing {ring : RingBuffer α} (hh : ring.Holds q')
    (hc : ring.capacity = ch.ring.capacity) (hr : ch.receivers = []) (he : ch.senders = []) :
    ({ ch with ring } : Channel α).Sound q' :=
  ⟨hh, hc.trans hs.capacity, fun hw => absurd hr hw, fun hw => absurd he hw, hs.closed⟩

end Sound

lemma offer_spec (hs : ch.Sound q) (v : α) : (ch.offer v = (.closed, ch) ∧ ch.closed = true) ∨
    (∃ rc receivers, ch.offer v = (.handed rc, { ch with receivers }) ∧ ch.receivers = rc :: receivers ∧
      q = [] ∧ ({ ch with receivers } : Channel α).Sound []) ∨ (ch.offer v = (.buffered, { ch with ring := ch.ring.push v }) ∧
      ({ ch with ring := ch.ring.push v } : Channel α).Sound (q ++ [v])) ∨
    (ch.offer v = (.full, ch) ∧ ch.closed = false ∧ ch.receivers = [] ∧ q.length = ch.capacity) := by
  rw [offer]
  split
  next hh => exact .inl ⟨rfl, hh⟩
  rename_i ho
  split
  next rc receivers hw =>
    have he : q = [] := hs.receivers (by rw [hw]; exact cons_ne_nil _ _)
    subst he
    refine .inr (.inl ⟨rc, receivers, rfl, hw, rfl, hs.holds, hs.capacity, fun _ => rfl, hs.senders, ?_⟩)
    exact fun hh => absurd hh ho
  next none =>
    split
    next hr =>
      have hr := hs.room.mp hr
      have ha : ch.senders = [] := by
        by_contra hw
        have := hs.senders hw
        have := hs.capacity
        omega
      exact .inr (.inr (.inl ⟨rfl, hs.setRing (hs.holds.push hr v) (RingBuffer.capacity_push _ _) none ha⟩))
    next hf =>
      rw [hs.room, hs.capacity] at hf
      have := hs.fits
      exact .inr (.inr (.inr ⟨rfl, by simpa using ho, none, by omega⟩))

/-- A value that found no place. -/
lemma offer_full (ho : ch.Sound q) (hf : (ch.offer value).1 = .full) :
    ch.offer value = (.full, ch) ∧ q.length = ch.capacity := by
  rcases offer_spec ho value with ⟨hs, -⟩ | ⟨_, _, hs, -⟩ | ⟨hs, -⟩ | ⟨hs, -, -, hl⟩
  · rw [hs] at hf
    cases hf
  · rw [hs] at hf
    cases hf
  · rw [hs] at hf
    cases hf
  · exact ⟨hs, hl⟩

/-- What a section that takes a value leaves. -/
structure Taken (ch : Channel α) (q : List α) (answer : Option α × Option (Nat × α) × Channel α) : Prop where
  after : ∃ q', answer.2.2.Sound q' ∧ q ++ answer.2.1.toList.map Prod.snd = answer.1.toList ++ q'
  senders : ch.senders = answer.2.1.toList ++ answer.2.2.senders
  receivers : answer.2.2.receivers = ch.receivers
  closed : answer.2.2.closed = ch.closed

lemma takeBuffered_nil (none : ch.senders = []) : ch.takeBuffered = (ch.ring.pop.1, .none, { ch with ring := ch.ring.pop.2 }) := by
  rw [takeBuffered, none]

lemma takeBuffered_cons {senders : List (Nat × α)} (hw : ch.senders = s :: senders) :
    ch.takeBuffered = (ch.ring.pop.1, some s, { ch with ring := ch.ring.pop.2.push s.2, senders }) := by
  rw [takeBuffered, hw]

lemma takeBuffered_spec (hs : ch.Sound q) (some : q ≠ []) : ch.Taken q ch.takeBuffered := by
  obtain ⟨v, q, rfl⟩ := exists_cons_of_ne_nil some
  obtain ⟨hf, he⟩ := hs.holds.pop
  have hr : ch.receivers = [] := by
    by_contra hw
    cases hs.receivers hw
  by_cases hw : ch.senders = []
  · rw [takeBuffered_nil hw]
    refine ⟨⟨q, hs.setRing he (RingBuffer.capacity_pop _) hr hw, ?_⟩, rfl, rfl, rfl⟩
    rw [hf]
    simp
  have hu := hs.senders hw
  obtain ⟨s, senders, hw⟩ := exists_cons_of_ne_nil hw
  rw [length_cons] at hu
  have ho : q.length < ch.ring.pop.2.capacity := by
    rw [RingBuffer.capacity_pop, hs.capacity]
    omega
  have ha : ({ ch with ring := ch.ring.pop.2.push s.2, senders } : Channel α).Sound (q ++ [s.2]) := by
    refine ⟨he.push ho s.2, ?_, fun hw => absurd hr hw, fun _ => ?_, fun hh => ?_⟩
    · rw [RingBuffer.capacity_push, RingBuffer.capacity_pop]
      exact hs.capacity
    · rw [length_append]
      exact hu
    · cases hw.symm.trans (hs.closed hh).1
  rw [takeBuffered_cons hw]
  refine ⟨⟨_, ha, ?_⟩, hw, rfl, rfl⟩
  rw [hf]
  simp

lemma take_spec (hs : ch.Sound q) : ch.Taken q ch.take ∧
    (ch.take.1 = none → q = [] ∧ ch.senders = [] ∧ ch.take = (none, none, ch)) := by
  rw [take]
  split
  next he =>
    obtain rfl := hs.bufEmpty.mp he
    by_cases hw : ch.senders = []
    · rw [hw]
      exact ⟨⟨⟨[], hs, rfl⟩, rfl, rfl, rfl⟩, fun _ => ⟨rfl, rfl, rfl⟩⟩
    have hu := hs.senders hw
    obtain ⟨s, senders, hw⟩ := exists_cons_of_ne_nil hw
    rw [hw]
    refine ⟨⟨⟨[], ⟨hs.holds, hs.capacity, hs.receivers, fun _ => hu, fun hh => ?_⟩, rfl⟩, hw, rfl, rfl⟩, nofun⟩
    cases hw.symm.trans (hs.closed hh).1
  next some =>
    have some : q ≠ [] := fun he => some (hs.bufEmpty.mpr he)
    refine ⟨takeBuffered_spec hs some, fun none => ?_⟩
    obtain ⟨v, q, rfl⟩ := exists_cons_of_ne_nil some
    have hf := (hs.holds.pop).1
    by_cases hw : ch.senders = []
    · rw [takeBuffered_nil hw, hf] at none
      cases none
    obtain ⟨s, senders, hw⟩ := exists_cons_of_ne_nil hw
    rw [takeBuffered_cons hw, hf] at none
    cases none

lemma tryReceiveBufferedRefill_spec (hs : ch.Sound q) : ch.Taken q ch.tryReceiveBufferedRefill := by
  rw [tryReceiveBufferedRefill]
  split
  · exact ⟨⟨q, hs, by simp⟩, rfl, rfl, rfl⟩
  next some => exact takeBuffered_spec hs fun he => some (hs.bufEmpty.mpr he)

lemma fill_spec (x : β → α) {ring : RingBuffer α} (hh : ring.Holds q) (hs : ring.capacity = cap) (xs : List β) :
    let filled := fill x cap ring xs
    filled.1 ++ filled.2.1 = xs ∧ filled.2.2.Holds (q ++ filled.1.map x) ∧ filled.2.2.capacity = cap ∧
      (filled.2.1 ≠ [] → (q ++ filled.1.map x).length = cap) := by
  induction xs generalizing ring q with
  | nil =>
    rw [fill]
    exact ⟨rfl, by simpa using hh, hs, fun left => absurd rfl left⟩
  | cons hd xs ih =>
    have hb := hh.fits
    rw [fill]
    split
    next hr =>
      rw [Bool.and_eq_true, Bool.not_eq_true', decide_eq_false_iff_not, hh.count] at hr
      obtain ⟨hp, ha, cap, hf⟩ := ih (hh.push (by omega) (x hd)) ((RingBuffer.capacity_push _ _).trans hs)
      refine ⟨congrArg (cons hd) hp, ?_, cap, fun left => ?_⟩
      · rw [append_assoc] at ha
        exact ha
      have := hf left
      rw [append_assoc] at this
      exact this
    next hf =>
      rw [Bool.and_eq_true, decide_eq_true_eq, Bool.not_eq_true', decide_eq_false_iff_not, hh.count] at hf
      refine ⟨rfl, by simpa using hh, hs, fun _ => ?_⟩
      rw [map_nil, append_nil]
      omega

lemma handMany_spec (vs : List α) (rs : List Nat) : let hand := handMany vs rs
    hand.1.map Prod.snd ++ hand.2.1 = vs ∧ hand.1.map Prod.fst ++ hand.2.2 = rs ∧ (hand.2.1 = [] ∨ hand.2.2 = []) := by
  induction vs generalizing rs with
  | nil =>
    rw [handMany]
    · exact ⟨rfl, rfl, .inl rfl⟩
    · exact nofun
  | cons v vs ih =>
    cases rs with
    | nil =>
      rw [handMany]
      · exact ⟨rfl, rfl, .inr rfl⟩
      · exact nofun
    | cons rc rs =>
      obtain ⟨left, right, he⟩ := ih rs
      exact ⟨congrArg (cons v) left, congrArg (cons rc) right, he⟩

end Channel

/-- An effect keeps the order of the values and accounts for every send, those that waited and the `fresh` ones; a `receive`
gets no value only from a channel that is closed and drained. -/
structure Effect.Sound (ch : Channel α) (q : List α) (fresh : List Nat) (effect : Effect α) : Prop where
  after : ∃ q', effect.channel.Sound q' ∧ q ++ effect.accepted.map Prod.snd = effect.handed ++ effect.discarded ++ q'
  calls : (ch.senders.map Prod.fst ++ fresh).Perm
    (effect.accepted.map Prod.fst ++ effect.refused ++ effect.channel.senders.map Prod.fst)
  answered : ∀ answer ∈ effect.answered, answer.2 = none → effect.channel.drained = true

namespace Effect.Sound

variable {ch : Channel α} {q : List α}

lemma offer (ho : ch.Sound q) (call : Nat) (v : α) : (Channel.offerEffect call v (ch.offer v)).Sound ch q [call] := by
  rcases offer_spec ho v with ⟨hs, -⟩ | ⟨rc, rs, hs, -, rfl, ha⟩ | ⟨hs, ha⟩ | ⟨hs, -⟩
  · rw [hs]
    exact ⟨⟨q, ho, by simp [offerEffect]⟩, perm_append_comm, nofun⟩
  · rw [hs]
    refine ⟨⟨[], ha, rfl⟩, perm_append_comm, ?_⟩
    simp [offerEffect]
  · rw [hs]
    exact ⟨⟨_, ha, rfl⟩, perm_append_comm, nofun⟩
  · rw [hs]
    exact ⟨⟨q, ho, by simp [offerEffect]⟩, perm_append_comm, nofun⟩

lemma take {answer : Option α × Option (Nat × α) × Channel α} (ht : ch.Taken q answer) :
    (Channel.takeEffect answer).Sound ch q [] := by
  obtain ⟨q', hs, hf⟩ := ht.after
  refine ⟨⟨q', hs, ?_⟩, ?_, nofun⟩
  · rw [takeEffect, append_nil]
    exact hf
  · rw [ht.senders, append_nil, map_append, takeEffect, append_nil]

lemma sendMany (hs : ch.Sound q) (hd : Nat) (vs : List α) :
    (Channel.sendManyEffect hd vs (ch.trySendManyMove vs)).Sound ch q (List.range' hd vs.length) := by
  rw [trySendManyMove]
  split
  · refine ⟨⟨q, hs, by simp [sendManyEffect]⟩, ?_, nofun⟩
    simp only [sendManyEffect, map_nil, nil_append, zip_nil_right, Nat.sub_self, drop_zero]
    exact perm_append_comm
  next ho =>
    obtain ⟨hn, hb, he⟩ := handMany_spec vs ch.receivers
    obtain ⟨hp, hh, hc, hf⟩ := fill_spec id hs.holds hs.capacity (handMany vs ch.receivers).2.1
    rw [map_id] at hh hf
    dsimp only
    generalize handMany vs ch.receivers = hand at *
    obtain ⟨handed, tl, receivers⟩ := hand
    generalize fill id ch.capacity ch.ring tl = filled at *
    obtain ⟨pushed, left, ring⟩ := filled
    dsimp only at *
    -- the values are those handed over, then those buffered, then those left
    have hq : handed.length + pushed.length + left.length = vs.length := by
      rw [← hn, ← hp]
      simp [add_assoc]
    have hl (some : handed ≠ []) : q = [] := by
      refine hs.receivers fun none => some ?_
      rw [none, append_eq_nil_iff] at hb
      exact map_eq_nil_iff.mp hb.1
    have ha : ({ ch with receivers, ring } : Channel α).Sound (q ++ pushed) := by
      refine ⟨hh, hc, fun hw => ?_, fun hw => ?_, fun hu => absurd hu ho⟩
      · have hg : tl = [] := he.resolve_right hw
        rw [hg, append_eq_nil_iff] at hp
        rw [hp.1, append_nil]
        refine hs.receivers fun none => hw ?_
        rw [none, append_eq_nil_iff] at hb
        exact hb.2
      have hj := hh.fits
      rw [length_append] at hj
      rw [length_append]
      change q.length + pushed.length = ch.capacity
      have := hs.senders hw
      omega
    refine ⟨⟨q ++ pushed, ha, ?_⟩, ?_, ?_⟩
    · rw [sendManyEffect]
      rw [map_snd_zip (by simp; omega), append_nil]
      by_cases some : handed = []
      · rw [some]
        rfl
      · rw [hl some]
        rfl
    · rw [sendManyEffect]
      have cut : vs.length - left.length = (handed.map Prod.snd ++ pushed).length := by
        rw [length_append, length_map]
        omega
      have hk : (handed.map Prod.snd ++ pushed).length ≤ (range' hd vs.length).length := by
        rw [length_range']
        omega
      rw [zip_eq_zip_take_min, min_eq_right hk, take_length,
        map_fst_zip (by rw [length_take]; omega), cut, take_append_drop]
      exact perm_append_comm
    · rw [sendManyEffect]
      intro answer hm none
      obtain ⟨r, -, rfl⟩ := mem_map.mp hm
      cases none

lemma receiveMany (hs : ch.Sound q) (mx : Nat) : (ChannelRun.receiveManyEffect (ch.tryReceiveMany mx)).Sound ch q [] := by
  have hn : min mx ch.ring.count ≤ q.length := hs.holds.count ▸ Nat.min_le_right _ _
  obtain ⟨hv, hr, hg⟩ := hs.holds.popMany hn
  obtain ⟨hp, hh, hc, hf⟩ := fill_spec Prod.snd hr (hg.trans hs.capacity) ch.senders
  rw [tryReceiveMany]
  generalize ch.ring.popMany (min mx ch.ring.count) = popped at *
  obtain ⟨taken, ring⟩ := popped
  dsimp only at *
  generalize fill Prod.snd ch.capacity ring ch.senders = filled at *
  obtain ⟨accepted, senders, ring'⟩ := filled
  dsimp only at *
  generalize min mx ch.ring.count = n at *
  subst hv
  have ha : ({ ch with ring := ring', senders } : Channel α).Sound (q.drop n ++ accepted.map Prod.snd) := by
    refine ⟨hh, hc, fun hw => ?_, fun left => hf left, fun hb => ?_⟩
    · -- a sender beside a receiver waits at a channel without slots
      have he : q = [] := hs.receivers hw
      by_cases none : ch.senders = []
      · rw [none, append_eq_nil_iff] at hp
        rw [he, hp.1]
        simp
      have hj := hh.fits
      have hz := hs.senders none
      rw [he, length_nil] at hz
      exact length_eq_zero_iff.mp (by omega)
    · have none := (hs.closed hb).1
      rw [none, append_eq_nil_iff] at hp
      exact ⟨hp.2, (hs.closed hb).2⟩
  refine ⟨⟨_, ha, ?_⟩, ?_, nofun⟩
  · change q ++ accepted.map Prod.snd = q.take n ++ [] ++ (q.drop n ++ accepted.map Prod.snd)
    rw [append_nil, ← append_assoc, take_append_drop]
  · change (ch.senders.map Prod.fst ++ []).Perm (accepted.map Prod.fst ++ [] ++ senders.map Prod.fst)
    rw [append_nil, append_nil, ← map_append, hp]

lemma close (hs : ch.Sound q) : (ChannelRun.closeEffect ch).Sound ch q [] ∧ (ChannelRun.closeEffect ch).channel.closed = true ∧
    (ChannelRun.closeEffect ch).channel.Sound q := by
  rw [ChannelRun.closeEffect]
  by_cases hsh : ch.closed = true
  · have hb : ch.close = ([], [], ch) := if_pos hsh
    rw [hb]
    exact ⟨⟨⟨q, hs, by simp⟩, by simp, nofun⟩, hsh, hs⟩
  have hb : ch.close = (ch.senders, ch.receivers, { ch with closed := true, senders := [], receivers := [] }) := if_neg hsh
  have ha : ({ ch with closed := true, senders := [], receivers := [] } : Channel α).Sound q :=
    ⟨hs.holds, hs.capacity, fun hw => absurd rfl hw, fun hw => absurd rfl hw, fun _ => ⟨rfl, rfl⟩⟩
  rw [hb]
  refine ⟨⟨⟨q, ha, by simp⟩, by simp, fun answer hm _ => ?_⟩, rfl, ha⟩
  obtain ⟨rc, hw, rfl⟩ := mem_map.mp hm
  exact ha.drained.mpr ⟨rfl, hs.receivers (ne_nil_of_mem hw)⟩

/-- Nothing happens to the channel. -/
lemma same (hs : ch.Sound q) : Effect.Sound ch q [] { channel := ch } := by
  refine ⟨⟨q, hs, ?_⟩, ?_, nofun⟩
  · rw [map_nil, append_nil]
    rfl
  · rw [append_nil]
    rfl

/-- A `receive` gets its answer at once. -/
lemma answer {effect : Effect α} (change : effect.Sound ch q fresh) {answered : List (Nat × Option α)}
    (hdr : ∀ answer ∈ answered, answer.2 = none → effect.channel.drained = true) :
    Effect.Sound ch q fresh { effect with answered } := ⟨change.after, change.calls, hdr⟩

lemma sendSuspend (hs : ch.Sound q) (hf : ch.closed = true ∨ q.length = ch.capacity) (call : Nat) (v : α) :
    Effect.Sound ch q [call] { channel := (ch.sendAwaitSuspend call v).2
                               refused := if (ch.sendAwaitSuspend call v).1 then [] else [call] } := by
  by_cases hsh : ch.closed = true
  · have hb : ch.sendAwaitSuspend call v = (false, ch) := if_pos hsh
    rw [hb]
    exact ⟨⟨q, hs, by simp⟩, perm_append_comm, nofun⟩
  have hw : ch.sendAwaitSuspend call v = (true, { ch with senders := ch.senders ++ [(call, v)] }) := if_neg hsh
  have ha : ({ ch with senders := ch.senders ++ [(call, v)] } : Channel α).Sound q :=
    ⟨hs.holds, hs.capacity, hs.receivers, fun _ => hf.resolve_left hsh, fun hc => absurd hc hsh⟩
  rw [hw]
  refine ⟨⟨q, ha, by simp⟩, ?_, nofun⟩
  simp

lemma receiveSuspend (hs : ch.Sound q) (he : q = []) (call : Nat) :
    Effect.Sound ch q [] { channel := (ch.recvAwaitSuspend call).2
                           answered := if (ch.recvAwaitSuspend call).1 then [] else [(call, none)] } := by
  by_cases hsh : ch.closed = true
  · have hb : ch.recvAwaitSuspend call = (false, ch) := if_pos hsh
    rw [hb]
    exact (Effect.Sound.same hs).answer fun _ _ _ => hs.drained.mpr ⟨hsh, he⟩
  have hw : ch.recvAwaitSuspend call = (true, { ch with receivers := ch.receivers ++ [call] }) := if_neg hsh
  have ha : ({ ch with receivers := ch.receivers ++ [call] } : Channel α).Sound q :=
    ⟨hs.holds, hs.capacity, fun _ => he, hs.senders, fun hc => absurd hc hsh⟩
  rw [hw]
  refine ⟨⟨q, ha, by simp⟩, ?_, nofun⟩
  simp

lemma reopen (hs : ch.Sound q) {discarded : List α} {channel : Channel α} (done : ch.reopen = some (discarded, channel)) :
    Effect.Sound ch q [] { channel, discarded } := by
  rw [Channel.reopen] at done
  split at done
  · cases done
  rename_i ha
  cases done
  simp only [Bool.or_eq_true, Bool.not_eq_true', isEmpty_eq_false_iff, not_or, not_not] at ha
  obtain ⟨⟨-, he⟩, hr⟩ := ha
  obtain ⟨hv, hb, hc⟩ := hs.holds.popMany (le_of_eq hs.holds.count)
  rw [hs.holds.count] at hb hv hc ⊢
  rw [drop_length] at hb
  refine ⟨⟨[], ⟨⟨hb.count, Nat.zero_le _, fun some => some, fun _ => (Nat.zero_mod _).symm, nofun⟩, hc.trans hs.capacity,
    fun hw => absurd hr hw, fun hw => absurd he hw, nofun⟩, ?_⟩, ?_, nofun⟩
  · rw [hv]
    simp
  · rw [he]
    rfl

lemma destroy (ho : ch.Sound q) : Effect.Sound ch q [] { ChannelRun.closeEffect ch with
    channel := { (ChannelRun.closeEffect ch).channel with
      ring := ((ChannelRun.closeEffect ch).channel.ring.popMany (ChannelRun.closeEffect ch).channel.ring.count).2 }
    discarded := ((ChannelRun.closeEffect ch).channel.ring.popMany (ChannelRun.closeEffect ch).channel.ring.count).1 } := by
  obtain ⟨change, hh, hc⟩ := close ho
  obtain ⟨hv, he, hb⟩ := hc.holds.popMany (le_of_eq hc.holds.count)
  rw [hc.holds.count] at he hv hb ⊢
  rw [drop_length] at he
  obtain ⟨hs, hr⟩ := hc.closed hh
  have ha := hc.setRing he hb hr hs
  refine ⟨⟨[], ha, ?_⟩, change.calls, fun _ _ _ => ha.drained.mpr ⟨hh, rfl⟩⟩
  rw [hv]
  simp [ChannelRun.closeEffect]

end Effect.Sound

/-- The effect of a section leaves a closed channel closed and lets no value in. -/
def Effect.StaysShut (ch : Channel α) (effect : Effect α) : Prop :=
  ch.closed = true → effect.channel.closed = true ∧ effect.accepted = []

namespace Effect.StaysShut

variable {q : List α}

lemma drained {effect : Effect α} (ht : effect.StaysShut ch) (hs : ch.Sound q)
    (change : effect.Sound ch q fresh) (hdr : ch.drained = true) : effect.channel.drained = true := by
  obtain ⟨hu, rfl⟩ := hs.drained.mp hdr
  obtain ⟨hh, none⟩ := ht hu
  obtain ⟨q', ha, hf⟩ := change.after
  rw [none, map_nil] at hf
  obtain ⟨-, he⟩ := append_eq_nil_iff.mp hf.symm
  exact ha.drained.mpr ⟨hh, he⟩

lemma same : Effect.StaysShut ch { channel := ch } := fun hs => ⟨hs, rfl⟩

lemma offer (call : Nat) (v : α) : (Channel.offerEffect call v (ch.offer v)).StaysShut ch := by
  intro hs
  have ha : ch.offer v = (.closed, ch) := if_pos hs
  rw [ha]
  exact ⟨hs, rfl⟩

lemma take (ho : ch.Sound q) (ht : ch.Taken q answer) : (Channel.takeEffect answer).StaysShut ch := by
  intro hh
  have hs := ht.senders
  rw [(ho.closed hh).1] at hs
  exact ⟨ht.closed.trans hh, (append_eq_nil_iff.mp hs.symm).1⟩

lemma sendMany (hd : Nat) (vs : List α) : (Channel.sendManyEffect hd vs (ch.trySendManyMove vs)).StaysShut ch := by
  intro hs
  have ha : ch.trySendManyMove vs = ([], [], vs, ch) := if_pos hs
  rw [ha]
  exact ⟨hs, zip_nil_right⟩

lemma receiveMany (ho : ch.Sound q) (mx : Nat) : (ChannelRun.receiveManyEffect (ch.tryReceiveMany mx)).StaysShut ch := by
  intro hs
  rw [tryReceiveMany, (ho.closed hs).1]
  exact ⟨hs, rfl⟩

lemma close (hs : ch.Sound q) : (ChannelRun.closeEffect ch).StaysShut ch :=
  fun _ => ⟨(Effect.Sound.close hs).2.1, rfl⟩

lemma sendSuspend (call : Nat) (v : α) (refused : List Nat) :
    Effect.StaysShut ch { channel := (ch.sendAwaitSuspend call v).2, refused } := by
  intro hs
  have ha : ch.sendAwaitSuspend call v = (false, ch) := if_pos hs
  rw [ha]
  exact ⟨hs, rfl⟩

lemma receiveSuspend (call : Nat) (answered : List (Nat × Option α)) :
    Effect.StaysShut ch { channel := (ch.recvAwaitSuspend call).2, answered } := by
  intro hs
  have ha : ch.recvAwaitSuspend call = (false, ch) := if_pos hs
  rw [ha]
  exact ⟨hs, rfl⟩

end Effect.StaysShut

/-- The calls that several threads may make. -/
def ChannelCall.concurrent : ChannelCall α → Bool
  | .reopen | .destroy => false
  | _ => true

namespace ChannelRun

variable {s s' : ChannelRun α} {q : List α}

/-- Every `send` that has begun: those that have answered, those that wait, and those that are about to. -/
def sendCalls (s : ChannelRun α) : List Nat :=
  s.reports.map Prod.fst ++ s.channel.senders.map Prod.fst ++ s.sending.map Prod.fst

/-- The values are in order, each send is in one place, and a send answers what became of its value. -/
structure Sound (s : ChannelRun α) (q : List α) : Prop where
  channel : s.channel.Sound q
  fifo : s.accepted.map Prod.snd = s.removed.map Prod.fst ++ q
  calls : s.sendCalls.Perm (List.range s.nextSend)
  reported : (s.reports.filter Prod.snd).map Prod.fst = s.accepted.map Prod.fst
  answered : ∀ result ∈ s.results, result.value = none → result.drained = true

/-- What a section has done before the lock is released: sends may have begun, or be about to wait no longer. -/
structure Prepared (s s' : ChannelRun α) (fresh : List Nat) : Prop where
  accepted : s'.accepted = s.accepted
  removed : s'.removed = s.removed
  reports : s'.reports = s.reports
  results : s'.results = s.results
  calls : (s.reports.map Prod.fst ++ s.channel.senders.map Prod.fst ++ s'.sending.map Prod.fst ++ fresh).Perm
    (List.range s'.nextSend)

lemma Sound.apply (hs : s.Sound q) {fresh : List Nat} (hp : Prepared s s' fresh)
    (change : effect.Sound s.channel q fresh) : ∃ q', (s'.apply effect).Sound q' := by
  obtain ⟨q', ha, hf⟩ := change.after
  refine ⟨q', ha, ?_, ?_, ?_, fun res hm none => ?_⟩
  · change (s'.accepted ++ effect.accepted).map Prod.snd =
      (s'.removed ++ effect.handed.map (·, true) ++ effect.discarded.map (·, false)).map Prod.fst ++ q'
    rw [hp.accepted, hp.removed, map_append, hs.fifo, append_assoc, hf]
    simp [map_append, map_map, comp_def]
  · have hc : (s'.apply effect).sendCalls = s.reports.map Prod.fst ++
        (effect.accepted.map Prod.fst ++ effect.refused ++ effect.channel.senders.map Prod.fst) ++ s'.sending.map Prod.fst := by
      change (s'.reports ++ effect.accepted.map (·.1, true) ++ effect.refused.map (·, false)).map Prod.fst ++
        effect.channel.senders.map Prod.fst ++ s'.sending.map Prod.fst = _
      rw [hp.reports]
      simp [map_append, map_map, comp_def]
    rw [hc]
    refine List.Perm.trans ?_ hp.calls
    refine (((change.calls.symm.append_left _).append_right _)).trans ?_
    rw [append_assoc, append_assoc, append_assoc, append_assoc]
    exact (perm_append_comm.append_left _).append_left _
  · change ((s'.reports ++ effect.accepted.map (·.1, true) ++ effect.refused.map (·, false)).filter Prod.snd).map Prod.fst =
      (s'.accepted ++ effect.accepted).map Prod.fst
    rw [hp.reports, hp.accepted, map_append, ← hs.reported]
    simp [filter_append, filter_map, comp_def]
  · rcases mem_append.mp hm with old | new
    · rw [hp.results] at old
      exact hs.answered res old none
    obtain ⟨answer, hi, rfl⟩ := mem_map.mp new
    dsimp only at none ⊢
    rw [change.answered answer hi none, Bool.or_true]

/-- Whoever is about to wait still has to: the buffer is full for a sender, unless the channel is closed, and empty for a
receiver. -/
def suspendsInTime (s : ChannelRun α) : ChannelCall α → Bool
  | .sendSuspend _ => s.channel.closed || s.channel.bufFull
  | .receiveSuspend _ => s.channel.bufEmpty
  | _ => true

lemma Sound.new (cap : Nat) : (new cap : ChannelRun α).Sound [] := ⟨.new cap, rfl, .refl _, rfl, nofun⟩

/-- What a section of `call` does. -/
structure Section (s : ChannelRun α) (q : List α) (call : ChannelCall α) (before : ChannelRun α) (effect : Effect α)
    (fresh : List Nat) : Prop where
  prepared : Prepared s before fresh
  sound : effect.Sound s.channel q fresh
  shut : call.concurrent = true → effect.StaysShut s.channel
  kept : call.concurrent = true → effect.discarded = []
  saw : ∀ call, before.sawDrained call = true → s.sawDrained call = true

/-- One section of `call` leads to `s'`. -/
abbrev BySection (s : ChannelRun α) (q : List α) (call : ChannelCall α) (s' : ChannelRun α) : Prop :=
  ∃ before effect fresh, s' = before.apply effect ∧ Section s q call before effect fresh

namespace Sound

lemma prepared (hs : s.Sound q) (hb : s'.sending = s.sending) (next : s'.nextSend = s.nextSend)
    (ha : s'.accepted = s.accepted) (hr : s'.removed = s.removed) (he : s'.reports = s.reports)
    (hc : s'.results = s.results) : Prepared s s' [] := by
  refine ⟨ha, hr, he, hc, ?_⟩
  rw [hb, next, append_nil]
  exact hs.calls

/-- Sends are numbered on. -/
lemma fresh (hs : s.Sound q) (n : Nat) : Prepared s { s with nextSend := s.nextSend + n } (range' s.nextSend n) := by
  refine ⟨rfl, rfl, rfl, rfl, ?_⟩
  have all : range (s.nextSend + n) = range s.nextSend ++ range' s.nextSend n := by
    rw [range_eq_range', range_eq_range', ← range'_append_1, zero_add]
  rw [all]
  exact hs.calls.append_right _

lemma offered (hs : s.Sound q) (call : ChannelCall α) (v : α) : BySection s q call (s.offered v (s.channel.offer v)) :=
  ⟨_, _, _, rfl, hs.fresh 1, .offer hs.channel s.nextSend v, fun _ => .offer s.nextSend v,
    fun _ => discarded_offerEffect s.nextSend v _, fun _ saw => saw⟩

lemma send (hs : s.Sound q) (call : ChannelCall α) (v : α) : BySection s q call (s.send v) := by
  rw [ChannelRun.send]
  split
  next hf =>
    have ha : (s.channel.sendAwaitReady v).2 = s.channel := congrArg Prod.snd (offer_full hs.channel hf).1
    rw [ha]
    refine ⟨_, _, [], rfl, ⟨rfl, rfl, rfl, rfl, ?_⟩, .same hs.channel, fun _ => .same, fun _ => rfl, fun _ saw => saw⟩
    rw [append_nil, map_append, ← append_assoc, range_succ]
    exact hs.calls.append_right _
  · exact hs.offered call v

lemma sendSuspend (hs : s.Sound q) (hi : s.suspendsInTime (.sendSuspend call) = true)
    (ht : s.sendSuspend call = some s') : BySection s q (.sendSuspend call) s' := by
  obtain ⟨⟨c, v⟩, hf, rfl⟩ := Option.map_eq_some_iff.mp ht
  obtain ⟨this, pre, after, hp, ho⟩ := find?_eq_some_iff_append.mp hf
  have hu : s.channel.closed = true ∨ q.length = s.channel.capacity := by
    rw [suspendsInTime, Bool.or_eq_true, bufFull, decide_eq_true_eq, hs.channel.holds.count] at hi
    exact hi
  have he : s.sending.eraseP (·.1 = call) = pre ++ after := by
    rw [hp, eraseP_append_right _ (fun n hm => by simpa using ho n hm), eraseP_cons_of_pos (by simpa using this)]
  refine ⟨_, _, [c], rfl, ⟨rfl, rfl, rfl, rfl, ?_⟩, .sendSuspend hs.channel hu c v, fun _ => .sendSuspend c v _,
    fun _ => rfl, fun _ saw => saw⟩
  rw [he]
  refine List.Perm.trans ?_ hs.calls
  rw [sendCalls, hp, append_assoc]
  refine List.Perm.append_left _ ?_
  rw [map_append, map_append, append_assoc]
  exact List.Perm.append_left _ perm_append_comm

lemma receive (hs : s.Sound q) (call : ChannelCall α) : BySection s q call s.receive := by
  obtain ⟨ht, none⟩ := take_spec hs.channel
  have saw (c : Nat) (hb : (if c = s.nextReceive then false else s.sawDrained c) = true) : s.sawDrained c = true := by
    split at hb
    · cases hb
    · exact hb
  rw [ChannelRun.receive]
  split
  next hr =>
    refine ⟨_, _, [], rfl, ?_, (Effect.Sound.take ht).answer fun answer hm he => ?_, fun _ => .take hs.channel ht,
      fun _ => rfl, saw⟩
    · exact hs.prepared rfl rfl rfl rfl rfl rfl
    rw [mem_singleton.mp hm] at he
    obtain ⟨rfl, -, ha⟩ := none he
    rw [recvAwaitReady, ha] at hr
    rw [ha]
    exact hs.channel.drained.mpr ⟨hr, rfl⟩
  · refine ⟨_, _, [], rfl, ?_, .take ht, fun _ => .take hs.channel ht, fun _ => rfl, saw⟩
    exact hs.prepared rfl rfl rfl rfl rfl rfl

lemma receiveSuspend (hs : s.Sound q) (hi : s.suspendsInTime (.receiveSuspend call) = true)
    (ht : s.receiveSuspend call = some s') : BySection s q (.receiveSuspend call) s' := by
  obtain ⟨-, ⟨⟩⟩ := Option.ite_none_right_eq_some.mp ht
  refine ⟨_, _, [], rfl, ?_, .receiveSuspend hs.channel (hs.channel.bufEmpty.mp hi) call,
    fun _ => .receiveSuspend call _, fun _ => rfl, fun _ saw => saw⟩
  exact hs.prepared rfl rfl rfl rfl rfl rfl

lemma reopen (hs : s.Sound q) : BySection s q .reopen s.reopen := by
  have hp : Prepared s s [] := hs.prepared rfl rfl rfl rfl rfl rfl
  rw [ChannelRun.reopen]
  split
  · exact ⟨s, _, [], rfl, hp, .same hs.channel, nofun, nofun, fun _ saw => saw⟩
  next done => exact ⟨s, _, [], rfl, hp, .reopen hs.channel done, nofun, nofun, fun _ saw => saw⟩

/-- Every step is one section. -/
lemma section_of_step (hs : s.Sound q) {call : ChannelCall α} (hi : s.suspendsInTime call = true)
    (ht : s.step call = some s') : BySection s q call s' := by
  have hp : Prepared s s [] := hs.prepared rfl rfl rfl rfl rfl rfl
  unfold ChannelRun.step at ht
  split at ht
  · cases ht
  cases call with
  | send v =>
    cases ht
    exact hs.send _ v
  | sendSuspend call => exact hs.sendSuspend hi ht
  | receive =>
    cases ht
    exact hs.receive _
  | receiveSuspend call => exact hs.receiveSuspend hi ht
  | trySend v | trySendDeferred v | trySendMove v =>
    cases ht
    exact hs.offered _ v
  | trySendManyMove vs =>
    cases ht
    exact ⟨_, _, _, rfl, hs.fresh vs.length, .sendMany hs.channel s.nextSend vs, fun _ => .sendMany s.nextSend vs,
      fun _ => rfl, fun _ saw => saw⟩
  | tryReceive =>
    cases ht
    have ht := (take_spec hs.channel).1
    exact ⟨s, _, [], rfl, hp, .take ht, fun _ => .take hs.channel ht, fun _ => rfl, fun _ saw => saw⟩
  | tryReceiveBufferedRefill =>
    cases ht
    have ht := tryReceiveBufferedRefill_spec hs.channel
    exact ⟨s, _, [], rfl, hp, .take ht, fun _ => .take hs.channel ht, fun _ => rfl, fun _ saw => saw⟩
  | tryReceiveMany mx =>
    cases ht
    exact ⟨s, _, [], rfl, hp, .receiveMany hs.channel mx, fun _ => .receiveMany hs.channel mx, fun _ => rfl, fun _ saw => saw⟩
  | close =>
    cases ht
    exact ⟨s, _, [], rfl, hp, (Effect.Sound.close hs.channel).1, fun _ => .close hs.channel, fun _ => rfl, fun _ saw => saw⟩
  | reopen =>
    cases ht
    exact hs.reopen
  | destroy =>
    cases ht
    refine ⟨_, _, [], rfl, ?_, .destroy hs.channel, nofun, nofun, fun _ saw => saw⟩
    exact hs.prepared rfl rfl rfl rfl rfl rfl

lemma step (hs : s.Sound q) {call : ChannelCall α} (hi : s.suspendsInTime call = true)
    (ht : s.step call = some s') : ∃ q', s'.Sound q' := by
  obtain ⟨pre, effect, fresh, rfl, done⟩ := hs.section_of_step hi ht
  exact hs.apply done.prepared done.sound

end Sound

end ChannelRun

end Cnetmod.Coro
