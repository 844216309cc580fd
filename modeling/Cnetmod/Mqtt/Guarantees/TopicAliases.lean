import Cnetmod.Mqtt.Guarantees.Persistence
import Cnetmod.Mqtt.Source.TopicAlias

/-!
# Topic aliases and other connections

The broker sends on the properties of a PUBLISH as they came, the publisher's topic alias
with them. The table of the sender and that of the receiver agree, unless a topic is empty
or all 65535 aliases are taken.
-/
namespace Cnetmod.Mqtt

open TopicAliasRecv
open Coding (Bytes SortedMap)
open Consensus (Reached)

/-- What the broker may send because of `msg`: at once, as a retained message, and from the offline queue or in flight, also
after a restart. -/
inductive Consequence (msg : PublishMessage) : PublishMessage → Prop where
  | routed (entry : SubscribeEntry) : Consequence msg (forward msg entry)
  | retained (entry : SubscribeEntry) : Consequence msg ((retainedOf msg).deliver entry)
  | queued {m : PublishMessage} (before : Consequence msg m) (now : Int) : Consequence msg { m with enqueueTime := now }
  | dequeued {m m' : PublishMessage} (before : Consequence msg m) {now : Int} (left : checkMessageExpiry m now = some m') :
    Consequence msg m'
  | reloaded {m : PublishMessage} (before : Consequence msg m) : Consequence msg (publishFromJson (publishToJson m))

def NoAlias (props : Properties) : Prop := ∀ p ∈ props, p.id ≠ .topicAlias

lemma noAlias_countDown (hn : NoAlias ps) (hc : countDown k ps = some qs) : NoAlias qs := by
  induction ps generalizing qs with
  | nil =>
    cases hc
    exact hn
  | cons p ps ih =>
    obtain ⟨hp, hs⟩ := List.forall_mem_cons.mp hn
    rw [countDown] at hc
    split at hc
    · split at hc
      · cases hc
      · cases hc
        exact List.forall_mem_cons.mpr ⟨hp, hs⟩
    · obtain ⟨rs, hr, rfl⟩ := Option.map_eq_some_iff.mp hc
      exact List.forall_mem_cons.mpr ⟨hp, ih hs hr⟩

lemma Consequence.noAlias (hn : NoAlias msg.props) (hc : Consequence msg m) : NoAlias m.props := by
  induction hc with
  | routed e =>
    refine List.forall_mem_append.mpr ⟨hn, ?_⟩
    split <;> simp
  | retained => exact hn
  | queued _ _ ih => exact ih
  | dequeued _ left ih =>
    obtain ⟨ps, hp, rfl⟩ := Option.map_eq_some_iff.mp left
    exact noAlias_countDown ih hp
  | reloaded _ ih =>
    rw [publishFromJson_publishToJson]
    exact ih

lemma props_of_accepted (ha : checkPublish opts v r user pkt = .accepted msg) : msg.props = pkt.props := by
  -- only the topic is replaced on the way
  grind [checkPublish, resolveTopic]

/-- A sender and the receiver at the other end. -/
structure AliasPair where
  send : TopicAliasSend
  recv : TopicAliasRecv

namespace AliasPair

variable {x : AliasPair} {topic : Bytes} {max : Nat}

def new (max : Nat) : AliasPair := ⟨{ max }, { max }⟩

/-- The alias that goes with a message and the topic that the receiver takes it for. -/
def exchange (x : AliasPair) (topic : Bytes) : (Nat × Bytes) × AliasPair :=
  let ((number, fresh), send) := x.send.allocate topic
  let (resolved, recv) := x.recv.resolve (if fresh then topic else []) number
  ((number, resolved), ⟨send, recv⟩)

def step (x : AliasPair) (topic : Bytes) : Option AliasPair := some (x.exchange topic).2

/-- The topic is not empty, and the search for a free alias does not run over. -/
def Usable (x : AliasPair) (topic : Bytes) : Prop :=
  topic ≠ [] ∧ (x.send.topicToAlias.get topic = none → x.send.freeAlias ≠ some 0)

instance : Decidable (x.Usable topic) := inferInstanceAs (Decidable (_ ∧ _))

structure Sound (max : Nat) (x : AliasPair) : Prop where
  sendMax : x.send.max = max
  recvMax : x.recv.max = max
  known : ∀ {t a}, x.send.topicToAlias.get t = some a → x.send.aliasToTopic.get a = some t
  range : ∀ {a t}, x.send.aliasToTopic.get a = some t → 1 ≤ a ∧ a ≤ max
  timed : ∀ r ∈ x.send.lruTime.records, 1 ≤ r.1 ∧ r.1 ≤ max
  agrees : ∀ {a t}, x.send.aliasToTopic.get a = some t → x.recv.aliases.get a = some t

namespace Sound

lemma new (max : Nat) : (AliasPair.new max).Sound max := ⟨rfl, rfl, nofun, nofun, nofun, nofun⟩

lemma touch {send : TopicAliasSend} {recv : TopicAliasRecv} (hs : Sound max ⟨send, recv⟩) (ha : 1 ≤ a ∧ a ≤ max) :
    Sound max ⟨send.touch a, recv⟩ := by
  refine { hs with timed := fun r hr => ?_ }
  rcases SortedMap.mem_put.mp hr with ⟨he, -⟩ | ⟨-, hm⟩
  · exact he ▸ ha
  · exact hs.timed r hm

variable (hs : x.Sound max)

include hs

lemma getLruAlias (hm : 1 ≤ max) (hf : x.send.freeAlias ≠ some 0) : 1 ≤ x.send.getLruAlias ∧ x.send.getLruAlias ≤ max := by
  have hc := hs.sendMax
  rw [TopicAliasSend.getLruAlias, if_neg (by omega)]
  cases hfr : x.send.freeAlias with
  | none =>
    refine List.foldlRecOn (motive := fun o : Nat × Nat => 1 ≤ o.1 ∧ o.1 ≤ max) _ _ ⟨Nat.le_refl 1, hm⟩ fun o ho r hr => ?_
    split
    · exact hs.timed r hr
    · exact ho
  | some a =>
    have ha := List.mem_of_find?_eq_some hfr
    rw [hc] at ha
    rcases List.mem_append.mp ha with ha | ha
    · have := List.mem_range'_1.mp ha
      change 1 ≤ a ∧ a ≤ max
      omega
    · split at ha <;> simp_all

/-- A topic that gets an alias of its own. -/
lemma insertOrUpdate (ha : 1 ≤ a ∧ a ≤ max) : Sound max ⟨x.send.insertOrUpdate topic a, x.recv.insertOrUpdate topic a⟩ := by
  have hc := hs.sendMax
  have hr := hs.recvMax
  rw [TopicAliasSend.insertOrUpdate, if_neg (by omega), TopicAliasRecv.insertOrUpdate, if_pos (by omega)]
  refine touch ?_ ha
  refine { hs with known := fun {t b} hk => ?_, range := fun {b t} hb => ?_, agrees := fun {b t} hb => ?_ }
  · change (SortedMap.put _ topic a).get t = some b at hk
    rw [SortedMap.get_put] at hk ⊢
    by_cases hto : topic = t
    · rw [if_pos hto] at hk
      cases hk
      rw [if_pos rfl, hto]
    rw [if_neg hto] at hk
    -- an older topic of this alias has lost it
    have hl : x.send.topicToAlias.get t = some b ∧ x.send.aliasToTopic.get a ≠ some t := by
      split at hk
      next old ho =>
        rw [SortedMap.get_delete] at hk
        split at hk
        · cases hk
        next hn => exact ⟨hk, fun h => hn (Option.some.inj (ho.symm.trans h))⟩
      next ho => exact ⟨hk, by simp [ho]⟩
    have hb := hs.known hl.1
    have hn : a ≠ b := fun h => hl.2 (h ▸ hb)
    rw [if_neg hn, hb]
  · change (x.send.aliasToTopic.put a topic).get b = some t at hb
    rw [SortedMap.get_put] at hb
    split at hb
    next he => exact he ▸ ha
    · exact hs.range hb
  · change (x.send.aliasToTopic.put a topic).get b = some t at hb
    rw [SortedMap.get_put] at hb ⊢
    split at hb
    next he => rw [if_pos he, hb]
    next he => rw [if_neg he, hs.agrees hb]

lemma exchange (hm : 1 ≤ max) (hu : x.Usable topic) : (x.exchange topic).2.Sound max ∧
    1 ≤ (x.exchange topic).1.1 ∧ (x.exchange topic).1.1 ≤ max ∧ (x.exchange topic).1.2 = topic := by
  have hz : x.send.max ≠ 0 := by
    have := hs.sendMax
    omega
  unfold AliasPair.exchange TopicAliasSend.allocate
  rw [if_neg hz]
  cases hk : x.send.topicToAlias.get topic with
  | some a =>
    have hb := hs.known hk
    have ha := hs.range hb
    have hr : x.recv.resolve [] a = (topic, x.recv) := by
      simp [resolve, find, hs.agrees hb, Nat.ne_of_gt ha.1]
    simp only [Bool.false_eq_true, if_false, hr]
    exact ⟨touch hs ha, ha.1, ha.2, trivial⟩
  | none =>
    have ha := hs.getLruAlias hm (hu.2 hk)
    have hr : x.recv.resolve topic x.send.getLruAlias = (topic, x.recv.insertOrUpdate topic x.send.getLruAlias) := by
      rw [resolve, if_neg (by omega), if_neg (by simpa using hu.1)]
    simp only [if_true, hr]
    exact ⟨hs.insertOrUpdate ha, ha.1, ha.2, trivial⟩

end Sound

end AliasPair

/-- What is sent because of an accepted PUBLISH carries no topic alias exactly if the PUBLISH carries none; and from every state
that usable topics lead to, a usable topic goes with an alias from 1 to the maximum and is resolved to itself. -/
theorem topic_aliases_scoped {opts : BrokerOptions} {v : ProtocolVersion} {r : TopicAliasRecv} {user : Bytes}
    {packet msg : PublishMessage} (ha : checkPublish opts v r user packet = .accepted msg) {max : Nat} (hm : 1 ≤ max)
    (_ : max ≤ 65535) {x : AliasPair} (run : Reached AliasPair.step AliasPair.Usable (.new max) x) {topic : Bytes}
    (hu : x.Usable topic) :
    ((∀ m v, Consequence msg m → NoAlias (sentProps v m)) ↔ NoAlias packet.props) ∧
      1 ≤ (x.exchange topic).1.1 ∧ (x.exchange topic).1.1 ≤ max ∧ (x.exchange topic).1.2 = topic := by
  have hs : x.Sound max := run.invariant (AliasPair.Sound max) (.new max) fun hs ho ht => by
    cases ht
    exact (hs.exchange hm ho).1
  refine ⟨?_, (hs.exchange hm hu).2⟩
  rw [← props_of_accepted ha]
  refine ⟨fun h => ?_, fun hn m v hc => ?_⟩
  · have hf := h _ .v5 (.routed { topicFilter := [] })
    exact (List.forall_mem_append.mp hf).1
  rw [sentProps]
  split
  · exact hc.noAlias hn
  · exact nofun

/-- With two aliases the third topic takes over the first one; a PUBLISH without an alias reaches no one with one. -/
theorem topic_aliases_scoped_reused : (∀ m v, Consequence { topic := [97] } m → NoAlias (sentProps v m)) ∧
    ∃ x, Reached AliasPair.step AliasPair.Usable (.new 2) x ∧ (x.exchange [99]).1.1 = 1 ∧ (x.exchange [99]).1.2 = [99] := by
  have run : Reached AliasPair.step AliasPair.Usable (.new 2) _ := .runChecked .start [[97], [98]] rfl
  have ha : checkPublish {} .v5 {} [] { topic := [97] } = .accepted { topic := [97] } := rfl
  obtain ⟨hc, -, -, ht⟩ := topic_aliases_scoped ha (by decide) (by decide) run (by decide +kernel : AliasPair.Usable _ [99])
  exact ⟨hc.mpr nofun, _, run, by decide +kernel, ht⟩

/-- A PUBLISH with the alias 7 reaches a subscriber with it. -/
theorem topic_alias_forwarded : ∃ packet msg, checkPublish {} .v5 { max := 10 } [] packet = .accepted msg ∧
    ¬ ∀ m v, Consequence msg m → NoAlias (sentProps v m) := by
  refine ⟨⟨[97], [], .atMostOnce, false, false, 0, [⟨.topicAlias, .u16 7⟩], 0⟩, _, rfl, fun h => ?_⟩
  exact h _ .v5 (.routed { topicFilter := [97] }) ⟨.topicAlias, .u16 7⟩ (by decide) rfl

end Cnetmod.Mqtt
