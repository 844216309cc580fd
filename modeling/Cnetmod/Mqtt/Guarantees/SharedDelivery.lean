import Cnetmod.Mqtt.Guarantees.RouteCache
import Cnetmod.Mqtt.Spec.Matching

/-!
# Delivery to share groups

Every member of a share group is in the trie as well, under the group's filter, so that
a message goes to all of them and not only to the one the group selects. Delivery is
as it should be exactly when each member that is found has another reason to get the
message, and the sender is not selected without one.
-/
namespace Cnetmod.Mqtt.Broker

open List

open Coding (Bytes ascii SortedMap)
open Consensus (Reached)
open SharedTargetStore

variable {b b' : Broker} {cid cid' filter f' snd topic shareName : Bytes} {e : SubscribeEntry}
  {ss : SessionState} {found : List (Bytes × SubscribeEntry)}

/-- The client has a subscription of its own, not a shared one, that matches the topic. -/
def HasPlain (b : Broker) (topic cid : Bytes) : Prop :=
  ∃ whole, (b.subscriptionOf cid whole).isSome ∧ Plain whole ∧ topicMatches whole topic = true

/-- The client is in the share group. -/
def InGroup (b : Broker) (shareName filter cid : Bytes) : Prop := (b.subscriptionOf cid (sharedFilter shareName filter)).isSome

instance (b : Broker) (shareName filter cid : Bytes) : Decidable (b.InGroup shareName filter cid) :=
  inferInstanceAs (Decidable (_ = true))

/-- The client is the one a share group selects. -/
def Selects (b : Broker) (shareName filter cid : Bytes) : Prop :=
  b.sharedStore.Selects b.sessionOnline shareName filter cid

/-- The client is selected by a group whose filter matches the topic. -/
def Selected (b : Broker) (topic cid : Bytes) : Prop :=
  ∃ shareName filter, Shareable shareName filter ∧ topicMatches filter topic = true ∧ b.Selects shareName filter cid

/-- Each group whose filter matches the topic causes a delivery to the member it selects, and clients that have no
subscription of their own and are not selected get nothing. -/
structure DeliversOnce (b : Broker) (topic : Bytes) (targets : SortedMap Bytes SubscribeEntry) : Prop where
  selected : ∀ shareName filter, Shareable shareName filter → topicMatches filter topic = true →
    (∃ cid, b.InGroup shareName filter cid) →
    ∃ cid, b.Selects shareName filter cid ∧ b.InGroup shareName filter cid ∧ (targets.get cid).isSome
  others : ∀ cid, (targets.get cid).isSome → b.HasPlain topic cid ∨ b.Selected topic cid

/-- The sender has an entry for the topic that has not `no_local`. -/
def Echoed (b : Broker) (topic sender : Bytes) : Prop :=
  ∃ record ∈ b.subMap.matching topic, record.1 = sender ∧ record.2.noLocal = false

/-- Each member of a matching group that the trie gives would get the message anyway, and the sender is not selected
for nothing. -/
structure MembersApart (b : Broker) (topic sender : Bytes) : Prop where
  own : b.Selected topic sender → b.Echoed topic sender
  members : ∀ shareName filter cid, Shareable shareName filter → topicMatches filter topic = true →
    b.InGroup shareName filter cid → (cid = sender → b.Echoed topic sender) → b.HasPlain topic cid ∨ b.Selected topic cid

lemma isSome_collectTargets : ((collectTargets snd found).get cid).isSome ↔
    ∃ record ∈ found, record.1 = cid ∧ (cid = snd → record.2.noLocal = false) := by
  induction found using reverseRecOn with
  | nil => simp [collectTargets, SortedMap.get]
  | append_singleton found last ih =>
    have split : (collectTargets snd (found ++ [last])) = if last.1 ≠ snd ∨ last.2.noLocal = false
        then (collectTargets snd found).tryEmplace last.1 last.2 else collectTargets snd found := by
      rw [collectTargets, foldl_append]
      rfl
    simp only [mem_append, mem_singleton, or_and_right, exists_or, exists_eq_left, ← ih]
    rw [split]
    split
    next he =>
      rw [SortedMap.get_tryEmplace]
      by_cases hh : last.1 = cid
      · subst hh
        have hw : last.1 = snd → last.2.noLocal = false := fun own => he.resolve_left (not_not_intro own)
        cases (collectTargets snd found).get last.1 with
        | none => simpa using hw
        | some old => simp
      · simp [hh]
    next hm =>
      rw [not_or, not_not, Bool.not_eq_false] at hm
      refine ⟨.inl, ?_⟩
      rintro (old | ⟨rfl, own⟩)
      · exact old
      · rw [own hm.1] at hm
        cases hm.2

lemma isSome_addSharedTargets :
    ((addSharedTargets snd qos ts selected).get cid).isSome ↔ (ts.get cid).isSome ∨ (cid ≠ snd ∧ ∃ f, (cid, f) ∈ selected) := by
  induction selected using reverseRecOn with
  | nil => simp [addSharedTargets]
  | append_singleton selected last ih =>
    have split : addSharedTargets snd qos ts (selected ++ [last]) = if last.1 = snd then addSharedTargets snd qos ts selected
        else (addSharedTargets snd qos ts selected).tryEmplace last.1 { topicFilter := last.2, maxQos := qos } := by
      rw [addSharedTargets, foldl_append]
      rfl
    obtain ⟨client, chosen⟩ := last
    simp only [mem_append, mem_singleton, exists_or, and_or_left, ← or_assoc, ← ih, Prod.mk.injEq]
    rw [split]
    split
    next own =>
      refine ⟨.inl, ?_⟩
      rintro (old | ⟨ho, f, hs, -⟩)
      · exact old
      · exact absurd (hs.trans own) ho
    next ho =>
      rw [SortedMap.get_tryEmplace]
      by_cases hh : client = cid
      · subst hh
        cases (addSharedTargets snd qos ts selected).get client <;> simp [show client ≠ snd from ho]
      · simp [hh, Ne.symm hh]

structure Indexed (b : Broker) : Prop where
  only : b.subMap.OnlyFilters
  groups : b.sharedStore.WellFormed
  flagged : b.sharedSubscriptionsPresent = false → ∀ key, b.sharedStore.groups.get key = none

namespace Indexed

section

variable (i : b.Indexed)

include i

lemma of_same (hu : b'.subMap = b.subMap) (hs : b'.sharedStore = b.sharedStore)
    (hf : b'.sharedSubscriptionsPresent = b.sharedSubscriptionsPresent) : b'.Indexed := by
  obtain ⟨only, hg, hl⟩ := i
  exact ⟨hu ▸ only, hs ▸ hg, by rwa [hf, hs]⟩

lemma insertSubscription (hn : cid ≠ []) : (b.insertSubscription cid filter e).Indexed := by
  refine ⟨by rw [subMap_insertSubscription]; exact i.only.insert, ?_, ?_⟩
  · obtain ⟨-, -, hs, -⟩ | ⟨_, _, hh, -, hs, -⟩ := b.subscription_cases cid filter
    · exact hs e ▸ i.groups
    · exact hs e ▸ i.groups.addMember hh hn
  obtain ⟨-, -, hs, -⟩ | ⟨_, _, -, -, hs, -⟩ := b.subscription_cases cid filter
  · exact hs e ▸ i.flagged
  · rw [hs]
    rintro ⟨⟩

lemma eraseSubscription : (b.eraseSubscription cid filter).Indexed := by
  refine ⟨by rw [subMap_eraseSubscription]; exact i.only.erase, ?_, ?_⟩
  · obtain ⟨-, -, -, hs⟩ | ⟨_, _, -, -, -, hs⟩ := b.subscription_cases cid filter
    · exact hs ▸ i.groups
    · exact hs ▸ i.groups.removeMember
  obtain ⟨-, -, -, hs⟩ | ⟨_, _, -, -, -, hs⟩ := b.subscription_cases cid filter
  · exact hs ▸ i.flagged
  intro hu key
  rw [hs] at hu ⊢
  rw [removeMember, i.flagged hu]
  exact i.flagged hu key

lemma eraseClient (cid : Bytes) : (b.eraseClient cid).Indexed := by
  refine ⟨i.only.eraseClient, i.groups.removeClient, fun hu key => ?_⟩
  rw [Broker.eraseClient, removeClient, SortedMap.get_filterMapValues, i.flagged hu]
  rfl

lemma insertSubscriptions (hn : ss.clientId ≠ []) : (b.insertSubscriptions ss).Indexed := by
  rw [Broker.insertSubscriptions]
  generalize ss.subscriptions.records = l
  induction l generalizing b with
  | nil => exact i
  | cons r l ih => exact ih (i.insertSubscription hn)

lemma foldl_insertSubscriptions (l : List (Bytes × SessionState)) (hn : ∀ ss ∈ l, ss.2.clientId ≠ []) :
    (l.foldl (fun b r => b.insertSubscriptions r.2) b).Indexed := by
  induction l generalizing b with
  | nil => exact i
  | cons ss l ih => exact ih (i.insertSubscriptions (hn ss (by simp))) fun s hm => hn s (by simp [hm])

end

lemma fresh (lim : Nat) (sessions : SessionStore) : ({ maxOfflineQueue := lim, sessions } : Broker).Indexed := by
  refine ⟨.new, ?_, fun _ _ => rfl⟩
  rintro key g ⟨⟩

end Indexed

structure Routable (b : Broker) : Prop extends b.Consistent where
  indexed : b.Indexed
  accepted : ∀ cid filter, (b.subscriptionOf cid filter).isSome → validateTopicFilter filter = true
  cached : b.sharedSubscriptionsPresent = false → ∀ topic found, b.routeCache.get topic = some found →
    ∀ record ∈ found, ∃ filter, topicMatches filter topic = true ∧ (b.subMap.entryOf filter record.1).isSome

namespace Routable

lemma clean (r : b.Routable) : SubscriptionMap.Clean b.subMap.root := by
  refine r.indexed.only.clean fun f cid hp => ?_
  obtain ⟨whole, sub, rfl⟩ := (r.agrees.1 cid f).mp hp
  exact hashLast_extractTopicFilter (r.accepted cid whole sub)

lemma mem_matching (r : b.Routable) : q ∈ b.subMap.matching topic ↔
    ∃ filter, topicMatches filter topic = true ∧ b.subMap.entryOf filter q.1 = some q.2 :=
  SubscriptionMap.mem_matching r.indexed.only r.clean topic

lemma cached_of_empty (he : b.routeCache = .empty) : b.sharedSubscriptionsPresent = false →
    ∀ t found, b.routeCache.get t = some found → ∀ record ∈ found, ∃ filter, topicMatches filter t = true ∧
      (b.subMap.entryOf filter record.1).isSome := by
  intro _ t found hh
  rw [he] at hh
  cases hh

/-- Subscriptions put into the indexes leave the cache alone. -/
lemma frame_insertSubscriptions (b : Broker) (ss : SessionState) : (b.insertSubscriptions ss).routeCache = b.routeCache ∧
    ((b.insertSubscriptions ss).sharedSubscriptionsPresent = false → b.sharedSubscriptionsPresent = false) := by
  have one (b : Broker) (f : Bytes) (e : SubscribeEntry) :
      (b.insertSubscription ss.clientId f e).routeCache = b.routeCache ∧
      ((b.insertSubscription ss.clientId f e).sharedSubscriptionsPresent = false → b.sharedSubscriptionsPresent = false) := by
    obtain ⟨-, -, hs, -⟩ | ⟨_, _, -, -, hs, -⟩ := b.subscription_cases ss.clientId f
    · rw [hs]
      exact ⟨rfl, id⟩
    · rw [hs]
      exact ⟨rfl, by rintro ⟨⟩⟩
  rw [insertSubscriptions]
  generalize ss.subscriptions.records = l
  induction l generalizing b with
  | nil => exact ⟨rfl, id⟩
  | cons r l ih =>
    obtain ⟨ha, hl⟩ := ih (b.insertSubscription ss.clientId r.1 r.2)
    obtain ⟨hc, hf⟩ := one b r.1 r.2
    exact ⟨ha.trans hc, fun hu => hf (hl hu)⟩

lemma connectState (r : b.Routable) (now : Int) (hn : cd.clientId ≠ []) : (b.connectState cd now).1.Routable := by
  refine ⟨r.toConsistent.connectState now hn, ?_, fun cid f ht =>
    r.accepted cid f (subscriptionOf_connectState ht), ?_⟩
  · obtain ⟨ss, id, ⟨-, hs⟩ | ⟨-, -, hs⟩ | ⟨-, -, -, hs⟩⟩ := connectState_cases r.keyed cd now
    · rw [hs]
      exact (Indexed.eraseClient (r.indexed.of_same rfl rfl rfl) cd.clientId).of_same rfl rfl rfl
    · rw [hs]
      exact r.indexed.of_same rfl rfl rfl
    · rw [hs]
      exact Indexed.insertSubscriptions (r.indexed.of_same rfl rfl rfl) (id ▸ hn)
  obtain ⟨ss, id, ⟨-, hs⟩ | ⟨-, -, hs⟩ | ⟨-, -, -, hs⟩⟩ := connectState_cases r.keyed cd now
  · exact cached_of_empty (by rw [hs]; rfl)
  · rw [hs]
    exact r.cached
  rw [hs]
  obtain ⟨hc, hl⟩ := frame_insertSubscriptions { b with sessions := b.sessions.put cd.clientId ss } ss
  intro hu t found hh q hm
  obtain ⟨f, hf, ht⟩ := r.cached (hl hu) t found (hc ▸ hh) q hm
  exact ⟨f, hf, ((foldl_insertSubscription _ _ _).2.1 f q.1).mpr (.inr ht)⟩

lemma removeSession (r : b.Routable) (cid : Bytes) : (b.removeSession cid).Routable := by
  refine ⟨r.toConsistent.removeSession cid, (r.indexed.eraseClient cid).of_same rfl rfl rfl, fun cid' f ht => ?_,
    cached_of_empty rfl⟩
  rw [subscriptionOf_removeSession] at ht
  split at ht
  · cases ht
  · exact r.accepted cid' f ht

lemma subscribe (r : b.Routable) (hv : validateTopicFilter e.topicFilter = true)
    (done : b.subscribe cid e = some (b', isNew)) : b'.Routable := by
  obtain ⟨ss, found, -, -, he, -⟩ := subscribe_spec done
  refine ⟨r.toConsistent.subscribe done, ?_, fun cid' f ht => ?_, cached_of_empty he⟩
  · rw [Broker.subscribe, Option.map_eq_some_iff] at done
    obtain ⟨ss', -, done⟩ := done
    cases done
    have put : ({ b with sessions := b.sessions.put cid (ss'.addSubscription e).1 } : Broker).Indexed :=
      r.indexed.of_same rfl rfl rfl
    exact (put.insertSubscription (r.keyed cid ss found).2).of_same rfl rfl rfl
  rw [subscriptionOf_subscribe done] at ht
  split at ht
  next hh => exact hh.1 ▸ hv
  · exact r.accepted cid' f ht

lemma unsubscribe (r : b.Routable) (ha : b.UnsubscribesAlone (.unsubscribe cid filter))
    (done : b.unsubscribe cid filter = some (b', existed)) : b'.Routable := by
  obtain ⟨ss, found, -, -, he, -⟩ := unsubscribe_spec done
  refine ⟨r.toConsistent.unsubscribe ha done, ?_, fun cid' f' ht => ?_, cached_of_empty he⟩
  · rw [Broker.unsubscribe, Option.map_eq_some_iff] at done
    obtain ⟨ss', -, done⟩ := done
    cases done
    have put : ({ b with sessions := b.sessions.put cid (ss'.removeSubscription filter).1 } : Broker).Indexed :=
      r.indexed.of_same rfl rfl rfl
    exact put.eraseSubscription.of_same rfl rfl rfl
  rw [subscriptionOf_unsubscribe done] at ht
  split at ht
  · cases ht
  · exact r.accepted cid' f' ht

lemma loadPersistence (lim : Nat) {vs : List SessionState} (now : Int) (hg : acceptedFilters vs = true) :
    (loadPersistence lim vs now).Routable := by
  have hk := loadPersistence_keyed lim vs now
  have he : (Broker.loadPersistence lim vs now).routeCache = .empty := by
    rw [Broker.loadPersistence]
    have hs (l : List (Bytes × SessionState)) (b : Broker) :
        (l.foldl (fun b r => b.insertSubscriptions r.2) b).routeCache = b.routeCache := by
      induction l generalizing b with
      | nil => rfl
      | cons s l ih => exact (ih _).trans (frame_insertSubscriptions b s.2).1
    exact hs _ _
  refine ⟨.loadPersistence lim vs now, ?_, fun cid f ht => ?_, cached_of_empty he⟩
  · have hn : ∀ s ∈ (Broker.loadPersistence lim vs now).sessions.records, s.2.clientId ≠ [] := by
      intro s hm
      obtain ⟨id, hn, -⟩ := hk s.1 s.2 (SortedMap.get_of_mem hm)
      exact id ▸ hn
    rw [sessions_loadPersistence] at hn
    exact (Indexed.fresh lim _).foldl_insertSubscriptions _ hn
  rw [subscriptionOf, Option.isSome_iff_exists] at ht
  obtain ⟨e, ht⟩ := ht
  obtain ⟨ss, found, sub⟩ := Option.bind_eq_some_iff.mp ht
  obtain ⟨-, -, v, hl, hs⟩ := hk cid ss found
  rw [acceptedFilters, all_eq_true] at hg
  have all := all_eq_true.mp (hg v hl) (f, e)
  exact all (hs ▸ SortedMap.get_eq_some_iff.mp sub)

/-- A session is replaced by one with the same subscriptions. -/
lemma goOffline (r : b.Routable) (found : b.sessions.get cid = some ss) :
    ({ b with sessions := b.sessions.put cid (ss.goOffline now) } : Broker).Routable := by
  refine ⟨r.put_session found rfl rfl, r.indexed.of_same rfl rfl rfl, fun cid' f ht => ?_, r.cached⟩
  refine r.accepted cid' f ?_
  rw [subscriptionOf_put rfl] at ht
  split at ht
  next hh =>
    rw [← hh, subscriptionOf, found]
    exact ht
  · exact ht

lemma publish (r : b.Routable) (qos : Qos) : (b.routeTargets topic qos snd).2.Routable := by
  rw [routeTargets]
  split
  · split
    next set =>
      have ha : ({ b with sharedStore := (b.sharedStore.findMatchingGroups topic b.sessionOnline).2 } : Broker).Consistent := by
        refine ⟨r.keyed, r.agrees.1, fun cid' share f' hs => ?_⟩
        rw [isMember_findMatchingGroups]
        exact r.agrees.2 cid' share f' hs
      refine ⟨ha, ⟨r.indexed.only, r.indexed.groups.findMatchingGroups, fun hu => ?_⟩, r.accepted, fun hu => ?_⟩
      · exact absurd set (by simp [show b.sharedSubscriptionsPresent = false from hu])
      · exact absurd set (by simp [show b.sharedSubscriptionsPresent = false from hu])
    refine ⟨r.of_same rfl rfl rfl, r.indexed.of_same rfl rfl rfl, r.accepted, fun hu topic' found hh record hm => ?_⟩
    rw [SortedMap.get_put] at hh
    split at hh
    next this =>
      cases hh
      subst this
      have hp : ((collectTargets snd (b.subMap.matching topic)).get record.1).isSome := by
        rw [show (collectTargets snd (b.subMap.matching topic)).get record.1 = some record.2 from SortedMap.get_of_mem hm]
        rfl
      obtain ⟨match', hi, hb, -⟩ := isSome_collectTargets.mp hp
      obtain ⟨f, hf, ht⟩ := r.mem_matching.mp hi
      refine ⟨f, hf, ?_⟩
      rw [← hb]
      exact Option.isSome_iff_exists.mpr ⟨_, ht⟩
    · exact r.cached hu topic' found hh record hm
  · exact r

lemma step (r : b.Routable) (ha : b.UnsubscribesAlone call) (ht : b.step call = some b') : b'.Routable :=
  step_rule Routable ht r (fun _ now hn => r.connectState now hn)
    (fun _ => ⟨r.of_same rfl rfl rfl, r.indexed.of_same rfl rfl rfl, r.accepted, cached_of_empty rfl⟩)
    (fun _ hv done => r.subscribe hv done) (fun hc done => r.unsubscribe (hc ▸ ha) done) (fun _ found => r.goOffline found)
    (fun cid r => r.removeSession cid) (fun _ hg => loadPersistence _ _ hg) fun _ => r.publish _

lemma fresh (lim : Nat) : ({ maxOfflineQueue := lim } : Broker).Routable := by
  refine ⟨.fresh lim, .fresh lim .empty, ?_, cached_of_empty rfl⟩
  rintro cid f ⟨⟩

variable (r : b.Routable)

include r

/-- Without the flag there are no shared subscriptions. -/
lemma not_inGroup (hu : b.sharedSubscriptionsPresent = false) (hs : Shareable shareName filter) :
    ¬ b.InGroup shareName filter cid := by
  intro hi
  obtain ⟨g, found, -⟩ := (r.agrees.2 cid shareName filter hs).mpr hi
  rw [r.indexed.flagged hu] at found
  cases found

lemma inGroup_of_selects (hs : Shareable shareName filter) (he : b.Selects shareName filter cid) :
    b.InGroup shareName filter cid :=
  (r.agrees.2 cid shareName filter hs).mp (he.isMember r.indexed.groups)

/-- What is in the trie comes from a subscription of its own or a shared one. -/
lemma hasPlain_or_inGroup (hf : topicMatches f topic = true) (ht : (b.subMap.entryOf f cid).isSome) :
    b.HasPlain topic cid ∨ ∃ share, Shareable share f ∧ b.InGroup share f cid := by
  obtain ⟨whole, sub, rfl⟩ := (r.agrees.1 cid f).mp ht
  rcases plain_or_shared whole with hp | ⟨share, f, hs, rfl⟩
  · rw [hp] at hf
    exact .inl ⟨whole, sub, hp, hf⟩
  · rw [extractTopicFilter_sharedFilter hs]
    exact .inr ⟨share, hs, sub⟩

lemma entryOf_of_inGroup (hs : Shareable shareName filter)
    (hi : b.InGroup shareName filter cid) : (b.subMap.entryOf filter cid).isSome :=
  (r.agrees.1 cid filter).mpr ⟨_, hi, extractTopicFilter_sharedFilter hs⟩

/-- Without the flag every target has a subscription of its own. -/
lemma hasPlain_of_unset (hu : b.sharedSubscriptionsPresent = false)
    (ht : ((b.routeTargets topic qos snd).1.get cid).isSome) : b.HasPlain topic cid := by
  have found : ∃ f, topicMatches f topic = true ∧ (b.subMap.entryOf f cid).isSome := by
    rw [routeTargets] at ht
    split at ht
    · rw [hu] at ht
      obtain ⟨q, hm, rfl, -⟩ := isSome_collectTargets.mp ht
      obtain ⟨f, hf, hh⟩ := r.mem_matching.mp hm
      exact ⟨f, hf, Option.isSome_iff_exists.mpr ⟨_, hh⟩⟩
    rw [cachedTargets, hu] at ht
    cases hc : b.routeCache.get topic with
    | none =>
      rw [hc] at ht
      cases ht
    | some found =>
      rw [hc] at ht
      obtain ⟨q, hm, rfl, -⟩ := isSome_collectTargets.mp ht
      exact r.cached hu topic found hc q hm
  obtain ⟨f, hf, hh⟩ := found
  rcases r.hasPlain_or_inGroup hf hh with hp | ⟨share, hs, hi⟩
  · exact hp
  · exact absurd hi (r.not_inGroup hu hs)

/-- With it, the targets are those of the trie and those selected. -/
lemma isSome_routeTargets (set : b.sharedSubscriptionsPresent = true) : ((b.routeTargets topic qos snd).1.get cid).isSome ↔
      (∃ f, topicMatches f topic = true ∧ (b.subMap.entryOf f cid).isSome ∧
        (cid = snd → b.Echoed topic snd)) ∨ (cid ≠ snd ∧ b.Selected topic cid) := by
  have none : b.cachedTargets topic snd = .empty := by rw [cachedTargets, if_pos set]
  rw [routeTargets, none, if_pos (by rfl)]
  rw [if_pos set, isSome_addSharedTargets, isSome_collectTargets]
  refine or_congr ?_ (and_congr_right fun _ => ?_)
  · constructor
    · rintro ⟨q, hm, rfl, hh⟩
      obtain ⟨f, hf, ht⟩ := r.mem_matching.mp hm
      exact ⟨f, hf, Option.isSome_iff_exists.mpr ⟨_, ht⟩, fun own => ⟨q, hm, own, hh own⟩⟩
    rintro ⟨f, hf, ht, hh⟩
    by_cases own : cid = snd
    · obtain ⟨q, hm, hs, ho⟩ := hh own
      exact ⟨q, hm, hs.trans own.symm, fun _ => ho⟩
    · obtain ⟨e, ht⟩ := Option.isSome_iff_exists.mp ht
      exact ⟨(cid, e), r.mem_matching.mpr ⟨f, hf, ht⟩, rfl, fun hs => absurd hs own⟩
  · simp only [mem_findMatchingGroups r.indexed.groups]
    exact exists_comm

lemma membersApart_of_deliversOnce (set : b.sharedSubscriptionsPresent = true)
    (ho : b.DeliversOnce topic (b.routeTargets topic qos s).1) : b.MembersApart topic s := by
  refine ⟨?_, fun share f cid hs hf hi hh => ?_⟩
  · rintro ⟨share, f, hs, hf, he⟩
    obtain ⟨cid, hl, -, ht⟩ := ho.selected share f hs hf ⟨s, r.inGroup_of_selects hs he⟩
    obtain ⟨g, found, rfl⟩ := he
    obtain ⟨group', ha, rfl⟩ := hl
    obtain rfl : group' = g := Option.some.inj (ha.symm.trans found)
    rcases (r.isSome_routeTargets set).mp ht with ⟨-, -, -, hh⟩ | ⟨hb, -⟩
    · exact hh rfl
    · exact absurd rfl hb
  · refine ho.others cid ((r.isSome_routeTargets set).mpr (.inl ⟨f, hf, ?_, hh⟩))
    exact r.entryOf_of_inGroup hs hi

lemma deliversOnce_of_membersApart (set : b.sharedSubscriptionsPresent = true)
    (ha : b.MembersApart topic snd) : b.DeliversOnce topic (b.routeTargets topic qos snd).1 := by
  refine ⟨fun share f hs hf hn => ?_, fun cid ht => ?_⟩
  · obtain ⟨member, hi⟩ := hn
    obtain ⟨g, found, -⟩ := (r.agrees.2 member share f hs).mpr hi
    have he : b.Selects share f (g.selectOnlineTarget b.sessionOnline).1 := ⟨g, found, rfl⟩
    refine ⟨_, he, r.inGroup_of_selects hs he, (r.isSome_routeTargets set).mpr ?_⟩
    by_cases own : (g.selectOnlineTarget b.sessionOnline).1 = snd
    · have hh := ha.own (own ▸ ⟨share, f, hs, hf, he⟩)
      exact .inl ⟨f, hf, r.entryOf_of_inGroup hs (r.inGroup_of_selects hs he), fun _ => hh⟩
    · exact .inr ⟨own, share, f, hs, hf, he⟩
  rcases (r.isSome_routeTargets set).mp ht with ⟨f, hf, hb, hh⟩ | ⟨-, he⟩
  · rcases r.hasPlain_or_inGroup hf hb with hp | ⟨share, hs, hi⟩
    · exact .inl hp
    · exact ha.members share f cid hs hf hi hh
  · exact .inr he

end Routable

/-- In every run in which nobody unsubscribes from one of several subscriptions with the same underlying filter, a
message is delivered as share groups ask for exactly when their members are apart. -/
theorem deliversOnce_iff {limit : Nat} (reached : Reached step UnsubscribesAlone { maxOfflineQueue := limit } b)
    (topic sender : Bytes) (qosValue : Qos) :
    b.DeliversOnce topic (b.routeTargets topic qosValue sender).1 ↔ b.MembersApart topic sender := by
  have r : b.Routable := reached.invariant Routable (.fresh limit) fun hb ha hc => hb.step ha hc
  cases hf : b.sharedSubscriptionsPresent with
  | false =>
    refine iff_of_true ⟨fun share f hs _ hn => ?_, fun cid ht => ?_⟩
      ⟨?_, fun share f cid hs _ hi => absurd hi (r.not_inGroup hf hs)⟩
    · obtain ⟨cid, hi⟩ := hn
      exact absurd hi (r.not_inGroup hf hs)
    · exact .inl (r.hasPlain_of_unset hf ht)
    · rintro ⟨share, f, hs, -, he⟩
      exact absurd (r.inGroup_of_selects hs he) (r.not_inGroup hf hs)
  | true => exact ⟨r.membersApart_of_deliversOnce hf, r.deliversOnce_of_membersApart hf⟩

/-- The clients are the members of a group for `t`. -/
def groupOf (clients : List String) : List BrokerCall :=
  clients.flatMap fun client => [.connectState { clientId := ascii client } 0,
    .subscribe (ascii client) { topicFilter := "$share/g/t" }]

/-- The clients that the groups of a broker select. -/
def selections (b : Broker) : List Bytes :=
  b.sharedStore.groups.records.map fun record => (record.2.selectOnlineTarget b.sessionOnline).1

lemma mem_selections (hs : b.Selected topic cid) : cid ∈ b.selections := by
  obtain ⟨share, f, -, -, g, found, rfl⟩ := hs
  exact mem_map.mpr ⟨(_, g), SortedMap.get_eq_some_iff.mp found, rfl⟩

/-- A group of two members, of which it selects the first and the second has a subscription of its own. -/
theorem deliversOnce_iff_two : ∃ b, Reached step UnsubscribesAlone {} b ∧
    b.InGroup "g" "t" "a" ∧ b.InGroup "g" "t" "c" ∧
    b.DeliversOnce "t" (b.routeTargets "t" .atMostOnce "d").1 := by
  obtain ⟨b, run, first, second, clients, selections, selected, plain⟩ : ∃ b, Reached step UnsubscribesAlone {} b ∧
      b.InGroup "g" "t" "a" ∧ b.InGroup "g" "t" "c" ∧
      b.sessions.records.map (·.1) = [ascii "a", ascii "c"] ∧ b.selections = [ascii "a"] ∧
      (b.sharedStore.groups.get (makeKey "g" "t")).map
        (fun group => (group.selectOnlineTarget b.sessionOnline).1) = some (ascii "a") ∧
      (b.subscriptionOf "c" "t").isSome = true :=
    ⟨_, .runChecked .start (groupOf ["a", "c"] ++ [.subscribe "c" { topicFilter := ascii "t" }]) rfl,
      by decide +kernel, by decide +kernel, by decide +kernel, by decide +kernel, by decide +kernel, by decide +kernel⟩
  refine ⟨b, run, first, second, (deliversOnce_iff run _ _ _).mpr ⟨fun sender => ?_, fun share filter cid _ _ member _ => ?_⟩⟩
  · have := mem_selections sender
    rw [selections] at this
    exact absurd this (by decide)
  obtain ⟨entry, found⟩ := Option.isSome_iff_exists.mp member
  obtain ⟨session, found, -⟩ := Option.bind_eq_some_iff.mp found
  have client : cid ∈ b.sessions.records.map (·.1) := mem_map.mpr ⟨_, SortedMap.get_eq_some_iff.mp found, rfl⟩
  rw [clients, mem_pair] at client
  rcases client with rfl | rfl
  · exact .inr ⟨ascii "g", ascii "t", by decide, by decide +kernel, Option.map_eq_some_iff.mp selected⟩
  · exact .inl ⟨ascii "t", plain, by decide, by decide +kernel⟩

/-- Both members of a group get the message, though it selects only one of them. -/
theorem group_delivers_twice : ∃ b, Reached step (fun _ _ => True) {} b ∧
    (b.routeTargets "t" .atMostOnce "d").1.records.map (·.1) = [ascii "a", ascii "c"] ∧
    ¬ b.DeliversOnce "t" (b.routeTargets "t" .atMostOnce "d").1 := by
  obtain ⟨b, run, ht, ha, hc, hf⟩ : ∃ b, Reached step (fun _ _ => True) {} b ∧
      (b.routeTargets "t" .atMostOnce "d").1.records.map (·.1) = [ascii "a", ascii "c"] ∧
      ((b.routeTargets "t" .atMostOnce "d").1.get "c").isSome ∧
      b.selections = [ascii "a"] ∧ b.filtersOf "c" = [ascii "$share/g/t"] :=
    ⟨_, .runChecked .start (groupOf ["a", "c"]) rfl, by decide +kernel, by decide +kernel, by decide +kernel, by decide +kernel⟩
  refine ⟨b, run, ht, fun ho => ?_⟩
  rcases ho.others "c" ha with ⟨whole, sub, hp, -⟩ | hs
  · have hl := mem_filtersOf.mpr sub
    rw [hf, mem_singleton] at hl
    rw [hl] at hp
    exact absurd hp (by decide +kernel)
  have := mem_selections hs
  rw [hc] at this
  exact absurd this (by decide)

end Cnetmod.Mqtt.Broker
