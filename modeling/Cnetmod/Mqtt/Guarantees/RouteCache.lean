import Cnetmod.Mqtt.Guarantees.SubscriptionIndex

/-!
# Routing and the route cache

The cache keeps the targets of the publish that filled it, without the sender's own
subscription when that has `no_local`. As long as no publisher has such a subscription
to its topic, what the cache gives is what the trie gives.
-/
namespace Cnetmod.Mqtt.Broker

open List Option

open Coding (Bytes SortedMap)
open Consensus (Reached)
open Coding.SortedMap SubscriptionMap

variable {b b' : Broker} {cid cid' filter f' sender topic : Bytes} {ss : SessionState}
  {found : List (Bytes × SubscribeEntry)}

/-- The targets computed from the trie. -/
def freshTargets (b : Broker) (topic sender : Bytes) : SortedMap Bytes SubscribeEntry :=
  collectTargets sender (b.subMap.matching topic)

/-- The filter is not a shared one. -/
def Plain (filter : Bytes) : Prop := extractTopicFilter filter = filter

instance (filter : Bytes) : Decidable (Plain filter) := inferInstanceAs (Decidable (_ = _))

/-- No shared subscriptions come in. -/
def WithoutShared : BrokerCall → Prop
  | .subscribe _ entry => Plain entry.topicFilter
  | .restart values _ => ∀ ss ∈ values, ∀ record ∈ ss.subscriptions.records, Plain record.1
  | _ => True

/-- None of the sender's own subscriptions to the topic has `no_local`. -/
def HearsItself (b : Broker) (topic sender : Bytes) : Prop :=
  ∀ record ∈ b.subMap.matching topic, record.1 = sender → record.2.noLocal = false

def PublisherHearsItself (b : Broker) : BrokerCall → Prop
  | .publish topic _ sender => b.HearsItself topic sender
  | _ => True

instance : (call : BrokerCall) → Decidable (WithoutShared call)
  | .subscribe _ _ => inferInstanceAs (Decidable (Plain _))
  | .restart _ _ => inferInstanceAs (Decidable (∀ _ ∈ _, ∀ _ ∈ _, _))
  | .connectState _ _ | .connectRegister _ _ | .unsubscribe _ _ | .cleanupOffline _ _ | .cleanupUnregister _
  | .cleanupRemove _ | .expire _ | .publish _ _ _ => inferInstanceAs (Decidable True)

instance (b : Broker) (topic sender : Bytes) : Decidable (b.HearsItself topic sender) :=
  inferInstanceAs (Decidable (∀ _ ∈ _, _))

instance (b : Broker) : (call : BrokerCall) → Decidable (b.PublisherHearsItself call)
  | .publish _ _ _ => inferInstanceAs (Decidable (HearsItself _ _ _))
  | .connectState _ _ | .connectRegister _ _ | .subscribe _ _ | .unsubscribe _ _ | .cleanupOffline _ _
  | .cleanupUnregister _ | .cleanupRemove _ | .expire _ | .restart _ _ => inferInstanceAs (Decidable True)

/-- The first entry of each client. -/
def firstEntries (found : List (Bytes × SubscribeEntry)) : SortedMap Bytes SubscribeEntry :=
  found.foldl (fun targets record => targets.tryEmplace record.1 record.2) .empty

lemma collectTargets_eq_firstEntries (hh : ∀ r ∈ found, r.1 = sender → r.2.noLocal = false) :
    collectTargets sender found = firstEntries found := by
  refine foldl_ext _ _ _ fun ts r hm => if_pos ?_
  by_cases own : r.1 = sender
  · exact .inr (hh r hm own)
  · exact .inl own

lemma firstEntries_concat (found : List (Bytes × SubscribeEntry)) (r : Bytes × SubscribeEntry) :
    firstEntries (found ++ [r]) = (firstEntries found).tryEmplace r.1 r.2 := by
  rw [firstEntries, foldl_append]
  rfl

lemma mem_of_mem_firstEntries (hm : r ∈ (firstEntries found).records) : r ∈ found := by
  induction found using reverseRecOn with
  | nil => cases hm
  | append_singleton found last ih =>
    rw [firstEntries_concat, tryEmplace] at hm
    split at hm
    · exact mem_append_left _ (ih hm)
    obtain ⟨key, v⟩ := r
    rcases mem_put.mp hm with ⟨rfl, rfl⟩ | ⟨-, old⟩
    · simp
    · exact mem_append_left _ (ih old)

/-- Entries in order, one for each client, are kept as they are. -/
lemma records_firstEntries (hs : found.Pairwise (·.1 < ·.1)) : (firstEntries found).records = found := by
  induction found using reverseRecOn with
  | nil => rfl
  | append_singleton found last ih =>
    obtain ⟨hr, -, hb⟩ := pairwise_append.mp hs
    have hl : ∀ r ∈ found, r.1 < last.1 := fun r hm => hb r hm last (by simp)
    have ha := ih hr
    have hc : (firstEntries found).get last.1 = none := get_of_not_mem (ha.symm ▸ fun r hm => (hl r hm).ne)
    have hp : (firstEntries found).records = found ++ [] ++ [] := by simpa using ha
    rw [firstEntries_concat, tryEmplace, hc, if_neg (by simp), records_put last.2 hp hl (by simp) (by simp)]

lemma firstEntries_records (ts : SortedMap Bytes SubscribeEntry) : firstEntries ts.records = ts :=
  SortedMap.ext (records_firstEntries ts.sorted)

structure CacheValid (b : Broker) : Prop where
  unshared : b.sharedSubscriptionsPresent = false
  keyed : b.Keyed
  plain : ∀ cid filter, (b.subscriptionOf cid filter).isSome → Plain filter
  entries : ∀ cid filter, b.subMap.entryOf filter cid = b.subscriptionOf cid filter
  cached : ∀ topic found, b.routeCache.get topic = some found → found = (firstEntries (b.subMap.matching topic)).records

lemma insertSubscription_plain (hp : Plain filter) :
    b.insertSubscription cid filter e = { b with subMap := b.subMap.insert filter cid e } := by
  obtain ⟨-, -, ha, -⟩ | ⟨share, f', hs, rfl, -⟩ := b.subscription_cases cid filter
  · exact ha e
  have := congrArg length ((extractTopicFilter_sharedFilter hs).symm.trans hp)
  simp only [sharedFilter, length_append, length_cons] at this
  omega

lemma eraseSubscription_same (cid f : Bytes) :
    (b.eraseSubscription cid f).sharedSubscriptionsPresent = b.sharedSubscriptionsPresent := by
  obtain ⟨-, -, -, hs⟩ | ⟨_, _, -, -, -, hs⟩ := b.subscription_cases cid f <;> rw [hs]

/-- Subscriptions that are in the trie are put there again. -/
lemma foldl_insertSubscription_same (l : List (Bytes × SubscribeEntry)) (hp : ∀ q ∈ l, Plain q.1)
    (ht : ∀ q ∈ l, b.subMap.entryOf q.1 cid = some q.2) : l.foldl (fun b q => b.insertSubscription cid q.1 q.2) b = b := by
  induction l with
  | nil => rfl
  | cons q l ih =>
    have hs : b.insertSubscription cid q.1 q.2 = b := by
      rw [insertSubscription_plain (hp q (by simp)), insert_eq_self (ht q (by simp))]
    rw [foldl_cons, hs]
    exact ih (fun r hm => hp r (by simp [hm])) fun r hm => ht r (by simp [hm])

/-- What subscriptions of one client, each to a filter of its own, put into the trie. -/
lemma foldl_insertSubscription_plain (l : List (Bytes × SubscribeEntry)) (b : Broker) (cid : Bytes)
    (hp : ∀ q ∈ l, Plain q.1) (he : l.Pairwise (·.1 < ·.1)) : let after := l.foldl (fun b q => b.insertSubscription cid q.1 q.2) b
    after.sharedSubscriptionsPresent = b.sharedSubscriptionsPresent ∧ after.routeCache = b.routeCache ∧
    after.sessions = b.sessions ∧
    (∀ q ∈ l, after.subMap.entryOf q.1 cid = some q.2) ∧
    ∀ cid' f', (cid ≠ cid' ∨ ∀ q ∈ l, q.1 ≠ f') → after.subMap.entryOf f' cid' = b.subMap.entryOf f' cid' := by
  induction l using reverseRecOn with
  | nil => simp
  | append_singleton l last ih =>
    obtain ⟨hr, -, hb⟩ := pairwise_append.mp he
    obtain ⟨hf, hc, hs, own, ho⟩ := ih (fun r hm => hp r (by simp [hm])) hr
    rw [foldl_append, foldl_cons, foldl_nil, insertSubscription_plain (hp last (by simp))]
    refine ⟨hf, hc, hs, fun q hm => ?_, fun cid' f' ha => ?_⟩
    · rw [entryOf_insert]
      rcases mem_append.mp hm with old | new
      · rw [if_neg fun hg => (hb q old last (by simp)).ne hg.1.symm]
        exact own q old
      · obtain rfl := mem_singleton.mp new
        exact if_pos ⟨rfl, rfl⟩
    rw [entryOf_insert, if_neg]
    · exact ho cid' f' (ha.imp_right fun none r hm => none r (by simp [hm]))
    rintro ⟨rfl, rfl⟩
    rcases ha with hot | none
    · exact hot rfl
    · exact none last (by simp) rfl

namespace CacheValid

section

variable (c : b.CacheValid)

include c

/-- The subscriptions and the trie stay, and the cache stays or is emptied. -/
lemma of_same (hf : b'.sharedSubscriptionsPresent = b.sharedSubscriptionsPresent) (hk : b'.Keyed)
    (hu : ∀ cid f, b'.subscriptionOf cid f = b.subscriptionOf cid f) (hs : b'.subMap = b.subMap)
    (hc : b'.routeCache = b.routeCache ∨ b'.routeCache = .empty) : b'.CacheValid := by
  refine ⟨hf.trans c.unshared, hk, fun cid f => ?_, fun cid f => ?_, fun t found hh => ?_⟩
  · rw [hu]
    exact c.plain cid f
  · rw [hu, hs]
    exact c.entries cid f
  rcases hc with hsa | he
  · rw [hs]
    exact c.cached t found (hsa ▸ hh)
  · rw [he] at hh
    cases hh

/-- Subscriptions of one client change in its session and in the trie alike, and the cache is emptied. -/
lemma of_changed (hf : b'.sharedSubscriptionsPresent = b.sharedSubscriptionsPresent) (hk : b'.Keyed)
    (hp : ∀ cid filter, (b'.subscriptionOf cid filter).isSome → Plain filter)
    (he : ∀ cid filter, b'.subMap.entryOf filter cid = b'.subscriptionOf cid filter)
    (hc : b'.routeCache = .empty) : b'.CacheValid := by
  refine ⟨hf.trans c.unshared, hk, hp, he, fun t found hh => ?_⟩
  rw [hc] at hh
  cases hh

lemma subscribe (hp : Plain e.topicFilter) (done : b.subscribe cid e = some (b', isNew)) : b'.CacheValid := by
  have own := subscriptionOf_subscribe done
  obtain ⟨ss, found, hs, hu, hc, -⟩ := subscribe_spec done
  have hf : b'.sharedSubscriptionsPresent = b.sharedSubscriptionsPresent := by
    rw [Broker.subscribe, map_eq_some_iff] at done
    obtain ⟨ss, -, done⟩ := done
    dsimp only at done
    rw [insertSubscription_plain hp] at done
    cases done
    rfl
  obtain ⟨id, hn⟩ := c.keyed cid ss found
  refine c.of_changed hf (c.keyed.put hs hn id) (fun cid' f' some => ?_) (fun cid' f' => ?_) hc
  · rw [own] at some
    split at some
    next hh => exact hh.1 ▸ hp
    · exact c.plain cid' f' some
  · rw [own, hu, hp, entryOf_insert, c.entries]

lemma unsubscribe (ha : b.UnsubscribesAlone (.unsubscribe cid filter))
    (done : b.unsubscribe cid filter = some (b', existed)) : b'.CacheValid := by
  have own := subscriptionOf_unsubscribe done
  obtain ⟨ss, found, hs, he, hc, -⟩ := unsubscribe_spec done
  have hf : b'.sharedSubscriptionsPresent = b.sharedSubscriptionsPresent := by
    rw [Broker.unsubscribe, map_eq_some_iff] at done
    obtain ⟨ss, -, done⟩ := done
    cases done
    exact eraseSubscription_same cid filter
  obtain ⟨id, hn⟩ := c.keyed cid ss found
  refine c.of_changed hf (c.keyed.put hs hn id) (fun cid' f' some => ?_) (fun cid' f' => ?_) hc
  · rw [own] at some
    split at some
    · cases some
    · exact c.plain cid' f' some
  rw [own, he, entryOf_erase, c.entries]
  cases ht : b.subscriptionOf cid' f' with
  | none => rw [ite_self, ite_self]
  | some e =>
    -- The session has only plain filters, and this one only if it is the one that goes.
    have hp : Plain f' := c.plain cid' f' (by rw [ht]; rfl)
    by_cases hh : cid = cid'
    · subst hh
      have hg : extractTopicFilter filter = f' ↔ filter = f' := by
        constructor
        · intro hu
          exact (ha f' (mem_filtersOf.mpr (by rw [ht]; rfl)) (hp.trans hu.symm)).symm
        · rintro rfl
          exact hp
      simp only [hg]
    · rw [if_neg fun hb => hh hb.2, if_neg fun hb => hh hb.2]

lemma removeSession (cid : Bytes) : (b.removeSession cid).CacheValid := by
  have own := b.subscriptionOf_removeSession cid
  refine c.of_changed rfl (c.keyed.removeSession cid) (fun cid' f' some => ?_) (fun cid' f' => ?_) rfl
  · rw [own] at some
    split at some
    · cases some
    · exact c.plain cid' f' some
  · rw [own, ← c.entries]
    exact entryOf_eraseClient

lemma connectState (now : Int) (hn : cd.clientId ≠ []) : (b.connectState cd now).1.CacheValid := by
  obtain ⟨ss, id, ⟨hb, hs⟩ | ⟨hb, hc, hs⟩ | ⟨old, found, ha, hs⟩⟩ := connectState_cases c.keyed cd now
  · have own (cid' f' : Bytes) : (b.connectState cd now).1.subscriptionOf cid' f' =
        if cd.clientId = cid' then none else b.subscriptionOf cid' f' := by
      rw [hs, subscriptionOf_put rfl, hb]
      rfl
    refine c.of_changed (by rw [hs]; rfl) (c.keyed.put (by rw [hs]; rfl) hn id) (fun cid' f' some => ?_)
      (fun cid' f' => ?_) (by rw [hs]; rfl)
    · rw [own] at some
      split at some
      · cases some
      · exact c.plain cid' f' some
    · rw [own, ← c.entries, hs]
      exact entryOf_eraseClient
  · rw [hs]
    refine c.of_same rfl (c.keyed.put rfl hn id) (fun cid' f' => ?_) rfl (.inl rfl)
    rw [subscriptionOf_put rfl]
    split
    next hh =>
      rw [← hh, subscriptionOf, hc, hb]
      rfl
    · rfl
  · -- Each subscription of the session is in the trie already.
    have hu : (b.connectState cd now).1 = { b with sessions := b.sessions.put cd.clientId ss } := by
      rw [hs, insertSubscriptions, id, ha]
      have sub {r : Bytes × SubscribeEntry} (hm : r ∈ old.subscriptions.records) :
          b.subscriptionOf cd.clientId r.1 = some r.2 := by
        rw [subscriptionOf, found]
        exact get_of_mem hm
      refine foldl_insertSubscription_same _ (fun r hm => ?_) fun r hm => ?_
      · exact c.plain cd.clientId r.1 (by rw [sub hm]; rfl)
      · exact (c.entries _ _).trans (sub hm)
    rw [hu]
    refine c.of_same rfl (c.keyed.put rfl hn id) (fun cid' f' => ?_) rfl (.inl rfl)
    rw [subscriptionOf_put rfl]
    split
    next hh => rw [← hh, subscriptionOf, found, bind_some, ha]
    · rfl

end

/-- What sessions of different clients put into the trie. -/
lemma foldl_insertSubscriptions_plain (l : List (Bytes × SessionState)) (b : Broker)
    (hp : ∀ ss ∈ l, ∀ q ∈ ss.2.subscriptions.records, Plain q.1)
    (hk : ∀ ss ∈ l, ss.2.clientId = ss.1) (hg : l.Pairwise (·.1 < ·.1)) :
    let after := l.foldl (fun b q => b.insertSubscriptions q.2) b
    after.sharedSubscriptionsPresent = b.sharedSubscriptionsPresent ∧ after.routeCache = b.routeCache ∧
    after.sessions = b.sessions ∧
    (∀ ss ∈ l, ∀ q ∈ ss.2.subscriptions.records, after.subMap.entryOf q.1 ss.1 = some q.2) ∧
    ∀ cid' f', (∀ ss ∈ l, ss.1 = cid' → ss.2.subscriptions.get f' = none) →
      after.subMap.entryOf f' cid' = b.subMap.entryOf f' cid' := by
  induction l using reverseRecOn with
  | nil => simp
  | append_singleton l last ih =>
    obtain ⟨hr, -, hb⟩ := pairwise_append.mp hg
    obtain ⟨hf, hc, hs, own, ht⟩ := ih (fun r hm => hp r (by simp [hm])) (fun r hm => hk r (by simp [hm])) hr
    rw [foldl_append, foldl_cons, insertSubscriptions, hk last (by simp)]
    generalize l.foldl (fun b q => b.insertSubscriptions q.2) b = before at hf hc hs own ht ⊢
    obtain ⟨hl, hj, hn, hw, ho⟩ := foldl_insertSubscription_plain last.2.subscriptions.records before
      last.1 (hp last (by simp)) last.2.subscriptions.sorted
    refine ⟨hl.trans hf, hj.trans hc, hn.trans hs, fun ss hm q hi => ?_, fun cid' f' he => ?_⟩
    · rcases mem_append.mp hm with old | new
      · have ha := (hb ss old last (by simp)).ne
        exact (ho ss.1 q.1 (.inl ha.symm)).trans (own ss old q hi)
      · obtain rfl := mem_singleton.mp new
        exact hw q hi
    refine (ho cid' f' ?_).trans (ht cid' f' fun s hm => he s (by simp [hm]))
    by_cases hh : last.1 = cid'
    · right
      rintro q hi rfl
      have := get_of_mem (m := last.2.subscriptions) hi
      rw [he last (by simp) hh] at this
      cases this
    · exact .inl hh

lemma loadPersistence (lim : Nat) {vs : List SessionState} (now : Int)
    (hu : WithoutShared (.restart vs now)) : (loadPersistence lim vs now).CacheValid := by
  have hk := loadPersistence_keyed lim vs now
  rw [sessions_loadPersistence] at hk
  rw [Broker.loadPersistence]
  generalize (loadSessions vs).mapValues _ = store at hk ⊢
  have hp (s : Bytes × SessionState) (hm : s ∈ store.records)
      (r : Bytes × SubscribeEntry) (hi : r ∈ s.2.subscriptions.records) : Plain r.1 := by
    obtain ⟨-, -, v, hl, ha⟩ := hk s.1 s.2 (get_of_mem hm)
    exact hu v hl r (ha ▸ hi)
  obtain ⟨hf, hc, hs, own, ho⟩ := foldl_insertSubscriptions_plain store.records
    ({ maxOfflineQueue := lim, sessions := store } : Broker) hp
    (fun s hm => (hk s.1 s.2 (get_of_mem hm)).1) store.sorted
  refine ⟨hf, fun cid ss found => ?_, fun cid f some => ?_, fun cid f => ?_, fun t found hh => ?_⟩
  · rw [hs] at found
    obtain ⟨id, hn, -⟩ := hk cid ss found
    exact ⟨id, hn⟩
  · rw [subscriptionOf, hs, isSome_iff_exists] at some
    obtain ⟨e, hh⟩ := some
    obtain ⟨ss, found, sub⟩ := bind_eq_some_iff.mp hh
    exact hp (cid, ss) (get_eq_some_iff.mp found) (f, e) (get_eq_some_iff.mp sub)
  · rw [subscriptionOf, hs]
    cases ht : (store.get cid).bind (·.subscriptions.get f) with
    | none =>
      refine (ho cid f ?_).trans entryOf_new
      rintro s hm rfl
      rwa [show store.get s.1 = some s.2 from get_of_mem hm] at ht
    | some e =>
      obtain ⟨ss, found, sub⟩ := bind_eq_some_iff.mp ht
      exact own (cid, ss) (get_eq_some_iff.mp found) (f, e) (get_eq_some_iff.mp sub)
  · rw [hc] at hh
    cases hh

lemma cachedTargets_eq (c : b.CacheValid) (hh : b.HearsItself topic sender) :
    b.cachedTargets topic sender = b.freshTargets topic sender ∨ b.cachedTargets topic sender = .empty := by
  rw [cachedTargets, c.unshared, if_neg (by simp)]
  cases ht : b.routeCache.get topic with
  | none => exact .inr rfl
  | some found =>
    left
    have hs := c.cached topic found ht
    dsimp only
    rw [freshTargets, collectTargets_eq_firstEntries hh, collectTargets_eq_firstEntries, hs, firstEntries_records]
    intro r hm
    exact hh r (mem_of_mem_firstEntries (hs ▸ hm))

lemma routeTargets_eq (c : b.CacheValid) (hh : b.HearsItself topic sender) (qos : Qos) :
    (b.routeTargets topic qos sender).1 = b.freshTargets topic sender := by
  rw [routeTargets]
  split
  · rw [c.unshared]
    rfl
  rename_i hp
  rcases c.cachedTargets_eq hh with hs | he
  · exact hs
  · rw [he] at hp
    exact absurd rfl hp

lemma publish (c : b.CacheValid) (he : b.HearsItself topic sender) (qos : Qos) :
    (b.routeTargets topic qos sender).2.CacheValid := by
  rw [routeTargets]
  split
  · rw [c.unshared, if_neg (by simp)]
    refine ⟨rfl, c.keyed, c.plain, c.entries, fun topic' found hh => ?_⟩
    rw [get_put] at hh
    split at hh
    next this =>
      cases hh
      subst this
      rw [collectTargets_eq_firstEntries he]
    · exact c.cached topic' found hh
  · exact c

lemma step (c : b.CacheValid) (hu : WithoutShared call) (ha : b.UnsubscribesAlone call)
    (hh : b.PublisherHearsItself call) (ht : b.step call = some b') : b'.CacheValid := by
  refine step_rule CacheValid ht c (fun _ now hn => c.connectState now hn)
    (fun _ => c.of_same rfl c.keyed (fun _ _ => rfl) rfl (.inr rfl)) (fun hc _ done => c.subscribe (by rwa [hc] at hu) done)
    (fun hc done => c.unsubscribe (hc ▸ ha) done) (fun {clientId ss} now found => ?_) (fun cid c => c.removeSession cid)
    (fun hc _ => loadPersistence _ _ (hc ▸ hu)) fun hc => c.publish (by rwa [hc] at hh) _
  obtain ⟨id, hn⟩ := c.keyed clientId ss found
  refine c.of_same rfl (c.keyed.put rfl hn id) (fun cid' f' => ?_) rfl (.inl rfl)
  rw [subscriptionOf_put rfl]
  split
  next he =>
    rw [← he, subscriptionOf, found]
    rfl
  · rfl

lemma fresh (lim : Nat) : ({ maxOfflineQueue := lim } : Broker).CacheValid := by
  refine ⟨rfl, ?_, ?_, fun cid f => entryOf_new, ?_⟩
  · rintro cid ss ⟨⟩
  · rintro cid f ⟨⟩
  · rintro t found ⟨⟩

end CacheValid

/-- A run without shared subscriptions, in which no publisher has a `no_local` subscription to its topic and
nobody unsubscribes from one of several subscriptions with the same underlying filter. -/
def CacheSafe (b : Broker) (call : BrokerCall) : Prop :=
  WithoutShared call ∧ b.UnsubscribesAlone call ∧ b.PublisherHearsItself call

instance (b : Broker) (call : BrokerCall) : Decidable (b.CacheSafe call) := inferInstanceAs (Decidable (_ ∧ _ ∧ _))

/-- In such a run a message goes to the clients the trie has for its topic. -/
theorem routeTargets_fresh {limit : Nat} (reached : Reached step CacheSafe { maxOfflineQueue := limit } b)
    (heard : b.HearsItself topic sender) (qosValue : Qos) :
    (b.routeTargets topic qosValue sender).1 = b.freshTargets topic sender := by
  have c : b.CacheValid := reached.invariant CacheValid (.fresh limit) fun hb hs ht =>
    hb.step hs.1 hs.2.1 hs.2.2 ht
  exact c.routeTargets_eq heard qosValue

/-- The clients `a` and `b` have subscriptions to `t`. -/
def twoSubscribers (noLocal : Bool) : List BrokerCall :=
  [.connectState { clientId := "a" } 0, .connectState { clientId := "b" } 0,
    .subscribe "a" { topicFilter := "t", noLocal }, .subscribe "b" { topicFilter := "t" }]

/-- Both get what `c` publishes after `a` has. -/
theorem routeTargets_fresh_both : ∃ b, Reached step CacheSafe {} b ∧ (b.routeCache.get "t").isSome ∧
    ((b.routeTargets "t" .atMostOnce "c").1.records.map (·.1)) = ["a", "b"] ∧
    (b.routeTargets "t" .atMostOnce "c").1 = b.freshTargets "t" "c" := by
  have run : Reached step CacheSafe {} _ :=
    .runChecked .start (twoSubscribers false ++ [.publish "t" .atMostOnce "a"]) rfl
  exact ⟨_, run, by decide +kernel, by decide +kernel, routeTargets_fresh run (by decide +kernel) .atMostOnce⟩

/-- With `no_local`, what `c` publishes after `a` goes to `b` only. -/
theorem cache_drops_target : ∃ b, Reached step (fun _ call => WithoutShared call) {} b ∧
    (b.freshTargets "t" "c").records.map (·.1) = ["a", "b"] ∧
    (b.routeTargets "t" .atMostOnce "c").1.records.map (·.1) = ["b"] := by
  have run : Reached step (fun _ call => WithoutShared call) {} _ :=
    .runChecked .start (twoSubscribers true ++ [.publish "t" .atMostOnce "a"]) rfl
  exact ⟨_, run, by decide +kernel, by decide +kernel⟩

end Cnetmod.Mqtt.Broker
