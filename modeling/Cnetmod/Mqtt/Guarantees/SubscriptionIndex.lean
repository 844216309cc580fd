import Cnetmod.Mqtt.Spec.BrokerRuns

/-!
# Indexes and sessions agree

The trie has a client under a filter when its session has the filter, alone or
shared, and the group store has it in a group when its session has the shared
filter. Unsubscribing takes the client out of the trie even when another of its
subscriptions has the same underlying filter.
-/
namespace Cnetmod.Mqtt.Broker

open SharedTargetStore SubscriptionMap
open Coding (Bytes SortedMap)
open Consensus (Reached)

variable {b b' : Broker} {cid cid' filter f' shareName : Bytes}

def Agrees (b : Broker) : Prop :=
  (∀ cid filter, (b.subMap.entryOf filter cid).isSome ↔
    ∃ whole, (b.subscriptionOf cid whole).isSome ∧ extractTopicFilter whole = filter) ∧
  ∀ cid shareName filter, Shareable shareName filter →
    (b.sharedStore.IsMember shareName filter cid ↔ (b.subscriptionOf cid (sharedFilter shareName filter)).isSome)

/-- What is unsubscribed from is the client's only subscription with that underlying filter. -/
def UnsubscribesAlone (b : Broker) : BrokerCall → Prop
  | .unsubscribe cid filter => ∀ other ∈ b.filtersOf cid,
      extractTopicFilter other = extractTopicFilter filter → other = filter
  | _ => True

instance (b : Broker) : (call : BrokerCall) → Decidable (b.UnsubscribesAlone call)
  | .unsubscribe _ _ => inferInstanceAs (Decidable (∀ _ ∈ _, _))
  | .connectState _ _ | .connectRegister _ _ | .subscribe _ _ | .cleanupOffline _ _ | .cleanupUnregister _
  | .cleanupRemove _ | .expire _ | .restart _ _ | .publish _ _ _ => inferInstanceAs (Decidable True)

structure Consistent (b : Broker) : Prop where
  keyed : b.Keyed
  agrees : b.Agrees

namespace Consistent

lemma of_same (c : b.Consistent) (hs : b'.sessions = b.sessions) (hu : b'.subMap = b.subMap)
    (hh : b'.sharedStore = b.sharedStore) : b'.Consistent := by
  obtain ⟨hk, ha⟩ := c
  refine ⟨by rwa [Keyed, hs], ?_⟩
  unfold Agrees subscriptionOf
  rw [hs, hu, hh]
  exact ha

/-- A session is replaced by one with the same subscriptions. -/
lemma put_session (c : b.Consistent) (hf : b.sessions.get cid = some ss)
    (id : ss'.clientId = ss.clientId) (hs : ss'.subscriptions = ss.subscriptions) :
    ({ b with sessions := b.sessions.put cid ss' } : Broker).Consistent := by
  have ha (cid' f : Bytes) :
      ({ b with sessions := b.sessions.put cid ss' } : Broker).subscriptionOf cid' f = b.subscriptionOf cid' f := by
    rw [subscriptionOf_put rfl]
    split
    next hh => rw [← hh, subscriptionOf, hf, Option.bind_some, hs]
    · rfl
  obtain ⟨own, hn⟩ := c.keyed cid ss hf
  refine ⟨c.keyed.put rfl hn (id.trans own), ?_⟩
  unfold Agrees
  simp only [ha]
  exact c.agrees

lemma subscribe (c : b.Consistent) (done : b.subscribe cid e = some (b', isNew)) : b'.Consistent := by
  obtain ⟨ss, hf, he, hu, -, hm⟩ := subscribe_spec done
  have own (cid' f' : Bytes) : (b'.subscriptionOf cid' f').isSome ↔
      (e.topicFilter = f' ∧ cid = cid') ∨ (b.subscriptionOf cid' f').isSome := by
    rw [subscriptionOf_subscribe done]
    split
    next hh => simp [hh]
    next ho => simp [ho]
  obtain ⟨id, hn⟩ := c.keyed cid ss hf
  refine ⟨c.keyed.put he hn id, fun cid' f' => ?_, fun cid' share f' hs => ?_⟩
  · rw [hu, entryOf_insert]
    simp only [own]
    constructor
    · intro ht
      split at ht
      next hh => exact ⟨e.topicFilter, .inl ⟨rfl, hh.2⟩, hh.1⟩
      · obtain ⟨whole, sub, ha⟩ := (c.agrees.1 cid' f').mp ht
        exact ⟨whole, .inr sub, ha⟩
    rintro ⟨whole, ⟨rfl, rfl⟩ | sub, ha⟩
    · rw [if_pos ⟨ha, rfl⟩]
      rfl
    split
    · rfl
    · exact (c.agrees.1 cid' f').mpr ⟨whole, sub, ha⟩
  · rw [hm _ _ _ hs, own]
    exact or_congr_right (c.agrees.2 cid' share f' hs)

variable {existed : Bool}

/-- What is left of the sessions' subscriptions. -/
lemma isSome_unsubscribed (done : b.unsubscribe cid filter = some (b', existed)) (cid' f' : Bytes) :
    (b'.subscriptionOf cid' f').isSome ↔ ¬ (filter = f' ∧ cid = cid') ∧ (b.subscriptionOf cid' f').isSome := by
  rw [subscriptionOf_unsubscribe done]
  split
  next hh => simp [hh]
  next ho => simp [ho]

lemma unsubscribe (c : b.Consistent) (ha : b.UnsubscribesAlone (.unsubscribe cid filter))
    (done : b.unsubscribe cid filter = some (b', existed)) : b'.Consistent := by
  have own := isSome_unsubscribed done
  obtain ⟨ss, hf, he, hu, -, hm⟩ := unsubscribe_spec done
  obtain ⟨id, hn⟩ := c.keyed cid ss hf
  refine ⟨c.keyed.put he hn id, fun cid' f' => ?_, fun cid' share f' hb => ?_⟩
  · rw [hu, entryOf_erase]
    simp only [own]
    split
    next hh =>
      obtain ⟨rfl, rfl⟩ := hh
      refine iff_of_false (by simp) ?_
      rintro ⟨whole, ⟨hk, sub⟩, hs⟩
      exact hk ⟨(ha whole (mem_filtersOf.mpr sub) hs).symm, rfl⟩
    next ho =>
      rw [c.agrees.1]
      refine exists_congr fun whole => ⟨fun ⟨sub, hs⟩ => ⟨⟨?_, sub⟩, hs⟩, fun ⟨⟨_, sub⟩, hs⟩ => ⟨sub, hs⟩⟩
      rintro ⟨rfl, rfl⟩
      exact ho ⟨hs, rfl⟩
  · rw [hm _ _ _ hb, own]
    exact and_congr_right fun _ => c.agrees.2 cid' share f' hb

/-- Another subscription with the same underlying filter is left out of the trie. -/
lemma not_agrees_unsubscribe (hs : ¬ b.UnsubscribesAlone (.unsubscribe cid filter))
    (done : b.unsubscribe cid filter = some (b', existed)) : ¬ b'.Agrees := by
  intro ha
  refine hs fun o hn hb => ?_
  have sub := mem_filtersOf.mp hn
  by_contra hdi
  have hk := (isSome_unsubscribed done cid o).mpr ⟨fun hh => hdi hh.1.symm, sub⟩
  have hi := (ha.1 cid (extractTopicFilter filter)).mpr ⟨o, hk, hb⟩
  obtain ⟨-, -, -, hu, -⟩ := unsubscribe_spec done
  rw [hu, entryOf_erase, if_pos ⟨rfl, rfl⟩] at hi
  cases hi

lemma isSome_eraseClient (b : Broker) (cid cid' f' : Bytes) :
    ((b.eraseClient cid).subMap.entryOf f' cid').isSome ↔ cid ≠ cid' ∧ (b.subMap.entryOf f' cid').isSome := by
  rw [eraseClient, entryOf_eraseClient]
  split
  next hs => simp [hs]
  next ho => simp [ho]

/-- A session without subscriptions takes the place of the one a client had. -/
lemma anew (c : b.Consistent) (hn : cid ≠ []) (id : ss.clientId = cid) (none : ss.subscriptions = .empty)
    (he : b'.sessions = b.sessions.put cid ss) (hu : b'.subMap = (b.eraseClient cid).subMap)
    (hs : b'.sharedStore = (b.eraseClient cid).sharedStore) : b'.Consistent := by
  have own (cid' f' : Bytes) : (b'.subscriptionOf cid' f').isSome ↔ cid ≠ cid' ∧ (b.subscriptionOf cid' f').isSome := by
    rw [subscriptionOf_put he]
    split
    next hh => simp [hh, none, SortedMap.get]
    next ho => simp [ho]
  refine ⟨c.keyed.put he hn id, fun cid' f' => ?_, fun cid' share f' ha => ?_⟩
  · rw [hu, isSome_eraseClient, c.agrees.1]
    simp only [own, and_assoc, exists_and_left]
  · rw [hs, eraseClient, isMember_removeClient, own, c.agrees.2 _ _ _ ha]

lemma removeSession (c : b.Consistent) (cid : Bytes) : (b.removeSession cid).Consistent := by
  have own (cid' f' : Bytes) : ((b.removeSession cid).subscriptionOf cid' f').isSome ↔
      cid ≠ cid' ∧ (b.subscriptionOf cid' f').isSome := by
    rw [subscriptionOf_removeSession]
    split
    next hh => simp [hh]
    next ho => simp [ho]
  refine ⟨c.keyed.removeSession cid, fun cid' f' => ?_, fun cid' share f' hs => ?_⟩
  · refine Iff.trans (isSome_eraseClient b cid cid' f') ?_
    rw [c.agrees.1]
    simp only [own, and_assoc, exists_and_left]
  · rw [own, ← c.agrees.2 _ _ _ hs]
    exact isMember_removeClient

/-- The subscriptions of a session are put into the indexes again. -/
lemma insertSubscriptions (c : b.Consistent) (cid : Bytes) (hf : b.sessions.get cid = some ss) :
    (b.insertSubscriptions ss).Consistent := by
  have id := (c.keyed cid ss hf).1
  obtain ⟨hb, he, hm⟩ := foldl_insertSubscription ss.subscriptions.records b ss.clientId
  have hl (whole : Bytes) : (∃ r ∈ ss.subscriptions.records, r.1 = whole) ↔ (b.subscriptionOf cid whole).isSome := by
    rw [← mem_filtersOf, filtersOf, hf, List.mem_map]
  have own (cid' f' : Bytes) : (b.insertSubscriptions ss).subscriptionOf cid' f' = b.subscriptionOf cid' f' := by
    rw [subscriptionOf, subscriptionOf, Broker.insertSubscriptions, hb]
  refine ⟨fun cid' ss' hh => ?_, fun cid' f' => ?_, fun cid' share f' hs => ?_⟩
  · rw [Broker.insertSubscriptions, hb] at hh
    exact c.keyed cid' ss' hh
  · refine Iff.trans (he f' cid') ?_
    simp only [own]
    rw [c.agrees.1, or_iff_right_of_imp]
    rintro ⟨ha, r, hc, hh⟩
    rw [← ha, id]
    exact ⟨r.1, (hl r.1).mp ⟨r, hc, rfl⟩, hh⟩
  refine Iff.trans (hm share f' cid' hs) ?_
  rw [own, c.agrees.2 _ _ _ hs, or_iff_right_of_imp]
  rintro ⟨ha, hh⟩
  rw [← ha, id]
  exact (hl _).mp hh

lemma connectState (c : b.Consistent) (now : Int) (hn : cd.clientId ≠ []) : (b.connectState cd now).1.Consistent := by
  obtain ⟨ss, id, ⟨none, hs⟩ | ⟨none, hm, hs⟩ | ⟨old, hf, ha, hs⟩⟩ := connectState_cases c.keyed cd now
  · exact c.anew hn id none (by rw [hs]; rfl) (by rw [hs]; rfl) (by rw [hs]; rfl)
  · -- The client had no session, so that there is nothing of it in the indexes.
    have hu (cid' f' : Bytes) :
        ({ b with sessions := b.sessions.put cd.clientId ss } : Broker).subscriptionOf cid' f' = b.subscriptionOf cid' f' := by
      rw [subscriptionOf_put rfl]
      split
      next hh =>
        rw [← hh, subscriptionOf, hm, none]
        rfl
      · rfl
    rw [hs]
    refine ⟨c.keyed.put rfl hn id, ?_⟩
    unfold Agrees
    simp only [hu]
    exact c.agrees
  · rw [hs]
    refine (c.put_session hf (id.trans (c.keyed _ _ hf).1.symm) ha).insertSubscriptions cd.clientId ?_
    rw [SortedMap.get_put, if_pos rfl]

/-- What a list of sessions puts into empty indexes. -/
lemma foldl_insertSubscriptions (l : List (Bytes × SessionState)) (b : Broker) :
    let after := l.foldl (fun b r => b.insertSubscriptions r.2) b
    after.sessions = b.sessions ∧
    (∀ f' cid', (after.subMap.entryOf f' cid').isSome ↔ (∃ s ∈ l, s.2.clientId = cid' ∧
        ∃ r ∈ s.2.subscriptions.records, extractTopicFilter r.1 = f') ∨
        (b.subMap.entryOf f' cid').isSome) ∧
    ∀ share f' cid', Shareable share f' → (after.sharedStore.IsMember share f' cid' ↔ (∃ s ∈ l, s.2.clientId = cid' ∧
        ∃ r ∈ s.2.subscriptions.records, r.1 = sharedFilter share f') ∨
        b.sharedStore.IsMember share f' cid') := by
  induction l generalizing b with
  | nil => simp
  | cons s l ih =>
    obtain ⟨key, ss⟩ := s
    obtain ⟨ha, hn, hb⟩ := ih (b.insertSubscriptions ss)
    obtain ⟨hc, he, hm⟩ := foldl_insertSubscription ss.subscriptions.records b ss.clientId
    refine ⟨ha.trans hc, fun f' cid' => ?_, fun share f' cid' hs => ?_⟩
    · rw [List.foldl_cons, hn, Broker.insertSubscriptions, he]
      simp only [List.mem_cons, exists_eq_or_imp]
      rw [or_left_comm, or_assoc]
    rw [List.foldl_cons, hb _ _ _ hs, Broker.insertSubscriptions, hm _ _ _ hs]
    simp only [List.mem_cons, exists_eq_or_imp]
    rw [or_left_comm, or_assoc]

lemma loadPersistence (lim : Nat) (vs : List SessionState) (now : Int) : (loadPersistence lim vs now).Consistent := by
  have hk (cid : Bytes) (ss : SessionState) (hf : (Broker.loadPersistence lim vs now).sessions.get cid = some ss) :
      ss.clientId = cid ∧ cid ≠ [] := by
    obtain ⟨id, hn, -⟩ := loadPersistence_keyed lim vs now cid ss hf
    exact ⟨id, hn⟩
  rw [sessions_loadPersistence] at hk
  rw [Broker.loadPersistence]
  generalize (loadSessions vs).mapValues _ = store at hk ⊢
  obtain ⟨hs, he, hm⟩ := foldl_insertSubscriptions store.records ({ maxOfflineQueue := lim, sessions := store } : Broker)
  have own (cid' : Bytes) (p : Bytes → Prop) : (∃ session ∈ store.records, session.2.clientId = cid' ∧
      ∃ r ∈ session.2.subscriptions.records, p r.1) ↔
      ∃ whole, (subscriptionOf ({ sessions := store } : Broker) cid' whole).isSome ∧ p whole := by
    constructor
    · rintro ⟨⟨key, ss⟩, hi, rfl, ⟨whole, e⟩, hme, hh⟩
      have hf := SortedMap.get_of_mem hi
      refine ⟨whole, ?_, hh⟩
      rw [subscriptionOf, (hk key ss hf).1, hf, Option.bind_some, SortedMap.get_of_mem hme]
      rfl
    rintro ⟨whole, sub, hh⟩
    rw [subscriptionOf, Option.isSome_iff_exists] at sub
    obtain ⟨e, hb⟩ := sub
    obtain ⟨ss, hf, sub⟩ := Option.bind_eq_some_iff.mp hb
    exact ⟨(cid', ss), SortedMap.get_eq_some_iff.mp hf, (hk cid' ss hf).1, (whole, e), SortedMap.get_eq_some_iff.mp sub, hh⟩
  have ha (cid' whole : Bytes) : subscriptionOf
      (store.records.foldl (fun b r => b.insertSubscriptions r.2) { maxOfflineQueue := lim, sessions := store }) cid' whole =
      subscriptionOf ({ sessions := store } : Broker) cid' whole := by
    rw [subscriptionOf, subscriptionOf, hs]
  refine ⟨?_, fun cid' f' => ?_, fun cid' share f' hc => ?_⟩
  · rw [Keyed, hs]
    exact hk
  · rw [he, own cid' (extractTopicFilter · = f')]
    simp only [ha]
    exact or_iff_left (by simp)
  rw [hm _ _ _ hc, own cid' (· = sharedFilter share f'), ha]
  refine Iff.trans (or_iff_left ?_) exists_eq_right
  rintro ⟨g, hf, -⟩
  cases hf

lemma step (c : b.Consistent) (ha : b.UnsubscribesAlone call) (ht : b.step call = some b') : b'.Consistent := by
  refine step_rule Consistent ht c (fun cd now hn => c.connectState now hn) (fun _ => c.of_same rfl rfl rfl)
    (fun _ _ done => c.subscribe done) (fun hc done => c.unsubscribe (hc ▸ ha) done) (fun now hf => c.put_session hf rfl rfl)
    (fun cid c => c.removeSession cid) (fun _ _ => loadPersistence _ _ _) fun _ => ?_
  rw [routeTargets]
  split
  · split
    · refine ⟨c.keyed, c.agrees.1, fun cid' share f' hs => ?_⟩
      rw [isMember_findMatchingGroups]
      exact c.agrees.2 cid' share f' hs
    · exact c.of_same rfl rfl rfl
  · exact c

lemma fresh (lim : Nat) : ({ maxOfflineQueue := lim } : Broker).Consistent := by
  refine ⟨?_, fun cid f => ?_, fun cid share f _ => ?_⟩
  · rintro cid ss ⟨⟩
  · refine iff_of_false (by simp) ?_
    rintro ⟨whole, ⟨⟩, -⟩
  · refine iff_of_false ?_ (by rintro ⟨⟩)
    rintro ⟨g, ⟨⟩, -⟩

end Consistent

/-- In every run in which nobody unsubscribes from one of several subscriptions with the same underlying filter,
the indexes agree with the sessions at every point; a step that does leaves indexes that do not agree. -/
theorem index_agrees {limit : Nat} (reached : Reached step UnsubscribesAlone { maxOfflineQueue := limit } b) :
    b.Agrees ∧ ∀ call b', b.step call = some b' → (b'.Agrees ↔ b.UnsubscribesAlone call) := by
  have c : b.Consistent := reached.invariant Consistent (.fresh limit) fun hb ha ht => hb.step ha ht
  refine ⟨c.agrees, fun call b' ht => ⟨fun hg => ?_, fun ha => (c.step ha ht).agrees⟩⟩
  cases call with
  | unsubscribe cid f =>
    by_contra hs
    obtain ⟨⟨after, existed⟩, done, rfl⟩ := Option.map_eq_some_iff.mp ht
    exact Consistent.not_agrees_unsubscribe hs done hg
  | _ => exact trivial

/-- A client that has `f` and `$share/g/h` unsubscribes from the second and keeps the first. -/
theorem index_agrees_other_filter : ∃ b, Reached step UnsubscribesAlone {} b ∧
    (b.subscriptionOf "c" "$share/g/h").isNone ∧
    (b.subMap.entryOf "f" "c").isSome ∧ b.Agrees := by
  have run : Reached step UnsubscribesAlone {} _ := .runChecked .start
    [.connectState { clientId := "c" } 0, .subscribe "c" { topicFilter := "f" },
      .subscribe "c" { topicFilter := "$share/g/h" },
      .unsubscribe "c" "$share/g/h"] rfl
  exact ⟨_, run, by decide +kernel, by decide +kernel, (index_agrees run).1⟩

/-- A client that has `f` and `$share/g/f` unsubscribes from the second. -/
def twoSubscriptions : List BrokerCall :=
  [.connectState { clientId := "c" } 0,
    .subscribe "c" { topicFilter := "f" },
    .subscribe "c" { topicFilter := "$share/g/f" }]

theorem unsubscribe_drops_other : ∃ b b', Reached step (fun _ _ => True) {} b ∧
    b.step (.unsubscribe "c" "$share/g/f") = some b' ∧
    (b'.subscriptionOf "c" "f").isSome ∧ (b'.subMap.entryOf "f" "c").isNone ∧ ¬ b'.Agrees := by
  have run : Reached step (fun _ _ => True) {} _ := .runChecked .start twoSubscriptions rfl
  refine ⟨_, _, run, rfl, ?_, ?_, fun ha => ?_⟩
  · decide +kernel
  · decide +kernel
  have := (ha.1 "c" "f").mpr ⟨"f", by decide +kernel, by decide +kernel⟩
  revert this
  decide +kernel

end Cnetmod.Mqtt.Broker
