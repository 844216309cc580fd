import Cnetmod.Consensus.Run
import Cnetmod.Mqtt.Spec.SubscriptionIndex

/-!
# Runs of the broker

The steps of all connections, each under a lock, in any order. What each of them does
to the sessions and to the indexes of subscriptions.
-/
namespace Cnetmod.Mqtt

open List

open Coding (Bytes)
open Coding.SortedMap SessionState

inductive BrokerCall where
  | connectState (cd : ConnectData) (now : Int)
  | connectRegister (clientId : Bytes) (conn : Nat)
  | subscribe (clientId : Bytes) (entry : SubscribeEntry)
  | unsubscribe (clientId filter : Bytes)
  | cleanupOffline (clientId : Bytes) (now : Int)
  | cleanupUnregister (clientId : Bytes)
  | cleanupRemove (clientId : Bytes)
  | expire (now : Int)
  | restart (values : List SessionState) (now : Int)
  | publish (topic : Bytes) (qosValue : Qos) (sender : Bytes)

/-- A file has only filters that were accepted. -/
def acceptedFilters (values : List SessionState) : Bool :=
  values.all fun ss => ss.subscriptions.records.all fun record => validateTopicFilter record.1

namespace Broker

def step (b : Broker) : BrokerCall → Option Broker
  | .connectState cd now => if cd.clientId.isEmpty then none else some (b.connectState cd now).1
  | .connectRegister clientId conn => some (b.connectRegister clientId conn).1
  | .subscribe clientId entry =>
    if validateTopicFilter entry.topicFilter then (b.subscribe clientId entry).map (·.1) else none
  | .unsubscribe clientId filter => (b.unsubscribe clientId filter).map (·.1)
  | .cleanupOffline clientId now => b.cleanupOffline clientId now
  | .cleanupUnregister clientId => some (b.cleanupUnregister clientId)
  | .cleanupRemove clientId => b.cleanupRemove clientId
  | .expire now => some (b.expireSessions now)
  | .restart values now =>
    if acceptedFilters values then some (loadPersistence b.maxOfflineQueue values now) else none
  | .publish topic qosValue sender => some (b.routeTargets topic qosValue sender).2

variable {b b' : Broker} {cid cid' f f' share : Bytes} {ss : SessionState}

/-- The entry a client's session has for a filter, as the client wrote it. -/
def subscriptionOf (b : Broker) (clientId filter : Bytes) : Option SubscribeEntry :=
  (b.sessions.get clientId).bind (·.subscriptions.get filter)

/-- The filters of a client's session. -/
def filtersOf (b : Broker) (clientId : Bytes) : List Bytes :=
  match b.sessions.get clientId with
  | some ss => ss.subscriptions.records.map (·.1)
  | none => []

lemma mem_filtersOf : f ∈ b.filtersOf cid ↔ (b.subscriptionOf cid f).isSome := by
  rw [filtersOf, subscriptionOf]
  cases b.sessions.get cid with
  | none => simp
  | some ss =>
    rw [mem_map, Option.bind_some, Option.isSome_iff_exists]
    simp only [get_eq_some_iff]
    constructor
    · rintro ⟨r, hm, rfl⟩
      exact ⟨r.2, hm⟩
    · rintro ⟨e, hm⟩
      exact ⟨(f, e), hm, rfl⟩

/-- A filter that is not shared goes to the trie; a shared one goes to both indexes. -/
lemma subscription_cases (b : Broker) (cid f : Bytes) : (extractTopicFilter f = f ∧
      (∀ share f', Shareable share f' → f ≠ sharedFilter share f') ∧
      (∀ e, b.insertSubscription cid f e = { b with subMap := b.subMap.insert f cid e }) ∧
      b.eraseSubscription cid f = { b with subMap := b.subMap.erase f cid }) ∨
    ∃ share f', Shareable share f' ∧ f = sharedFilter share f' ∧ (∀ e, b.insertSubscription cid f e = { b with
        sharedSubscriptionsPresent := true
        subMap := b.subMap.insert f' cid e
        sharedStore := b.sharedStore.addMember share f' cid }) ∧
      b.eraseSubscription cid f = { b with
        subMap := b.subMap.erase f' cid
        sharedStore := b.sharedStore.removeMember share f' cid } := by
  have hl (none : ∀ shared, parseSharedSubscription f = some shared → shared.shareName = []) (share f' : Bytes)
      (hs : Shareable share f') : f ≠ sharedFilter share f' := by
    rintro rfl
    exact hs.1 (none _ (parseSharedSubscription_sharedFilter hs))
  simp only [insertSubscription, eraseSubscription, extractTopicFilter]
  cases hp : parseSharedSubscription f with
  | none => exact .inl ⟨rfl, hl (by simp [hp]), fun _ => rfl, rfl⟩
  | some shared =>
    by_cases hu : shared.shareName = []
    · have hh : shared.shareName.isEmpty = true := isEmpty_iff.mpr hu
      exact .inl ⟨parse_plain hp hu, hl (by simp [hp, hu]), fun _ => if_pos hh, if_pos hh⟩
    have hh : ¬ shared.shareName.isEmpty = true := fun he => hu (isEmpty_iff.mp he)
    obtain ⟨hs, hw⟩ := parseSharedSubscription_cases hp hu
    exact .inr ⟨_, _, hs, hw, fun _ => if_neg hh, if_neg hh⟩

lemma subMap_insertSubscription : (b.insertSubscription cid f e).subMap = b.subMap.insert (extractTopicFilter f) cid e := by
  obtain ⟨hp, -, ha, -⟩ | ⟨_, _, hs, rfl, ha, -⟩ := b.subscription_cases cid f
  · rw [ha, hp]
  · rw [ha, extractTopicFilter_sharedFilter hs]

lemma subMap_eraseSubscription : (b.eraseSubscription cid f).subMap = b.subMap.erase (extractTopicFilter f) cid := by
  obtain ⟨hp, -, -, ha⟩ | ⟨_, _, hs, rfl, -, ha⟩ := b.subscription_cases cid f
  · rw [ha, hp]
  · rw [ha, extractTopicFilter_sharedFilter hs]

lemma isMember_insertSubscription (hs : Shareable share f') :
    (b.insertSubscription cid f e).sharedStore.IsMember share f' cid' ↔
      (f = sharedFilter share f' ∧ cid = cid') ∨ b.sharedStore.IsMember share f' cid' := by
  obtain ⟨-, hp, ha, -⟩ | ⟨_, _, ⟨-, hn, -⟩, rfl, ha, -⟩ := b.subscription_cases cid f
  · simp [ha, hp _ _ hs]
  · rw [ha, SharedTargetStore.isMember_addMember hn hs.2.1, sharedFilter_inj hn hs.2.1, and_assoc]

lemma isMember_eraseSubscription (hs : Shareable share f') : (b.eraseSubscription cid f).sharedStore.IsMember share f' cid' ↔
      ¬ (f = sharedFilter share f' ∧ cid = cid') ∧ b.sharedStore.IsMember share f' cid' := by
  obtain ⟨-, hp, -, ha⟩ | ⟨_, _, ⟨-, hn, -⟩, rfl, -, ha⟩ := b.subscription_cases cid f
  · simp [ha, hp _ _ hs]
  · rw [ha, SharedTargetStore.isMember_removeMember hn hs.2.1, sharedFilter_inj hn hs.2.1, and_assoc]

lemma sessions_insertSubscription : (b.insertSubscription cid f e).sessions = b.sessions := by
  obtain ⟨-, -, hs, -⟩ | ⟨_, _, -, -, hs, -⟩ := b.subscription_cases cid f <;> rw [hs]

lemma sessions_eraseSubscription : (b.eraseSubscription cid f).sessions = b.sessions := by
  obtain ⟨-, -, -, hs⟩ | ⟨_, _, -, -, -, hs⟩ := b.subscription_cases cid f <;> rw [hs]

lemma subscribe_spec (done : b.subscribe cid e = some (b', isNew)) :
    ∃ ss, b.sessions.get cid = some ss ∧ b'.sessions = b.sessions.put cid (ss.addSubscription e).1 ∧
      b'.subMap = b.subMap.insert (extractTopicFilter e.topicFilter) cid e ∧ b'.routeCache = .empty ∧
      ∀ share f' cid', Shareable share f' → (b'.sharedStore.IsMember share f' cid' ↔
        (e.topicFilter = sharedFilter share f' ∧ cid = cid') ∨ b.sharedStore.IsMember share f' cid') := by
  rw [Broker.subscribe, Option.map_eq_some_iff] at done
  obtain ⟨ss, hf, done⟩ := done
  cases done
  exact ⟨ss, hf, sessions_insertSubscription, subMap_insertSubscription, rfl, fun _ _ _ hs => isMember_insertSubscription hs⟩

lemma unsubscribe_spec (done : b.unsubscribe cid f = some (b', existed)) :
    ∃ ss, b.sessions.get cid = some ss ∧ b'.sessions = b.sessions.put cid (ss.removeSubscription f).1 ∧
      b'.subMap = b.subMap.erase (extractTopicFilter f) cid ∧ b'.routeCache = .empty ∧
      ∀ share f' cid', Shareable share f' → (b'.sharedStore.IsMember share f' cid' ↔
        ¬ (f = sharedFilter share f' ∧ cid = cid') ∧ b.sharedStore.IsMember share f' cid') := by
  rw [Broker.unsubscribe, Option.map_eq_some_iff] at done
  obtain ⟨ss, hf, done⟩ := done
  cases done
  exact ⟨ss, hf, sessions_eraseSubscription, subMap_eraseSubscription, rfl, fun _ _ _ hs => isMember_eraseSubscription hs⟩

/-- A session takes the place of another. -/
lemma subscriptionOf_put (hs : b'.sessions = b.sessions.put cid ss) (cid' f' : Bytes) : b'.subscriptionOf cid' f' =
      if cid = cid' then ss.subscriptions.get f' else b.subscriptionOf cid' f' := by
  rw [subscriptionOf, hs, get_put]
  split
  · rfl
  · rfl

lemma subscriptionOf_subscribe (done : b.subscribe cid e = some (b', isNew)) (cid' f' : Bytes) : b'.subscriptionOf cid' f' =
      if e.topicFilter = f' ∧ cid = cid' then some e else b.subscriptionOf cid' f' := by
  obtain ⟨ss, hf, hs, -⟩ := subscribe_spec done
  rw [subscriptionOf_put hs, addSubscription, get_put]
  split
  next hh => simp [subscriptionOf, ← hh, hf]
  next ho => rw [if_neg fun hb => ho hb.2]

lemma subscriptionOf_unsubscribe (done : b.unsubscribe cid f = some (b', existed))
    (cid' f' : Bytes) : b'.subscriptionOf cid' f' = if f = f' ∧ cid = cid' then none else b.subscriptionOf cid' f' := by
  obtain ⟨ss, hf, hs, -⟩ := unsubscribe_spec done
  rw [subscriptionOf_put hs, removeSubscription, get_delete]
  split
  next hh => simp [subscriptionOf, ← hh, hf]
  next ho => rw [if_neg fun hb => ho hb.2]

lemma subscriptionOf_removeSession (cid cid' f' : Bytes) : (b.removeSession cid).subscriptionOf cid' f' =
    if cid = cid' then none else b.subscriptionOf cid' f' := by
  rw [subscriptionOf, removeSession, invalidateRouteCache, get_delete]
  split
  · rfl
  · rfl

/-- Every session is found under its own client identifier. -/
def Keyed (b : Broker) : Prop := ∀ cid ss, b.sessions.get cid = some ss → ss.clientId = cid ∧ cid ≠ []

lemma Keyed.put (hk : b.Keyed) (hs : b'.sessions = b.sessions.put cid ss) (hn : cid ≠ [])
    (id : ss.clientId = cid) : b'.Keyed := by
  intro cid' ss' hh
  rw [hs, get_put] at hh
  split at hh
  next this =>
    cases hh
    exact ⟨id.trans this, this ▸ hn⟩
  · exact hk cid' ss' hh

lemma get_foldl_removeSession (ids : List Bytes) (ho : cid ∉ ids) (b : Broker) :
    (ids.foldl removeSession b).sessions.get cid = b.sessions.get cid := by
  induction ids generalizing b with
  | nil => rfl
  | cons id ids ih =>
    rw [List.mem_cons, not_or] at ho
    refine (ih ho.2 (b.removeSession id)).trans ?_
    rw [removeSession, invalidateRouteCache, get_delete]
    exact if_neg (Ne.symm ho.1)

lemma Keyed.removeSession (hk : b.Keyed) (cid : Bytes) : (b.removeSession cid).Keyed := by
  intro cid' ss' hh
  rw [Broker.removeSession, invalidateRouteCache, get_delete] at hh
  split at hh
  · cases hh
  · exact hk cid' ss' hh

/-- What a list of subscriptions of one client adds. -/
lemma foldl_insertSubscription (l : List (Bytes × SubscribeEntry)) (b : Broker) (cid : Bytes) :
    let after := l.foldl (fun b r => b.insertSubscription cid r.1 r.2) b
    after.sessions = b.sessions ∧
    (∀ f' cid', (after.subMap.entryOf f' cid').isSome ↔
      (cid = cid' ∧ ∃ r ∈ l, extractTopicFilter r.1 = f') ∨ (b.subMap.entryOf f' cid').isSome) ∧
    ∀ share f' cid', Shareable share f' → (after.sharedStore.IsMember share f' cid' ↔
      (cid = cid' ∧ ∃ r ∈ l, r.1 = sharedFilter share f') ∨ b.sharedStore.IsMember share f' cid') := by
  induction l generalizing b with
  | nil => simp
  | cons r l ih =>
    obtain ⟨f, e⟩ := r
    obtain ⟨ha, he, hm⟩ := ih (b.insertSubscription cid f e)
    refine ⟨ha.trans sessions_insertSubscription, fun f' cid' => ?_, fun share f' cid' hs => ?_⟩
    · rw [foldl_cons, he, subMap_insertSubscription, SubscriptionMap.entryOf_insert]
      by_cases hh : extractTopicFilter f = f' ∧ cid = cid'
      · simp [hh]
      rw [if_neg hh]
      simp only [mem_cons, exists_eq_or_imp]
      rw [and_or_left, or_assoc]
      constructor
      · exact .inr
      rintro (⟨rfl, hb⟩ | ho)
      · exact absurd ⟨hb, rfl⟩ hh
      · exact ho
    · rw [foldl_cons, hm _ _ _ hs, isMember_insertSubscription hs]
      simp only [mem_cons, exists_eq_or_imp]
      rw [and_or_left, or_assoc, or_left_comm, and_comm]

lemma foldl_applyConnectProperty (props : Properties) (ss : SessionState) : ∃ exp lim,
    props.foldl applyConnectProperty ss = { ss with sessionExpiryInterval := exp, receiveMaximum := lim } := by
  induction props generalizing ss with
  | nil => exact ⟨_, _, rfl⟩
  | cons p props ih =>
    obtain ⟨exp, lim, hs⟩ := ih (applyConnectProperty ss p)
    rw [foldl_cons, hs]
    unfold applyConnectProperty
    split <;> exact ⟨_, _, rfl⟩

/-- The properties of a CONNECT change two settings. -/
lemma connectProperties (cd : ConnectData) (ss : SessionState) : ∃ expiry limit,
    (if cd.version = .v5 then cd.props.foldl applyConnectProperty ss else ss) =
      { ss with sessionExpiryInterval := expiry, receiveMaximum := limit } := by
  split
  · exact foldl_applyConnectProperty cd.props ss
  · exact ⟨_, _, rfl⟩

/-- The session of a CONNECT keeps the subscriptions it had, unless it begins anew. -/
lemma connectSession_spec (b : Broker) (cd : ConnectData) (now : Int) :
    (b.connectSession cd now).2 = (!cd.cleanSession && (b.sessions.get cd.clientId).isSome) ∧
    (b.connectSession cd now).1.subscriptions =
      (if cd.cleanSession then .empty else ((b.sessions.get cd.clientId).map (·.subscriptions)).getD .empty) ∧
    (b.connectSession cd now).1.clientId = ((b.sessions.get cd.clientId).map (·.clientId)).getD cd.clientId ∧
    (b.connectSession cd now).1.online = true ∧ (b.connectSession cd now).1.willMsg = cd.willMsg := by
  unfold connectSession
  dsimp only
  cases hf : b.sessions.get cd.clientId with
  | none =>
    obtain ⟨exp, lim, ha⟩ := connectProperties cd _
    rw [ha, createOrResume, hf]
    simp [goOnline]
  | some old =>
    have hr (st : SessionState) (hs : st.subscriptions = old.subscriptions)
        (id : st.clientId = old.clientId) (s : SessionStore) (hh : s.get cd.clientId = some st) :
        let resumed := createOrResume s cd.clientId cd.cleanSession cd.version
        resumed.2 = !cd.cleanSession ∧ resumed.1.subscriptions = (if cd.cleanSession then .empty else old.subscriptions) ∧
          resumed.1.clientId = old.clientId ∧ resumed.1.online = true := by
      rw [createOrResume, hh]
      cases cd.cleanSession <;> simp [goOnline, clear, hs, id]
    dsimp only
    obtain ⟨exp, lim, ha⟩ := connectProperties cd _
    rw [ha]
    split
    · obtain ⟨hp, hs, id, ho⟩ := hr (old.goOffline now) rfl rfl
        (b.sessions.put cd.clientId (old.goOffline now)) (by rw [get_put, if_pos rfl])
      simp [hp, hs, id, ho]
    · obtain ⟨hp, hs, id, ho⟩ := hr old rfl rfl b.sessions hf
      simp [hp, hs, id, ho]

/-- A CONNECT that does not begin anew changes the settings of the session only. -/
lemma connectSession_resumed (hr : cd.cleanSession = false) (now : Int) : ∃ exp lim disconnected, (b.connectSession cd now).1 =
      { (b.sessions.get cd.clientId).getD { clientId := cd.clientId } with
        version := cd.version
        cleanSession := false
        online := true
        disconnectTime := disconnected
        keepAlive := cd.keepAlive
        willMsg := cd.willMsg
        username := cd.username
        maxOfflineQueue := b.maxOfflineQueue
        sessionExpiryInterval := exp
        receiveMaximum := lim } := by
  unfold connectSession
  dsimp only
  cases hf : b.sessions.get cd.clientId with
  | none =>
    obtain ⟨exp, lim, hs⟩ := connectProperties cd _
    refine ⟨exp, lim, 0, ?_⟩
    rw [hs, createOrResume, hf, hr]
    rfl
  | some old =>
    dsimp only
    obtain ⟨exp, lim, hs⟩ := connectProperties cd _
    refine ⟨exp, lim, if old.online then now else old.disconnectTime, ?_⟩
    rw [hs]
    split
    · rw [createOrResume, get_put, hr]
      simp [goOnline, goOffline]
    · rw [createOrResume, hf, hr]
      simp [goOnline]

lemma sessions_connectState (cd : ConnectData) (now : Int) : (b.connectState cd now).1.sessions =
    b.sessions.put cd.clientId (b.connectSession cd now).1 := by
  rw [connectState]
  dsimp only
  split
  · rfl
  split
  · exact (foldl_insertSubscription _ _ _).1
  · rfl

/-- A CONNECT begins anew, makes the first session of the client, or puts the subscriptions it finds into the indexes
once more. -/
lemma connectState_cases (hk : b.Keyed) (cd : ConnectData) (now : Int) : ∃ ss : SessionState, ss.clientId = cd.clientId ∧
    ((ss.subscriptions = .empty ∧ (b.connectState cd now).1 =
        ({ b with sessions := b.sessions.put cd.clientId ss }.eraseClient cd.clientId).invalidateRouteCache) ∨
      (ss.subscriptions = .empty ∧ b.sessions.get cd.clientId = none ∧
        (b.connectState cd now).1 = { b with sessions := b.sessions.put cd.clientId ss }) ∨
      ∃ old, b.sessions.get cd.clientId = some old ∧ ss.subscriptions = old.subscriptions ∧
        (b.connectState cd now).1 = { b with sessions := b.sessions.put cd.clientId ss }.insertSubscriptions ss) := by
  obtain ⟨hp, hs, id, -⟩ := b.connectSession_spec cd now
  have own : (b.connectSession cd now).1.clientId = cd.clientId := by
    rw [id]
    cases hf : b.sessions.get cd.clientId with
    | none => rfl
    | some old => exact (hk _ _ hf).1
  refine ⟨(b.connectSession cd now).1, own, ?_⟩
  rw [connectState]
  dsimp only
  split
  next hc =>
    rw [if_pos hc] at hs
    exact .inl ⟨hs, rfl⟩
  next hr =>
    rw [if_neg hr] at hs
    cases hf : b.sessions.get cd.clientId with
    | none =>
      rw [hf, Option.isSome_none] at hp
      rw [hf] at hs
      exact .inr (.inl ⟨hs, rfl, if_neg (by simp [hp])⟩)
    | some old =>
      rw [hf] at hp hs
      have ha : ({ (b.connectSession cd now).1 with clientId := cd.clientId } : SessionState) = (b.connectSession cd now).1 := by
        rw [← own]
      rw [ha]
      exact .inr (.inr ⟨old, rfl, hs, if_pos (by simpa [hp] using hr)⟩)

lemma loadSessions_keyed (vs : List SessionState) (cid : Bytes) (ss : SessionState)
    (hf : (loadSessions vs).get cid = some ss) : ss.clientId = cid ∧ cid ≠ [] ∧ ∃ v ∈ vs, v.subscriptions = ss.subscriptions := by
  induction vs using reverseRecOn generalizing cid ss with
  | nil => cases hf
  | append_singleton vs v ih =>
    have hb (hf : (loadSessions vs).get cid = some ss) : ss.clientId = cid ∧ cid ≠ [] ∧
        ∃ v' ∈ vs ++ [v], v'.subscriptions = ss.subscriptions := by
      obtain ⟨id, hn, v', hm, hs⟩ := ih cid ss hf
      exact ⟨id, hn, v', mem_append_left _ hm, hs⟩
    rw [loadSessions, foldl_append, foldl_cons, foldl_nil, loadSession] at hf
    split at hf
    · exact hb hf
    rename_i hn
    rw [get_put] at hf
    split at hf
    next hh =>
      cases hf
      exact ⟨hh, by rw [← hh]; simpa using hn, v, by simp, rfl⟩
    · exact hb hf

/-- A CONNECT adds no subscriptions. -/
lemma subscriptionOf_connectState
    (ht : ((b.connectState cd now).1.subscriptionOf cid f).isSome) : (b.subscriptionOf cid f).isSome := by
  rw [subscriptionOf_put (sessions_connectState cd now), (b.connectSession_spec cd now).2.1] at ht
  split at ht
  next hh =>
    subst hh
    split at ht
    · cases ht
    rw [subscriptionOf]
    cases hf : b.sessions.get cd.clientId with
    | none =>
      rw [hf] at ht
      cases ht
    | some old =>
      rw [hf] at ht
      exact ht
  · exact ht

lemma sessions_loadPersistence (lim : Nat) (vs : List SessionState) (now : Int) :
    (loadPersistence lim vs now).sessions = (loadSessions vs).mapValues fun ss =>
      { ss with online := false, disconnectTime := now, maxOfflineQueue := lim } := by
  rw [loadPersistence]
  generalize (loadSessions vs).mapValues _ = store
  have hs (l : List (Bytes × SessionState)) (b : Broker) :
      (l.foldl (fun b r => b.insertSubscriptions r.2) b).sessions = b.sessions := by
    induction l generalizing b with
    | nil => rfl
    | cons s l ih => exact (ih _).trans (foldl_insertSubscription _ _ _).1
  exact hs store.records _

/-- A session that was loaded has the subscriptions of one in the file. -/
lemma loadPersistence_keyed (lim : Nat) (vs : List SessionState) (now : Int) (cid : Bytes) (ss : SessionState)
    (hf : (loadPersistence lim vs now).sessions.get cid = some ss) :
    ss.clientId = cid ∧ cid ≠ [] ∧ ∃ v ∈ vs, v.subscriptions = ss.subscriptions := by
  rw [sessions_loadPersistence, get_mapValues, Option.map_eq_some_iff] at hf
  obtain ⟨v, hf, rfl⟩ := hf
  exact loadSessions_keyed vs cid v hf

/-- What the sections of the calls keep, a call keeps. -/
lemma step_rule (inv : Broker → Prop) (ht : b.step call = some b') (hh : inv b)
    (hconnect : ∀ cd now, cd.clientId ≠ [] → inv (b.connectState cd now).1)
    (hchannels : ∀ channels, inv { b with onlineChannels := channels, routeCache := .empty })
    (hsubscribe : ∀ {cid e b' isNew}, call = .subscribe cid e → validateTopicFilter e.topicFilter = true →
      b.subscribe cid e = some (b', isNew) → inv b')
    (hunsubscribe : ∀ {cid f b' existed}, call = .unsubscribe cid f → b.unsubscribe cid f = some (b', existed) → inv b')
    (hoffline : ∀ {cid ss} now, b.sessions.get cid = some ss → inv { b with sessions := b.sessions.put cid (ss.goOffline now) })
    (hremove : ∀ {b} cid, inv b → inv (b.removeSession cid))
    (hrestart : ∀ {vs now}, call = .restart vs now → acceptedFilters vs = true → inv (loadPersistence b.maxOfflineQueue vs now))
    (hpublish : ∀ {t qos s}, call = .publish t qos s → inv (b.routeTargets t qos s).2) :
    inv b' := by
  cases call with
  | connectState cd now =>
    obtain ⟨hn, ⟨⟩⟩ := Option.ite_none_left_eq_some.mp ht
    exact hconnect cd now (by simpa using hn)
  | connectRegister clientId conn | cleanupUnregister clientId =>
    cases ht
    exact hchannels _
  | subscribe clientId e =>
    obtain ⟨hv, ht⟩ := Option.ite_none_right_eq_some.mp ht
    obtain ⟨⟨after, isNew⟩, done, rfl⟩ := Option.map_eq_some_iff.mp ht
    exact hsubscribe rfl hv done
  | unsubscribe clientId f =>
    obtain ⟨⟨after, existed⟩, done, rfl⟩ := Option.map_eq_some_iff.mp ht
    exact hunsubscribe rfl done
  | cleanupOffline clientId now =>
    obtain ⟨ss, hf, rfl⟩ := Option.map_eq_some_iff.mp ht
    exact hoffline now hf
  | cleanupRemove clientId =>
    obtain ⟨ss, hf, rfl⟩ := Option.map_eq_some_iff.mp ht
    split
    · exact hremove clientId hh
    · exact hh
  | expire now =>
    cases ht
    rw [expireSessions]
    generalize (b.sessions.records.filter (·.2.isExpired now)).map (·.2.clientId) = expired
    clear hconnect hchannels hsubscribe hunsubscribe hoffline hrestart hpublish
    induction expired generalizing b with
    | nil => exact hh
    | cons cid expired ih => exact ih (hremove cid hh)
  | restart vs now =>
    obtain ⟨hg, ⟨⟩⟩ := Option.ite_none_right_eq_some.mp ht
    exact hrestart rfl hg
  | publish t qos s =>
    cases ht
    exact hpublish rfl

lemma Keyed.step (hk : b.Keyed) (ht : b.step call = some b') : b'.Keyed := by
  -- a session is put in the place of the one that was found
  have hp {cid : Bytes} {ss ss' : SessionState} {b' : Broker} (hf : b.sessions.get cid = some ss)
      (hs : b'.sessions = b.sessions.put cid ss') (id : ss'.clientId = ss.clientId) : b'.Keyed :=
    hk.put hs (hk cid ss hf).2 (id.trans (hk cid ss hf).1)
  refine step_rule Keyed ht hk (fun cd now hn => hk.put (sessions_connectState cd now) hn ?_) (fun _ => hk) (fun _ _ done => ?_)
    (fun _ done => ?_) (fun now hf => hp hf rfl rfl) (fun cid hk => hk.removeSession cid) (fun _ _ cid ss hf => ?_) fun _ => ?_
  · rw [(b.connectSession_spec cd now).2.2.1]
    cases hf : b.sessions.get cd.clientId with
    | none => rfl
    | some old => exact (hk _ _ hf).1
  · obtain ⟨ss, hf, hs, -⟩ := subscribe_spec done
    exact hp hf hs rfl
  · obtain ⟨ss, hf, hs, -⟩ := unsubscribe_spec done
    exact hp hf hs rfl
  · obtain ⟨id, hn, -⟩ := loadPersistence_keyed _ _ _ cid ss hf
    exact ⟨id, hn⟩
  rw [routeTargets]
  split
  · split <;> exact hk
  · exact hk

end Broker

end Cnetmod.Mqtt
