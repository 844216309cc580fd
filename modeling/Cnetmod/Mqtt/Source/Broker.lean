import Cnetmod.Mqtt.Source.SessionState
import Cnetmod.Mqtt.Source.SharedSubscription
import Cnetmod.Mqtt.Source.SubscriptionMap

/-!
# Broker state

The sessions, the two indexes of subscriptions, the route cache and the online
connections of `broker/runtime.cpp`. Each function is what one holder of `state_mtx_`
or `channels_rw_` does before it lets go of the lock.
-/
namespace Cnetmod.Mqtt

open Coding (Bytes SortedMap)

structure ConnectData where
  version : ProtocolVersion := .v311
  cleanSession : Bool := true
  keepAlive : Nat := 0
  clientId : Bytes
  willMsg : Option Will := none
  username : Bytes := []
  props : Properties := []

structure Broker where
  maxOfflineQueue : Nat := 1000
  sessions : SessionStore := .empty
  subMap : SubscriptionMap := .new
  sharedStore : SharedTargetStore := {}
  sharedSubscriptionsPresent : Bool := false
  routeCache : SortedMap Bytes (List (Bytes × SubscribeEntry)) := .empty
  /-- The connection each client is reached by. -/
  onlineChannels : SortedMap Bytes Nat := .empty

namespace Broker

def invalidateRouteCache (b : Broker) : Broker := { b with routeCache := .empty }

/-- Both indexes, for a filter of a session. -/
def insertSubscription (b : Broker) (clientId filter : Bytes) (entry : SubscribeEntry) : Broker :=
  match parseSharedSubscription filter with
  | some shared =>
    if shared.shareName.isEmpty then { b with subMap := b.subMap.insert filter clientId entry }
    else { b with
      sharedSubscriptionsPresent := true
      subMap := b.subMap.insert shared.topicFilter clientId entry
      sharedStore := b.sharedStore.addMember shared.shareName shared.topicFilter clientId }
  | none => { b with subMap := b.subMap.insert filter clientId entry }

def eraseSubscription (b : Broker) (clientId filter : Bytes) : Broker :=
  match parseSharedSubscription filter with
  | some shared =>
    if shared.shareName.isEmpty then { b with subMap := b.subMap.erase filter clientId }
    else { b with
      subMap := b.subMap.erase shared.topicFilter clientId
      sharedStore := b.sharedStore.removeMember shared.shareName shared.topicFilter clientId }
  | none => { b with subMap := b.subMap.erase filter clientId }

/-- `sub_map_.erase_client` and `shared_store_.remove_client`. -/
def eraseClient (b : Broker) (clientId : Bytes) : Broker :=
  { b with subMap := b.subMap.eraseClient clientId, sharedStore := b.sharedStore.removeClient clientId }

/-- All subscriptions of a session. -/
def insertSubscriptions (b : Broker) (ss : SessionState) : Broker :=
  ss.subscriptions.records.foldl (fun b record => b.insertSubscription ss.clientId record.1 record.2) b

/-- One accepted entry of a SUBSCRIBE, on a session that is there. -/
def subscribe (b : Broker) (clientId : Bytes) (entry : SubscribeEntry) : Option (Broker × Bool) :=
  (b.sessions.get clientId).map fun ss =>
    let (ss, isNew) := ss.addSubscription entry
    let b := { b with sessions := b.sessions.put clientId ss }
    ((b.insertSubscription clientId entry.topicFilter entry).invalidateRouteCache, isNew)

/-- One filter of an UNSUBSCRIBE. -/
def unsubscribe (b : Broker) (clientId filter : Bytes) : Option (Broker × Bool) :=
  (b.sessions.get clientId).map fun ss =>
    let (ss, existed) := ss.removeSubscription filter
    let b := { b with sessions := b.sessions.put clientId ss }
    ((b.eraseSubscription clientId filter).invalidateRouteCache, existed)

/-- The properties of a CONNECT that go to the session. -/
def applyConnectProperty (ss : SessionState) (property : MqttProperty) : SessionState :=
  match property.id, property.value with
  | .sessionExpiryInterval, .u32 value => { ss with sessionExpiryInterval := value.toNat }
  | .receiveMaximum, .u16 value => { ss with receiveMaximum := value.toNat }
  | _, _ => ss

/-- The session a CONNECT leaves in the store. -/
def connectSession (b : Broker) (cd : ConnectData) (now : Int) : SessionState × Bool :=
  let sessions := match b.sessions.get cd.clientId with
    | some existing => if existing.online then b.sessions.put cd.clientId (existing.goOffline now) else b.sessions
    | none => b.sessions
  let (ss, present) := createOrResume sessions cd.clientId cd.cleanSession cd.version
  let ss := { ss with
    keepAlive := cd.keepAlive
    willMsg := cd.willMsg
    username := cd.username
    maxOfflineQueue := b.maxOfflineQueue }
  (if cd.version = .v5 then cd.props.foldl applyConnectProperty ss else ss, present)

/-- The first block of `handle_connect`, for a client identifier that is not empty. -/
def connectState (b : Broker) (cd : ConnectData) (now : Int) : Broker × Bool :=
  let (ss, present) := b.connectSession cd now
  let b := { b with sessions := b.sessions.put cd.clientId ss }
  (if cd.cleanSession then (b.eraseClient cd.clientId).invalidateRouteCache
    else if present then b.insertSubscriptions { ss with clientId := cd.clientId }
    else b, present)

/-- The second block: the connection that was online before is the one to be closed. -/
def connectRegister (b : Broker) (clientId : Bytes) (conn : Nat) : Broker × Option Nat :=
  ({ b with onlineChannels := b.onlineChannels.put clientId conn }.invalidateRouteCache, b.onlineChannels.get clientId)

/-- The first locked block of `cleanup_connection`. -/
def cleanupOffline (b : Broker) (clientId : Bytes) (now : Int) : Option Broker :=
  (b.sessions.get clientId).map fun ss => { b with sessions := b.sessions.put clientId (ss.goOffline now) }

/-- The second: whatever connection the client is reached by is taken out. -/
def cleanupUnregister (b : Broker) (clientId : Bytes) : Broker :=
  { b with onlineChannels := b.onlineChannels.delete clientId }.invalidateRouteCache

def removeSession (b : Broker) (clientId : Bytes) : Broker :=
  let b := b.eraseClient clientId
  { b with sessions := b.sessions.delete clientId }.invalidateRouteCache

/-- The third: a clean session without expiry interval is removed. -/
def cleanupRemove (b : Broker) (clientId : Bytes) : Option Broker :=
  (b.sessions.get clientId).map fun ss =>
    if ss.cleanSession && ss.sessionExpiryInterval = 0 then b.removeSession clientId else b

/-- A round of `session_expiry_loop`. -/
def expireSessions (b : Broker) (now : Int) : Broker :=
  ((b.sessions.records.filter (·.2.isExpired now)).map (·.2.clientId)).foldl removeSession b

/-- The loop of `load_sessions` over the sessions read from the file. -/
def loadSession (store : SessionStore) (value : SessionState) : SessionStore :=
  if value.clientId.isEmpty then store else store.put value.clientId { value with online := false }

def loadSessions (values : List SessionState) : SessionStore := values.foldl loadSession .empty

/-- `load_persistence_once` of a new broker. -/
def loadPersistence (maxOfflineQueue : Nat) (values : List SessionState) (now : Int) : Broker :=
  let sessions := (loadSessions values).mapValues fun ss =>
    { ss with online := false, disconnectTime := now, maxOfflineQueue := maxOfflineQueue }
  sessions.records.foldl (fun b record => b.insertSubscriptions record.2) { maxOfflineQueue, sessions }

/-- The first entry of each client that is not the sender with `no_local`. -/
def collectTargets (sender : Bytes) (found : List (Bytes × SubscribeEntry)) : SortedMap Bytes SubscribeEntry :=
  found.foldl (fun targets record =>
    if record.1 ≠ sender ∨ record.2.noLocal = false then targets.tryEmplace record.1 record.2 else targets) .empty

def sessionOnline (b : Broker) (clientId : Bytes) : Bool := (b.sessions.get clientId).any (·.online)

/-- The members selected for the groups, in the place of those that are targets already. -/
def addSharedTargets (sender : Bytes) (qosValue : Qos) (targets : SortedMap Bytes SubscribeEntry)
    (selected : List (Bytes × Bytes)) : SortedMap Bytes SubscribeEntry :=
  selected.foldl (fun targets choice =>
    if choice.1 = sender then targets
    else targets.tryEmplace choice.1 { topicFilter := choice.2, maxQos := qosValue }) targets

/-- The targets found in the cache, which is left alone once there are shared subscriptions. -/
def cachedTargets (b : Broker) (topic sender : Bytes) : SortedMap Bytes SubscribeEntry :=
  if b.sharedSubscriptionsPresent then .empty
  else match b.routeCache.get topic with
    | some found => collectTargets sender found
    | none => .empty

/-- The targets of `route_publish`. -/
def routeTargets (b : Broker) (topic : Bytes) (qosValue : Qos) (sender : Bytes) : SortedMap Bytes SubscribeEntry × Broker :=
  if (b.cachedTargets topic sender).records.isEmpty then
    let targets := collectTargets sender (b.subMap.matching topic)
    if b.sharedSubscriptionsPresent then
      let (selected, sharedStore) := b.sharedStore.findMatchingGroups topic b.sessionOnline
      (addSharedTargets sender qosValue targets selected, { b with sharedStore })
    else (targets, { b with routeCache := b.routeCache.put topic targets.records })
  else (b.cachedTargets topic sender, b)

end Broker

end Cnetmod.Mqtt
