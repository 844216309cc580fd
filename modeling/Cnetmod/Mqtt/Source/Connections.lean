import Cnetmod.Mqtt.Source.Broker

/-!
# Connections

How connections come and go in `broker/runtime.cpp`: the two locked blocks of
`handle_connect`, `handle_disconnect`, `handle_unexpected_disconnect` with the will, the
keep-alive timeout, and the three locked blocks of `cleanup_connection`. All connections
of a client share its session; a block that follows `conn->session` to a session that
was removed has no result.
-/
namespace Cnetmod.Mqtt

open Coding (Bytes SortedMap)

/-- The block of `cleanup_connection` that is next. -/
inductive CleanupStage where
  | offline | unregister | remove
  deriving DecidableEq

/-- `conn_state`. -/
structure Connection where
  clientId : Bytes
  /-- `handle_connect` has put it into `online_channels_`. -/
  registered : Bool := false
  connected : Bool := true
  /-- A newer connection has closed its channels and its socket. -/
  takenOver : Bool := false
  /-- The loop of `handle_connection` still takes packets. -/
  reading : Bool := true
  /-- It is between the two ends of `publish_will`. -/
  publishingWill : Bool := false
  cleanupDone : Bool := false
  cleanup : Option CleanupStage := none

namespace Connection

def isOpen (k : Connection) : Bool := k.connected && !k.takenOver

/-- The beginning of `cleanup_connection`. -/
def enterCleanup (k : Connection) : Connection :=
  if k.cleanupDone then k else { k with cleanupDone := true, cleanup := some .offline }

end Connection

/-- The last `will_delay_interval`. -/
def Will.delay (will : Will) : Nat :=
  will.props.foldl (fun delay property =>
    match property.id, property.value with
    | .willDelayInterval, .u32 value => value.toNat
    | _, _ => delay) 0

structure LiveBroker where
  broker : Broker := {}
  connections : SortedMap Nat Connection := .empty
  /-- The connection of each client that was accepted last. -/
  accepted : SortedMap Bytes Nat := .empty
  /-- The tasks that wait for a will's delay. -/
  delayedWills : List (Bytes × Will) := []
  /-- The wills given to `route_publish`. -/
  publishedWills : List (Bytes × Will) := []

namespace LiveBroker

def putConnection (s : LiveBroker) (conn : Nat) (k : Connection) : LiveBroker :=
  { s with connections := s.connections.put conn k }

def putSession (s : LiveBroker) (clientId : Bytes) (ss : SessionState) : LiveBroker :=
  { s with broker := { s.broker with sessions := s.broker.sessions.put clientId ss } }

/-- `handle_connect` up to the end of its first block. -/
def handleConnectState (s : LiveBroker) (conn : Nat) (cd : ConnectData) (now : Int) : Option LiveBroker :=
  if cd.clientId.isEmpty || (s.connections.get conn).isSome then none
  else some ({ s with broker := (s.broker.connectState cd now).1 }.putConnection conn { clientId := cd.clientId })

/-- The channels and the socket of the connection that was there are closed. -/
def closeTakeover (connections : SortedMap Nat Connection) (takeoverConn : Option Nat) : SortedMap Nat Connection :=
  match takeoverConn with
  | none => connections
  | some old =>
    match connections.get old with
    | none => connections
    | some k => connections.put old { k with takenOver := true }

/-- The second block of `handle_connect`, with which the connection counts as accepted. -/
def handleConnectRegister (s : LiveBroker) (conn : Nat) : Option LiveBroker := do
  let k ← s.connections.get conn
  if k.registered then none
  else
    let (broker, takeoverConn) := s.broker.connectRegister k.clientId conn
    some { s with
      broker
      connections := closeTakeover (s.connections.put conn { k with registered := true }) takeoverConn
      accepted := s.accepted.put k.clientId conn }

def handleSubscribe (s : LiveBroker) (conn : Nat) (entry : SubscribeEntry) : Option LiveBroker := do
  let k ← s.connections.get conn
  if k.registered && validateTopicFilter entry.topicFilter then
    (s.broker.subscribe k.clientId entry).map fun done => { s with broker := done.1 }
  else none

def handleUnsubscribe (s : LiveBroker) (conn : Nat) (filter : Bytes) : Option LiveBroker := do
  let k ← s.connections.get conn
  if k.registered then (s.broker.unsubscribe k.clientId filter).map fun done => { s with broker := done.1 }
  else none

/-- The connection ends without a handler: the CONNACK could not be written, a write failed, or a packet was refused. -/
def close (s : LiveBroker) (conn : Nat) : Option LiveBroker :=
  (s.connections.get conn).map fun k => s.putConnection conn { k with connected := false }

/-- `handle_disconnect`, with the `session_expiry_interval` of the packet if it has one. -/
def handleDisconnect (s : LiveBroker) (conn : Nat) (expiry : Option UInt32) : Option LiveBroker := do
  let k ← s.connections.get conn
  let ss ← s.broker.sessions.get k.clientId
  if k.registered && k.reading then
    let ss := { ss with
      willMsg := none
      sessionExpiryInterval := (expiry.map (·.toNat)).getD ss.sessionExpiryInterval }
    some ((s.putSession k.clientId ss).putConnection conn { k with connected := false, reading := false }.enterCleanup)
  else none

/-- `handle_unexpected_disconnect` up to the routing of the will. -/
def handleUnexpectedDisconnect (s : LiveBroker) (conn : Nat) : Option LiveBroker := do
  let k ← s.connections.get conn
  let ss ← s.broker.sessions.get k.clientId
  if k.registered && k.reading then
    let k := { k with connected := false, reading := false }
    match ss.willMsg with
    | none => some (s.putConnection conn k.enterCleanup)
    | some will =>
      if 0 < will.delay then
        some (({ s with delayedWills := s.delayedWills ++ [(k.clientId, will)] }.putSession k.clientId
          { ss with willMsg := none }).putConnection conn k.enterCleanup)
      else
        -- `publish_will` copies the will before it waits for anything
        some ({ s with publishedWills := s.publishedWills ++ [(k.clientId, will)] }.putConnection conn
          { k with publishingWill := true })
  else none

/-- The end of `publish_will`. -/
def finishPublishWill (s : LiveBroker) (conn : Nat) : Option LiveBroker := do
  let k ← s.connections.get conn
  let ss ← s.broker.sessions.get k.clientId
  if k.publishingWill then
    some ((s.putSession k.clientId { ss with willMsg := none }).putConnection conn
      { k with publishingWill := false }.enterCleanup)
  else none

/-- `keep_alive_watchdog` when the time is up. -/
def keepAliveTimeout (s : LiveBroker) (conn : Nat) : Option LiveBroker := do
  let k ← s.connections.get conn
  if k.registered && k.connected then some (s.putConnection conn { k with connected := false }.enterCleanup)
  else none

/-- The end of one `will_delay_task`. -/
def willDelayTask (s : LiveBroker) (task : Nat) : Option LiveBroker :=
  s.delayedWills[task]?.map fun delayed =>
    let s := { s with delayedWills := s.delayedWills.eraseIdx task }
    if s.broker.sessionOnline delayed.1 then s else { s with publishedWills := s.publishedWills ++ [delayed] }

def cleanupOffline (s : LiveBroker) (conn : Nat) (now : Int) : Option LiveBroker := do
  let k ← s.connections.get conn
  if k.cleanup = some .offline then
    (s.broker.cleanupOffline k.clientId now).map fun broker =>
      { s with broker }.putConnection conn { k with cleanup := some .unregister }
  else none

def cleanupUnregister (s : LiveBroker) (conn : Nat) : Option LiveBroker := do
  let k ← s.connections.get conn
  if k.cleanup = some .unregister then
    some ({ s with broker := s.broker.cleanupUnregister k.clientId }.putConnection conn { k with cleanup := some .remove })
  else none

def cleanupRemove (s : LiveBroker) (conn : Nat) : Option LiveBroker := do
  let k ← s.connections.get conn
  if k.cleanup = some .remove then
    (s.broker.cleanupRemove k.clientId).map fun broker => { s with broker }.putConnection conn { k with cleanup := none }
  else none

end LiveBroker

end Cnetmod.Mqtt
