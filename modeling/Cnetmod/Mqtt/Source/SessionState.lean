import Mathlib.Data.Finset.Basic
import Cnetmod.Coding.SortedMap
import Cnetmod.Mqtt.Source.Types

/-!
# Sessions

`session_state.cppm` and `mqtt_session_state.cpp`. Packet identifiers have 16 bits,
times are in nanoseconds and intervals in seconds.
-/
namespace Cnetmod.Mqtt

open Coding (Bytes SortedMap)

/-- The acknowledgement an entry waits for: one of `control_packet_type`. -/
inductive ExpectedAck where
  | puback | pubrec | pubcomp

structure InflightMessage where
  packetId : Nat
  msg : PublishMessage
  expectedAck : ExpectedAck := .puback
  sendTime : Int := 0
  retryCount : Nat := 0

structure SessionState where
  clientId : Bytes := []
  version : ProtocolVersion := .v311
  cleanSession : Bool := true
  subscriptions : SortedMap Bytes SubscribeEntry := .empty
  inflightOut : List InflightMessage := []
  qos2Received : Finset Nat := ∅
  qos2PendingPublish : SortedMap Nat PublishMessage := .empty
  offlineQueue : List PublishMessage := []
  maxOfflineQueue : Nat := 1000
  willMsg : Option Will := none
  sessionExpiryInterval : Nat := 0
  receiveMaximum : Nat := 65535
  retryInterval : Int := 20
  maxRetries : Nat := 5
  online : Bool := false
  disconnectTime : Int := 0
  nextPacketId : Nat := 1
  allocatedIds : Finset Nat := ∅
  keepAlive : Nat := 0
  username : Bytes := []

namespace SessionState

/-- `next_packet_id++`, then past zero. -/
def advance (next : Nat) : Nat := if (next + 1) % 65536 = 0 then 1 else (next + 1) % 65536

/-- The remaining attempts of the search for a free identifier. -/
def allocFrom (s : SessionState) : Nat → Nat × SessionState
  | 0 => (s.nextPacketId, { s with nextPacketId := (s.nextPacketId + 1) % 65536 })
  | attempts + 1 =>
    let id := s.nextPacketId
    let s := { s with nextPacketId := advance id }
    if id ∉ s.allocatedIds ∧ id ∉ s.qos2Received then (id, { s with allocatedIds := insert id s.allocatedIds })
    else s.allocFrom attempts

def allocPacketId (s : SessionState) : Nat × SessionState := s.allocFrom 65535

def releasePacketId (s : SessionState) (id : Nat) : SessionState :=
  { s with allocatedIds := s.allocatedIds.erase id }

def addSubscription (s : SessionState) (entry : SubscribeEntry) : SessionState × Bool :=
  ({ s with subscriptions := s.subscriptions.put entry.topicFilter entry }, (s.subscriptions.get entry.topicFilter).isNone)

def removeSubscription (s : SessionState) (topicFilter : Bytes) : SessionState × Bool :=
  ({ s with subscriptions := s.subscriptions.delete topicFilter }, (s.subscriptions.get topicFilter).isSome)

def goOnline (s : SessionState) : SessionState := { s with online := true }

def goOffline (s : SessionState) (now : Int) : SessionState := { s with online := false, disconnectTime := now }

def clear (s : SessionState) : SessionState :=
  { s with
    subscriptions := .empty
    inflightOut := []
    allocatedIds := ∅
    qos2Received := ∅
    qos2PendingPublish := .empty
    offlineQueue := []
    willMsg := none
    nextPacketId := 1 }

def isExpired (s : SessionState) (now : Int) : Bool :=
  if s.online || s.sessionExpiryInterval = 0xFFFFFFFF then false
  else if s.sessionExpiryInterval = 0 then true
  else decide ((s.sessionExpiryInterval : Int) * 1000000000 ≤ now - s.disconnectTime)

end SessionState

/-- Whole seconds since the message was queued, in 32 bits. -/
def elapsedSeconds (message : PublishMessage) (now : Int) : UInt32 :=
  .ofInt ((now - message.enqueueTime).tdiv 1000000000)

/-- The properties after the first expiry interval has been counted down, or none if it has passed. -/
def countDown (elapsed : UInt32) : Properties → Option Properties
  | [] => some []
  | property :: props =>
    match property.id, property.value with
    | .messageExpiryInterval, .u32 value =>
      if value ≤ elapsed then none else some ({ property with value := .u32 (value - elapsed) } :: props)
    | _, _ => (countDown elapsed props).map (property :: ·)

/-- `check_message_expiry`: nothing when the message has expired. -/
def checkMessageExpiry (message : PublishMessage) (now : Int) : Option PublishMessage :=
  (countDown (elapsedSeconds message now) message.props).map fun props => { message with props }

abbrev SessionStore := SortedMap Bytes SessionState

/-- `create_or_resume`: the session and whether it was there. -/
def createOrResume (store : SessionStore) (clientId : Bytes) (cleanSession : Bool) (version : ProtocolVersion) :
    SessionState × Bool :=
  match store.get clientId with
  | some state =>
    let state := if cleanSession then state.clear else state
    (({ state with version, cleanSession }).goOnline, !cleanSession)
  | none => (({ clientId, version, cleanSession } : SessionState).goOnline, false)

end Cnetmod.Mqtt
