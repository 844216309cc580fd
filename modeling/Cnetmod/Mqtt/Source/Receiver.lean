import Cnetmod.Mqtt.Source.Security
import Cnetmod.Mqtt.Source.SessionState

/-!
# Packets from publishers

`handle_publish` and `handle_pubrel` of `broker/runtime.cpp`, with `topic_alias_recv`.
What is handed to `route_publish` is part of the result; a retained message is put
into the retained store right before.
-/
namespace Cnetmod.Mqtt

open Coding (Bytes SortedMap)

structure TopicAliasRecv where
  max : Nat := 0
  aliases : SortedMap Nat Bytes := .empty

namespace TopicAliasRecv

def insertOrUpdate (r : TopicAliasRecv) (topic : Bytes) (number : Nat) : TopicAliasRecv :=
  if number ≠ 0 ∧ number ≤ r.max then { r with aliases := r.aliases.put number topic } else r

def find (r : TopicAliasRecv) (number : Nat) : Bytes := (r.aliases.get number).getD []

def resolve (r : TopicAliasRecv) (topic : Bytes) (number : Nat) : Bytes × TopicAliasRecv :=
  if number = 0 then (topic, r)
  else if topic.isEmpty then (r.find number, r)
  else (topic, r.insertOrUpdate topic number)

end TopicAliasRecv

/-- The last topic alias among the properties. -/
def topicAlias (props : Properties) : Nat :=
  props.foldl (fun number property => match property.id, property.value with
    | .topicAlias, .u16 value => value.toNat
    | _, _ => number) 0

structure BrokerOptions where
  maximumQos : Qos := .exactlyOnce
  security : SecurityConfig := {}

/-- What becomes of a PUBLISH before its QoS is looked at. -/
inductive PublishCheck where
  /-- `send_disconnect_and_close`. -/
  | closed
  | dropped
  | accepted (msg : PublishMessage)

/-- The topic of a PUBLISH of a version 5 connection with an alias. -/
def resolveTopic (version : ProtocolVersion) (aliasRecv : TopicAliasRecv) (msg : PublishMessage) :
    Option PublishMessage × TopicAliasRecv :=
  let number := topicAlias msg.props
  if version = .v5 ∧ number ≠ 0 then
    let (resolved, aliasRecv) := aliasRecv.resolve msg.topic number
    (if resolved.isEmpty then none else some { msg with topic := resolved }, aliasRecv)
  else (some msg, aliasRecv)

def checkPublish (opts : BrokerOptions) (version : ProtocolVersion) (aliasRecv : TopicAliasRecv) (username : Bytes)
    (msg : PublishMessage) : PublishCheck :=
  if opts.maximumQos.code < msg.qosValue.code then .closed
  else match (resolveTopic version aliasRecv msg).1 with
    | none => .dropped
    | some msg =>
      if !validateTopicName msg.topic then .dropped
      else if opts.security.enabled && !opts.security.authorizePublish username msg.topic then .dropped
      else .accepted msg

/-- `handle_publish` after the checks: the session and what is routed at once. -/
def acceptPublish (ss : SessionState) (msg : PublishMessage) : SessionState × Option PublishMessage :=
  if msg.qosValue = .exactlyOnce ∧ msg.packetId ≠ 0 then
    ({ ss with
      qos2Received := insert msg.packetId ss.qos2Received
      qos2PendingPublish := ss.qos2PendingPublish.put msg.packetId msg }, none)
  else (ss, some msg)

/-- `handle_pubrel` once its PUBCOMP is written. -/
def handlePubrel (ss : SessionState) (packetId : Nat) : SessionState × Option PublishMessage :=
  ({ ss with
    qos2Received := ss.qos2Received.erase packetId
    qos2PendingPublish := ss.qos2PendingPublish.delete packetId }, ss.qos2PendingPublish.get packetId)

end Cnetmod.Mqtt
