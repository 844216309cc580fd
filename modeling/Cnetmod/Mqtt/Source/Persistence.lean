import Cnetmod.Coding.Document
import Cnetmod.Mqtt.Source.Broker
import Cnetmod.Mqtt.Source.Retained

/-!
# Persistence

`persistence_store.cpp`: the converters between the state and JSON documents, and what
is saved and loaded with them. Numbers are read back in the width of their type.
-/
namespace Cnetmod.Mqtt

open Coding (Bytes ascii Document DocumentFormat)

namespace PropertyId

def code : PropertyId → Nat
  | .payloadFormatIndicator => 1
  | .messageExpiryInterval => 2
  | .contentType => 3
  | .responseTopic => 8
  | .correlationData => 9
  | .subscriptionIdentifier => 11
  | .sessionExpiryInterval => 17
  | .assignedClientIdentifier => 18
  | .serverKeepAlive => 19
  | .authenticationMethod => 21
  | .authenticationData => 22
  | .requestProblemInformation => 23
  | .willDelayInterval => 24
  | .requestResponseInformation => 25
  | .responseInformation => 26
  | .serverReference => 28
  | .reasonString => 31
  | .receiveMaximum => 33
  | .topicAliasMaximum => 34
  | .topicAlias => 35
  | .maximumQos => 36
  | .retainAvailable => 37
  | .userProperty => 38
  | .maximumPacketSize => 39
  | .wildcardSubscriptionAvailable => 40
  | .subscriptionIdentifierAvailable => 41
  | .sharedSubscriptionAvailable => 42

def all : List PropertyId :=
  [.payloadFormatIndicator, .messageExpiryInterval, .contentType, .responseTopic, .correlationData,
    .subscriptionIdentifier, .sessionExpiryInterval, .assignedClientIdentifier, .serverKeepAlive,
    .authenticationMethod, .authenticationData, .requestProblemInformation, .willDelayInterval,
    .requestResponseInformation, .responseInformation, .serverReference, .reasonString, .receiveMaximum,
    .topicAliasMaximum, .topicAlias, .maximumQos, .retainAvailable, .userProperty, .maximumPacketSize,
    .wildcardSubscriptionAvailable, .subscriptionIdentifierAvailable, .sharedSubscriptionAvailable]

/-- The cast of a code; one that no enumerator has is not written by the broker. -/
def ofCode (code : Nat) : PropertyId := (all.find? (·.code = code)).getD .payloadFormatIndicator

end PropertyId

def Qos.ofCode : Nat → Qos
  | 0 => .atMostOnce
  | 1 => .atLeastOnce
  | 2 => .exactlyOnce
  | _ => .reserved

def RetainHandling.code : RetainHandling → Nat
  | .send => 0
  | .sendOnlyNewSubscription => 1
  | .notSend => 2
  | .reserved => 3

def RetainHandling.ofCode : Nat → RetainHandling
  | 0 => .send
  | 1 => .sendOnlyNewSubscription
  | 2 => .notSend
  | _ => .reserved

def ProtocolVersion.code : ProtocolVersion → Nat
  | .v311 => 4
  | .v5 => 5

def ProtocolVersion.ofCode (code : Nat) : ProtocolVersion := if code = 5 then .v5 else .v311

def ExpectedAck.code : ExpectedAck → Nat
  | .puback => 0x40
  | .pubrec => 0x50
  | .pubcomp => 0x70

def ExpectedAck.ofCode (code : Nat) : ExpectedAck :=
  if code = 0x50 then .pubrec else if code = 0x70 then .pubcomp else .puback

def propToJson (property : MqttProperty) : Document :=
  .object (("id", .number property.id.code) :: match property.value with
    | .u8 value => [("type", .text "u8"), ("value", .number value.toNat)]
    | .u16 value => [("type", .text "u16"), ("value", .number value.toNat)]
    | .u32 value => [("type", .text "u32"), ("value", .number value.toNat)]
    | .str value => [("type", .text "str"), ("value", .text value)]
    | .pair key value => [("type", .text "pair"), ("key", .text key), ("val", .text value)])

/-- A property without a known type keeps the value it is made with, a zero byte. -/
def propFromJson (object : Document) : MqttProperty where
  id := .ofCode (object.numberOr "id" 0)
  value :=
    let type := object.textOr "type" []
    if type = "u8" then .u8 (.ofNat (object.numberOr "value" 0))
    else if type = "u16" then .u16 (.ofNat (object.numberOr "value" 0))
    else if type = "u32" then .u32 (.ofNat (object.numberOr "value" 0))
    else if type = "str" then .str (object.textOr "value" [])
    else if type = "pair" then .pair (object.textOr "key" []) (object.textOr "val" [])
    else .u8 0

def propsToJson (props : Properties) : Document := .array (props.map propToJson)

/-- The properties in the field `props`, none if it is missing or not an array. -/
def propsFromJson (object : Document) : Properties := (object.elements "props").map propFromJson

def willToJson (value : Will) : Document :=
  .object [("topic", .text value.topic), ("message", .text value.message),
    ("qos", .number value.qosValue.code), ("retain", .bool value.retain),
    ("props", propsToJson value.props)]

def willFromJson (object : Document) : Will where
  topic := object.textOr "topic" []
  message := object.textOr "message" []
  qosValue := .ofCode (object.numberOr "qos" 0)
  retain := object.boolOr "retain" false
  props := propsFromJson object

def subToJson (value : SubscribeEntry) : Document :=
  .object [("topic_filter", .text value.topicFilter), ("max_qos", .number value.maxQos.code),
    ("no_local", .bool value.noLocal), ("retain_as_published", .bool value.retainAsPublished),
    ("rh", .number value.rh.code)]

def subFromJson (object : Document) : SubscribeEntry where
  topicFilter := object.textOr "topic_filter" []
  maxQos := .ofCode (object.numberOr "max_qos" 0)
  noLocal := object.boolOr "no_local" false
  retainAsPublished := object.boolOr "retain_as_published" false
  rh := .ofCode (object.numberOr "rh" 0)

def publishToJson (value : PublishMessage) : Document :=
  .object [("topic", .text value.topic), ("payload", .text value.payload),
    ("qos", .number value.qosValue.code), ("retain", .bool value.retain),
    ("props", propsToJson value.props)]

def publishFromJson (object : Document) : PublishMessage where
  topic := object.textOr "topic" []
  payload := object.textOr "payload" []
  qosValue := .ofCode (object.numberOr "qos" 0)
  retain := object.boolOr "retain" false
  props := propsFromJson object

def inflightToJson (value : InflightMessage) : Document :=
  .object [("packet_id", .number value.packetId), ("msg", publishToJson value.msg),
    ("expected_ack", .number value.expectedAck.code), ("retry_count", .number value.retryCount)]

def inflightFromJson (now : Int) (object : Document) : InflightMessage where
  packetId := object.numberOr "packet_id" 0 % 65536
  msg := ((object.find "msg").map publishFromJson).getD { topic := [] }
  expectedAck := .ofCode (object.numberOr "expected_ack" 0x40 % 256)
  retryCount := object.numberOr "retry_count" 0 % 256
  sendTime := now

def sessionToJson (value : SessionState) : Document :=
  .object ([(ascii "client_id", .text value.clientId), (ascii "version", .number value.version.code),
    (ascii "clean_session", .bool value.cleanSession), (ascii "session_expiry", .number value.sessionExpiryInterval),
    (ascii "next_packet_id", .number value.nextPacketId), (ascii "username", .text value.username),
    (ascii "subscriptions", .object (value.subscriptions.records.map fun record => (record.1, subToJson record.2))),
    (ascii "offline_queue", .array (value.offlineQueue.map publishToJson)),
    (ascii "inflight_out", .array (value.inflightOut.map inflightToJson))] ++
    (value.willMsg.map fun will => (ascii "will", willToJson will)).toList)

def willOf (object : Document) : Option Will :=
  match object.find "will" with
  | none | some .null => none
  | some will => some (willFromJson will)

def sessionFromJson (now : Int) (object : Document) : SessionState where
  clientId := object.textOr "client_id" []
  version := .ofCode (object.numberOr "version" 4)
  cleanSession := object.boolOr "clean_session" true
  sessionExpiryInterval := object.numberOr "session_expiry" 0 % 4294967296
  nextPacketId := object.numberOr "next_packet_id" 1 % 65536
  username := object.textOr "username" []
  subscriptions := (object.members "subscriptions").foldl
    (fun subscriptions record => subscriptions.put record.1 (subFromJson record.2)) .empty
  offlineQueue := (object.elements "offline_queue").map publishFromJson
  inflightOut := (object.elements "inflight_out").map (inflightFromJson now)
  willMsg := willOf object
  online := false

def retainedToJson (value : RetainedMessage) : Document :=
  .object [("topic", .text value.topic), ("payload", .text value.payload),
    ("qos", .number value.qosValue.code), ("props", propsToJson value.props)]

def retainedFromJson (object : Document) : RetainedMessage where
  topic := object.textOr "topic" []
  payload := object.textOr "payload" []
  qosValue := .ofCode (object.numberOr "qos" 0)
  props := propsFromJson object

section

variable {τ : Type*} (format : DocumentFormat τ)

/-- The sessions worth saving. -/
def SessionState.isSaved (value : SessionState) : Bool :=
  !value.cleanSession || !value.offlineQueue.isEmpty || !value.subscriptions.records.isEmpty

def saveSessions (store : SessionStore) : τ :=
  format.write (.array ((store.records.filter (·.2.isSaved)).map fun record => sessionToJson record.2))

def loadSessions (now : Int) (content : τ) : Except Bytes SessionStore :=
  match format.parse content with
  | none => .error "sessions.json parse error"
  | some (.array objects) => .ok (Broker.loadSessions (objects.map (sessionFromJson now)))
  | some _ => .error "sessions.json: not an array"

def saveRetained (store : RetainedStore) : τ :=
  format.write (.array (store.messages.records.map fun record => retainedToJson record.2))

/-- The loop of `load_retained`. -/
def loadMessage (store : RetainedStore) (value : RetainedMessage) : RetainedStore :=
  if value.topic.isEmpty then store else store.store value

def loadRetained (content : τ) : Except Bytes RetainedStore :=
  match format.parse content with
  | none => .error "retained.json parse error"
  | some (.array objects) => .ok ((objects.map retainedFromJson).foldl loadMessage {})
  | some _ => .error "retained.json: not an array"

end

end Cnetmod.Mqtt
