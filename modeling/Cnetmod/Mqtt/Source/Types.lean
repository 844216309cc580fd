import Cnetmod.Coding.Bits

/-!
# MQTT messages

`model.cppm`. Enumerations decoded from two bits also have the fourth value, which
the decoder does not refuse.
-/
namespace Cnetmod.Mqtt

open Coding (Bytes)

inductive ProtocolVersion where
  | v311 | v5
  deriving DecidableEq

inductive Qos where
  | atMostOnce | atLeastOnce | exactlyOnce | reserved
  deriving DecidableEq

def Qos.code : Qos → Nat
  | .atMostOnce => 0
  | .atLeastOnce => 1
  | .exactlyOnce => 2
  | .reserved => 3

/-- `static_cast<qos>(std::min(a, b))`. -/
def Qos.min (a b : Qos) : Qos := if a.code ≤ b.code then a else b

inductive PropertyId where
  | payloadFormatIndicator | messageExpiryInterval | contentType | responseTopic | correlationData
  | subscriptionIdentifier | sessionExpiryInterval | assignedClientIdentifier | serverKeepAlive
  | authenticationMethod | authenticationData | requestProblemInformation | willDelayInterval
  | requestResponseInformation | responseInformation | serverReference | reasonString | receiveMaximum
  | topicAliasMaximum | topicAlias | maximumQos | retainAvailable | userProperty | maximumPacketSize
  | wildcardSubscriptionAvailable | subscriptionIdentifierAvailable | sharedSubscriptionAvailable
  deriving DecidableEq

inductive PropertyValue where
  | u8 (value : UInt8)
  | u16 (value : UInt16)
  | u32 (value : UInt32)
  | str (value : Bytes)
  | pair (key value : Bytes)
  deriving DecidableEq

structure MqttProperty where
  id : PropertyId
  value : PropertyValue
  deriving DecidableEq

abbrev Properties := List MqttProperty

structure Will where
  topic : Bytes
  message : Bytes
  qosValue : Qos := .atMostOnce
  retain : Bool := false
  props : Properties := []
  deriving DecidableEq

inductive RetainHandling where
  | send | sendOnlyNewSubscription | notSend | reserved

structure SubscribeEntry where
  topicFilter : Bytes
  maxQos : Qos := .atMostOnce
  noLocal : Bool := false
  retainAsPublished : Bool := false
  rh : RetainHandling := .send
  subscriptionId : UInt32 := 0

/-- Times are in nanoseconds. -/
structure PublishMessage where
  topic : Bytes
  payload : Bytes := []
  qosValue : Qos := .atMostOnce
  retain : Bool := false
  dup : Bool := false
  packetId : Nat := 0
  props : Properties := []
  enqueueTime : Int := 0
  deriving DecidableEq

end Cnetmod.Mqtt
