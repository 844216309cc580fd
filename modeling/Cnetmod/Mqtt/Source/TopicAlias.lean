import Cnetmod.Mqtt.Source.Receiver
import Cnetmod.Mqtt.Source.Retained

/-!
# Topic aliases and what is sent on

`topic_alias_send` of `mqtt_topic_alias.cpp`, and the messages that `route_publish`,
`deliver_retained` and `encode_publish` make of one that came in.
-/
namespace Cnetmod.Mqtt

open Coding (Bytes SortedMap)

structure TopicAliasSend where
  max : Nat
  aliasToTopic : SortedMap Nat Bytes := .empty
  topicToAlias : SortedMap Bytes Nat := .empty
  lruTime : SortedMap Nat Nat := .empty
  lruClock : Nat := 0

namespace TopicAliasSend

/-- `lru_time_[number] = ++lru_clock_`. -/
def touch (s : TopicAliasSend) (number : Nat) : TopicAliasSend :=
  let clock := (s.lruClock + 1) % 2 ^ 64
  { s with lruTime := s.lruTime.put number clock, lruClock := clock }

def insertOrUpdate (s : TopicAliasSend) (topic : Bytes) (number : Nat) : TopicAliasSend :=
  if number = 0 ∨ s.max < number then s
  else
    let topicToAlias := match s.aliasToTopic.get number with
      | some old => s.topicToAlias.delete old
      | none => s.topicToAlias
    { s with
      aliasToTopic := s.aliasToTopic.put number topic
      topicToAlias := topicToAlias.put topic number }.touch number

/-- The first loop of `get_lru_alias`. Its 16-bit variable comes back to 0 if no alias up to 65535 is free. -/
def freeAlias (s : TopicAliasSend) : Option Nat :=
  (List.range' 1 s.max ++ if s.max = 65535 then [0] else []).find? fun number => (s.aliasToTopic.get number).isNone

def getLruAlias (s : TopicAliasSend) : Nat :=
  if s.max = 0 then 0
  else s.freeAlias.getD
    (s.lruTime.records.foldl (fun oldest record => if record.2 < oldest.2 then record else oldest) (1, 2 ^ 64 - 1)).1

/-- The alias, and whether the topic has to be sent with it. -/
def allocate (s : TopicAliasSend) (topic : Bytes) : (Nat × Bool) × TopicAliasSend :=
  if s.max = 0 then ((0, false), s)
  else match s.topicToAlias.get topic with
    | some number => ((number, false), s.touch number)
    | none => ((s.getLruAlias, true), s.insertOrUpdate topic s.getLruAlias)

end TopicAliasSend

/-- What `route_publish` makes for one subscriber. -/
def forward (msg : PublishMessage) (entry : SubscribeEntry) : PublishMessage where
  topic := msg.topic
  payload := msg.payload
  qosValue := msg.qosValue.min entry.maxQos
  props := msg.props ++ if 0 < entry.subscriptionId then [⟨.subscriptionIdentifier, .u32 entry.subscriptionId⟩] else []

def retainedOf (msg : PublishMessage) : RetainedMessage := ⟨msg.topic, msg.payload, msg.qosValue, msg.props⟩

/-- What `deliver_retained` makes for one subscriber. -/
def RetainedMessage.deliver (rm : RetainedMessage) (entry : SubscribeEntry) : PublishMessage where
  topic := rm.topic
  payload := rm.payload
  qosValue := rm.qosValue.min entry.maxQos
  retain := true
  props := rm.props

/-- The properties that `encode_publish` writes. -/
def sentProps (version : ProtocolVersion) (msg : PublishMessage) : Properties := if version = .v5 then msg.props else []

end Cnetmod.Mqtt
