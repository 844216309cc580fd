import Cnetmod.Coding.SortedMap
import Cnetmod.Coding.TrieCanonical
import Cnetmod.Mqtt.Source.TopicFilter
import Cnetmod.Mqtt.Source.Types

/-!
# Retained messages

`mqtt_retained.cpp`: the messages by topic, and a trie of them over the levels of
their topics for matching. A message is stored under its own topic.
-/
namespace Cnetmod.Mqtt

open Coding (Bytes SortedMap Trie)

structure RetainedMessage where
  topic : Bytes
  payload : Bytes
  qosValue : Qos := .atMostOnce
  props : Properties := []

structure RetainedStore where
  messages : SortedMap Bytes RetainedMessage := .empty
  root : Trie Bytes (Option RetainedMessage) := .node none []

namespace RetainedStore

def trieInsert (s : RetainedStore) (message : RetainedMessage) : RetainedStore :=
  { s with root := s.root.insert none (fun _ => some message) (splitTopic message.topic) }

def trieErase (s : RetainedStore) (topic : Bytes) : RetainedStore :=
  { s with root := s.root.prune Option.isNone (fun _ => none) (splitTopic topic) }

def remove (s : RetainedStore) (topic : Bytes) : RetainedStore :=
  if (s.messages.get topic).isNone then s
  else { s with messages := s.messages.delete topic }.trieErase topic

/-- A message without payload deletes the one that is there. -/
def store (s : RetainedStore) (message : RetainedMessage) : RetainedStore :=
  if message.payload.isEmpty then s.remove message.topic
  else { s with messages := s.messages.put message.topic message }.trieInsert message

mutual

def collectAll : Trie Bytes (Option RetainedMessage) → List RetainedMessage
  | .node message children => message.toList ++ collectChildren children

def collectChildren : List (Bytes × Trie Bytes (Option RetainedMessage)) → List RetainedMessage
  | [] => []
  | (_, child) :: children => collectAll child ++ collectChildren children

end

/-- `first` says that this is the first level, at which `+` does not stand for names that begin with a dollar sign. -/
def trieMatch (first : Bool) : List Bytes → Trie Bytes (Option RetainedMessage) → List RetainedMessage
  | [], node => node.value.toList
  | segment :: segments, node =>
    if segment = "#" then collectAll node
    else if segment = "+" then
      node.children.flatMap fun child =>
        if first && child.1.head? = some dollar then [] else trieMatch false segments child.2
    else ((Trie.child segment node.children).map (trieMatch false segments)).getD []

/-- `match`. -/
def matching (s : RetainedStore) (filter : Bytes) : List RetainedMessage := trieMatch true (splitTopic filter) s.root

end RetainedStore

end Cnetmod.Mqtt
