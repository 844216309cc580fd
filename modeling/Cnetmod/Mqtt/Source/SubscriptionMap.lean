import Cnetmod.Coding.SortedMap
import Cnetmod.Coding.Trie
import Cnetmod.Mqtt.Source.Types
import Cnetmod.Mqtt.Source.TopicFilter

/-!
# Index of subscriptions

`mqtt_subscription_map.cpp`: a trie over the levels of the filters, with the
subscribers at its nodes. The number of subscriptions is not kept.
-/
namespace Cnetmod.Mqtt

open Coding (Bytes SortedMap Trie)

/-- The subscribers of a node, by client. -/
abbrev Subscribers := SortedMap Bytes SubscribeEntry

def Subscribers.isNone (subscribers : Subscribers) : Bool := subscribers.records.isEmpty

structure SubscriptionMap where
  root : Trie Bytes Subscribers
  ordered : root.Ordered

namespace SubscriptionMap

def new : SubscriptionMap where
  root := .node .empty []
  ordered := Trie.ordered_leaf _

def subscribersAt (m : SubscriptionMap) (filter : Bytes) : Subscribers :=
  m.root.valueAt .empty (splitTopic filter)

def insert (m : SubscriptionMap) (filter clientId : Bytes) (entry : SubscribeEntry) : SubscriptionMap where
  root := m.root.insert .empty (·.put clientId entry) (splitTopic filter)
  ordered := Trie.insert_ordered _ m.ordered

def erase (m : SubscriptionMap) (filter clientId : Bytes) : SubscriptionMap :=
  if ((m.subscribersAt filter).get clientId).isSome then
    { root := m.root.prune Subscribers.isNone (·.delete clientId) (splitTopic filter)
      ordered := Trie.prune_ordered _ m.ordered }
  else m

def eraseClient (m : SubscriptionMap) (clientId : Bytes) : SubscriptionMap where
  root := m.root.pruneAll Subscribers.isNone (·.delete clientId)
  ordered := Trie.pruneAll_ordered m.ordered

/-- What `found` gives of a child, nothing if there is none. -/
def fromChild (node : Trie Bytes Subscribers) (key : Bytes)
    (found : Trie Bytes Subscribers → List (Bytes × SubscribeEntry)) : List (Bytes × SubscribeEntry) :=
  ((Trie.child key node.children).map found).getD []

def matchRecursive (dollarBlock : Bool) : List Bytes → Trie Bytes Subscribers → List (Bytes × SubscribeEntry)
  | [], node => (if dollarBlock then [] else fromChild node "#" (·.value.records)) ++ node.value.records
  | segment :: segments, node =>
    (if dollarBlock then [] else fromChild node "#" (·.value.records)) ++
    (if dollarBlock then [] else fromChild node "+" (matchRecursive false segments)) ++
    fromChild node segment (matchRecursive false segments)

/-- `match`: the filters that begin with a wildcard are not tried for names that begin with a dollar sign. -/
def matching (m : SubscriptionMap) (topic : Bytes) : List (Bytes × SubscribeEntry) :=
  matchRecursive (topic.head? = some dollar) (splitTopic topic) m.root

end SubscriptionMap

end Cnetmod.Mqtt
