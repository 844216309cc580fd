import Cnetmod.Coding.SortedMap
import Cnetmod.Mqtt.Source.TopicFilter

/-!
# Shared subscription groups

`shared_target_store` of `shared_sub.cppm` and `mqtt_shared_subscription.cpp`. The
groups are gone through in the order of their keys.
-/
namespace Cnetmod.Mqtt

open Coding (Bytes SortedMap)

structure SharedMember where
  clientId : Bytes
  topicFilter : Bytes

structure GroupState where
  members : List SharedMember := []
  rrIndex : Nat := 0

structure SharedTargetStore where
  groups : SortedMap Bytes GroupState := .empty

namespace GroupState

def withoutClient (g : GroupState) (clientId : Bytes) : GroupState :=
  { g with members := g.members.filter (·.clientId ≠ clientId) }

/-- The first online member from the round-robin position on, or the one at the position. -/
def selectOnlineTarget (g : GroupState) (online : Bytes → Bool) : Bytes × GroupState :=
  let n := g.members.length
  match ((List.range n).map fun attempt => (g.rrIndex + attempt) % n).find? fun idx =>
      (g.members[idx]?).any fun member => online member.clientId with
  | some idx => (((g.members[idx]?).map (·.clientId)).getD [], { g with rrIndex := idx + 1 })
  | none => (((g.members[g.rrIndex % n]?).map (·.clientId)).getD [], { g with rrIndex := g.rrIndex + 1 })

end GroupState

namespace SharedTargetStore

def makeKey (shareName filter : Bytes) : Bytes := shareName ++ slash :: filter

def addMember (s : SharedTargetStore) (shareName filter clientId : Bytes) : SharedTargetStore :=
  let group := (s.groups.get (makeKey shareName filter)).getD {}
  let group := if group.members.any (·.clientId = clientId) then group
    else { group with members := group.members ++ [⟨clientId, filter⟩] }
  { s with groups := s.groups.put (makeKey shareName filter) group }

def removeMember (s : SharedTargetStore) (shareName filter clientId : Bytes) : SharedTargetStore :=
  match s.groups.get (makeKey shareName filter) with
  | none => s
  | some group =>
    if (group.withoutClient clientId).members.isEmpty then
      { s with groups := s.groups.delete (makeKey shareName filter) }
    else { s with groups := s.groups.put (makeKey shareName filter) (group.withoutClient clientId) }

def removeClient (s : SharedTargetStore) (clientId : Bytes) : SharedTargetStore :=
  { s with groups := s.groups.filterMapValues fun group =>
      if (group.withoutClient clientId).members.isEmpty then none else some (group.withoutClient clientId) }

/-- One group of the loop in `find_matching_groups`: its share name and filter are looked up again to
select a member. -/
def selectFrom (topic : Bytes) (online : Bytes → Bool) (found : List (Bytes × Bytes) × SharedTargetStore)
    (record : Bytes × GroupState) : List (Bytes × Bytes) × SharedTargetStore :=
  match record.2.members.head? with
  | none => found
  | some firstMember =>
    if topicMatches firstMember.topicFilter topic then
      let shareName := record.1.takeWhile (· ≠ slash)
      let key := makeKey shareName firstMember.topicFilter
      match found.2.groups.get key with
      | none => found
      | some group =>
        if group.members.isEmpty then found
        else
          let (cid, group) := group.selectOnlineTarget online
          (if cid.isEmpty then found.1 else found.1 ++ [(cid, firstMember.topicFilter)],
            { found.2 with groups := found.2.groups.put key group })
    else found

/-- The selected client and the filter of each group that matches the topic. -/
def findMatchingGroups (s : SharedTargetStore) (topic : Bytes) (online : Bytes → Bool) :
    List (Bytes × Bytes) × SharedTargetStore :=
  s.groups.records.foldl (selectFrom topic online) ([], s)

end SharedTargetStore

end Cnetmod.Mqtt
