import Cnetmod.Coding.SortedMap
import Cnetmod.Mqtt.Source.TopicFilter

/-!
# Authorization

`security_policy.cpp`: the rules are gone through in order and the last one that
matches the topic and the user's groups decides. Passwords are not modelled.
-/
namespace Cnetmod.Mqtt

open Coding (Bytes SortedMap)

inductive AuthAction where
  | allow | deny
  deriving DecidableEq

structure UserEntry where
  groups : List Bytes := []

structure AuthRule where
  topicFilter : Bytes
  pubAction : AuthAction := .deny
  subAction : AuthAction := .deny
  groups : List Bytes := []

structure SecurityConfig where
  users : SortedMap Bytes UserEntry := .empty
  rules : List AuthRule := []

def matchesGroups (rules groups : List Bytes) : Bool :=
  rules.isEmpty || groups.any (rules.contains ·)

namespace SecurityConfig

def getUserGroups (c : SecurityConfig) (username : Bytes) : List Bytes :=
  match c.users.get username with
  | some user => user.groups
  | none => []

/-- `matches_topic` and `matches_groups` of one rule. -/
def applies (c : SecurityConfig) (username topic : Bytes) (rule : AuthRule) : Bool :=
  topicMatches rule.topicFilter topic && matchesGroups rule.groups (c.getUserGroups username)

/-- The loop over the rules, for one of their two actions. -/
def authorize (c : SecurityConfig) (action : AuthRule → AuthAction) (username topic : Bytes) : Bool :=
  if c.rules.isEmpty then true
  else c.rules.foldl (fun allowed rule =>
    if c.applies username topic rule then decide (action rule = .allow) else allowed) false

def authorizePublish (c : SecurityConfig) (username topic : Bytes) : Bool :=
  c.authorize (·.pubAction) username topic

def authorizeSubscribe (c : SecurityConfig) (username topic : Bytes) : Bool :=
  c.authorize (·.subAction) username topic

def enabled (c : SecurityConfig) : Bool := !c.users.records.isEmpty || !c.rules.isEmpty

end SecurityConfig

end Cnetmod.Mqtt
