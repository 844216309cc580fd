import Mathlib.Data.List.Basic

/-!
# Cached responses in groups

`http_cache.cpp`: what the wrappers do to the store and to the registry, one call of either
in each step. Of the store only the keys matter. Every key has one group.
-/
namespace Cnetmod.Http

/-- What a request that has begun to change the store does next. -/
inductive CacheTask (κ γ : Type) where
  /-- `cache_response` has set the key and registers it. -/
  | add (key : κ)
  /-- `evict_all_in_group` has read the keys and deletes them, then clears the group. -/
  | evict (group : γ) (keys : List κ)
  /-- `cache_evict` has deleted the key and takes it out of the registry. -/
  | removeKey (key : κ)
  deriving DecidableEq

structure GroupedCache (κ γ : Type) where
  store : List κ := []
  /-- `groups_`, a set of keys for each group. -/
  registry : List (γ × κ) := []
  tasks : List (CacheTask κ γ) := []

namespace GroupedCache

variable {κ γ : Type} [DecidableEq κ] [DecidableEq γ] (group : κ → γ)

def del (store : List κ) (key : κ) : List κ := store.filter (· ≠ key)

def keys (s : GroupedCache κ γ) (g : γ) : List κ := (s.registry.filter (·.1 = g)).map (·.2)

def cacheResponse (s : GroupedCache κ γ) (key : κ) : GroupedCache κ γ :=
  { s with store := s.store.insert key, tasks := .add key :: s.tasks }

def evictAllInGroup (s : GroupedCache κ γ) (g : γ) : GroupedCache κ γ := { s with tasks := .evict g (s.keys g) :: s.tasks }

def cacheEvict (s : GroupedCache κ γ) (key : κ) : GroupedCache κ γ :=
  { s with store := del s.store key, tasks := .removeKey key :: s.tasks }

/-- A request goes on. -/
def resume (s : GroupedCache κ γ) (task : CacheTask κ γ) : Option (GroupedCache κ γ) :=
  if task ∈ s.tasks then
    let s := { s with tasks := s.tasks.erase task }
    some <| match task with
      | .add key => { s with registry := s.registry.insert (group key, key) }
      | .evict g (key :: keys) => { s with store := del s.store key, tasks := .evict g keys :: s.tasks }
      | .evict g [] => { s with registry := s.registry.filter (·.1 ≠ g) }
      | .removeKey key => { s with registry := s.registry.filter (· ≠ (group key, key)) }
  else none

end GroupedCache

end Cnetmod.Http
