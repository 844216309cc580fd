import Cnetmod.Consensus.Run
import Cnetmod.Http.Source.Cache

/-!
# Evicting a group

A key that is stored while its group is evicted can be taken out of the registry with the
keys that were deleted. Then no eviction of the group finds it.
-/
namespace Cnetmod.Http.GroupedCache

open Consensus (Reached)

variable {κ γ : Type} [DecidableEq κ] [DecidableEq γ] {group : κ → γ} {s t : GroupedCache κ γ}

inductive Step (κ γ : Type) where
  | cacheResponse (key : κ)
  | evictAllInGroup (g : γ)
  | cacheEvict (key : κ)
  | resume (task : CacheTask κ γ)
  /-- The store drops an entry by itself. -/
  | expire (key : κ)

variable (group) in
def step (s : GroupedCache κ γ) : Step κ γ → Option (GroupedCache κ γ)
  | .cacheResponse key => some (s.cacheResponse key)
  | .evictAllInGroup g => some (s.evictAllInGroup g)
  | .cacheEvict key => some (s.cacheEvict key)
  | .resume task => s.resume group task
  | .expire key => some { s with store := del s.store key }

variable (group) in
/-- What is taken out of the registry is not in the store, or is about to be registered. -/
def Apart (s : GroupedCache κ γ) : Step κ γ → Prop
  | .resume (.evict g []) => ∀ key ∈ s.store, group key = g → .add key ∈ s.tasks
  | .resume (.removeKey key) => key ∈ s.store → .add key ∈ s.tasks
  | _ => True

instance : LawfulBEq (CacheTask κ γ) := inferInstance

instance (s : GroupedCache κ γ) (a : Step κ γ) : Decidable (s.Apart group a) := by
  rcases a with _ | _ | _ | (_ | ⟨_, _ | _⟩ | _) | _ <;> dsimp only [Apart] <;> infer_instance

variable (group) in
def Listed (s : GroupedCache κ γ) : Prop := ∀ key ∈ s.store, (group key, key) ∈ s.registry ∨ .add key ∈ s.tasks

lemma mem_del {l : List κ} {k key : κ} : k ∈ del l key ↔ k ∈ l ∧ k ≠ key := by simp [del]

lemma mem_foldl_del {l ks : List κ} {k : κ} : k ∈ ks.foldl del l ↔ k ∈ l ∧ k ∉ ks := by
  induction ks generalizing l with
  | nil => simp
  | cons key ks ih => simp [ih, mem_del, and_assoc]

lemma Listed.resume {task : CacheTask κ γ} (hl : s.Listed group) (ha : s.Apart group (.resume task))
    (ht : s.resume group task = some t) : t.Listed group := by
  obtain ⟨-, ⟨⟩⟩ := Option.ite_none_right_eq_some.mp ht
  -- a task that is not over stays
  have hm {k : κ} (hk : CacheTask.add k ∈ s.tasks) (hn : CacheTask.add k ≠ task) : .add k ∈ s.tasks.erase task :=
    (List.mem_erase_of_ne hn).mpr hk
  intro k hk
  match task with
  | .add key =>
    by_cases he : k = key
    · exact .inl (he ▸ List.mem_insert_self)
    · exact (hl k hk).imp List.mem_insert_of_mem fun h => hm h (by simpa using he)
  | .evict g (key :: keys) => exact (hl k (mem_del.mp hk).1).imp_right fun h => List.mem_cons_of_mem _ (hm h nofun)
  | .evict g [] =>
    by_cases hg : group k = g
    · exact .inr (hm (ha k hk hg) nofun)
    · exact (hl k hk).imp (fun h => by simpa [hg] using h) fun h => hm h nofun
  | .removeKey key =>
    by_cases he : k = key
    · subst he
      exact .inr (hm (ha hk) nofun)
    · exact (hl k hk).imp (fun h => by simpa [he] using h) fun h => hm h nofun

lemma Listed.step {a : Step κ γ} (hl : s.Listed group) (ha : s.Apart group a) (ht : s.step group a = some t) :
    t.Listed group := by
  cases a with
  | cacheResponse key =>
    cases ht
    intro k hk
    rcases List.mem_insert_iff.mp hk with rfl | hk
    · exact .inr List.mem_cons_self
    · exact (hl k hk).imp_right (List.mem_cons_of_mem _)
  | evictAllInGroup g =>
    cases ht
    exact fun k hk => (hl k hk).imp_right (List.mem_cons_of_mem _)
  | cacheEvict key =>
    cases ht
    exact fun k hk => (hl k (mem_del.mp hk).1).imp_right (List.mem_cons_of_mem _)
  | resume task => exact hl.resume ha ht
  | expire key =>
    cases ht
    exact fun k hk => hl k (mem_del.mp hk).1

/-- In every run in which nothing is taken out of the registry that is stored: when no request is in progress, every stored
key is listed under its group, and deleting the listed keys of a group leaves none of it. -/
theorem cache_groups_listed (run : Reached (step group) (Apart group) {} s) (idle : s.tasks = []) :
    (∀ key ∈ s.store, key ∈ s.keys (group key)) ∧ ∀ g, ∀ key ∈ (s.keys g).foldl del s.store, group key ≠ g := by
  have hn : Listed group ({} : GroupedCache κ γ) := nofun
  have hl : s.Listed group := run.invariant (Listed group) hn fun hl ha ht => hl.step ha ht
  have hk (k : κ) (hs : k ∈ s.store) : k ∈ s.keys (group k) := by
    rcases hl k hs with h | h
    · simpa [keys] using h
    · rw [idle] at h
      cases h
  refine ⟨hk, fun g k hd he => ?_⟩
  obtain ⟨hs, hn⟩ := mem_foldl_del.mp hd
  exact hn (he ▸ hk k hs)

/-- A key of another group is stored while one group is evicted. -/
theorem cache_groups_listed_other : ∃ s : GroupedCache Nat Nat,
    Reached (step (· / 5)) (Apart (· / 5)) {} s ∧ s.store = [7] ∧ 7 ∈ s.keys 1 := by
  have run : Reached (step (· / 5)) (Apart (· / 5)) ({} : GroupedCache Nat Nat) _ := .runChecked .start
    [.cacheResponse 1, .resume (.add 1), .evictAllInGroup 0, .cacheResponse 7, .resume (.evict 0 [1]),
      .resume (.add 7), .resume (.evict 0 [])] rfl
  exact ⟨_, run, rfl, (cache_groups_listed run rfl).1 7 (by decide)⟩

/-- A key is stored and registered between the reading of the keys and the clearing of the group. -/
theorem cache_group_misses_key : ∃ s : GroupedCache Nat Nat, Reached (step (· / 5)) (fun _ _ => True) {} s ∧ s.tasks = [] ∧
    1 ∈ s.store ∧ 1 ∉ s.keys 0 :=
  ⟨_, .runChecked .start [.evictAllInGroup 0, .cacheResponse 1, .resume (.add 1), .resume (.evict 0 [])] rfl, rfl,
    by decide, by decide⟩

end Cnetmod.Http.GroupedCache
