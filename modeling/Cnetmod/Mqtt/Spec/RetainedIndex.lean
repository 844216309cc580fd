import Cnetmod.Mqtt.Source.Retained
import Cnetmod.Mqtt.Spec.Topics

/-!
# Retained messages by topic

The trie of a retained store is known from its messages, so that two stores with the
same messages match alike.
-/
namespace Cnetmod.Mqtt.RetainedStore

open Coding (Bytes SortedMap Trie)

variable {s s' : RetainedStore} {message : RetainedMessage} {topic topic' : Bytes}

structure Sound (s : RetainedStore) : Prop where
  ordered : s.root.Ordered
  live : s.root.Live none
  agrees : ∀ topic, s.root.valueAt none (splitTopic topic) = s.messages.get topic
  only : ∀ path, s.root.valueAt none path ≠ none → ∃ topic, path = splitTopic topic
  own : ∀ topic message, s.messages.get topic = some message → message.topic = topic ∧ message.payload ≠ []

lemma isNone_iff (msg : Option RetainedMessage) : msg.isNone = true ↔ msg = none := Option.isNone_iff_eq_none

namespace Sound

lemma new : ({} : RetainedStore).Sound := by
  refine ⟨Trie.ordered_leaf _, .leaf _, fun tp => Trie.valueAt_leaf _, fun p some => ?_, ?_⟩
  · exact absurd (Trie.valueAt_leaf p) some
  · rintro tp msg ⟨⟩

lemma remove (hs : s.Sound) (tp : Bytes) : (s.remove tp).Sound := by
  rw [RetainedStore.remove]
  split
  · exact hs
  refine ⟨Trie.prune_ordered _ hs.ordered, Trie.Live.prune isNone_iff hs.live, fun topic' => ?_, fun p some => ?_,
    fun topic' msg hf => ?_⟩
  · rw [trieErase]
    rw [Trie.valueAt_prune isNone_iff rfl, SortedMap.get_delete, hs.agrees]
    by_cases hsa : tp = topic'
    · rw [if_pos hsa, if_pos (congrArg splitTopic hsa)]
    · rw [if_neg hsa, if_neg fun hl => hsa (splitTopic_injective hl)]
  · rw [trieErase] at some
    rw [Trie.valueAt_prune isNone_iff rfl] at some
    split at some
    · exact absurd rfl some
    · exact hs.only p some
  rw [trieErase] at hf
  rw [SortedMap.get_delete] at hf
  split at hf
  · cases hf
  · exact hs.own topic' msg hf

lemma store (hs : s.Sound) (msg : RetainedMessage) : (s.store msg).Sound := by
  rw [RetainedStore.store]
  split
  · exact hs.remove msg.topic
  rename_i hp
  refine ⟨Trie.insert_ordered _ hs.ordered, hs.live.insert (by simp), fun topic' => ?_, fun p some => ?_,
    fun topic' message' hf => ?_⟩
  · rw [trieInsert]
    rw [Trie.valueAt_insert, SortedMap.get_put, hs.agrees]
    by_cases hsa : msg.topic = topic'
    · rw [if_pos hsa, if_pos (congrArg splitTopic hsa)]
    · rw [if_neg hsa, if_neg fun hl => hsa (splitTopic_injective hl)]
  · rw [trieInsert] at some
    rw [Trie.valueAt_insert] at some
    split at some
    next hh => exact ⟨msg.topic, hh.symm⟩
    · exact hs.only p some
  rw [trieInsert] at hf
  rw [SortedMap.get_put] at hf
  split at hf
  next hh =>
    cases hf
    exact ⟨hh, by simpa using hp⟩
  · exact hs.own topic' message' hf

lemma foldl_store (hs : s.Sound) (l : List RetainedMessage) : (l.foldl RetainedStore.store s).Sound := by
  induction l generalizing s with
  | nil => exact hs
  | cons msg l ih => exact ih (hs.store msg)

lemma ext (ho : s.Sound) (hs : s'.Sound) (ha : ∀ t, s.messages.get t = s'.messages.get t) : s.root = s'.root := by
  refine Trie.Live.ext ho.ordered ho.live hs.ordered hs.live fun p => ?_
  by_cases hf : s.root.valueAt none p = none
  · by_cases hse : s'.root.valueAt none p = none
    · rw [hf, hse]
    · obtain ⟨t, rfl⟩ := hs.only p hse
      rw [ho.agrees, hs.agrees, ha]
  · obtain ⟨t, rfl⟩ := ho.only p hf
    rw [ho.agrees, hs.agrees, ha]

/-- The empty filter matches the empty topic. -/
lemma matching_nil (hs : s.Sound) : s.matching [] = (s.messages.get []).toList := by
  have hl : splitTopic [] = [[]] := rfl
  rw [← hs.agrees, matching, hl, trieMatch, if_neg (by decide), Trie.valueAt_cons]
  cases Trie.child [] s.root.children <;> rfl

end Sound

lemma get_store (hp : message.payload ≠ []) (t : Bytes) : (s.store message).messages.get t =
    if message.topic = t then some message else s.messages.get t := by
  rw [store, if_neg (by simpa using hp)]
  exact SortedMap.get_put _ _ _

end Cnetmod.Mqtt.RetainedStore
