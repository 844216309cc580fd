import Mathlib.Data.List.TakeWhile
import Cnetmod.Mqtt.Source.Broker
import Cnetmod.Mqtt.Spec.Topics

/-!
# What the indexes hold

Who is subscribed under a filter after each operation on the trie, and who is in a
group after each operation on the store of groups.
-/
namespace Cnetmod.Mqtt

open List

open Coding (Bytes SortedMap Trie)
open Subscribers Coding.SortedMap

lemma Subscribers.isNone_iff (subscribers : Subscribers) : subscribers.isNone = true ↔ subscribers = .empty := by
  rw [isNone, List.isEmpty_iff]
  exact ⟨fun none => ext none, fun none => none ▸ rfl⟩

lemma Subscribers.delete_empty (cid : Bytes) : (SortedMap.empty : Subscribers).delete cid = .empty := rfl

namespace SubscriptionMap

variable {m : SubscriptionMap} {filter f' cid cid' : Bytes}

/-- The entry of a client under a filter. -/
def entryOf (m : SubscriptionMap) (filter clientId : Bytes) : Option SubscribeEntry :=
  (m.subscribersAt filter).get clientId

@[simp] lemma entryOf_new : new.entryOf filter cid = none := by
  rw [entryOf, subscribersAt, new, Trie.valueAt_leaf]
  rfl

lemma entryOf_insert : (m.insert filter cid e).entryOf f' cid' =
    if filter = f' ∧ cid = cid' then some e else m.entryOf f' cid' := by
  rw [entryOf, subscribersAt, insert, Trie.valueAt_insert]
  by_cases hs : filter = f'
  · subst hs
    rw [if_pos rfl, get_put]
    simp only [true_and]
    rfl
  · rw [if_neg fun hp => hs (splitTopic_injective hp), if_neg fun hb => hs hb.1]
    rfl

lemma entryOf_erase : (m.erase filter cid).entryOf f' cid' = if filter = f' ∧ cid = cid' then none else m.entryOf f' cid' := by
  rw [erase]
  split
  next =>
    rw [entryOf, subscribersAt, Trie.valueAt_prune isNone_iff (delete_empty cid)]
    by_cases hs : filter = f'
    · subst hs
      rw [if_pos rfl, get_delete]
      simp only [true_and]
      rfl
    · rw [if_neg fun hp => hs (splitTopic_injective hp), if_neg fun hb => hs hb.1]
      rfl
  next hm =>
    split
    next hb =>
      obtain ⟨rfl, rfl⟩ := hb
      exact Option.not_isSome_iff_eq_none.mp hm
    · rfl

lemma entryOf_eraseClient : (m.eraseClient cid).entryOf f' cid' = if cid = cid' then none else m.entryOf f' cid' := by
  rw [entryOf, subscribersAt, eraseClient, Trie.valueAt_pruneAll isNone_iff (delete_empty cid) m.ordered, get_delete]
  rfl

/-- Inserting an entry that is there changes nothing. -/
lemma insert_eq_self (ht : m.entryOf filter cid = some e) : m.insert filter cid e = m := by
  have root : (m.insert filter cid e).root = m.root := by
    refine Trie.insert_eq_self m.ordered (put_eq_self ht) fun hb => ?_
    rw [entryOf, subscribersAt, hb] at ht
    cases ht
  obtain ⟨root, ho⟩ := m
  rw [SubscriptionMap.mk.injEq]
  exact root

/-- Nobody is subscribed at paths that are not those of filters. -/
def OnlyFilters (m : SubscriptionMap) : Prop :=
  ∀ path, m.root.valueAt .empty path ≠ .empty → ∃ filter, path = splitTopic filter

lemma OnlyFilters.new : SubscriptionMap.new.OnlyFilters := by
  intro p some
  rw [SubscriptionMap.new, Trie.valueAt_leaf] at some
  exact absurd rfl some

lemma OnlyFilters.insert (only : m.OnlyFilters) : (m.insert filter cid e).OnlyFilters := by
  intro p some
  rw [SubscriptionMap.insert, Trie.valueAt_insert] at some
  split at some
  next hs => exact ⟨filter, hs.symm⟩
  · exact only p some

lemma OnlyFilters.erase (only : m.OnlyFilters) : (m.erase filter cid).OnlyFilters := by
  rw [SubscriptionMap.erase]
  split
  · intro p some
    rw [Trie.valueAt_prune isNone_iff (delete_empty cid)] at some
    split at some
    next hs => exact ⟨filter, hs.symm⟩
    · exact only p some
  · exact only

lemma OnlyFilters.eraseClient (only : m.OnlyFilters) : (m.eraseClient cid).OnlyFilters := by
  intro p some
  rw [SubscriptionMap.eraseClient, Trie.valueAt_pruneAll isNone_iff (delete_empty cid) m.ordered] at some
  refine only p fun hb => some ?_
  rw [hb, delete_empty]

end SubscriptionMap

/-- A share name and a filter that `$share` takes. -/
def Shareable (shareName filter : Bytes) : Prop := shareName ≠ [] ∧ slash ∉ shareName ∧ filter ≠ []

instance (shareName filter : Bytes) : Decidable (Shareable shareName filter) := inferInstanceAs (Decidable (_ ∧ _))

def sharedFilter (shareName filter : Bytes) : Bytes := sharedMark ++ shareName ++ slash :: filter

variable {share share' filter f' cid cid' : Bytes}

lemma takeWhile_ne_slash (hp : slash ∉ share) (f : Bytes) : (share ++ slash :: f).takeWhile (· ≠ slash) = share := by
  have all : ∀ ch ∈ share, decide (ch ≠ slash) = true := fun ch hm => by
    rw [decide_eq_true_iff]
    rintro rfl
    exact hp hm
  rw [takeWhile_append_of_pos all]
  simp

lemma parseSharedSubscription_sharedFilter (hs : Shareable share filter) :
    parseSharedSubscription (sharedFilter share filter) = some ⟨share, filter⟩ := by
  obtain ⟨hn, hp, some⟩ := hs
  have hb : sharedMark.isPrefixOf (sharedFilter share filter) = true := by
    rw [sharedFilter, isPrefixOf_iff_prefix]
    exact prefix_append _ _
  have hr : (sharedFilter share filter).drop sharedMark.length = share ++ slash :: filter := by
    rw [sharedFilter, append_assoc, drop_left]
  rw [parseSharedSubscription, if_pos hb, hr]
  dsimp only
  have ha : (share ++ slash :: filter).drop (share.length + 1) = filter := by
    rw [← drop_drop, drop_left]
    rfl
  rw [takeWhile_ne_slash hp, if_neg (by simp), ha, if_neg (by simp [hn, some])]

/-- What `$share` takes apart. -/
lemma parseSharedSubscription_cases (hp : parseSharedSubscription whole = some shared) (hn : shared.shareName ≠ []) :
    Shareable shared.shareName shared.topicFilter ∧ whole = sharedFilter shared.shareName shared.topicFilter := by
  rw [parseSharedSubscription] at hp
  split at hp
  next he =>
    obtain ⟨tl, rfl⟩ := isPrefixOf_iff_prefix.mp he
    rw [drop_left] at hp
    dsimp only at hp
    split at hp
    · cases hp
    rename_i hi
    split at hp
    · cases hp
    rename_i some
    cases hp
    simp only [Bool.or_eq_true, List.isEmpty_iff, not_or] at some
    have hf : tl.takeWhile (· ≠ slash) ++ tl.dropWhile (· ≠ slash) = tl := takeWhile_append_dropWhile
    have hl : slash ∉ tl.takeWhile (· ≠ slash) := fun hm => by simpa using mem_takeWhile_imp hm
    cases hb : tl.dropWhile (· ≠ slash) with
    | nil =>
      rw [hb, append_nil] at hf
      rw [hf] at hi
      exact absurd rfl hi
    | cons ch others =>
      have hh : ch = slash := by
        have := head?_dropWhile_not (fun a : UInt8 => decide (a ≠ slash)) tl
        rw [hb] at this
        simpa using this
      rw [hb, hh] at hf
      have cut : tl.drop ((tl.takeWhile (· ≠ slash)).length + 1) = others := by
        conv_lhs => rw [← hf]
        rw [takeWhile_ne_slash hl, ← drop_drop, drop_left]
        rfl
      refine ⟨⟨some.1, hl, by rw [cut]; rw [cut] at some; exact some.2⟩, ?_⟩
      rw [sharedFilter, cut, append_assoc, hf]
  next =>
    cases hp
    exact absurd rfl hn

lemma parse_plain (hp : parseSharedSubscription whole = some shared) (hl : shared.shareName = []) : shared.topicFilter = whole := by
  rw [parseSharedSubscription] at hp
  split at hp
  · dsimp only at hp
    split at hp
    · cases hp
    split at hp
    · cases hp
    rename_i hn
    cases hp
    dsimp only at hl
    rw [hl] at hn
    exact absurd rfl hn
  · cases hp
    rfl

lemma extractTopicFilter_sharedFilter (hs : Shareable share filter) :
    extractTopicFilter (sharedFilter share filter) = filter := by
  rw [extractTopicFilter, parseSharedSubscription_sharedFilter hs]

lemma sharedFilter_inj (hl : slash ∉ share) (hp : slash ∉ share') :
    sharedFilter share filter = sharedFilter share' f' ↔ share = share' ∧ filter = f' := by
  constructor
  · intro hs
    rw [sharedFilter, sharedFilter, append_assoc, append_assoc, append_cancel_left_eq] at hs
    have hn := congrArg (takeWhile (· ≠ slash)) hs
    rw [takeWhile_ne_slash hl, takeWhile_ne_slash hp] at hn
    subst hn
    exact ⟨rfl, (cons.inj (append_cancel_left hs)).2⟩
  · rintro ⟨rfl, rfl⟩
    rfl

namespace SharedTargetStore

variable {s : SharedTargetStore}

def IsMember (s : SharedTargetStore) (shareName filter clientId : Bytes) : Prop :=
  ∃ group, s.groups.get (makeKey shareName filter) = some group ∧ ∃ member ∈ group.members, member.clientId = clientId

lemma makeKey_inj (hl : slash ∉ share) (hp : slash ∉ share') :
    makeKey share filter = makeKey share' f' ↔ share = share' ∧ filter = f' := by
  rw [← sharedFilter_inj hl hp, sharedFilter, sharedFilter, append_assoc, append_assoc, append_cancel_left_eq]
  rfl

lemma isMember_addMember (hl : slash ∉ share) (hp : slash ∉ share') : (s.addMember share filter cid).IsMember share' f' cid' ↔
      (share = share' ∧ filter = f' ∧ cid = cid') ∨ s.IsMember share' f' cid' := by
  unfold IsMember addMember
  rw [get_put]
  by_cases hh : share = share' ∧ filter = f'
  · obtain ⟨rfl, rfl⟩ := hh
    simp only [if_true, Option.some.injEq, exists_eq_left', true_and]
    cases hf : s.groups.get (makeKey share filter) with
    | none => simp
    | some g =>
      simp only [Option.getD_some, Option.some.injEq, exists_eq_left']
      split
      next ha =>
        simp only [any_eq_true, decide_eq_true_eq] at ha
        refine ⟨.inr, ?_⟩
        rintro (rfl | old)
        · exact ha
        · exact old
      simp only [mem_append, mem_singleton, or_and_right, exists_or, exists_eq_left]
      exact or_comm
  · rw [if_neg fun hs => hh ((makeKey_inj hl hp).mp hs)]
    refine ⟨.inr, ?_⟩
    rintro (⟨rfl, rfl, -⟩ | old)
    · exact absurd ⟨rfl, rfl⟩ hh
    · exact old

lemma mem_withoutClient {g : GroupState} :
    member ∈ (g.withoutClient cid).members ↔ member ∈ g.members ∧ member.clientId ≠ cid := by
  simp [GroupState.withoutClient]

lemma isMember_removeMember (hl : slash ∉ share) (hp : slash ∉ share') :
    (s.removeMember share filter cid).IsMember share' f' cid' ↔
      ¬ (share = share' ∧ filter = f' ∧ cid = cid') ∧ s.IsMember share' f' cid' := by
  unfold removeMember
  cases hf : s.groups.get (makeKey share filter) with
  | none =>
    refine ⟨fun member => ⟨?_, member⟩, And.right⟩
    rintro ⟨rfl, rfl, rfl⟩
    obtain ⟨g, hh, -⟩ := member
    rw [hf] at hh
    cases hh
  | some g =>
    have hm : (∃ member ∈ (g.withoutClient cid).members, member.clientId = cid') ↔
        cid ≠ cid' ∧ ∃ member ∈ g.members, member.clientId = cid' := by
      simp only [mem_withoutClient]
      constructor
      · rintro ⟨member, ⟨hi, ho⟩, rfl⟩
        exact ⟨Ne.symm ho, member, hi, rfl⟩
      · rintro ⟨ho, member, hi, rfl⟩
        exact ⟨member, ⟨hi, Ne.symm ho⟩, rfl⟩
    dsimp only
    split
    next he =>
      unfold IsMember
      rw [get_delete]
      rw [isEmpty_iff.mp he] at hm
      by_cases hh : share = share' ∧ filter = f'
      · obtain ⟨rfl, rfl⟩ := hh
        simp only [if_true, reduceCtorEq, false_and, exists_false, hf, Option.some.injEq, exists_eq_left', true_and, false_iff]
        simpa using hm
      · rw [if_neg fun hs => hh ((makeKey_inj hl hp).mp hs)]
        exact ⟨fun member => ⟨fun hs => hh ⟨hs.1, hs.2.1⟩, member⟩, And.right⟩
    next =>
      unfold IsMember
      rw [get_put]
      by_cases hh : share = share' ∧ filter = f'
      · obtain ⟨rfl, rfl⟩ := hh
        simp only [if_true, hf, Option.some.injEq, exists_eq_left', true_and]
        exact hm
      · rw [if_neg fun hs => hh ((makeKey_inj hl hp).mp hs)]
        exact ⟨fun member => ⟨fun hs => hh ⟨hs.1, hs.2.1⟩, member⟩, And.right⟩

lemma isMember_removeClient : (s.removeClient cid).IsMember share' f' cid' ↔ cid ≠ cid' ∧ s.IsMember share' f' cid' := by
  unfold IsMember removeClient
  rw [get_filterMapValues]
  cases s.groups.get (makeKey share' f') with
  | none => simp
  | some g =>
    simp only [Option.bind_some, Option.some.injEq, exists_eq_left']
    split
    next he =>
      simp only [reduceCtorEq, false_and, exists_false, false_iff, not_and]
      rintro ho ⟨member, hi, rfl⟩
      have : member ∈ (g.withoutClient cid).members := mem_withoutClient.mpr ⟨hi, Ne.symm ho⟩
      rw [isEmpty_iff.mp he] at this
      cases this
    simp only [Option.some.injEq, exists_eq_left', mem_withoutClient]
    constructor
    · rintro ⟨member, ⟨hi, ho⟩, rfl⟩
      exact ⟨Ne.symm ho, member, hi, rfl⟩
    · rintro ⟨ho, member, hi, rfl⟩
      exact ⟨member, ⟨hi, Ne.symm ho⟩, rfl⟩

lemma members_selectOnlineTarget (g : GroupState) (online : Bytes → Bool) :
    (g.selectOnlineTarget online).2.members = g.members := by
  rw [GroupState.selectOnlineTarget]
  split <;> rfl

/-- Selecting members changes positions only. -/
lemma members_selectFrom (t : Bytes) (online : Bytes → Bool) (found : List (Bytes × Bytes) × SharedTargetStore)
    (r : Bytes × GroupState) (key : Bytes) :
    ((selectFrom t online found r).2.groups.get key).map (·.members) = (found.2.groups.get key).map (·.members) := by
  rw [selectFrom]
  split
  · rfl
  split
  · dsimp only
    split
    · rfl
    rename_i group hh
    split
    · rfl
    rw [get_put]
    split
    next hs => rw [← hs, hh, Option.map_some, Option.map_some, members_selectOnlineTarget]
    · rfl
  · rfl

lemma members_findMatchingGroups (s : SharedTargetStore) (t : Bytes) (online : Bytes → Bool) (key : Bytes) :
    ((s.findMatchingGroups t online).2.groups.get key).map (·.members) = (s.groups.get key).map (·.members) := by
  rw [findMatchingGroups]
  generalize s.groups.records = rs
  induction rs using reverseRecOn with
  | nil => rfl
  | append_singleton rs r ih => rw [foldl_append, foldl_cons, foldl_nil, members_selectFrom, ih]

lemma isMember_findMatchingGroups (t : Bytes) (online : Bytes → Bool) :
    (s.findMatchingGroups t online).2.IsMember share filter cid ↔ s.IsMember share filter cid := by
  have hs := members_findMatchingGroups s t online (makeKey share filter)
  unfold IsMember
  cases hb : s.groups.get (makeKey share filter) with
  | none =>
    rw [hb, Option.map_none, Option.map_eq_none_iff] at hs
    simp [hs]
  | some g =>
    rw [hb, Option.map_some, Option.map_eq_some_iff] at hs
    obtain ⟨group', ha, hm⟩ := hs
    simp [ha, hm]

end SharedTargetStore

end Cnetmod.Mqtt
