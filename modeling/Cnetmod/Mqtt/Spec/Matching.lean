import Cnetmod.Mqtt.Spec.SubscriptionIndex

/-!
# Matching

The search of the trie finds the entries whose filters match the topic, and the
search of the groups selects a member of each group whose filter matches.
-/
namespace Cnetmod.Mqtt

open List

open Coding (Bytes ascii Trie matchLevels)
open Coding.SortedMap

/-- The level `#` is the last if it is there. -/
def HashLast : List Bytes → Prop
  | [] => True
  | level :: path => (level = "#" → path = []) ∧ HashLast path

lemma validFilterFrom_append (hv : validFilterFrom before (fr ++ ch :: back) = true) : validFilterFrom (some ch) back = true := by
  induction fr generalizing before with
  | nil =>
    rw [nil_append, validFilterFrom, Bool.and_eq_true] at hv
    exact hv.2
  | cons hd fr ih =>
    rw [cons_append, validFilterFrom, Bool.and_eq_true] at hv
    exact ih hv.2

lemma hashLast_splitLevels (hv : validFilterFrom before (joinLevels ls) = true) : HashLast (splitLevels ls) := by
  induction ls generalizing before with
  | nil => trivial
  | cons l ls ih =>
    cases ls with
    | nil => exact ⟨fun _ => rfl, trivial⟩
    | cons next ls =>
      rw [joinLevels] at hv
      have ho : l ≠ "#" := by
        rintro rfl
        simp [ascii, validFilterFrom, validFilterAt, hash] at hv
      have hr := ih (validFilterFrom_append hv)
      rw [splitLevels]
      split
      · exact ⟨fun hh => absurd hh ho, by simp [HashLast, ascii]⟩
      · exact ⟨fun hh => absurd hh ho, hr⟩

lemma hashLast_splitTopic (hv : validFilterFrom before f = true) : HashLast (splitTopic f) := by
  obtain ⟨ls, hp, hl, rfl⟩ := exists_joinLevels f
  rw [splitTopic_joinLevels hp hl]
  exact hashLast_splitLevels hv

/-- The filter under a shared one is as good as the whole. -/
lemma hashLast_extractTopicFilter (hv : validateTopicFilter whole = true) :
    HashLast (splitTopic (extractTopicFilter whole)) := by
  simp only [validateTopicFilter, Bool.and_eq_true] at hv
  rw [extractTopicFilter]
  cases hp : parseSharedSubscription whole with
  | none => exact hashLast_splitTopic hv.2
  | some shared =>
    by_cases hn : shared.shareName = []
    · have hs : shared.topicFilter = whole := parse_plain hp hn
      exact hashLast_splitTopic (hs.symm ▸ hv.2)
    · obtain ⟨-, rfl⟩ := parseSharedSubscription_cases hp hn
      exact hashLast_splitTopic (validFilterFrom_append hv.2)

lemma head_splitFrom (n0 n : Bytes) : (splitFrom n0 n).head? = some (n0 ++ n.takeWhile (· ≠ slash)) := by
  induction n generalizing n0 with
  | nil => simp [splitFrom]
  | cons ch n ih =>
    rw [splitFrom]
    split
    next cut =>
      rw [takeWhile_cons_of_neg (by simp [cut]), append_nil]
      split <;> rfl
    next hi =>
      rw [ih, takeWhile_cons_of_pos (by simpa using hi), append_assoc]
      rfl

lemma head_of_splitTopic (split : splitTopic n = l :: ls) (hi : ch ≠ slash) : l.head? = some ch ↔ n.head? = some ch := by
  have hf := head_splitFrom [] n
  rw [← splitTopic, split, head?_cons, Option.some.injEq] at hf
  rw [hf]
  cases n with
  | nil => rfl
  | cons here n =>
    by_cases cut : here = slash
    · rw [takeWhile_cons_of_neg (by simp [cut])]
      simp [cut, hi.symm]
    · rw [takeWhile_cons_of_pos (by simpa using cut)]
      rfl

lemma topicMatches_plain (ho : t.head? ≠ some dollar) :
    topicMatches f t = matchLevels (ascii "+") (ascii "#") (splitTopic f) (splitTopic t) := by
  rw [topicMatches, if_neg fun hb => ho hb.1]

/-- A name that begins with a dollar sign is matched by filters with the same first level. -/
lemma topicMatches_dollar (ho : t.head? = some dollar) (split : splitTopic t = seg :: segs) : topicMatches f t = true ↔
      ∃ p, splitTopic f = seg :: p ∧ matchLevels (ascii "+") (ascii "#") p segs = true := by
  constructor
  · intro hf
    obtain ⟨l, p, hs⟩ := exists_cons_of_ne_nil (splitTopic_ne_nil f)
    rw [topicMatches, ho, hs, split] at hf
    split at hf
    · cases hf
    rename_i hp
    have none (ch : UInt8) (hi : ch ≠ slash) (hw : f.head? ≠ some ch) : l ≠ [ch] := by
      rintro rfl
      exact hw ((head_of_splitTopic hs hi).mp rfl)
    simp only [true_and, not_or] at hp
    rw [matchLevels, if_neg (show l ≠ ascii "#" from none hash (by decide) hp.1)] at hf
    simp only [Bool.and_eq_true, Bool.or_eq_true, decide_eq_true_eq] at hf
    obtain ⟨hw | rfl, hf⟩ := hf
    · exact absurd hw (none plus (by decide) hp.2)
    · exact ⟨p, hs, hf⟩
  · rintro ⟨p, hs, hf⟩
    have hh : f.head? = some dollar := (head_of_splitTopic hs (by decide)).mp ((head_of_splitTopic split (by decide)).mpr ho)
    rw [topicMatches, hh, if_neg (fun hb => by revert hb; simp [dollar, hash, plus]), hs, split, matchLevels]
    simp [hf]

namespace SubscriptionMap

variable {m : SubscriptionMap} {r : Bytes × SubscribeEntry} {segs path : List Bytes}

/-- The paths a search looks at. -/
def visited (dollarBlock : Bool) : List Bytes → List (List Bytes)
  | [] => if dollarBlock then [[]] else [["#"], []]
  | segment :: segments =>
    if dollarBlock then (visited false segments).map (segment :: ·)
    else [ascii "#"] :: ((visited false segments).map (ascii "+" :: ·) ++ (visited false segments).map (segment :: ·))

lemma matchRecursive_eq (dollarBlock : Bool) (segs : List Bytes) (n : Trie Bytes Subscribers) :
    matchRecursive dollarBlock segs n = (visited dollarBlock segs).flatMap fun p => (n.valueAt .empty p).records := by
  have hash (n : Trie Bytes Subscribers) :
      fromChild n (ascii "#") (·.value.records) = (n.valueAt .empty [ascii "#"]).records := by
    rw [fromChild, Trie.valueAt]
    cases Trie.child (ascii "#") n.children <;> rfl
  induction segs generalizing n dollarBlock with
  | nil => cases dollarBlock <;> simp [matchRecursive, visited, hash, Trie.valueAt]
  | cons seg segs ih =>
    have below (key : Bytes) : fromChild n key (matchRecursive false segs) =
        ((visited false segs).map (key :: ·)).flatMap fun p => (n.valueAt .empty p).records := by
      rw [flatMap_map, fromChild]
      simp only [Trie.valueAt]
      cases Trie.child key n.children with
      | none => simp
      | some c => simp [ih]
    cases dollarBlock <;> simp [matchRecursive, visited, hash, below]

lemma matchLevels_of_visited (hv : p ∈ visited false segs) : matchLevels (ascii "+") (ascii "#") p segs = true := by
  induction segs generalizing p with
  | nil =>
    simp only [visited, Bool.false_eq_true, if_false, mem_cons, not_mem_nil, or_false] at hv
    rcases hv with rfl | rfl <;> rfl
  | cons seg segs ih =>
    simp only [visited, Bool.false_eq_true, if_false, mem_cons, mem_append, mem_map] at hv
    obtain rfl | ⟨p, hv, rfl⟩ | ⟨p, hv, rfl⟩ := hv
    · rfl
    · simp [matchLevels, ih hv]
    · simp [matchLevels, ih hv]

lemma visited_of_matchLevels (hm : matchLevels (ascii "+") (ascii "#") p segs = true) (hl : HashLast p) :
    p ∈ visited false segs := by
  induction segs generalizing p with
  | nil =>
    cases p with
    | nil => simp [visited]
    | cons key p =>
      have hk : key = ascii "#" := by simpa [matchLevels] using hm
      simp [visited, hk, hl.1 hk]
  | cons seg segs ih =>
    cases p with
    | nil => cases hm
    | cons key p =>
      by_cases hk : key = ascii "#"
      · simp [visited, hk, hl.1 hk]
      simp only [matchLevels, if_neg hk, Bool.and_eq_true, Bool.or_eq_true, decide_eq_true_eq] at hm
      have hv := ih hm.2 hl.2
      rcases hm.1 with rfl | rfl <;> simp [visited, hv]

/-- Nobody is subscribed at paths in which `#` is not the last level. -/
def Clean (node : Trie Bytes Subscribers) : Prop := ∀ path, (node.valueAt .empty path).records ≠ [] → HashLast path

/-- Only filters that could be subscribed to have subscribers. -/
lemma OnlyFilters.clean (only : m.OnlyFilters)
    (hl : ∀ f cid, (m.entryOf f cid).isSome → HashLast (splitTopic f)) : Clean m.root := by
  intro p hp
  obtain ⟨r, more, hh⟩ := exists_cons_of_ne_nil hp
  obtain ⟨f, rfl⟩ := only p fun hb => hp (by rw [hb]; rfl)
  refine hl f r.1 ?_
  have hf : m.entryOf f r.1 = some r.2 := get_of_mem (hh ▸ mem_cons_self : r ∈ (m.root.valueAt .empty (splitTopic f)).records)
  rw [hf]
  rfl

/-- The paths a search looks at for a topic are those of the filters that match it. -/
lemma visited_iff (hl : HashLast (splitTopic f)) (t : Bytes) :
    splitTopic f ∈ visited (t.head? = some dollar) (splitTopic t) ↔ topicMatches f t = true := by
  by_cases hdo : t.head? = some dollar
  · obtain ⟨seg, segs, split⟩ := exists_cons_of_ne_nil (splitTopic_ne_nil t)
    rw [decide_eq_true hdo, split, visited, if_pos rfl, topicMatches_dollar hdo split, mem_map]
    constructor
    · rintro ⟨p, hv, hs⟩
      exact ⟨p, hs.symm, matchLevels_of_visited hv⟩
    rintro ⟨p, hs, hm⟩
    rw [hs] at hl
    exact ⟨p, visited_of_matchLevels hm hl.2, hs.symm⟩
  · rw [decide_eq_false hdo, topicMatches_plain hdo]
    exact ⟨matchLevels_of_visited, fun hm => visited_of_matchLevels hm hl⟩

/-- The entries found for a topic are those whose filters match it. -/
lemma mem_matching (only : m.OnlyFilters) (hc : Clean m.root) (t : Bytes) : r ∈ m.matching t ↔
    ∃ f, topicMatches f t = true ∧ m.entryOf f r.1 = some r.2 := by
  have hs {f : Bytes} : r ∈ (m.root.valueAt .empty (splitTopic f)).records ↔ m.entryOf f r.1 = some r.2 := get_eq_some_iff.symm
  rw [matching, matchRecursive_eq, mem_flatMap]
  constructor
  · rintro ⟨p, hv, hh⟩
    obtain ⟨f, rfl⟩ := only p fun hb => by rw [hb] at hh; cases hh
    exact ⟨f, (visited_iff (hc _ (ne_nil_of_mem hh)) t).mp hv, hs.mp hh⟩
  rintro ⟨f, hf, ho⟩
  have hh := hs.mpr ho
  exact ⟨_, (visited_iff (hc _ (ne_nil_of_mem hh)) t).mpr hf, hh⟩

end SubscriptionMap

lemma GroupState.selectOnlineTarget_mem {g : GroupState} (hp : g.members ≠ []) (online : Bytes → Bool) :
    ∃ member ∈ g.members, member.clientId = (g.selectOnlineTarget online).1 := by
  have hi {idx : Nat} {member : SharedMember} (hf : g.members[idx]? = some member) :
      ∃ member ∈ g.members, member.clientId = ((g.members[idx]?).map (·.clientId)).getD [] :=
    ⟨member, mem_of_getElem? hf, by rw [hf]; rfl⟩
  rw [selectOnlineTarget]
  split
  next idx hf =>
    have ht := find?_some hf
    cases hh : g.members[idx]? with
    | none =>
      rw [hh] at ht
      cases ht
    | some member =>
      rw [← hh]
      exact hi hh
  · have hb : g.rrIndex % g.members.length < g.members.length := Nat.mod_lt _ (length_pos_iff.mpr hp)
    exact hi (getElem?_eq_getElem hb)

/-- A group under its key: all its members have the filter of the key, and there are some. -/
def GroupFor (key : Bytes) (group : GroupState) : Prop :=
  ∃ shareName filter, Shareable shareName filter ∧ key = SharedTargetStore.makeKey shareName filter ∧ group.members ≠ [] ∧
    ∀ member ∈ group.members, member.topicFilter = filter ∧ member.clientId ≠ []

namespace SharedTargetStore

variable {s : SharedTargetStore} {shareName filter cid tp key : Bytes} {online : Bytes → Bool}

def WellFormed (s : SharedTargetStore) : Prop := ∀ key group, s.groups.get key = some group → GroupFor key group

lemma WellFormed.addMember (wf : s.WellFormed) (hs : Shareable shareName filter) (hn : cid ≠ []) :
    (s.addMember shareName filter cid).WellFormed := by
  intro key g hf
  rw [SharedTargetStore.addMember] at hf
  rw [get_put] at hf
  split at hf
  next hh =>
    subst hh
    cases hf
    have hm : ∀ member ∈ ((s.groups.get (makeKey shareName filter)).getD {}).members,
        member.topicFilter = filter ∧ member.clientId ≠ [] := by
      cases old : s.groups.get (makeKey shareName filter) with
      | none => simp
      | some g =>
        obtain ⟨share', f', hb, hc, -, hm⟩ := wf _ g old
        obtain ⟨-, rfl⟩ := (makeKey_inj hs.2.1 hb.2.1).mp hc
        exact hm
    refine ⟨shareName, filter, hs, rfl, ?_⟩
    split
    next ha =>
      refine ⟨fun none => ?_, hm⟩
      rw [none] at ha
      cases ha
    refine ⟨by simp, fun member hi => ?_⟩
    rcases mem_append.mp hi with old | new
    · exact hm member old
    · rw [mem_singleton.mp new]
      exact ⟨rfl, hn⟩
  · exact wf key g hf

variable {group : GroupState}

lemma GroupFor.withoutClient (hg : GroupFor key group)
    (left : ¬ (group.withoutClient cid).members.isEmpty = true) : GroupFor key (group.withoutClient cid) := by
  obtain ⟨share, f, hs, ha, -, hm⟩ := hg
  exact ⟨share, f, hs, ha, by simpa using left, fun member hi => hm member (mem_withoutClient.mp hi).1⟩

lemma WellFormed.removeMember (wf : s.WellFormed) : (s.removeMember shareName filter cid).WellFormed := by
  rw [SharedTargetStore.removeMember]
  cases old : s.groups.get (makeKey shareName filter) with
  | none => exact wf
  | some g =>
    dsimp only
    split
    · intro key group' hf
      rw [get_delete] at hf
      split at hf
      · cases hf
      · exact wf key group' hf
    next left =>
      intro key group' hf
      rw [get_put] at hf
      split at hf
      next hh =>
        cases hf
        exact GroupFor.withoutClient (hh ▸ wf _ g old) left
      · exact wf key group' hf

lemma WellFormed.removeClient (wf : s.WellFormed) : (s.removeClient cid).WellFormed := by
  intro key g hf
  rw [SharedTargetStore.removeClient, get_filterMapValues, Option.bind_eq_some_iff] at hf
  obtain ⟨old, ht, hk⟩ := hf
  split at hk
  · cases hk
  rename_i left
  cases hk
  exact GroupFor.withoutClient (wf key old ht) left

lemma WellFormed.findMatchingGroups (wf : s.WellFormed) : (s.findMatchingGroups tp online).2.WellFormed := by
  intro key g hf
  have hs := members_findMatchingGroups s tp online key
  rw [hf, Option.map_some, eq_comm, Option.map_eq_some_iff] at hs
  obtain ⟨old, ht, hm⟩ := hs
  obtain ⟨share, f, hg⟩ := wf key old ht
  rw [hm] at hg
  exact ⟨share, f, hg⟩

/-- The member a group selects for a message on a topic its filter matches. -/
def Selects (s : SharedTargetStore) (online : Bytes → Bool) (shareName filter clientId : Bytes) : Prop :=
  ∃ group, s.groups.get (makeKey shareName filter) = some group ∧ (group.selectOnlineTarget online).1 = clientId

/-- One group of the loop, that has not been gone through before. -/
lemma selectFrom_eq (hl : slash ∉ shareName)
    (hp : group.members ≠ []) (hm : ∀ member ∈ group.members, member.topicFilter = filter ∧ member.clientId ≠ [])
    (ht : found.2.groups.get (makeKey shareName filter) = some group) :
    selectFrom tp online found (makeKey shareName filter, group) = if topicMatches filter tp then
        (found.1 ++ [((group.selectOnlineTarget online).1, filter)],
          { found.2 with groups := found.2.groups.put (makeKey shareName filter) (group.selectOnlineTarget online).2 })
      else found := by
  obtain ⟨hd, more, hh⟩ := exists_cons_of_ne_nil hp
  have hn : (makeKey shareName filter).takeWhile (· ≠ slash) = shareName := takeWhile_ne_slash hl filter
  obtain ⟨member, hi, hs⟩ := GroupState.selectOnlineTarget_mem hp online
  have hk : (group.selectOnlineTarget online).1 ≠ [] := hs ▸ (hm member hi).2
  rw [selectFrom]
  rw [hh, head?_cons]
  dsimp only
  rw [(hm hd (by simp [hh])).1, hn, ht]
  refine if_congr Iff.rfl ?_ rfl
  dsimp only
  rw [if_neg (by simpa using hp), if_neg (by simpa using hk)]

lemma foldl_selectFrom (wf : s.WellFormed) (l : List (Bytes × GroupState))
    (ht : ∀ q ∈ l, s.groups.get q.1 = some q.2) (he : l.Pairwise (·.1 < ·.1)) :
    let after := l.foldl (selectFrom tp online) ([], s)
    (∀ ch, ch ∈ after.1 ↔ ∃ q ∈ l, ∃ share, Shareable share ch.2 ∧
      q.1 = makeKey share ch.2 ∧ topicMatches ch.2 tp = true ∧ (q.2.selectOnlineTarget online).1 = ch.1) ∧
    ∀ key, (∀ q ∈ l, q.1 ≠ key) → after.2.groups.get key = s.groups.get key := by
  induction l using reverseRecOn with
  | nil => simp
  | append_singleton l last ih =>
    obtain ⟨hr, -, hg⟩ := pairwise_append.mp he
    obtain ⟨hc, ho⟩ := ih (fun r hm => ht r (by simp [hm])) hr
    have hj (q : Bytes × GroupState) (hm : q ∈ l) : q.1 ≠ last.1 := (hg q hm last (by simp)).ne
    obtain ⟨key, g⟩ := last
    have old := ht (key, g) (by simp)
    obtain ⟨share, f, hs, rfl, hp, hk⟩ := wf key g old
    rw [foldl_append, foldl_cons, foldl_nil, selectFrom_eq hs.2.1 hp hk ((ho _ hj).trans old)]
    -- The choice of this group has its own share name and filter.
    have own (ch : Bytes × Bytes) : (∃ share', Shareable share' ch.2 ∧
        makeKey share f = makeKey share' ch.2 ∧ topicMatches ch.2 tp = true ∧ (g.selectOnlineTarget online).1 = ch.1) ↔
        topicMatches f tp = true ∧ ch = ((g.selectOnlineTarget online).1, f) := by
      constructor
      · rintro ⟨share', hh, hl, hf, hc⟩
        obtain ⟨-, rfl⟩ := (makeKey_inj hs.2.1 hh.2.1).mp hl
        exact ⟨hf, by rw [hc]⟩
      · rintro ⟨hf, rfl⟩
        exact ⟨share, hs, rfl, hf, rfl⟩
    refine ⟨fun ch => ?_, fun key ha => ?_⟩
    · simp only [mem_append, mem_singleton, or_and_right, exists_or, exists_eq_left, own, ← hc]
      split
      next hf => simp [hf]
      next hn => simp [hn]
    have hb := ho key fun r hm => ha r (by simp [hm])
    split
    · rw [← hb]
      rw [get_put]
      exact if_neg (ha (makeKey share f, g) (by simp))
    · exact hb

/-- Each group whose filter matches the topic has its selected member among the choices, and nobody else is. -/
lemma mem_findMatchingGroups (wf : s.WellFormed) (ch : Bytes × Bytes) :
    ch ∈ (s.findMatchingGroups tp online).1 ↔ ∃ share, Shareable share ch.2 ∧
      topicMatches ch.2 tp = true ∧ s.Selects online share ch.2 ch.1 := by
  obtain ⟨hc, -⟩ := foldl_selectFrom wf s.groups.records (fun _ hm => get_of_mem hm) s.groups.sorted
  rw [findMatchingGroups, hc]
  constructor
  · rintro ⟨⟨key, g⟩, hm, share, hs, rfl, hf, he⟩
    exact ⟨share, hs, hf, g, get_of_mem hm, he⟩
  · rintro ⟨share, hs, hf, g, ho, he⟩
    exact ⟨(_, g), get_eq_some_iff.mp ho, share, hs, rfl, hf, he⟩

/-- A group selects one of its members. -/
lemma Selects.isMember (wf : s.WellFormed) (hs : s.Selects online shareName filter cid) : s.IsMember shareName filter cid := by
  obtain ⟨g, hf, rfl⟩ := hs
  obtain ⟨-, -, -, -, hp, -⟩ := wf _ g hf
  exact ⟨g, hf, GroupState.selectOnlineTarget_mem hp online⟩

end SharedTargetStore

/-- A filter is shared or not. -/
lemma plain_or_shared (whole : Bytes) : extractTopicFilter whole = whole ∨
    ∃ shareName filter, Shareable shareName filter ∧ whole = sharedFilter shareName filter := by
  rw [extractTopicFilter]
  cases hp : parseSharedSubscription whole with
  | none => exact .inl rfl
  | some shared =>
    by_cases hn : shared.shareName = []
    · exact .inl (parse_plain hp hn)
    · exact .inr ⟨_, _, parseSharedSubscription_cases hp hn⟩

end Cnetmod.Mqtt
