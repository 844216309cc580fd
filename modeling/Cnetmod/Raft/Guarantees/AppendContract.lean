import Cnetmod.Raft.Spec.Reactions
import Cnetmod.Raft.Spec.StoreImage

/-!
# What a successful append leaves

The follower compares terms, and term 0 stands for an entry it does not have. So a
request whose previous term is 0 is taken whatever its previous index is, and an entry
whose term is already stored at its index is not looked at further.
-/
namespace Cnetmod.Raft

open List Option MemoryStore

variable {mem after : MemoryStore} {req : AppendEntriesRequest} {es : List LogEntry} {prev : Nat}

namespace MemoryStore

/-- The loop of `append_from_leader` goes on behind such an entry. -/
def confirms (mem : MemoryStore) (e : LogEntry) : Bool :=
  decide (e.index ≤ mem.snapshot.lastIncludedIndex) || mem.termAt e.index != 0 && mem.termAt e.index == e.term

/-- An entry of another term is stored at the index. -/
def conflicts (mem : MemoryStore) (e : LogEntry) : Bool :=
  decide (mem.snapshot.lastIncludedIndex < e.index) && mem.termAt e.index != 0 && mem.termAt e.index != e.term

/-- What a request promises about the log after it. -/
structure Contract (before after : MemoryStore) (req : AppendEntriesRequest) (matchIndex : Nat) : Prop where
  stored : ∀ e ∈ req.entries, before.snapshot.lastIncludedIndex < e.index → after.entryAt e.index = some e
  reported : matchIndex = max req.prevLogIndex ((req.entries.getLast?.map (·.index)).getD 0)
  reached : matchIndex ≤ after.lastLogIndex
  kept : ∀ x ∈ before.entries, (∀ e ∈ req.entries, before.conflicts e = true → x.index < e.index) → x ∈ after.entries

/-- A stored entry of the request's term is the request's, a request without new entries
ends inside the log, and nothing is stored behind an entry that is missing. -/
structure Regular (mem : MemoryStore) (req : AppendEntriesRequest) : Prop where
  equal : ∀ e ∈ req.entries.takeWhile mem.confirms, mem.snapshot.lastIncludedIndex < e.index → mem.entryAt e.index = some e
  inside : (∃ e ∈ req.entries, mem.snapshot.lastIncludedIndex < e.index) ∨
    req.prevLogIndex + req.entries.length ≤ mem.lastLogIndex
  gapless : ∀ e ∈ (req.entries.dropWhile mem.confirms).head?, mem.termAt e.index = 0 → ∀ x ∈ mem.entries,
    e.index ≤ x.index → x ∈ req.entries ∨ ∃ c ∈ req.entries, mem.conflicts c = true ∧ c.index ≤ x.index

variable {e : LogEntry}

lemma not_confirms (h : mem.confirms e = false) : mem.snapshot.lastIncludedIndex < e.index ∧
    (mem.termAt e.index = 0 ∨ mem.conflicts e = true) := by
  simp only [confirms, Bool.or_eq_false_iff, decide_eq_false_iff_not, Nat.not_le, Bool.and_eq_false_imp] at h
  refine ⟨h.1, or_iff_not_imp_left.mpr fun hz => ?_⟩
  simp_all [conflicts]

lemma confirms_stored (h : mem.confirms e = true) (hs : mem.snapshot.lastIncludedIndex < e.index) :
    e.index ≤ mem.lastLogIndex := by
  have hc : mem.termAt e.index ≠ 0 := by
    simp only [confirms, not_le.mpr hs, decide_false, Bool.false_or, Bool.and_eq_true, bne_iff_ne] at h
    exact h.1
  rw [termAt, if_neg (by omega), if_neg (by omega)] at hc
  split at hc
  next x hx =>
    obtain ⟨hm, hi⟩ := of_entryAt hx
    exact hi ▸ mem.index_le_lastLogIndex x hm
  · exact absurd rfl hc

/-- The run from its first entry that is not confirmed on. -/
structure Cut (mem : MemoryStore) (prev : Nat) (es new : List LogEntry) : Prop where
  parts : es.takeWhile mem.confirms ++ new = es
  numbered : NumberedFrom (prev + (es.takeWhile mem.confirms).length) new
  first : ∀ e ∈ new.head?, mem.snapshot.lastIncludedIndex < e.index ∧ (mem.termAt e.index = 0 ∨ mem.conflicts e = true)
  below : ∀ x ∈ es.takeWhile mem.confirms, ∀ e ∈ new.head?, x.index < e.index
  above : ∀ x ∈ new, ∀ e ∈ new.head?, e.index ≤ x.index

lemma cut (mem : MemoryStore) (hn : NumberedFrom prev es) : mem.Cut prev es (es.dropWhile mem.confirms) := by
  have parts := es.takeWhile_append_dropWhile (p := mem.confirms)
  have numbered : NumberedFrom (prev + (es.takeWhile mem.confirms).length) (es.dropWhile mem.confirms) := by
    have := (parts ▸ hn).drop (es.takeWhile mem.confirms).length
    rwa [drop_left] at this
  have head (e : LogEntry) (he : e ∈ (es.dropWhile mem.confirms).head?) : e.index = prev + (es.takeWhile mem.confirms).length + 1 := by
    obtain ⟨tl, hr⟩ := head?_eq_some_iff.mp he
    exact (hr ▸ numbered).head
  refine ⟨parts, numbered, fun e he => not_confirms ?_, fun x hx e he => ?_, fun x hx e he => ?_⟩
  · obtain ⟨tl, hr⟩ := head?_eq_some_iff.mp he
    have := head_dropWhile_not mem.confirms (by rw [hr]; exact cons_ne_nil _ _)
    simpa [hr] using this
  · obtain ⟨k, hk⟩ := getElem?_of_mem hx
    have hl := (List.getElem?_eq_some_iff.mp hk).1
    have := hn k x (by rw [← parts, getElem?_append_left hl, hk])
    have := head e he
    omega
  have := numbered.lt_of_mem hx
  have := head e he
  omega

/-- The log with the new part of the run. -/
def spliced (mem : MemoryStore) (es : List LogEntry) : List LogEntry :=
  mem.entries.filter (fun x => (es.dropWhile mem.confirms).head?.all (x.index < ·.index)) ++ es.dropWhile mem.confirms

lemma spliced_congr {a b : MemoryStore} (he : a.entries = b.entries) (hs : a.snapshot = b.snapshot)
    (run : List LogEntry) : a.spliced run = b.spliced run := by
  have hc : a.confirms = b.confirms := by
    funext e
    simp only [confirms, termAt, findOffset, he, hs]
  rw [spliced, spliced, hc, he]

end MemoryStore

namespace LogManager

lemma scanFromLeader_eq (hn : NumberedFrom prev es) : scanFromLeader mem mem.snapshot.lastIncludedIndex prev es =
      ⟨prev + (es.takeWhile mem.confirms).length,
        (es.dropWhile mem.confirms).head?.bind fun e => if mem.termAt e.index = 0 then none else some e.index,
        es.dropWhile mem.confirms⟩ := by
  induction es generalizing prev with
  | nil => rfl
  | cons e es ih =>
    have hh := hn.head
    rw [scanFromLeader]
    by_cases hc : mem.confirms e = true
    · rw [takeWhile_cons_of_pos hc, dropWhile_cons_of_pos hc, length_cons,
        show max prev e.index = prev + 1 by omega, ih hn.tail, Nat.add_right_comm]
      simp only [confirms, Bool.or_eq_true, decide_eq_true_eq, Bool.and_eq_true, bne_iff_ne, beq_iff_eq] at hc
      split
      · rfl
      have hc := hc.resolve_left ‹_›
      rw [if_neg (fun h => h.2 hc.2), if_neg hc.1]
      rfl
    rw [takeWhile_cons_of_neg hc, dropWhile_cons_of_neg hc]
    obtain ⟨ha, hw⟩ := not_confirms (Bool.eq_false_of_not_eq_true hc)
    rw [if_neg (by omega)]
    rcases hw with hz | hz
    · simp [hz]
    · simp only [MemoryStore.conflicts, Bool.and_eq_true, bne_iff_ne] at hz
      simp [hz.1.2, hz.2]

lemma truncateAt_ok {cut : Option Nat} (i : Nat) (hc : ∀ k ∈ cut, k = i)
    (ok : truncateAt st cut = (.ok (), st')) : st'.mem.snapshot = st.mem.snapshot ∧
      st'.mem.entries.filter (·.index < i) = st.mem.entries.filter (·.index < i) := by
  cases cut with
  | none =>
    cases ok
    exact ⟨rfl, rfl⟩
  | some k =>
    obtain rfl := hc k rfl
    rcases st.write_eq (·.truncateSuffix k) with ⟨thrown, hf⟩ | hw
    · cases hf.symm.trans ok
    cases hw.symm.trans ok
    refine ⟨truncateSuffix_snapshot _ _, ?_⟩
    rw [truncateSuffix_entries]
    simp

/-- The cut of `append_from_leader` and its append, if neither throws. -/
lemma appendFromLeader_spliced {pt : Nat} {r : AppendResult} (hn : NumberedFrom prev es)
    (ok : appendFromLeader st prev pt es = (.ok r, st')) (hs : r.success = true) :
    st'.mem.entries = st.mem.spliced es ∧ st'.mem.snapshot = st.mem.snapshot ∧ r.matchIndex = prev + es.length := by
  have hm := (appendFromLeader_success ok).1.symm.trans hs
  rw [appendFromLeader, loadSnapshotMetadata, if_neg (by simp [hm])] at ok
  have hc := st.mem.cut hn
  have hl := congrArg length hc.parts
  rw [length_append] at hl
  dsimp only at ok
  rw [scanFromLeader_eq hn] at ok
  rw [spliced]
  generalize es.dropWhile st.mem.confirms = new at ok hc hl ⊢
  cases new with
  | nil =>
    cases ok
    exact ⟨by simp, rfl, by simpa using hl⟩
  | cons e tl =>
    have all : ∀ x ∈ e :: tl, st.mem.snapshot.lastIncludedIndex < x.index :=
      fun x hx => lt_of_lt_of_le (hc.first e rfl).1 (hc.above x hx e rfl)
    rw [filter_eq_self.mpr (by simpa using all)] at ok
    split at ok
    · cases ok
    rename_i st₁ htr
    obtain ⟨ha, he⟩ := truncateAt_ok e.index (by
      intro k hk
      simp only [head?_cons, bind_some, mem_def, ite_none_left_eq_some, some.injEq] at hk
      exact hk.2.symm) htr
    cases hb : (e :: tl).getLast? with
    | none => cases getLast?_eq_none_iff.mp hb
    | some back =>
      have hg := hc.numbered.getLast hb
      rw [hb] at ok
      rcases st₁.write_eq (·.append (e :: tl)) with ⟨thrown, hf⟩ | hwrote
      · rw [show st₁.append (e :: tl) = _ from hf] at ok
        cases ok
      rw [show st₁.append (e :: tl) = _ from hwrote] at ok
      cases ok
      refine ⟨?_, (append_snapshot _ _).trans ha, by dsimp only; omega⟩
      rw [st₁.mem.append_entries hc.numbered.ordered (ha ▸ all), he]
      rfl

end LogManager

namespace RaftNode

variable {n m : RaftNode}

/-- A follower that applies entries writes none. -/
structure Follows (n m : RaftNode) : Prop where
  role : m.role = .follower
  entries : m.mem.entries = n.mem.entries
  snapshot : m.mem.snapshot = n.mem.snapshot

lemma Follows.persist (h : Follows n m) : Follows n m.persist :=
  ⟨(persist_persisted m).role.elim (·.trans h.role) fun hf => hf, (persist_entries m).trans h.entries,
    (persist_snapshot m).trans h.snapshot⟩

lemma adoptConfiguration_follower (h : n.role = .follower) (e : LogEntry) : n.adoptConfiguration e = n.takeConfiguration e := by
  have hl : (n.takeConfiguration e).role ≠ .leader := by
    rw [show (n.takeConfiguration e).role = n.role from rfl, h]
    decide
  rw [adoptConfiguration, if_neg fun hc => hl hc.1, if_neg fun hc => hl hc.1]

lemma applyOne_follows (h : Follows n m) (e : LogEntry) : Follows n (m.applyOne e).1 := by
  unfold applyOne
  split
  · exact h
  dsimp only
  split
  · refine ⟨(stop_role _ _).elim (·.trans h.role) fun hf => hf, ?_, ?_⟩
    · simpa [mem] using h.entries
    · simpa [mem] using h.snapshot
  refine Follows.persist ?_
  split
  · rw [adoptConfiguration_follower (by exact h.role)]
    exact ⟨h.role, h.entries, h.snapshot⟩
  · exact ⟨h.role, h.entries, h.snapshot⟩

lemma followCommit_follows (h : Follows n m) (i : Nat) : Follows n (m.followCommit i) := by
  unfold followCommit
  split
  · have hp : Follows n { m with state.commitIndex := min i m.lastLogIndex }.persist :=
      Follows.persist ⟨h.role, h.entries, h.snapshot⟩
    unfold applyCommitted
    split
    · exact hp
    · exact applyLoop_rule _ (P := Follows n) (fun _ hm => hm)
        (fun m e hm _ _ => ⟨applyOne_follows hm e, fun _ => applyOne_follows hm e⟩) _ hp
  · exact h

/-- A successful append splices the entries into the log. -/
lemma handleAppendEntries_spliced (hn : NumberedFrom req.prevLogIndex req.entries)
    (ok : (n.handleAppendEntries req).2.success = true) : (n.handleAppendEntries req).1.mem.entries = n.mem.spliced req.entries ∧
      (n.handleAppendEntries req).1.mem.snapshot = n.mem.snapshot ∧
      (n.handleAppendEntries req).2.matchIndex = req.prevLogIndex + req.entries.length := by
  unfold handleAppendEntries at ok ⊢
  split at ok
  · cases ok
  rename_i hr
  rw [if_neg hr]
  split at ok
  · cases ok
  rename_i ht
  rw [if_neg ht]
  split at ok
  · cases ok
  rename_i hc
  rw [if_neg hc]
  have ha := follow_sameLog n req.term req.leaderId
  have ho := follow_role n req.term req.leaderId (by simpa using hr)
  generalize n.follow req.term req.leaderId = m at ok ha ho ⊢
  unfold acceptEntries at ok ⊢
  split at ok
  · cases ok
  next app st ran =>
    split at ok
    · cases ok
    rename_i hs
    rw [if_neg hs]
    obtain ⟨he, hb, hm⟩ := LogManager.appendFromLeader_spliced hn ran (by simpa using hs)
    have hf := followCommit_follows (m := { m with store := st }) ⟨ho, rfl, rfl⟩ req.leaderCommit
    exact ⟨hf.entries.trans (he.trans (spliced_congr ha.entries ha.snapshot _)), (hf.snapshot.trans hb).trans ha.snapshot, hm⟩

end RaftNode

lemma NumberedFrom.eq_of_index (hn : NumberedFrom prev es) (hx : x ∈ es) (hy : y ∈ es) (hi : x.index = y.index) : x = y := by
  obtain ⟨i, ha⟩ := getElem?_of_mem hx
  obtain ⟨j, hj⟩ := getElem?_of_mem hy
  have := hn i x ha
  have := hn j y hj
  obtain rfl : i = j := by omega
  exact some.inj (ha.symm.trans hj)

lemma NumberedFrom.end_eq (hn : NumberedFrom prev es) : prev + es.length = max prev ((es.getLast?.map (·.index)).getD 0) := by
  cases hl : es.getLast? with
  | none => simp [getLast?_eq_none_iff.mp hl]
  | some last =>
    have := hn.getLast hl
    simp only [map_some, getD_some]
    omega

namespace MemoryStore

lemma entryAt_spliced_below (hn : NumberedFrom prev es) (he : after.entries = mem.spliced es)
    (hi : ∀ e ∈ (es.dropWhile mem.confirms).head?, i < e.index) : after.entryAt i = mem.entryAt i := by
  have hc := mem.cut hn
  rw [entryAt_eq_find, entryAt_eq_find, he, spliced]
  generalize es.dropWhile mem.confirms = new at hc hi
  cases new with
  | nil => simp
  | cons e tl =>
    have hl := hi e rfl
    have hr : (e :: tl).find? (·.index = i) = none := by
      refine find?_eq_none.mpr fun x hx => ?_
      have := hc.above x hx e rfl
      simp only [decide_eq_true_eq]
      omega
    rw [find?_append, hr, or_none, find?_filter]
    congr 1
    funext x
    by_cases hx : x.index = i <;> simp [hx, hl]

lemma entryAt_spliced_new (hn : NumberedFrom prev es) (he : after.entries = mem.spliced es)
    (hx : x ∈ es.dropWhile mem.confirms) : after.entryAt x.index = some x := by
  have hc := mem.cut hn
  rw [entryAt_eq_find, he, spliced]
  generalize es.dropWhile mem.confirms = new at hc hx
  have ho : (mem.entries.filter fun y => new.head?.all (y.index < ·.index)).find? (·.index = x.index) = none := by
    refine find?_eq_none.mpr fun y hy hs => ?_
    have hb := (mem_filter.mp hy).2
    cases hh : new.head? with
    | none => simp [head?_eq_none_iff.mp hh] at hx
    | some e =>
      have := hc.above x hx e hh
      simp only [hh, all_some, decide_eq_true_eq] at hb hs
      omega
  rw [find?_append, ho]
  cases hy : new.find? (·.index = x.index) with
  | none => simpa using find?_eq_none.mp hy x hx
  | some y =>
    exact congrArg some (hc.numbered.eq_of_index (mem_of_find?_eq_some hy) hx (by simpa using find?_some hy))

lemma reached_spliced (hn : NumberedFrom prev es) (he : after.entries = mem.spliced es) (hs : after.snapshot = mem.snapshot) :
    prev + es.length ≤ after.lastLogIndex ↔
      (∃ e ∈ es, mem.snapshot.lastIncludedIndex < e.index) ∨ prev + es.length ≤ mem.lastLogIndex := by
  have hc := mem.cut hn
  have hf := congrArg length hc.parts
  rw [length_append] at hf
  rw [lastLogIndex, he, hs, spliced]
  cases hb : (es.dropWhile mem.confirms).getLast? with
  | none =>
    have ha := getLast?_eq_none_iff.mp hb
    have hg := dropWhile_eq_nil_iff.mp ha
    simp only [ha, head?_nil, all_none, filter_true, append_nil]
    refine ⟨.inr, fun h => h.elim ?_ fun h => h⟩
    rintro ⟨e, hm, hi⟩
    cases hl : es.getLast? with
    | none => simp [getLast?_eq_none_iff.mp hl] at hm
    | some last =>
      have hj := hn.getLast hl
      obtain ⟨k, hk⟩ := getElem?_of_mem hm
      have := hn k e hk
      have := (List.getElem?_eq_some_iff.mp hk).1
      exact hj ▸ confirms_stored (hg last (mem_of_getLast? hl)) (by omega)
  | some back =>
    have ho := hc.numbered.getLast hb
    have hm := mem_of_getLast? hb
    rw [getLast?_append, hb, some_or]
    refine iff_of_true (by dsimp only; omega) (.inl ?_)
    cases hh : (es.dropWhile mem.confirms).head? with
    | none => simp [head?_eq_none_iff.mp hh] at hm
    | some e => exact ⟨e, hc.parts ▸ mem_append_right _ (mem_of_head? hh), (hc.first e hh).1⟩

end MemoryStore

/-- The contract of `handle_append_entries`, and when a successful answer keeps it. -/
theorem append_contract_iff {n : RaftNode} (hn : NumberedFrom req.prevLogIndex req.entries)
    (ok : (n.handleAppendEntries req).2.success = true) :
    n.mem.Contract (n.handleAppendEntries req).1.mem req (n.handleAppendEntries req).2.matchIndex ↔ n.mem.Regular req := by
  obtain ⟨he, hs, hm⟩ := RaftNode.handleAppendEntries_spliced hn ok
  rw [hm]
  have hu := n.mem.cut hn
  have ha (x : LogEntry) : x ∈ req.entries ↔ x ∈ req.entries.takeWhile n.mem.confirms ∨ x ∈ req.entries.dropWhile n.mem.confirms := by
    rw [← mem_append, hu.parts]
  have hreach := reached_spliced hn he hs
  have hp (x : LogEntry) (hx : x ∈ n.mem.entries) : x ∈ (n.handleAppendEntries req).1.mem.entries ↔
      (∀ e ∈ (req.entries.dropWhile n.mem.confirms).head?, x.index < e.index) ∨ x ∈ req.entries.dropWhile n.mem.confirms := by
    rw [he, spliced, mem_append, mem_filter, and_iff_right hx, Option.all_eq_true]
    simp
  constructor
  · intro h
    refine ⟨fun x hx hi => ?_, hreach.mp h.reached, fun e hh hz x hx hj => ?_⟩
    · rw [← entryAt_spliced_below hn he (hu.below x hx)]
      exact h.stored x ((ha x).mpr (.inl hx)) hi
    by_contra hno
    rw [not_or] at hno
    have hk := h.kept x hx fun c hf ho => Nat.not_le.mp fun hg => hno.2 ⟨c, hf, ho, hg⟩
    rcases (hp x hx).mp hk with hlt | hr
    · exact absurd (hlt e hh) (Nat.not_lt.mpr hj)
    · exact hno.1 ((ha x).mpr (.inr hr))
  · intro h
    refine ⟨fun x hx hi => ?_, hn.end_eq, hreach.mpr h.inside, fun x hx hl => (hp x hx).mpr ?_⟩
    · rcases (ha x).mp hx with ht | hr
      · rw [entryAt_spliced_below hn he (hu.below x ht)]
        exact h.equal x ht hi
      · exact entryAt_spliced_new hn he hr
    refine or_iff_not_imp_left.mpr fun hg => ?_
    simp only [not_forall, Nat.not_lt] at hg
    obtain ⟨e, hh, hj⟩ := hg
    have hb := (ha e).mpr (.inr (mem_of_head? hh))
    rcases (hu.first e hh).2 with hz | hcf
    · rcases h.gapless e hh hz x hx hj with hq | ⟨c, hf, ho, hc⟩
      · exact ((ha x).mp hq).resolve_left fun ht => absurd (hu.below x ht e hh) (Nat.not_lt.mpr hj)
      · exact absurd (hl c hf ho) (Nat.not_lt.mpr hc)
    · exact absurd (hl e hb hcf) (Nat.not_lt.mpr hj)

def emptyFollower : RaftNode := RaftNode.create { id := "b", peers := ["a"] } {} none 0

/-- An empty follower takes a request that starts behind its log. -/
theorem append_past_log :
    let req : AppendEntriesRequest := { term := 1, leaderId := "a", prevLogIndex := 5 }
    (emptyFollower.handleAppendEntries req).2.success = true ∧ (emptyFollower.handleAppendEntries req).2.matchIndex = 5 ∧
      (emptyFollower.handleAppendEntries req).1.mem.lastLogIndex = 0 ∧
      ¬ emptyFollower.mem.Contract (emptyFollower.handleAppendEntries req).1.mem req 5 := by
  refine ⟨by decide +kernel, by decide +kernel, by decide +kernel, fun h => ?_⟩
  exact absurd h.reached (by decide +kernel)

/-- A follower behind a snapshot at index 2, with entries 3 to 5 of term 1. -/
def laggingFollower : RaftNode :=
  { emptyFollower with store := { mem := {
      state := { currentTerm := 1 }, snapshot := { lastIncludedIndex := 2, lastIncludedTerm := 1 }
      entries := [{ index := 3, term := 1 }, { index := 4, term := 1 }, { index := 5, term := 1 }]
      ordered := by simp [InIndexOrder] } } }

/-- The request begins before the snapshot, has entry 3 in common with the follower, conflicts at 4 and goes on past
the log. -/
theorem append_contract_conflict :
    let entry := fun index term : Nat => ({ index := index, term := term } : LogEntry)
    let req : AppendEntriesRequest :=
      { term := 2, leaderId := "a"
        entries := [entry 1 1, entry 2 1, entry 3 1, entry 4 2, entry 5 2, entry 6 2] }
    (laggingFollower.handleAppendEntries req).1.mem.entries = [entry 3 1, entry 4 2, entry 5 2, entry 6 2] ∧
      laggingFollower.mem.Contract (laggingFollower.handleAppendEntries req).1.mem req
        (laggingFollower.handleAppendEntries req).2.matchIndex := by
  intro entry req
  have numbered : NumberedFrom req.prevLogIndex req.entries := by
    intro i e found
    have bound := (List.getElem?_eq_some_iff.mp found).1
    exact (by decide : ∀ i < 6, ∀ e ∈ req.entries[i]?, e.index = 0 + i + 1) i bound e found
  refine ⟨by decide +kernel, (append_contract_iff numbered (by decide +kernel)).mpr
    ⟨by decide +kernel, .inl ⟨entry 3 1, by decide, by decide +kernel⟩, by decide +kernel⟩⟩

end Cnetmod.Raft
