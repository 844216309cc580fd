import Cnetmod.Consensus.History
import Cnetmod.Raft.Source.LogManager

/-!
# Stores without a snapshot

While nothing has been compacted a store holds entries `1, 2, …` in order, and
its searches are positions in the list. Under this shape `append_from_leader`
is the copy of one log over another (`Consensus.merge`): the per-entry skip,
truncate and append decisions amount to keeping the own log when it already
contains the offered one, and taking the offered one otherwise.
-/
namespace Cnetmod.Raft

open MemoryStore
open List hiding merge

open Consensus (merge)

/-- Entry `i` of the run carries index `from + i + 1`. -/
def NumberedFrom (start : Nat) (es : List LogEntry) : Prop :=
  ∀ i e, es[i]? = some e → e.index = start + i + 1

lemma NumberedFrom.nil (n0 : Nat) : NumberedFrom n0 [] := by
  intro i e hf
  simp at hf

variable {es : List LogEntry} {n0 : Nat} {e : LogEntry}

lemma NumberedFrom.tail (hn : NumberedFrom n0 (e :: es)) : NumberedFrom (n0 + 1) es := by
  intro i x hf
  have := hn (i + 1) x (by simpa using hf)
  omega

lemma NumberedFrom.head (hn : NumberedFrom n0 (e :: es)) : e.index = n0 + 1 := by simpa using hn 0 e rfl

lemma NumberedFrom.drop (hn : NumberedFrom n0 es) (k : Nat) : NumberedFrom (n0 + k) (es.drop k) := by
  intro i e hf
  have := hn (k + i) e (by rwa [getElem?_drop] at hf)
  omega

lemma NumberedFrom.take (hn : NumberedFrom n0 es) (k : Nat) : NumberedFrom n0 (es.take k) := by
  intro i e hf
  rw [getElem?_take] at hf
  split at hf
  · exact hn i e hf
  · simp at hf

lemma NumberedFrom.append (left : NumberedFrom n0 es) (right : NumberedFrom (n0 + es.length) run) :
    NumberedFrom n0 (es ++ run) := by
  intro i e hf
  by_cases hi : i < es.length
  · rw [getElem?_append_left hi] at hf
    exact left i e hf
  rw [getElem?_append_right (by omega)] at hf
  have := right _ e hf
  omega

section

variable (hn : NumberedFrom n0 es)

include hn

lemma NumberedFrom.lt_of_mem (hm : e ∈ es) : n0 < e.index := by
  obtain ⟨i, hf⟩ := getElem?_of_mem hm
  have := hn i e hf
  omega

lemma NumberedFrom.ordered : InIndexOrder es := by
  induction es generalizing n0 with
  | nil => exact InIndexOrder.nil
  | cons e tl ih =>
    refine pairwise_cons.mpr ⟨fun x hm => ?_, ih hn.tail⟩
    have := hn.tail.lt_of_mem hm
    have := hn.head
    omega

/-- The number of the last entry. -/
lemma NumberedFrom.getLast (hf : es.getLast? = some last) : last.index = n0 + es.length := by
  have ho : es ≠ [] := by
    rintro rfl
    simp at hf
  have := length_pos_iff.mpr ho
  rw [getLast?_eq_getElem?] at hf
  have := hn _ _ hf
  omega

/-- Counting the entries below an index counts positions. -/
lemma NumberedFrom.lowerBoundOffset (k : Nat) : lowerBoundOffset es (n0 + k + 1) = min k es.length := by
  unfold Cnetmod.Raft.lowerBoundOffset
  induction es generalizing n0 k with
  | nil => simp
  | cons e tl ih =>
    have hf := hn.head
    cases k with
    | zero => simp [hf]
    | succ k =>
      have hb : (e.index < n0 + (k + 1) + 1) := by omega
      have hc := ih hn.tail k
      rw [show n0 + 1 + k + 1 = n0 + (k + 1) + 1 by omega] at hc
      rw [takeWhile_cons, decide_eq_true hb, if_pos rfl, length_cons, hc, length_cons]
      omega

end

namespace MemoryStore

/-- A store that has never been compacted. -/
structure Plain (st : MemoryStore) : Prop where
  noSnapshot : st.snapshot.lastIncludedIndex = 0
  numbered : NumberedFrom 0 st.entries

variable {st : MemoryStore}

lemma Plain.lastLogIndex (hp : st.Plain) : st.lastLogIndex = st.entries.length := by
  unfold MemoryStore.lastLogIndex
  cases hs : st.entries.getLast? with
  | none => simp [getLast?_eq_none_iff.mp hs, hp.noSnapshot]
  | some last => simpa using hp.numbered.getLast hs

lemma Plain.firstLogIndex (hp : st.Plain) : st.firstLogIndex = 1 := by
  unfold MemoryStore.firstLogIndex
  cases hs : st.entries.head? with
  | none => simp [hp.noSnapshot]
  | some hd =>
    rw [head?_eq_getElem?] at hs
    simpa using hp.numbered 0 hd hs

lemma Plain.lowerBoundOffset (hp : st.Plain) (k : Nat) :
    Cnetmod.Raft.lowerBoundOffset st.entries (k + 1) = min k st.entries.length := by
  simpa using hp.numbered.lowerBoundOffset k

lemma Plain.entryAt (hp : st.Plain) (k : Nat) : st.entryAt (k + 1) = st.entries[k]? := by
  rw [entryAt_eq, hp.lowerBoundOffset]
  by_cases hi : k < st.entries.length
  · rw [min_eq_left (by omega)]
    cases hf : st.entries[k]? with
    | none => rfl
    | some e => simp [hp.numbered k e hf]
  · rw [min_eq_right (by omega)]
    simp [getElem?_eq_none (show st.entries.length ≤ k by omega)]

lemma Plain.termAt (hp : st.Plain) (k : Nat) : st.termAt (k + 1) = (st.entries[k]?.map (·.term)).getD 0 := by
  have hf := hp.entryAt k
  unfold MemoryStore.entryAt at hf
  unfold MemoryStore.termAt
  rw [hf, hp.noSnapshot]
  cases st.entries[k]? <;> simp

lemma Plain.exists_entry (hl : st.Plain) (hp : 0 < i) (hw : i ≤ st.entries.length) :
    ∃ e, st.entries[i - 1]? = some e ∧ st.termAt i = e.term := by
  have hf := getElem?_eq_getElem (show i - 1 < st.entries.length by omega)
  have ht := hl.termAt (i - 1)
  rw [Nat.sub_add_cancel hp, hf] at ht
  exact ⟨_, hf, by simpa using ht⟩

lemma Plain.entriesFrom (hp : st.Plain) (k n : Nat) : st.entriesFrom (k + 1) n = (st.entries.drop k).take n := by
  unfold MemoryStore.entriesFrom
  rw [hp.lowerBoundOffset]
  by_cases hi : k ≤ st.entries.length
  · rw [min_eq_left hi]
  · rw [min_eq_right (by omega), drop_of_length_le (le_rfl), drop_of_length_le (by omega)]

lemma Plain.truncateSuffix_entries (hp : st.Plain) (k : Nat) : (st.truncateSuffix (k + 1)).entries = st.entries.take k := by
  unfold truncateSuffix
  simp only [Nat.add_eq_zero_iff, Nat.succ_ne_self, and_false, if_false, hp.lowerBoundOffset]
  by_cases hi : k ≤ st.entries.length
  · rw [min_eq_left hi]
  · rw [min_eq_right (by omega), take_of_length_le (le_rfl), take_of_length_le (by omega)]

lemma truncateSuffix_snapshot (st : MemoryStore) (i : Nat) : (st.truncateSuffix i).snapshot = st.snapshot := by
  unfold truncateSuffix
  split <;> rfl

lemma truncateSuffix_state (st : MemoryStore) (i : Nat) : (st.truncateSuffix i).state = st.state := by
  unfold truncateSuffix
  split <;> rfl

lemma Plain.truncateSuffix (hp : st.Plain) (k : Nat) : (st.truncateSuffix (k + 1)).Plain where
  noSnapshot := by rw [truncateSuffix_snapshot, hp.noSnapshot]
  numbered := by
    rw [hp.truncateSuffix_entries]
    exact hp.numbered.take k

lemma Plain.appendOne_entries (hp : st.Plain) (ho : e.index = k + 1) : (st.appendOne e).entries = st.entries.take k ++ [e] := by
  unfold appendOne
  rw [if_neg (by rw [hp.noSnapshot]; omega)]
  split
  · rename_i next
    rw [hp.lastLogIndex] at next
    rw [take_of_length_le (by omega)]
    rfl
  · change (st.truncateSuffix e.index).entries ++ [e] = _
    rw [ho, hp.truncateSuffix_entries]

lemma appendOne_snapshot (st : MemoryStore) (e : LogEntry) : (st.appendOne e).snapshot = st.snapshot := by
  unfold appendOne
  split
  · rfl
  split
  · rfl
  · exact truncateSuffix_snapshot _ _

lemma appendOne_state (st : MemoryStore) (e : LogEntry) : (st.appendOne e).state = st.state := by
  unfold appendOne
  split
  · rfl
  split
  · rfl
  · exact truncateSuffix_state _ _

lemma sortByIndex_of_ordered (ho : InIndexOrder es) : sortByIndex es = es :=
  List.Pairwise.insertionSort_eq ho

lemma append_snapshot (st : MemoryStore) (es : List LogEntry) : (st.append es).snapshot = st.snapshot := by
  unfold append
  split
  · exact appendOne_snapshot _ _
  split
  · rfl
  · exact truncateSuffix_snapshot _ _

lemma append_state (st : MemoryStore) (es : List LogEntry) : (st.append es).state = st.state := by
  unfold append
  split
  · exact appendOne_state _ _
  split
  · rfl
  · exact truncateSuffix_state _ _

/-- Appending a numbered run replaces everything from its first index on. -/
lemma Plain.append_entries (hp : st.Plain) (hn : NumberedFrom k run) (ho : run ≠ []) :
    (st.append run).entries = st.entries.take k ++ run := by
  unfold append
  split
  · exact hp.appendOne_entries hn.head
  have all : run.filter (fun e => e.index > st.snapshot.lastIncludedIndex) = run := by
    rw [filter_eq_self]
    intro e hm
    have := hn.lt_of_mem hm
    simp [hp.noSnapshot]
    omega
  split
  · rename_i hs
    rw [all, sortByIndex_of_ordered hn.ordered] at hs
    exact absurd hs ho
  rename_i front rest hs
  rw [all, sortByIndex_of_ordered hn.ordered] at hs
  subst hs
  change (st.truncateSuffix front.index).entries ++ (front :: rest) = _
  rw [hn.head, hp.truncateSuffix_entries]

end MemoryStore

namespace RaftStorage

/-- A write either throws and leaves the data alone, or goes through. -/
lemma write_eq (st : RaftStorage) (change : MemoryStore → MemoryStore) :
    (∃ thrown, st.write change = (.error thrown, { st with faults := st.faults.drop 1 })) ∨
      st.write change = (.ok (), { mem := change st.mem, faults := st.faults.drop 1 }) := by
  unfold write
  split
  · rename_i hn
    exact .inr (by rw [hn]; rfl)
  · rename_i hf
    exact .inr (by rw [hf]; rfl)
  · rename_i thrown rest hf
    exact .inl ⟨thrown, by rw [hf]; rfl⟩

lemma write_healthy {st : RaftStorage} (hh : st.faults = []) (change : MemoryStore → MemoryStore) :
    st.write change = (.ok (), { st with mem := change st.mem }) := by
  simp [write, hh]

end RaftStorage

namespace LogManager

open MemoryStore (Plain)

/-- What a scan's decisions make of the entry list. -/
def LeaderScan.result (scan : LeaderScan) (es : List LogEntry) : List LogEntry :=
  (match scan.truncateAt with
    | none => es
    | some index => es.take (index - 1)) ++ scan.toAppend

/-- A scan, as seen from the entries it leaves. -/
structure ScanSpec (mem : MemoryStore) (k : Nat) (run : List LogEntry) (scan : LeaderScan) :
    Prop where
  result : scan.result mem.entries = merge mem.entries (mem.entries.take k ++ run)
  reach : scan.matchIndex + scan.toAppend.length = k + run.length
  numbered : NumberedFrom scan.matchIndex scan.toAppend
  truncated : ∀ index, scan.truncateAt = some index → index = scan.matchIndex + 1 ∧ scan.toAppend ≠ []
  room : scan.toAppend ≠ [] → scan.matchIndex ≤ mem.entries.length
  whole : scan.toAppend ≠ [] → scan.truncateAt = none → scan.matchIndex = mem.entries.length

variable {run own : List LogEntry} {k : Nat}

lemma merge_of_longer : merge own (own ++ e :: run) = own ++ e :: run := by
  unfold merge
  rw [if_neg]
  intro sub
  have := sub.length_le
  simp at this

lemma merge_of_conflict (hf : own[k]? = some mine) (hb : mine ≠ theirs) :
    merge own (own.take k ++ theirs :: run) = own.take k ++ theirs :: run := by
  have hi := (List.getElem?_eq_some_iff.mp hf).1
  unfold merge
  rw [if_neg]
  rintro ⟨tl, hs⟩
  have ha : (own.take k ++ theirs :: run ++ tl)[k]? = some theirs := by
    simp [min_eq_left hi.le]
  rw [hs, hf] at ha
  exact hb (Option.some.inj ha)

/-- The entry loop, by induction on the offered entries. An offered entry whose
term the store already has at that index is the stored one (`agree`). -/
lemma scanFromLeader_spec (plain : mem.Plain)
    (stamped : ∀ e ∈ mem.entries, e.term ≠ 0) (numbered : NumberedFrom k run) (reach : k ≤ mem.entries.length ∨ run = [])
    (agree : ∀ i mine theirs, mem.entries[k + i]? = some mine → run[i]? = some theirs →
      mine.term = theirs.term → mine = theirs) : ScanSpec mem k run (scanFromLeader mem 0 k run) := by
  induction run generalizing k with
  | nil =>
    have kept : merge mem.entries (mem.entries.take k) = mem.entries := if_pos <| take_prefix _ _
    constructor <;> simp [scanFromLeader, LeaderScan.result, kept, NumberedFrom]
  | cons ent tl ih =>
    have hd := numbered.head
    have reach : k ≤ mem.entries.length := by simpa using reach
    unfold scanFromLeader
    rw [if_neg (by omega), hd]
    simp only [plain.termAt]
    cases found : mem.entries[k]? with
    | none =>
      have ended : k = mem.entries.length := by
        have := getElem?_eq_none_iff.mp found
        omega
      refine ⟨?_, rfl, numbered, by simp, fun _ => by simpa using reach, fun _ _ => ended⟩
      subst ended
      simp [LeaderScan.result, merge_of_longer]
    | some mine =>
      have positive : mine.term ≠ 0 := stamped mine (mem_of_getElem? found)
      simp only [Option.map_some, Option.getD_some, ne_eq, positive, not_false_eq_true, true_and, if_false]
      by_cases same : mine.term = ent.term
      · have equal : mine = ent := agree 0 mine ent (by simpa using found) rfl same
        rw [if_neg (by simpa using same), max_eq_right (by omega)]
        have spec := ih numbered.tail
          (.inl (List.getElem?_eq_some_iff.mp found).1) fun i a b left right =>
            agree (i + 1) a b (by rwa [show k + (i + 1) = k + 1 + i by omega]) (by simpa using right)
        refine { spec with result := ?_, reach := ?_ }
        · rw [spec.result, take_add_one, found, equal]
          simp
        · rw [spec.reach, length_cons]
          omega
      · rw [if_pos same]
        refine ⟨?_, rfl, numbered, by simp, fun _ => by simpa using reach, by simp⟩
        exact (merge_of_conflict found fun equal => same (equal ▸ rfl)).symm

/-- `append_from_leader` on a healthy, uncompacted store whose previous entry
matches: the store takes over the offered log, and answers with its end. -/
lemma appendFromLeader_spec {st : RaftStorage} (hh : st.faults = []) (hp : st.mem.Plain)
    (ht : ∀ e ∈ st.mem.entries, e.term ≠ 0) {prev pt : Nat} (hm : matches_ st prev pt = true) (hg : NumberedFrom prev run)
    (hr : prev ≤ st.mem.entries.length ∨ run = [])
    (ha : ∀ i mine theirs, st.mem.entries[prev + i]? = some mine → run[i]? = some theirs →
      mine.term = theirs.term → mine = theirs) : ∃ mem : MemoryStore,
      appendFromLeader st prev pt run = (.ok { success := true, matchIndex := prev + run.length }, { st with mem := mem }) ∧
        mem.entries = merge st.mem.entries (st.mem.entries.take prev ++ run) ∧
        mem.state = st.mem.state ∧ mem.snapshot = st.mem.snapshot := by
  have hs := scanFromLeader_spec hp ht hg hr ha
  unfold appendFromLeader loadSnapshotMetadata
  rw [if_neg (by simp [hm]), hp.noSnapshot]
  dsimp only
  generalize scanFromLeader st.mem 0 prev run = scan at hs ⊢
  have hk : scan.toAppend.filter (fun e => !decide (e.index ≤ 0)) = scan.toAppend := by
    rw [filter_eq_self]
    intro e hj
    have := hs.numbered.lt_of_mem hj
    simp
    omega
  -- the cut comes first, and leaves a plain store that ends where the run begins
  have cut : ∃ mem : MemoryStore, truncateAt st scan.truncateAt = (.ok (), { st with mem := mem }) ∧
      mem.Plain ∧ mem.state = st.mem.state ∧ mem.snapshot = st.mem.snapshot ∧
      mem.entries ++ scan.toAppend = scan.result st.mem.entries ∧
      (scan.toAppend ≠ [] → mem.entries.length = scan.matchIndex) := by
    unfold truncateAt LeaderScan.result
    cases hw : scan.truncateAt with
    | none => exact ⟨st.mem, rfl, hp, rfl, rfl, rfl, fun some => (hs.whole some hw).symm⟩
    | some k =>
      have ho := (hs.truncated k hw).1
      subst ho
      refine ⟨st.mem.truncateSuffix (scan.matchIndex + 1), RaftStorage.write_healthy hh _, hp.truncateSuffix _,
        truncateSuffix_state _ _, truncateSuffix_snapshot _ _, ?_, ?_⟩
      · simp [hp.truncateSuffix_entries]
      · intro some
        simp [hp.truncateSuffix_entries, hs.room some]
  obtain ⟨mem, hq, hv, hu, hc, hf, hx⟩ := cut
  rw [hq]
  rw [hk]
  cases hl : scan.toAppend.getLast? with
  | none =>
    have he := getLast?_eq_none_iff.mp hl
    refine ⟨mem, ?_, ?_, hu, hc⟩
    · have := hs.reach
      simp [he] at this
      simp [this]
    · rw [← hs.result, ← hf, he, append_nil]
  | some back =>
    have hn : scan.toAppend ≠ [] := by
      intro he
      simp [he] at hl
    have hb := hs.numbered.getLast hl
    dsimp only
    unfold RaftStorage.append
    rw [@RaftStorage.write_healthy { st with mem := mem } hh]
    refine ⟨mem.append scan.toAppend, ?_, ?_, ?_, ?_⟩
    · have := hs.reach
      simp [hb]
      omega
    · rw [hv.append_entries (hx hn ▸ hs.numbered) hn, take_of_length_le (le_rfl), hf, hs.result]
    · rw [append_state, hu]
    · rw [append_snapshot, hc]

end LogManager

end Cnetmod.Raft
