import Mathlib.Data.List.Pairwise
import Cnetmod.Kafka.Source.Fetch

/-!
# Reading committed records

The consumer never looks at the kind of a marker. It is enough that the first offsets it
was given are those of the aborted transactions in order: a batch is in an aborted
transaction exactly if the first of them that no marker has ended yet lies at or before it.
-/
namespace Cnetmod.Kafka

open List Function

variable {ν : Type}

/-- A partition's log: its batches one after the other, and the records within them. -/
structure Ordered (log : List (RecordBatch ν)) : Prop where
  batches : log.Pairwise (·.lastOffset < ·.baseOffset)
  spans : ∀ b ∈ log, b.baseOffset ≤ b.lastOffset
  sorted : ∀ b ∈ log, b.records.Pairwise (·.offset < ·.offset)
  within : ∀ b ∈ log, ∀ r ∈ b.records, b.baseOffset ≤ r.offset ∧ r.offset ≤ b.lastOffset

/-- A batch of a transaction's records. -/
def RecordBatch.Data (b : RecordBatch ν) : Prop := b.control = false ∧ b.transactional = true

/-- `m` is the first marker of its producer behind `b`. -/
structure Ends (log : List (RecordBatch ν)) (b m : RecordBatch ν) : Prop where
  mem : m ∈ log
  control : m.control = true
  producer : m.producerId = b.producerId
  behind : b.baseOffset < m.baseOffset
  next : ∀ c ∈ log, c.control = true → c.producerId = b.producerId → b.baseOffset < c.baseOffset → m.baseOffset ≤ c.baseOffset

/-- The transaction that `m` ends begins at offset `first`. -/
def Begins (log : List (RecordBatch ν)) (m : RecordBatch ν) (first : Int) : Prop :=
  ∃ b ∈ log, b.Data ∧ Ends log b m ∧ b.baseOffset = first ∧ ∀ c ∈ log, c.Data → Ends log c m → first ≤ c.baseOffset

def Aborted (log : List (RecordBatch ν)) (b : RecordBatch ν) : Prop := b.Data ∧ ∃ m, Ends log b m ∧ m.abort = true

/-- The aborted transactions whose marker is at or behind `start`, ordered by first offset. -/
structure Listed (log : List (RecordBatch ν)) (start : Int) (aborted : List AbortedTransaction) : Prop where
  sorted : aborted.Pairwise (·.firstOffset < ·.firstOffset)
  exact : ∀ t, t ∈ aborted ↔ ∃ m ∈ log, m.control = true ∧ m.abort = true ∧ m.producerId = t.producerId ∧
    start ≤ m.lastOffset ∧ Begins log m t.firstOffset

/-- The queues hold the first offsets of the aborted transactions that end in `rest`. -/
structure Pending (log rest : List (RecordBatch ν)) (queues : Int → List Int) : Prop where
  sorted : ∀ p, (queues p).Pairwise (· < ·)
  exact : ∀ p f, f ∈ queues p ↔ ∃ m ∈ rest, m.control = true ∧ m.abort = true ∧ m.producerId = p ∧ Begins log m f

variable {log pre rest : List (RecordBatch ν)} {b m m' : RecordBatch ν} {queues : Int → List Int}

namespace Ordered

lemma base_lt (ho : Ordered log) : log.Pairwise (·.baseOffset < ·.baseOffset) :=
  ho.batches.imp_of_mem fun ha _ h => Int.lt_of_le_of_lt (ho.spans _ ha) h

lemma eq_of_base (ho : Ordered log) (ha : m ∈ log) (hb : m' ∈ log) (h : m.baseOffset = m'.baseOffset) : m = m' := by
  have hn := ho.base_lt
  exact List.Pairwise.forall_of_forall_of_flip (R := fun m m' => m.baseOffset = m'.baseOffset → m = m') (fun _ _ _ => rfl)
    (hn.imp fun h e => absurd h (by omega)) (hn.imp fun h e => absurd h (by omega)) ha hb h

lemma le_of_rest (ho : Ordered (pre ++ b :: rest)) (hm : m ∈ b :: rest) : b.baseOffset ≤ m.baseOffset := by
  rcases mem_cons.mp hm with rfl | h
  · exact Int.le_refl _
  · exact Int.le_of_lt ((pairwise_cons.mp (pairwise_append.mp ho.base_lt).2.1).1 m h)

lemma mem_rest (ho : Ordered (pre ++ b :: rest)) (hm : m ∈ pre ++ b :: rest) (h : b.baseOffset ≤ m.baseOffset) :
    m ∈ b :: rest := by
  rcases mem_append.mp hm with hp | hr
  · exact absurd ((pairwise_append.mp ho.base_lt).2.2 m hp b mem_cons_self) (Int.not_lt.mpr h)
  · exact hr

end Ordered

/-- The first batch of the transaction that ends with `m`. -/
lemma exists_begins (ho : Ordered log) (hb : b ∈ log) (hd : b.Data) (he : Ends log b m) :
    ∃ first, Begins log m first ∧ first ≤ b.baseOffset := by
  classical
  have hs : (log.find? fun c => c.Data ∧ Ends log c m).isSome := find?_isSome.mpr ⟨b, hb, by simpa using ⟨hd, he⟩⟩
  obtain ⟨c, hc⟩ := Option.isSome_iff_exists.mp hs
  obtain ⟨hp, pre, after, rfl, ha⟩ := find?_eq_some_iff_append.mp hc
  have hn (d : RecordBatch ν) (hm : d ∈ pre ++ c :: after) (h : d.Data ∧ Ends (pre ++ c :: after) d m) :
      c.baseOffset ≤ d.baseOffset := by
    rcases mem_append.mp hm with hl | hr
    · exact absurd h (of_decide_eq_false (by simpa only [Bool.not_eq_true'] using ha d hl))
    · exact ho.le_of_rest hr
  have hc := of_decide_eq_true hp
  exact ⟨c.baseOffset, ⟨c, by simp, hc.1, hc.2, rfl, fun d hm h h' => hn d hm ⟨h, h'⟩⟩, hn b hb ⟨hd, he⟩⟩

/-- A marker of the producer behind the first offset is not before the end of the transaction. -/
lemma Begins.end_le (h : Begins log m hd) (hm : m' ∈ log) (hc : m'.control = true)
    (hp : m'.producerId = m.producerId) (hf : hd < m'.baseOffset) : m.baseOffset ≤ m'.baseOffset := by
  obtain ⟨c, -, -, he, rfl, -⟩ := h
  exact he.next m' hm hc (hp.trans he.producer) hf

lemma Begins.unique (h : Begins log m x) (h' : Begins log m o) : x = o := by
  obtain ⟨c, hc, hd, he, rfl, hm⟩ := h
  obtain ⟨c', hc', hd', he', rfl, hmin'⟩ := h'
  exact Int.le_antisymm (hm c' hc' hd' he') (hmin' c hc hd he)

lemma Begins.lt (h : Begins log m hd) : hd < m.baseOffset := by
  obtain ⟨c, -, -, he, rfl, -⟩ := h
  exact he.behind

namespace Pending

lemma start (hl : Listed log n0 aborted) (ho : log = pre ++ rest)
    (hbefore : ∀ b ∈ pre, b.lastOffset < n0) (hr : ∀ b ∈ rest, n0 ≤ b.lastOffset) :
    Pending log rest (IsolationLevel.readCommitted.queues aborted) where
  sorted p := pairwise_map.mpr (hl.sorted.filter _)
  exact p f := by
    have he : f ∈ IsolationLevel.readCommitted.queues aborted p ↔ (⟨p, f⟩ : AbortedTransaction) ∈ aborted := by
      simp only [IsolationLevel.queues, mem_map, mem_filter, decide_eq_true_eq]
      refine ⟨?_, fun h => ⟨_, ⟨h, rfl⟩, rfl⟩⟩
      rintro ⟨t, ⟨ht, rfl⟩, rfl⟩
      exact ht
    rw [he, hl.exact]
    refine exists_congr fun m => ?_
    rw [ho, mem_append]
    constructor
    · rintro ⟨hm, hc, ha, hp, hs, hb⟩
      refine ⟨hm.resolve_left fun h => ?_, hc, ha, hp, hb⟩
      have := hbefore m h
      omega
    · rintro ⟨hm, hc, ha, hp, hb⟩
      exact ⟨.inr hm, hc, ha, hp, hr m hm, hb⟩

/-- The first offset at the head of a queue is at or before a batch exactly if one of the queue is. -/
lemma begun_iff (hq : Pending log rest queues) : (queues p).head?.any (· ≤ o) = true ↔ ∃ f ∈ queues p, f ≤ o := by
  have hs := hq.sorted p
  cases hf : queues p with
  | nil => simp
  | cons f fs =>
    rw [hf] at hs
    simp only [head?_cons, Option.any_some, decide_eq_true_eq]
    refine ⟨fun h => ⟨f, mem_cons_self, h⟩, ?_⟩
    rintro ⟨g, hg, h⟩
    rcases mem_cons.mp hg with rfl | ht
    · exact h
    · have := (pairwise_cons.mp hs).1 g ht
      omega

variable (ho : Ordered log) (hlog : log = pre ++ b :: rest) (hq : Pending log (b :: rest) queues)

include ho hlog hq

/-- A batch of records is in an aborted transaction exactly if one has begun. -/
lemma aborted_iff (hd : b.Data) : (queues b.producerId).head?.any (· ≤ b.baseOffset) = true ↔ Aborted log b := by
  have hb : b ∈ log := by simp [hlog]
  rw [hq.begun_iff]
  constructor
  · rintro ⟨f, hf, hl⟩
    obtain ⟨m, hm, hc, ha, hp, hg⟩ := (hq.exact _ f).mp hf
    have ht : b.baseOffset < m.baseOffset := by
      have hr := (hlog ▸ ho).le_of_rest hm
      have hu : b.baseOffset ≠ m.baseOffset := fun h => by
        rw [ho.eq_of_base hb (by simp [hlog, mem_cons.mp hm]) h, RecordBatch.Data, hc] at hd
        cases hd.1
      omega
    refine ⟨hd, m, ⟨by simp [hlog, mem_cons.mp hm], hc, hp, ht, fun c hj hk hn hv => ?_⟩, ha⟩
    exact hg.end_le hj hk (hn.trans hp.symm) (by omega)
  · rintro ⟨-, m, he, ha⟩
    obtain ⟨f, hg, hl⟩ := exists_begins ho hb hd he
    exact ⟨f, (hq.exact _ f).mpr ⟨m, (hlog ▸ ho).mem_rest (hlog ▸ he.mem) (Int.le_of_lt he.behind), he.control, ha,
      he.producer, hg⟩, hl⟩

/-- The queues behind a batch: without the transaction that it ends. -/
lemma tail (hs : ∀ p, (queues' p).Pairwise (· < ·)) (hx : ∀ p f, f ∈ queues' p ↔
      f ∈ queues p ∧ ¬ (b.control = true ∧ b.abort = true ∧ b.producerId = p ∧ Begins log b f)) : Pending log rest queues' where
  sorted := hs
  exact p f := by
    rw [hx, hq.exact]
    constructor
    · rintro ⟨⟨m, hm, h⟩, hno⟩
      rcases mem_cons.mp hm with rfl | hr
      · exact absurd h hno
      · exact ⟨m, hr, h⟩
    rintro ⟨m, hm, hc, ha, hp, hb⟩
    refine ⟨⟨m, mem_cons_of_mem _ hm, hc, ha, hp, hb⟩, fun ⟨he, _, hbp, hbb⟩ => ?_⟩
    have hl := hb.end_le (by simp [hlog]) he (hbp.trans hp.symm) hbb.lt
    have ht := (pairwise_cons.mp (pairwise_append.mp (hlog ▸ ho.base_lt)).2.1).1 m hm
    omega

/-- A batch of records ends no transaction. -/
lemma data (hc : b.control = false) : Pending log rest queues :=
  hq.tail ho hlog hq.sorted fun p f => by simp [hc]

/-- A marker ends the transaction whose first offset is at or before it, if there is one. -/
lemma marker (hc : b.control = true) : Pending log rest (if (queues b.producerId).head?.any (· ≤ b.baseOffset) then
        Function.update queues b.producerId (queues b.producerId).tail else queues) := by
  have hb : b ∈ log := by simp [hlog]
  split
  next hbegun =>
    have hsorted := hq.sorted b.producerId
    cases hf : queues b.producerId with
    | nil => simp [hf] at hbegun
    | cons f fs =>
      rw [hf] at hbegun hsorted
      obtain ⟨m, hm, hr, ha, hp, hj⟩ := (hq.exact b.producerId f).mp (by simp [hf])
      -- the transaction at the head of the queue is the one that ends here
      have hl : Begins log b f ∧ b.abort = true := by
        obtain ⟨c, hv, hd, -, hw, -⟩ := id hj
        have hk : c.baseOffset ≠ b.baseOffset := fun h => by
          rw [ho.eq_of_base hv hb h, RecordBatch.Data, hc] at hd
          cases hd.1
        have ht : f ≤ b.baseOffset := by simpa using hbegun
        have h₁ := hj.end_le hb hc hp.symm (by omega)
        have h₂ := (hlog ▸ ho).le_of_rest hm
        obtain rfl := ho.eq_of_base (by simp [hlog, mem_cons.mp hm]) hb (Int.le_antisymm h₁ h₂)
        exact ⟨hj, ha⟩
      refine hq.tail ho hlog (fun p => ?_) fun p g => ?_
      · by_cases h : p = b.producerId
        · rw [h, update_self]
          exact hsorted.tail
        · rw [update_of_ne h]
          exact hq.sorted p
      by_cases h : p = b.producerId
      · subst h
        have hu : Begins log b g ↔ g = f := ⟨fun hg => hg.unique hl.1, fun hg => hg ▸ hl.1⟩
        have hx : f ∉ fs := fun hm => Int.lt_irrefl f ((pairwise_cons.mp hsorted).1 f hm)
        simp only [update_self, hf, tail_cons, mem_cons, hc, hl.2, hu, true_and]
        exact ⟨fun hg => ⟨.inr hg, fun he => hx (he ▸ hg)⟩, fun hg => hg.1.resolve_left hg.2⟩
      · rw [update_of_ne h]
        exact ⟨fun hg => ⟨hg, fun hn => h hn.2.2.1.symm⟩, And.left⟩
  next hbegun =>
    refine hq.tail ho hlog hq.sorted fun p g => ⟨fun hg => ⟨hg, fun ⟨_, _, hp, hj⟩ => ?_⟩, And.left⟩
    exact hbegun (hq.begun_iff.mpr ⟨g, hp ▸ hg, Int.le_of_lt hj.lt⟩)

end Pending

/-- From a position at or before all of them, records pass whatever the position. -/
lemma filter_from {rs : List (ConsumedRecord ν)} (h : ∀ r ∈ rs, pos ≤ r.offset) : rs.filter (pos ≤ ·.offset) = rs :=
  filter_eq_self.mpr fun r hr => decide_eq_true (h r hr)

lemma take_take_append (lim : Nat) (hd second : List ν) : (hd.take lim ++ second).take lim = (hd ++ second).take lim := by
  rw [take_append, take_append, take_take, length_take, Nat.min_self,
    show lim - min lim hd.length = lim - hd.length by omega]

lemma takeRecords_eq {out rs : List (ConsumedRecord ν)}
    (hs : rs.Pairwise (·.offset < ·.offset)) (hr : ∀ r ∈ rs, r.offset ≤ last) (hp : pos ≤ last + 1)
    (ho : out.length < lim) : (takeRecords lim pos out rs).1 ≤ last + 1 ∧
      (takeRecords lim pos out rs).2 = (out ++ rs.filter (pos ≤ ·.offset)).take lim := by
  induction rs generalizing pos out with
  | nil => exact ⟨hp, by simp [takeRecords, take_of_length_le (Nat.le_of_lt ho)]⟩
  | cons r rs ih =>
    rw [pairwise_cons] at hs
    rw [forall_mem_cons] at hr
    rw [takeRecords]
    split
    next ht =>
      rw [filter_cons_of_neg (by simpa using ht)]
      exact ih hs.2 hr.2 hp ho
    next hg =>
      rw [filter_cons_of_pos (by simpa using hg), filter_from fun r' hr' => by
        have := hs.1 r' hr'
        omega]
      split
      next hf =>
        have hl : (out ++ [r]).length = lim := by
          rw [length_append, length_singleton]
          omega
        exact ⟨Int.add_le_add_right hr.1 1, by rw [append_cons out r rs, take_left' hl]⟩
      next hm =>
        have h := ih hs.2 hr.2 (show r.offset + 1 ≤ last + 1 by omega) (show (out ++ [r]).length < lim by simp; omega)
        rwa [filter_from fun r' hr' => Int.add_one_le_of_lt (hs.1 r' hr'), ← append_cons] at h

open Classical in
/-- The records of the batches that are neither markers nor aborted. -/
noncomputable def committed (log batches : List (RecordBatch ν)) : List (ConsumedRecord ν) :=
  (batches.filter fun b => b.control = false ∧ ¬ Aborted log b).flatMap (·.records)

lemma takeBatches_eq {run after : List (RecordBatch ν)}
    (ho : Ordered log) (hg : log = pre ++ (run ++ after)) (hq : Pending log (run ++ after) queues)
    (hp : ∀ b ∈ run, pos ≤ b.lastOffset) (hl : out.length ≤ lim) :
    (takeBatches lim pos queues out run).2 = (out ++ (committed log run).filter (pos ≤ ·.offset)).take lim := by
  induction run generalizing pre pos queues out with
  | nil => simp [takeBatches, committed, take_of_length_le hl]
  | cons b run ih =>
    have hb : b ∈ log := by simp [hg]
    have hlog' : log = (pre ++ [b]) ++ (run ++ after) := by simp [hg]
    have hlater (c : RecordBatch ν) (hc : c ∈ run) : b.lastOffset < c.baseOffset ∧ c ∈ log :=
      ⟨(pairwise_cons.mp (pairwise_append.mp (hg ▸ ho.batches)).2.1).1 c (mem_append_left _ hc), by simp [hg, hc]⟩
    have hbehind (r : ConsumedRecord ν) (hr : r ∈ committed log run) : b.lastOffset < r.offset := by
      obtain ⟨c, hc, he⟩ := mem_flatMap.mp hr
      have h := hlater c (mem_filter.mp hc).1
      exact Int.lt_of_lt_of_le h.1 (ho.within c h.2 r he).1
    have hf {p : Int} (h : p ≤ b.lastOffset + 1) : (committed log run).filter (p ≤ ·.offset) = committed log run :=
      filter_from fun r hr => by
        have := hbehind r hr
        omega
    have hn {p : Int} (h : p ≤ b.lastOffset + 1) (c : RecordBatch ν) (hc : c ∈ run) : p ≤ c.lastOffset := by
      have := ho.spans c (hlater c hc).2
      have := (hlater c hc).1
      omega
    have hj := hp b mem_cons_self
    rw [takeBatches]
    split
    next hu => rw [take_left' (by omega)]
    next hm =>
      dsimp only
      split
      next hc =>
        have hs : committed log (b :: run) = committed log run := by simp [committed, hc]
        rw [ih hlog' (hq.marker ho hg hc) (hn (Int.le_refl _)) hl, hs, hf (Int.le_refl _), hf (by omega)]
      next hc =>
        rw [Bool.not_eq_true] at hc
        have hq' := hq.data ho hg hc
        split
        next ha =>
          rw [Bool.and_eq_true] at ha
          have habort := (hq.aborted_iff ho hg ⟨hc, ha.1⟩).mp ha.2
          have hs : committed log (b :: run) = committed log run := by simp [committed, habort]
          rw [ih hlog' hq' (hn (Int.le_refl _)) hl, hs, hf (Int.le_refl _), hf (by omega)]
        next ha =>
          have hk : ¬ Aborted log b := fun h => ha (by
            rw [Bool.and_eq_true]
            exact ⟨h.1.2, (hq.aborted_iff ho hg h.1).mpr h⟩)
          have ht : committed log (b :: run) = b.records ++ committed log run := by simp [committed, hc, hk]
          obtain ⟨h₁, h₂⟩ := takeRecords_eq (ho.sorted b hb) (fun r hr => (ho.within b hb r hr).2)
            (show pos ≤ b.lastOffset + 1 by omega) (Nat.lt_of_not_le hm)
          rw [ih hlog' hq' (hn h₁) (by rw [h₂]; exact length_take_le _ _), ht, filter_append, hf h₁,
            hf (by omega), h₂, ← append_assoc, take_take_append]

/-- From the batch that reaches the start of the fetch on, exactly the committed records
at or behind the start are returned, in order and up to the limit. -/
theorem read_committed_exact {limit : Nat} {start : Int} {aborted : List AbortedTransaction} {run after : List (RecordBatch ν)}
    (ho : Ordered (pre ++ (run ++ after))) (hbefore : ∀ b ∈ pre, b.lastOffset < start)
    (hfrom : ∀ b ∈ run ++ after, start ≤ b.lastOffset) (hl : Listed (pre ++ (run ++ after)) start aborted) :
    (pollOnce .readCommitted limit start aborted run).2 =
      ((committed (pre ++ (run ++ after)) run).filter (start ≤ ·.offset)).take limit := by
  have h := takeBatches_eq ho rfl (Pending.start hl rfl hbefore hfrom)
    (fun b hb => hfrom b (mem_append_left _ hb)) (show ([] : List (ConsumedRecord ν)).length ≤ limit from Nat.zero_le _)
  rwa [nil_append] at h

/-- Producer 7 aborts a transaction of two records, into which 9 writes one that it commits, and then commits
one of its own; 8 has no transactions. -/
def mixedLog : List (RecordBatch Nat) :=
  [⟨0, 1, 7, true, false, false, [⟨0, 5⟩, ⟨1, 6⟩]⟩, ⟨2, 2, 9, true, false, false, [⟨2, 7⟩]⟩,
    ⟨3, 3, 7, true, true, true, [⟨3, 0⟩]⟩, ⟨4, 4, 9, true, true, false, [⟨4, 0⟩]⟩,
    ⟨5, 5, 7, true, false, false, [⟨5, 8⟩]⟩, ⟨6, 6, 7, true, true, false, [⟨6, 0⟩]⟩,
    ⟨7, 7, 8, false, false, false, [⟨7, 9⟩]⟩]

lemma mixedLog_listed : Listed mixedLog 1 [⟨7, 0⟩] := by
  refine ⟨by simp, fun t => ⟨fun listed => ?_, ?_⟩⟩
  · obtain rfl := mem_singleton.mp listed
    refine ⟨⟨3, 3, 7, true, true, true, [⟨3, 0⟩]⟩, by simp [mixedLog], rfl, rfl, rfl, by decide, _, mem_cons_self,
      ⟨rfl, rfl⟩, ⟨by simp [mixedLog], rfl, rfl, by decide, by decide⟩, rfl, fun c member _ _ => ?_⟩
    exact (by decide : ∀ c ∈ mixedLog, 0 ≤ c.baseOffset) c member
  · rintro ⟨m, marker, control, abort, producer, -, b, member, data, ends, first, -⟩
    obtain ⟨seven, three⟩ := (by decide : ∀ m ∈ mixedLog, m.control = true → m.abort = true →
      m.producerId = 7 ∧ m.baseOffset = 3) m marker control abort
    have zero := (by decide : ∀ b ∈ mixedLog, b.control = false → b.producerId = 7 → b.baseOffset < 3 →
      b.baseOffset = 0) b member data.1 (ends.producer.symm.trans seven) (three ▸ ends.behind)
    obtain ⟨producerId, firstOffset⟩ := t
    simp_all

/-- Read from the second record of the aborted transaction on. -/
theorem read_committed_mixed :
    (pollOnce .readCommitted 10 1 [⟨7, 0⟩] mixedLog).2.map (·.value) = [7, 8, 9] ∧
      (pollOnce .readCommitted 10 1 [⟨7, 0⟩] mixedLog).2 =
        ((committed mixedLog mixedLog).filter (1 ≤ ·.offset)).take 10 :=
  ⟨by decide, @read_committed_exact Nat [] 10 1 [⟨7, 0⟩] mixedLog [] ⟨by decide, by decide, by decide, by decide⟩ nofun
    (by decide) mixedLog_listed⟩

end Cnetmod.Kafka
