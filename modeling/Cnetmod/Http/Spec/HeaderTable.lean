import Cnetmod.Coding.BoundedTable
import Cnetmod.Http.Source.HeaderCompression

/-!
# The dynamic table

Eviction keeps the longest beginning of the table that fits the limit.
-/
namespace Cnetmod.Http.V2

open Entry Coding

namespace HeaderCompression

variable {s : HeaderCompression}

/-- The byte count of the table is right and within the limit. -/
structure Sound (s : HeaderCompression) : Prop where
  counted : s.dynamicTableBytes = total Entry.size s.dynamicTable
  bounded : s.dynamicTableBytes ≤ s.dynamicTableLimit

lemma evictLoop_eq (lim : Nat) (xs : List Entry) : evictLoop lim xs.reverse (total Entry.size xs) =
      ((fit Entry.size lim xs).reverse, total Entry.size (fit Entry.size lim xs)) := by
  induction xs using List.reverseRecOn with
  | nil => rfl
  | append_singleton xs oldest ih =>
    rw [List.reverse_append, List.reverse_singleton, List.singleton_append, evictLoop]
    split
    case isTrue hl =>
      have hr : total size (xs ++ [oldest]) - oldest.size = total size xs := by simp
      rw [hr, ih, fit_concat hl]
    case isFalse hs =>
      rw [fit_eq_self (by omega)]
      simp

/-- What `evict` leaves of a table whose bytes are counted right. -/
lemma evict_eq (hc : s.dynamicTableBytes = total Entry.size s.dynamicTable) : s.evict = { s with
        dynamicTable := fit size s.dynamicTableLimit s.dynamicTable
        dynamicTableBytes := total size (fit size s.dynamicTableLimit s.dynamicTable) } := by
  rw [evict, hc, evictLoop_eq]
  simp

lemma Sound.evict (hc : s.dynamicTableBytes = total Entry.size s.dynamicTable) : s.evict.Sound := by
  rw [evict_eq hc]
  exact ⟨rfl, total_fit_le _⟩

/-- The table after an insertion: an entry that does not fit clears it. -/
lemma insert_eq (hs : s.Sound) (x : Entry) : s.insert x = { s with
        decodedBlock := []
        dynamicTable := fit size s.dynamicTableLimit (x :: s.dynamicTable)
        dynamicTableBytes := total size (fit size s.dynamicTableLimit (x :: s.dynamicTable)) } := by
  unfold insert
  split
  case isTrue hl => simp [fit, not_le.mpr hl]
  case isFalse =>
    rw [evict_eq]
    simp [hs.counted, add_comm]

lemma Sound.insert (hs : s.Sound) (x : Entry) : (s.insert x).Sound := by
  rw [insert_eq hs]
  exact ⟨rfl, total_fit_le _⟩

lemma Sound.setDynamicTableLimit (hs : s.Sound) (bs : Nat) : (s.setDynamicTableLimit bs).Sound :=
  Sound.evict hs.counted

@[simp] lemma insert_limit (s : HeaderCompression) (x : Entry) : (s.insert x).dynamicTableLimit = s.dynamicTableLimit := by
  unfold insert
  split <;> rfl

@[simp] lemma insert_decodedBlock (s : HeaderCompression) (x : Entry) : (s.insert x).decodedBlock = [] := by
  unfold insert
  split <;> rfl

lemma length_insert_le (hs : s.Sound) (x : Entry) : (s.insert x).dynamicTable.length ≤ s.dynamicTable.length + 1 := by
  rw [insert_eq hs]
  exact (fit_begins _).length_le

lemma bytes_insert_le (hs : s.Sound) (x : Entry) : (s.insert x).dynamicTableBytes ≤ s.dynamicTableBytes + x.size := by
  have cut : total size (fit size s.dynamicTableLimit (x :: s.dynamicTable)) ≤
      total size (x :: s.dynamicTable) := total_le_of_prefix (fit_begins _)
  rw [total_cons, add_comm, ← hs.counted] at cut
  rw [insert_eq hs]
  exact cut

/-- A smaller or emptier table stays a beginning of a larger one when both take an entry. -/
lemma insert_prefix {e d : HeaderCompression} (hs : e.Sound) (ho : d.Sound) (hb : e.dynamicTable <+: d.dynamicTable)
    (hr : e.dynamicTableLimit ≤ d.dynamicTableLimit ∨ e.dynamicTableBytes + x.size ≤ d.dynamicTableLimit) :
    (e.insert x).dynamicTable <+: (d.insert x).dynamicTable := by
  have hm : (e.insert x).dynamicTableBytes ≤ d.dynamicTableLimit := by
    have hl := (hs.insert x).bounded
    have hg := bytes_insert_le hs x
    rw [insert_limit] at hl
    omega
  rw [insert_eq hs] at hm ⊢
  rw [insert_eq ho]
  refine prefix_fit ?_ hm
  exact (fit_begins _).trans ((List.prefix_cons_inj x).mpr hb)

/-- Lowering or raising the limit only cuts the table. -/
lemma setDynamicTableLimit_begins (hs : s.Sound) (bs : Nat) : (s.setDynamicTableLimit bs).dynamicTable <+: s.dynamicTable := by
  rw [setDynamicTableLimit, evict_eq (by exact hs.counted)]
  exact fit_begins _

end HeaderCompression

end Cnetmod.Http.V2
