import Cnetmod.Http.Spec.HeaderTable

/-!
# The memo of the last block

`decode_into` answers a repeated block from its memo. A block is remembered only
when it left the table alone, and every change of the table forgets it, so the
answer is the one the loop would give.
-/
namespace Cnetmod.Http.V2

open Coding

namespace HeaderCompression

/-- The loop has changed the table and dropped the memo. -/
def DecodeLoop.Changed (l : DecodeLoop) : Prop :=
  l.changesTable = true ∧ l.codec.decodedBlock = []

variable {d s t : HeaderCompression} {fuel : Nat}

/-- Two codecs with the same table, which may remember different blocks. -/
structure SameTable (s t : HeaderCompression) : Prop where
  table : s.dynamicTable = t.dynamicTable
  bytes : s.dynamicTableBytes = t.dynamicTableBytes
  limit : s.dynamicTableLimit = t.dynamicTableLimit

lemma SameTable.symm (hs : SameTable s t) : SameTable t s := ⟨hs.table.symm, hs.bytes.symm, hs.limit.symm⟩

lemma SameTable.trans (hs : SameTable s t) (ht : SameTable t d) : SameTable s d :=
  ⟨hs.table.trans ht.table, hs.bytes.trans ht.bytes, hs.limit.trans ht.limit⟩

lemma SameTable.setDynamicTableLimit (hs : SameTable s t) (bs : Nat) :
    SameTable (s.setDynamicTableLimit bs) (t.setDynamicTableLimit bs) := by
  unfold HeaderCompression.setDynamicTableLimit evict
  rw [hs.table, hs.bytes]
  exact ⟨rfl, rfl, rfl⟩

lemma SameTable.insert (hs : SameTable s t) (x : Entry) : SameTable (s.insert x) (t.insert x) := by
  unfold HeaderCompression.insert evict
  rw [hs.table, hs.bytes, hs.limit]
  split
  · exact ⟨rfl, rfl, rfl⟩
  · exact ⟨rfl, rfl, rfl⟩

/-- A turn reads a field that every codec with the same table would read, or it changes the
table and forgets the memo, whatever that is. -/
lemma decodeField_cases (hr : decodeField l b = some (l', tl)) :
    (∃ field, ∀ m : DecodeLoop, m.codec.dynamicTable = l.codec.dynamicTable →
      decodeField m b = some ({ m with output := m.output ++ [field], canResize := false }, tl)) ∨
      l'.Changed ∧ ∀ d, SameTable d l.codec → ∃ d',
        decodeField { l with codec := d } b = some ({ l' with codec := d' }, tl) ∧ SameTable d' l'.codec := by
  cases b with
  | nil => cases hr
  | cons x tail =>
    simp only [decodeField] at hr ⊢
    split at hr
    case isTrue hb =>
      split at hr
      · cases hr
      case h_2 index after hre =>
        obtain ⟨e, hh, hs⟩ := Option.map_eq_some_iff.mp hr
        cases hs
        refine .inl ⟨{ name := e.name, value := e.value }, fun m ha => ?_⟩
        have ht : m.codec.at_ index = some e := by rw [← hh, at_, at_, ha]
        rw [if_pos hb, ht, Option.map_some]
    case isFalse hl =>
      split at hr
      case isTrue hn =>
        split at hr
        · cases hr
        rename_i hc
        obtain ⟨⟨sz, after⟩, hsi, hs⟩ := Option.map_eq_some_iff.mp hr
        cases hs
        refine .inr ⟨⟨rfl, rfl⟩, fun d hd => ⟨d.setDynamicTableLimit sz, ?_, hd.setDynamicTableLimit sz⟩⟩
        rw [if_neg hl, if_pos hn, if_neg hc, hsi]
        rfl
      case isFalse hn =>
        split at hr
        · cases hr
        case h_2 index afterIndex hre =>
          split at hr
          · cases hr
          case h_2 name afterName hrd =>
            have ht (d : HeaderCompression) (ha : d.dynamicTable = l.codec.dynamicTable) :
                decodeName d index afterIndex = some (name, afterName) := by
              rw [← hrd]
              unfold decodeName at_
              rw [ha]
            split at hr
            · cases hr
            case h_2 value after hra =>
              cases hr
              by_cases hi : x &&& 0xc0 = 0x40
              · refine .inr ⟨⟨by simp [hi], by simp [hi]⟩, fun d hd => ⟨d.insert ⟨name, value⟩, ?_, ?_⟩⟩
                · simp [hl, hn, hi, ht d hd.table, hra]
                · simpa [hi] using hd.insert ⟨name, value⟩
              · refine .inl ⟨{ name, value, sensitive := decide (x &&& 0xf0 = 0x10) }, fun m ha => ?_⟩
                simp [hl, hn, hi, ht m.codec ha, hra]

/-- Reading `block` gives `got` and changes nothing, for every codec with this table. -/
def ReadsOnly (table : List Entry) (fuel : Nat) (block : Bytes) (got : List HeaderField) : Prop :=
  ∃ stays : Bool, ∀ m : DecodeLoop, m.codec.dynamicTable = table →
    decodeLoop fuel m block = ({ m with output := m.output ++ got, canResize := m.canResize && stays }, true)

lemma decodeLoop_changed (hc : l.Changed) (run : decodeLoop k l b = (l', true)) : l'.Changed := by
  induction k generalizing l b with
  | zero => cases b <;> cases run; exact hc
  | succ k ih =>
    cases b with
    | nil => cases run; exact hc
    | cons hd tail =>
      rw [decodeLoop] at run
      split at run
      · cases run
      case h_2 next tl hr =>
        refine ih ?_ run
        rcases decodeField_cases hr with ⟨f, hs⟩ | done
        · rw [hs l rfl] at hr
          cases hr
          exact hc
        · exact done.1

lemma decodeLoop_cases (run : decodeLoop k l b = (l', true)) :
    (∃ got, ReadsOnly l.codec.dynamicTable k b got) ∨ l'.Changed := by
  induction k generalizing l b with
  | zero =>
    cases b <;> cases run
    exact .inl ⟨[], true, fun m _ => by simp [decodeLoop]⟩
  | succ k ih =>
    cases b with
    | nil => exact .inl ⟨[], true, fun m _ => by simp [decodeLoop]⟩
    | cons hd tail =>
      rw [decodeLoop] at run
      split at run
      · cases run
      case h_2 next tl hr =>
        rcases decodeField_cases hr with ⟨f, hs⟩ | done
        · rw [hs l rfl] at hr
          cases hr
          rcases ih run with ⟨got, stays, all⟩ | done
          · refine .inl ⟨f :: got, false, fun m ht => ?_⟩
            rw [decodeLoop, hs m ht]
            dsimp only
            rw [all { m with output := m.output ++ [f], canResize := false } ht]
            simp
          · exact .inr done
        · exact .inr (decodeLoop_changed done.1 run)

/-- What the memo holds is what the loop would read. -/
def MemoSound (d : HeaderCompression) : Prop :=
  d.decodedBlock ≠ [] → ReadsOnly d.dynamicTable d.decodedBlock.length d.decodedBlock d.decodedFields

lemma rememberDecodedBlock_sound (hm : d.MemoSound) (hr : ReadsOnly d.dynamicTable b.length b got) :
    (d.rememberDecodedBlock b got).MemoSound ∧ SameTable (d.rememberDecodedBlock b got) d := by
  unfold rememberDecodedBlock
  split
  · exact ⟨hm, rfl, rfl, rfl⟩
  split
  · exact ⟨hm, rfl, rfl, rfl⟩
  · exact ⟨fun _ => hr, rfl, rfl, rfl⟩

/-- The memo is invisible: `decode` gives what the loop gives. -/
lemma decode_eq_loop (hm : d.MemoSound) (run : decodeLoop b.length { codec := d } b = (l, true)) :
    ∃ d', d.decode b = (d', .ok l.output) ∧ d'.MemoSound ∧ SameTable d' l.codec := by
  unfold decode
  split
  case isTrue hit =>
    simp only [Bool.and_eq_true, Bool.not_eq_true', List.isEmpty_eq_false_iff, beq_iff_eq] at hit
    obtain ⟨hf, rfl⟩ := hit
    obtain ⟨stays, all⟩ := hm hf
    rw [all { codec := d } rfl] at run
    cases run
    exact ⟨d, rfl, hm, rfl, rfl, rfl⟩
  case isFalse =>
    rw [run]
    refine ⟨_, rfl, ?_⟩
    rcases decodeLoop_cases run with ⟨got, hr⟩ | ⟨hc, hdr⟩
    · obtain ⟨stays, all⟩ := hr
      rw [all { codec := d } rfl] at run
      cases run
      exact rememberDecodedBlock_sound hm ⟨stays, all⟩
    · simp only [hc, if_true]
      exact ⟨fun hf => absurd hdr hf, rfl, rfl, rfl⟩

end HeaderCompression

end Cnetmod.Http.V2
