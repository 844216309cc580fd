import Cnetmod.Http.Spec.HeaderMemo
import Cnetmod.Http.Spec.HuffmanCode

/-!
# Decoding strings and repeated blocks

The table-driven string decoder accepts the code words of a string and their padding,
and nothing else. A decoder that remembers its last block answers as one that does not.
-/
namespace Cnetmod.Http.V2

open Coding

/-- A string is decoded exactly from its code words, followed by up to seven ones; the
encoder writes such bits. -/
theorem huffman_decode_exact (bytes text : Bytes) :
    (huffmanDecode bytes = some text ↔ HuffmanCoded text (bytesBits bytes)) ∧ huffmanDecode (huffmanEncode text) = some text :=
  ⟨⟨coded_of_huffmanDecode, huffmanDecode_of_coded⟩, huffmanDecode_huffmanEncode text⟩

/-- The decoder accepts one encoding of a text, the one that the encoder writes. -/
theorem huffman_encoding_unique (bytes text : Bytes) : huffmanDecode bytes = some text ↔ bytes = huffmanEncode text := by
  refine ⟨fun h => ?_, fun h => h ▸ huffmanDecode_huffmanEncode text⟩
  obtain ⟨p, hp, hb⟩ := coded_of_huffmanDecode h
  obtain ⟨q, hq, he⟩ := coded_of_huffmanDecode (huffmanDecode_huffmanEncode text)
  -- both fill up the last byte
  have hl := congrArg List.length hb
  have hm := congrArg List.length he
  rw [length_bytesBits, List.length_append, List.length_replicate] at hl hm
  rw [show p = q by omega, ← he] at hb
  exact bytesBits_injective hb

namespace HeaderCompression

/-- `decode` without the memo. -/
def decodeAfresh (s : HeaderCompression) (block : Bytes) : HeaderCompression × Except Errc (List HeaderField) :=
  match decodeLoop block.length { codec := s } block with
  | (l, false) => (l.codec, .error .protocolError)
  | (l, true) => (l.codec, .ok l.output)

inductive DecoderCall where
  | decode (block : Bytes)
  | setDynamicTableLimit (bytes : Nat)

/-- The codec after the calls and what they returned. -/
def answers (decode : HeaderCompression → Bytes → HeaderCompression × Except Errc (List HeaderField)) :
    HeaderCompression → List DecoderCall → HeaderCompression × List (Except Errc (List HeaderField))
  | s, [] => (s, [])
  | s, .decode block :: calls =>
    let (s, result) := decode s block
    let (s, results) := answers decode s calls
    (s, result :: results)
  | s, .setDynamicTableLimit bytes :: calls => answers decode (s.setDynamicTableLimit bytes) calls

variable {d t : HeaderCompression}

/-- The loop does not look at the memo, and leaves a sound one, also where it fails. -/
lemma decodeLoop_like (k : Nat) (l : DecodeLoop) (b : Bytes) (hm : l.codec.MemoSound) (hs : SameTable d l.codec) :
    ∃ d', decodeLoop k { l with codec := d } b = ({ (decodeLoop k l b).1 with codec := d' }, (decodeLoop k l b).2) ∧
      SameTable d' (decodeLoop k l b).1.codec ∧ (decodeLoop k l b).1.codec.MemoSound := by
  induction k generalizing l d b with
  | zero => cases b <;> exact ⟨d, rfl, hs, hm⟩
  | succ k ih =>
    cases b with
    | nil => exact ⟨d, rfl, hs, hm⟩
    | cons x tail =>
      rw [decodeLoop, decodeLoop]
      cases hr : decodeField l (x :: tail) with
      | none =>
        -- a turn of the other codec would be one of this
        have ho : decodeField { l with codec := d } (x :: tail) = none := by
          refine Option.eq_none_iff_forall_ne_some.mpr fun next hn => ?_
          rcases decodeField_cases hn with ⟨f, hf⟩ | ⟨-, hf⟩
          · rw [hf l hs.table.symm] at hr
            cases hr
          obtain ⟨d', hf, -⟩ := hf l.codec hs.symm
          rw [hr] at hf
          cases hf
        rw [ho]
        exact ⟨d, rfl, hs, hm⟩
      | some next =>
        obtain ⟨l', tl⟩ := next
        rcases decodeField_cases hr with ⟨f, hf⟩ | ⟨⟨-, hdropped⟩, hf⟩
        · rw [hf l rfl] at hr
          cases hr
          rw [hf { l with codec := d } hs.table]
          exact ih { l with output := l.output ++ [f], canResize := false } tl hm hs
        obtain ⟨d', hf, hs⟩ := hf d hs
        rw [hf]
        exact ih l' tl (fun hd => absurd hdropped hd) hs

lemma decode_eq_afresh (hm : d.MemoSound) (hs : SameTable d t) (b : Bytes) :
    (d.decode b).2 = (t.decodeAfresh b).2 ∧ SameTable (d.decode b).1 (t.decodeAfresh b).1 ∧ (d.decode b).1.MemoSound := by
  obtain ⟨t', hl, ha, he⟩ := decodeLoop_like b.length { codec := d } b hm hs.symm
  rw [decodeAfresh]
  rw [hl]
  cases hrun : decodeLoop b.length { codec := d } b with
  | mk l done =>
    rw [hrun] at ha he
    cases done with
    | true =>
      obtain ⟨d', hd, hsound, hd'⟩ := decode_eq_loop hm hrun
      rw [hd]
      exact ⟨rfl, hd'.trans ha.symm, hsound⟩
    | false =>
      have hb : ¬ (!d.decodedBlock.isEmpty && b == d.decodedBlock) = true := by
        simp only [Bool.and_eq_true, Bool.not_eq_true', List.isEmpty_eq_false_iff, beq_iff_eq]
        rintro ⟨hf, rfl⟩
        obtain ⟨stays, all⟩ := hm hf
        rw [all { codec := d } rfl] at hrun
        cases hrun
      rw [decode, if_neg hb, hrun]
      exact ⟨rfl, ha.symm, he⟩

/-- Any calls, blocks that fail among them, are answered as without the memo and leave the same table. -/
theorem decode_memo_transparent (calls : List DecoderCall) :
    (answers decode {} calls).2 = (answers decodeAfresh {} calls).2 ∧
      SameTable (answers decode {} calls).1 (answers decodeAfresh {} calls).1 := by
  have hu (d t : HeaderCompression) (hm : d.MemoSound) (hs : SameTable d t) : (answers decode d calls).2 = (answers decodeAfresh t calls).2 ∧
      SameTable (answers decode d calls).1 (answers decodeAfresh t calls).1 := by
    induction calls generalizing d t with
    | nil => exact ⟨rfl, hs⟩
    | cons call calls ih =>
      cases call with
      | decode b =>
        obtain ⟨hr, hs', hm'⟩ := decode_eq_afresh hm hs b
        have he := ih _ _ hm' hs'
        exact ⟨congrArg₂ List.cons hr he.1, he.2⟩
      | setDynamicTableLimit bs => exact ih _ _ (fun hf => absurd rfl hf) (hs.setDynamicTableLimit bs)
  exact hu {} {} (fun hf => absurd rfl hf) ⟨rfl, rfl, rfl⟩

lemma Sound.decodeField (hs : l.codec.Sound) (hr : decodeField l b = some (l', tl)) : l'.codec.Sound := by
  have hi := hs.insert
  have hl := hs.setDynamicTableLimit
  cases b <;> grind [HeaderCompression.decodeField, Option.map_eq_some_iff]

lemma Sound.decodeLoop (k : Nat) (hs : l.codec.Sound) : (decodeLoop k l b).1.codec.Sound := by
  induction k generalizing l b with
  | zero => cases b <;> exact hs
  | succ k ih =>
    cases b with
    | nil => exact hs
    | cons x tail =>
      rw [HeaderCompression.decodeLoop]
      split
      next => exact hs
      next hr => exact ih (hs.decodeField hr)

lemma Sound.decode (hs : Sound d) (b : Bytes) : (decode d b).1.Sound := by
  have hl := Sound.decodeLoop b.length (l := { codec := d }) (b := b) hs
  rw [HeaderCompression.decode]
  split
  next => exact hs
  split
  next he => rwa [he] at hl
  next he =>
    rw [he] at hl
    unfold rememberDecodedBlock
    repeat' split
    all_goals exact ⟨hl.counted, hl.bounded⟩

/-- Whatever blocks come, also where one fails, the table has the size of its entries and keeps to its limit. -/
theorem table_bounded (calls : List DecoderCall) : (answers decode {} calls).1.Sound := by
  have hu (d : HeaderCompression) (hs : d.Sound) : (answers decode d calls).1.Sound := by
    induction calls generalizing d with
    | nil => exact hs
    | cons call calls ih =>
      cases call with
      | decode b => exact ih _ (hs.decode b)
      | setDynamicTableLimit bs => exact ih _ (hs.setDynamicTableLimit bs)
  exact hu {} ⟨rfl, Nat.zero_le _⟩

end HeaderCompression

end Cnetmod.Http.V2
