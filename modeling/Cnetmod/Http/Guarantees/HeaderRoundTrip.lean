import Cnetmod.Http.Spec.HeaderBlocks
import Cnetmod.Http.Spec.HeaderMemo

/-!
# Header lists from encoder to decoder

Two codecs with the same limit keep the same dynamic table, and every list of
fields arrives as it was sent. `encode_string` and `find` cast sizes and indices
to 32 bits without a check: a string of 2^32 bytes is announced as empty, and
its bytes are then read as the fields that follow.
-/
namespace Cnetmod.Http.V2

open Coding HeaderCompression List

/-- One direction of a connection. -/
structure Link where
  encoder : HeaderCompression
  decoder : HeaderCompression

namespace Link

/-- Both codecs constructed with the same limit. -/
def between (limit : Nat) : Link where
  encoder := { dynamicTableLimit := limit }
  decoder := { dynamicTableLimit := limit }

def send (c : Link) (fields : List HeaderField) : Link × Except Errc (List HeaderField) :=
  match c.encoder.encode fields with
  | (encoder, .error code) => ({ c with encoder }, .error code)
  | (encoder, .ok block) =>
    let (decoder, got) := c.decoder.decode block
    (⟨encoder, decoder⟩, got)

def after (c : Link) (lists : List (List HeaderField)) : Link :=
  lists.foldl (fun c fields => (c.send fields).1) c

end Link

/-- Every string of the list is shorter than 2^32 bytes on the wire, and the table stays
below 2^32 - 61 entries. -/
def HeaderCompression.Narrow (e : HeaderCompression) (fields : List HeaderField) : Prop :=
  (∀ field ∈ fields, wireSize field.name < 2 ^ 32 ∧ wireSize field.value < 2 ^ 32) ∧
    e.dynamicTable.length + fields.length ≤ 2 ^ 32 - 62

instance (e : HeaderCompression) (fields : List HeaderField) : Decidable (e.Narrow fields) :=
  inferInstanceAs (Decidable (_ ∧ _))

def Link.NarrowAll : Link → List (List HeaderField) → Prop
  | _, [] => True
  | c, fields :: rest => c.encoder.Narrow fields ∧ NarrowAll (c.send fields).1 rest

instance Link.decNarrowAll : (c : Link) → (lists : List (List HeaderField)) → Decidable (c.NarrowAll lists)
  | _, [] => isTrue trivial
  | c, fields :: rest =>
    have := decNarrowAll (c.send fields).1 rest
    inferInstanceAs (Decidable (c.encoder.Narrow fields ∧ NarrowAll (c.send fields).1 rest))

namespace HeaderCompression

/-- Fields that can be encoded one after another. -/
structure Sendable (e : HeaderCompression) (fields : List HeaderField) : Prop where
  named : ∀ field ∈ fields, field.name ≠ []
  narrow : e.Narrow fields

variable {fields : List HeaderField} {e : HeaderCompression} {field : HeaderField}

lemma Sendable.fits (hs : e.Sendable (field :: fields)) : e.Fits field where
  named := hs.named field mem_cons_self
  name := (hs.narrow.1 field mem_cons_self).1
  value := (hs.narrow.1 field mem_cons_self).2
  few := by
    have := hs.narrow.2
    omega

lemma Sendable.step (ho : e.Sound) (hs : e.Sendable (field :: fields)) :
    (if e.stores field then e.insert ⟨field.name, field.value⟩ else e).Sendable fields where
  named := fun f hm => hs.named f (mem_cons_of_mem _ hm)
  narrow := by
    refine ⟨fun f hm => hs.narrow.1 f (mem_cons_of_mem _ hm), ?_⟩
    have hr := hs.narrow.2
    have hg := length_insert_le ho ⟨field.name, field.value⟩
    rw [length_cons] at hr
    split <;> omega

/-- The two tables are one, and what is left to send can be sent. -/
structure Twins (fields : List HeaderField) (e d : HeaderCompression) : Prop where
  encoder : e.Sound
  decoder : d.Sound
  table : e.dynamicTable = d.dynamicTable
  limit : e.dynamicTableLimit = d.dynamicTableLimit
  sendable : e.Sendable fields

lemma twins_synchrony : Synchrony Twins where
  begins ht := ht.table ▸ prefix_refl _
  fits ht := ht.sendable.fits
  step := by
    intro f fs e d ht
    refine ⟨?_, ?_, ?_, ?_, ht.sendable.step ht.encoder⟩
    · split
      · exact ht.encoder.insert _
      · exact ht.encoder
    · split
      · exact ht.decoder.insert _
      · exact ht.decoder
    · split
      · rw [insert_eq ht.encoder, insert_eq ht.decoder, ht.table, ht.limit]
      · exact ht.table
    split
    · rw [insert_limit, insert_limit, ht.limit]
    · exact ht.limit

lemma SameTable.sound (hs : SameTable s t) (ho : t.Sound) : s.Sound where
  counted := by rw [hs.bytes, hs.table, ho.counted]
  bounded := by rw [hs.bytes, hs.limit]; exact ho.bounded

end HeaderCompression

/-- Both tables are the same, counted right and within `limit`. -/
structure Link.InStep (limit : Nat) (c : Link) : Prop where
  tables : c.encoder.dynamicTable = c.decoder.dynamicTable
  encoder : c.encoder.Sound
  decoder : c.decoder.Sound
  encoderLimit : c.encoder.dynamicTableLimit = limit
  decoderLimit : c.decoder.dynamicTableLimit = limit

lemma Link.between_inStep (lim : Nat) : (Link.between lim).InStep lim where
  tables := rfl
  encoder := ⟨rfl, Nat.zero_le _⟩
  decoder := ⟨rfl, Nat.zero_le _⟩
  encoderLimit := rfl
  decoderLimit := rfl

lemma encode_limit (e : HeaderCompression) (fs : List HeaderField) :
    (e.encode fs).1.dynamicTableLimit = e.dynamicTableLimit := by
  induction fs generalizing e with
  | nil => rfl
  | cons f fs ih =>
    rw [encode]
    split
    · rfl
    rw [ih, encodeField_codec]
    split
    · exact insert_limit _ _
    · rfl

variable {c : Link} {limit n : Nat}

/-- One list: it arrives, and the two ends stay in step. -/
lemma Link.send_inStep (hi : c.InStep limit) (hb : c.decoder.MemoSound) (hs : c.encoder.Sendable fs) :
    ∃ c' got, c.send fs = (c', .ok got) ∧ List.Forall₂ Delivered fs got ∧ c'.InStep limit ∧ c'.decoder.MemoSound := by
  have ht : Twins fs c.encoder c.decoder :=
    ⟨hi.encoder, hi.decoder, hi.tables, hi.encoderLimit.trans hi.decoderLimit.symm, hs⟩
  obtain ⟨e', b, l, got, hn, hc, ho, hf, hl⟩ := decodeLoop_encode (l := { codec := c.decoder }) twins_synchrony fs ht
  obtain ⟨d', hr, hm, ha⟩ := decode_eq_loop hb (hc _ (le_rfl))
  have he : e'.dynamicTableLimit = limit := by
    have hk := encode_limit c.encoder fs
    rw [hn] at hk
    exact hk.trans hi.encoderLimit
  refine ⟨⟨e', d'⟩, got, ?_, hf, ?_, hm⟩
  · simp only [send, hn, hr, ho, nil_append]
  · exact ⟨hl.table.trans ha.table.symm, hl.encoder, ha.sound hl.decoder, he, ha.limit.trans (hl.limit.symm.trans he)⟩

lemma Link.after_inStep (lists : List (List HeaderField)) (hi : c.InStep limit) (hm : c.decoder.MemoSound)
    (ha : ∀ fs ∈ lists, ∀ field ∈ fs, field.name ≠ []) (hn : c.NarrowAll lists) :
    (c.after lists).InStep limit ∧ (c.after lists).decoder.MemoSound := by
  induction lists generalizing c with
  | nil => exact ⟨hi, hm⟩
  | cons fs lists ih =>
    obtain ⟨c', got, hs, -, hb, hc⟩ := send_inStep hi hm ⟨ha fs mem_cons_self, hn.1⟩
    have hr := hn.2
    rw [hs] at hr
    rw [after, foldl_cons, hs]
    exact ih hb hc (fun f he => ha f (mem_cons_of_mem _ he)) hr

lemma Link.narrowAll_append (pre : List (List HeaderField)) (hn : c.NarrowAll (pre ++ tl)) :
    c.NarrowAll pre ∧ (c.after pre).NarrowAll tl := by
  induction pre generalizing c with
  | nil => exact ⟨trivial, hn⟩
  | cons fs pre ih =>
    obtain ⟨hf, ho⟩ := ih hn.2
    exact ⟨⟨hn.1, hf⟩, ho⟩

/-- Every list of a run arrives as it was sent, and leaves the two tables equal, counted
right and within the limit. -/
theorem header_lists_arrive (limit : Nat) (lists : List (List HeaderField))
    (named : ∀ fields ∈ lists, ∀ field ∈ fields, field.name ≠ [])
    (narrow : (Link.between limit).NarrowAll lists) :
    ∀ before fields rest, lists = before ++ fields :: rest →
      ∃ c' got, ((Link.between limit).after before).send fields = (c', .ok got) ∧
        List.Forall₂ Delivered fields got ∧ c'.InStep limit := by
  rintro before fields rest rfl
  obtain ⟨hn, ha⟩ := Link.narrowAll_append before narrow
  obtain ⟨hb, hc⟩ := Link.after_inStep before (Link.between_inStep limit)
    (fun hf => absurd rfl hf)
    (fun f hm => named f (mem_append_left _ hm)) hn
  obtain ⟨c', got, hs, he, hi, -⟩ := Link.send_inStep hb hc ⟨named fields (mem_append_right _ mem_cons_self), ha.1⟩
  exact ⟨c', got, hs, he, hi⟩

/-- A table of 70 bytes holds two of these entries: the third evicts the first. -/
def threeEntries : List (List HeaderField) :=
  [[{ name := ":status", value := "200" }, { name := "a", value := "1" }],
    [{ name := "b", value := "2" }, { name := "c", value := "3" }],
    [{ name := "a", value := "1" }, { name := "c", value := "3" }]]

theorem header_lists_arrive_evicting :
    ∃ c' got, ((Link.between 70).after (threeEntries.take 2)).send
        [{ name := "a", value := "1" }, { name := "c", value := "3" }] = (c', .ok got) ∧
      List.Forall₂ Delivered [{ name := "a", value := "1" }, { name := "c", value := "3" }] got ∧
      c'.InStep 70 :=
  header_lists_arrive 70 threeEntries (by decide) (by decide +kernel) (threeEntries.take 2) _ [] rfl

/-- Zero bytes are sent as they are: each takes 13 bits in the Huffman code. -/
lemma encodeString_zeros (n : Nat) :
    encodeString (List.replicate n 0) = encodeInteger (n % 2 ^ 32) 7 0 ++ List.replicate n 0 := by
  have ho : ¬ (huffmanEncode (replicate n 0)).length < (replicate n (0 : UInt8)).length := by
    obtain ⟨pad, -, hb⟩ := huffmanEncode_bits (replicate n 0)
    have hl := congrArg length hb
    have hc : (codeOf 0).length = 13 := by decide +kernel
    rw [length_bytesBits] at hl
    simp only [length_append, length_flatMap, map_replicate, hc, sum_replicate_nat, length_replicate] at hl ⊢
    omega
  unfold encodeString
  rw [if_neg ho, length_replicate]

def zeros (count : Nat) : HeaderField := { name := "x", value := List.replicate count 0 }

lemma find_x (v : Bytes) (exact : Bool) : find {} "x" v exact = 0 := by cases exact <;> rfl

/-- A multiple of 2^32 is announced as `0`. -/
lemma encode_zeros (hr : n % 2 ^ 32 = 0) : (encode {} [zeros n]).2 = .ok (0x40 :: 1 :: 0x78 :: 0 :: List.replicate n 0) := by
  have hs : encodeInteger 0 7 0 = [0] := by decide
  have hn : encodeString "x" = [1, 0x78] := by decide +kernel
  have hh : encodeInteger 0 6 0x40 = [0x40] := by decide
  have ha : indexed {} (zeros n) = true := rfl
  have hw : (encodeField {} (zeros n)).2 = 0x40 :: 1 :: 0x78 :: 0 :: replicate n 0 := by
    unfold encodeField
    rw [ha]
    simp only [zeros, find_x, ne_eq, not_true_eq_false, if_false, if_true, hh, hn,
      encodeString_zeros, hr, hs, cons_append, nil_append]
  have hb : (zeros n).name.isEmpty = false := rfl
  rw [encode, hb]
  simp only [Bool.false_eq_true, if_false, hw, encode, Except.map, append_nil]

/-- The decoder reads an empty value and then, from two zero bytes, a field without a name. -/
lemma decode_emptied (tl : Bytes) :
    (decode (Link.between 4096).decoder (0x40 :: 1 :: 0x78 :: 0 :: 0 :: 0 :: tl)).2 = .error .protocolError := by
  have hn : ∀ l : DecodeLoop, decodeField l (0 :: 0 :: tl) = none := fun _ => rfl
  have ha : ∀ codec : HeaderCompression,
      decodeName codec 0 (1 :: 0x78 :: 0 :: 0 :: 0 :: tl) = some (ascii "x", 0 :: 0 :: 0 :: tl) := fun _ => rfl
  have hr : decodeString (0 :: 0 :: 0 :: tl) = some ([], 0 :: 0 :: tl) := rfl
  have he := fun l : DecodeLoop =>
    decodeField_literal (by decide : (0x40 : UInt8) &&& 0x80 = 0) (by decide) rfl rfl rfl (ha l.codec) hr
  unfold decode
  rw [if_neg (by simp [Link.between])]
  simp only [length_cons, decodeLoop, he, hn]

lemma zeros_lost (two : 2 ≤ n) (hw : n % 2 ^ 32 = 0) : ((Link.between 4096).send [zeros n]).2 = .error .protocolError := by
  obtain ⟨tl, rfl⟩ : ∃ tl, n = tl + 2 := ⟨n - 2, by omega⟩
  have hs : (Link.between 4096).encoder = {} := rfl
  unfold Link.send
  rw [hs, ← Prod.eta (encode {} [zeros (tl + 2)]), encode_zeros hw, replicate_succ]
  exact decode_emptied (replicate tl 0)

theorem long_value_lost : ((Link.between 4096).send [zeros (2 ^ 32)]).2 = .error .protocolError :=
  zeros_lost (by decide) (by decide)

end Cnetmod.Http.V2
