import Cnetmod.Http.Spec.HeaderTable
import Cnetmod.Http.Spec.HuffmanCode

/-!
# Header blocks

What the decoder makes of one field the encoder wrote, and of a whole block.
-/
namespace Cnetmod.Http.V2

open Coding List

lemma groupByte (v : Nat) :
    UInt8.ofNat ((v &&& 0x7f) ||| 0x80) &&& 0x80 ≠ 0 ∧ (UInt8.ofNat ((v &&& 0x7f) ||| 0x80) &&& 0x7f).toNat = v % 128 := by
  have he : ∀ low < 128, UInt8.ofNat (low ||| 0x80) &&& 0x80 ≠ 0 ∧
      (UInt8.ofNat (low ||| 0x80) &&& 0x7f).toNat = low := by decide
  have low : v &&& 0x7f = v % 128 := Nat.and_two_pow_sub_one_eq_mod v 7
  rw [low]
  exact he _ (Nat.mod_lt _ (by decide))

lemma lastByte (hs : v < 128) : UInt8.ofNat v &&& 0x80 = 0 ∧ (UInt8.ofNat v &&& 0x7f).toNat = v ∧ ¬ UInt8.ofNat v > 0x7f := by
  revert v
  decide

/-- The groups left to write at shift `28 - 7 * fuel` of a 32-bit value. -/
lemma decodeGroups_encodeGroups (k : Nat) (few : k ≤ 4) (ha : v < 2 ^ (4 + 7 * k)) (acc : Nat) (tl : Bytes) :
    decodeGroups (encodeGroups k v ++ tl) (28 - 7 * k) acc = some ((acc + v * 2 ^ (28 - 7 * k)) % 2 ^ 32, tl) := by
  induction k generalizing v acc with
  | zero =>
    obtain ⟨hf, low, hi⟩ := lastByte (show v < 128 by omega)
    simp [encodeGroups, decodeGroups, hf, low, hi, Nat.shiftLeft_eq]
  | succ k ih =>
    have hs : 28 - 7 * (k + 1) + 7 = 28 - 7 * k := by omega
    have he : ¬ 28 - 7 * (k + 1) > 28 := by omega
    have hm : ¬ 28 - 7 * (k + 1) = 28 := by omega
    rw [encodeGroups]
    split
    case isTrue hl =>
      obtain ⟨hf, low, -⟩ := lastByte hl
      simp [decodeGroups, hf, low, he, hm, Nat.shiftLeft_eq]
    case isFalse =>
      obtain ⟨ho, low⟩ := groupByte v
      have next : v >>> 7 < 2 ^ (4 + 7 * k) := by
        rw [Nat.shiftRight_eq_div_pow]
        apply Nat.div_lt_of_lt_mul
        rw [← Nat.pow_add]
        exact lt_of_lt_of_eq ha (by congr 1; omega)
      simp only [cons_append, decodeGroups, if_neg he, hm, false_and, if_false, ho, low, Nat.shiftLeft_eq, hs]
      rw [ih (by omega) next]
      have hc : 2 ^ (28 - 7 * k) = 128 * 2 ^ (28 - 7 * (k + 1)) := by rw [← hs, Nat.pow_add, mul_comm]
      have hp : v % 128 * 2 ^ (28 - 7 * (k + 1)) + (v >>> 7) * 2 ^ (28 - 7 * k) = v * 2 ^ (28 - 7 * (k + 1)) := by
        rw [hc, ← mul_assoc, ← Nat.add_mul, Nat.shiftRight_eq_div_pow]
        congr 1
        omega
      rw [Nat.mod_add_mod, add_assoc, hp]

/-- The high bits `head` leave the low `width` bits of the first byte alone. -/
def LeavesLow (width head : Nat) : Prop :=
  ∀ low < 2 ^ width, (UInt8.ofNat (head ||| low)).toNat &&& (2 ^ width - 1) = low

instance (width head : Nat) : Decidable (LeavesLow width head) :=
  inferInstanceAs (Decidable (∀ low < 2 ^ width, _))

lemma decodeInteger_encodeInteger {w head : Nat} (hf : LeavesLow w head) (hs : v < 2 ^ 32) (tl : Bytes) :
    decodeInteger (encodeInteger v w head ++ tl) w = some (v, tl) := by
  have hp : 0 < 2 ^ w := Nat.two_pow_pos w
  unfold encodeInteger
  dsimp only
  split
  case isTrue hsh => simp only [cons_append, decodeInteger, hf v (by omega), if_pos hsh, nil_append]
  case isFalse hl =>
    have hb : v - (2 ^ w - 1) < 2 ^ (4 + 7 * 4) := by omega
    have hg := decodeGroups_encodeGroups 4 (by omega) hb (2 ^ w - 1) tl
    simp only [cons_append, decodeInteger, hf (2 ^ w - 1) (by omega), lt_irrefl, if_false]
    rw [hg, Nat.pow_zero, Nat.mul_one, Nat.add_sub_cancel' (by omega), Nat.mod_eq_of_lt hs]

lemma encodeInteger_first (v w head : Nat) :
    ∃ low < 2 ^ w, ∃ tail, encodeInteger v w head = UInt8.ofNat (head ||| low) :: tail := by
  have hp : 0 < 2 ^ w := Nat.two_pow_pos w
  unfold encodeInteger
  dsimp only
  split
  case isTrue hs => exact ⟨v, by omega, [], rfl⟩
  case isFalse => exact ⟨2 ^ w - 1, by omega, _, rfl⟩

/-- The number of bytes `encode_string` writes after the size. -/
def wireSize (text : Bytes) : Nat := min (huffmanEncode text).length text.length

lemma decodeString_eq (huffman : Bool) (hs : decodeInteger inp 7 = some (sz, tl)) (he : sz ≤ tl.length)
    (hf : ∃ hd tail, inp = hd :: tail ∧ (hd &&& 0x80 ≠ 0 ↔ huffman = true)) : decodeString inp =
      if huffman then (huffmanDecode (tl.take sz)).map fun t => (t, tl.drop sz) else some (tl.take sz, tl.drop sz) := by
  obtain ⟨hd, tail, rfl, hl⟩ := hf
  have ha : ¬ sz > tl.length := by omega
  simp only [decodeString, hs, if_neg ha]
  cases huffman with
  | true =>
    rw [if_pos (hl.mpr rfl), if_pos rfl]
    cases huffmanDecode (tl.take sz) <;> rfl
  | false => rw [if_neg (fun set => by simpa using hl.mp set), if_neg (by decide)]

lemma decodeString_encodeString (hs : wireSize t < 2 ^ 32) (tl : Bytes) :
    decodeString (encodeString t ++ tl) = some (t, tl) := by
  have hh : LeavesLow 7 0x80 := by decide +kernel
  have hr : LeavesLow 7 0 := by decide +kernel
  have hm : ∀ low < 2 ^ 7, UInt8.ofNat (0x80 ||| low) &&& 0x80 ≠ 0 := by decide +kernel
  have hu : ∀ low < 2 ^ 7, UInt8.ofNat (0 ||| low) &&& 0x80 = 0 := by decide +kernel
  unfold wireSize at hs
  unfold encodeString
  dsimp only
  split
  case isTrue hsh =>
    rw [min_eq_left (by omega)] at hs
    rw [Nat.mod_eq_of_lt hs, append_assoc]
    obtain ⟨low, hi, tail, hf⟩ := encodeInteger_first (huffmanEncode t).length 7 0x80
    rw [decodeString_eq true (decodeInteger_encodeInteger hh hs _) (by simp)
      ⟨_, tail ++ (huffmanEncode t ++ tl), by rw [hf]; rfl, by simpa using hm low hi⟩]
    simp [huffmanDecode_huffmanEncode]
  case isFalse =>
    rw [min_eq_right (by omega)] at hs
    rw [Nat.mod_eq_of_lt hs, append_assoc]
    obtain ⟨low, hi, tail, hf⟩ := encodeInteger_first t.length 7 0
    rw [decodeString_eq false (decodeInteger_encodeInteger hr hs _) (by simp)
      ⟨_, tail ++ (t ++ tl), by rw [hf]; rfl, by simpa using hu low hi⟩]
    simp

/-- `entry` answers a search for `name`, and for `value` too if it is exact. -/
def Entry.Answers (entry : Entry) (name value : Bytes) (exact : Bool) : Prop :=
  entry.name = name ∧ (exact = true → entry.value = value)

/-- A lookup that found something found the right entry. -/
def StaticLookup.Right (l : StaticLookup) (name value : Bytes) (exact : Bool) : Prop :=
  l.index ≠ 0 → ∃ entry, staticTable[l.index]? = some entry ∧ entry.Answers name value exact

section

variable {name value v w : Bytes}

lemma right_none : (⟨0, known⟩ : StaticLookup).Right name value exact :=
  fun hf => absurd rfl hf

lemma right_entry (hl : staticTable[i]? = some ⟨name, v⟩) (hs : exact = true → value = v) :
    (⟨i, known⟩ : StaticLookup).Right name value exact :=
  fun _ => ⟨_, hl, rfl, fun set => (hs set).symm⟩

lemma right_first (hl : staticTable[i]? = some ⟨name, v⟩) (hh : (!exact || decide (value = v)) = true) :
    (⟨i, known⟩ : StaticLookup).Right name value exact := by
  refine right_entry hl fun set => ?_
  simpa [set] using hh

lemma right_last (hl : staticTable[j]? = some ⟨name, w⟩) :
    (⟨if value = w then j else 0, known⟩ : StaticLookup).Right name value exact := by
  split
  case isTrue hh => exact right_entry hl fun _ => hh
  case isFalse => exact right_none

lemma right_empty (hl : staticTable[i]? = some ⟨name, []⟩) :
    (⟨if exact && !value.isEmpty then 0 else i, known⟩ : StaticLookup).Right name value exact := by
  split
  case isTrue => exact right_none
  case isFalse ha =>
    refine right_entry hl fun set => ?_
    simpa [set] using ha

lemma right_ite [Decidable c] {l m : StaticLookup} (yes : c → l.Right name value exact) (no : m.Right name value exact) :
    (if c then l else m).Right name value exact := by
  split
  case isTrue h => exact yes h
  case isFalse => exact no

lemma commonStaticIndex_right : (commonStaticIndex name value exact).Right name value exact := by
  apply right_ite
  · rintro rfl
    exact right_ite (right_first rfl) (right_last rfl)
  apply right_ite
  · rintro rfl
    exact right_ite (right_first rfl) (right_last rfl)
  apply right_ite
  · rintro rfl
    exact right_ite (right_first rfl) (right_last rfl)
  apply right_ite
  · rintro rfl
    apply right_ite (right_first rfl)
    apply right_ite fun hh => right_entry rfl fun _ => hh
    apply right_ite fun hh => right_entry rfl fun _ => hh
    apply right_ite fun hh => right_entry rfl fun _ => hh
    apply right_ite fun hh => right_entry rfl fun _ => hh
    apply right_ite fun hh => right_entry rfl fun _ => hh
    exact right_last rfl
  apply right_ite
  · rintro rfl
    exact right_empty rfl
  apply right_ite
  · rintro rfl
    exact right_empty rfl
  apply right_ite
  · rintro rfl
    exact right_empty rfl
  apply right_ite
  · rintro rfl
    exact right_empty rfl
  apply right_ite
  · rintro rfl
    exact right_empty rfl
  exact right_none

end

lemma answers_of_isMatch {x : Entry} (hi : (x.name == n && (!exact || x.value == v)) = true) : x.Answers n v exact := by
  simp only [Bool.and_eq_true, beq_iff_eq, Bool.or_eq_true, Bool.not_eq_true'] at hi
  refine ⟨hi.1, fun set => ?_⟩
  simpa [set] using hi.2

namespace HeaderCompression

@[simp] lemma staticTable_length : staticTable.length = 62 := rfl

variable {e d : HeaderCompression} {field : HeaderField}

/-- A match in the encoder's table is found again at the same index by every decoder whose
table begins with it. -/
lemma at_find (hb : e.dynamicTable <+: d.dynamicTable) (few : e.dynamicTable.length ≤ 2 ^ 32 - 62) (hf : e.find n v exact ≠ 0) :
    e.find n v exact < 2 ^ 32 ∧ ∃ ent, d.at_ (e.find n v exact) = some ent ∧ ent.Answers n v exact := by
  have hs : ∀ {i : Nat} {ent : Entry}, i ≠ 0 → staticTable[i]? = some ent → ent.Answers n v exact →
      i < 2 ^ 32 ∧ ∃ ent, d.at_ i = some ent ∧ ent.Answers n v exact := by
    intro i ent hp hl right
    have hm : i < 62 := (List.getElem?_eq_some_iff.mp hl).1
    refine ⟨by omega, ent, ?_, right⟩
    rw [at_, if_pos ⟨Nat.pos_of_ne_zero hp, by simpa using hm⟩, hl]
  unfold find at hf ⊢
  dsimp only at hf ⊢
  split at hf
  case isTrue hc =>
    rw [if_pos hc]
    obtain ⟨ent, hl, right⟩ := commonStaticIndex_right hc
    exact hs hc hl right
  case isFalse ho =>
    rw [if_neg ho]
    split at hf
    case h_1 i hh =>
      obtain ⟨hi, ha, -⟩ := findIdx?_eq_some_iff_getElem.mp hh
      have hw : (staticTable.length + i) % 2 ^ 32 = 62 + i := by
        rw [staticTable_length]
        omega
      rw [hw]
      refine ⟨by omega, e.dynamicTable[i], ?_, ?_⟩
      · rw [at_, if_neg (by simp), if_pos (by simp), staticTable_length, Nat.add_sub_cancel_left]
        obtain ⟨older, ht⟩ := hb
        rw [← ht, getElem?_append_left hi, getElem?_eq_getElem hi]
      · exact answers_of_isMatch ha
    case h_2 =>
      split at hf
      case isTrue hu =>
        rw [if_pos hu]
        split at hf
        case h_1 i hh =>
          obtain ⟨hi, ha, -⟩ := List.findIdx?_eq_some_iff_getElem.mp hh
          refine hs hf ?_ (answers_of_isMatch ha)
          rw [← getElem?_eq_getElem hi, getElem?_drop, add_comm]
        case h_2 => exact absurd rfl hf
      case isFalse => exact absurd rfl hf

/-- The field has no exact match and is added to the table. -/
def stores (e : HeaderCompression) (field : HeaderField) : Bool :=
  e.find field.name field.value true = 0 && e.indexed field

/-- The field as the decoder sees it: a reference does not carry the sensitive mark. -/
def received (e : HeaderCompression) (field : HeaderField) : HeaderField :=
  { field with sensitive := field.sensitive && e.find field.name field.value true = 0 }

/-- The sizes and indices of the field fit the 32 bits they are cast to. -/
structure Fits (e : HeaderCompression) (field : HeaderField) : Prop where
  named : field.name ≠ []
  name : wireSize field.name < 2 ^ 32
  value : wireSize field.value < 2 ^ 32
  few : e.dynamicTable.length ≤ 2 ^ 32 - 62

lemma encodeField_codec (e : HeaderCompression) (f : HeaderField) : (e.encodeField f).1 =
      if e.stores f then e.insert ⟨f.name, f.value⟩ else e := by
  unfold encodeField stores
  by_cases exact : e.find f.name f.value true = 0 <;> simp [exact]

lemma decodeField_literal {tail afterIndex afterName : Bytes} (hl : first &&& 0x80 = 0) (hn : first &&& 0xe0 ≠ 0x20)
    (hi : decide (first &&& 0xc0 = 0x40) = incremental) (his : decide (first &&& 0xf0 = 0x10) = sensitive)
    (hr : decodeInteger (first :: tail) (if incremental then 6 else 4) = some (index, afterIndex))
    (hra : decodeName l.codec index afterIndex = some (name, afterName))
    (hre : decodeString afterName = some (value, rest)) : decodeField l (first :: tail) = some
        ({ codec := if incremental then l.codec.insert ⟨name, value⟩ else l.codec
           output := l.output ++ [{ name, value, sensitive }]
           canResize := false
           changesTable := l.changesTable || incremental }, rest) := by
  simp [decodeField, hl, hn, hi, his, hr, hra, hre]

/-- The first byte of a literal tells the three kinds apart. -/
lemma literalHead (incr sensitive : Bool) (ha : incr = true → sensitive = false) : let width := if incr then 6 else 4
    let head := if incr then 0x40 else if sensitive then 0x10 else 0
    LeavesLow width head ∧ ∀ low < 2 ^ width,
      UInt8.ofNat (head ||| low) &&& 0x80 = 0 ∧ UInt8.ofNat (head ||| low) &&& 0xe0 ≠ 0x20 ∧
      decide (UInt8.ofNat (head ||| low) &&& 0xc0 = 0x40) = incr ∧
      decide (UInt8.ofNat (head ||| low) &&& 0xf0 = 0x10) = sensitive := by
  cases incr <;> cases sensitive
  · decide +kernel
  · decide +kernel
  · decide +kernel
  · exact absurd (ha rfl) (by decide)

/-- A name sent by reference or as a literal is read back. -/
lemma decodeName_sent (hb : e.dynamicTable <+: d.dynamicTable) (hf : e.Fits field) (tl : Bytes) :
    decodeName d (e.find field.name [] false) ((if e.find field.name [] false = 0 then encodeString field.name else []) ++ tl) =
      some (field.name, tl) := by
  unfold decodeName
  by_cases hl : e.find field.name [] false = 0
  · simp [hl, decodeString_encodeString hf.name, hf.named]
  · obtain ⟨-, ent, hh, right, -⟩ := at_find hb hf.few hl
    simp [hl, hh, right]

/-- The decoder reads the field the encoder wrote, and takes it into its table when the
encoder does. -/
lemma decodeField_encodeField (hb : e.dynamicTable <+: l.codec.dynamicTable) (hf : e.Fits field) (rest : Bytes) :
    decodeField l ((e.encodeField field).2 ++ rest) = some
        ({ codec := if e.stores field then l.codec.insert ⟨field.name, field.value⟩ else l.codec
           output := l.output ++ [e.received field]
           canResize := false
           changesTable := l.changesTable || e.stores field }, rest) := by
  unfold encodeField stores received
  by_cases exact : e.find field.name field.value true = 0
  · have hp : e.indexed field = true → field.sensitive = false := by
      intro ha
      simp only [indexed, Bool.and_eq_true, Bool.not_eq_true'] at ha
      exact ha.1.1.1.2
    have hs : e.find field.name [] false < 2 ^ 32 := by
      by_cases hl : e.find field.name [] false = 0
      · omega
      · exact (at_find hb hf.few hl).1
    obtain ⟨hj, hk⟩ := literalHead (e.indexed field) field.sensitive hp
    obtain ⟨low, hi, tail, hc⟩ := encodeInteger_first (e.find field.name [] false)
      (if e.indexed field then 6 else 4)
      (if e.indexed field then 0x40 else if field.sensitive then 0x10 else 0)
    obtain ⟨hl, hn, hq, he⟩ := hk low hi
    have hr := decodeInteger_encodeInteger hj hs
      ((if e.find field.name [] false = 0 then encodeString field.name else []) ++ (encodeString field.value ++ rest))
    simp only [exact, ne_eq, not_true_eq_false, if_false, append_assoc, decide_true, Bool.true_and, Bool.and_true]
    rw [hc, cons_append] at hr ⊢
    exact decodeField_literal hl hn hq he hr (decodeName_sent hb hf _) (decodeString_encodeString hf.value rest)
  · obtain ⟨hs, ent, ht, hg, ho⟩ := at_find hb hf.few exact
    have hh : LeavesLow 7 0x80 := by decide +kernel
    have hm : ∀ low < 2 ^ 7, UInt8.ofNat (0x80 ||| low) &&& 0x80 ≠ 0 := by decide +kernel
    obtain ⟨low, hi, tail, hc⟩ := encodeInteger_first (e.find field.name field.value true) 7 0x80
    have hr := decodeInteger_encodeInteger hh hs rest
    simp only [exact, ne_eq, not_false_eq_true, if_true]
    rw [hc, cons_append] at hr ⊢
    simp only [decodeField]
    rw [if_pos (hm low hi), hr]
    simp [ht, hg, ho rfl]

/-- `got` is `sent` for the receiver, who never takes a field for sensitive by itself. -/
structure Delivered (sent got : HeaderField) : Prop where
  name : got.name = sent.name
  value : got.value = sent.value
  sensitive : got.sensitive = true → sent.sensitive = true

lemma delivered_received (e : HeaderCompression) (f : HeaderField) : Delivered f (e.received f) where
  name := rfl
  value := rfl
  sensitive := by
    intro hm
    exact (Bool.and_eq_true_iff.mp hm).1

/-- A relation between encoder and decoder, with the fields still to send, that lets every
field be read and lasts when both take it into their tables. -/
structure Synchrony (R : List HeaderField → HeaderCompression → HeaderCompression → Prop) :
    Prop where
  begins : ∀ {fields e d}, R fields e d → e.dynamicTable <+: d.dynamicTable
  fits : ∀ {field fields e d}, R (field :: fields) e d → e.Fits field
  step : ∀ {field fields e d}, R (field :: fields) e d →
    R fields (if e.stores field then e.insert ⟨field.name, field.value⟩ else e)
      (if e.stores field then d.insert ⟨field.name, field.value⟩ else d)

lemma encodeField_ne_nil (e : HeaderCompression) (f : HeaderField) : (e.encodeField f).2 ≠ [] := by
  unfold encodeField
  dsimp only
  split
  · obtain ⟨low, -, tail, hf⟩ := encodeInteger_first (e.find f.name f.value true) 7 0x80
    simp [hf]
  obtain ⟨low, -, tail, hf⟩ := encodeInteger_first (e.find f.name [] false)
    (if e.indexed f then 6 else 4)
    (if e.indexed f then 0x40 else if f.sensitive then 0x10 else 0)
  simp [hf]

lemma decodeLoop_succ (hr : decodeField l b = some (l', rest)) (k : Nat) : decodeLoop (k + 1) l b = decodeLoop k l' rest := by
  cases b with
  | nil => cases hr
  | cons hd tail => simp only [decodeLoop, hr]

lemma decodeLoop_encode (hs : Synchrony R) (fs : List HeaderField) (hr : R fs e l.codec) :
    ∃ e' b l' got, e.encode fs = (e', .ok b) ∧ (∀ k ≥ b.length, decodeLoop k l b = (l', true)) ∧
      l'.output = l.output ++ got ∧ List.Forall₂ Delivered fs got ∧ R [] e' l'.codec := by
  induction fs generalizing e l with
  | nil => exact ⟨e, [], l, [], rfl, fun k _ => by cases k <;> rfl, by simp, .nil, hr⟩
  | cons f fs ih =>
    have hf := hs.fits hr
    have ha := decodeField_encodeField (hs.begins hr) hf
    obtain ⟨e', b, l', got, he, hc, ho, hb, hl⟩ := @ih _
      { codec := if e.stores f then l.codec.insert ⟨f.name, f.value⟩ else l.codec
        output := l.output ++ [e.received f]
        canResize := false
        changesTable := l.changesTable || e.stores f } (hs.step hr)
    refine ⟨e', (e.encodeField f).2 ++ b, l', e.received f :: got, ?_, ?_, ?_, ?_, hl⟩
    · have hn : f.name.isEmpty = false := by simpa using hf.named
      rw [encode, hn]
      simp only [Bool.false_eq_true, if_false, encodeField_codec, he]
      rfl
    · intro k hg
      have hj := length_pos_of_ne_nil (encodeField_ne_nil e f)
      rw [length_append] at hg
      obtain ⟨k, rfl⟩ : ∃ n, k = n + 1 := ⟨k - 1, by omega⟩
      rw [← hc k (by omega), decodeLoop_succ (ha b)]
    · simp [ho]
    · exact .cons (delivered_received e f) hb

end HeaderCompression

end Cnetmod.Http.V2
