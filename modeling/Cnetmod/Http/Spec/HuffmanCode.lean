import Cnetmod.Http.Source.Huffman

/-!
# The Huffman string code

The table-driven decoder reads bits one after another, and what the encoder
writes is the code words of the input followed by ones.
-/
namespace Cnetmod.Http.V2

open Coding List DecodeState

variable {node : List Bool}

def legal (symbol : Nat) : Bool := symbol != 256

lemma codes_prefixFree : PrefixFree codes :=
  @prefixFree_of_splitFree 31 codes (by decide +kernel)

lemma table_bounds : ∀ item ∈ table, 5 ≤ item.length ∧ item.length ≤ 30 ∧ item.bits < 2 ^ item.length := by
  decide +kernel

@[simp] lemma table_length : table.length = 257 := by decide +kernel

@[simp] lemma codes_length : codes.length = 257 := by simp [codes]

lemma length_of_mem_codes (hm : code ∈ codes) : 5 ≤ code.length := by
  obtain ⟨x, hk, rfl⟩ := mem_map.mp hm
  simpa using (table_bounds x hk).1

lemma eos_code : List.replicate 30 true ∈ codes := by decide +kernel

/-- A node with a symbol is the end of a code word, at least five bits deep. -/
lemma five_le_of_symbolAt (he : symbolAt codes node = some sym) : 5 ≤ node.length := by
  obtain ⟨hs, ha, -⟩ := findIdx?_eq_some_iff_getElem.mp he
  have hw : codes[sym] = node := by simpa using ha
  rw [← hw]
  exact length_of_mem_codes (getElem_mem hs)

/-- The decoder's state after the walk stands at `node` with `out` read. -/
def standing (at_ : List Bool × List Nat) : DecodeState where
  node := at_.1
  pendingBits := at_.1.length
  pendingAllOnes := at_.1.all id
  output := at_.2.map UInt8.ofNat

lemma child_eq {n next : List Bool} {bit : Bool} (ho : child codes n bit = some next) : next = n ++ [bit] := by
  unfold child at ho
  split at ho
  · exact (Option.some.inj ho).symm
  · cases ho

variable {step : DecodeStep}

lemma apply_deeper {s : DecodeState} (bit : Bool) (hs : s.apply { step with next := some node } = some (standing (node, out))) :
    s.apply
        { next := some (node ++ [bit])
          emitted := step.emitted
          trailingBits := step.trailingBits + 1
          trailingAllOnes := step.trailingAllOnes && bit } =
      some (standing (node ++ [bit], out)) := by
  cases he : step.emitted with
  | some sym => simp_all [apply, standing]
  | none =>
    simp only [apply, he, standing, Option.some.injEq, mk.injEq, true_and] at hs ⊢
    obtain ⟨hb, hn, ho⟩ := hs
    simp [← hb, ← hn, ho, add_assoc, Bool.and_assoc]

/-- The loop over a nibble is the walk over its bits: `step` is what it has seen so far, and
it cannot emit twice because no code word is that short. -/
lemma apply_nibbleLoop (s : DecodeState) (bs : List Bool) (hh : bs.length ≤ 4)
    (hs : s.apply { step with next := some node } = some (standing (node, out)))
    (ho : step.emitted.isSome → node.length + bs.length < 5) :
    s.apply (nibbleLoop bs node step) = (readBits codes legal bs (node, out)).map standing := by
  induction bs generalizing node out step with
  | nil => simpa [nibbleLoop, readBits] using hs
  | cons bit bs ih =>
    rw [length_cons] at hh ho
    cases hdo : child codes node bit with
    | none => simp [nibbleLoop, readBits, hdo, apply]
    | some next =>
      obtain rfl := child_eq hdo
      cases hen : symbolAt codes (node ++ [bit]) with
      | some sym =>
        have hb : 5 ≤ node.length + 1 := by simpa using five_le_of_symbolAt hen
        have hf : step.emitted = none := by
          by_contra he
          have := ho (Option.isSome_iff_ne_none.mpr he)
          omega
        by_cases eos : sym = 256
        · simp [nibbleLoop, readBits, hdo, hen, eos, legal, apply]
        have ha : legal sym = true := by simp [legal, eos]
        have hu : s.output = out.map UInt8.ofNat := by
          simpa [apply, hf, standing] using
            congrArg (Option.map output) hs
        simp only [nibbleLoop, readBits, hdo, hen, if_neg eos, ha, if_true]
        apply ih (by omega)
        · simp [apply, standing, hu]
        intro _
        rw [length_nil]
        omega
      | none =>
        simp only [nibbleLoop, readBits, hdo, hen]
        apply ih (by omega)
        · exact apply_deeper bit hs
        intro he
        have := ho he
        rw [length_append, length_singleton]
        omega

/-- Nothing is emitted before the fifth bit. -/
lemma nibbleLoop_emitted (bs : List Bool) (hs : node.length + bs.length < 5) :
    (nibbleLoop bs node step).emitted = step.emitted := by
  induction bs generalizing node step with
  | nil => rfl
  | cons bit bs ih =>
    rw [length_cons] at hs
    cases hdo : child codes node bit with
    | none => simp [nibbleLoop, hdo]
    | some next =>
      obtain rfl := child_eq hdo
      cases he : symbolAt codes (node ++ [bit]) with
      | some sym =>
        have := five_le_of_symbolAt he
        rw [length_append, length_singleton] at this
        omega
      | none =>
        simp only [nibbleLoop, hdo, he]
        rw [ih (by rw [length_append, length_singleton]; omega)]

lemma apply_nibbleStep (at_ : List Bool × List Nat) (nibble : Nat) :
    (standing at_).apply (nibbleStep at_.1 nibble) = (readBits codes legal (bitsOf 4 nibble) at_).map standing := by
  apply apply_nibbleLoop
  · simp
  · simp [apply, standing]
  · simp

/-- Folding the two nibbles of a byte into one step changes nothing. -/
lemma apply_rootByteStep (s : DecodeState) (byte : UInt8) : s.apply (rootByteStep byte) =
      (s.apply (nibbleStep [] (byte.toNat >>> 4))).bind fun mid => mid.apply (nibbleStep mid.node (byte.toNat % 16)) := by
  have hs : (nibbleStep [] (byte.toNat >>> 4)).emitted = none := nibbleLoop_emitted _ (by simp)
  cases hr : (nibbleStep [] (byte.toNat >>> 4)).next with
  | none => simp [rootByteStep, hr, apply]
  | some n =>
    simp only [rootByteStep, hr, hs, apply, Option.bind_some]
    -- only a low nibble that stays inside a code word is changed by the fold
    cases hf : (nibbleStep n (byte.toNat % 16)).next with
    | none => simp [hf]
    | some next =>
      cases he : (nibbleStep n (byte.toNat % 16)).emitted with
      | some sym => simp [hf, he]
      | none => simp [add_assoc, Bool.and_assoc]

lemma byteBits_nibbles (byte : UInt8) : byteBits byte = bitsOf 4 (byte.toNat >>> 4) ++ bitsOf 4 (byte.toNat % 16) := by
  rw [byteBits, bitsOf_add 4 4, show 16 = 2 ^ 4 from rfl, bitsOf_mod byte.toNat (Nat.le_refl 4)]

lemma readByte_standing (at_ : List Bool × List Nat) (byte : UInt8) :
    (standing at_).readByte byte = (readBits codes legal (byteBits byte) at_).map standing := by
  have hn :
      ((standing at_).apply (nibbleStep at_.1 (byte.toNat >>> 4))).bind
          (fun mid => mid.apply (nibbleStep mid.node (byte.toNat % 16))) =
        (readBits codes legal (byteBits byte) at_).map standing := by
    rw [byteBits_nibbles, readBits_append, apply_nibbleStep]
    cases readBits codes legal (bitsOf 4 (byte.toNat >>> 4)) at_ with
    | none => rfl
    | some mid => exact apply_nibbleStep mid _
  rw [← hn]
  unfold readByte
  split
  case isTrue hro =>
    have hh : at_.1 = [] := hro
    rw [apply_rootByteStep, hh]
  case isFalse =>
    cases hr : (standing at_).apply (nibbleStep at_.1 (byte.toNat >>> 4)) <;>
      simp [standing, hr] at *

lemma readBytes_standing (bs : Bytes) (at_ : List Bool × List Nat) :
    (standing at_).readBytes bs = (readBits codes legal (bytesBits bs) at_).map standing := by
  induction bs generalizing at_ with
  | nil => rfl
  | cons byte bs ih =>
    rw [bytesBits_cons, readBits_append, readBytes, readByte_standing]
    cases readBits codes legal (byteBits byte) at_ with
    | none => rfl
    | some mid => exact ih mid

/-- The decoder accepts the bits that end less than a byte after a code word, in ones. -/
lemma huffmanDecode_of_readBits (hw : readBits codes legal (bytesBits bs) ([], []) = some (node, out))
    (hs : node.length ≤ 7) (ho : node.all id = true) : huffmanDecode bs = some (out.map UInt8.ofNat) := by
  have hr : readBytes {} bs = some (standing (node, out)) := by
    rw [show ({} : DecodeState) = standing ([], []) from rfl, readBytes_standing, hw]
    rfl
  simp only [huffmanDecode, hr]
  rw [if_neg]
  · rfl
  · simp only [standing, ho, Bool.true_eq_false, or_false]
    omega

lemma bitsOf_emitBytes (bs len : Nat) (output : Bytes) : (emitBytes bs len output).1 = len % 8 ∧
      bytesBits (emitBytes bs len output).2 ++ bitsOf (len % 8) bs = bytesBits output ++ bitsOf len bs := by
  fun_induction emitBytes bs len output with
  | case1 len output ih =>
    have hw : (len + 8) % 8 = len % 8 := Nat.add_mod_right len 8
    refine ⟨ih.1.trans hw.symm, ?_⟩
    change _ ++ bitsOf ((len + 8) % 8) bs = _ ++ bitsOf (len + 8) bs
    rw [hw, ih.2, add_comm len 8, bitsOf_add]
    simp [byteBits_ofNat]
  | case2 len output hs =>
    have : len < 8 := by
      by_contra hl
      exact hs (len - 8) (by omega)
    rw [Nat.mod_eq_of_lt this]
    exact ⟨rfl, rfl⟩

/-- The bits written so far, those still in the register included. -/
def EncodeState.written (s : EncodeState) : List Bool :=
  bytesBits s.output ++ bitsOf s.length s.bits

def codeOf (character : UInt8) : List Bool := codes.getD character.toNat []

lemma character_lt (c : UInt8) : c.toNat < 257 :=
  Nat.lt_succ_of_lt c.toNat_lt

lemma codeOf_eq (c : UInt8) : codeOf c = bitsOf (table.getD c.toNat ⟨0, 0⟩).length (table.getD c.toNat ⟨0, 0⟩).bits := by
  have hi : c.toNat < table.length := by
    rw [table_length]
    exact character_lt c
  simp [codeOf, codes, getD, getElem?_eq_getElem hi]

lemma put_written (s : EncodeState) (c : UInt8) (ho : s.length < 8) :
    (s.put c).length < 8 ∧ (s.put c).written = s.written ++ codeOf c := by
  have hi : c.toNat < table.length := by
    rw [table_length]
    exact character_lt c
  obtain ⟨-, hs, hf⟩ := table_bounds (table.getD c.toNat ⟨0, 0⟩) (by
    rw [getD_eq_getElem _ _ hi]
    exact getElem_mem hi)
  rw [codeOf_eq]
  unfold EncodeState.written EncodeState.put
  generalize table.getD c.toNat ⟨0, 0⟩ = item at hs hf ⊢
  -- the register keeps what is not written yet: at most 37 of its 64 bits
  have hk : bitsOf (s.length + item.length) (((s.bits <<< item.length) ||| item.bits) % 2 ^ 64) =
      bitsOf s.length s.bits ++ bitsOf item.length item.bits := by
    rw [bitsOf_mod _ (by omega), bitsOf_shiftLeft_or _ _ _ _ hf]
  obtain ⟨hr, hb⟩ := bitsOf_emitBytes (((s.bits <<< item.length) ||| item.bits) % 2 ^ 64) (s.length + item.length) s.output
  simp only
  rw [hr, hb, hk, append_assoc]
  exact ⟨Nat.mod_lt _ (by decide), rfl⟩

lemma foldl_put_written (inp : Bytes) (s : EncodeState) (hr : s.length < 8) :
    (inp.foldl EncodeState.put s).length < 8 ∧ (inp.foldl EncodeState.put s).written = s.written ++ inp.flatMap codeOf := by
  induction inp generalizing s with
  | nil => simpa using hr
  | cons c inp ih =>
    obtain ⟨left, hb⟩ := put_written s c hr
    obtain ⟨hs, all⟩ := ih (s.put c) left
    exact ⟨hs, by rw [foldl_cons, all, hb, flatMap_cons, append_assoc]⟩

/-- The last byte is filled up with ones. -/
lemma finish_bits (s : EncodeState) (hr : s.length < 8) :
    ∃ padding ≤ 7, bytesBits s.finish = s.written ++ List.replicate padding true := by
  unfold EncodeState.finish EncodeState.written
  split
  case isTrue hp =>
    refine ⟨8 - s.length, by omega, ?_⟩
    have hw : bitsOf 8 (((s.bits <<< (8 - s.length)) % 2 ^ 64) ||| (2 ^ (8 - s.length) - 1)) =
        bitsOf s.length s.bits ++ replicate (8 - s.length) true := by
      rw [← bitsOf_ones, ← bitsOf_shiftLeft_or _ _ _ _ (Nat.sub_lt (Nat.two_pow_pos _) (by decide)),
        Nat.add_sub_cancel' hr.le]
      apply bitsOf_congr
      intro i hs
      rw [Nat.testBit_or, Nat.testBit_mod_two_pow]
      simp [show i < 64 by omega]
    rw [bytesBits_append, bytesBits_cons, byteBits_ofNat, hw]
    simp
  case isFalse he =>
    have hz : s.length = 0 := by omega
    exact ⟨0, by omega, by simp [hz, bitsOf]⟩

lemma huffmanEncode_bits (inp : Bytes) :
    ∃ pad ≤ 7, bytesBits (huffmanEncode inp) = inp.flatMap codeOf ++ List.replicate pad true := by
  obtain ⟨hr, all⟩ := foldl_put_written inp {} (by decide)
  obtain ⟨pad, hs, hb⟩ := finish_bits _ hr
  refine ⟨pad, hs, ?_⟩
  rw [huffmanEncode, hb, all]
  simp [EncodeState.written, bitsOf]

lemma readBits_codeOf (c : UInt8) (out : List Nat) :
    readBits codes legal (codeOf c) ([], out) = some ([], out ++ [c.toNat]) := by
  have hi : c.toNat < codes.length := by
    rw [codes_length]
    exact character_lt c
  have hw : codeOf c = codes[c.toNat] := getD_eq_getElem _ _ hi
  rw [hw]
  refine codes_prefixFree.readBits_code hi ?_ ?_ out
  · intro he
    have := length_of_mem_codes (getElem_mem hi)
    simp [he] at this
  have := c.toNat_lt
  simp only [legal, bne_iff_ne, ne_eq]
  omega

lemma readBits_codes (inp : Bytes) (out : List Nat) :
    readBits codes legal (inp.flatMap codeOf) ([], out) = some ([], out ++ inp.map UInt8.toNat) := by
  induction inp generalizing out with
  | nil => simp [readBits]
  | cons c inp ih =>
    rw [flatMap_cons, readBits_append, readBits_codeOf, Option.bind_some, ih]
    simp

/-- Padding descends towards EOS without reaching it. -/
lemma readBits_padding (hs : pad ≤ 7) (out : List Nat) :
    readBits codes legal (List.replicate pad true) ([], out) = some (List.replicate pad true, out) := by
  have eos : [] ++ replicate pad true ++ replicate (30 - pad) true ∈ codes := by
    rw [nil_append, replicate_append_replicate, Nat.add_sub_cancel' (by omega)]
    exact eos_code
  refine codes_prefixFree.readBits_inside _ eos ?_
  simp only [ne_eq, replicate_eq_nil_iff]
  omega

/-- The code words of `text` and up to seven ones. -/
def HuffmanCoded (text : Bytes) (bits : List Bool) : Prop :=
  ∃ padding ≤ 7, bits = text.flatMap codeOf ++ List.replicate padding true

lemma huffmanDecode_of_coded (hc : HuffmanCoded t (bytesBits bs)) : huffmanDecode bs = some t := by
  obtain ⟨pad, hs, hb⟩ := hc
  have hw : readBits codes legal (bytesBits bs) ([], []) = some (replicate pad true, t.map UInt8.toNat) := by
    rw [hb, readBits_append, readBits_codes, Option.bind_some, readBits_padding hs, nil_append]
  rw [huffmanDecode_of_readBits hw (by simpa using hs) (by simp), map_map]
  have ha : UInt8.ofNat ∘ UInt8.toNat = id := funext fun _ => UInt8.ofNat_toNat
  rw [ha, map_id]

lemma huffmanDecode_huffmanEncode (inp : Bytes) : huffmanDecode (huffmanEncode inp) = some inp :=
  huffmanDecode_of_coded (huffmanEncode_bits inp)

/-- What the walk has read and where it stands account for all bits. -/
lemma bits_of_readBits {bs next : List Bool} {out got : List Nat} (hr : readBits codes legal bs (node, out) = some (next, got)) :
    ∃ t : Bytes, got.map UInt8.ofNat = out.map UInt8.ofNat ++ t ∧ node ++ bs = t.flatMap codeOf ++ next := by
  induction bs generalizing node out with
  | nil =>
    cases hr
    exact ⟨[], by simp, by simp⟩
  | cons bit bs ih =>
    rw [readBits_cons, Option.bind_eq_some_iff] at hr
    obtain ⟨inner, ho, hr⟩ := hr
    obtain rfl := child_eq ho
    cases he : symbolAt codes (node ++ [bit]) with
    | none =>
      rw [he] at hr
      obtain ⟨t, hg, hb⟩ := ih hr
      exact ⟨t, hg, by rw [← hb, append_assoc, singleton_append]⟩
    | some sym =>
      rw [he] at hr
      dsimp only at hr
      split at hr
      next ha =>
        obtain ⟨t, hg, hb⟩ := ih hr
        obtain ⟨hs, hw, -⟩ := findIdx?_eq_some_iff_getElem.mp he
        have hl : sym < 256 := by
          have := bne_iff_ne.mp ha
          rw [codes_length] at hs
          omega
        have hc : codeOf (UInt8.ofNat sym) = node ++ [bit] := by
          rw [codeOf, UInt8.toNat_ofNat', Nat.mod_eq_of_lt hl, getD_eq_getElem _ _ hs]
          exact beq_iff_eq.mp hw
        refine ⟨UInt8.ofNat sym :: t, by rw [hg]; simp, ?_⟩
        rw [flatMap_cons, hc, append_assoc, ← hb, nil_append, append_assoc, singleton_append]
      · cases hr

lemma coded_of_huffmanDecode (hd : huffmanDecode bs = some t) : HuffmanCoded t (bytesBits bs) := by
  rw [huffmanDecode, show ({} : DecodeState) = standing ([], []) from rfl, readBytes_standing] at hd
  cases hr : readBits codes legal (bytesBits bs) ([], []) with
  | none =>
    rw [hr] at hd
    cases hd
  | some at_ =>
    obtain ⟨next, got⟩ := at_
    rw [hr, Option.map_some] at hd
    dsimp only at hd
    split at hd
    · cases hd
    rename_i hp
    cases hd
    obtain ⟨t, hg, hb⟩ := bits_of_readBits hr
    have ho : next.length ≤ 7 ∧ next = replicate next.length true := by
      cases next with
      | nil => simp
      | cons bit next =>
        have hp : ¬ ((bit :: next).length > 7 ∨ (bit :: next).all id = false) := fun h => hp ⟨by simp [standing], h⟩
        rw [not_or, Bool.not_eq_false, all_eq_true] at hp
        exact ⟨not_lt.mp hp.1, eq_replicate_of_mem hp.2⟩
    refine ⟨next.length, ho.1, ?_⟩
    rw [← ho.2]
    simpa [standing, hg] using hb

end Cnetmod.Http.V2
