import Cnetmod.Http.Spec.RequestGrammar

/-!
# What the header lookup finds

The slots of the common names, filled by `finalize_headers`, give the values of
all fields of that name, joined as `header_map` joins them.
-/
namespace Cnetmod.Http.V1

open Coding List

lemma headerEqual_iff : headerEqual left right = true ↔ left.map asciiLower = right.map asciiLower := by
  simp [headerEqual]

lemma headerEqual_congr (hs : headerEqual left right = true) (n : Bytes) : headerEqual left n = headerEqual right n := by
  rw [headerEqual, headerEqual, headerEqual_iff.mp hs]

lemma headerEqual_comm (left right : Bytes) : headerEqual left right = headerEqual right left := by
  rw [headerEqual, headerEqual, BEq.comm]

/-- The values of a repeated field as one. -/
def joinValues : List Bytes → Bytes
  | [] => []
  | value :: values => values.foldl (fun all value => all ++ ", " ++ value) value

lemma joinValues_append (some : vs ≠ []) (v : Bytes) : joinValues (vs ++ [v]) = joinValues vs ++ ", " ++ v := by
  cases vs with
  | nil => exact absurd rfl some
  | cons hd vs => simp [joinValues]

lemma valuesOf_append (n : Bytes) (fs : List Field) (f : Field) :
    valuesOf n (fs ++ [f]) = valuesOf n fs ++ if headerEqual f.name n then [f.value] else [] := by
  unfold valuesOf
  cases he : headerEqual f.name n <;> simp [he]

/-- `header_map::find`. -/
def lookupHeader (headers : List (Bytes × Bytes)) (k : Bytes) : Option Bytes :=
  (headers.find? fun header => headerEqual header.1 k).map Prod.snd

open RequestParser in
lemma lookupHeader_addHeader (headers : List (Bytes × Bytes)) (n v k : Bytes) :
    lookupHeader (addHeader headers n v) k =
      if headerEqual n k then
        some (match lookupHeader headers k with
          | none => v
          | some old => old ++ ", " ++ v)
      else lookupHeader headers k := by
  unfold lookupHeader addHeader
  split
  case isTrue hk =>
    -- the keys stay, so the same entry is found
    rw [find?_map]
    have hc : ((fun hdr : Bytes × Bytes => headerEqual hdr.1 k) ∘ fun hdr =>
        if headerEqual hdr.1 n then (hdr.1, hdr.2 ++ ", " ++ v) else hdr) =
        fun hdr => headerEqual hdr.1 k := by
      funext hdr
      dsimp only [Function.comp]
      split <;> rfl
    rw [hc]
    cases hf : headers.find? fun hdr => headerEqual hdr.1 k with
    | none =>
      obtain ⟨hdr, hb, he⟩ := any_eq_true.mp hk
      have hm := find?_eq_none.mp hf hdr hb
      rw [headerEqual_congr he] at hm
      rw [if_neg hm]
      rfl
    | some hdr =>
      have he : headerEqual hdr.1 k = true := by simpa using find?_some hf
      have ha : headerEqual hdr.1 n = headerEqual n k := by rw [headerEqual_comm n, headerEqual_congr he]
      cases hs : headerEqual n k <;> simp [ha, hs]
  case isFalse hu =>
    rw [find?_append]
    cases hs : headerEqual n k with
    | false => simp [hs]
    | true =>
      have hm : (headers.find? fun hdr => headerEqual hdr.1 k) = none := by
        rw [find?_eq_none]
        intro hdr hb he
        refine hu (any_eq_true.mpr ⟨hdr, hb, ?_⟩)
        rw [headerEqual_iff] at *
        exact he.trans hs.symm
      simp [hm, hs]

/-- The fields entered one after the other, by name. -/
lemma lookupHeader_fields (fs : List Field) (k : Bytes) : lookupHeader (fs.foldl (fun headers f =>
      RequestParser.addHeader headers f.name f.value) []) k =
      if valuesOf k fs = [] then none else some (joinValues (valuesOf k fs)) := by
  induction fs using reverseRecOn with
  | nil => rfl
  | append_singleton fs f ih =>
    rw [foldl_append, foldl_cons, foldl_nil, lookupHeader_addHeader, ih, valuesOf_append]
    cases he : headerEqual f.name k with
    | false => simp
    | true =>
      by_cases hf : valuesOf k fs = []
      · simp [hf, joinValues]
      · simp [hf, joinValues_append hf]

namespace RequestParser

/-- The fields the parser holds. -/
def contents (s : RequestParser) : List Field :=
  s.headerFields.map fun field =>
    ⟨slice s.storage field.nameOffset field.nameSize, slice s.storage field.valueOffset field.valueSize⟩

lemma length_contents (s : RequestParser) : s.contents.length = s.headerFields.length := by simp [contents]

variable {name : Bytes} {slot index : Nat}

section

variable (s : RequestParser)

lemma headerName_eq (hh : s.contents[index]? = some f) : s.headerName index = f.name := by
  unfold contents at hh
  rw [getElem?_map] at hh
  obtain ⟨view, hf, rfl⟩ := Option.map_eq_some_iff.mp hh
  simp [headerName, getD, hf]

lemma headerValue_eq (hh : s.contents[index]? = some f) : s.headerValue index = f.value := by
  unfold contents at hh
  rw [getElem?_map] at hh
  obtain ⟨view, hf, rfl⟩ := Option.map_eq_some_iff.mp hh
  simp [headerValue, getD, hf]

lemma contents_eq_map_range : s.contents = (List.range s.headerFields.length).map fun i =>
      ⟨s.headerName i, s.headerValue i⟩ := by
  refine ext_getElem? fun i => ?_
  cases hh : s.contents[i]? with
  | none =>
    rw [getElem?_eq_none_iff, length_contents] at hh
    simp [hh]
  | some f =>
    have hb := (List.getElem?_eq_some_iff.mp hh).1
    rw [length_contents] at hb
    rw [getElem?_map, getElem?_range hb, Option.map_some, s.headerName_eq hh, s.headerValue_eq hh]

lemma lookupHeader_materializeHeaders (k : Bytes) : lookupHeader s.materializeHeaders k =
      if valuesOf k s.contents = [] then none else some (joinValues (valuesOf k s.contents)) := by
  rw [← lookupHeader_fields, contents_eq_map_range, foldl_map]
  rfl

/-- Only the index has changed. -/
structure Reindexed (s s' : RequestParser) : Prop where
  frame : s' = { s with
    headerFields := s'.headerFields, headerIndex := s'.headerIndex, commonHeaders := s'.commonHeaders }
  contents : s'.contents = s.contents
  marks : ∀ index, (s.headerFields.getD index {}).duplicate = true → (s'.headerFields.getD index {}).duplicate = true

lemma Reindexed.refl : Reindexed s s := ⟨rfl, rfl, fun _ hm => hm⟩

end

lemma Reindexed.trans {s t u : RequestParser} (hf : Reindexed s t) (hs : Reindexed t u) : Reindexed s u where
  frame := by rw [hs.frame, hf.frame]
  contents := hs.contents.trans hf.contents
  marks index hm := hs.marks index (hf.marks index hm)

lemma Reindexed.kept {s s' : RequestParser} (hr : Reindexed s s') :
    s'.buf = s.buf ∧ s'.readPos = s.readPos ∧ s'.body = s.body ∧ s'.ready = s.ready ∧ s'.chunked = s.chunked := by
  rw [hr.frame]
  exact ⟨rfl, rfl, rfl, rfl, rfl⟩

lemma getD_markDuplicate (s : RequestParser) (hd i : Nat) : (s.markDuplicate hd).headerFields.getD i {} =
      if hd = i ∧ i < s.headerFields.length then { s.headerFields.getD i {} with duplicate := true }
      else s.headerFields.getD i {} := by
  simp only [markDuplicate, getD_eq_getElem?_getD, getElem?_modify]
  by_cases hh : hd = i
  · by_cases hb : i < s.headerFields.length
    · simp [hh, hb]
    · simp [hh, hb]
  · simp [hh]

lemma reindexed_markDuplicate (s : RequestParser) (hd : Nat) : Reindexed s (s.markDuplicate hd) where
  frame := rfl
  contents := by
    have hk : (s.markDuplicate hd).storage = s.storage := rfl
    unfold RequestParser.contents
    rw [hk]
    refine ext_getElem? fun i => ?_
    simp only [markDuplicate, getElem?_map, getElem?_modify]
    cases s.headerFields[i]? with
    | none => simp
    | some f => by_cases hh : hd = i <;> simp [hh]
  marks i hm := by
    rw [getD_markDuplicate]
    split
    · rfl
    · exact hm

lemma reindexed_insertProbe (n : Bytes) (i probes bucket : Nat) (s : RequestParser) :
    Reindexed s (insertProbe n i probes bucket s) ∧ (insertProbe n i probes bucket s).commonHeaders = s.commonHeaders := by
  induction probes generalizing bucket with
  | zero => exact ⟨.refl s, rfl⟩
  | succ probes ih =>
    rw [insertProbe]
    split
    · exact ⟨⟨rfl, rfl, fun _ hm => hm⟩, rfl⟩
    split
    · exact ⟨reindexed_markDuplicate s _, rfl⟩
    · exact ih _

lemma mem_commonHeaderNames (hh : hd ∈ commonHeaderNames) (ht : second ∈ commonHeaderNames)
    (hs : headerEqual hd.1 second.1 = true ∨ hd.2 = second.2) : hd = second := by
  have all : ∀ hd ∈ commonHeaderNames, ∀ second ∈ commonHeaderNames,
      headerEqual hd.1 second.1 = true ∨ hd.2 = second.2 → hd = second := by
    decide +kernel
  exact all hd hh second ht hs

lemma commonHeaderSlot_some (hh : (com, slot) ∈ commonHeaderNames)
    (he : headerEqual name com = true) : commonHeaderSlot name = some slot := by
  unfold commonHeaderSlot
  cases hf : commonHeaderNames.find? fun com => headerEqual name com.1 with
  | none => exact absurd he (by simpa using find?_eq_none.mp hf _ hh)
  | some o =>
    have ha : headerEqual name o.1 = true := by simpa using find?_some hf
    have hs := mem_commonHeaderNames hh (mem_of_find?_eq_some hf) (.inl (by rw [← headerEqual_congr he, ha]))
    rw [← hs]
    rfl

lemma commonHeaderSlot_eq_some (hf : commonHeaderSlot name = some slot) :
    ∃ com, (com, slot) ∈ commonHeaderNames ∧ headerEqual name com = true := by
  obtain ⟨⟨com, slot'⟩, hh, hs⟩ := Option.map_eq_some_iff.mp hf
  cases hs
  exact ⟨com, mem_of_find?_eq_some hh, by simpa using find?_some hh⟩

/-- The first field of a name. -/
def firstOf (name : Bytes) (fields : List Field) : Option Nat :=
  fields.findIdx? fun field => headerEqual field.name name

lemma firstOf_append (n : Bytes) (fs : List Field) (f : Field) :
    firstOf n (fs ++ [f]) = (firstOf n fs).or (if headerEqual f.name n then some fs.length else none) := by
  unfold firstOf
  cases he : headerEqual f.name n <;> simp [he]

lemma valuesOf_eq_nil_iff : valuesOf name fs = [] ↔ firstOf name fs = none := by
  simp [valuesOf, firstOf, findIdx?_eq_none_iff, filter_eq_nil_iff]

/-- The slots after the first fields have been entered. -/
structure Slots (s : RequestParser) (fields : List Field) : Prop where
  count : s.commonHeaders.length = 18
  first : ∀ {name slot}, (name, slot) ∈ commonHeaderNames → s.commonHeaders.getD slot none = firstOf name fields
  repeated : ∀ {name slot index}, (name, slot) ∈ commonHeaderNames → firstOf name fields = some index →
    2 ≤ (valuesOf name fields).length → (s.headerFields.getD index {}).duplicate = true

/-- A field counts for one name of the table only. -/
lemma common_unique (hh : (name, slot) ∈ commonHeaderNames) (he : headerEqual f name = true)
    (ht : (can, com) ∈ commonHeaderNames) (ha : headerEqual f can = true) : name = can ∧ slot = com := by
  have hs := mem_commonHeaderNames hh ht (.inl (by rw [← headerEqual_congr he, ha]))
  cases hs
  exact ⟨rfl, rfl⟩

variable {s t : RequestParser} {fs rest : List Field} {fld : Field} {can : Bytes} {com : Nat}

/-- The first field of a common name takes its slot. -/
lemma slots_enter (hs : s.Slots fs) (hm : (can, com) ∈ commonHeaderNames)
    (he : headerEqual fld.name can = true) (hf : firstOf can fs = none) :
    ({ s with commonHeaders := s.commonHeaders.set com (some fs.length) } : RequestParser).Slots (fs ++ [fld]) where
  count := by simp [hs.count]
  first {name slot} ho := by
    rw [firstOf_append, ← hs.first ho]
    cases ha : headerEqual fld.name name with
    | true =>
      obtain ⟨rfl, rfl⟩ := common_unique ho ha hm he
      have hb : slot < s.commonHeaders.length := by
        have all : ∀ com ∈ commonHeaderNames, com.2 < 18 := by decide
        rw [hs.count]
        exact all _ hm
      rw [hs.first hm, hf]
      simp [hb, getD_eq_getElem?_getD]
    | false =>
      have hp : com ≠ slot := by
        intro hc
        cases mem_commonHeaderNames ho hm (.inr hc.symm)
        rw [he] at ha
        cases ha
      simp [hp, getD_eq_getElem?_getD, getElem?_set_ne]
  repeated {name slot index} ho hi ht := by
    cases ha : headerEqual fld.name name with
    | true =>
      obtain ⟨rfl, rfl⟩ := common_unique ho ha hm he
      rw [valuesOf_append, valuesOf_eq_nil_iff.mpr hf] at ht
      simp [ha] at ht
    | false =>
      rw [firstOf_append, ha] at hi
      rw [valuesOf_append, ha] at ht
      exact hs.repeated ho (by simpa using hi) (by simpa using ht)

/-- A later one marks the first. -/
lemma slots_again (hs : s.Slots fs) (hm : (can, com) ∈ commonHeaderNames)
    (he : headerEqual fld.name can = true) (hag : firstOf can fs = some first)
    (hb : first < s.headerFields.length) : (s.markDuplicate first).Slots (fs ++ [fld]) where
  count := hs.count
  first {name slot} ho := by
    change s.commonHeaders.getD slot none = _
    rw [firstOf_append, hs.first ho]
    cases ha : headerEqual fld.name name with
    | true =>
      obtain ⟨rfl, rfl⟩ := common_unique ho ha hm he
      simp [hag]
    | false => simp
  repeated {name slot index} ho hi ht := by
    rw [firstOf_append] at hi
    cases ha : headerEqual fld.name name with
    | true =>
      obtain ⟨rfl, rfl⟩ := common_unique ho ha hm he
      rw [hag] at hi
      cases hi
      rw [getD_markDuplicate, if_pos ⟨rfl, hb⟩]
    | false =>
      rw [ha] at hi
      rw [valuesOf_append, ha] at ht
      exact (reindexed_markDuplicate s first).marks _ (hs.repeated ho (by simpa using hi) (by simpa using ht))

/-- A field of another name leaves the slots. -/
lemma slots_other (hs : s.Slots fs)
    (ha : ∀ {name slot}, (name, slot) ∈ commonHeaderNames → headerEqual fld.name name = false)
    (hr : Reindexed s t) (hb : t.commonHeaders = s.commonHeaders) : t.Slots (fs ++ [fld]) where
  count := by rw [hb, hs.count]
  first {name slot} ho := by
    rw [hb, firstOf_append, ha ho, hs.first ho]
    simp
  repeated {name slot index} ho hi ht := by
    rw [firstOf_append, ha ho] at hi
    rw [valuesOf_append, ha ho] at ht
    exact hr.marks _ (hs.repeated ho (by simpa using hi) (by simpa using ht))

lemma slots_indexHeader (hs : s.Slots fs) (hg : s.contents = fs ++ fld :: rest) (cap : Nat) :
    (s.indexHeader cap fs.length).Slots (fs ++ [fld]) ∧ Reindexed s (s.indexHeader cap fs.length) := by
  have hj : s.contents[fs.length]? = some fld := by simp [hg]
  unfold indexHeader
  rw [s.headerName_eq hj]
  dsimp only
  split
  next com hf =>
    obtain ⟨can, hm, he⟩ := commonHeaderSlot_eq_some hf
    split
    next hh =>
      rw [hs.first hm] at hh
      exact ⟨slots_enter hs hm he hh, rfl, rfl, fun _ hc => hc⟩
    next hd hh =>
      rw [hs.first hm] at hh
      have hb : hd < s.headerFields.length := by
        have hi := (findIdx?_eq_some_iff_getElem.mp hh).1
        rw [← length_contents, hg, length_append]
        omega
      exact ⟨slots_again hs hm he hh hb, reindexed_markDuplicate s hd⟩
  next hf =>
    have ha : ∀ {n slot}, (n, slot) ∈ commonHeaderNames → headerEqual fld.name n = false := by
      intro n slot ho
      by_contra he
      rw [commonHeaderSlot_some ho (Bool.eq_true_of_not_eq_false he)] at hf
      cases hf
    generalize ht : (if s.headerIndex = [] then { s with headerIndex := replicate cap none } else s) = t
    have hn : Reindexed s t := by
      rw [← ht]
      split
      · exact ⟨rfl, rfl, fun _ hc => hc⟩
      · exact .refl s
    have com : t.commonHeaders = s.commonHeaders := by
      rw [← ht]
      split <;> rfl
    obtain ⟨hp, hk⟩ := reindexed_insertProbe fld.name fs.length t.headerIndex.length
      ((headerHash fld.name).toNat &&& (t.headerIndex.length - 1)) t
    have hr := hn.trans hp
    exact ⟨slots_other hs ha hr (hk.trans com), hr⟩

lemma slots_foldl (cap n : Nat) (hc : s.Slots []) (ho : n ≤ s.contents.length) :
    ((List.range n).foldl (indexHeader cap) s).Slots (s.contents.take n) ∧
      Reindexed s ((List.range n).foldl (indexHeader cap) s) := by
  induction n with
  | zero => exact ⟨hc, .refl s⟩
  | succ n ih =>
    obtain ⟨hb, hs⟩ := ih (by omega)
    rw [range_succ, foldl_append, foldl_cons]
    have hi : n < s.contents.length := ho
    have hl : (s.contents.take n).length = n := length_take_of_le (by omega)
    have hh : ((range n).foldl (indexHeader cap) s).contents =
        s.contents.take n ++ s.contents[n] :: s.contents.drop (n + 1) := by
      rw [hs.contents, getElem_cons_drop, take_append_drop]
    obtain ⟨ha, ht⟩ := slots_indexHeader hb hh cap
    rw [hl] at ha ht
    rw [take_add_one, getElem?_eq_getElem hi]
    exact ⟨ha, hs.trans ht⟩

lemma slots_finalizeHeaders (hr : s.commonHeaders = List.replicate 18 none) :
    s.finalizeHeaders.Slots s.contents ∧ Reindexed { s with headerEnd := s.readPos, headerIndex := [] } s.finalizeHeaders := by
  have he : ({ s with headerEnd := s.readPos, headerIndex := [] } : RequestParser).Slots [] := by
    refine ⟨by simp [hr], ?_, ?_⟩
    · intro n slot _
      rw [hr, getD_eq_getElem?_getD, getElem?_replicate]
      split <;> rfl
    · intro n slot i _ hi
      cases hi
  have hf := slots_foldl (indexCapacity s.headerFields.length s.headerFields.length 8)
    s.headerFields.length he (by rw [length_contents])
  have hw : s.contents.take s.headerFields.length = s.contents := by rw [← length_contents, take_length]
  exact ⟨hw ▸ hf.1, hf.2⟩

/-- A common slot gives all values of its name. -/
lemma commonHeaderValue_eq (hs : s.Slots fs) (hh : s.contents = fs) (hm : (name, slot) ∈ commonHeaderNames) :
    s.commonHeaderValue slot name = joinValues (valuesOf name fs) := by
  subst hh
  have ha : headerEqual name name = true := headerEqual_iff.mpr rfl
  unfold commonHeaderValue
  rw [hs.first hm]
  cases hf : firstOf name s.contents with
  | none =>
    rw [valuesOf_eq_nil_iff.mpr hf]
    rfl
  | some i =>
    have some : valuesOf name s.contents ≠ [] := by simp [valuesOf_eq_nil_iff, hf]
    dsimp only
    split
    case isTrue hma =>
      unfold getHeader findHeader
      rw [commonHeaderSlot_some hm ha]
      dsimp only
      rw [hs.first hm, hf]
      dsimp only
      rw [if_pos hma]
      have hj := s.lookupHeader_materializeHeaders name
      rw [if_neg some] at hj
      unfold lookupHeader at hj
      rw [hj, Option.getD_some]
    case isFalse hu =>
      -- one field only, or it would be marked
      have ho : ¬ 2 ≤ (valuesOf name s.contents).length := fun ht => hu (hs.repeated hm hf ht)
      obtain ⟨hb, he, -⟩ := findIdx?_eq_some_iff_getElem.mp hf
      have hc : s.contents[i]? = Option.some s.contents[i] := getElem?_eq_getElem hb
      have hm : s.contents[i].value ∈ valuesOf name s.contents := mem_map.mpr ⟨_, mem_filter.mpr ⟨getElem_mem hb, he⟩, rfl⟩
      rw [s.headerValue_eq hc]
      match hv : valuesOf name s.contents with
      | [] => exact absurd hv some
      | [value] =>
        rw [hv, mem_singleton] at hm
        exact hm
      | _ :: _ :: _ => simp [hv] at ho

end RequestParser

end Cnetmod.Http.V1
