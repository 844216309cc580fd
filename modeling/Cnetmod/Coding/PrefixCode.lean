import Mathlib.Data.List.Infix
import Mathlib.Data.List.Nodup
import Mathlib.Data.List.Pairwise

/-!
# Prefix codes and their decoding tries

A code is a list of bit strings, symbol `i` having the `i`-th. The trie of a
code has a node for every beginning of a code word; a node is named by the path
that leads to it. Reading bits from the root, a node that ends a code word gives
its symbol and the walk starts again.
-/
namespace Cnetmod.Coding

open List

variable (codes : List (List Bool))

/-- The node below `node` along `bit`, if some code word goes there. -/
def child (node : List Bool) (bit : Bool) : Option (List Bool) :=
  if codes.any fun code => (node ++ [bit]).isPrefixOf code then some (node ++ [bit]) else none

/-- The symbol whose code word ends at `node`. -/
def symbolAt (node : List Bool) : Option Nat := codes.findIdx? (· == node)

/-- Walk the trie along `bits` from `node`, collecting legal symbols. -/
def readBits (legal : Nat → Bool) : List Bool → List Bool × List Nat → Option (List Bool × List Nat)
  | [], at_ => some at_
  | bit :: rest, (node, out) =>
    match child codes node bit with
    | none => none
    | some next =>
      match symbolAt codes next with
      | some symbol => if legal symbol then readBits legal rest ([], out ++ [symbol]) else none
      | none => readBits legal rest (next, out)

/-- No code word begins another, and no two symbols share one. -/
structure PrefixFree : Prop where
  distinct : codes.Nodup
  apart : ∀ c ∈ codes, ∀ d ∈ codes, c <+: d → c = d

variable {codes} {legal : Nat → Bool}

lemma readBits_cons (bit : Bool) (tl n : List Bool) (out : List Nat) :
    readBits codes legal (bit :: tl) (n, out) = (child codes n bit).bind fun next =>
      match symbolAt codes next with
      | some sym => if legal sym then readBits codes legal tl ([], out ++ [sym]) else none
      | none => readBits codes legal tl (next, out) := by
  rw [readBits]
  cases child codes n bit <;> rfl

lemma readBits_append (xs ys : List Bool) (at_ : List Bool × List Nat) :
    readBits codes legal (xs ++ ys) at_ = (readBits codes legal xs at_).bind (readBits codes legal ys) := by
  induction xs generalizing at_ with
  | nil => rfl
  | cons bit xs ih =>
    obtain ⟨n, out⟩ := at_
    rw [cons_append, readBits_cons, readBits_cons]
    cases child codes n bit with
    | none => rfl
    | some next =>
      rw [Option.bind_some, Option.bind_some]
      cases symbolAt codes next with
      | none => exact ih _
      | some sym =>
        dsimp only
        split
        · exact ih _
        · rfl

variable {n rest : List Bool} {sym depth : Nat}

lemma child_of_prefix {code : List Bool} {bit : Bool} (hm : code ∈ codes)
    (hb : n ++ [bit] <+: code) : child codes n bit = some (n ++ [bit]) := by
  unfold child
  rw [if_pos]
  exact any_eq_true.mpr ⟨code, hm, isPrefixOf_iff_prefix.mpr hb⟩

lemma PrefixFree.symbolAt_none (hf : PrefixFree codes) (hm : n ++ rest ∈ codes) (hp : rest ≠ []) : symbolAt codes n = none := by
  unfold symbolAt
  rw [findIdx?_eq_none_iff]
  intro code ho
  by_contra hs
  obtain rfl : code = n := by simpa using hs
  have hw := hf.apart code ho _ hm (prefix_append code rest)
  exact hp (append_right_eq_self.mp hw.symm)

lemma PrefixFree.symbolAt_code (hf : PrefixFree codes) (hs : sym < codes.length) : symbolAt codes codes[sym] = some sym := by
  unfold symbolAt
  rw [findIdx?_eq_some_iff_getElem]
  refine ⟨hs, by simp, ?_⟩
  intro j hb
  have ha : codes[j] ≠ codes[sym] := by
    intro hc
    have := (List.Nodup.getElem_inj_iff hf.distinct).mp hc
    omega
  simpa using ha

/-- Inside a code word the walk only descends. -/
lemma PrefixFree.readBits_inside (hf : PrefixFree codes) (bs : List Bool) {out : List Nat} (hm : n ++ bs ++ rest ∈ codes)
    (hp : rest ≠ []) : readBits codes legal bs (n, out) = some (n ++ bs, out) := by
  induction bs generalizing n with
  | nil => simp [readBits]
  | cons bit bs ih =>
    have split : n ++ bit :: bs ++ rest = (n ++ [bit]) ++ bs ++ rest := by simp
    rw [split] at hm
    have ho : child codes n bit = some (n ++ [bit]) := by
      apply child_of_prefix hm
      rw [append_assoc]
      exact prefix_append _ _
    have hs : symbolAt codes (n ++ [bit]) = none := by
      rw [append_assoc] at hm
      exact hf.symbolAt_none hm (by simp [hp])
    simp only [readBits, ho, hs]
    rw [ih hm]
    simp

/-- A whole code word gives its symbol and leads back to the root. -/
lemma PrefixFree.readBits_code (hf : PrefixFree codes) (hs : sym < codes.length) (some : codes[sym] ≠ []) (ha : legal sym = true)
    (out : List Nat) : readBits codes legal codes[sym] ([], out) = Option.some ([], out ++ [sym]) := by
  have hm : codes[sym] ∈ codes := getElem_mem hs
  have he := hf.symbolAt_code hs
  obtain ⟨init, last, hw⟩ := (eq_nil_or_concat codes[sym]).resolve_left some
  rw [hw, concat_eq_append] at hm he ⊢
  rw [readBits_append, hf.readBits_inside init (by simpa using hm) (by simp)]
  have ho : child codes init last = Option.some (init ++ [last]) := child_of_prefix hm (prefix_refl _)
  simp only [Option.bind_some, nil_append, readBits, ho, he, ha, if_true]

/-- The rest of a code word that begins with `bit`. -/
def below (bit : Bool) : List Bool → Option (List Bool)
  | [] => none
  | head :: rest => if head = bit then some rest else none

/-- Decide prefix-freeness by splitting the code at each bit. -/
def splitFree : (depth : Nat) → List (List Bool) → Bool
  | 0, codes => codes.length ≤ 1
  | depth + 1, codes =>
    codes.length ≤ 1 ||
      (codes.all (fun code => !code.isEmpty) &&
        splitFree depth (codes.filterMap (below false)) &&
        splitFree depth (codes.filterMap (below true)))

private lemma pairwise_of_length_le_one {α : Type*} {r : α → α → Prop} {xs : List α} (hs : xs.length ≤ 1) : xs.Pairwise r := by
  match xs, hs with
  | [], _ => exact List.Pairwise.nil
  | [x], _ => exact pairwise_singleton _ _

lemma splitFree_pairwise {cs : List (List Bool)} (ha : splitFree depth cs = true) :
    cs.Pairwise fun c d => ¬ c <+: d ∧ ¬ d <+: c := by
  induction depth generalizing cs with
  | zero => exact pairwise_of_length_le_one (by simpa [splitFree] using ha)
  | succ depth ih =>
    simp only [splitFree, Bool.or_eq_true, Bool.and_eq_true, decide_eq_true_eq, all_eq_true, Bool.not_eq_true'] at ha
    obtain hsh | ⟨⟨hf, left⟩, right⟩ := ha
    · exact pairwise_of_length_le_one hsh
    -- a pair with equal heads is a pair of one of the halves
    have hh := (pairwise_filterMap.mp (ih left)).and (pairwise_filterMap.mp (ih right))
    refine hh.imp_of_mem ?_
    intro c d hc hd ⟨ho, hon⟩
    match c, d, hf c hc, hf d hd with
    | x :: xs, y :: ys, _, _ =>
      by_cases hs : x = y
      · subst hs
        simp only [cons_prefix_cons, true_and]
        cases x with
        | false => exact ho xs rfl ys rfl
        | true => exact hon xs rfl ys rfl
      · simp [cons_prefix_cons, hs, Ne.symm hs]

lemma prefixFree_of_splitFree {cs : List (List Bool)} (hh : splitFree depth cs = true) : PrefixFree cs := by
  have hp := splitFree_pairwise hh
  constructor
  · refine hp.imp ?_
    rintro c d h rfl
    exact h.1 (prefix_refl c)
  intro c hc d hd hb
  by_contra hdi
  have : Std.Symm fun c d : List Bool => ¬ c <+: d ∧ ¬ d <+: c := ⟨fun _ _ h => h.symm⟩
  exact (hp.forall hc hd hdi).1 hb

end Cnetmod.Coding
