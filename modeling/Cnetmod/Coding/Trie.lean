import Mathlib.Order.Lattice
import Mathlib.Data.List.Basic

/-!
# Tries

Values at the nodes of a tree, reached along paths of keys. Nodes come into being
on the way to a value and go when nothing is left at them or below them.
-/
namespace Cnetmod.Coding

open List Option

variable {κ ν : Type*} [LinearOrder κ]

inductive Trie (κ ν : Type*) where
  | node (value : ν) (children : List (κ × Trie κ ν))

namespace Trie

def value : Trie κ ν → ν
  | node value _ => value

def children : Trie κ ν → List (κ × Trie κ ν)
  | node _ children => children

def child (key : κ) (children : List (κ × Trie κ ν)) : Option (Trie κ ν) :=
  (children.find? (·.1 = key)).map (·.2)

/-- The children, in the order of their keys, with `t` under `key`. -/
def setChild (key : κ) (t : Trie κ ν) : List (κ × Trie κ ν) → List (κ × Trie κ ν)
  | [] => [(key, t)]
  | (k, c) :: children =>
    if key = k then (key, t) :: children
    else if key < k then (key, t) :: (k, c) :: children
    else (k, c) :: setChild key t children

def removeChild (key : κ) (children : List (κ × Trie κ ν)) : List (κ × Trie κ ν) :=
  children.filter (·.1 ≠ key)

variable (blank : ν) (isBlank : ν → Bool)

def valueAt : List κ → Trie κ ν → ν
  | [], t => t.value
  | key :: path, t => match child key t.children with
    | none => blank
    | some c => valueAt path c

/-- Changes the value at a path, making the nodes on the way. -/
def insert (change : ν → ν) : List κ → Trie κ ν → Trie κ ν
  | [], node value children => node (change value) children
  | key :: path, node value children =>
    node value (setChild key (insert change path ((child key children).getD (node blank []))) children)

def isEmpty : Trie κ ν → Bool
  | node value children => isBlank value && children.isEmpty

/-- Changes the value at a path, if it is there, and takes out the nodes that this leaves empty. -/
def prune (change : ν → ν) : List κ → Trie κ ν → Trie κ ν
  | [], node value children => node (change value) children
  | key :: path, node value children => match child key children with
    | none => node value children
    | some c =>
      let c' := prune change path c
      if c'.isEmpty isBlank then node value (removeChild key children) else node value (setChild key c' children)

mutual

/-- Changes every value and takes out the nodes that this leaves empty. -/
def pruneAll (change : ν → ν) : Trie κ ν → Trie κ ν
  | node value children => node (change value) (pruneChildren change children)

def pruneChildren (change : ν → ν) : List (κ × Trie κ ν) → List (κ × Trie κ ν)
  | [] => []
  | (key, c) :: children =>
    if (pruneAll change c).isEmpty isBlank then pruneChildren change children
    else (key, pruneAll change c) :: pruneChildren change children

end

/-- Every key once, in order, at each node. -/
inductive Ordered : Trie κ ν → Prop where
  | node {value : ν} {children : List (κ × Trie κ ν)} (sorted : children.Pairwise (·.1 < ·.1))
    (below : ∀ c ∈ children, Ordered c.2) : Ordered (node value children)

variable {key k' : κ} {t c : Trie κ ν} {cs : List (κ × Trie κ ν)} {path p' : List κ} {change : ν → ν}

@[simp] lemma child_nil : child key ([] : List (κ × Trie κ ν)) = none := rfl

lemma child_cons : child k' ((key, t) :: cs) = if key = k' then some t else child k' cs := by
  rw [child]
  by_cases hs : key = k'
  · simp [hs]
  · simp [hs, child]

lemma child_setChild : child k' (setChild key t cs) = if key = k' then some t else child k' cs := by
  induction cs with
  | nil => rw [setChild, child_cons]
  | cons hd cs ih =>
    rw [setChild]
    split
    next hs =>
      rw [child_cons, child_cons, hs]
      split <;> rfl
    next ho =>
      split
      · rw [child_cons]
      rw [child_cons, ih, child_cons]
      split
      next hh => rw [if_neg fun hs => ho (hs.trans hh.symm)]
      · rfl

lemma child_removeChild : child k' (removeChild key cs) = if key = k' then none else child k' cs := by
  induction cs with
  | nil => simp [removeChild]
  | cons hd cs ih =>
    obtain ⟨k, c⟩ := hd
    rw [removeChild, filter_cons]
    split
    next hk =>
      rw [child_cons, child_cons]
      refine Eq.trans (congrArg (ite _ _) ih) ?_
      split
      next hh => rw [if_neg fun hs => by simp [hh, hs] at hk]
      · rfl
    next hg =>
      obtain rfl : k = key := by simpa using hg
      refine ih.trans ?_
      rw [child_cons]
      split <;> rfl

lemma mem_of_child (hf : child key cs = some c) : (key, c) ∈ cs := by
  obtain ⟨r, hh, rfl⟩ := map_eq_some_iff.mp hf
  obtain rfl : r.1 = key := by simpa using find?_some hh
  exact mem_of_find?_eq_some hh

lemma child_eq_none (hm : ∀ c ∈ cs, c.1 ≠ key) : child key cs = none := by
  rw [child, find?_eq_none.mpr (by simpa using fun a b he => hm (a, b) he)]
  rfl

lemma mem_setChild {r : κ × Trie κ ν} (hm : r ∈ setChild key t cs) : r = (key, t) ∨ r ∈ cs := by
  induction cs with
  | nil => exact .inl (mem_singleton.mp hm)
  | cons hd cs ih =>
    rw [setChild] at hm
    split at hm
    · rcases mem_cons.mp hm with hh | hl
      · exact .inl hh
      · exact .inr (mem_cons_of_mem _ hl)
    split at hm
    · exact (mem_cons.mp hm).imp_right id
    rcases mem_cons.mp hm with hh | hl
    · exact .inr (hh ▸ mem_cons_self ..)
    · exact (ih hl).imp_right (mem_cons_of_mem _)

lemma sorted_setChild (hs : cs.Pairwise (·.1 < ·.1)) : (setChild key t cs).Pairwise (·.1 < ·.1) := by
  induction cs with
  | nil => simp [setChild]
  | cons hd cs ih =>
    obtain ⟨ha, hr⟩ := pairwise_cons.mp hs
    rw [setChild]
    split
    next hb => exact pairwise_cons.mpr ⟨hb ▸ ha, hr⟩
    rename_i ho
    split
    next hl =>
      refine pairwise_cons.mpr ⟨fun r hm => ?_, hs⟩
      rcases mem_cons.mp hm with rfl | hla
      · exact hl
      · exact hl.trans (ha r hla)
    next hc =>
      refine pairwise_cons.mpr ⟨fun r hm => ?_, ih hr⟩
      rcases mem_setChild hm with rfl | old
      · exact lt_of_le_of_ne (not_lt.mp hc) (Ne.symm ho)
      · exact ha r old

lemma setChild_of_child (hs : cs.Pairwise (·.1 < ·.1)) (hf : child key cs = some t) : setChild key t cs = cs := by
  induction cs with
  | nil => cases hf
  | cons hd cs ih =>
    obtain ⟨k, c⟩ := hd
    obtain ⟨ha, hr⟩ := pairwise_cons.mp hs
    rw [child_cons] at hf
    rw [setChild]
    split
    next hb =>
      rw [if_pos hb.symm] at hf
      rw [hb, some.inj hf]
    next ho =>
      rw [if_neg (Ne.symm ho)] at hf
      rw [if_neg (not_lt.mpr (ha _ (mem_of_child hf)).le), ih hr hf]

namespace Ordered

variable {v : ν}

lemma sorted (ho : (Trie.node v cs).Ordered) : cs.Pairwise (·.1 < ·.1) := by
  obtain ⟨hs, -⟩ := ho
  exact hs

lemma child (ho : (Trie.node v cs).Ordered) (hf : Trie.child key cs = some c) : c.Ordered := by
  obtain ⟨-, hb⟩ := ho
  exact hb _ (mem_of_child hf)

lemma setChild (ho : (Trie.node v cs).Ordered) (new : t.Ordered) : (Trie.node v (Trie.setChild key t cs)).Ordered := by
  obtain ⟨hs, hb⟩ := ho
  refine .node (sorted_setChild hs) fun c hm => ?_
  rcases mem_setChild hm with rfl | old
  · exact new
  · exact hb c old

end Ordered

variable {blank isBlank}

lemma ordered_leaf (v : ν) : (node v [] : Trie κ ν).Ordered := .node .nil (by simp)

@[simp] lemma valueAt_leaf (p : List κ) : valueAt blank p (node blank []) = blank := by cases p <;> rfl

lemma valueAt_insert (t : Trie κ ν) : valueAt blank p' (insert blank change p t) =
    if p = p' then change (valueAt blank p t) else valueAt blank p' t := by
  induction p generalizing p' t with
  | nil =>
    obtain ⟨v, cs⟩ := t
    cases p' <;> rfl
  | cons key p ih =>
    obtain ⟨v, cs⟩ := t
    cases p' with
    | nil => rfl
    | cons k' p' =>
      simp only [insert, valueAt, children, child_setChild, cons.injEq]
      by_cases hs : key = k'
      · subst hs
        simp only [if_true, true_and, ih]
        cases child key cs <;> simp
      · simp [hs]

lemma insert_ordered (p : List κ) (ho : t.Ordered) : (insert blank change p t).Ordered := by
  induction p generalizing t with
  | nil =>
    obtain ⟨hs, hb⟩ := ho
    exact .node hs hb
  | cons key p ih =>
    obtain ⟨v, cs⟩ := t
    refine ho.setChild (ih ?_)
    cases hf : Trie.child key cs with
    | none => exact ordered_leaf blank
    | some c => exact ho.child hf

/-- Inserting what is there changes nothing. -/
lemma insert_eq_self (ho : t.Ordered) (ha : change (valueAt blank p t) = valueAt blank p t)
    (ht : valueAt blank p t ≠ blank) : insert blank change p t = t := by
  induction p generalizing t with
  | nil =>
    obtain ⟨v, cs⟩ := t
    exact congrArg (node · cs) ha
  | cons key p ih =>
    obtain ⟨v, cs⟩ := t
    simp only [valueAt, children] at ha ht
    cases hf : Trie.child key cs with
    | none =>
      rw [hf] at ht
      exact absurd rfl ht
    | some c =>
      rw [hf] at ha ht
      rw [insert, hf, getD_some, ih (ho.child hf) ha ht, setChild_of_child ho.sorted hf]

variable (blanks : ∀ v, isBlank v = true ↔ v = blank)
include blanks

lemma valueAt_of_isEmpty (p : List κ) (he : t.isEmpty isBlank = true) : valueAt blank p t = blank := by
  obtain ⟨v, cs⟩ := t
  simp only [isEmpty, Bool.and_eq_true, blanks, List.isEmpty_iff] at he
  obtain ⟨rfl, rfl⟩ := he
  exact valueAt_leaf p

lemma valueAt_prune (hk : change blank = blank) (t : Trie κ ν) : valueAt blank p' (prune isBlank change path t) =
      if path = p' then change (valueAt blank path t) else valueAt blank p' t := by
  induction path generalizing p' t with
  | nil =>
    obtain ⟨v, cs⟩ := t
    cases p' <;> rfl
  | cons key path ih =>
    obtain ⟨v, cs⟩ := t
    cases p' with
    | nil =>
      rw [prune]
      cases Trie.child key cs with
      | none => rfl
      | some c =>
        dsimp only
        split <;> rfl
    | cons k' p' =>
      rw [prune]
      cases hf : Trie.child key cs with
      | none =>
        simp only [valueAt, children, hf, hk, cons.injEq]
        by_cases hs : key = k'
        · subst hs
          simp [hf]
        · simp [hs]
      | some c =>
        dsimp only
        split
        next he =>
          have hg := fun p => valueAt_of_isEmpty blanks p he
          simp only [valueAt, children, child_removeChild, cons.injEq]
          by_cases hs : key = k'
          · subst hs
            have hh : valueAt blank p' (prune isBlank change path c) = _ := ih c
            rw [hg] at hh
            simpa [hf] using hh
          · simp [hs]
        next =>
          simp only [valueAt, children, child_setChild, cons.injEq]
          by_cases hs : key = k'
          · subst hs
            simp [hf, ih]
          · simp [hs]

omit blanks in
lemma prune_ordered (p : List κ) (ho : t.Ordered) : (prune isBlank change p t).Ordered := by
  induction p generalizing t with
  | nil =>
    obtain ⟨hs, hb⟩ := ho
    exact .node hs hb
  | cons key p ih =>
    obtain ⟨v, cs⟩ := t
    rw [prune]
    cases hf : Trie.child key cs with
    | none => exact ho
    | some c =>
      dsimp only
      split
      · obtain ⟨hs, hb⟩ := ho
        exact .node (hs.filter _) fun c hm => hb c (mem_of_mem_filter hm)
      · exact ho.setChild (ih (ho.child hf))

omit blanks in
lemma child_pruneChildren (ho : cs.Pairwise (·.1 < ·.1)) : child key (pruneChildren isBlank change cs) =
    (child key cs).bind fun c => if (pruneAll isBlank change c).isEmpty isBlank then none else some (pruneAll isBlank change c) := by
  induction cs with
  | nil => rfl
  | cons hd cs ih =>
    obtain ⟨k, c⟩ := hd
    obtain ⟨ha, hr⟩ := pairwise_cons.mp ho
    rw [pruneChildren, child_cons]
    by_cases hs : k = key
    · subst hs
      have none : child k cs = none := child_eq_none fun c hm => (ha c hm).ne'
      rw [if_pos rfl, bind_some]
      split
      · rw [ih hr, none]
        rfl
      · rw [child_cons, if_pos rfl]
    rw [if_neg hs]
    split
    · exact ih hr
    · rw [child_cons, if_neg hs, ih hr]

lemma valueAt_pruneAll (ha : change blank = blank) (ho : t.Ordered) (p : List κ) :
    valueAt blank p (pruneAll isBlank change t) = change (valueAt blank p t) := by
  induction p generalizing t with
  | nil =>
    obtain ⟨v, cs⟩ := t
    rfl
  | cons key p ih =>
    obtain ⟨v, cs⟩ := t
    rw [pruneAll]
    simp only [valueAt, children, child_pruneChildren ho.sorted]
    cases hf : Trie.child key cs with
    | none => exact ha.symm
    | some c =>
      have hi := ih (ho.child hf)
      dsimp only [bind_some]
      split
      next he =>
        split at he
        next hg => rw [← hi, valueAt_of_isEmpty blanks p hg]
        · cases he
      next c' hk =>
        split at hk
        · cases hk
        · cases hk
          exact hi

omit blanks [LinearOrder κ] in
lemma mem_pruneChildren {r : κ × Trie κ ν} (hm : r ∈ pruneChildren isBlank change cs) :
    ∃ c, (r.1, c) ∈ cs ∧ r.2 = pruneAll isBlank change c := by
  induction cs with
  | nil => cases hm
  | cons hd cs ih =>
    obtain ⟨k, c⟩ := hd
    rw [pruneChildren] at hm
    split at hm
    · obtain ⟨c', hi, hs⟩ := ih hm
      exact ⟨c', mem_cons_of_mem _ hi, hs⟩
    rcases mem_cons.mp hm with rfl | hl
    · exact ⟨c, mem_cons_self .., rfl⟩
    · obtain ⟨c', hi, hs⟩ := ih hl
      exact ⟨c', mem_cons_of_mem _ hi, hs⟩

omit blanks in
lemma sorted_pruneChildren (hs : cs.Pairwise (·.1 < ·.1)) : (pruneChildren isBlank change cs).Pairwise (·.1 < ·.1) := by
  induction cs with
  | nil =>
    exact .nil
  | cons hd cs ih =>
    obtain ⟨k, c⟩ := hd
    obtain ⟨ha, hr⟩ := pairwise_cons.mp hs
    rw [pruneChildren]
    split
    · exact ih hr
    refine pairwise_cons.mpr ⟨fun r hm => ?_, ih hr⟩
    obtain ⟨c', hi, -⟩ := mem_pruneChildren hm
    exact ha (r.1, c') hi

omit blanks in
lemma pruneAll_ordered (ho : t.Ordered) : (pruneAll isBlank change t).Ordered := by
  induction ho with
  | node hs hb ih =>
    refine .node (sorted_pruneChildren hs) fun r hm => ?_
    obtain ⟨c, hi, ha⟩ := mem_pruneChildren hm
    exact ha ▸ ih _ hi

end Trie

end Cnetmod.Coding
