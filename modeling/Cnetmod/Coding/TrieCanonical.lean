import Mathlib.Data.List.Perm.Basic
import Cnetmod.Coding.Trie

/-!
# Tries without dead branches

When each child leads to a value, a trie is known from the values at its paths.
-/
namespace Cnetmod.Coding.Trie

variable {κ ν : Type*} [LinearOrder κ] {bk : ν} {isBlank : ν → Bool} {key : κ} {t t' c : Trie κ ν}
  {cs : List (κ × Trie κ ν)} {path : List κ} {change : ν → ν} {v : ν}

/-- Some value is in the trie. -/
def Inhabited (blank : ν) (t : Trie κ ν) : Prop := ∃ path, valueAt blank path t ≠ blank

/-- Every child leads to a value. -/
inductive Live (blank : ν) : Trie κ ν → Prop where
  | node {value : ν} {children : List (κ × Trie κ ν)} (below : ∀ c ∈ children, Live blank c.2)
    (occupied : ∀ c ∈ children, Inhabited blank c.2) : Live blank (node value children)

namespace Live

lemma leaf (v : ν) : Live bk (Trie.node v [] : Trie κ ν) := .node (by simp) (by simp)

lemma child (hl : Live bk (Trie.node v cs)) (hf : Trie.child key cs = some c) : Live bk c ∧ Inhabited bk c := by
  obtain ⟨hb, ho⟩ := hl
  exact ⟨hb _ (mem_of_child hf), ho _ (mem_of_child hf)⟩

lemma setChild (hl : Live bk (Trie.node v cs)) (new : Live bk t) (some : Inhabited bk t) :
    Live bk (Trie.node v (Trie.setChild key t cs)) := by
  obtain ⟨hb, ho⟩ := hl
  refine .node (fun c hm => ?_) fun c hm => ?_
  · rcases mem_setChild hm with rfl | old
    · exact new
    · exact hb c old
  rcases mem_setChild hm with rfl | old
  · exact some
  · exact ho c old

lemma removeChild (hl : Live bk (Trie.node v cs)) : Live bk (Trie.node v (Trie.removeChild key cs)) := by
  obtain ⟨hb, ho⟩ := hl
  exact .node (fun c hm => hb c (List.mem_of_mem_filter hm)) fun c hm => ho c (List.mem_of_mem_filter hm)

lemma insert (hl : Live bk t) (some : change (valueAt bk p t) ≠ bk) : Live bk (Trie.insert bk change p t) := by
  induction p generalizing t with
  | nil =>
    obtain ⟨hb, ho⟩ := hl
    exact .node hb ho
  | cons key p ih =>
    obtain ⟨v, cs⟩ := t
    have hb : Live bk ((Trie.child key cs).getD (Trie.node bk [])) := by
      cases hf : Trie.child key cs with
      | none => exact leaf bk
      | some c => exact (hl.child hf).1
    have hs : valueAt bk p ((Trie.child key cs).getD (Trie.node bk [])) = valueAt bk (key :: p) (Trie.node v cs) := by
      rw [valueAt, Trie.children]
      cases Trie.child key cs with
      | none => exact valueAt_leaf p
      | some c => rfl
    refine hl.setChild (ih hb (hs ▸ some)) ⟨p, ?_⟩
    rw [valueAt_insert, if_pos rfl, hs]
    exact some

variable (blanks : ∀ v, isBlank v = true ↔ v = bk)
include blanks

/-- A trie without dead branches that is not empty has a value. -/
lemma inhabited (hl : Live bk t) (ho : ¬ t.isEmpty isBlank = true) : Inhabited bk t := by
  obtain ⟨v, cs⟩ := t
  by_cases hh : v = bk
  · cases cs with
    | nil =>
      refine absurd ?_ ho
      simp [isEmpty, (blanks v).mpr hh]
    | cons hd cs =>
      obtain ⟨key, c⟩ := hd
      have hf : Trie.child key ((key, c) :: cs) = some c := by rw [child_cons, if_pos rfl]
      obtain ⟨-, p, ht⟩ := hl.child hf
      refine ⟨key :: p, ?_⟩
      rwa [valueAt, Trie.children, child_cons, if_pos rfl]
  · exact ⟨[], hh⟩

lemma prune (hl : Live bk t) : Live bk (Trie.prune isBlank change p t) := by
  induction p generalizing t with
  | nil =>
    obtain ⟨hb, ho⟩ := hl
    exact .node hb ho
  | cons key p ih =>
    obtain ⟨v, cs⟩ := t
    rw [Trie.prune]
    cases hf : Trie.child key cs with
    | none => exact hl
    | some c =>
      have hb := ih (hl.child hf).1
      dsimp only
      split
      · exact hl.removeChild
      next ho => exact hl.setChild hb (inhabited blanks hb ho)

end Live

lemma child_of_mem (hs : cs.Pairwise (·.1 < ·.1)) (hm : (key, c) ∈ cs) : child key cs = some c := by
  induction cs with
  | nil => cases hm
  | cons hd cs ih =>
    obtain ⟨hb, hr⟩ := List.pairwise_cons.mp hs
    rw [child_cons]
    rcases List.mem_cons.mp hm with hsa | hl
    · cases hsa
      rw [if_pos rfl]
    · rw [if_neg (hb _ hl).ne, ih hr hl]

/-- Children in order are known from what is found under each key. -/
lemma children_ext {cs' : List (κ × Trie κ ν)} (hs : cs.Pairwise (·.1 < ·.1)) (ho : cs'.Pairwise (·.1 < ·.1))
    (ha : ∀ key, child key cs = child key cs') : cs = cs' := by
  have hn {l : List (κ × Trie κ ν)} (hs : l.Pairwise (·.1 < ·.1)) : l.Nodup :=
    hs.imp fun hl ha => hl.ne (congrArg Prod.fst ha)
  have he : cs.Perm cs' := by
    refine (List.perm_ext_iff_of_nodup (hn hs) (hn ho)).mpr fun r => ?_
    exact ⟨fun hm => mem_of_child ((ha r.1).symm.trans (child_of_mem hs hm)),
      fun hm => mem_of_child ((ha r.1).trans (child_of_mem ho hm))⟩
  exact he.eq_of_pairwise (fun _ _ _ _ hl hb => absurd hb hl.asymm) hs ho

lemma valueAt_cons (key : κ) (p : List κ) (t : Trie κ ν) :
    valueAt bk (key :: p) t = ((child key t.children).map (valueAt bk p)).getD bk := by
  rw [valueAt]
  cases child key t.children <;> rfl

lemma Live.ext (hr : t.Ordered) (hv : Live bk t) (ho : t'.Ordered) (hl : Live bk t')
    (hc : ∀ p, valueAt bk p t = valueAt bk p t') : t = t' := by
  induction hr generalizing t' with
  | @node v cs hso hb ih =>
    obtain ⟨v', cs'⟩ := t'
    obtain rfl : v = v' := hc []
    have ha (key : κ) (p : List κ) : ((Trie.child key cs).map (valueAt bk p)).getD bk =
        ((Trie.child key cs').map (valueAt bk p)).getD bk := by
      have := hc (key :: p)
      rwa [valueAt_cons, valueAt_cons] at this
    refine congrArg (Trie.node v) (children_ext hso ho.sorted fun key => ?_)
    cases hf : Trie.child key cs with
    | none =>
      cases hs : Trie.child key cs' with
      | none => rfl
      | some c' =>
        obtain ⟨-, p, ht⟩ := hl.child hs
        have := ha key p
        rw [hf, hs] at this
        exact absurd this.symm ht
    | some c =>
      obtain ⟨he, p, ht⟩ := hv.child hf
      cases hs : Trie.child key cs' with
      | none =>
        have := ha key p
        rw [hf, hs] at this
        exact absurd this ht
      | some c' =>
        refine congrArg some (ih _ (mem_of_child hf) he (ho.child hs) (hl.child hs).1 fun p => ?_)
        have := ha key p
        rwa [hf, hs] at this

end Cnetmod.Coding.Trie
