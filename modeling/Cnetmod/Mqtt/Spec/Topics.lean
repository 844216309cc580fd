import Mathlib.Data.List.Infix
import Cnetmod.Mqtt.Source.TopicFilter

/-!
# Names made of levels

Every name is the join of levels without slashes, and is known from them.
-/
namespace Cnetmod.Mqtt

open List

open Coding (Bytes)

def joinLevels : List Bytes → Bytes
  | [] => []
  | [level] => level
  | level :: next :: levels => level ++ slash :: joinLevels (next :: levels)

/-- The levels `splitTopic` gives: an empty one at the end comes twice. -/
def splitLevels : List Bytes → List Bytes
  | [] => []
  | [level] => [level]
  | level :: next :: levels =>
    if next = [] ∧ levels = [] then [level, [], []] else level :: splitLevels (next :: levels)

variable {level : Bytes}

lemma splitFrom_append (hp : slash ∉ l) (n0 tl : Bytes) : splitFrom n0 (l ++ tl) = splitFrom (n0 ++ l) tl := by
  induction l generalizing n0 with
  | nil => simp
  | cons ch l ih =>
    rw [mem_cons, not_or] at hp
    rw [cons_append, splitFrom, if_neg (Ne.symm hp.1), ih hp.2, append_assoc]
    rfl

lemma joinLevels_eq_nil_iff : joinLevels (level :: ls) = [] ↔ level = [] ∧ ls = [] := by
  cases ls <;> simp [joinLevels]

lemma splitTopic_joinLevels (ha : ls ≠ []) (hp : ∀ v ∈ ls, slash ∉ v) : splitTopic (joinLevels ls) = splitLevels ls := by
  induction ls with
  | nil => exact absurd rfl ha
  | cons v ls ih =>
    have hf := hp v (by simp)
    cases ls with
    | nil =>
      have hw := splitFrom_append hf [] []
      rwa [append_nil] at hw
    | cons next ls =>
      have hr := ih (by simp) fun l hm => hp l (by simp [mem_cons.mp hm])
      rw [joinLevels, splitTopic, splitFrom_append hf, splitFrom, if_pos rfl, splitLevels]
      by_cases he : next = [] ∧ ls = []
      · obtain ⟨rfl, rfl⟩ := he
        rfl
      have hg : (joinLevels (next :: ls)).isEmpty = false := by
        rw [isEmpty_eq_false_iff, Ne, joinLevels_eq_nil_iff]
        exact he
      rw [if_neg (by simp [hg]), if_neg he]
      exact congrArg (v :: ·) hr

lemma exists_joinLevels (t : Bytes) : ∃ ls, ls ≠ [] ∧ (∀ v ∈ ls, slash ∉ v) ∧ joinLevels ls = t := by
  induction t with
  | nil => exact ⟨[[]], by simp, by simp, rfl⟩
  | cons ch t ih =>
    obtain ⟨ls, hp, hl, rfl⟩ := ih
    by_cases cut : ch = slash
    · obtain ⟨v, ls, rfl⟩ := exists_cons_of_ne_nil hp
      exact ⟨[] :: v :: ls, by simp, by simpa using hl, by simp [joinLevels, cut]⟩
    obtain ⟨v, ls, rfl⟩ := exists_cons_of_ne_nil hp
    refine ⟨(ch :: v) :: ls, by simp, ?_, ?_⟩
    · intro l hm
      rcases mem_cons.mp hm with rfl | hm
      · rw [mem_cons, not_or]
        exact ⟨Ne.symm cut, hl v (by simp)⟩
      · exact hl l (by simp [hm])
    · cases ls <;> rfl

lemma splitLevels_ne_nil (hp : ls ≠ []) : splitLevels ls ≠ [] := by
  obtain ⟨l, ls, rfl⟩ := exists_cons_of_ne_nil hp
  cases ls with
  | nil => simp [splitLevels]
  | cons next ls =>
    rw [splitLevels]
    split <;> simp

lemma splitTopic_ne_nil (t : Bytes) : splitTopic t ≠ [] := by
  obtain ⟨ls, hp, hl, rfl⟩ := exists_joinLevels t
  rw [splitTopic_joinLevels hp hl]
  exact splitLevels_ne_nil hp

lemma splitLevels_eq (l : Bytes) (ls : List Bytes) : splitLevels (l :: ls) =
    if ls.getLast? = some [] then (l :: ls) ++ [[]] else l :: ls := by
  induction ls generalizing l with
  | nil => rfl
  | cons next ls ih =>
    rw [splitLevels, ih next]
    cases ls with
    | nil => by_cases he : next = [] <;> simp [he]
    | cons o ls =>
      rw [if_neg (by simp), getLast?_cons_cons]
      split <;> simp

/-- A name is known from its levels. -/
lemma splitTopic_injective (hs : splitTopic n = splitTopic name') : n = name' := by
  obtain ⟨ls, hr, ha, rfl⟩ := exists_joinLevels n
  obtain ⟨levels', hp, hl, rfl⟩ := exists_joinLevels name'
  rw [splitTopic_joinLevels hr ha, splitTopic_joinLevels hp hl] at hs
  obtain ⟨l, ls, rfl⟩ := exists_cons_of_ne_nil hr
  obtain ⟨level', levels', rfl⟩ := exists_cons_of_ne_nil hp
  rw [splitLevels_eq, splitLevels_eq] at hs
  split at hs
  next he =>
    split at hs
    · rw [append_cancel_right hs]
    rename_i ho
    obtain ⟨rfl, rfl⟩ := cons.inj hs.symm
    simp at ho
  next ho =>
    split at hs
    next he =>
      obtain ⟨rfl, rfl⟩ := cons.inj hs
      simp at ho
    · rw [hs]

end Cnetmod.Mqtt
