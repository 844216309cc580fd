import Mathlib.Data.List.Basic
import Cnetmod.Mqtt.Source.Security

/-!
# Authorized subscriptions

A SUBSCRIBE is checked by matching the rules against its filter as if that were the name
of a topic. A filter that passes covers topics the rules deny if a later rule is about
some of its topics only, or if the rule that let it pass is about one of its levels only.
-/
namespace Cnetmod.Mqtt

open List

open Coding (Bytes ascii matchLevels coversLevels overlapLevels)

variable {rule filter topic : Bytes}

/-- Every topic the filter matches is matched by the filter of the rule. -/
def topicCovers (rule filter : Bytes) : Bool :=
  !(filter.head? = some dollar && (rule.head? = some hash || rule.head? = some plus)) &&
    coversLevels (ascii "+") (ascii "#") (splitTopic rule) (splitTopic filter)

/-- Some topic may be matched by both filters. -/
def topicOverlaps (rule filter : Bytes) : Bool :=
  overlapLevels (ascii "+") (ascii "#") (splitTopic rule) (splitTopic filter)

lemma splitFrom_head (level topic : Bytes) :
    ∃ levels, splitFrom level topic = (level ++ topic.takeWhile (· ≠ slash)) :: levels := by
  induction topic generalizing level with
  | nil => exact ⟨[], by simp [splitFrom]⟩
  | cons ch topic ih =>
    rw [splitFrom]
    split
    next cut => split <;> exact ⟨_, by simp [cut]; rfl⟩
    next inside =>
      obtain ⟨levels, split⟩ := ih (level ++ [ch])
      exact ⟨levels, by simp [split, inside]⟩

/-- Filters that match a topic with `$` in front have it in front. -/
lemma head_of_matches (matched : topicMatches filter topic = true) (special : topic.head? = some dollar) :
    filter.head? = some dollar := by
  obtain ⟨levels, hlevels⟩ := splitFrom_head [] filter
  obtain ⟨names, hnames⟩ := splitFrom_head [] topic
  have head (t : Bytes) : (t.takeWhile (· ≠ slash)).head? = t.head?.filter (· ≠ slash) := head?_takeWhile
  rw [nil_append] at hlevels hnames
  rw [topicMatches, splitTopic, splitTopic, hlevels, hnames] at matched
  split at matched
  · cases matched
  next plain =>
    have name : (topic.takeWhile (· ≠ slash)).head? = some dollar := by rw [head, special]; rfl
    simp only [special, true_and, not_or] at plain
    have begins {ch : UInt8} (h : (filter.takeWhile (· ≠ slash)).head? = some ch) : filter.head? = some ch :=
      (Option.filter_eq_some_iff.mp ((head filter).symm.trans h)).1
    rw [matchLevels] at matched
    split at matched
    next any => exact absurd (begins (any ▸ rfl)) plain.1
    simp only [Bool.and_eq_true, Bool.or_eq_true, decide_eq_true_eq] at matched
    rcases matched.1 with one | same
    · exact absurd (begins (one ▸ rfl)) plain.2
    · exact begins (same ▸ name)

lemma topicMatches_of_covers (covers : topicCovers rule filter = true)
    (matched : topicMatches filter topic = true) : topicMatches rule topic = true := by
  simp only [topicCovers, Bool.and_eq_true, Bool.not_eq_true'] at covers
  have plain : ¬ (topic.head? = some dollar ∧ (rule.head? = some hash ∨ rule.head? = some plus)) := by
    rintro ⟨special, wild⟩
    simp only [head_of_matches matched special, decide_true, Bool.true_and, Bool.or_eq_false_iff,
      decide_eq_false_iff_not] at covers
    exact wild.elim covers.1.1 covers.1.2
  have levels : matchLevels (ascii "+") (ascii "#") (splitTopic filter) (splitTopic topic) = true := by
    rw [topicMatches] at matched
    split at matched
    · cases matched
    · exact matched
  rw [topicMatches, if_neg plain]
  exact Coding.matchLevels_of_covers covers.2 levels

lemma topicOverlaps_of_matches (first : topicMatches rule topic = true)
    (second : topicMatches filter topic = true) : topicOverlaps rule filter = true := by
  rw [topicMatches] at first second
  split at first
  · cases first
  split at second
  · cases second
  · exact Coding.overlapLevels_of_match first second

namespace SecurityConfig

variable {c : SecurityConfig} {username : Bytes}

/-- A subscription to the filter, if allowed, covers only topics the user may subscribe to. -/
def CoversAllowed (c : SecurityConfig) (username filter : Bytes) : Prop :=
  c.authorizeSubscribe username (extractTopicFilter filter) = true → ∀ topic,
    validateTopicName topic = true → topicMatches (extractTopicFilter filter) topic = true →
      c.authorizeSubscribe username topic = true

/-- The rule is for one of the user's groups. -/
def concerns (c : SecurityConfig) (username : Bytes) (rule : AuthRule) : Bool :=
  matchesGroups rule.groups (c.getUserGroups username)

/-- One of the rules lets the user subscribe to all the filter covers, and no later one is about any of it but
to allow it. -/
def allowsAll (c : SecurityConfig) (username filter : Bytes) : List AuthRule → Bool
  | [] => false
  | rule :: later =>
    c.allowsAll username filter later ||
      rule.subAction = .allow && c.concerns username rule && topicCovers rule.topicFilter filter &&
        later.all fun next =>
          next.subAction = .allow || !c.concerns username next || !topicOverlaps next.topicFilter filter

/-- The loop over rules that allow or do not apply. -/
lemma foldl_allowed {rules : List AuthRule} {allowed : Bool} (before : allowed = true)
    (allow : ∀ rule ∈ rules, c.applies username topic rule = true → rule.subAction = .allow) :
    rules.foldl (fun allowed rule =>
      if c.applies username topic rule then decide (rule.subAction = .allow) else allowed) allowed = true := by
  induction rules generalizing allowed with
  | nil => exact before
  | cons rule rules ih =>
    refine ih ?_ fun next member => allow next (mem_cons_of_mem _ member)
    dsimp only
    split
    next applies => exact decide_eq_true (allow rule mem_cons_self applies)
    · exact before

lemma foldl_of_allowsAll {rules : List AuthRule} (allows : c.allowsAll username filter rules = true)
    (matched : topicMatches filter topic = true) (allowed : Bool) :
    rules.foldl (fun allowed rule =>
      if c.applies username topic rule then decide (rule.subAction = .allow) else allowed) allowed = true := by
  induction rules generalizing allowed with
  | nil => cases allows
  | cons rule later ih =>
    rw [allowsAll, Bool.or_eq_true] at allows
    rcases allows with after | here
    · exact ih after _
    simp only [Bool.and_eq_true, decide_eq_true_eq, all_eq_true, Bool.or_eq_true, Bool.not_eq_true'] at here
    obtain ⟨⟨⟨allow, concerns⟩, covers⟩, harmless⟩ := here
    rw [foldl_cons]
    refine foldl_allowed ?_ fun next member applies => ?_
    · have applies : c.applies username topic rule = true := by
        rw [SecurityConfig.applies, topicMatches_of_covers covers matched]
        exact concerns
      simp [applies, allow]
    obtain ⟨about, concerned⟩ := Bool.and_eq_true_iff.mp applies
    rcases harmless next member with (allow | other) | apart
    · exact allow
    · exact absurd concerned (Bool.eq_false_iff.mp other)
    · exact absurd (topicOverlaps_of_matches about matched) (Bool.eq_false_iff.mp apart)

/-- Everything but what is below `secret` may be subscribed to: a subscription to everything passes. -/
def secretRules : SecurityConfig where
  rules := [{ topicFilter := "#", subAction := .allow }, { topicFilter := "secret/#" }]

end SecurityConfig

end Cnetmod.Mqtt
