import Cnetmod.Coding.Levels
import Cnetmod.Coding.Bits

/-!
# Topic names and filters

`topic_filter.cppm` and the parsing of shared subscriptions in
`mqtt_shared_subscription.cpp`.
-/
namespace Cnetmod.Mqtt

open Coding (Bytes ascii matchLevels)

def slash : UInt8 := 47
def plus : UInt8 := 43
def hash : UInt8 := 35
def dollar : UInt8 := 36

/-- The checks on the character at `i`, given the characters before and after it. -/
def validFilterAt (before after : Option UInt8) (ch : UInt8) : Bool :=
  ch ≠ 0 &&
  !(ch = plus && (before.any (· ≠ slash) || after.any (· ≠ slash))) &&
  !(ch = hash && (after.isSome || before.any (· ≠ slash)))

def validFilterFrom : Option UInt8 → Bytes → Bool
  | _, [] => true
  | before, ch :: rest => validFilterAt before rest.head? ch && validFilterFrom (some ch) rest

def validateTopicFilter (filter : Bytes) : Bool :=
  !filter.isEmpty && filter.length ≤ 65535 && validFilterFrom none filter

def validateTopicName (name : Bytes) : Bool :=
  !name.isEmpty && name.length ≤ 65535 && name.all fun ch => ch ≠ 0 && ch ≠ plus && ch ≠ hash

/-- The levels from a point inside the level that begins with `level`. A slash at the
end gives two empty levels: one is added for it, the other is what follows it. -/
def splitFrom (level : Bytes) : Bytes → List Bytes
  | [] => [level]
  | ch :: rest =>
    if ch = slash then
      if rest.isEmpty then level :: [] :: splitFrom [] rest
      else level :: splitFrom [] rest
    else splitFrom (level ++ [ch]) rest

def splitTopic (topic : Bytes) : List Bytes := splitFrom [] topic

def topicMatches (filter name : Bytes) : Bool :=
  if name.head? = some dollar ∧ (filter.head? = some hash ∨ filter.head? = some plus) then false
  else matchLevels (ascii "+") (ascii "#") (splitTopic filter) (splitTopic name)

structure ShareNameTopicFilter where
  shareName : Bytes
  topicFilter : Bytes

def sharedMark : Bytes := "$share/"

def parseSharedSubscription (wholeFilter : Bytes) : Option ShareNameTopicFilter :=
  if sharedMark.isPrefixOf wholeFilter then
    let rest := wholeFilter.drop sharedMark.length
    let shareName := rest.takeWhile (· ≠ slash)
    let topicFilter := rest.drop (shareName.length + 1)
    if shareName.length = rest.length then none
    else if shareName.isEmpty || topicFilter.isEmpty then none
    else some ⟨shareName, topicFilter⟩
  else some ⟨[], wholeFilter⟩

def extractTopicFilter (filter : Bytes) : Bytes :=
  match parseSharedSubscription filter with
  | some parsed => parsed.topicFilter
  | none => filter

end Cnetmod.Mqtt
