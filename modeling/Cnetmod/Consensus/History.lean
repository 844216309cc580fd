import Mathlib.Data.List.Infix
import Cnetmod.Consensus.Quorum

/-!
# Histories of leader-based log replication

Nodes vote in numbered terms, the winner of a term extends its log with entries
of that term and other nodes copy prefixes of it. A `History` remembers what was
ever done: every vote with the log it was cast over, every candidacy, the log of
each term's leader when it was elected and as far as it has grown, and how much
of it each node has acknowledged in that term.

`Step` lists what may happen. Where a copied log comes from is a parameter
`source`: log matching only needs it to be a sound log, leader completeness needs
it to be the log of the term's leader.
-/
namespace Cnetmod.Consensus

variable {N E : Type*}

structure History (N E : Type*) where
  term : N → Nat
  log : N → List E
  vote : N → Nat → Option N
  voteLog : N → Nat → List E
  cand : N → Nat → Option (List E)
  lead : Nat → Option N
  elog : Nat → List E
  llog : Nat → List E
  ack : N → Nat → Nat

/-- Nothing has happened yet. -/
def History.start : History N E where
  term _ := 0
  log _ := []
  vote _ _ := none
  voteLog _ _ := []
  cand _ _ := none
  lead _ := none
  elog _ := []
  llog _ := []
  ack _ _ := 0

/-- `h'` remembers everything `h` does. -/
structure History.Extends (h h' : History N E) : Prop where
  term : ∀ n, h.term n ≤ h'.term n
  vote : ∀ {n t c}, h.vote n t = some c → h'.vote n t = some c
  cand : ∀ {n t l}, h.cand n t = some l → h'.cand n t = some l
  lead : ∀ {t c}, h.lead t = some c → h'.lead t = some c
  elog : ∀ {t}, h.lead t ≠ none → h'.elog t = h.elog t
  llog : ∀ {t}, h.lead t ≠ none → h.llog t <+: h'.llog t
  ack : ∀ n t, h.ack n t ≤ h'.ack n t

lemma History.Extends.refl (h : History N E) : h.Extends h :=
  ⟨fun _ => le_rfl, id, id, id, fun _ => rfl, fun _ => List.prefix_rfl, fun _ _ => le_rfl⟩

variable {t s : Nat} {h' h : History N E} {n m : N}

lemma History.Extends.lead_ne (ext : h.Extends h') (led : h.lead t ≠ none) : h'.lead t ≠ none := by
  obtain ⟨c, hl⟩ := Option.ne_none_iff_exists'.mp led
  simp [ext.lead hl]

lemma History.Extends.trans {h'' : History N E} (ab : h.Extends h') (bc : h'.Extends h'') : h.Extends h'' where
  term n := (ab.term n).trans (bc.term n)
  vote hv := bc.vote (ab.vote hv)
  cand hs := bc.cand (ab.cand hs)
  lead hl := bc.lead (ab.lead hl)
  elog led := (bc.elog (ab.lead_ne led)).trans (ab.elog led)
  llog led := (ab.llog led).trans (bc.llog (ab.lead_ne led))
  ack n t := (ab.ack n t).trans (bc.ack n t)

variable [DecidableEq N]

/-- Overwrite one cell of a two-place table. -/
def put {β : Type*} (f : N → Nat → β) (n : N) (t : Nat) (v : β) : N → Nat → β :=
  Function.update f n (Function.update (f n) t v)

lemma put_same {β : Type*} (f : N → Nat → β) (n : N) (t : Nat) (v : β) : put f n t v n t = v := by
  simp [put]

lemma put_ne {β : Type*} (f : N → Nat → β) (v : β) (ha : m ≠ n ∨ s ≠ t) : put f n t v m s = f m s := by
  by_cases he : m = n
  · subst he
    have : s ≠ t := by rcases ha with bad | ok <;> simp_all
    simp [put, this]
  · simp [put, he]

lemma put_cases {β : Type*} {f : N → Nat → β} {v w : β}
    (h : put f n t v m s = w) : (m = n ∧ s = t ∧ v = w) ∨ ((m ≠ n ∨ s ≠ t) ∧ f m s = w) := by
  by_cases hit : m = n ∧ s = t
  · obtain ⟨rfl, rfl⟩ := hit
    exact .inl ⟨rfl, rfl, by rwa [put_same] at h⟩
  · have ha : m ≠ n ∨ s ≠ t := by tauto
    exact .inr ⟨ha, by rwa [put_ne f v ha] at h⟩

/-- Filling an empty cell keeps what the table already holds. -/
lemma put_keeps {β : Type*} {f : N → Nat → Option β} {v w : β}
    (hv : f n t = none) (hh : f m s = some w) : put f n t (some v) m s = some w := by
  have ha : m ≠ n ∨ s ≠ t := by
    by_contra hs
    simp only [not_or, not_not] at hs
    simp [hs.1, hs.2, hv] at hh
  rwa [put_ne f _ ha]

/-- Copy a source log over one's own, unless one already has all of it. -/
def merge [DecidableEq E] (own source : List E) : List E :=
  if source <+: own then own else source

def lastTerm (tm : E → Nat) (log : List E) : Nat := (log.getLast?.map tm).getD 0

/-- The comparison a voter makes: later last term, or the same and no shorter. -/
def UpToDate (tm : E → Nat) (candidate voter : List E) : Prop :=
  lastTerm tm voter < lastTerm tm candidate ∨ (lastTerm tm voter = lastTerm tm candidate ∧ voter.length ≤ candidate.length)

inductive Step [DecidableEq E] (qs : QuorumSystem N) (tm : E → Nat)
    (source : History N E → Nat → List E → Prop) : History N E → History N E → Prop where
  | advance (h : History N E) (n : N) (t : Nat) (later : h.term n < t) :
      Step qs tm source h { h with term := Function.update h.term n t }
  | stand (h : History N E) (n : N) (t : Nat) (later : h.term n < t) :
      Step qs tm source h
        { h with
          term := Function.update h.term n t
          vote := put h.vote n t (some n)
          voteLog := put h.voteLog n t (h.log n)
          cand := put h.cand n t (some (h.log n)) }
  | grant (h : History N E) (n c : N) (candLog : List E)
      (unspent : h.vote n (h.term n) = none) (stands : h.cand c (h.term n) = some candLog)
      (current : UpToDate tm candLog (h.log n)) :
      Step qs tm source h
        { h with
          vote := put h.vote n (h.term n) (some c)
          voteLog := put h.voteLog n (h.term n) (h.log n) }
  | win (h : History N E) (c : N) (t : Nat) (candLog : List E) (Q : Set N)
      (vacant : h.lead t = none) (stands : h.cand c t = some candLog) (quorum : qs.isQuorum Q)
      (elected : ∀ q ∈ Q, h.vote q t = some c) :
      Step qs tm source h
        { h with
          lead := Function.update h.lead t (some c)
          elog := Function.update h.elog t candLog
          llog := Function.update h.llog t candLog }
  | append (h : History N E) (c : N) (e : E) (leads : h.lead (h.term c) = some c)
      (own : h.log c = h.llog (h.term c)) (stamped : tm e = h.term c) :
      Step qs tm source h
        { h with
          log := Function.update h.log c (h.log c ++ [e])
          llog := Function.update h.llog (h.term c) (h.log c ++ [e]) }
  | accept (h : History N E) (n : N) (copied : List E) (origin : source h (h.term n) copied) :
      Step qs tm source h { h with log := Function.update h.log n (merge (h.log n) copied) }
  | acknowledge (h : History N E) (n : N) (m : Nat) (led : h.lead (h.term n) ≠ none)
      (within : m ≤ (h.llog (h.term n)).length)
      (holds : (h.llog (h.term n)).take m <+: h.log n) :
      Step qs tm source h { h with ack := put h.ack n (h.term n) (max (h.ack n (h.term n)) m) }

end Cnetmod.Consensus
