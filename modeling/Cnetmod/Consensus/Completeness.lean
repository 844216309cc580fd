import Cnetmod.Consensus.LogMatching

/-!
# Leader completeness

A position of a term's leader log is *committed* once a quorum has acknowledged
it in that term and it was appended in that term. Here copies come from the
leader of the copier's term, which is what makes acknowledgements worth
something. Committed prefixes are then part of the log of every later leader,
and any two of them agree.

The induction is carried by `CommitInv`. Each of its clauses says that an
acknowledged prefix is still where it was acknowledged, unless a quorum has moved
on without acknowledging it, in which case it will never be committed.
-/
namespace Cnetmod.Consensus

open List Function

variable {N E : Type*}

/-- Copies come from the log of the leader of the copier's term. -/
def FromLeader (h : History N E) (t : Nat) (copied : List E) : Prop :=
  h.lead t ≠ none ∧ copied <+: h.llog t

/-- A quorum has left term `T` without acknowledging position `c`. -/
def Blocked (qs : QuorumSystem N) (h : History N E) (T c : Nat) : Prop :=
  ∃ Q, qs.isQuorum Q ∧ ∀ q ∈ Q, T < h.term q ∧ h.ack q T < c

/-- The first `c` entries of term `T`'s leader are committed. -/
structure Committed (qs : QuorumSystem N) (h : History N E) (T c : Nat) : Prop where
  led : h.lead T ≠ none
  own : (h.elog T).length < c
  quorum : ∃ Q, qs.isQuorum Q ∧ ∀ q ∈ Q, c ≤ h.ack q T

structure CommitInv (qs : QuorumSystem N) (h : History N E) : Prop where
  acks : ∀ {q T}, 0 < h.ack q T → h.lead T ≠ none ∧ h.ack q T ≤ (h.llog T).length ∧ T ≤ h.term q
  held : ∀ {q T c}, (h.elog T).length < c → c ≤ h.ack q T → (h.llog T).take c <+: h.log q ∨ Blocked qs h T c
  voteHeld : ∀ {q T T' c}, T < T' → h.vote q T' ≠ none → (h.elog T).length < c →
    c ≤ h.ack q T → (h.llog T).take c <+: h.voteLog q T' ∨ Blocked qs h T c
  complete : ∀ {T T' c}, h.lead T ≠ none → h.lead T' ≠ none → T < T' →
    (h.elog T).length < c →
    (c ≤ (h.llog T).length ∧ (h.llog T).take c <+: h.elog T') ∨ Blocked qs h T c

variable {qs : QuorumSystem N} {tm : E → Nat} {h h' : History N E}

lemma CommitInv.start : CommitInv qs (History.start : History N E) where
  acks := by simp [History.start]
  held := by
    intro q T c hl ha
    simp [History.start] at hl ha
    omega
  voteHeld := by simp [History.start]
  complete := by simp [History.start]

variable {c T T' t k bound i : Nat} {log copied whole own : List E}

/-- Positions already there keep their content when the leader's log grows. -/
lemma take_llog (ext : h.Extends h') (led : h.lead T ≠ none)
    (hw : c ≤ (h.llog T).length) : (h'.llog T).take c = (h.llog T).take c := by
  obtain ⟨tl, hg⟩ := ext.llog led
  rw [← hg, take_append_of_le_length hw]

lemma Committed.mono (ext : h.Extends h') (done : Committed qs h T c) : Committed qs h' T c := by
  obtain ⟨Q, hq, ha⟩ := done.quorum
  exact ⟨ext.lead_ne done.led, ext.elog done.led ▸ done.own, Q, hq, fun q hm => (ha q hm).trans (ext.ack q T)⟩

lemma Committed.not_blocked (done : Committed qs h T c) : ¬ Blocked qs h T c := by
  rintro ⟨R, hl, left⟩
  obtain ⟨Q, hq, ha⟩ := done.quorum
  obtain ⟨q, inQ, inR⟩ := qs.meet hq hl
  exact absurd (ha q inQ) (by have := (left q inR).2; omega)

lemma Committed.le_length (inv : CommitInv qs h) (done : Committed qs h T c) : c ≤ (h.llog T).length := by
  obtain ⟨Q, hq, ha⟩ := done.quorum
  obtain ⟨q, hm, _⟩ := qs.meet hq hq
  have he := ha q hm
  have := done.own
  exact he.trans (inv.acks (by omega)).2.1

/-- Leader completeness: later leaders start with every committed prefix. -/
lemma Committed.prefix_elog (inv : CommitInv qs h) (done : Committed qs h T c)
    (led : h.lead T' ≠ none) (hl : T < T') : (h.llog T).take c <+: h.elog T' := by
  rcases inv.complete done.led led hl done.own with ⟨_, hc⟩ | hb
  · exact hc
  · exact absurd hb done.not_blocked

/-- Nothing is committed in a term that some quorum has not reached. -/
lemma Committed.term_le (inv : CommitInv qs h) (done : Committed qs h T' c)
    {Q : Set N} (hq : qs.isQuorum Q) (he : ∀ q ∈ Q, h.term q ≤ T) : T' ≤ T := by
  obtain ⟨R, ha, hc⟩ := done.quorum
  obtain ⟨q, inQ, inR⟩ := qs.meet hq ha
  have hp : 0 < h.ack q T' := lt_of_lt_of_le (Nat.zero_lt_of_lt done.own) (hc q inR)
  exact (inv.acks hp).2.2.trans (he q inQ)

/-- A later leader starts at least as far as anything committed before. -/
lemma Committed.le_elog_length (inv : CommitInv qs h) (done : Committed qs h T c) (led : h.lead T' ≠ none) (hl : T < T') :
    c ≤ (h.elog T').length := by
  have hc := (done.prefix_elog inv led hl).length_le
  rwa [length_take, min_eq_left (done.le_length inv)] at hc

lemma Committed.prefix_llog (log : LogInv qs tm h) (inv : CommitInv qs h) (done : Committed qs h T c) (led : h.lead T' ≠ none) (hl : T ≤ T') :
    (h.llog T).take c <+: h.llog T' := by
  rcases Nat.eq_or_lt_of_le hl with rfl | he
  · exact take_prefix _ _
  · exact (done.prefix_elog inv led he).trans (log.leads led).2

/-- Two committed prefixes agree as far as both reach. -/
lemma Committed.agree (log : LogInv qs tm h) (inv : CommitInv qs h) {c' : Nat}
    (left : Committed qs h T c) (right : Committed qs h T' c') (ha : i < c) (hn : i < c') : (h.llog T)[i]? = (h.llog T')[i]? := by
  have ho : ∀ {T T' c : Nat}, Committed qs h T c → h.lead T' ≠ none → T ≤ T' → i < c → (h.llog T)[i]? = (h.llog T')[i]? := by
    intro T T' c done led le hi
    have hl := done.le_length inv
    have hf : ((h.llog T).take c)[i]? = some ((h.llog T).get ⟨i, by omega⟩) := by
      simp [hi, getElem?_eq_getElem (show i < (h.llog T).length by omega)]
    have := prefix_getElem? (done.prefix_llog log inv led le) hf
    rw [this, ← hf, getElem?_take, if_pos hi]
  rcases Nat.le_total T T' with le | ge
  · exact ho left right.led le ha
  · exact (ho right left.led ge hn).symm

/-- Copying from a log keeps what one shares with it. -/
lemma prefix_merge [DecidableEq E] {kept : List E} (hm : kept <+: own)
    (hh : kept <+: whole) (hp : copied <+: whole) : kept <+: merge own copied := by
  unfold merge
  split
  · exact hm
  rename_i hn
  rcases prefix_or_prefix_of_prefix hh hp with hs | hl
  · exact hs
  · exact absurd (hl.trans hm) hn

lemma copied_prefix_merge [DecidableEq E] (own cp : List E) : cp <+: merge own cp := by
  unfold merge
  split
  · assumption
  · exact prefix_rfl

/-- A sound log that ends in an entry of term `s` has all that `s`'s leader began with. -/
lemma LogInv.elog_prefix_of_lastTerm (inv : LogInv qs tm h) (hs : SoundLog tm h bound log) (hn : log ≠ []) :
    h.elog (lastTerm tm log) <+: log := by
  obtain ⟨led, hp⟩ := hs.prefix_llog hn
  refine prefix_of_prefix_length_le (inv.leads led).2 hp ?_
  by_contra hsh
  -- otherwise the last entry would be one the leader was elected with
  have hi : log <+: h.elog (lastTerm tm log) := prefix_of_prefix_length_le hp (inv.leads led).2 (by omega)
  obtain ⟨init, last, rfl⟩ := eq_nil_or_concat log |>.resolve_left hn
  have old := inv.elog_lt led (hi.subset (by simp : last ∈ init.concat last))
  rw [concat_eq_append, lastTerm_concat] at old
  exact absurd old (lt_irrefl _)

/-- A log that is as up to date as one holding an acknowledged prefix holds it too. -/
lemma prefix_of_upToDate (log : LogInv qs tm h) (inv : CommitInv qs h) {mine theirs : List E} (led : h.lead T ≠ none) (own : (h.elog T).length < c)
    (hw : c ≤ (h.llog T).length) (hm : SoundLog tm h bound mine) (ht : SoundLog tm h T' theirs) (he : ∀ e ∈ theirs, tm e < T')
    (hc : UpToDate tm theirs mine) (hh : (h.llog T).take c <+: mine) : (h.llog T).take c <+: theirs ∨ Blocked qs h T c := by
  -- the acknowledged prefix ends in an entry of term `T`
  have hf : (h.llog T)[c - 1]? = some ((h.llog T).get ⟨c - 1, by omega⟩) := by
    simp [getElem?_eq_getElem (show c - 1 < (h.llog T).length by omega)]
  have hk := log.own led (c - 1) _ hf (by omega)
  have hi : (h.llog T).get ⟨c - 1, by omega⟩ ∈ mine := by
    refine hh.subset (mem_of_getElem? (i := c - 1) ?_)
    rw [getElem?_take, if_pos (by omega), hf]
  have ha : T ≤ lastTerm tm mine := hk ▸ hm.le_lastTerm hi
  have hn : mine ≠ [] := ne_nil_of_mem hi
  have hp := log.lead_pos led
  have hg : theirs ≠ [] := by
    rintro rfl
    rcases hc with hla | ⟨hs, _⟩ <;> simp [lastTerm] at *
    omega
  obtain ⟨hl, ho⟩ := ht.prefix_llog hg
  rcases hc with hla | ⟨hs, hq⟩
  · rcases inv.complete led hl (lt_of_le_of_lt ha hla) own with
      ⟨_, hco⟩ | hb
    · exact .inl (hco.trans (log.elog_prefix_of_lastTerm ht hg))
    · exact .inr hb
  have hj := (hm.prefix_llog hn).2
  rw [hs] at hj
  exact .inl (hh.trans (prefix_of_prefix_length_le hj ho hq))

/-- The first `k` entries of a log held in term `t` are known to be committed. -/
def Settled (qs : QuorumSystem N) (h : History N E) (t : Nat) (log : List E) (k : Nat) : Prop :=
  k = 0 ∨ ∃ T c, Committed qs h T c ∧ T ≤ t ∧ k ≤ c ∧ (h.llog T).take k <+: log

lemma Settled.mono (inv : CommitInv qs h) (ext : h.Extends h') {t' : Nat}
    {log' : List E} (hl : t ≤ t') (hg : log <+: log') (hs : Settled qs h t log k) : Settled qs h' t' log' k := by
  rcases hs with none | ⟨T, c, done, due, hw, hh⟩
  · exact .inl none
  refine .inr ⟨T, c, done.mono ext, due.trans hl, hw, ?_⟩
  rw [take_llog ext done.led (hw.trans (done.le_length inv))]
  exact hh.trans hg

/-- A log copied from the current leader keeps what was settled. -/
lemma Settled.merge [DecidableEq E] (log : LogInv qs tm h) (inv : CommitInv qs h) (ho : FromLeader h t copied) (hs : Settled qs h t own k) :
    Settled qs h t (merge own copied) k := by
  rcases hs with none | ⟨T, c, done, due, hw, hh⟩
  · exact .inl none
  have ha : (h.llog T).take k <+: h.llog t := (take_prefix_take_left hw).trans (done.prefix_llog log inv ho.1 due)
  exact .inr ⟨T, c, done, due, hw, prefix_merge hh ha ho.2⟩

/-- What is settled of a log is settled of the part of it that was copied. -/
lemma Settled.copy [DecidableEq E] {m : Nat} (hs : Settled qs h t whole k) (own : List E) (ha : m ≤ k) (sz : Nat)
    (hw : m ≤ sz) : Settled qs h t (Consensus.merge own (whole.take sz)) m := by
  rcases hs with none | ⟨T, c, done, due, le, hh⟩
  · exact .inl (by omega)
  refine .inr ⟨T, c, done, due, by omega, ?_⟩
  have hp : (h.llog T).take m <+: whole.take sz := by
    refine prefix_take_iff.mpr ⟨(take_prefix_take_left ha).trans hh, ?_⟩
    have := length_take_le m (h.llog T)
    omega
  exact hp.trans (copied_prefix_merge _ _)

/-- Position `i` of a settled log holds a committed entry. -/
lemma Settled.getElem? (inv : CommitInv qs h) (hs : Settled qs h t log k) (hi : i < k) :
    ∃ T c, Committed qs h T c ∧ i < c ∧ log[i]? = (h.llog T)[i]? := by
  rcases hs with none | ⟨T, c, done, _, hw, hh⟩
  · omega
  have hl := done.le_length inv
  refine ⟨T, c, done, by omega, ?_⟩
  have hf : ((h.llog T).take k)[i]? = some ((h.llog T).get ⟨i, by omega⟩) := by
    simp [hi, getElem?_eq_getElem (show i < (h.llog T).length by omega)]
  rw [prefix_getElem? hh hf, ← hf, getElem?_take, if_pos hi]

section Preservation

variable [DecidableEq N] [DecidableEq E] {source : History N E → Nat → List E → Prop}

/-- Who has left a term acknowledges nothing in it any more. -/
lemma Blocked.step (log : LogInv qs tm h) (ht : Step qs tm source h h') {T c : Nat} (hb : Blocked qs h T c) :
    Blocked qs h' T c := by
  have ext := ht.extends log
  obtain ⟨Q, hq, left⟩ := hb
  refine ⟨Q, hq, fun q hm => ⟨lt_of_lt_of_le (left q hm).1 (ext.term q), ?_⟩⟩
  cases ht with
  | acknowledge n m led hw hh =>
    have ha : q ≠ n ∨ T ≠ h.term n := by
      by_contra hs
      simp only [not_or, not_not] at hs
      have := (left q hm).1
      rw [hs.1, hs.2] at this
      exact lt_irrefl _ this
    simpa only [put_ne _ _ ha] using (left q hm).2
  | _ => exact (left q hm).2

/-- A step that elects nobody, casts no vote and acknowledges nothing only has
to keep what nodes hold of their acknowledgements. -/
lemma CommitInv.carry (log : LogInv qs tm h) (inv : CommitInv qs h) (hs : Step qs tm source h h') (ho : h'.vote = h.vote)
    (hv : h'.voteLog = h.voteLog) (hm : h'.lead = h.lead) (hk : h'.elog = h.elog) (ack : h'.ack = h.ack)
    (hh : ∀ {q T c}, h.lead T ≠ none → c ≤ (h.llog T).length → T ≤ h.term q →
      (h.elog T).length < c → (h.llog T).take c <+: h.log q →
      (h.llog T).take c <+: h'.log q ∨ Blocked qs h T c) : CommitInv qs h' := by
  have ext := hs.extends log
  have hf : ∀ {q T c}, (h.elog T).length < c → c ≤ h.ack q T → h.lead T ≠ none ∧ c ≤ (h.llog T).length ∧ T ≤ h.term q := by
    intro q T c hl ha
    obtain ⟨led, hw, due⟩ := inv.acks (q := q) (T := T) (by omega)
    exact ⟨led, ha.trans hw, due⟩
  refine { acks := ?_, held := ?_, voteHeld := ?_, complete := ?_ }
  · intro q T hp
    rw [ack] at hp ⊢
    obtain ⟨led, hw, due⟩ := inv.acks hp
    exact ⟨ext.lead_ne led, hw.trans (ext.llog led).length_le, due.trans (ext.term q)⟩
  · intro q T c hl ha
    rw [hk] at hl
    rw [ack] at ha
    obtain ⟨led, hw, due⟩ := hf hl ha
    rw [take_llog ext led hw]
    rcases inv.held hl ha with hho | hb
    · exact (hh led hw due hl hho).imp_right (·.step log hs)
    · exact .inr (hb.step log hs)
  · intro q T T' c he hj hl ha
    rw [ho] at hj
    rw [hk] at hl
    rw [ack] at ha
    obtain ⟨led, hw, due⟩ := hf hl ha
    rw [take_llog ext led hw, hv]
    exact (inv.voteHeld he hj hl ha).imp_right (·.step log hs)
  intro T T' c led hg he hl
  rw [hm] at led hg
  rw [hk] at hl ⊢
  rcases inv.complete led hg he hl with ⟨hw, hc⟩ | hb
  · rw [take_llog ext led hw]
    exact .inl ⟨hw.trans (ext.llog led).length_le, hc⟩
  · exact .inr (hb.step log hs)

/-- A vote is cast over a log that holds what its owner has acknowledged. -/
lemma CommitInv.vote (log : LogInv qs tm h)
    (inv : CommitInv qs h) (hs : Step qs tm source h h') {n c : N} {t : Nat}
    (ho : h'.vote = put h.vote n t (some c))
    (hv : h'.voteLog = put h.voteLog n t (h.log n)) (hj : h'.log = h.log)
    (hk : h'.lead = h.lead) (hf : h'.elog = h.elog) (hg : h'.llog = h.llog)
    (ack : h'.ack = h.ack) : CommitInv qs h' where
  acks {q T} hp := by
    have ext := hs.extends log
    rw [ack] at hp ⊢
    obtain ⟨led, hw, due⟩ := inv.acks hp
    exact ⟨ext.lead_ne led, hw.trans (ext.llog led).length_le, due.trans (ext.term q)⟩
  held {q T c} hl ha := by
    rw [hf] at hl
    rw [ack] at ha
    rw [hg, hj]
    exact (inv.held hl ha).imp_right (·.step log hs)
  voteHeld {q T T' c} he hc hl ha := by
    rw [hf] at hl
    rw [ack] at ha
    rw [hg, hv]
    by_cases new : q = n ∧ T' = t
    · obtain ⟨rfl, rfl⟩ := new
      rw [put_same]
      exact (inv.held hl ha).imp_right (·.step log hs)
    have hb : q ≠ n ∨ T' ≠ t := by tauto
    rw [ho, put_ne _ _ hb] at hc
    rw [put_ne _ _ hb]
    exact (inv.voteHeld he hc hl ha).imp_right (·.step log hs)
  complete {T T' c} led hle he hl := by
    rw [hk] at led hle
    rw [hf] at hl ⊢
    rw [hg]
    exact (inv.complete led hle he hl).imp_right (·.step log hs)

/-- The winner of a term holds every prefix that may still be committed. -/
lemma CommitInv.win (log : LogInv qs tm h) (inv : CommitInv qs h) {c : N} {t : Nat} {candLog : List E} {Q : Set N}
    (hj : h.lead t = none) (ht : h.cand c t = some candLog) (hk : qs.isQuorum Q) (hg : ∀ q ∈ Q, h.vote q t = some c)
    {h' : History N E} (hs : Step qs tm source h h') (hh : h' = { h with
      lead := update h.lead t (some c)
      elog := update h.elog t candLog
      llog := update h.llog t candLog }) : CommitInv qs h' := by
  subst hh
  obtain ⟨_, hn, hr, _⟩ := log.cands ht
  have hq : ∀ q, h.ack q t = 0 := by
    intro q
    by_contra some
    exact (inv.acks (Nat.pos_of_ne_zero some)).1 hj
  -- what a voter of term `t` acknowledged in an earlier term is in the winner's log
  have won : ∀ {T k}, h.lead T ≠ none → T < t → (h.elog T).length < k →
      (k ≤ (h.llog T).length ∧ (h.llog T).take k <+: candLog) ∨ Blocked qs h T k := by
    intro T k led he hl
    by_cases all : ∀ q ∈ Q, h.ack q T < k
    · exact .inr ⟨Q, hk, fun q hm => ⟨lt_of_lt_of_le he (log.voted (hg q hm)), all q hm⟩⟩
    obtain ⟨q, hm, ha⟩ : ∃ q ∈ Q, k ≤ h.ack q T := by simpa using all
    have hv := hg q hm
    have hw := ha.trans (inv.acks (by omega)).2.1
    rcases inv.voteHeld he (by simp [hv]) hl ha with hh | hb
    · obtain ⟨l, hc, hx⟩ := log.informed hv
      rw [ht] at hc
      cases hc
      exact (prefix_of_upToDate log inv led hl hw (log.voteLogs hv) hn hr hx hh).imp_left fun hy => ⟨hw, hy⟩
    · exact .inr hb
  refine { acks := ?_, held := ?_, voteHeld := ?_, complete := ?_ }
  · intro q T hp
    have ho : T ≠ t := by
      rintro rfl
      simp [hq q] at hp
    simpa [ho] using inv.acks hp
  · intro q T k hl ha
    have ho : T ≠ t := by
      rintro rfl
      have := hq q
      simp at ha
      omega
    simp only [update_of_ne ho] at hl ⊢
    exact (inv.held hl ha).imp_right (·.step log hs)
  · intro q T T' k he hz hl ha
    have ho : T ≠ t := by
      rintro rfl
      have := hq q
      simp at ha
      omega
    simp only [update_of_ne ho] at hl ⊢
    exact (inv.voteHeld he hz hl ha).imp_right (·.step log hs)
  intro T T' k led hf he hl
  by_cases hlo : T = t
  · -- the new leader has no acknowledgements, and the later one's voters have left
    subst hlo
    have ho : T' ≠ T := by omega
    simp only [update_of_ne ho] at hf
    obtain ⟨x, hla⟩ := Option.ne_none_iff_exists'.mp hf
    obtain ⟨_, R, hqu, hvo⟩ := log.elected hla
    refine .inr ⟨R, hqu, fun q hm => ⟨?_, ?_⟩⟩
    · exact lt_of_lt_of_le he (log.voted (hvo q hm))
    · simp only [hq q]
      omega
  · simp only [update_of_ne hlo] at led hl ⊢
    by_cases hu : T' = t
    · subst hu
      simp only [update_self]
      exact (won led he hl).imp_right (·.step log hs)
    · simp only [update_of_ne hu] at hf ⊢
      exact (inv.complete led hf he hl).imp_right (·.step log hs)

/-- Every step keeps the acknowledgement facts, provided copies come from leaders. -/
lemma CommitInv.step (hco : ∀ {h t l}, source h t l → FromLeader h t l) (log : LogInv qs tm h)
    (inv : CommitInv qs h) (hst : Step qs tm source h h') : CommitInv qs h' := by
  have hw := hst
  cases hst with
  | advance n t hl => exact inv.carry log hw rfl rfl rfl rfl rfl fun _ _ _ _ hh => .inl hh
  | stand n t hl => exact inv.vote log hw rfl rfl rfl rfl rfl rfl rfl
  | grant n c candLog hu ht hn => exact inv.vote log hw rfl rfl rfl rfl rfl rfl rfl
  | win c t candLog Q hv ht hq hf => exact inv.win log hv ht hq hf hw rfl
  | append c e hg own hm =>
    refine inv.carry log hw rfl rfl rfl rfl rfl fun {q T k} _ _ _ _ hh => .inl ?_
    by_cases hs : q = c
    · subst hs
      simpa using hh.trans (prefix_append _ _)
    · simpa [hs] using hh
  | accept n cp ho =>
    have ho := hco ho
    refine inv.carry log hw rfl rfl rfl rfl rfl fun {q T k} led hy due hl hh => ?_
    by_cases hs : q = n
    · subst hs
      simp only [update_self]
      rcases Nat.eq_or_lt_of_le due with heq | he
      · subst heq
        refine .inl (prefix_merge hh ?_ ho.2)
        exact take_prefix _ _
      rcases inv.complete led ho.1 he hl with ⟨_, hc⟩ | hb
      · exact .inl (prefix_merge hh (hc.trans (log.leads ho.1).2) ho.2)
      · exact .inr hb
    · simpa [hs] using Or.inl hh
  | acknowledge n m led hy hh =>
    have hr : ∀ {q T k}, k ≤ put h.ack n (h.term n) (max (h.ack n (h.term n)) m) q T →
        k ≤ h.ack q T ∨ (q = n ∧ T = h.term n ∧ k ≤ m) := by
      intro q T k ha
      by_cases hs : q = n ∧ T = h.term n
      · obtain ⟨rfl, rfl⟩ := hs
        rw [put_same] at ha
        rcases (by omega : k ≤ h.ack q (h.term q) ∨ k ≤ m) with old | new
        · exact .inl old
        · exact .inr ⟨rfl, rfl, new⟩
      · rw [put_ne _ _ (by tauto)] at ha
        exact .inl ha
    refine { acks := ?_, held := ?_, voteHeld := ?_, complete := ?_ }
    · intro q T hp
      by_cases hs : q = n ∧ T = h.term n
      · obtain ⟨rfl, rfl⟩ := hs
        refine ⟨led, ?_, le_rfl⟩
        simp only [put_same]
        refine max_le ?_ hy
        by_cases hz : h.ack q (h.term q) = 0
        · omega
        · exact (inv.acks (Nat.pos_of_ne_zero hz)).2.1
      · simp only [put_ne _ _ (show q ≠ n ∨ T ≠ h.term n by tauto)] at hp ⊢
        exact inv.acks hp
    · intro q T k hl ha
      rcases hr ha with old | ⟨rfl, rfl, new⟩
      · exact (inv.held hl old).imp_right (·.step log hw)
      · exact .inl ((take_prefix_take_left new).trans hh)
    · intro q T T' k he hca hl ha
      rcases hr ha with old | ⟨rfl, rfl, new⟩
      · exact (inv.voteHeld he hca hl old).imp_right (·.step log hw)
      · obtain ⟨x, hx⟩ := Option.ne_none_iff_exists'.mp hca
        exact absurd (log.voted hx) (by omega)
    · intro T T' k hj hk he hl
      exact (inv.complete hj hk he hl).imp_right (·.step log hw)

end Preservation

end Cnetmod.Consensus
