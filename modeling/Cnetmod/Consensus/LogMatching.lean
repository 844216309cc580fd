import Cnetmod.Consensus.History

/-!
# Log matching

Every log in a history is *sound*: cut after any entry, it is a prefix of the log
of the leader of that entry's term, and its terms never decrease. Soundness is
kept by every step, and two sound logs that agree on the term at a position
agree on everything up to it.
-/
namespace Cnetmod.Consensus

open List Option Function History.Extends Nat

variable {N E : Type*} (tm : E → Nat) {e : E} {i : Nat}

lemma prefix_getElem? {short long : List E} (sub : short <+: long) (hf : short[i]? = some e) : long[i]? = some e := by
  obtain ⟨tl, rfl⟩ := sub
  obtain ⟨hi, rfl⟩ := List.getElem?_eq_some_iff.mp hf
  simp [getElem?_append_left hi]

/-- Cut after any of its entries, the log is a prefix of the log of the leader
of the entry's term. -/
def Traced (h : History N E) (log : List E) : Prop :=
  ∀ i e, log[i]? = some e → h.lead (tm e) ≠ none ∧ log.take (i + 1) <+: h.llog (tm e)

structure SoundLog (h : History N E) (bound : Nat) (log : List E) : Prop where
  traced : Traced tm h log
  ascending : log.Pairwise (tm · ≤ tm ·)
  bounded : ∀ e ∈ log, tm e ≤ bound

variable {tm} {h h' : History N E} {bound : Nat} {log log' : List E}

lemma Traced.mono (ext : h.Extends h') (ht : Traced tm h log) : Traced tm h' log := by
  intro i e hf
  obtain ⟨led, cut⟩ := ht i e hf
  exact ⟨ext.lead_ne led, cut.trans (ext.llog led)⟩

lemma SoundLog.mono (ext : h.Extends h') {bound' : Nat} (le : bound ≤ bound')
    (hs : SoundLog tm h bound log) : SoundLog tm h' bound' log :=
  ⟨hs.traced.mono ext, hs.ascending, fun e hm => (hs.bounded e hm).trans le⟩

lemma SoundLog.cut (sub : log' <+: log) (hs : SoundLog tm h bound log) : SoundLog tm h bound log' where
  traced i e hf := by
    have hh := (List.getElem?_eq_some_iff.mp hf).1
    obtain ⟨led, cut⟩ := hs.traced i e (prefix_getElem? sub hf)
    refine ⟨led, ?_⟩
    obtain ⟨tl, rfl⟩ := sub
    rwa [take_append_of_le_length (by omega)] at cut
  ascending := hs.ascending.sublist sub.sublist
  bounded e hm := hs.bounded e (sub.subset hm)

lemma SoundLog.nil : SoundLog tm h bound [] :=
  ⟨fun _ _ hf => by simp at hf, List.Pairwise.nil, fun _ hm => by simp at hm⟩

/-- Two sound logs with equal terms at a position agree up to it. -/
lemma Traced.matching {e' : E} (hr : Traced tm h log) (ht : Traced tm h log') (ha : log[i]? = some e) (hf : log'[i]? = some e')
    (hs : tm e = tm e') : log.take (i + 1) = log'.take (i + 1) := by
  obtain ⟨_, cut⟩ := hr i e ha
  obtain ⟨_, hc⟩ := ht i e' hf
  rw [← hs] at hc
  have ho := (List.getElem?_eq_some_iff.mp ha).1
  have hl := (List.getElem?_eq_some_iff.mp hf).1
  exact (prefix_of_prefix_length_le cut hc (by simp; omega)).eq_of_length (by simp; omega)

/-- A log whose last entry has term `s` is a prefix of that leader's log. -/
lemma SoundLog.prefix_llog (hs : SoundLog tm h bound log) (hn : log ≠ []) :
    h.lead (lastTerm tm log) ≠ none ∧ log <+: h.llog (lastTerm tm log) := by
  obtain ⟨init, last, rfl⟩ := eq_nil_or_concat log |>.resolve_left hn
  have cut := hs.traced init.length last (by simp)
  rw [take_of_length_le (by simp)] at cut
  simpa [lastTerm] using cut

/-- Terms never exceed the last one. -/
lemma SoundLog.le_lastTerm (hs : SoundLog tm h bound log) (hm : e ∈ log) : tm e ≤ lastTerm tm log := by
  obtain ⟨init, last, rfl⟩ := eq_nil_or_concat log |>.resolve_left (ne_nil_of_mem hm)
  have ha := hs.ascending
  rw [concat_eq_append, pairwise_append] at ha
  simp only [concat_eq_append, mem_append, mem_singleton] at hm
  simp only [lastTerm, concat_eq_append, getLast?_append, getLast?_singleton,
    some_or, map_some, getD_some]
  rcases hm with he | rfl
  · exact ha.2.2 e he last (by simp)
  · exact le_refl _

/-- An entry of the leader's own term extends a sound log that is the leader's. -/
lemma SoundLog.concat (hs : SoundLog tm h bound log) (hb : bound ≤ tm e)
    (led : h.lead (tm e) ≠ none) (hw : log ++ [e] <+: h.llog (tm e)) :
    SoundLog tm h (tm e) (log ++ [e]) where
  traced i x hf := by
    by_cases hi : i < log.length
    · rw [getElem?_append_left hi] at hf
      rw [take_append_of_le_length (by omega)]
      exact hs.traced i x hf
    have ha : i = log.length := by
      have := (List.getElem?_eq_some_iff.mp hf).1
      simp at this
      omega
    subst ha
    simp at hf
    subst hf
    rw [take_of_length_le (by simp)]
    exact ⟨led, hw⟩
  ascending := by
    refine pairwise_append.mpr ⟨hs.ascending, pairwise_singleton _ _, ?_⟩
    intro a hm b hl
    rw [mem_singleton.mp hl]
    exact (hs.bounded a hm).trans hb
  bounded x hm := by
    rcases mem_append.mp hm with he | hl
    · exact (hs.bounded x he).trans hb
    · rw [mem_singleton.mp hl]

lemma UpToDate.refl (log : List E) : UpToDate tm log log := Or.inr ⟨rfl, le_rfl⟩

lemma soundLog_merge [DecidableEq E] {own cp : List E} (hk : SoundLog tm h bound own)
    (new : SoundLog tm h bound cp) : SoundLog tm h bound (merge own cp) := by
  unfold merge
  split
  · exact hk
  · exact new

lemma lastTerm_concat (init : List E) (last : E) : lastTerm tm (init ++ [last]) = tm last := by
  simp [lastTerm]

/-- The facts about a history that log matching rests on. -/
structure LogInv (qs : QuorumSystem N) (tm : E → Nat) (h : History N E) : Prop where
  logs : ∀ n, SoundLog tm h (h.term n) (h.log n)
  voted : ∀ {n t c}, h.vote n t = some c → t ≤ h.term n
  cands : ∀ {c t l}, h.cand c t = some l → 0 < t ∧ SoundLog tm h t l ∧ (∀ e ∈ l, tm e < t) ∧ h.vote c t = some c
  voteLogs : ∀ {n t c}, h.vote n t = some c → SoundLog tm h t (h.voteLog n t)
  informed : ∀ {n t c}, h.vote n t = some c → ∃ l, h.cand c t = some l ∧ UpToDate tm l (h.voteLog n t)
  elected : ∀ {t c}, h.lead t = some c → h.cand c t = some (h.elog t) ∧ ∃ Q, qs.isQuorum Q ∧ ∀ q ∈ Q, h.vote q t = some c
  leads : ∀ {t}, h.lead t ≠ none → SoundLog tm h t (h.llog t) ∧ h.elog t <+: h.llog t
  own : ∀ {t}, h.lead t ≠ none → ∀ i e, (h.llog t)[i]? = some e → (h.elog t).length ≤ i → tm e = t

section LogInv

variable {qs : QuorumSystem N}

lemma LogInv.start : LogInv qs tm (History.start : History N E) where
  logs _ := SoundLog.nil
  voted := by simp [History.start]
  cands := by simp [History.start]
  voteLogs := by simp [History.start]
  informed := by simp [History.start]
  elected := by simp [History.start]
  leads := by simp [History.start]
  own := by simp [History.start]

variable {t : Nat} {e : E}

section

variable (inv : LogInv qs tm h)

include inv

/-- Terms are led by positive numbers only. -/
lemma LogInv.lead_pos (led : h.lead t ≠ none) : 0 < t := by
  obtain ⟨c, hl⟩ := ne_none_iff_exists'.mp led
  exact (inv.cands (inv.elected hl).1).1

lemma LogInv.elog_lt (led : h.lead t ≠ none) (hm : e ∈ h.elog t) : tm e < t := by
  obtain ⟨c, hl⟩ := ne_none_iff_exists'.mp led
  exact (inv.cands (inv.elected hl).1).2.2.1 e hm

lemma LogInv.vote_none {q : N} (hl : h.term q < t) : h.vote q t = none := by
  by_contra hc
  obtain ⟨x, hv⟩ := ne_none_iff_exists'.mp hc
  exact absurd (inv.voted hv) (by omega)

lemma LogInv.tm_pos (hs : SoundLog tm h bound log) (hm : e ∈ log) : 0 < tm e := by
  obtain ⟨i, hf⟩ := getElem?_of_mem hm
  exact inv.lead_pos (hs.traced i e hf).1

/-- An entry of the leader's own term lies past the log it was elected with. -/
lemma LogInv.elog_length_lt {i : Nat} (led : h.lead t ≠ none)
    (hf : (h.llog t)[i]? = some e) (own : tm e = t) : (h.elog t).length < i + 1 := by
  by_contra hl
  have hi : i < (h.elog t).length := by omega
  have hh : (h.elog t)[i]? = some ((h.elog t).get ⟨i, hi⟩) := by simp [getElem?_eq_getElem hi]
  have ht := prefix_getElem? (inv.leads led).2 hh
  rw [hf] at ht
  have := inv.elog_lt led (mem_of_getElem? (hh.trans ht.symm))
  omega

lemma LogInv.logs_mono (ext : h.Extends h') (hs : h'.log = h.log) (n : N) : SoundLog tm h' (h'.term n) (h'.log n) := by
  rw [hs]
  exact (inv.logs n).mono ext (ext.term n)

lemma LogInv.leads_mono (ext : h.Extends h') (hl : h'.lead = h.lead)
    (he : h'.elog = h.elog) (ha : h'.llog = h.llog) (led : h'.lead t ≠ none) :
    SoundLog tm h' t (h'.llog t) ∧ h'.elog t <+: h'.llog t := by
  rw [hl] at led
  rw [ha, he]
  exact ⟨(inv.leads led).1.mono ext (le_refl _), (inv.leads led).2⟩

/-- A step that casts no vote and elects nobody only has to account for logs. -/
lemma LogInv.carry (ext : h.Extends h') (hb : h'.vote = h.vote)
    (hv : h'.voteLog = h.voteLog) (hf : h'.cand = h.cand) (hg : h'.lead = h.lead)
    (hj : h'.elog = h.elog) (hk : ∀ n, SoundLog tm h' (h'.term n) (h'.log n))
    (hl : ∀ {t}, h'.lead t ≠ none → SoundLog tm h' t (h'.llog t) ∧ h'.elog t <+: h'.llog t)
    (own : ∀ {t}, h'.lead t ≠ none → ∀ i e, (h'.llog t)[i]? = some e →
      (h'.elog t).length ≤ i → tm e = t) : LogInv qs tm h' where
  logs := hk
  leads := hl
  own := own
  voted hc := by
    rw [hb] at hc
    exact (inv.voted hc).trans (ext.term _)
  cands hs := by
    rw [hf] at hs
    obtain ⟨pos, ho, he, ha⟩ := inv.cands hs
    exact ⟨pos, ho.mono ext (le_refl _), he, ext.vote ha⟩
  voteLogs hc := by
    rw [hb] at hc
    rw [hv]
    exact (inv.voteLogs hc).mono ext (le_refl _)
  informed hc := by
    rw [hb] at hc
    rw [hv, hf]
    exact inv.informed hc
  elected hl := by
    rw [hg] at hl
    rw [hf, hj, hb]
    exact inv.elected hl

end

variable [DecidableEq N]

/-- A vote cast over the voter's current log, for a candidate of that term. -/
lemma LogInv.vote (inv : LogInv qs tm h) (ext : h.Extends h') {n c : N} {candLog : List E} (due : t ≤ h'.term n) (hb : h'.vote = put h.vote n t (some c))
    (hv : h'.voteLog = put h.voteLog n t (h.log n)) (hk : SoundLog tm h t (h.log n))
    (hn : h'.cand c t = some candLog) (hu : UpToDate tm candLog (h.log n))
    (hp : ∀ {x s l}, h'.cand x s = some l → h.cand x s = some l ∨
      (0 < s ∧ SoundLog tm h s l ∧ (∀ e ∈ l, tm e < s) ∧ h'.vote x s = some x))
    (log : h'.log = h.log) (hf : h'.lead = h.lead) (hg : h'.elog = h.elog)
    (hj : h'.llog = h.llog) : LogInv qs tm h' where
  logs := inv.logs_mono ext log
  voted {m s x} hca := by
    rw [hb] at hca
    rcases put_cases hca with ⟨rfl, rfl, _⟩ | ⟨_, old⟩
    · exact due
    · exact (inv.voted old).trans (ext.term _)
  cands {x s l} hc := by
    rcases hp hc with old | ⟨pos, new, he, hs⟩
    · obtain ⟨pos, old, he, hs⟩ := inv.cands old
      exact ⟨pos, old.mono ext (le_refl _), he, ext.vote hs⟩
    · exact ⟨pos, new.mono ext (le_refl _), he, hs⟩
  voteLogs {m s x} hca := by
    rw [hb] at hca
    rw [hv]
    rcases put_cases hca with ⟨rfl, rfl, _⟩ | ⟨ha, old⟩
    · rw [put_same]
      exact hk.mono ext (le_refl _)
    · rw [put_ne _ _ ha]
      exact (inv.voteLogs old).mono ext (le_refl _)
  informed {m s x} hca := by
    rw [hb] at hca
    rw [hv]
    rcases put_cases hca with ⟨rfl, rfl, new⟩ | ⟨ha, old⟩
    · cases new
      exact ⟨candLog, hn, by rwa [put_same]⟩
    · obtain ⟨l, hc, ho⟩ := inv.informed old
      exact ⟨l, ext.cand hc, by rwa [put_ne _ _ ha]⟩
  elected hl := by
    rw [hf] at hl
    rw [hg]
    obtain ⟨hc, Q, hq, ht⟩ := inv.elected hl
    exact ⟨ext.cand hc, Q, hq, fun q hm => ext.vote (ht q hm)⟩
  leads := inv.leads_mono ext hf hg hj
  own := by
    rw [hf, hj, hg]
    exact inv.own

variable [DecidableEq E] {source : History N E → Nat → List E → Prop}

/-- Nothing that has been done is undone. -/
lemma Step.extends (inv : LogInv qs tm h) (hb : Step qs tm source h h') : h.Extends h' := by
  have hr : ∀ (n : N) (t : Nat), h.term n < t → ∀ m, h.term m ≤ update h.term n t m := by
    intro n t hl m
    by_cases hs : m = n
    · subst hs
      simp [le_of_lt hl]
    · simp [hs]
  cases hb with
  | advance n t hl => exact { refl h with term := hr n t hl }
  | stand n t hl =>
    have hn : h.cand n t = none := by
      by_contra some
      obtain ⟨l, ht⟩ := ne_none_iff_exists'.mp some
      exact absurd (inv.vote_none hl) (by simp [(inv.cands ht).2.2.2])
    exact { refl h with
      term := hr n t hl
      vote := put_keeps (inv.vote_none hl)
      cand := put_keeps hn }
  | grant n c candLog hu ht hc => exact { refl h with vote := put_keeps hu }
  | win c t candLog Q hv ht hq he =>
    have ho : ∀ {s}, h.lead s ≠ none → s ≠ t := fun led hs => led (hs ▸ hv)
    refine { refl h with lead := ?_, elog := ?_, llog := ?_ }
    · intro s x ha
      have : s ≠ t := ho (by simp [ha])
      simpa [this] using ha
    · intro s led
      simp [ho led]
    · intro s led
      simp [ho led]
  | append c e ha own hf =>
    refine { refl h with llog := ?_ }
    intro s led
    by_cases hs : s = h.term c
    · subst hs
      simp [own]
    · simp [hs]
  | accept n cp hg => exact { refl h with }
  | acknowledge n m led hw hh =>
    refine { refl h with ack := ?_ }
    intro q s
    by_cases hs : q = n ∧ s = h.term n
    · obtain ⟨rfl, rfl⟩ := hs
      simp [put_same]
    · exact le_of_eq (put_ne _ _ (by tauto)).symm

/-- Every step keeps the log facts, provided what is copied is sound. -/
lemma LogInv.step (hco : ∀ {h t l}, LogInv qs tm h → source h t l → SoundLog tm h t l)
    (inv : LogInv qs tm h) (hz : Step qs tm source h h') : LogInv qs tm h' := by
  have ext := hz.extends inv
  cases hz with
  | advance n t hg | acknowledge n m led hw hh =>
    exact inv.carry ext rfl rfl rfl rfl rfl (inv.logs_mono ext rfl) (inv.leads_mono ext rfl rfl rfl) inv.own
  | stand n t hg =>
    have hj := inv.logs n
    have he : ∀ e ∈ h.log n, tm e < t := fun e hm => lt_of_le_of_lt (hj.bounded e hm) hg
    have hn : SoundLog tm h t (h.log n) := ⟨hj.traced, hj.ascending, fun e hm => le_of_lt (he e hm)⟩
    refine inv.vote ext (by simp) rfl rfl hn (put_same _ _ _ _) (UpToDate.refl _) ?_
      rfl rfl rfl rfl
    intro x s l hc
    rcases put_cases hc with ⟨rfl, rfl, new⟩ | ⟨_, old⟩
    · cases new
      exact .inr ⟨zero_lt_of_lt hg, hn, he, put_same _ _ _ _⟩
    · exact .inl old
  | grant n c candLog hu hr hp =>
    exact inv.vote ext (le_refl _) rfl rfl (inv.logs n) hr hp (fun old => .inl old)
      rfl rfl rfl rfl
  | win c t candLog Q hv hr hq ha =>
    obtain ⟨pos, hj, he, hx⟩ := inv.cands hr
    refine
      { logs := inv.logs_mono ext rfl
        voted := inv.voted
        cands := ?_
        voteLogs := fun hy => (inv.voteLogs hy).mono ext (le_refl _)
        informed := inv.informed
        elected := ?_
        leads := ?_
        own := ?_ }
    · intro x s l hc
      obtain ⟨pos, old, he, hx⟩ := inv.cands hc
      exact ⟨pos, old.mono ext (le_refl _), he, hx⟩
    · intro s x hl
      by_cases hs : s = t
      · subst hs
        simp only [update_self, some.injEq] at hl
        subst hl
        exact ⟨by simpa using hr, Q, hq, ha⟩
      · simp only [update_of_ne hs] at hl ⊢
        exact inv.elected hl
    · intro s led
      by_cases hs : s = t
      · subst hs
        simp only [update_self]
        exact ⟨hj.mono ext (le_refl _), prefix_rfl⟩
      · simp only [update_of_ne hs] at led ⊢
        exact ⟨(inv.leads led).1.mono ext (le_refl _), (inv.leads led).2⟩
    intro s led i e hf hb
    by_cases hs : s = t
    · subst hs
      simp only [update_self] at hf hb
      exact absurd (List.getElem?_eq_some_iff.mp hf).1 (by omega)
    · simp only [update_of_ne hs] at led hf hb
      exact inv.own led i e hf hb
  | append c e hl own ht =>
    have led : h.lead (h.term c) ≠ none := by simp [hl]
    have new := ((inv.logs c).mono ext (le_refl _)).concat (le_of_eq ht.symm) (by simp [ht, hl]) (by simp [ht])
    rw [ht] at new
    refine inv.carry ext rfl rfl rfl rfl rfl ?_ ?_ ?_
    · intro n
      by_cases hs : n = c
      · subst hs
        simpa using new
      · simpa [hs] using (inv.logs n).mono ext (le_refl _)
    · intro t hk
      by_cases hs : t = h.term c
      · subst hs
        simp only [update_self]
        exact ⟨new, (inv.leads led).2.trans (own ▸ prefix_append _ _)⟩
      · simp only [update_of_ne hs]
        exact ⟨(inv.leads hk).1.mono ext (le_refl _), (inv.leads hk).2⟩
    intro t hk i x hf hb
    by_cases hs : t = h.term c
    · subst hs
      simp only [update_self] at hf
      by_cases hi : i < (h.log c).length
      · rw [getElem?_append_left hi, own] at hf
        exact inv.own led i x hf hb
      rw [getElem?_append_right (by omega)] at hf
      rw [mem_singleton.mp (mem_of_getElem? hf)]
      exact ht
    · simp only [update_of_ne hs] at hf
      exact inv.own hk i x hf hb
  | accept n cp ho =>
    refine inv.carry ext rfl rfl rfl rfl rfl ?_ (inv.leads_mono ext rfl rfl rfl) inv.own
    intro m
    by_cases hs : m = n
    · subst hs
      simp only [update_self]
      exact (soundLog_merge (inv.logs m) (hco inv ho)).mono ext (le_refl _)
    · simpa [hs] using (inv.logs m).mono ext (le_refl _)

end LogInv

end Cnetmod.Consensus
