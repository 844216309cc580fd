import Cnetmod.Quic.Source.Recovery

/-!
# Frames held by sent packets

What `erase_if`, moving out and `operator==` do with the frames of a packet.
-/
namespace Cnetmod.Quic

open List QuicSendFrame Bool

namespace QuicSendFrame

variable {f g : QuicSendFrame} {frames : List QuicSendFrame}

lemma same_iff : f.same g = true ↔ f.ownedBytes = g.ownedBytes ∧ f.sharedBytes = g.sharedBytes ∧
      (f.sharedBytes ≠ none → f.sharedOffset = g.sharedOffset ∧ f.sharedSize = g.sharedSize ∧
        f.stream = g.stream ∧ f.streamHeader = g.streamHeader) := by
  unfold same
  cases f.sharedBytes <;> cases g.sharedBytes <;> simp

lemma same_refl (f : QuicSendFrame) : f.same f = true := by simp [same_iff]

lemma same_trans (hf : f.same g = true) (hs : g.same k = true) : f.same k = true := by
  rw [same_iff] at *
  grind

lemma isIn_iff : f.isIn frames = true ↔ ∃ g ∈ frames, g.same f = true := any_eq_true

lemma isIn_of_mem (hm : f ∈ frames) : f.isIn frames = true := isIn_iff.mpr ⟨f, hm, same_refl f⟩

/-- The frame has bytes of its own or shares a body, as every constructor makes it. -/
structure Whole (f : QuicSendFrame) : Prop where
  filled : f.isEmpty = false
  owned : f.sharedBytes = none → f.ownedBytes ≠ []

/-- The frame was moved from. -/
structure Hollow (f : QuicSendFrame) : Prop where
  owned : f.ownedBytes = []
  shared : f.sharedBytes = none

lemma hollow_moved (f : QuicSendFrame) : f.moved.Hollow := ⟨rfl, rfl⟩

/-- Nothing that was moved from compares equal to a frame with bytes. -/
lemma Whole.not_same (hw : f.Whole) (hh : g.Hollow) : ¬ g.same f = true := by
  intro ha
  obtain ⟨ho, hs, -⟩ := same_iff.mp ha
  exact hw.owned (hs.symm.trans hh.shared) (ho.symm.trans hh.owned)

end QuicSendFrame

namespace RetransmittableFrameStorage

variable {st : RetransmittableFrameStorage}

/-- Every frame is whole, and the first place is used first. -/
structure Tidy (storage : RetransmittableFrameStorage) : Prop where
  packed : storage.first.isEmpty = true → storage.additional = []
  whole : ∀ f ∈ storage.frames, f.Whole

/-- The frames were moved away. -/
def Spent (storage : RetransmittableFrameStorage) : Prop := ∀ f ∈ storage.frames, f.Hollow

def Fine (storage : RetransmittableFrameStorage) : Prop := storage.Tidy ∨ storage.Spent

lemma tidy_empty : ({} : RetransmittableFrameStorage).Tidy := ⟨fun _ => rfl, by simp [frames, QuicSendFrame.isEmpty]⟩

lemma Tidy.pushBack (ht : st.Tidy) (hw : fr.Whole) : (st.pushBack fr).Tidy ∧ (st.pushBack fr).frames = st.frames ++ [fr] := by
  have hl : (st.pushBack fr).frames = st.frames ++ [fr] := by
    unfold RetransmittableFrameStorage.pushBack
    split
    next he => simp [frames, hw.filled, he, ht.packed he]
    next hf => simp [frames, hf]
  refine ⟨⟨?_, ?_⟩, hl⟩
  · unfold RetransmittableFrameStorage.pushBack
    split
    next => intro he; exact absurd (hw.filled.symm.trans he) (by decide)
    next hf => intro he; exact absurd he hf
  rw [hl]
  intro f hm
  rcases mem_append.mp hm with hb | hh
  · exact ht.whole f hb
  · exact (mem_singleton.mp hh) ▸ hw

/-- The storage that `push_back` makes of some frames. -/
def ofFrames (frames : List QuicSendFrame) : RetransmittableFrameStorage := frames.foldl pushBack {}

lemma ofFrames_spec (hw : ∀ f ∈ given, f.Whole) : (ofFrames given).Tidy ∧ (ofFrames given).frames = given := by
  induction given using reverseRecOn with
  | nil => exact ⟨tidy_empty, rfl⟩
  | append_singleton given last ih =>
    obtain ⟨ht, hl⟩ := ih fun f hm => hw f (mem_append_left _ hm)
    have hp := ht.pushBack (hw last (by simp))
    rw [hl] at hp
    rwa [ofFrames, foldl_append]

lemma Tidy.frames_eq_nil (ht : st.Tidy) (he : st.isEmpty = true) : st.frames = [] := by
  have hf : st.first.isEmpty = true := he
  simp [frames, hf, ht.packed hf]

section Erase

variable {σ : Type} {pd : σ → QuicSendFrame → σ × Bool} {erased : QuicSendFrame → Bool}

/-- When the state of the predicate does not decide, what is left is a filter. -/
lemma eraseEach_eq (he : ∀ s f, (pd s f).2 = erased f) (s : σ) (l : List QuicSendFrame) :
    eraseEach pd s l = (l.foldl (fun s f => (pd s f).1) s, l.filter fun f => !erased f) := by
  induction l generalizing s with
  | nil => rfl
  | cons fr tl ih =>
    have hh := he s fr
    rw [eraseEach, foldl_cons, filter_cons]
    generalize pd s fr = outcome at hh ⊢
    obtain ⟨s', out⟩ := outcome
    obtain rfl : out = erased fr := hh
    dsimp only
    rw [ih]
    cases erased fr <;> rfl

lemma frames_eraseIf_subset (hb : ∀ s f, (pd s f).2 = erased f) (s : σ) : ∀ f ∈ (st.eraseIf pd s).2.frames, f ∈ st.frames := by
  unfold eraseIf
  rw [eraseEach_eq hb]
  dsimp only
  generalize hk : st.additional.filter (fun f => !erased f) = list
  have ha : ∀ f ∈ list, f ∈ st.additional := by
    rw [← hk]
    exact fun f hm => mem_of_mem_filter hm
  split
  next he =>
    simp only [frames, he, if_true, nil_append]
    exact ha
  next hf =>
    split
    · cases list with
      | nil => simp [frames, QuicSendFrame.isEmpty]
      | cons fr tl =>
        simp only [frames, hf, false_eq_true, if_false]
        intro f hm
        refine mem_append_right _ (ha f ?_)
        split at hm
        · exact mem_cons_of_mem _ hm
        · exact hm
    · simp only [frames, hf, false_eq_true, if_false, mem_append]
      exact fun f hm => hm.imp id (ha f)

lemma Tidy.eraseIf (ht : st.Tidy) (ha : ∀ s f, (pd s f).2 = erased f) (s : σ) : let after := (st.eraseIf pd s).2
    after.Tidy ∧ after.frames = st.frames.filter fun f => !erased f := by
  intro after
  have hw : ∀ f ∈ after.frames, f.Whole := fun f hm => ht.whole f (frames_eraseIf_subset ha s f hm)
  suffices (after.first.isEmpty = true → after.additional = []) ∧ after.frames = st.frames.filter fun f => !erased f from
    ⟨⟨this.1, hw⟩, this.2⟩
  dsimp only [after]
  unfold RetransmittableFrameStorage.eraseIf
  rw [eraseEach_eq ha]
  dsimp only
  rw [ha]
  split
  next he => simp [frames, he, ht.packed he]
  rename_i hf
  have all : st.frames = st.first :: st.additional := by simp [frames, hf]
  rw [all, filter_cons]
  split
  next out =>
    simp only [out, Bool.not_true, false_eq_true, if_false]
    cases hl : st.additional.filter (fun f => !erased f) with
    | nil => exact ⟨fun _ => rfl, rfl⟩
    | cons fr tl =>
      have hh : fr.Whole := ht.whole fr (by
        rw [all]
        refine mem_cons_of_mem _ (mem_of_mem_filter (p := fun f => !erased f) ?_)
        rw [hl]
        exact mem_cons_self)
      simp [frames, hh.filled]
  next hs =>
    simp only [hs, Bool.not_false, if_true]
    exact ⟨fun he => absurd he hf, by simp [frames, hf]⟩

lemma Fine.eraseIf (hf : st.Fine) (he : ∀ s f, (pd s f).2 = erased f) (s : σ) : (st.eraseIf pd s).2.Fine := by
  rcases hf with ht | hs
  · exact .inl (ht.eraseIf he s).1
  · exact .inr fun f hm => hs f (frames_eraseIf_subset he s f hm)

/-- What the predicate makes true of each erased frame, and never undoes, is true of them all. -/
lemma eraseIf_state {P : σ → QuicSendFrame → Prop} (hc : ∀ s f, (pd s f).2 = erased f)
    (ht : ∀ s f, erased f = true → P (pd s f).1 f) (hk : ∀ s f g, P s g → P (pd s f).1 g) (s : σ) :
    (∀ f ∈ st.frames, erased f = true → P (st.eraseIf pd s).1 f) ∧ ∀ g, P s g → P (st.eraseIf pd s).1 g := by
  have hg (l : List QuicSendFrame) (s : σ) :
      (∀ f ∈ l, erased f = true → P (l.foldl (fun s f => (pd s f).1) s) f) ∧
        ∀ g, P s g → P (l.foldl (fun s f => (pd s f).1) s) g := by
    induction l generalizing s with
    | nil => exact ⟨by simp, fun _ => id⟩
    | cons fr tl ih =>
      obtain ⟨all, hb⟩ := ih (pd s fr).1
      refine ⟨fun f hm out => ?_, fun g h => hb g (hk s fr g h)⟩
      rcases mem_cons.mp hm with rfl | hl
      · exact hb f (ht s f out)
      · exact all f hl out
  obtain ⟨all, hb⟩ := hg st.additional s
  unfold eraseIf
  rw [eraseEach_eq hc]
  dsimp only
  generalize st.additional.foldl (fun s f => (pd s f).1) s = s' at all hb
  split
  next he =>
    refine ⟨fun f hm => all f ?_, hb⟩
    simpa [frames, he] using hm
  next hf =>
    have ha : ∀ {storage' : RetransmittableFrameStorage}, (∀ f ∈ st.frames, erased f = true →
        P ((pd s' st.first).1, storage').1 f) ∧
        ∀ g, P s g → P ((pd s' st.first).1, storage').1 g := by
      intro storage'
      refine ⟨fun f hm out => ?_, fun g h => hk _ _ g (hb g h)⟩
      simp only [frames, hf, false_eq_true, if_false, singleton_append, mem_cons] at hm
      rcases hm with rfl | hl
      · exact ht _ _ out
      · exact hk _ _ f (all f hl out)
    split
    · split <;> exact ha
    · exact ha

end Erase

lemma spent_moveOut (st : RetransmittableFrameStorage) : st.moveOut.Spent := by
  intro f hm
  rcases mem_append.mp hm with hf | ha
  · unfold moveOut at hf
    split at hf
    next => simp at hf
    split at hf
    · simp at hf
    · exact mem_singleton.mp hf ▸ hollow_moved _
  · obtain ⟨pre, _, rfl⟩ := mem_map.mp ha
    exact hollow_moved pre

lemma Spent.not_whole (hs : st.Spent) (hm : f ∈ st.frames) : ¬ f.Whole := by
  intro hw
  exact hw.owned (hs f hm).shared (hs f hm).owned

end RetransmittableFrameStorage

end Cnetmod.Quic
