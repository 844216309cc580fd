import Cnetmod.Http.Spec.SessionRuns

/-!
# Send credit

What the server may still send on a stream is the peer's initial window, with the
WINDOW_UPDATE increments of that stream, without what it has sent. A request that
is complete with its HEADERS frame is kept out of the stream table until it is
answered, and then starts from the peer's initial window: an increment that came
in between has nothing to be added to, and is lost.
-/
namespace Cnetmod.Http.V2

open Session Coding Consensus List Function

/-- A session with the increments its peer has sent. -/
structure Ledger where
  session : Session := {}
  /-- for each stream, since its HEADERS -/
  granted : Nat → Nat := fun _ => 0
  connection : Nat := 0

/-- The increment of a WINDOW_UPDATE frame on `id`. -/
def Step.increment (id : Nat) : Step → Nat
  | .frame header payload _ =>
    if header.type = .windowUpdate ∧ header.streamId = id then (Session.incrementOf payload).getD 0 else 0
  | _ => 0

namespace Ledger

def step (cfg : SessionConfig) (l : Ledger) (a : Step) : Option Ledger :=
  (l.session.step cfg a).map fun session =>
    { session
      granted := fun id =>
        if 0 < id ∧ id ≤ l.session.lastPeerStreamId then l.granted id + a.increment id else l.granted id
      connection := l.connection + a.increment 0 }

end Ledger

/-- The bytes of the DATA frames on a stream. -/
def bytesOn (id : Nat) (frames : List (Nat × Nat)) : Nat :=
  ((frames.filter fun frame => frame.1 = id).map Prod.snd).sum

namespace Session

/-- The DATA bytes queued on a stream. -/
def sentOn (s : Session) (id : Nat) : Nat := bytesOn id (dataFrames s.outbound)

/-- All DATA bytes queued. -/
def sentBytes (s : Session) : Nat := ((dataFrames s.outbound).map Prod.snd).sum

/-- A request that was complete with its HEADERS frame and is not answered yet. -/
def Detached (s : Session) (id : Nat) : Prop :=
  ∃ ready ∈ s.readyRequests, ready.streamId = id ∧ ready.detached = true

instance (s : Session) (id : Nat) : Decidable (s.Detached id) :=
  inferInstanceAs (Decidable (∃ ready ∈ s.readyRequests, _))

/-- The response of the stream is not finished. -/
def Unfinished (s : Session) (id : Nat) : Prop := (s.streams.lookup id).isSome ∨ s.Detached id

instance (s : Session) (id : Nat) : Decidable (s.Unfinished id) :=
  inferInstanceAs (Decidable (_ ∨ _))

end Session

/-- A step that is not a WINDOW_UPDATE for a request outside the table. -/
def Ledger.Counted (l : Ledger) : Step → Prop
  | .frame header _ _ => header.type = .windowUpdate → ¬ l.session.Detached header.streamId
  | _ => True

instance (l : Ledger) : (a : Step) → Decidable (l.Counted a)
  | .frame header _ _ =>
    inferInstanceAs (Decidable (header.type = .windowUpdate → ¬ l.session.Detached header.streamId))
  | .greet | .dispatch _ | .dispatchBackground | .respond _ _ | .writeHeaders _ | .writeData _ _
  | .writeEnd _ | .returnFlowCredit _ | .returnConnectionCredit _ | .consumeChunk _ =>
    inferInstanceAs (Decidable True)

lemma bytesOn_concat (fs : List (Nat × Nat)) (id o sz : Nat) :
    bytesOn id (fs ++ [(o, sz)]) = bytesOn id fs + if o = id then sz else 0 := by
  by_cases hs : o = id <;> simp [bytesOn, hs]

/-- The detached requests among those that are ready. -/
def detachedIds (ready : List (Nat × Bool)) : List Nat := (ready.filter Prod.snd).map Prod.fst

lemma mem_detachedIds {id : Nat} : id ∈ detachedIds ready ↔ (id, true) ∈ ready := by
  simp [detachedIds]

lemma detachedIds_concat (ready : List (Nat × Bool)) (id : Nat) (flag : Bool) :
    detachedIds (ready ++ [(id, flag)]) = detachedIds ready ++ if flag then [id] else [] := by
  cases flag <;> simp [detachedIds]

namespace Core

/-- Every window is what its ledger says. -/
structure Balanced (granted : Nat → Nat) (connection : Nat) (c : Core) : Prop where
  known : c.Known
  total : c.sendWindow = 65535 + connection - (c.sent.map Prod.snd).sum
  allowed : 0 ≤ c.sendWindow
  stream : ∀ id w, c.window id = some w → w = c.initial + granted id - bytesOn id c.sent
  distinct : (detachedIds c.ready).Nodup
  untouched : ∀ id ∈ detachedIds c.ready, c.window id = none ∧ granted id = 0 ∧ bytesOn id c.sent = 0
  later : ∀ id, c.last < id → granted id = 0 ∧ bytesOn id c.sent = 0

variable {granted : Nat → Nat} {connection : Nat} {c d : Core}

lemma Balanced.waiting_known (hb : c.Balanced granted connection) {id : Nat} (hw : id ∈ detachedIds c.ready) : id ≤ c.last :=
  hb.known.ready (id, true) (mem_detachedIds.mp hw)

/-- A change of one window, to what its stream is owed. -/
lemma Balanced.stream_update (hb : c.Balanced granted connection) {id : Nat} {v : Option Int}
    (ho : ∀ w, v = some w → w = c.initial + granted id - bytesOn id c.sent) :
    ∀ o w, Function.update c.window id v o = some w → w = c.initial + granted o - bytesOn o c.sent := by
  intro o w hh
  by_cases hs : o = id
  · rw [hs, update_self] at hh
    exact hs ▸ ho w hh
  · rw [update_of_ne hs] at hh
    exact hb.stream o w hh

/-- A stream that starts on the initial window. -/
lemma owed_initial {id : Nat} (hn : granted id = 0) (hs : bytesOn id c.sent = 0) :
    ∀ w, some (c.initial : Int) = some w → w = c.initial + granted id - bytesOn id c.sent := by
  intro w hi
  rw [hn, hs, ← Option.some.inj hi]
  simp

section

variable (hb : c.Balanced granted connection)

include hb

/-- Detached requests stay out of the table when another stream changes. -/
lemma Balanced.untouched_update {id : Nat} (ha : id ∉ detachedIds c.ready) :
    ∀ o ∈ detachedIds c.ready, Function.update c.window id v o = none ∧ granted o = 0 ∧ bytesOn o c.sent = 0 := by
  intro o hw
  have hc : o ≠ id := fun hs => ha (hs ▸ hw)
  exact ⟨(update_of_ne hc ..).trans (hb.untouched o hw).1, (hb.untouched o hw).2⟩

lemma Balanced.untouched_erase {id : Nat} :
    ∀ o ∈ detachedIds c.ready, Function.update c.window id none o = none ∧ granted o = 0 ∧ bytesOn o c.sent = 0 := by
  intro o hw
  obtain ⟨hg, hr⟩ := hb.untouched o hw
  refine ⟨?_, hr⟩
  by_cases hs : o = id
  · rw [hs, update_self]
  · rw [update_of_ne hs, hg]

lemma Balanced.move (hm : Move P c fs d) : d.Balanced granted connection := by
  have hk := hb.known.move hm
  obtain ⟨hz, ht, ha, hr, hj, hu, hl⟩ := id hb
  cases hm with
  | assemble | headers | refuse | preencoded | release => exact ⟨hk, ht, ha, hr, hj, hu, hl⟩
  | enter new =>
    obtain ⟨hn, hq⟩ := hl _ new
    exact ⟨hk, ht, ha, hb.stream_update (owed_initial hn hq), hj,
      hb.untouched_update fun hw => not_lt.mpr (hb.waiting_known hw) new,
      fun o hc => hl o (new.trans hc)⟩
  | @detach id new =>
    obtain ⟨hn, hq⟩ := hl id new
    have hv : c.window id = none := by
      by_contra hh
      exact absurd (hz.tabled id (Option.isSome_iff_ne_none.mpr hh)) (not_le.mpr new)
    have hfs : id ∉ detachedIds c.ready := fun hw => not_lt.mpr (hb.waiting_known hw) new
    refine ⟨hk, ht, ha, hr, ?_, ?_, fun o hc => hl o (new.trans hc)⟩
    · rw [detachedIds_concat]
      exact nodup_append.mpr ⟨hj, by simp, by simpa using fun a hth => ne_of_mem_of_not_mem hth hfs⟩
    rw [detachedIds_concat]
    intro o hw
    rcases mem_append.mp hw with old | hs
    · exact hu o old
    · rw [mem_singleton.mp hs]
      exact ⟨hv, hn, hq⟩
  | @complete id ho =>
    have hs : detachedIds (c.ready ++ [(id, false)]) = detachedIds c.ready := by simp [detachedIds_concat]
    exact ⟨hk, ht, ha, hr, hs ▸ hj, hs ▸ hu, hl⟩
  | @take id tl hf =>
    have hs : detachedIds c.ready = detachedIds tl := by simp [hf, detachedIds]
    exact ⟨hk, ht, ha, hr, hs ▸ hj, hs ▸ hu, hl⟩
  | @answer id tl hf =>
    have hfr : detachedIds c.ready = id :: detachedIds tl := by simp [hf, detachedIds]
    obtain ⟨hv, hn, hq⟩ := hu id (by simp [hfr])
    rw [hfr] at hj hu
    obtain ⟨hon, hj⟩ := nodup_cons.mp hj
    refine ⟨hk, ht, ha, ?_, hj, ?_, hl⟩
    · rw [hv]
      exact hb.stream_update (owed_initial hn hq)
    intro o hw
    have hy : o ≠ id := fun hs => hon (hs ▸ hw)
    obtain ⟨hg, tl⟩ := hu o (mem_cons_of_mem _ hw)
    exact ⟨(update_of_ne hy ..).trans hg, tl⟩
  | @data id size w ho hfi he =>
    have hx : id ∉ detachedIds c.ready := fun hw => by
      rw [(hu id hw).1] at ho
      cases ho
    have how := hr id w ho
    refine ⟨hk, ?_, by dsimp only; omega, ?_, hj, ?_, ?_⟩
    · simp only [map_append, sum_append, ht]
      simp
      omega
    · intro o v hh
      dsimp only at hh ⊢
      rw [bytesOn_concat]
      by_cases hs : o = id
      · rw [hs, update_self] at hh
        rw [hs, if_pos rfl]
        have := Option.some.inj hh
        omega
      · rw [update_of_ne hs] at hh
        rw [if_neg (Ne.symm hs), hr o v hh, add_zero]
    · intro o hw
      have hy : o ≠ id := fun hs => hx (hs ▸ hw)
      obtain ⟨hg, hn, hq⟩ := hu o hw
      rw [bytesOn_concat, if_neg (Ne.symm hy)]
      exact ⟨(update_of_ne hy ..).trans hg, hn, hq⟩
    · intro o hc
      have hy : id ≠ o := fun hs => by
        have := hz.tabled id (by rw [ho]; rfl)
        dsimp only at hc
        omega
      rw [bytesOn_concat, if_neg hy]
      exact hl o hc
  | @close id =>
    have hs : ∀ o, bytesOn o (c.sent ++ [(id, 0)]) = bytesOn o c.sent := by
      intro o
      rw [bytesOn_concat]
      split <;> rfl
    refine ⟨hk, by simpa using ht, ha, ?_, hj, ?_, ?_⟩
    · intro o v hh
      rw [hs]
      exact hr o v hh
    · intro o hw
      rw [hs]
      exact hu o hw
    intro o hc
    rw [hs]
    exact hl o hc
  | retire => exact ⟨hk, ht, ha, hb.stream_update (by simp), hj, hb.untouched_erase, hl⟩
  | @reset id =>
    have hp : (detachedIds (c.ready.filter fun ready => ready.1 ≠ id)).Sublist
        (detachedIds c.ready) := (filter_sublist.filter _).map _
    exact ⟨hk, ht, ha, hb.stream_update (by simp), hp.nodup hj, fun o hw => hb.untouched_erase o (hp.subset hw), hl⟩

lemma Balanced.moves (hm : Moves P c fs d) : d.Balanced granted connection := by
  induction hm with
  | refl => exact hb
  | step ho _ ih => exact ih (hb.move ho)

end

lemma initial_move (hm : Move P c fs d) : d.initial = c.initial := by cases hm <;> rfl

lemma initial_moves (hm : Moves P c fs d) : d.initial = c.initial := by
  induction hm with
  | refl => rfl
  | step ho _ ih => exact ih.trans (initial_move ho)

section

variable (hb : c.Balanced granted connection)

include hb

lemma Balanced.move_within (hm : Move P c fs d)
    (id : Nat) : bytesOn id d.sent = bytesOn id c.sent ∨ bytesOn id d.sent ≤ d.initial + granted id := by
  cases hm with
  | @data other size w ho hf he =>
    dsimp only
    rw [bytesOn_concat]
    split
    next hs =>
      subst hs
      have hw := hb.stream other w ho
      exact .inr (by omega)
    · exact .inl rfl
  | @close other =>
    left
    rw [bytesOn_concat]
    split <;> rfl
  | _ => exact .inl rfl

/-- DATA that is sent stays within what its stream is owed. -/
lemma Balanced.moves_within (ho : Moves P c fs d)
    (id : Nat) : bytesOn id d.sent = bytesOn id c.sent ∨ bytesOn id d.sent ≤ d.initial + granted id := by
  induction ho with
  | refl => exact .inl rfl
  | step hm hr ih =>
    rcases ih (hb.move hm) with hs | hw
    · rw [hs, initial_moves hr]
      exact hb.move_within hm id
    · exact .inr hw

lemma Balanced.turn (htu : Turn P c fs d) : d.Balanced granted connection ∧ ∀ id,
      bytesOn id d.sent = bytesOn id c.sent ∨ bytesOn id d.sent ≤ d.initial + granted id := by
  have hk := hb.known.turn htu
  obtain ⟨-, hm, hf⟩ := htu
  obtain ⟨-, ht, ha, hs, hdi, hu, hl⟩ := hb.moves hm
  have hw := hb.moves_within hm
  cases hf with
  | done | hold => exact ⟨⟨hk, ht, ha, hs, hdi, hu, hl⟩, hw⟩

lemma Balanced.settings (p : Settings) : (c.settings p).Balanced granted connection where
  known := hb.known.settings p
  total := hb.total
  allowed := hb.allowed
  stream := by
    intro id w hh
    obtain ⟨v, he, rfl⟩ := Option.map_eq_some_iff.mp hh
    have ho := hb.stream id v he
    simp only [Core.settings]
    omega
  distinct := hb.distinct
  untouched := by
    intro id hw
    obtain ⟨hg, hr⟩ := hb.untouched id hw
    exact ⟨by simp [Core.settings, hg], hr⟩
  later := hb.later

end

/-- What a WINDOW_UPDATE on `id` adds to the ledger of the streams. -/
def grants (granted : Nat → Nat) (last id increment other : Nat) : Nat :=
  if 0 < other ∧ other ≤ last then granted other + (if id = other then increment else 0)
  else granted other

lemma grants_ne {last id inc o : Nat} (ha : o ≠ id) : grants granted last id inc o = granted o := by
  unfold grants
  rw [if_neg (Ne.symm ha), add_zero, ite_self]

lemma Balanced.grant (hv : c.Balanced granted connection) (id inc : Nat) (hj : id ∉ detachedIds c.ready) :
    (c.grant id inc).Balanced (grants granted c.last id inc) (connection + if id = 0 then inc else 0) := by
  obtain ⟨hb, hm, ha, he, hf, hn, hq⟩ := hv
  have hk := hb.grant id inc
  have hu : ∀ o ∈ detachedIds c.ready, c.window o = none ∧ grants granted c.last id inc o = 0 ∧ bytesOn o c.sent = 0 := by
    intro o hw
    have hc : o ≠ id := fun hs => hj (hs ▸ hw)
    rw [grants_ne hc]
    exact hn o hw
  have hl : ∀ o, c.last < o → grants granted c.last id inc o = 0 ∧ bytesOn o c.sent = 0 := by
    intro o hx
    rw [grants, if_neg (by omega)]
    exact hq o hx
  unfold Core.grant at hk ⊢
  split at hk
  next hz =>
    have hs : grants granted c.last id inc = granted := by
      funext o
      unfold grants
      split
      · rw [if_neg (by omega), add_zero]
      · rfl
    rw [if_pos hz, if_pos hz, hs]
    exact ⟨hk, by dsimp only; omega, by dsimp only; omega, he, hf, hn, hq⟩
  next hp =>
    rw [if_neg hp, if_neg hp]
    cases hh : c.window id with
    | none =>
      refine ⟨hb, hm, ha, ?_, hf, hu, hl⟩
      intro o w ht
      have hc : o ≠ id := fun hs => by
        rw [hs, hh] at ht
        cases ht
      rw [grants_ne hc]
      exact he o w ht
    | some w =>
      rw [hh] at hk
      refine ⟨hk, hm, ha, ?_, hf, ?_, hl⟩
      · intro o v ht
        dsimp only at ht ⊢
        by_cases hs : o = id
        · have ho := hb.tabled id (by rw [hh]; rfl)
          rw [hs, update_self] at ht
          rw [hs, grants, if_pos (by omega), if_pos rfl]
          have hy := he id w hh
          have := Option.some.inj ht
          omega
        rw [update_of_ne hs] at ht
        rw [grants_ne hs]
        exact he o v ht
      · intro o hw
        have hc : o ≠ id := fun hs => hj (hs ▸ hw)
        obtain ⟨hg, hr⟩ := hu o hw
        exact ⟨(update_of_ne hc ..).trans hg, hr⟩

end Core

def Ledger.Balanced (l : Ledger) : Prop := l.session.core.Balanced l.granted l.connection

lemma Session.detached_iff {s : Session} {id : Nat} : s.Detached id ↔ id ∈ detachedIds s.core.ready := by
  rw [mem_detachedIds, Detached, core, mem_map]
  simp only [Prod.mk.injEq]

namespace Ledger

variable {cfg : SessionConfig} {l l' : Ledger} {a : Step}

lemma step_silent (hs : ∀ id, a.increment id = 0) (ht : l.step cfg a = some l') :
    l'.granted = l.granted ∧ l'.connection = l.connection := by
  obtain ⟨s', -, rfl⟩ := Option.map_eq_some_iff.mp ht
  exact ⟨funext fun id => by simp [hs], by simp [hs]⟩

/-- What the peer has granted with this step is in the ledger. -/
lemma Balanced.heard (hb : l.Balanced) (hc : l.Counted a) (ht : l.step cfg a = some l') :
    (l.session.heard a).Balanced l'.granted l'.connection := by
  have hn : (∀ id, a.increment id = 0) → l.session.core.Balanced l'.granted l'.connection := by
    intro hs
    rw [(step_silent hs ht).1, (step_silent hs ht).2]
    exact hb
  cases a with
  | frame hdr pl follows =>
    by_cases hu : hdr.type = .windowUpdate
    · have hg := Core.Balanced.grant hb hdr.streamId
        ((incrementOf pl).getD 0)
        (fun hw => hc hu (detached_iff.mpr hw))
      obtain ⟨s', -, rfl⟩ := Option.map_eq_some_iff.mp ht
      simp only [heard, Session.granted, Step.increment, hu, true_and]
      exact hg
    have hk := hn fun id => by simp [Step.increment, hu]
    simp only [heard, Session.granted]
    split
    · split
      · exact hk
      · exact hk.settings _
    next hp => exact absurd hp hu
    · exact hk
  | _ => exact hn fun _ => rfl

lemma Balanced.step (hb : l.Balanced) (hc : l.Counted a) (ht : l.step cfg a = some l') :
    l'.Balanced ∧ ∀ id, l'.session.sentOn id = l.session.sentOn id ∨
      l'.session.sentOn id ≤ l'.session.peer.initialWindowSize + l'.granted id := by
  have hh := hb.heard hc ht
  obtain ⟨s', hs, rfl⟩ := Option.map_eq_some_iff.mp ht
  obtain ⟨fs, -, hu⟩ := turn_step hs
  refine ⟨(hh.turn hu).1, fun id => ?_⟩
  have hw := (hh.turn hu).2 id
  rw [(heard_kept l.session a).1] at hw
  exact hw

lemma balanced_of_reached (hr : Reached (step cfg) Counted {} l) : l.Balanced :=
  hr.invariant Ledger.Balanced
    { known := (show Session.Reachable cfg {} from .start).known
      total := by decide
      allowed := by decide
      stream := by simp [core]
      distinct := by simp [core, detachedIds]
      untouched := by simp [core, detachedIds]
      later := fun _ _ => ⟨rfl, rfl⟩ }
    fun hb hc ht => (hb.step hc ht).1

end Ledger

/-- In every run without a WINDOW_UPDATE for a detached request: the connection and every
stream whose response is not finished have exactly the credit they are owed, and what a step
queues is within it. -/
theorem send_credit_conserved {cfg : SessionConfig} {l : Ledger}
    (reached : Reached (Ledger.step cfg) Ledger.Counted {} l) :
    l.session.sendWindow = 65535 + l.connection - l.session.sentBytes ∧ 0 ≤ l.session.sendWindow ∧
      (∀ id, l.session.Unfinished id →
        l.session.streamWindow id 0 = l.session.peer.initialWindowSize + l.granted id - l.session.sentOn id) ∧
      ∀ a l', l.Counted a → l.step cfg a = some l' →
        ∀ id, l.session.sentOn id < l'.session.sentOn id →
          l'.session.sentOn id ≤ l'.session.peer.initialWindowSize + l'.granted id := by
  have hb := Ledger.balanced_of_reached reached
  refine ⟨hb.total, hb.allowed, fun id hu => ?_, fun a l' hc he id hm => ?_⟩
  · rw [Session.streamWindow_eq]
    rcases hu with ht | hde
    · obtain ⟨strm, hh⟩ := Option.isSome_iff_exists.mp ht
      have hw : l.session.core.window id = some strm.sendWindow.value := by simp [Session.core, hh]
      rw [hw]
      exact hb.stream id _ hw
    obtain ⟨ha, hn, hs⟩ := hb.untouched id (Session.detached_iff.mp hde)
    have none : l.session.sentOn id = 0 := hs
    rw [ha, hn, none]
    simp [Session.core]
  · rcases (hb.step hc he).2 id with hsa | hwi
    · omega
    · exact hwi

/-- A session that keeps complete requests out of the table. -/
def borrowing : SessionConfig := { kind := .borrowed }

/-- `GET /`, answered with three bytes after the connection got 1000 more. -/
def answeredWithin : List Step :=
  [.frame { type := .headers, flags := flagEndHeaders ||| flagEndStream, streamId := 1 } [0x82, 0x84, 0x86] false,
    .frame { type := .windowUpdate, streamId := 0 } (u32Bytes 1000) false,
    .dispatch { body := [1, 2, 3] }]

theorem send_credit_conserved_answered :
    ∃ l : Ledger, runChecked (Ledger.step borrowing) Ledger.Counted {} answeredWithin = some l ∧
      l.session.sentBytes = 3 ∧ l.session.sendWindow = 65535 + l.connection - l.session.sentBytes := by
  refine ⟨(runChecked (Ledger.step borrowing) Ledger.Counted {} answeredWithin).get (by decide +kernel),
    (Option.some_get _).symm, by decide +kernel, ?_⟩
  exact (send_credit_conserved (Reached.start.runChecked answeredWithin (Option.some_get _).symm)).1

/-- `GET /`, and a WINDOW_UPDATE of 1000 bytes for its stream in the same read. -/
def updateBeforeAnswer : List Step :=
  [.frame { type := .headers, flags := flagEndHeaders ||| flagEndStream, streamId := 1 } [0x82, 0x84, 0x86] false,
    .frame { type := .windowUpdate, streamId := 1 } (u32Bytes 1000) false]

theorem detached_update_lost :
    ∃ l : Ledger, updateBeforeAnswer.foldlM (Ledger.step borrowing) {} = some l ∧
      l.session.Unfinished 1 ∧ l.granted 1 = 1000 ∧ l.session.sentOn 1 = 0 ∧
      l.session.peer.initialWindowSize = 65535 ∧ l.session.streamWindow 1 0 = 65535 := by
  refine ⟨(updateBeforeAnswer.foldlM (Ledger.step borrowing) {}).get (by decide +kernel), (Option.some_get _).symm, ?_⟩
  decide +kernel

end Cnetmod.Http.V2
