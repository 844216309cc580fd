import Cnetmod.Http.Spec.FrameMoves
import Cnetmod.Consensus.Run

/-!
# Runs of a session

A run is a sequence of frames, of answers by handlers and of the turns a streamed
response takes, in any order; a frame that is refused ends it, as it ends
`session::run`. What `receive` does with a read is such a run.
-/
namespace Cnetmod.Http.V2

open Coding Consensus List

inductive Step where
  | greet
  | frame (header : FrameHeader) (payload : Bytes) (completeBodyFollows : Bool)
  | dispatch (response : ServerResponse)
  | dispatchBackground
  | respond (streamId : Nat) (response : ServerResponse)
  | writeHeaders (streamId : Nat)
  | writeData (streamId : Nat) (chunk : Bytes)
  | writeEnd (streamId : Nat)
  | returnFlowCredit (credits : List (Nat × Nat))
  | returnConnectionCredit (credit : Nat)
  | consumeChunk (streamId : Nat)

/-- The block encoded in advance that a response brings along. -/
def Step.Offers : Step → PreencodedHeaderBlock → Prop
  | .dispatch response, pre => response.usePreencoded = some pre
  | .respond _ response, pre => response.usePreencoded = some pre
  | _, _ => False

namespace Session

variable (cfg : SessionConfig)

def step (s : Session) : Step → Option Session
  | .greet => some (s.queueFrame { type := .settings } (encodeSettings cfg.localSettings))
  | .frame header payload follows =>
    match s.processFrame cfg header payload follows with
    | (s, .ok _) => some s
    | (_, .error _) => none
  | .dispatch response => some (s.dispatch cfg response)
  | .dispatchBackground => some (s.dispatchBackground cfg)
  | .respond id response => some (s.respond cfg id response)
  | .writeHeaders id => some (s.writeHeaders id)
  | .writeData id chunk => some (s.writeData id chunk)
  | .writeEnd id => some (s.writeEnd id)
  | .returnFlowCredit credits => some (s.returnFlowCredit credits)
  | .returnConnectionCredit credit => some (s.returnConnectionCredit credit)
  | .consumeChunk id => some (s.consumeChunk id)

/-- The states a session can be in. -/
def Reachable (s : Session) : Prop := Reached (step cfg) (fun _ _ => True) {} s

/-- The windows and the limit a step starts from. -/
def heard (s : Session) : Step → Core
  | .frame header payload _ => s.granted header payload
  | _ => s.core

/-- All the fields a step may encode. -/
def mayEncode (s : Session) : Step → List HeaderField
  | .frame .. => s.drainFields cfg
  | .dispatch response => response.encodes
  | .respond _ response => response.encodes
  | .writeEnd id => s.sourceTrailers id
  | _ => []

variable {cfg} {s' s : Session}

lemma turn_step (ht : s.step cfg a = some s') :
    ∃ fs, fs.Sublist (s.mayEncode cfg a) ∧ Turn a.Offers (s.heard a) fs s'.core := by
  have hs : ∀ {c : Core}, Moves a.Offers c [] s'.core → ∃ fs, fs.Sublist (s.mayEncode cfg a) ∧ Turn a.Offers c fs s'.core :=
    fun hm => ⟨[], nil_sublist _, hm.turn⟩
  cases a with
  | greet =>
    cases ht
    exact hs (.of_eq (core_queueFrame (by simp)).symm)
  | frame hdr pl follows =>
    simp only [step] at ht
    match hp : s.processFrame cfg hdr pl follows with
    | (t, .error _) => simp [hp] at ht
    | (t, .ok _) =>
      simp only [hp, Option.some.injEq] at ht
      subst ht
      obtain ⟨fs, ha, hm⟩ := moves_frame hp
      exact ⟨fs, ha, hm.turn⟩
  | dispatch resp =>
    cases ht
    exact turn_dispatch s resp fun _ hu => hu
  | dispatchBackground =>
    cases ht
    exact hs (moves_dispatchBackground s)
  | respond id resp =>
    cases ht
    exact turn_respond cfg s id resp fun _ hu => hu
  | writeHeaders id =>
    cases ht
    exact hs (moves_writeHeaders s id)
  | writeData id chunk =>
    cases ht
    exact hs (moves_writeData s id chunk)
  | writeEnd id =>
    cases ht
    obtain ⟨fs, ha, hm⟩ := moves_writeEnd s id
    exact ⟨fs, ha, hm.turn⟩
  | returnFlowCredit credits =>
    cases ht
    exact hs (.of_eq (core_returnFlowCredit s credits).symm)
  | returnConnectionCredit credit =>
    cases ht
    exact hs (.of_eq (core_returnConnectionCredit s credit).symm)
  | consumeChunk id =>
    cases ht
    exact hs (.of_eq (core_consumeChunk s id).symm)

/-- SETTINGS and WINDOW_UPDATE say nothing about what has been sent. -/
lemma heard_kept (s : Session) (a : Step) :
    (s.heard a).sent = s.core.sent ∧ (s.heard a).blocks = s.core.blocks ∧ (s.heard a).waiting = s.core.waiting := by
  cases a with
  | frame hdr pl follows =>
    simp only [heard, granted, Core.grant, Core.settings]
    split
    · split <;> exact ⟨rfl, rfl, rfl⟩
    · split
      · exact ⟨rfl, rfl, rfl⟩
      · split <;> exact ⟨rfl, rfl, rfl⟩
    · exact ⟨rfl, rfl, rfl⟩
  | _ => exact ⟨rfl, rfl, rfl⟩

/-- A read is parsed frame by frame. -/
lemma reachable_receiveLoop (k : Nat) (he : s.Reachable cfg)
    (hr : s.receiveLoop cfg k bs = (s', tl, .ok ())) : s'.Reachable cfg := by
  induction k generalizing s bs with
  | zero =>
    cases hr
    exact he
  | succ k ih =>
    rw [receiveLoop] at hr
    split at hr
    · cases hr
      exact he
    cases hh : decodeFrameHeader bs with
    | error code => simp [hh] at hr
    | ok hdr =>
      simp only [hh] at hr
      split at hr
      · cases hr
        exact he
      match hp : s.processFrame cfg hdr ((bs.drop frameHeaderSize).take hdr.length)
          (completeBodyFollows cfg hdr (bs.drop (frameHeaderSize + hdr.length))) with
      | (t, .error code) => simp [hp] at hr
      | (t, .ok _) =>
        simp only [hp] at hr
        have ht : s.step cfg (.frame hdr ((bs.drop frameHeaderSize).take hdr.length)
            (completeBodyFollows cfg hdr (bs.drop (frameHeaderSize + hdr.length)))) =
            some t := by
          simp only [step, hp]
        exact ih (.next he trivial ht) hr

end Session

/-- `receive` takes a session through reachable states. -/
theorem Connection.reachable_receive {cfg : SessionConfig} {c c' : Connection}
    (he : c.session.Reachable cfg) (hr : c.receive cfg bs = (c', .ok ())) : c'.session.Reachable cfg := by
  unfold receive at hr
  dsimp only at hr
  split at hr
  · split at hr
    · cases hr
    next hl =>
      cases hr
      exact Session.reachable_receiveLoop _ he hl
  split at hr
  · cases hr
    exact he
  split at hr
  · cases hr
  split at hr
  · cases hr
  rename_i hl
  cases hr
  exact Session.reachable_receiveLoop _ (.next he (a := .greet) trivial rfl) hl

/-- The preface and an empty SETTINGS frame. -/
def settingsOpening : Bytes := clientPreface ++ [0, 0, 0, 4, 0, 0, 0, 0, 0]

theorem receive_settings :
    (Connection.receive {} {} settingsOpening).1.session.receivedSettings = true ∧
      (Connection.receive {} {} settingsOpening).1.session.Reachable {} :=
  ⟨by decide +kernel, Connection.reachable_receive (c := {}) .start (Prod.ext rfl (by decide +kernel))⟩

/-- No stream is ahead of the last one the peer has opened, and nothing is left over from a
header block that is complete. -/
structure Core.Known (c : Core) : Prop where
  clean : c.assembly.Clean
  tabled : ∀ id, (c.window id).isSome → id ≤ c.last
  ready : ∀ r ∈ c.ready, r.1 ≤ c.last

namespace Core

lemma tabled_update {last id : Nat} {v : Option Int} (ha : ∀ id, (win id).isSome → id ≤ last) (hh : v.isSome → id ≤ last) :
    ∀ o, (Function.update win id v o).isSome → o ≤ last := by
  intro o ht
  by_cases hs : o = id
  · rw [hs, Function.update_self] at ht
    exact hs ▸ hh ht
  · rw [Function.update_of_ne hs] at ht
    exact ha o ht

variable {fs : List HeaderField} {c d : Core}

lemma Known.move (hk : c.Known) (ha : Move P c fs d) : d.Known := by
  obtain ⟨hc, ht, hr⟩ := hk
  cases ha with
  | assemble a => exact ⟨a, ht, hr⟩
  | enter new =>
    have hl : ∀ id, (c.window id).isSome → id ≤ _ := fun id hh => (ht id hh).trans new.le
    exact ⟨hc, tabled_update hl fun _ => le_rfl, fun r hm => (hr r hm).trans new.le⟩
  | detach new =>
    refine ⟨hc, fun id hh => (ht id hh).trans new.le, fun r hm => ?_⟩
    rcases mem_append.mp hm with old | hfr
    · exact (hr r old).trans new.le
    · rw [mem_singleton.mp hfr]
  | complete ho =>
    refine ⟨hc, ht, fun r hm => ?_⟩
    rcases mem_append.mp hm with old | hfr
    · exact hr r old
    · rw [mem_singleton.mp hfr]
      exact ht _ ho
  | take hf => exact ⟨hc, ht, fun r hm => hr r (hf ▸ mem_cons_of_mem _ hm)⟩
  | answer hf =>
    exact ⟨hc, tabled_update ht fun _ => hr (_, true) (hf ▸ mem_cons_self), fun r hm => hr r (hf ▸ mem_cons_of_mem _ hm)⟩
  | data ho => exact ⟨hc, tabled_update ht fun _ => ht _ (by rw [ho]; rfl), hr⟩
  | close | headers | refuse | preencoded | release => exact ⟨hc, ht, hr⟩
  | retire => exact ⟨hc, tabled_update ht (by simp), hr⟩
  | reset => exact ⟨hc, tabled_update ht (by simp), fun r hm => hr r (mem_of_mem_filter hm)⟩

lemma Known.moves (hk : c.Known) (hm : Moves P c fs d) : d.Known := by
  induction hm with
  | refl => exact hk
  | step ho _ ih => exact ih (hk.move ho)

lemma Known.turn (hk : c.Known) (ht : Turn P c fs d) : d.Known := by
  obtain ⟨-, hm, hf⟩ := ht
  have ha := hk.moves hm
  cases hf with
  | done => exact ha
  | hold => exact ⟨ha.clean, ha.tabled, ha.ready⟩

lemma Known.settings (hk : c.Known) (p : Settings) : (c.settings p).Known :=
  ⟨hk.clean, fun id hh => hk.tabled id (by simpa [Core.settings] using hh), hk.ready⟩

lemma Known.grant (hk : c.Known) (id inc : Nat) : (c.grant id inc).Known := by
  unfold Core.grant
  split
  · exact ⟨hk.clean, hk.tabled, hk.ready⟩
  cases hh : c.window id with
  | none => exact hk
  | some w => exact ⟨hk.clean, tabled_update hk.tabled fun _ => hk.tabled id (by rw [hh]; rfl), hk.ready⟩

end Core

variable {s : Session}

lemma Session.known_heard (hk : s.core.Known) (a : Step) : (s.heard a).Known := by
  cases a with
  | frame hdr pl follows =>
    simp only [heard, granted]
    split
    · split
      · exact hk
      · exact hk.settings _
    · exact hk.grant _ _
    · exact hk
  | _ => exact hk

lemma Session.Reachable.known {cfg : SessionConfig} (hr : s.Reachable cfg) : s.core.Known := by
  refine hr.invariant (fun s => s.core.Known) ⟨fun _ => ⟨rfl, rfl⟩, by simp [core], by simp [core]⟩ ?_
  intro s a t hk _ ha
  obtain ⟨fs, -, ht⟩ := turn_step ha
  exact (known_heard hk a).turn ht

end Cnetmod.Http.V2
