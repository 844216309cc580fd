import Cnetmod.Http.Spec.SessionMoves

/-!
# What the session does with a frame

A frame that is accepted first changes the windows or the table limit, if it is
SETTINGS or WINDOW_UPDATE; whatever else it does is a sequence of moves. A frame
that is refused ends the connection.
-/
namespace Cnetmod.Http.V2

open Coding Function

namespace Core

/-- SETTINGS change the initial window, every window with it, and the table limit. -/
def settings (c : Core) (peer : Settings) : Core :=
  { c with
    initial := peer.initialWindowSize
    window := fun id => (c.window id).map fun w => w + (peer.initialWindowSize - c.initial)
    encoder := c.encoder.setDynamicTableLimit peer.headerTableSize }

/-- WINDOW_UPDATE; for a stream that is not in the table it does nothing. -/
def grant (c : Core) (id increment : Nat) : Core :=
  if id = 0 then { c with sendWindow := c.sendWindow + increment }
  else
    match c.window id with
    | some w => { c with window := update c.window id (some (w + increment)) }
    | none => c

end Core

namespace Session

variable {cfg : SessionConfig} {P : PreencodedHeaderBlock → Prop}
variable {s s' : Session} {header : FrameHeader} {pl : Bytes}

/-- What a frame changes in the windows and in the limit. -/
def granted (s : Session) (header : FrameHeader) (payload : Bytes) : Core :=
  match header.type with
  | .settings => if header.has flagAck then s.core else s.core.settings (decodeSettings payload s.peer).1
  | .windowUpdate => s.core.grant header.streamId ((incrementOf payload).getD 0)
  | _ => s.core

lemma foldl_adjustOne_false (delta : Int) (ids : List Nat) (s : Session) :
    ids.foldl (adjustOne delta) (s, false) = (s, false) := by
  induction ids with
  | nil => rfl
  | cons id ids ih =>
    have hs : adjustOne delta (s, false) id = (s, false) := by
      unfold adjustOne
      cases s.streams.lookup id <;> rfl
    rw [List.foldl_cons, hs, ih]

variable {follows : Bool} {t : Session} {id : Nat} {b : Bytes} {delta : Int}

/-- One stream is adjusted, the others are left alone. -/
lemma adjustOne_true (ha : adjustOne delta (s, true) id = (t, true)) : t = { s with streams := t.streams } ∧
      ∀ o, t.core.window o = if o = id then (s.core.window id).map fun w => w + delta else s.core.window o := by
  unfold adjustOne at ha
  cases hh : s.streams.lookup id with
  | none =>
    simp only [hh] at ha
    cases ha
    refine ⟨rfl, fun o => ?_⟩
    split
    next hs =>
      subst hs
      simp [core, hh]
    · rfl
  | some strm =>
    simp only [hh] at ha
    cases hc : strm.sendWindow.adjust delta with
    | none => simp [hc] at ha
    | some sendWindow =>
      simp only [hc, Bool.not_true, Bool.false_eq_true, if_false, Prod.mk.injEq, and_true]
        at ha
      have hv : sendWindow.value = strm.sendWindow.value + delta := by
        unfold FlowWindow.adjust at hc
        split at hc
        · cases hc
        · cases hc
          rfl
      subst ha
      refine ⟨rfl, fun o => ?_⟩
      rw [core_insert]
      split
      next hs =>
        subst hs
        simp [core, hh, hv]
      next hb => exact update_of_ne hb ..

lemma foldl_adjustOne (delta : Int) (ids : List Nat) (hb : ids.Nodup)
    (ha : ids.foldl (adjustOne delta) (s, true) = (t, true)) : t = { s with streams := t.streams } ∧
      ∀ id, t.core.window id = if id ∈ ids then (s.core.window id).map fun w => w + delta else s.core.window id := by
  induction ids generalizing s with
  | nil =>
    cases ha
    exact ⟨rfl, fun id => by simp⟩
  | cons hd ids ih =>
    obtain ⟨hf, hb⟩ := List.nodup_cons.mp hb
    rw [List.foldl_cons] at ha
    match one : adjustOne delta (s, true) hd with
    | (u, false) =>
      rw [one, foldl_adjustOne_false] at ha
      simp at ha
    | (u, true) =>
      rw [one] at ha
      obtain ⟨hc, hg⟩ := adjustOne_true one
      obtain ⟨hs, hw⟩ := ih hb ha
      refine ⟨by rw [hs, hc], fun id => ?_⟩
      rw [hw, hg]
      by_cases he : id = hd
      · subst he
        simp [hf]
      · simp [he]

lemma core_adjustStreams (ha : s.adjustStreams cfg delta = (t, true)) :
    t = { s with streams := t.streams } ∧ t.core.window = fun id => (s.core.window id).map fun w => w + delta := by
  unfold adjustStreams at ha
  split at ha
  · have ho := cfg.iteration.perm s.streams.keys
    obtain ⟨hs, hw⟩ := foldl_adjustOne delta _ (ho.nodup_iff.mpr s.streams.keys_nodup) ha
    refine ⟨hs, funext fun id => ?_⟩
    rw [hw]
    split
    · rfl
    rename_i hab
    have hg : s.streams.lookup id = none := AList.lookup_eq_none.mpr fun hl => hab (ho.mem_iff.mpr hl)
    simp [core, hg]
  next hu =>
    cases ha
    refine ⟨rfl, funext fun id => ?_⟩
    have hz : delta = 0 := by simpa using hu
    simp [hz]

lemma moves_settings (ht : header.type = .settings) (ha : s.processSettings cfg header pl = (s', .ok ())) :
    ∃ fs, fs.Sublist (s.drainFields cfg) ∧ Moves P (s.granted header pl) fs s'.core := by
  simp only [granted, ht]
  unfold processSettings at ha
  split at ha
  · cases ha
  split at ha
  next ack =>
    obtain rfl : s = s' := congrArg Prod.fst ha
    rw [if_pos ack]
    exact ⟨[], List.nil_sublist _, .refl _⟩
  next hr =>
    rw [if_neg hr]
    match hre : decodeSettings pl s.peer with
    | (peer, .error code) => simp [hre] at ha
    | (peer, .ok _) =>
      simp only [hre] at ha
      match had : ({ s with peer } : Session).adjustStreams cfg
          (peer.initialWindowSize - s.peer.initialWindowSize) with
      | (t, false) => simp [had] at ha
      | (t, true) =>
        simp only [had, Prod.mk.injEq, and_true] at ha
        obtain ⟨hs, hw⟩ := core_adjustStreams had
        subst ha
        generalize hu : ({ t with
          encoder := t.encoder.setDynamicTableLimit peer.headerTableSize
          receivedSettings := true } : Session) = u
        have hdr := moves_drain (P := P) cfg (u.queueFrame { type := .settings, flags := flagAck } [])
        have fs : drainFields cfg (u.queueFrame { type := .settings, flags := flagAck } []) = drainFields cfg s := by
          rw [← hu, hs]
          rfl
        have hc : (u.queueFrame { type := .settings, flags := flagAck } []).core = s.core.settings peer := by
          have hp : u.core = { ({ s with peer } : Session).core with
              window := t.core.window
              encoder := s.encoder.setDynamicTableLimit peer.headerTableSize } := by
            rw [← hu, hs]
            rfl
          rw [core_queueFrame (by simp), hp, hw]
          rfl
        rwa [fs, hc] at hdr

lemma moves_windowUpdate (ht : header.type = .windowUpdate) (ha : s.processWindowUpdate cfg header pl = (s', .ok ())) :
    ∃ fields, fields.Sublist (s.drainFields cfg) ∧ Moves P (s.granted header pl) fields s'.core := by
  simp only [granted, ht, Core.grant]
  unfold processWindowUpdate at ha
  cases hr : incrementOf pl with
  | none => simp [hr] at ha
  | some inc =>
    simp only [hr] at ha
    rw [Option.getD_some]
    split at ha
    next hc =>
      rw [if_pos hc]
      split at ha
      · cases ha
      · cases ha
        exact moves_drain cfg ({ s with sendWindow := s.sendWindow + inc } : Session)
    next strm =>
      rw [if_neg strm]
      cases hh : s.streams.lookup header.streamId with
      | none =>
        simp only [hh] at ha
        cases ha
        have ho : s.core.window header.streamId = none := by simp [core, hh]
        rw [ho]
        exact moves_drain cfg s
      | some strm =>
        simp only [hh] at ha
        cases hg : strm.sendWindow.increase inc with
        | none => simp [hg] at ha
        | some sendWindow =>
          simp only [hg] at ha
          cases ha
          have hv : sendWindow.value = strm.sendWindow.value + inc := by
            unfold FlowWindow.increase at hg
            split at hg
            · cases hg
            · cases hg
              rfl
          have hw : s.core.window header.streamId = some strm.sendWindow.value := by simp [core, hh]
          have hdr := moves_drain (P := P) cfg ({ s with
            streams := s.streams.insert header.streamId { strm with sendWindow } } : Session)
          rw [core_insert] at hdr
          rw [hw]
          dsimp only
          rw [← hv]
          exact hdr

lemma core_startStreamingRequest (s : Session) (id : Nat) : (s.startStreamingRequest cfg id).core = s.core := by
  unfold startStreamingRequest
  cases hh : s.streams.lookup id with
  | none => rfl
  | some strm =>
    dsimp only
    split
    · rfl
    · exact core_insert_same hh rfl

lemma assembly_nothing : (⟨0, false, []⟩ : Assembly).Clean := fun _ => ⟨rfl, rfl⟩

lemma moves_acceptDetached (a : Assembly) (new : s.lastPeerStreamId < id) (hi : s.continuationStreamId = 0)
    (he : s.continuationEndStream = false) (ha : s.acceptDetached id b = (s', .ok ())) :
    Moves P { s.core with assembly := a } [] s'.core := by
  unfold acceptDetached at ha
  match hr : s.decoder.decode b with
  | (decoder, .error code) => simp [hr] at ha
  | (decoder, .ok fields) =>
    simp only [hr] at ha
    split at ha
    · cases ha
    cases ha
    have hs : Moves P { s.core with assembly := a } []
        { s.core with assembly := ⟨0, false, []⟩ } := .one (.assemble assembly_nothing)
    have hb := hs.silent (.one (@Move.detach P _ id new))
    simpa [core, hi, he] using hb

lemma moves_acceptStream (a : Assembly) (new : s.lastPeerStreamId < id) (hb : s.continuationStreamId = 0)
    (hn : s.continuationEndStream = false) (ha : s.acceptStream cfg id b fin follows = (s', .ok ())) :
    Moves P { s.core with assembly := a } [] s'.core := by
  unfold acceptStream at ha
  match hh : s.streams.lookup id, hp : (s.newStream cfg id).prepareHeaders fin with
  | some _, _ => simp [hh] at ha
  | none, none => simp [hh, hp] at ha
  | none, some stream =>
    simp only [hh, hp] at ha
    have hw : stream.sendWindow = ⟨s.peer.initialWindowSize⟩ := by
      unfold Stream.prepareHeaders at hp
      split at hp
      · cases hp
      · cases hp
        rfl
    match hr : s.decoder.decode b with
    | (decoder, .error code) => simp [hr] at ha
    | (decoder, .ok fields) =>
      simp only [hr] at ha
      split at ha
      · cases ha
      let entered : Session := { s with
        decoder
        headerBlock := []
        streams := s.streams.insert id { stream with headers := fields }
        lastPeerStreamId := id }
      have he : Moves P { s.core with assembly := a } [] entered.core := by
        have hs : Moves P { s.core with assembly := a } []
            { s.core with assembly := ⟨0, false, []⟩ } := .one (.assemble assembly_nothing)
        have hm := hs.silent (.one (@Move.enter P _ id new))
        have hi := core_insert ({ s with
          decoder
          headerBlock := []
          lastPeerStreamId := id } : Session) id { stream with headers := fields }
        rw [hi]
        simpa [core, hb, hn, hw] using hm
      split at ha
      · cases ha
        rw [core_startStreamingRequest]
        exact he
      split at ha
      · cases ha
        refine he.silent ?_
        have hc := @Move.complete P entered.core id (by simp [entered, core])
        simpa [entered, core] using Moves.one hc
      · cases ha
        exact he

lemma moves_headers (ha : s.processHeaders cfg header pl follows = (s', .ok ())) : Moves P s.core [] s'.core := by
  unfold processHeaders at ha
  split at ha
  · cases ha
  next hs =>
  split at ha
  · cases ha
  split at ha
  · cases ha
  cases hp : fragmentOf header pl with
  | none => simp [hp] at ha
  | some fragment =>
    simp only [hp] at ha
    split at ha
    · cases ha
      exact .one (.assemble fun hz => absurd hz hs)
    split at ha
    · cases ha
    have new : s.lastPeerStreamId < header.streamId := by omega
    split at ha
    · exact moves_acceptDetached
        (s := { s with continuationStreamId := 0, continuationEndStream := false })
        s.core.assembly new rfl rfl ha
    exact moves_acceptStream
      (s := { s with continuationStreamId := 0, continuationEndStream := false })
      s.core.assembly new rfl rfl ha

lemma receiveData_sendWindow (s : Stream) (d : Bytes) (fin : Bool) : (s.receiveData d fin).1.sendWindow = s.sendWindow := by
  unfold Stream.receiveData
  split
  · rfl
  cases s.receiveWindow.consume d.length with
  | none => rfl
  | some receiveWindow =>
    dsimp only
    split
    · split
      · split <;> rfl
      · rfl
    · split <;> rfl

lemma core_outgrow (cfg : SessionConfig) (s : Session) (id bs : Nat) : (s.outgrow cfg id bs).core = s.core := by
  unfold outgrow
  cases s.streams.lookup id with
  | none => rfl
  | some strm =>
    dsimp only
    split
    · exact core_startStreamingRequest s id
    · rfl

lemma core_chargeConnection (cfg : SessionConfig) (s : Session) (bs : Nat) : (s.chargeConnection cfg bs).core = s.core := by
  unfold chargeConnection
  dsimp only
  split
  · exact core_queueFrame (by simp)
  · rfl

lemma moves_data (ha : s.processData cfg header pl = (s', .ok ())) : Moves P s.core [] s'.core := by
  rw [← core_outgrow cfg s header.streamId pl.length]
  unfold processData at ha
  dsimp only at ha
  generalize s.outgrow cfg header.streamId pl.length = s at ha ⊢
  split at ha
  · cases ha
  cases hh : s.streams.lookup header.streamId with
  | none => simp [hh] at ha
  | some strm =>
    simp only [hh] at ha
    have hc := core_chargeConnection cfg ({ s with
      streams := s.streams.insert header.streamId (strm.receiveData pl (header.has flagEndStream)).1 } : Session) pl.length
    rw [core_insert_same hh (receiveData_sendWindow ..)] at hc
    split at ha
    · cases ha
    split at ha
    · cases ha
      have ho := @Move.complete P s.core header.streamId (by simp [core, hh])
      rw [← hc] at ho ⊢
      simpa [core] using Moves.one ho
    · cases ha
      exact .of_eq hc.symm

lemma moves_rstStream (ha : s.processRstStream header pl = (s', .ok ())) : Moves P s.core [] s'.core := by
  unfold processRstStream at ha
  split at ha
  · cases ha
  cases ha
  have hr := Moves.one (@Move.reset P s.core header.streamId)
  have he := core_erase ({ s with
    pendingResponses := s.pendingResponses.erase header.streamId
    readyRequests := s.readyRequests.filter fun ready => ready.streamId ≠ header.streamId
    } : Session) header.streamId
  have ready : (s.readyRequests.filter fun ready => ready.streamId ≠ header.streamId).map
      (fun ready => (ready.streamId, ready.detached)) =
      s.core.ready.filter fun ready => ready.1 ≠ header.streamId := by
    simp [core, List.filter_map, Function.comp_def]
  rw [← ready] at hr
  exact he ▸ hr

/-- A frame that is accepted. -/
lemma moves_frame (ha : s.processFrame cfg header pl follows = (s', .ok ())) :
    ∃ fields, fields.Sublist (s.drainFields cfg) ∧ Moves P (s.granted header pl) fields s'.core := by
  have hs : s.granted header pl = s.core → Moves P s.core [] s'.core →
      ∃ fields, fields.Sublist (s.drainFields cfg) ∧ Moves P (s.granted header pl) fields s'.core :=
    fun hsa hm => ⟨[], List.nil_sublist _, hsa ▸ hm⟩
  unfold processFrame at ha
  split at ha
  · cases ha
  split at ha
  · cases ha
  cases ht : header.type with
  | settings => exact moves_settings ht (by simpa only [ht] using ha)
  | windowUpdate => exact moves_windowUpdate ht (by simpa only [ht] using ha)
  | headers | continuation =>
    simp only [ht] at ha
    exact hs (by simp only [granted, ht]) (moves_headers ha)
  | data =>
    simp only [ht] at ha
    exact hs (by simp only [granted, ht]) (moves_data ha)
  | rstStream =>
    simp only [ht] at ha
    exact hs (by simp only [granted, ht]) (moves_rstStream ha)
  | ping =>
    simp only [ht, processPing] at ha
    refine hs (by simp only [granted, ht]) (.of_eq ?_)
    split at ha
    · cases ha
    split at ha
    · cases ha
      rw [core_queueFrame (by simp)]
    · cases ha
      rfl
  | goaway =>
    simp only [ht, processGoaway] at ha
    refine hs (by simp only [granted, ht]) (.of_eq ?_)
    split at ha
    · cases ha
    · cases ha
      rfl
  | priority | pushPromise | other =>
    simp only [ht] at ha
    cases ha
    exact hs (by simp only [granted, ht]) (.refl _)

end Session

end Cnetmod.Http.V2
