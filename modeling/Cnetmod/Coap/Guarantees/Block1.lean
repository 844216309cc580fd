import Cnetmod.Consensus.Run
import Cnetmod.Coap.Source.Blockwise

/-!
# What a completed Block1 transfer holds

The bytes are always those of consecutive blocks. Their length is another matter: a block
that is repeated as the last one completes the transfer wherever it ends, an announced
length is compared with the request that announces it only, and without one nothing
limits what is stored.
-/
namespace Cnetmod.Coap

open Option Coding UdpServer

variable {κ : Type}

/-- Bytes made of received blocks, the newest first, each going on where those before it end. -/
inductive Assembles : List (InboundRequest κ) → Bytes → Prop
  | start : Assembles [] []
  | skip {received : List (InboundRequest κ)} {bytes : Bytes} (req : InboundRequest κ) (before : Assembles received bytes) :
    Assembles (req :: received) bytes
  | next {received : List (InboundRequest κ)} {bytes : Bytes} {req : InboundRequest κ} {block : BlockOption}
    (before : Assembles received bytes) (sent : req.block1 = some block) (follows : block.offset = bytes.length) :
    Assembles (req :: received) (bytes ++ req.payload)

/-- The announcements among these requests are of this length. -/
def Announce (received : List (InboundRequest κ)) (length : Nat) : Prop := ∀ r ∈ received, ∀ n ∈ r.announced, n = length

instance (received : List (InboundRequest κ)) (length : Nat) : Decidable (Announce received length) :=
  inferInstanceAs (Decidable (∀ r ∈ received, ∀ n ∈ r.announced, n = length))

/-- What the result of a block promises, of the payload or of the bytes that stay stored. -/
structure Sound (limit : Nat) (received : List (InboundRequest κ)) (block : BlockOption) (req : InboundRequest κ)
    (answer : Block1Result × Bytes × Option Bytes) : Prop where
  complete : answer.1 = .complete → Assembles (req :: received) answer.2.1 ∧
    block.offset + req.payload.length = answer.2.1.length ∧ Announce (req :: received) answer.2.1.length ∧ answer.2.1.length ≤ limit
  kept : ∀ bytes ∈ answer.2.2, Assembles (req :: received) bytes ∧ bytes.length ≤ limit

/-- A block that repeats stored bytes as the last one is the end of them, and they have
the announced length; one that goes on does so within the limit, and as the last one up
to the length announced before. -/
structure Orderly (limit : Nat) (stored : Bytes) (received : List (InboundRequest κ)) (block : BlockOption)
    (req : InboundRequest κ) : Prop where
  repeated : block.offset < stored.length → req.payload = (stored.drop block.offset).take req.payload.length →
    block.offset + req.payload.length ≤ stored.length → block.more = false →
    block.offset + req.payload.length = stored.length ∧ Announce (req :: received) stored.length
  appended : block.offset = stored.length → refusal limit block req = none →
    block.offset + req.payload.length ≤ limit ∧ (block.more = false → Announce received (block.offset + req.payload.length))

variable {limit : Nat} {stored : Bytes} {received : List (InboundRequest κ)} {block : BlockOption} {req : InboundRequest κ}

/-- A last block that is not refused has the length it announces itself. -/
lemma announce_of_refusal (hr : refusal limit block req = none) (hm : block.more = false) :
    ∀ n ∈ req.announced, n = block.offset + req.payload.length := by
  intro n hn
  rw [mem_def, InboundRequest.announced, bind_eq_some_iff] at hn
  obtain ⟨v, hv, ho⟩ := hn
  rw [refusal, hv] at hr
  simp only [ho, hm, true_and, ne_eq, ite_not] at hr
  split at hr
  · cases hr
  split at hr
  next he => exact he.symm
  · cases hr

lemma refusal_ne_complete (h : refusal limit block req = some r) : r ≠ .complete := by
  rintro rfl
  rw [refusal] at h
  repeat' split at h
  all_goals cases h

lemma receive_sound_iff (hs : req.block1 = some block) (hb : Assembles received stored) (hl : stored.length ≤ limit) :
    Sound limit received block req (receive limit stored block req) ↔ Orderly limit stored received block req := by
  rw [receive]
  split
  next hu =>
    have hj : block.offset ≠ stored.length := by omega
    split
    next ht =>
      refine ⟨fun _ => ⟨fun _ hq ho _ => ?_, fun h => absurd h hj⟩, fun _ => ⟨nofun, nofun⟩⟩
      exact absurd ht (by simpa [← hq] using ho)
    next hg =>
      split
      next hm =>
        refine ⟨fun _ => ⟨fun _ _ _ h => absurd (hm.symm.trans h) (by decide), fun h => absurd h hj⟩,
          fun _ => ⟨nofun, fun bs h => ?_⟩⟩
        cases h
        exact ⟨.skip req hb, hl⟩
      constructor
      · intro h
        obtain ⟨-, he, ha, -⟩ := h.complete rfl
        exact ⟨fun _ _ _ _ => ⟨he, ha⟩, fun h => absurd h hj⟩
      intro h
      rw [not_or, not_lt, not_not] at hg
      obtain ⟨he, ha⟩ := h.repeated hu hg.2 hg.1 (by simpa using ‹¬ block.more = true›)
      exact ⟨fun _ => ⟨.skip req hb, he, ha, hl⟩, nofun⟩
  next hp =>
    split
    next hj => exact ⟨fun _ => ⟨fun h => absurd h hp, fun h => absurd h hj⟩, fun _ => ⟨nofun, nofun⟩⟩
    next hc =>
      rw [not_not] at hc
      split
      next res hf =>
        refine ⟨fun _ => ⟨fun h => absurd h hp, fun _ h => ?_⟩, fun _ => ⟨fun h => absurd h (refusal_ne_complete hf), nofun⟩⟩
        rw [hf] at h
        cases h
      next hf =>
        have hn : (stored ++ req.payload).length = block.offset + req.payload.length := by
          rw [List.length_append, hc]
        split
        next hm =>
          constructor
          · intro h
            exact ⟨fun h => absurd h hp, fun _ _ => ⟨hn ▸ (h.kept _ rfl).2, fun h => absurd (hm.symm.trans h) (by decide)⟩⟩
          intro h
          refine ⟨nofun, fun bs hk => ?_⟩
          cases hk
          exact ⟨.next hb hs hc, hn ▸ (h.appended hc hf).1⟩
        next hm =>
          rw [Bool.not_eq_true] at hm
          constructor
          · intro h
            obtain ⟨-, he, ha, ho⟩ := h.complete rfl
            exact ⟨fun h => absurd h hp, fun _ _ => ⟨he ▸ ho, fun _ r hr => he ▸ ha r (List.mem_cons_of_mem _ hr)⟩⟩
          intro h
          obtain ⟨ho, ha⟩ := h.appended hc hf
          refine ⟨fun _ => ⟨.next hb hs hc, hn.symm, ?_, hn ▸ ho⟩, nofun⟩
          rw [hn]
          exact List.forall_mem_cons.mpr ⟨announce_of_refusal hf hm, ha hm⟩

/-- The block a request stands for, if the server takes it. -/
def UdpServer.takes [LinearOrder κ] (s : UdpServer κ) (req : InboundRequest κ) : Option BlockOption :=
  if s.enableBlockwise then req.block1 else none

/-- The server and the blocks each transfer has received. -/
structure History (κ : Type) [LinearOrder κ] where
  server : UdpServer κ
  received : κ → List (InboundRequest κ) := fun _ => []

namespace History

variable [LinearOrder κ]

/-- The blocks of the transfer a request belongs to, none if it timed out. -/
def before (s : History κ) (now : Int) (key : κ) : List (InboundRequest κ) :=
  if ((s.server.live now).get key).isSome then s.received key else []

def step (s : History κ) (event : Int × InboundRequest κ) : History κ :=
  let req := event.2
  ⟨(s.server.applyBlock1 event.1 req).2.2, if (s.server.takes req).isNone then s.received
    else Function.update s.received req.key (req :: s.before event.1 req.key)⟩

def Orderly (s : History κ) (event : Int × InboundRequest κ) : Prop :=
  ∀ block ∈ s.server.takes event.2,
    Coap.Orderly s.server.limit (s.server.stored event.1 event.2.key) (s.before event.1 event.2.key) block event.2

/-- What is stored is made of the blocks received and within the limit. -/
def Valid (s : History κ) : Prop :=
  ∀ key transfer, s.server.transfers.get key = some transfer →
    Assembles (s.received key) transfer.payload ∧ transfer.payload.length ≤ s.server.limit

/-- What is promised of the payload a request gets when it completes a transfer. -/
def Completes (s : History κ) (event : Int × InboundRequest κ) : Prop :=
  let answer := s.server.applyBlock1 event.1 event.2
  let blocks := event.2 :: s.before event.1 event.2.key
  answer.1 = .complete → ∃ block ∈ event.2.block1, Assembles blocks answer.2.1.payload ∧
    block.offset + event.2.payload.length = answer.2.1.payload.length ∧
    Announce blocks answer.2.1.payload.length ∧ answer.2.1.payload.length ≤ s.server.limit

variable {s : History κ} {key : κ}

lemma get_live (h : (s.server.live now).get key = some transfer) : s.server.transfers.get key = some transfer := by
  rw [live, SortedMap.get_filterMapValues, bind_eq_some_iff] at h
  obtain ⟨found, hf, ht⟩ := h
  split at ht
  · cases ht
  · exact hf.trans ht

lemma Valid.before (hv : s.Valid) : Assembles (s.before now key) (s.server.stored now key) ∧
    (s.server.stored now key).length ≤ s.server.limit := by
  rw [History.before, stored]
  cases hg : (s.server.live now).get key with
  | none => exact ⟨.start, Nat.zero_le _⟩
  | some transfer => exact hv key transfer (get_live hg)

/-- A request keeps the promises exactly when its block is orderly. -/
lemma step_iff (hv : s.Valid) (ev : Int × InboundRequest κ) : s.Completes ev ∧ (s.step ev).Valid ↔ s.Orderly ev := by
  obtain ⟨now, req⟩ := ev
  cases ht : s.server.takes req with
  | none =>
    have ha : s.server.applyBlock1 now req = (.none, req, s.server) := by
      rw [takes] at ht
      rw [applyBlock1]
      split
      · rfl
      next ho => rw [if_pos (by simpa using ho)] at ht; rw [ht]
    rw [Completes, step, ha, ht]
    exact ⟨fun _ blk h => absurd h (by simp [ht]), fun _ => ⟨nofun, hv⟩⟩
  | some blk =>
    obtain ⟨ho, hb⟩ := ite_none_right_eq_some.mp ht
    have hr : s.Orderly (now, req) ↔
        Coap.Orderly s.server.limit (s.server.stored now req.key) (s.before now req.key) blk req := by
      simp [Orderly, ht]
    rw [hr, ← receive_sound_iff hb hv.before.1 hv.before.2, Completes, step, applyBlock1, if_neg (by simp [ho]), hb, ht]
    dsimp only
    obtain ⟨r, pl, kept⟩ := receive s.server.limit (s.server.stored now req.key) blk req
    constructor
    · rintro ⟨hcomplete, hvalid⟩
      refine ⟨fun h => ?_, fun bs hk => ?_⟩
      · obtain ⟨b, hm, tl⟩ := hcomplete h
        cases hm
        exact tl
      · cases hk
        simpa [limit] using hvalid req.key ⟨bs, now⟩ (by simp [SortedMap.get_put])
    intro h
    refine ⟨fun hc => ⟨blk, rfl, h.complete hc⟩, fun key transfer hg => ?_⟩
    cases kept with
    | none =>
      rw [SortedMap.get_delete] at hg
      split at hg
      · cases hg
      next hk => simpa [limit, Function.update_of_ne (Ne.symm hk)] using hv key transfer (get_live hg)
    | some bs =>
      rw [SortedMap.get_put] at hg
      split at hg
      next hk =>
        cases hg
        simpa [limit, hk] using h.kept bs rfl
      next hk => simpa [limit, Function.update_of_ne (Ne.symm hk)] using hv key transfer (get_live hg)

/-- From a server without transfers, as long as every block is orderly, a request keeps
the promises exactly when its own is. -/
theorem block1_sound_iff {server : UdpServer κ} (hempty : server.transfers = .empty)
    (hr : Consensus.Reached (fun s event => some (step s event)) Orderly ⟨server, fun _ => []⟩ s)
    (event : Int × InboundRequest κ) : s.Valid ∧ (s.Completes event ∧ (s.step event).Valid ↔ s.Orderly event) := by
  have hv : s.Valid := by
    refine hr.invariant Valid (fun key transfer h => ?_) fun hv ho hs => ?_
    · rw [hempty] at h
      cases h
    · cases hs
      exact ((step_iff hv _).mpr ho).2
  exact ⟨hv, step_iff hv event⟩

/-- Block `number` of 16 bytes, with the option that holds its number and flag. -/
def sixteen (number : UInt8) (more : Bool) (size1 : Option Bytes) (payload : Bytes) : InboundRequest Nat :=
  { key := 0, block1Option := some [number * 16 + if more then 8 else 0], size1Option := size1, payload }

def zeros : Bytes := List.replicate 16 0

/-- The second block of two is missing the announced length, a repeated first block ends a
transfer of two, and two blocks of 1024 bytes are stored where 1024 bytes are allowed. -/
theorem block1_promises_broken :
    let server : UdpServer Nat := { maxDatagramSize := 1 }
    let run := fun events : List (InboundRequest Nat) => events.foldl (fun s req => (s.applyBlock1 0 req).2.2) server
    let large := fun number : UInt8 => (⟨0, some [number * 16 + 8 + 6], none, List.replicate 1024 0⟩ : InboundRequest Nat)
    let short := (run [sixteen 0 true (some [48]) zeros]).applyBlock1 0 (sixteen 1 false none zeros)
    let early := (run [sixteen 0 true none zeros, sixteen 1 true none zeros]).applyBlock1 0 (sixteen 0 false none zeros)
    (short.1 = .complete ∧ short.2.1.payload.length = 32) ∧ (early.1 = .complete ∧ early.2.1.payload.length = 32) ∧
      (((run [large 0, large 1]).transfers.get 0).map (·.payload.length)) = some 2048 := by
  decide +kernel

/-- Two blocks that announce 32 bytes, the first of which comes twice. -/
theorem block1_sound_repeated :
    let ones : Bytes := List.replicate 16 1
    let s := [(0, sixteen 0 true (some [32]) zeros), (1, sixteen 0 true (some [32]) zeros)].foldl step
      (⟨{}, fun _ => []⟩ : History Nat)
    (s.server.applyBlock1 2 (sixteen 1 false (some [32]) ones)).1 = .complete ∧
      (s.server.applyBlock1 2 (sixteen 1 false (some [32]) ones)).2.1.payload = zeros ++ ones ∧
      s.Completes (2, sixteen 1 false (some [32]) ones) := by
  refine ⟨by decide +kernel, by decide +kernel, ((block1_sound_iff (show ({} : UdpServer Nat).transfers = .empty from rfl)
    (.next (a := (1, sixteen 0 true (some [32]) zeros)) (.next (a := (0, sixteen 0 true (some [32]) zeros)) .start ?_ rfl)
      ?_ rfl) _).2.mpr ?_).1⟩
  all_goals
    intro block taken
    cases taken
    exact ⟨by decide +kernel, by decide +kernel⟩

end History

end Cnetmod.Coap
