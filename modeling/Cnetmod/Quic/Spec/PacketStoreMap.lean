import Mathlib.Data.List.Nodup
import Cnetmod.Quic.Source.PacketStore

/-!
# The packet store is a finite map

What `find` answers after each operation, and that `for_each` visits every packet
once. The slots may be taken, freed and doubled along the way.
-/
namespace Cnetmod.Quic

open List PacketStore Coding.SortedMap

namespace PacketStore

variable {α : Type}

structure WellFormed (store : PacketStore α) : Prop where
  size : store.slots = [] ∧ store.overflow.records = [] ∨ ∃ k, store.slots.length = 2 ^ k
  placed : ∀ i slot, store.slots[i]? = some slot → slot.packet.isSome → slotIndex store.slots.length slot.packetNumber = i
  apart : ∀ slot ∈ store.slots, slot.packet.isSome → ∀ packet, (slot.packetNumber, packet) ∉ store.overflow.records

lemma slotIndex_two_pow (k pn : Nat) : slotIndex (2 ^ k) pn = pn % 2 ^ k :=
  Nat.and_two_pow_sub_one_eq_mod pn k

variable {ps : PacketStore α} {packet : α} {i k : Nat}

lemma slotIndex_lt (hs : ps.slots.length = 2 ^ k) (pn : Nat) : slotIndex ps.slots.length pn < ps.slots.length := by
  rw [hs, slotIndex_two_pow]
  exact Nat.mod_lt _ (Nat.two_pow_pos k)

lemma mem_entries : (pn, packet) ∈ ps.entries ↔ ⟨pn, some packet⟩ ∈ ps.slots ∨ (pn, packet) ∈ ps.overflow.records := by
  rw [entries, mem_append, mem_filterMap]
  refine or_congr_left ⟨?_, fun hm => ⟨_, hm, rfl⟩⟩
  rintro ⟨⟨n, held⟩, hm, hs⟩
  obtain ⟨packet', rfl, hs⟩ := Option.map_eq_some_iff.mp hs
  obtain ⟨rfl, rfl⟩ := Prod.mk.inj hs
  exact hm

namespace WellFormed

lemma slot_at (wf : ps.WellFormed) {slot : PacketSlot α} (hm : slot ∈ ps.slots) (he : slot.packet.isSome) :
    ps.slots[slotIndex ps.slots.length slot.packetNumber]? = some slot := by
  obtain ⟨i, hh⟩ := mem_iff_getElem?.mp hm
  rw [wf.placed i slot hh he]
  exact hh

lemma find_eq_some_iff (wf : ps.WellFormed) : ps.find pn = some packet ↔ (pn, packet) ∈ ps.entries := by
  rw [mem_entries, find]
  constructor
  · intro hf
    cases hh : ps.slots[slotIndex ps.slots.length pn]? with
    | none => simp [hh] at hf
    | some slot =>
      simp only [hh] at hf
      split at hf
      next ha =>
        obtain ⟨n, held⟩ := slot
        obtain rfl : n = pn := by simpa using (Bool.and_eq_true_iff.mp ha).2
        obtain rfl : held = some packet := hf
        exact .inl (mem_of_getElem? hh)
      next => exact .inr (get_eq_some_iff.mp hf)
  · rintro (slot | hb)
    · have hh := wf.slot_at slot rfl
      simp only at hh
      simp [hh, PacketSlot.holds]
    rcases wf.size with ⟨_, he⟩ | ⟨k, hs⟩
    · simp [he] at hb
    obtain ⟨slot, hh⟩ : ∃ slot, ps.slots[slotIndex ps.slots.length pn]? = some slot :=
      ⟨_, getElem?_eq_getElem (slotIndex_lt hs pn)⟩
    have ho : slot.holds pn = false := by
      by_contra ha
      obtain ⟨held, hc⟩ := Bool.and_eq_true_iff.mp (Bool.eq_true_of_not_eq_false ha)
      obtain rfl : slot.packetNumber = pn := by simpa using hc
      exact wf.apart slot (mem_of_getElem? hh) held packet hb
    simp only [hh, ho, Bool.false_eq_true, if_false]
    exact get_eq_some_iff.mpr hb

/-- `for_each` visits no packet number twice. -/
lemma nodup_keys (wf : ps.WellFormed) : (ps.entries.map Prod.fst).Nodup := by
  rw [entries, map_append, nodup_append]
  refine ⟨?_, pairwise_map.mpr (ps.overflow.sorted.imp fun hl => hl.ne), ?_⟩
  · refine pairwise_map.mpr (pairwise_filterMap.mpr (pairwise_iff_getElem.mpr ?_))
    intro i j hn hi hb a hf b he
    obtain ⟨p, hh, rfl⟩ := Option.map_eq_some_iff.mp hf
    obtain ⟨packet', hc, rfl⟩ := Option.map_eq_some_iff.mp he
    intro hs
    have left := wf.placed i _ (getElem?_eq_getElem hn) (by rw [hh]; rfl)
    have right := wf.placed j _ (getElem?_eq_getElem hi) (by rw [hc]; rfl)
    simp only at hs
    rw [hs] at left
    omega
  · intro n hf number' he hs
    obtain ⟨e, hg, rfl⟩ := mem_map.mp hf
    obtain ⟨⟨_, p⟩, hm, rfl⟩ := mem_map.mp he
    obtain ⟨slot, ha, hj⟩ := mem_filterMap.mp hg
    obtain ⟨packet', hh, rfl⟩ := Option.map_eq_some_iff.mp hj
    simp only at hs
    exact wf.apart slot ha (by rw [hh]; rfl) p (hs ▸ hm)

end WellFormed

lemma length_foldl_moveSlot (slots grown : List (PacketSlot α)) : (slots.foldl moveSlot grown).length = grown.length := by
  induction slots generalizing grown with
  | nil => rfl
  | cons slot slots ih =>
    rw [foldl_cons, ih, moveSlot]
    split
    · exact length_set
    · rfl

/-- A place of the new slots holds the packet that belongs there, if there is one. -/
lemma getElem?_foldl_moveSlot {slots grown : List (PacketSlot α)}
    (ha : slots.Pairwise fun a b => a.packet.isSome → b.packet.isSome →
      slotIndex grown.length a.packetNumber ≠ slotIndex grown.length b.packetNumber)
    (hi : i < grown.length) (slot : PacketSlot α) : (slots.foldl moveSlot grown)[i]? = some slot ↔
      (slot ∈ slots ∧ slot.packet.isSome ∧ slotIndex grown.length slot.packetNumber = i) ∨
        (∀ other ∈ slots, other.packet.isSome → slotIndex grown.length other.packetNumber ≠ i) ∧ grown[i]? = some slot := by
  induction slots generalizing grown with
  | nil => simp
  | cons hd slots ih =>
    obtain ⟨own, hr⟩ := pairwise_cons.mp ha
    have hl : (moveSlot grown hd).length = grown.length := length_foldl_moveSlot [hd] grown
    rw [foldl_cons, ih (by rw [hl]; exact hr) (by rw [hl]; exact hi), moveSlot]
    cases hh : hd.packet.isSome with
    | false => simp [hh]; grind
    | true =>
      grind

/-- Places that differ among fewer slots differ among twice as many. -/
lemma slotIndex_ne_double (ho : slotIndex (2 ^ k) a ≠ slotIndex (2 ^ k) b) :
    slotIndex (2 ^ (k + 1)) a ≠ slotIndex (2 ^ (k + 1)) b := by
  simp only [slotIndex_two_pow] at *
  intro hs
  apply ho
  rw [← Nat.mod_mod_of_dvd a (Nat.pow_dvd_pow 2 (Nat.le_succ k)), hs, Nat.mod_mod_of_dvd b (Nat.pow_dvd_pow 2 (Nat.le_succ k))]

section

variable (wf : ps.WellFormed)

include wf

lemma WellFormed.capacity : ∃ k, ps.grow.slots.length = 2 ^ k ∧ ps.slots.Pairwise fun a b => a.packet.isSome → b.packet.isSome →
      slotIndex (2 ^ k) a.packetNumber ≠ slotIndex (2 ^ k) b.packetNumber := by
  unfold grow
  simp only [length_foldl_moveSlot, length_replicate]
  rcases wf.size with ⟨he, _⟩ | ⟨k, hs⟩
  · exact ⟨6, by rw [if_pos he]; rfl, by rw [he]; exact List.Pairwise.nil⟩
  have ho : ps.slots ≠ [] := by
    intro he
    rw [he] at hs
    exact absurd hs (Nat.two_pow_pos k).ne
  refine ⟨k + 1, by rw [if_neg ho, hs, Nat.pow_succ], ?_⟩
  refine pairwise_iff_getElem.mpr fun i j hn hi hb ha hh => ?_
  apply slotIndex_ne_double
  have left := wf.placed i _ (getElem?_eq_getElem hn) ha
  have right := wf.placed j _ (getElem?_eq_getElem hi) hh
  rw [hs] at left right
  omega

/-- Growing moves every packet to its new place and loses none. -/
lemma WellFormed.getElem?_grow {slot : PacketSlot α} (hh : slot.packet.isSome) : ps.grow.slots[i]? = some slot ↔
      slot ∈ ps.slots ∧ slotIndex ps.grow.slots.length slot.packetNumber = i := by
  obtain ⟨k, hs, ha⟩ := wf.capacity
  have hf : ps.grow.slots.length = (replicate (if ps.slots = [] then initialCapacity else ps.slots.length * 2)
        ({} : PacketSlot α)).length := length_foldl_moveSlot _ _
  by_cases hi : i < ps.grow.slots.length
  · rw [hf] at hi
    rw [← hs, hf] at ha
    rw [grow, getElem?_foldl_moveSlot ha hi, hf.symm.trans rfl]
    constructor
    · rintro (⟨hm, -, hp⟩ | ⟨-, hb⟩)
      · exact ⟨hm, hp⟩
      · rw [eq_of_mem_replicate (mem_of_getElem? hb)] at hh
        exact absurd hh Bool.false_ne_true
    · exact fun ⟨hm, hp⟩ => .inl ⟨hm, hh, hp⟩
  · rw [getElem?_eq_none (not_lt.mp hi)]
    refine ⟨fun none => by simp at none, fun ⟨_, hp⟩ => ?_⟩
    exact absurd (hp ▸ slotIndex_lt hs slot.packetNumber) hi

lemma WellFormed.grow : ps.grow.WellFormed where
  size := .inr ⟨wf.capacity.choose, wf.capacity.choose_spec.1⟩
  placed i slot he hh := ((wf.getElem?_grow hh).mp he).2
  apart slot hm hh := by
    obtain ⟨i, he⟩ := mem_iff_getElem?.mp hm
    exact wf.apart slot ((wf.getElem?_grow hh).mp he).1 hh

lemma WellFormed.mem_entries_grow : (pn, packet) ∈ ps.grow.entries ↔ (pn, packet) ∈ ps.entries := by
  have hs : (⟨pn, some packet⟩ : PacketSlot α) ∈ ps.grow.slots ↔ ⟨pn, some packet⟩ ∈ ps.slots := by
    constructor
    · intro hm
      obtain ⟨i, hh⟩ := mem_iff_getElem?.mp hm
      exact ((wf.getElem?_grow rfl).mp hh).1
    · exact fun hm => mem_of_getElem? ((wf.getElem?_grow rfl).mpr ⟨hm, rfl⟩)
  rw [mem_entries, mem_entries, hs]
  rfl

/-- What making room leaves: the same packets, and a free place if it says so. -/
structure Roomy (store room : PacketStore α) (packetNumber : Nat) (available : Bool) : Prop where
  wf : room.WellFormed
  kept : ∀ number packet, (number, packet) ∈ room.entries ↔ (number, packet) ∈ store.entries
  sized : ∃ k, room.slots.length = 2 ^ k
  free : available = true → ∃ slot, slot.packet = none ∧ room.slots[slotIndex room.slots.length packetNumber]? = some slot

lemma WellFormed.ensureLoop (hb : ∃ k, ps.slots.length = 2 ^ k) (ha : ∀ p, (pn, p) ∉ ps.entries) (m : Nat) :
    Roomy ps (ensureLoop pn m ps).1 pn (ensureLoop pn m ps).2 := by
  induction m generalizing ps with
  | zero => exact ⟨wf, fun _ _ => Iff.rfl, hb, by simp [ensureLoop]⟩
  | succ m ih =>
    obtain ⟨k, hs⟩ := hb
    obtain ⟨slot, hh⟩ : ∃ slot, ps.slots[slotIndex ps.slots.length pn]? = some slot :=
      ⟨_, getElem?_eq_getElem (slotIndex_lt hs pn)⟩
    rw [ensureLoop, hh]
    simp only
    split
    next hf =>
      refine ⟨wf, fun _ _ => Iff.rfl, ⟨k, hs⟩, fun _ => ⟨_, ?_, hh⟩⟩
      rcases hf with hf | rfl
      · exact Option.isNone_iff_eq_none.mp hf
      rw [Option.eq_none_iff_forall_ne_some]
      intro p he
      refine ha p (mem_entries.mpr (.inl ?_))
      rw [← he]
      exact mem_of_getElem? hh
    next =>
      split
      · exact ⟨wf, fun _ _ => Iff.rfl, ⟨k, hs⟩, by simp⟩
      have hg := ih wf.grow ⟨_, wf.capacity.choose_spec.1⟩ (fun p hm => ha p (wf.mem_entries_grow.mp hm))
      exact ⟨hg.wf, fun n p => (hg.kept n p).trans wf.mem_entries_grow, hg.sized, hg.free⟩

lemma WellFormed.ensureAvailable (ha : ∀ p, (pn, p) ∉ ps.entries) :
    Roomy ps (ps.ensureAvailable pn).1 pn (ps.ensureAvailable pn).2 := by
  unfold PacketStore.ensureAvailable
  split
  · have hg := wf.grow.ensureLoop ⟨_, wf.capacity.choose_spec.1⟩
      (fun p hm => ha p (wf.mem_entries_grow.mp hm)) (ps.primarySize * 2 + 1)
    exact ⟨hg.wf, fun n p => (hg.kept n p).trans wf.mem_entries_grow, hg.sized, hg.free⟩
  next ho => exact wf.ensureLoop (wf.size.resolve_left fun he => ho he.1) ha _

end

section SetSlot

variable (slot : PacketSlot α)

lemma getElem?_setSlot (i : Nat) : (ps.setSlot slot).slots[i]? = if slotIndex ps.slots.length slot.packetNumber = i then
      if slotIndex ps.slots.length slot.packetNumber < ps.slots.length then some slot else none
    else ps.slots[i]? := getElem?_set

@[simp] lemma length_setSlot : (ps.setSlot slot).slots.length = ps.slots.length :=
  length_set

lemma WellFormed.setSlot (wf : ps.WellFormed)
    (ha : slot.packet.isSome → ∀ packet, (slot.packetNumber, packet) ∉ ps.overflow.records) :
    (ps.setSlot slot).WellFormed where
  size := by
    rcases wf.size with ⟨he, hc⟩ | ⟨k, hs⟩
    · exact .inl ⟨by simp [PacketStore.setSlot, he], hc⟩
    · exact .inr ⟨k, by rw [length_setSlot, hs]⟩
  placed i other hh hhe := by
    rw [length_setSlot]
    rw [getElem?_setSlot] at hh
    split at hh
    next hp =>
      split at hh
      · rw [← Option.some.inj hh]
        exact hp
      · simp at hh
    next => exact wf.placed i other hh hhe
  apart other hm hhe := by
    rcases mem_or_eq_of_mem_set hm with hb | rfl
    · exact wf.apart other hb hhe
    · exact ha hhe

/-- Writing a slot that was free or held the same number changes only that number. -/
lemma WellFormed.mem_setSlot (wf : ps.WellFormed) (hh : ps.slots[slotIndex ps.slots.length slot.packetNumber]? = some old)
    (hr : old.packet = none ∨ old.packetNumber = slot.packetNumber) (pn : Nat) (p : α) :
    ⟨pn, some p⟩ ∈ (ps.setSlot slot).slots ↔ slot = ⟨pn, some p⟩ ∨ pn ≠ slot.packetNumber ∧ ⟨pn, some p⟩ ∈ ps.slots := by
  have hi := (List.getElem?_eq_some_iff.mp hh).choose
  constructor
  · intro hm
    obtain ⟨i, at_⟩ := mem_iff_getElem?.mp hm
    rw [getElem?_setSlot] at at_
    split at at_
    next => exact .inl (Option.some.inj at_)
    rename_i hp
    refine .inr ⟨?_, mem_of_getElem? at_⟩
    intro hs
    exact hp (hs ▸ wf.placed i _ at_ rfl)
  · rintro (rfl | ⟨ho, hm⟩)
    · exact mem_of_getElem? (by rw [getElem?_setSlot, if_pos rfl, if_pos hi])
    have hp := wf.slot_at hm rfl
    refine mem_of_getElem? (i := slotIndex ps.slots.length pn) ?_
    rw [getElem?_setSlot, if_neg ?_]
    · exact hp
    intro hs
    rw [hs] at hh
    obtain rfl := Option.some.inj (hh.symm.trans hp)
    rcases hr with none | hs
    · simp at none
    · exact ho hs

end SetSlot

lemma WellFormed.slot_of_sized (hs : ∃ k, ps.slots.length = 2 ^ k) (pn : Nat) :
    ∃ slot, ps.slots[slotIndex ps.slots.length pn]? = some slot :=
  ⟨_, getElem?_eq_getElem (slotIndex_lt hs.choose_spec pn)⟩

lemma holds_iff {slot : PacketSlot α} : slot.holds pn = true ↔ slot.packet.isSome ∧ slot.packetNumber = pn := by
  simp [PacketSlot.holds]

lemma wellFormed_empty : ({} : PacketStore α).WellFormed where
  size := .inl ⟨rfl, rfl⟩
  placed := by simp
  apart := by simp

section

variable (wf : ps.WellFormed)

include wf

/-- No packet number of the overflow has a slot that holds it, and the other way round. -/
lemma WellFormed.put (hs : ∃ k, ps.slots.length = 2 ^ k) (ha : ∀ slot ∈ ps.slots, slot.packet.isSome → slot.packetNumber ≠ pn) :
    ({ ps with overflow := ps.overflow.put pn packet } : PacketStore α).WellFormed where
  size := .inr hs
  placed := wf.placed
  apart slot hm hh other hbe := by
    rcases mem_put.mp hbe with ⟨hc, _⟩ | ⟨_, hb⟩
    · exact ha slot hm hh hc
    · exact wf.apart slot hm hh other hb

lemma WellFormed.entries_eq_nil (none : ps.slots[slotIndex ps.slots.length pn]? = none) : ps.entries = [] := by
  rcases wf.size with ⟨he, hb⟩ | hs
  · rw [entries, he, hb]
    rfl
  · obtain ⟨slot, hh⟩ := slot_of_sized hs pn
    simp [hh] at none

lemma WellFormed.sized_of_slot {slot : PacketSlot α} (hh : ps.slots[i]? = some slot) : ∃ k, ps.slots.length = 2 ^ k := by
  rcases wf.size with ⟨he, _⟩ | hs
  · simp [he] at hh
  · exact hs

lemma WellFormed.no_slot {slot : PacketSlot α} (he : ps.slots[slotIndex ps.slots.length pn]? = some slot)
    (ho : ¬ slot.holds pn = true) : ∀ s ∈ ps.slots, s.packet.isSome → s.packetNumber ≠ pn := by
  rintro s hm hh rfl
  have hp := wf.slot_at hm hh
  rw [he] at hp
  rw [Option.some.inj hp] at ho
  exact ho (holds_iff.mpr ⟨hh, rfl⟩)

/-- A packet number has one slot. -/
lemma WellFormed.only_slot {slot : PacketSlot α} (hh : ps.slots[slotIndex ps.slots.length slot.packetNumber]? = some slot)
    (p : α) (hm : ⟨slot.packetNumber, some p⟩ ∈ ps.slots) : slot.packet = some p := by
  have hp := wf.slot_at hm rfl
  simp only at hp
  rw [hh] at hp
  rw [Option.some.inj hp]

lemma WellFormed.modify (pn : Nat) (change : α → α) : (ps.modify pn change).WellFormed ∧ ∀ n p,
      (n, p) ∈ (ps.modify pn change).entries ↔
        ∃ before, (n, before) ∈ ps.entries ∧ p = if n = pn then change before else before := by
  unfold PacketStore.modify
  split
  next none => exact ⟨wf, by simp [wf.entries_eq_nil none]⟩
  rename_i slot hh
  split
  next ho =>
    obtain ⟨he, rfl⟩ := holds_iff.mp ho
    obtain ⟨p, is⟩ := Option.isSome_iff_exists.mp he
    have hb := wf.apart slot (mem_of_getElem? hh) he
    refine ⟨wf.setSlot _ fun _ => hb, fun n changed => ?_⟩
    have hw := wf.mem_setSlot { slot with packet := slot.packet.map change } hh (.inr rfl) n changed
    have only := wf.only_slot hh
    simp only [mem_entries, hw]
    show _ ∨ (n, changed) ∈ ps.overflow.records ↔ _
    obtain ⟨slotNumber, slotPacket⟩ := slot
    simp only at is hb only hh ⊢
    have hm := mem_of_getElem? hh
    grind
  next o =>
    have ha := wf.no_slot hh o
    split
    next none =>
      refine ⟨wf, fun n p => ?_⟩
      have hb (p : α) : (pn, p) ∉ ps.overflow.records := fun hm => by
        simp [Coding.SortedMap.get_of_mem hm] at none
      simp only [mem_entries]
      grind
    next p hf =>
      refine ⟨wf.put (wf.sized_of_slot hh) ha, fun n changed => ?_⟩
      have hb := get_eq_some_iff.mp hf
      have only (o : α) (hm : (pn, o) ∈ ps.overflow.records) : o = p := by
        rw [Coding.SortedMap.get_of_mem hm] at hf
        exact Option.some.inj hf
      simp only [mem_entries, mem_put]
      grind

lemma WellFormed.insert (pn : Nat) (pkt : α) : (ps.insert pn pkt).WellFormed ∧ ∀ n held,
      (n, held) ∈ (ps.insert pn pkt).entries ↔ n = pn ∧ held = pkt ∨ n ≠ pn ∧ (n, held) ∈ ps.entries := by
  unfold PacketStore.insert
  split
  next hp =>
    obtain ⟨pre, hf⟩ := Option.isSome_iff_exists.mp hp
    refine ⟨(wf.modify pn _).1, fun n held => ?_⟩
    rw [(wf.modify pn _).2]
    rw [wf.find_eq_some_iff] at hf
    by_cases hs : n = pn
    · simp only [hs, if_true, true_and, ne_eq, not_true, false_and, or_false]
      exact ⟨fun ⟨_, _, eq⟩ => eq, fun eq => ⟨pre, hf, eq⟩⟩
    · simp [hs]
  next ha =>
    have hc (held : α) : (pn, held) ∉ ps.entries := fun hm => by simp [wf.find_eq_some_iff.mpr hm] at ha
    have hr := wf.ensureAvailable hc
    generalize ps.ensureAvailable pn = made at hr ⊢
    obtain ⟨room, available⟩ := made
    simp only at hr ⊢
    cases available with
    | true =>
      obtain ⟨free, none, hh⟩ := hr.free rfl
      have hb (held : α) : (pn, held) ∉ room.overflow.records := fun hm =>
        hc held ((hr.kept _ _).mp (mem_entries.mpr (.inr hm)))
      have set := hr.wf.setSlot ⟨pn, some pkt⟩ fun _ => hb
      refine ⟨⟨set.size, set.placed, set.apart⟩, fun n held => ?_⟩
      have hw := hr.wf.mem_setSlot ⟨pn, some pkt⟩ hh (.inl none) n held
      rw [← hr.kept]
      simp only [if_true, mem_entries, hw, PacketSlot.mk.injEq, Option.some.injEq]
      show _ ∨ (n, held) ∈ room.overflow.records ↔ _
      grind
    | false =>
      have hl : ∀ slot ∈ room.slots, slot.packet.isSome → slot.packetNumber ≠ pn := by
        rintro ⟨n, pkt⟩ hm hi hs
        obtain ⟨held, rfl⟩ := Option.isSome_iff_exists.mp hi
        obtain rfl : n = pn := hs
        exact hc held ((hr.kept _ _).mp (mem_entries.mpr (.inl hm)))
      refine ⟨hr.wf.put hr.sized hl, fun n held => ?_⟩
      rw [← hr.kept]
      simp only [Bool.false_eq_true, if_false, mem_entries, mem_put]
      grind

lemma WellFormed.erase (pn : Nat) :
    (ps.erase pn).WellFormed ∧ ∀ n held, (n, held) ∈ (ps.erase pn).entries ↔ n ≠ pn ∧ (n, held) ∈ ps.entries := by
  unfold PacketStore.erase
  split
  next none => exact ⟨wf, by simp [wf.entries_eq_nil none]⟩
  rename_i slot hh
  split
  next hc =>
    obtain ⟨held, rfl⟩ := holds_iff.mp hc
    have hb := wf.apart slot (mem_of_getElem? hh) held
    have set := wf.setSlot { slot with packet := none } fun held => absurd held Bool.false_ne_true
    refine ⟨⟨set.size, set.placed, set.apart⟩, fun n pkt => ?_⟩
    have hw := wf.mem_setSlot { slot with packet := none } hh (.inr rfl) n pkt
    simp only [mem_entries, hw, PacketSlot.mk.injEq, reduceCtorEq, and_false, false_or]
    show _ ∨ (n, pkt) ∈ ps.overflow.records ↔ _
    grind
  next ho =>
    have ha := wf.no_slot hh ho
    refine ⟨⟨.inr (wf.sized_of_slot hh), wf.placed, fun slot hm held pkt hb => ?_⟩, fun n pkt => ?_⟩
    · exact wf.apart slot hm held pkt (mem_delete.mp hb).2
    · simp only [mem_entries, mem_delete]
      grind

lemma WellFormed.clear : ps.clear.WellFormed where
  size := by
    rcases wf.size with ⟨he, _⟩ | ⟨k, hs⟩
    · exact .inl ⟨by simp [PacketStore.clear, he], rfl⟩
    · exact .inr ⟨k, by simp [PacketStore.clear, hs]⟩
  placed i slot hhe hh := by
    obtain ⟨pre, _, rfl⟩ := mem_map.mp (mem_of_getElem? hhe)
    exact absurd hh Bool.false_ne_true
  apart slot hm hh := by
    obtain ⟨pre, _, rfl⟩ := mem_map.mp hm
    exact absurd hh Bool.false_ne_true

end

@[simp] lemma entries_clear : ps.clear.entries = [] := by simp [entries, clear]

lemma entries_mapPackets (change : α → α) : (ps.mapPackets change).entries = ps.entries.map fun e => (e.1, change e.2) := by
  simp only [entries, mapPackets, mapValues, filterMap_map, map_append, map_filterMap]
  congr 2
  funext slot
  simp [Function.comp_def]

lemma WellFormed.mapPackets (wf : ps.WellFormed) (change : α → α) : (ps.mapPackets change).WellFormed where
  size := by
    rcases wf.size with ⟨he, hb⟩ | ⟨k, hs⟩
    · exact .inl ⟨by simp [PacketStore.mapPackets, he], by
        simp [PacketStore.mapPackets, mapValues, hb]⟩
    · exact .inr ⟨k, by simp [PacketStore.mapPackets, hs]⟩
  placed i slot hh hhe := by
    simp only [PacketStore.mapPackets, getElem?_map, length_map] at hh ⊢
    obtain ⟨pre, hp, rfl⟩ := Option.map_eq_some_iff.mp hh
    exact wf.placed i pre hp (by simpa using hhe)
  apart slot hm hhe packet hb := by
    obtain ⟨pre, ha, rfl⟩ := mem_map.mp hm
    obtain ⟨⟨n, old⟩, hh, hsa⟩ := mem_map.mp hb
    obtain ⟨rfl, -⟩ := Prod.mk.inj hsa
    exact wf.apart pre ha (by simpa using hhe) old hh

namespace WellFormed

variable (wf : ps.WellFormed)

include wf

lemma nodup : ps.entries.Nodup := List.Nodup.of_map _ wf.nodup_keys

lemma perm_insert (ha : pn ∉ ps.entries.map Prod.fst) : (ps.insert pn packet).entries.Perm ((pn, packet) :: ps.entries) := by
  have hf (held : α) : (pn, held) ∉ ps.entries := fun hm => ha (mem_map_of_mem hm)
  refine (perm_ext_iff_of_nodup (wf.insert _ _).1.nodup ?_).mpr fun ⟨n, held⟩ => ?_
  · exact nodup_cons.mpr ⟨hf packet, wf.nodup⟩
  · rw [(wf.insert _ _).2, mem_cons]
    grind

lemma perm_erase (hm : (pn, packet) ∈ ps.entries) : ps.entries.Perm ((pn, packet) :: (ps.erase pn).entries) := by
  have he := wf.erase pn
  have only (o : α) (ha : (pn, o) ∈ ps.entries) : o = packet := by
    rw [← wf.find_eq_some_iff] at ha hm
    exact Option.some.inj (ha.symm.trans hm)
  refine (perm_ext_iff_of_nodup wf.nodup ?_).mpr fun ⟨n, held⟩ => ?_
  · exact nodup_cons.mpr ⟨fun hs => ((he.2 _ _).mp hs).1 rfl, he.1.nodup⟩
  · rw [mem_cons]
    grind

/-- Stores that hold the same numbers with the same values of `f` and `g` agree on all of them. -/
lemma perm_of_same {o : PacketStore β} {f : α → γ} {g : β → γ} (wf' : o.WellFormed)
    (hs : ∀ n c, (∃ p, (n, p) ∈ ps.entries ∧ f p = c) ↔ ∃ p, (n, p) ∈ o.entries ∧ g p = c) :
    (ps.entries.map fun e => (e.1, f e.2)).Perm (o.entries.map fun e => (e.1, g e.2)) := by
  have hk {δ : Type} {s : PacketStore δ} (h : s.WellFormed) (k : δ → γ) : (s.entries.map fun e => (e.1, k e.2)).Nodup :=
    List.Nodup.of_map Prod.fst (by rw [map_map]; exact h.nodup_keys)
  refine (perm_ext_iff_of_nodup (hk wf f) (hk wf' g)).mpr fun ⟨n, c⟩ => ?_
  have := hs n c
  grind

end WellFormed

/-- A packet is stored under its number, or the number is removed. -/
def serve (ps : PacketStore α) (call : Nat × Option α) : PacketStore α := call.2.elim (ps.erase call.1) (ps.insert call.1)

lemma WellFormed.serve (wf : ps.WellFormed) (call : Nat × Option α) (n : Nat) :
    (ps.serve call).WellFormed ∧ (ps.serve call).find n = if call.1 = n then call.2 else ps.find n := by
  obtain ⟨m, _ | p⟩ := call
  on_goal 1 => obtain ⟨h, he⟩ := wf.erase m
  on_goal 2 => obtain ⟨h, he⟩ := wf.insert m p
  all_goals
    refine ⟨h, Option.ext fun q => h.find_eq_some_iff.trans ((he n q).trans ?_)⟩
    grind [wf.find_eq_some_iff]

/-- Slots, growth and overflow do not show: after any calls a number finds what its last call left. -/
theorem last_call_found (calls : List (Nat × Option α)) (n : Nat) :
    (calls.foldl serve {}).find n = calls.foldl (fun held call => if call.1 = n then call.2 else held) none := by
  have hu (ps : PacketStore α) (wf : ps.WellFormed) : (calls.foldl serve ps).find n =
      calls.foldl (fun held call => if call.1 = n then call.2 else held) (ps.find n) := by
    induction calls generalizing ps with
    | nil => rfl
    | cons call calls ih => rw [foldl_cons, ih _ (wf.serve call n).1, (wf.serve call n).2]; rfl
  exact hu {} wellFormed_empty

end PacketStore

end Cnetmod.Quic
