import Cnetmod.Coding.SortedMap

/-!
# Stores of sent packets

`inflight_packet_store` of `loss_detection.cpp` and `sent_packet_store` of
`quic_recovery.cpp` are the same table: slots by the low bits of the packet
number, and an ordered map for numbers whose slot is taken.
-/
namespace Cnetmod.Quic

open Coding (SortedMap)

structure PacketSlot (α : Type) where
  packetNumber : Nat := 0
  packet : Option α := none

structure PacketStore (α : Type) where
  slots : List (PacketSlot α) := []
  overflow : SortedMap Nat α := .empty
  primarySize : Nat := 0

/-- The slot holds this packet number. -/
def PacketSlot.holds {α : Type} (slot : PacketSlot α) (packetNumber : Nat) : Bool :=
  slot.packet.isSome && slot.packetNumber == packetNumber

namespace PacketStore

variable {α : Type}

def initialCapacity : Nat := 64

def slotIndex (size packetNumber : Nat) : Nat := packetNumber &&& (size - 1)

/-- One round of the loop of `grow`. -/
def moveSlot (grown : List (PacketSlot α)) (slot : PacketSlot α) : List (PacketSlot α) :=
  if slot.packet.isSome then grown.set (slotIndex grown.length slot.packetNumber) slot else grown

def grow (store : PacketStore α) : PacketStore α :=
  let capacity := if store.slots = [] then initialCapacity else store.slots.length * 2
  { store with slots := store.slots.foldl moveSlot (List.replicate capacity {}) }

/-- The loop of `ensure_available`. Each round doubles the slots, so it ends before
`fuel` does. -/
def ensureLoop (packetNumber : Nat) : (fuel : Nat) → PacketStore α → PacketStore α × Bool
  | 0, store => (store, false)
  | fuel + 1, store =>
    match store.slots[slotIndex store.slots.length packetNumber]? with
    | none => (store, false)
    | some slot =>
      if slot.packet.isNone ∨ slot.packetNumber = packetNumber then (store, true)
      else if store.primarySize * 2 < store.slots.length then (store, false)
      else ensureLoop packetNumber fuel store.grow

def ensureAvailable (store : PacketStore α) (packetNumber : Nat) : PacketStore α × Bool :=
  ensureLoop packetNumber (store.primarySize * 2 + 1) (if store.slots = [] then store.grow else store)

def find (store : PacketStore α) (packetNumber : Nat) : Option α :=
  match store.slots[slotIndex store.slots.length packetNumber]? with
  | none => none
  | some slot => if slot.holds packetNumber then slot.packet else store.overflow.get packetNumber

/-- A slot written where its packet number belongs. -/
def setSlot (store : PacketStore α) (slot : PacketSlot α) : PacketStore α :=
  { store with slots := store.slots.set (slotIndex store.slots.length slot.packetNumber) slot }

/-- A change of the packet that `find` points to. -/
def modify (store : PacketStore α) (packetNumber : Nat) (change : α → α) : PacketStore α :=
  match store.slots[slotIndex store.slots.length packetNumber]? with
  | none => store
  | some slot =>
    if slot.holds packetNumber then
      store.setSlot { slot with packet := slot.packet.map change }
    else
      match store.overflow.get packetNumber with
      | none => store
      | some packet => { store with overflow := store.overflow.put packetNumber (change packet) }

def insert (store : PacketStore α) (packetNumber : Nat) (packet : α) : PacketStore α :=
  if (store.find packetNumber).isSome then store.modify packetNumber fun _ => packet
  else
    let (store, available) := store.ensureAvailable packetNumber
    if available then
      { store.setSlot { packetNumber, packet := some packet } with primarySize := store.primarySize + 1 }
    else { store with overflow := store.overflow.put packetNumber packet }

def erase (store : PacketStore α) (packetNumber : Nat) : PacketStore α :=
  match store.slots[slotIndex store.slots.length packetNumber]? with
  | none => store
  | some slot =>
    if slot.holds packetNumber then
      { store.setSlot { slot with packet := none } with primarySize := store.primarySize - 1 }
    else { store with overflow := store.overflow.delete packetNumber }

def clear (store : PacketStore α) : PacketStore α where
  slots := store.slots.map fun slot => { slot with packet := none }

def release : PacketStore α := {}

def isEmpty (store : PacketStore α) : Bool := store.primarySize = 0 ∧ store.overflow.records.isEmpty

/-- What `for_each` visits, in its order. -/
def entries (store : PacketStore α) : List (Nat × α) :=
  store.slots.filterMap (fun slot => slot.packet.map (slot.packetNumber, ·)) ++ store.overflow.records

/-- `for_each` with a function that changes the packets. -/
def mapPackets (store : PacketStore α) (change : α → α) : PacketStore α :=
  { store with
    slots := store.slots.map fun slot => { slot with packet := slot.packet.map change }
    overflow := store.overflow.mapValues change }

end PacketStore

end Cnetmod.Quic
