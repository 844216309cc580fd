import Cnetmod.Coding.Bits
import Cnetmod.Coding.PrefixCode

/-!
# HPACK string literals (`http/v2/huffman.cpp`)

A node of the decoding tree is named by its path from the root; the nibble and
byte tables are the functions that fill them.
-/
namespace Cnetmod.Http.V2

open Coding

structure Symbol where
  bits : Nat
  length : Nat

def table : List Symbol :=
  [⟨0x1ff8, 13⟩, ⟨0x7fffd8, 23⟩, ⟨0xfffffe2, 28⟩, ⟨0xfffffe3, 28⟩, ⟨0xfffffe4, 28⟩,
   ⟨0xfffffe5, 28⟩, ⟨0xfffffe6, 28⟩, ⟨0xfffffe7, 28⟩, ⟨0xfffffe8, 28⟩, ⟨0xffffea, 24⟩,
   ⟨0x3ffffffc, 30⟩, ⟨0xfffffe9, 28⟩, ⟨0xfffffea, 28⟩, ⟨0x3ffffffd, 30⟩, ⟨0xfffffeb, 28⟩,
   ⟨0xfffffec, 28⟩, ⟨0xfffffed, 28⟩, ⟨0xfffffee, 28⟩, ⟨0xfffffef, 28⟩, ⟨0xffffff0, 28⟩,
   ⟨0xffffff1, 28⟩, ⟨0xffffff2, 28⟩, ⟨0x3ffffffe, 30⟩, ⟨0xffffff3, 28⟩, ⟨0xffffff4, 28⟩,
   ⟨0xffffff5, 28⟩, ⟨0xffffff6, 28⟩, ⟨0xffffff7, 28⟩, ⟨0xffffff8, 28⟩, ⟨0xffffff9, 28⟩,
   ⟨0xffffffa, 28⟩, ⟨0xffffffb, 28⟩, ⟨0x14, 6⟩, ⟨0x3f8, 10⟩, ⟨0x3f9, 10⟩, ⟨0xffa, 12⟩,
   ⟨0x1ff9, 13⟩, ⟨0x15, 6⟩, ⟨0xf8, 8⟩, ⟨0x7fa, 11⟩, ⟨0x3fa, 10⟩, ⟨0x3fb, 10⟩, ⟨0xf9, 8⟩,
   ⟨0x7fb, 11⟩, ⟨0xfa, 8⟩, ⟨0x16, 6⟩, ⟨0x17, 6⟩, ⟨0x18, 6⟩, ⟨0x0, 5⟩, ⟨0x1, 5⟩, ⟨0x2, 5⟩,
   ⟨0x19, 6⟩, ⟨0x1a, 6⟩, ⟨0x1b, 6⟩, ⟨0x1c, 6⟩, ⟨0x1d, 6⟩, ⟨0x1e, 6⟩, ⟨0x1f, 6⟩, ⟨0x5c, 7⟩,
   ⟨0xfb, 8⟩, ⟨0x7ffc, 15⟩, ⟨0x20, 6⟩, ⟨0xffb, 12⟩, ⟨0x3fc, 10⟩, ⟨0x1ffa, 13⟩, ⟨0x21, 6⟩,
   ⟨0x5d, 7⟩, ⟨0x5e, 7⟩, ⟨0x5f, 7⟩, ⟨0x60, 7⟩, ⟨0x61, 7⟩, ⟨0x62, 7⟩, ⟨0x63, 7⟩, ⟨0x64, 7⟩,
   ⟨0x65, 7⟩, ⟨0x66, 7⟩, ⟨0x67, 7⟩, ⟨0x68, 7⟩, ⟨0x69, 7⟩, ⟨0x6a, 7⟩, ⟨0x6b, 7⟩, ⟨0x6c, 7⟩,
   ⟨0x6d, 7⟩, ⟨0x6e, 7⟩, ⟨0x6f, 7⟩, ⟨0x70, 7⟩, ⟨0x71, 7⟩, ⟨0x72, 7⟩, ⟨0xfc, 8⟩, ⟨0x73, 7⟩,
   ⟨0xfd, 8⟩, ⟨0x1ffb, 13⟩, ⟨0x7fff0, 19⟩, ⟨0x1ffc, 13⟩, ⟨0x3ffc, 14⟩, ⟨0x22, 6⟩, ⟨0x7ffd, 15⟩,
   ⟨0x3, 5⟩, ⟨0x23, 6⟩, ⟨0x4, 5⟩, ⟨0x24, 6⟩, ⟨0x5, 5⟩, ⟨0x25, 6⟩, ⟨0x26, 6⟩, ⟨0x27, 6⟩, ⟨0x6, 5⟩,
   ⟨0x74, 7⟩, ⟨0x75, 7⟩, ⟨0x28, 6⟩, ⟨0x29, 6⟩, ⟨0x2a, 6⟩, ⟨0x7, 5⟩, ⟨0x2b, 6⟩, ⟨0x76, 7⟩,
   ⟨0x2c, 6⟩, ⟨0x8, 5⟩, ⟨0x9, 5⟩, ⟨0x2d, 6⟩, ⟨0x77, 7⟩, ⟨0x78, 7⟩, ⟨0x79, 7⟩, ⟨0x7a, 7⟩,
   ⟨0x7b, 7⟩, ⟨0x7ffe, 15⟩, ⟨0x7fc, 11⟩, ⟨0x3ffd, 14⟩, ⟨0x1ffd, 13⟩, ⟨0xffffffc, 28⟩,
   ⟨0xfffe6, 20⟩, ⟨0x3fffd2, 22⟩, ⟨0xfffe7, 20⟩, ⟨0xfffe8, 20⟩, ⟨0x3fffd3, 22⟩, ⟨0x3fffd4, 22⟩,
   ⟨0x3fffd5, 22⟩, ⟨0x7fffd9, 23⟩, ⟨0x3fffd6, 22⟩, ⟨0x7fffda, 23⟩, ⟨0x7fffdb, 23⟩, ⟨0x7fffdc, 23⟩,
   ⟨0x7fffdd, 23⟩, ⟨0x7fffde, 23⟩, ⟨0xffffeb, 24⟩, ⟨0x7fffdf, 23⟩, ⟨0xffffec, 24⟩, ⟨0xffffed, 24⟩,
   ⟨0x3fffd7, 22⟩, ⟨0x7fffe0, 23⟩, ⟨0xffffee, 24⟩, ⟨0x7fffe1, 23⟩, ⟨0x7fffe2, 23⟩, ⟨0x7fffe3, 23⟩,
   ⟨0x7fffe4, 23⟩, ⟨0x1fffdc, 21⟩, ⟨0x3fffd8, 22⟩, ⟨0x7fffe5, 23⟩, ⟨0x3fffd9, 22⟩, ⟨0x7fffe6, 23⟩,
   ⟨0x7fffe7, 23⟩, ⟨0xffffef, 24⟩, ⟨0x3fffda, 22⟩, ⟨0x1fffdd, 21⟩, ⟨0xfffe9, 20⟩, ⟨0x3fffdb, 22⟩,
   ⟨0x3fffdc, 22⟩, ⟨0x7fffe8, 23⟩, ⟨0x7fffe9, 23⟩, ⟨0x1fffde, 21⟩, ⟨0x7fffea, 23⟩, ⟨0x3fffdd, 22⟩,
   ⟨0x3fffde, 22⟩, ⟨0xfffff0, 24⟩, ⟨0x1fffdf, 21⟩, ⟨0x3fffdf, 22⟩, ⟨0x7fffeb, 23⟩, ⟨0x7fffec, 23⟩,
   ⟨0x1fffe0, 21⟩, ⟨0x1fffe1, 21⟩, ⟨0x3fffe0, 22⟩, ⟨0x1fffe2, 21⟩, ⟨0x7fffed, 23⟩, ⟨0x3fffe1, 22⟩,
   ⟨0x7fffee, 23⟩, ⟨0x7fffef, 23⟩, ⟨0xfffea, 20⟩, ⟨0x3fffe2, 22⟩, ⟨0x3fffe3, 22⟩, ⟨0x3fffe4, 22⟩,
   ⟨0x7ffff0, 23⟩, ⟨0x3fffe5, 22⟩, ⟨0x3fffe6, 22⟩, ⟨0x7ffff1, 23⟩, ⟨0x3ffffe0, 26⟩,
   ⟨0x3ffffe1, 26⟩, ⟨0xfffeb, 20⟩, ⟨0x7fff1, 19⟩, ⟨0x3fffe7, 22⟩, ⟨0x7ffff2, 23⟩, ⟨0x3fffe8, 22⟩,
   ⟨0x1ffffec, 25⟩, ⟨0x3ffffe2, 26⟩, ⟨0x3ffffe3, 26⟩, ⟨0x3ffffe4, 26⟩, ⟨0x7ffffde, 27⟩,
   ⟨0x7ffffdf, 27⟩, ⟨0x3ffffe5, 26⟩, ⟨0xfffff1, 24⟩, ⟨0x1ffffed, 25⟩, ⟨0x7fff2, 19⟩,
   ⟨0x1fffe3, 21⟩, ⟨0x3ffffe6, 26⟩, ⟨0x7ffffe0, 27⟩, ⟨0x7ffffe1, 27⟩, ⟨0x3ffffe7, 26⟩,
   ⟨0x7ffffe2, 27⟩, ⟨0xfffff2, 24⟩, ⟨0x1fffe4, 21⟩, ⟨0x1fffe5, 21⟩, ⟨0x3ffffe8, 26⟩,
   ⟨0x3ffffe9, 26⟩, ⟨0xffffffd, 28⟩, ⟨0x7ffffe3, 27⟩, ⟨0x7ffffe4, 27⟩, ⟨0x7ffffe5, 27⟩,
   ⟨0xfffec, 20⟩, ⟨0xfffff3, 24⟩, ⟨0xfffed, 20⟩, ⟨0x1fffe6, 21⟩, ⟨0x3fffe9, 22⟩, ⟨0x1fffe7, 21⟩,
   ⟨0x1fffe8, 21⟩, ⟨0x7ffff3, 23⟩, ⟨0x3fffea, 22⟩, ⟨0x3fffeb, 22⟩, ⟨0x1ffffee, 25⟩,
   ⟨0x1ffffef, 25⟩, ⟨0xfffff4, 24⟩, ⟨0xfffff5, 24⟩, ⟨0x3ffffea, 26⟩, ⟨0x7ffff4, 23⟩,
   ⟨0x3ffffeb, 26⟩, ⟨0x7ffffe6, 27⟩, ⟨0x3ffffec, 26⟩, ⟨0x3ffffed, 26⟩, ⟨0x7ffffe7, 27⟩,
   ⟨0x7ffffe8, 27⟩, ⟨0x7ffffe9, 27⟩, ⟨0x7ffffea, 27⟩, ⟨0x7ffffeb, 27⟩, ⟨0xffffffe, 28⟩,
   ⟨0x7ffffec, 27⟩, ⟨0x7ffffed, 27⟩, ⟨0x7ffffee, 27⟩, ⟨0x7ffffef, 27⟩, ⟨0x7fffff0, 27⟩,
   ⟨0x3ffffee, 26⟩, ⟨0x3fffffff, 30⟩]
/-- The code words of `table`, symbol 256 being EOS. -/
def codes : List (List Bool) := table.map fun item => bitsOf item.length item.bits

/-- `next` is `none` where the source has `-1`. -/
structure DecodeStep where
  next : Option (List Bool) := some []
  emitted : Option Nat := none
  trailingBits : Nat := 0
  trailingAllOnes : Bool := true

/-- The inner loop of `decoder_tree`: walk the bits of a nibble from `node`. -/
def nibbleLoop : List Bool → List Bool → DecodeStep → DecodeStep
  | [], node, step => { step with next := some node }
  | bit :: rest, node, step =>
    match child codes node bit with
    | none => { step with next := none }
    | some node =>
      match symbolAt codes node with
      | some decoded =>
        -- EOS is never legal as an encoded data symbol
        if decoded = 256 then { step with next := none }
        else nibbleLoop rest [] { step with emitted := some decoded, trailingBits := 0, trailingAllOnes := true }
      | none =>
        nibbleLoop rest node
          { step with
            trailingBits := step.trailingBits + 1
            trailingAllOnes := step.trailingAllOnes && bit }

def nibbleStep (start : List Bool) (nibble : Nat) : DecodeStep :=
  nibbleLoop (bitsOf 4 nibble) start {}

def rootByteStep (byte : UInt8) : DecodeStep :=
  let high := nibbleStep [] (byte.toNat >>> 4)
  match high.next, high.emitted with
  | some node, none =>
    let low := nibbleStep node (byte.toNat % 16)
    if low.next.isSome ∧ low.emitted = none then
      { low with
        trailingBits := high.trailingBits + low.trailingBits
        trailingAllOnes := high.trailingAllOnes && low.trailingAllOnes }
    else low
  | _, _ => { next := none }

/-- The locals of `huffman_decode`. -/
structure DecodeState where
  node : List Bool := []
  pendingBits : Nat := 0
  pendingAllOnes : Bool := true
  output : Bytes := []

def DecodeState.apply (s : DecodeState) (step : DecodeStep) : Option DecodeState :=
  match step.next with
  | none => none
  | some node =>
    match step.emitted with
    | some symbol =>
      some
        { node
          pendingBits := step.trailingBits
          pendingAllOnes := step.trailingAllOnes
          output := s.output ++ [UInt8.ofNat symbol] }
    | none =>
      some
        { s with
          node
          pendingBits := s.pendingBits + step.trailingBits
          pendingAllOnes := s.pendingAllOnes && step.trailingAllOnes }

def DecodeState.readByte (s : DecodeState) (value : UInt8) : Option DecodeState :=
  if s.node = [] then s.apply (rootByteStep value)
  else
    match s.apply (nibbleStep s.node (value.toNat >>> 4)) with
    | none => none
    | some s => s.apply (nibbleStep s.node (value.toNat % 16))

def DecodeState.readBytes : DecodeState → Bytes → Option DecodeState
  | s, [] => some s
  | s, value :: rest =>
    match s.readByte value with
    | none => none
    | some s => s.readBytes rest

/-- `none` is the source's `protocol_error`. -/
def huffmanDecode (input : Bytes) : Option Bytes :=
  match DecodeState.readBytes {} input with
  | none => none
  | some s =>
    if s.pendingBits ≠ 0 ∧ (s.pendingBits > 7 ∨ s.pendingAllOnes = false) then none
    else some s.output

/-- The locals of `huffman_encode`; `bits` is a 64-bit register. -/
structure EncodeState where
  bits : Nat := 0
  length : Nat := 0
  output : Bytes := []

/-- The loop that writes out whole bytes. -/
def emitBytes (bits : Nat) : Nat → Bytes → Nat × Bytes
  | length + 8, output => emitBytes bits length (output ++ [UInt8.ofNat (bits >>> length)])
  | length, output => (length, output)

def EncodeState.put (s : EncodeState) (character : UInt8) : EncodeState :=
  let item := table.getD character.toNat ⟨0, 0⟩
  let bits := ((s.bits <<< item.length) ||| item.bits) % 2 ^ 64
  let (length, output) := emitBytes bits (s.length + item.length) s.output
  { bits, length, output }

def EncodeState.finish (s : EncodeState) : Bytes :=
  if s.length ≠ 0 then
    s.output ++ [UInt8.ofNat (((s.bits <<< (8 - s.length)) % 2 ^ 64) ||| (2 ^ (8 - s.length) - 1))]
  else s.output

def huffmanEncode (input : Bytes) : Bytes :=
  (input.foldl EncodeState.put {}).finish

end Cnetmod.Http.V2
