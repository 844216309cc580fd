import Cnetmod.Coding.SortedMap

/-!
# Block1 transfers of the CoAP server

`server_blockwise.cpp` and the block options of `coap_types.cpp`. A transfer is kept under
its peer, token and path, which stand here as one key. Block numbers have 28 bits, so an
offset does not wrap.
-/
namespace Cnetmod.Coap

open Coding

def optionUintValue (value : Bytes) : Option Nat :=
  if 4 < value.length then none else some (value.foldl (fun result b => (result * 256 + b.toNat) % 2 ^ 32) 0)

structure BlockOption where
  number : Nat
  more : Bool
  sizeExponent : Nat := 6

namespace BlockOption

def blockSize (block : BlockOption) : Nat := 2 ^ (block.sizeExponent + 4)

def offset (block : BlockOption) : Nat := block.number * block.blockSize

end BlockOption

def decodeBlockOption (value : Bytes) : Option BlockOption :=
  (optionUintValue value).bind fun raw =>
    if 6 < raw % 8 then none
    else some { number := raw / 16, more := raw / 8 % 2 != 0, sizeExponent := raw % 8 }

/-- The options are the first ones of their numbers. -/
structure InboundRequest (κ : Type) where
  key : κ
  block1Option : Option Bytes := none
  size1Option : Option Bytes := none
  payload : Bytes := []

variable {κ : Type}

namespace InboundRequest

def block1 (req : InboundRequest κ) : Option BlockOption := req.block1Option.bind decodeBlockOption

/-- The length a Size1 option of the request announces. -/
def announced (req : InboundRequest κ) : Option Nat := req.size1Option.bind optionUintValue

end InboundRequest

inductive Block1Result where
  | none | continue | complete | incomplete | tooLarge
deriving DecidableEq

/-- Why a block that goes on behind the stored bytes is refused. -/
def refusal (limit : Nat) (block : BlockOption) (req : InboundRequest κ) : Option Block1Result :=
  match req.size1Option with
  | .none => .none
  | some value => match optionUintValue value with
    | .none => some .incomplete
    | some declared =>
      if limit < declared then some .tooLarge
      else if block.more = false ∧ block.offset + req.payload.length ≠ declared then some .incomplete
      else .none

/-- A block of a transfer with these stored bytes: the result, the payload the request has
afterwards, and the bytes that stay stored, if the transfer is not erased. -/
def receive (limit : Nat) (stored : Bytes) (block : BlockOption) (req : InboundRequest κ) : Block1Result × Bytes × Option Bytes :=
  if block.offset < stored.length then
    if stored.length < block.offset + req.payload.length ∨ req.payload ≠ (stored.drop block.offset).take req.payload.length then
      (.incomplete, req.payload, .none)
    else if block.more then (.continue, req.payload, some stored)
    else (.complete, stored, .none)
  else if block.offset ≠ stored.length then (.incomplete, req.payload, .none)
  else match refusal limit block req with
    | some result => (result, req.payload, .none)
    | .none =>
      if block.more then (.continue, req.payload, some (stored ++ req.payload))
      else (.complete, stored ++ req.payload, .none)

structure Block1Transfer where
  payload : Bytes := []
  updatedAt : Int

structure UdpServer (κ : Type) [LinearOrder κ] where
  maxDatagramSize : Nat := 1152
  enableBlockwise : Bool := true
  blockwiseTransferTimeout : Int := 247000
  transfers : SortedMap κ Block1Transfer := .empty

variable [LinearOrder κ]

namespace UdpServer

def limit (s : UdpServer κ) : Nat := s.maxDatagramSize * 1024

/-- The transfers that have not timed out. -/
def live (s : UdpServer κ) (now : Int) : SortedMap κ Block1Transfer :=
  s.transfers.filterMapValues fun transfer =>
    if s.blockwiseTransferTimeout < now - transfer.updatedAt then none else some transfer

def stored (s : UdpServer κ) (now : Int) (key : κ) : Bytes := (((s.live now).get key).map (·.payload)).getD []

def applyBlock1 (s : UdpServer κ) (now : Int) (req : InboundRequest κ) : Block1Result × InboundRequest κ × UdpServer κ :=
  if s.enableBlockwise = false then (.none, req, s)
  else match req.block1 with
    | none => (.none, req, s)
    | some block =>
      let (result, payload, kept) := receive s.limit (s.stored now req.key) block req
      (result, { req with payload }, { s with transfers := match kept with
        | some bytes => (s.live now).put req.key { payload := bytes, updatedAt := now }
        | none => (s.live now).delete req.key })

end UdpServer

end Cnetmod.Coap
