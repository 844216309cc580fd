import Cnetmod.Coding.SortedMap
import Cnetmod.Quic.Source.Frame

/-!
# CRYPTO frames

`process_crypto_frame` of `quic_connection.cpp`. The TLS library is given: for an
encryption level, what it was provided there before and the data it is provided now,
it accepts or not. Offsets of frames are below 2^62 and do not wrap.
-/
namespace Cnetmod.Quic

open Coding (Bytes SortedMap)

inductive EncryptionLevel where
  | initial
  | earlyData
  | handshake
  | application
  deriving DecidableEq

/-- What the connection keeps for one level, and what it has provided to the TLS library. -/
structure CryptoReceiver where
  fragments : SortedMap Nat Bytes := .empty
  nextOffset : Nat := 0
  provided : Bytes := []

structure CryptoConnection where
  receiver : EncryptionLevel → CryptoReceiver := fun _ => {}
  closing : Bool := false
  postHandshakeDataPending : Bool := false

/-- `provide_quic_data` succeeds. -/
abbrev ProvideQuicData := EncryptionLevel → (provided data : Bytes) → Bool

namespace CryptoReceiver

/-- A fragment is kept under its offset; of two with one offset, the longer. -/
def keep (fragments : SortedMap Nat Bytes) (frame : CryptoFrame) : SortedMap Nat Bytes :=
  match fragments.get frame.offset with
  | none => fragments.put frame.offset frame.data
  | some held => if held.length < frame.data.length then fragments.put frame.offset frame.data else fragments

def release (r : CryptoReceiver) (data : Bytes) : CryptoReceiver where
  fragments := r.fragments.delete r.nextOffset
  nextOffset := r.nextOffset + data.length
  provided := r.provided ++ data

end CryptoReceiver

namespace CryptoConnection

def setReceiver (c : CryptoConnection) (level : EncryptionLevel) (r : CryptoReceiver) : CryptoConnection :=
  { c with receiver := Function.update c.receiver level r }

/-- The loop of `process_crypto_frame`. Every round but the last takes a fragment out. -/
def provideContiguous (tls : ProvideQuicData) (level : EncryptionLevel) : (rounds : Nat) → CryptoConnection → CryptoConnection
  | 0, c => c
  | rounds + 1, c =>
    let r := c.receiver level
    match r.fragments.get r.nextOffset with
    | none => c
    | some data =>
      if tls level r.provided data = false then { c with closing := true }
      else provideContiguous tls level rounds { c.setReceiver level (r.release data) with
        postHandshakeDataPending := c.postHandshakeDataPending || level = .application }

def processCryptoFrame (tls : ProvideQuicData) (level : EncryptionLevel) (c : CryptoConnection)
    (frame : CryptoFrame) : CryptoConnection :=
  if frame.data = [] then c
  else
    let fragments := CryptoReceiver.keep (c.receiver level).fragments frame
    provideContiguous tls level (fragments.records.length + 1) (c.setReceiver level { c.receiver level with fragments })

end CryptoConnection

end Cnetmod.Quic
