import DopamintArena.Engine.Protocol
import DopamintArena.Rust.Wire

/-!
`tunnel-harness/src/types.rs` and the `Protocol` trait: what a game supplies to
the Rust engine. Amounts are `u64` by type and an encoding never fails. A seat is
a party of the tunnel.
-/

namespace DopamintArena.Rust

open Foundation

abbrev Seat := Engine.Party

def Seat.other (seat : Seat) : Seat := Engine.otherParty seat

structure Balances where
  a : UInt64
  b : UInt64
deriving DecidableEq

/-- Additions on `u64` wrap, as in a release build. -/
def Balances.sum (balances : Balances) : UInt64 := balances.a + balances.b

structure TunnelContext where
  tunnelId : String
  initial : Balances
  seat : Seat

/-- The part of the trait that decides the state of a tunnel. -/
structure Protocol (State Move : Type) where
  name : String
  initialState : TunnelContext → State
  applyMove : State → Move → Seat → Except String State
  encodeState : State → Bytes
  balances : State → Balances
  isTerminal : State → Bool

/-- `push_length_prefixed` on an empty vector. -/
def lengthPrefixed (bytes : Bytes) : Bytes :=
  u64ToBeBytes (UInt64.ofNat bytes.length) ++ bytes

end DopamintArena.Rust
