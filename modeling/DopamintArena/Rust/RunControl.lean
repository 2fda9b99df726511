import DopamintArena.Rust.PartyDriver
import Mathlib.Logic.Function.Basic

/-!
The run control of `tunnel-harness/src/party_driver.rs` and the two drivers of a
tunnel that share it. Every load and every update of a shared atomic is a step
of its own, so that the steps of the two drivers, of the drivers of other
tunnels and of whoever requests a stop can come in any order.

The transport between the two drivers keeps the order and loses nothing. A
driver that has left the loop holds its end until `settle` has returned, and
`settle` waits for the half of the peer.

The counters are `AtomicU64` in the source and unbounded here: each is raised by
one for a move that two parties have signed or are about to, so a run would have
to make `2 ^ 64` moves before one wraps.
-/

namespace DopamintArena.Rust

open Foundation
open Foundation.Handshake (Side Message onTheWay unanswered)

variable {State Move : Type}

/-- What the tunnels of a run share. `version` counts the values sent on the stop channel. -/
structure RunLevelControl where
  moveLimit : Option Nat
  /-- `stop_mode` is `Graceful`. -/
  graceful : Bool
  reservations : Nat
  moves : Nat
  stopped : Bool
  version : Nat
deriving DecidableEq

namespace RunLevelControl

variable (run : RunLevelControl)

def requestStop : RunLevelControl := { run with stopped := true, version := run.version + 1 }

/-- The rest of `record_committed_move` after the move is not in flight any more. -/
def countMove : RunLevelControl :=
  let counted := { run with moves := run.moves + 1 }
  if counted.moveLimit.any fun moveLimit => moveLimit ≤ counted.moves then counted.requestStop
  else counted

end RunLevelControl

/-- The driver is out of the loop. -/
def Point.out : Point Move → Bool
  | .finished => true
  | .failed _ => true
  | _ => false

/-- What the drivers of a tunnel have in common, and what each brings along. -/
structure TunnelSetup (State Move : Type) where
  protocol : Protocol State Move
  canGracefullyClose : State → Bool
  proposerForNonce : UInt64 → Option Seat
  blake2b256 : Bytes → Bytes32
  verify : (publicKey : Bytes32) → (message : Bytes) → (signature : Bytes64) → Bool
  encode : TunnelFrame Move → Bytes
  decode : Bytes → Except CodecError (TunnelFrame Move)
  tunnelId : String
  sign : Seat → Bytes → Bytes64
  publicKey : Seat → Bytes32
  maxMoves : Seat → Nat
  maxAckResends : Seat → Nat

/-- The drivers of a tunnel, the frames on their way to each, which ends of the transport were
dropped, and the gate of the tunnel. -/
structure Tunnel (State Move : Type) where
  driver : Seat → Driver State Move
  inbox : Seat → List Bytes
  dropped : Seat → Bool
  inflight : Nat

/-- What a driver does next. All it does by itself is `run`. -/
inductive DriverEvent (Move : Type)
  | run
  | plan (mv : Option Move)
  /-- Another driver has changed the reservations in between, or the exchange failed spuriously. -/
  | retry
  | propose (timestamp : UInt64)
  | timeout
  | wake
  /-- The recorder, the transport or the anchor fails. -/
  | fail (error : HarnessError)

inductive TunnelEvent (Move : Type)
  | driver (seat : Seat) (event : DriverEvent Move)
  | drop (seat : Seat)
  | requestStop

namespace Tunnel

variable (t : Tunnel State Move) (seat : Seat)

def put (d : Driver State Move) : Tunnel State Move :=
  { t with driver := Function.update t.driver seat d }

def goTo (point : Point Move) : Tunnel State Move := t.put seat ((t.driver seat).goTo point)

def setInflight (inflight : Nat) : Tunnel State Move := { t with inflight := inflight }

/-- The first frame is taken out. -/
def take : Tunnel State Move :=
  { t with inbox := Function.update t.inbox seat (t.inbox seat).tail }

/-- The driver has done this and sends frames, which fails if the other end was dropped. -/
def sends (taken : Driver State Move × List Bytes) : Tunnel State Move :=
  if taken.2 ≠ [] ∧ t.dropped seat.other = true then
    t.put seat
      { t.driver seat with point := .failed (.frameTransport .closed), seat := taken.1.seat }
  else
    { t.put seat taken.1 with
      inbox := Function.update t.inbox seat.other (t.inbox seat.other ++ taken.2) }

/-- The driver has failed, or both have handed in their halves and `settle` returns. -/
def mayDrop : Bool :=
  match (t.driver seat).point, (t.driver seat.other).point with
  | .failed _, _ => true
  | .finished, .finished => true
  | _, _ => false

/-- `may_stop`. -/
def mayStop (run : RunLevelControl) (boundaryOk : Bool) : Bool :=
  run.stopped && t.inflight == 0 && (!run.graceful || boundaryOk)

end Tunnel

namespace TunnelSetup

variable (T : TunnelSetup State Move)

def runtime (seat : Seat) : RuntimeConfig State Move where
  protocol := T.protocol
  sign := T.sign seat
  blake2b256 := T.blake2b256
  verify := T.verify
  encode := T.encode
  decode := T.decode
  opponentPk := T.publicKey seat.other
  tunnelId := T.tunnelId
  seat := seat

def driver (seat : Seat) : DriverConfig State Move where
  runtime := T.runtime seat
  canGracefullyClose := T.canGracefullyClose
  proposerForNonce := T.proposerForNonce
  maxMoves := T.maxMoves seat
  maxAckResends := T.maxAckResends seat
  controlled := true

/-- Both drivers in front of the loop. -/
def start (balances : Balances) : Tunnel State Move :=
  ⟨fun seat => (T.driver seat).start balances, fun _ => [], fun _ => false, 0⟩

section

variable (run : RunLevelControl) (t : Tunnel State Move) (seat : Seat)

/-- `reserve_move_proposal`, up to the first update. -/
def reserve (mv : Move) : Tunnel State Move :=
  if run.graceful then (t.goTo seat (.proposing mv)).setInflight (t.inflight + 1)
  else if run.stopped then t.goTo seat .top
  else t.goTo seat (if run.moveLimit.isSome then .claiming mv else .counting mv)

/-- The reservation is taken, or there is none left. -/
def claim (mv : Move) : RunLevelControl × Tunnel State Move :=
  match run.moveLimit with
  | some moveLimit =>
    if moveLimit ≤ run.reservations then (run, t.goTo seat .top)
    else ({ run with reservations := run.reservations + 1 }, t.goTo seat (.counting mv))
  | none => (run, t)

/-- A driver that waits for an acknowledgement receives. -/
def receiveAck (frame : Bytes) (proposedNonce : UInt64) (resends : Nat) : Tunnel State Move :=
  match t.inbox seat with
  | bytes :: _ => (t.take seat).sends seat
      ((T.driver seat).ackArrives (t.driver seat) frame proposedNonce resends bytes)
  | [] =>
    if t.dropped seat.other then t.goTo seat (.failed (.frameTransport .closed)) else t

/-- A driver that waits for a move receives. -/
def receiveMove : Tunnel State Move :=
  match t.inbox seat with
  | bytes :: _ => (t.take seat).sends seat ((T.driver seat).moveArrives (t.driver seat) bytes)
  | [] =>
    if t.dropped seat.other then
      t.goTo seat (if run.stopped then .finished else .failed (.frameTransport .closed))
    else t

/-- The stop channel has changed while nothing was there to receive. -/
def wake (boundaryOk : Bool) (seen : Nat) : Tunnel State Move :=
  if seen = run.version ∨ t.inbox seat ≠ [] ∨ t.dropped seat.other = true then t
  else if t.mayStop run boundaryOk then t.goTo seat .finished
  else t.goTo seat (.parked boundaryOk run.version)

/-- What a driver does by itself. -/
def advance : RunLevelControl × Tunnel State Move :=
  match (t.driver seat).point with
  | .top => (run, t.put seat
      ((T.driver seat).head (t.driver seat) run.stopped run.graceful))
  | .reserving mv => (run, reserve run t seat mv)
  | .claiming mv => claim run t seat mv
  | .counting mv => (run, (t.goTo seat (.proposing mv)).setInflight (t.inflight + 1))
  | .awaiting frame proposedNonce resends =>
    (run, T.receiveAck t seat frame proposedNonce resends)
  | .arriving boundaryOk =>
    (run, t.goTo seat (if t.mayStop run boundaryOk then .finished else .subscribing boundaryOk))
  | .subscribing boundaryOk => (run, t.goTo seat (.parked boundaryOk run.version))
  | .parked _ _ => (run, T.receiveMove run t seat)
  | .recording => (run, (t.goTo seat .tallying).setInflight (t.inflight - 1))
  | .tallying => (run.countMove, t.goTo seat .top)
  | _ => (run, t)

def driverStep : DriverEvent Move → RunLevelControl × Tunnel State Move
  | .run => T.advance run t seat
  | .plan mv =>
    match (t.driver seat).point with
    | .planning boundaryOk =>
      (run, t.put seat ((T.driver seat).planned (t.driver seat) boundaryOk mv))
    | _ => (run, t)
  | .retry =>
    match (t.driver seat).point with
    | .claiming mv => (run, t.goTo seat (.reserving mv))
    | _ => (run, t)
  | .propose timestamp =>
    match (t.driver seat).point with
    | .proposing mv => (run, t.sends seat ((T.driver seat).propose (t.driver seat) mv timestamp))
    | _ => (run, t)
  | .timeout =>
    match (t.driver seat).point with
    | .awaiting frame proposedNonce resends => (run, t.sends seat
        ((T.driver seat).timeout (t.driver seat) frame proposedNonce resends))
    | _ => (run, t)
  | .wake =>
    match (t.driver seat).point with
    | .parked boundaryOk seen => (run, wake run t seat boundaryOk seen)
    | _ => (run, t)
  | .fail error =>
    match (t.driver seat).point with
    | .failed _ => (run, t)
    | _ => (run, if t.dropped seat then t else t.goTo seat (.failed error))

end

/-- One step of a tunnel. -/
def step (now : RunLevelControl × Tunnel State Move) :
    TunnelEvent Move → RunLevelControl × Tunnel State Move
  | .driver seat event => T.driverStep now.1 now.2 seat event
  | .drop seat =>
    (now.1, if now.2.mayDrop seat then
      { now.2 with dropped := Function.update now.2.dropped seat true } else now.2)
  | .requestStop => (now.1.requestStop, now.2)

end TunnelSetup

end DopamintArena.Rust
