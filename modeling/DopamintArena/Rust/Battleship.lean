import DopamintArena.Foundation.Merkle
import DopamintArena.Games.Battleship
import DopamintArena.Rust.Harness

/-!
`protocols/battleship/src/lib.rs`: each seat commits to the Merkle root of its
board, opens single cells when they are shot, and the seat that sank the other
fleet reveals its whole board. The hash is a parameter.
-/

namespace DopamintArena.Rust

open Foundation
open DopamintArena.Games (Hash)

inductive BattleshipPhase
  | awaitingCommits
  | playing
  | awaitingBoardReveal
  | over
deriving DecidableEq

inductive BattleshipWinner
  | undecided
  | seatA
  | seatB
deriving DecidableEq

structure PendingShot where
  bySeat : Seat
  cell : UInt8
deriving DecidableEq

structure ShotResult where
  cell : UInt8
  isHit : Bool
deriving DecidableEq

structure BattleshipState where
  phase : BattleshipPhase
  turn : Seat
  pendingShot : Option PendingShot
  commitA : Option Bytes32
  commitB : Option Bytes32
  shotsAtA : List ShotResult
  shotsAtB : List ShotResult
  hitsOnA : UInt8
  hitsOnB : UInt8
  winner : BattleshipWinner
  balanceA : UInt64
  balanceB : UInt64
  total : UInt64
  stake : UInt64
deriving DecidableEq

inductive BattleshipMove
  | commit (root : Bytes32)
  | shoot (cell : UInt8)
  | reveal (cell : UInt8) (isShip : Bool) (salt : Bytes32) (proof : List Bytes32)
  | revealBoard (cells : Bytes) (salts : List Bytes32)
deriving DecidableEq

namespace Battleship

def cellCount : Nat := 100
def fleetCells : UInt8 := 17
def treeLeaves : Nat := 128

/-- The strings behind a leaf, an inner node and a padding leaf. -/
def leafString (cell : UInt8) (isShip : Bool) (salt : Bytes32) : Bytes :=
  [0x00, cell, if isShip then 1 else 0] ++ salt.bytes

def nodeString (left right : Bytes32) : Bytes := 0x01 :: (left.bytes ++ right.bytes)

def padString : Bytes := [0x02]

section Merkle

variable (hash : Hash)

def leafHash (cell : UInt8) (isShip : Bool) (salt : Bytes32) : Bytes32 :=
  hash (leafString cell isShip salt)

def padLeaf : Bytes32 := hash padString

/-- The leaves of a board: a cell is a ship if it holds exactly 1. -/
def leaves (board : Bytes) (salts : List Bytes32) : List Bytes32 :=
  (List.range treeLeaves).map fun cell =>
    match board[cell]?, salts[cell]? with
    | some value, some salt => leafHash hash (UInt8.ofNat cell) (value == 1) salt
    | _, _ => padLeaf hash

def commitBoard (board : Bytes) (salts : List Bytes32) :
    Except String (List (List Bytes32)) := do
  require (board.length = cellCount) s!"board must be {cellCount} cells"
  require (salts.length = cellCount) s!"need {cellCount} salts"
  pure (Merkle.layers hash nodeString treeLeaves (leaves hash board salts))

def commitmentRoot (layers : List (List Bytes32)) : Option Bytes32 :=
  layers.getLast?.bind List.head?

/-- The number of siblings is not checked. -/
def verifyCell (root : Bytes32) (cell : UInt8) (isShip : Bool) (salt : Bytes32)
    (proof : List Bytes32) : Bool :=
  decide (cell.toNat < cellCount) &&
    decide (Merkle.climb hash nodeString (leafHash hash cell isShip salt) cell.toNat proof =
      root)

end Merkle

def commitFor (s : BattleshipState) : Seat → Option Bytes32
  | .A => s.commitA
  | .B => s.commitB

def shotsAt (s : BattleshipState) : Seat → List ShotResult
  | .A => s.shotsAtA
  | .B => s.shotsAtB

/-- The seat that owes its board after sinking the other fleet. -/
def pendingBoardReveal (s : BattleshipState) : Option Seat :=
  if s.phase ≠ .awaitingBoardReveal then none
  else if s.hitsOnB = fleetCells then some .A
  else if s.hitsOnA = fleetCells then some .B
  else none

/-- The fleet check of `battleshipFleet.ts`, on the same bytes: every nonzero cell is a
ship. -/
def isLegalBoard (board : Bytes) : Bool := Games.Battleship.isLegalBoard board

def initialState (defaultStake : UInt64) (ctx : TunnelContext) : BattleshipState where
  phase := .awaitingCommits
  turn := .A
  pendingShot := none
  commitA := none
  commitB := none
  shotsAtA := []
  shotsAtB := []
  hitsOnA := 0
  hitsOnB := 0
  winner := .undecided
  balanceA := ctx.initial.a
  balanceB := ctx.initial.b
  total := ctx.initial.sum
  stake := min defaultStake (min ctx.initial.a ctx.initial.b)

def applyCommit (s : BattleshipState) (root : Bytes32) (bySeat : Seat) :
    Except String BattleshipState := do
  require (s.phase = .awaitingCommits) "commits are closed"
  match s.commitA, s.commitB with
  | none, _ => require (bySeat = .A) "A commits first"
  | some _, none => require (bySeat = .B) "B commits second"
  | some _, some _ => .error "both fleets already committed"
  let next := match bySeat with
    | .A => { s with commitA := some root }
    | .B => { s with commitB := some root }
  if next.commitA.isSome ∧ next.commitB.isSome then
    pure { next with phase := .playing, turn := .A }
  else pure next

def applyShoot (s : BattleshipState) (cell : UInt8) (bySeat : Seat) :
    Except String BattleshipState := do
  require (s.phase = .playing) "not in the firing phase"
  require (s.pendingShot.isNone = true) "awaiting the previous shot's reveal"
  require (bySeat = s.turn) "not this party's turn"
  require (cell.toNat < cellCount) s!"cell out of range: {cell.toNat}"
  require ((shotsAt s bySeat.other).all (fun shot => decide (shot.cell ≠ cell)) = true)
    s!"already fired at cell {cell.toNat}"
  pure { s with pendingShot := some ⟨bySeat, cell⟩ }

def recordShot (s : BattleshipState) (defender : Seat) (cell : UInt8) (isShip : Bool) :
    BattleshipState :=
  match defender with
  | .A =>
    { s with
      shotsAtA := s.shotsAtA ++ [⟨cell, isShip⟩]
      hitsOnA := if isShip then s.hitsOnA + 1 else s.hitsOnA }
  | .B =>
    { s with
      shotsAtB := s.shotsAtB ++ [⟨cell, isShip⟩]
      hitsOnB := if isShip then s.hitsOnB + 1 else s.hitsOnB }

def applyReveal (hash : Hash) (s : BattleshipState) (cell : UInt8) (isShip : Bool)
    (salt : Bytes32) (proof : List Bytes32) (bySeat : Seat) :
    Except String BattleshipState := do
  match s.pendingShot with
  | none => .error "no shot to reveal"
  | some pending => do
    require (s.phase = .playing) "no shot to reveal"
    require (bySeat = pending.bySeat.other) "only the defender reveals"
    require (cell = pending.cell) "reveal must answer the pending shot"
    match commitFor s bySeat with
    | none => .error "defender has not committed"
    | some commit => do
      require (verifyCell hash commit cell isShip salt proof = true)
        "reveal proof does not match the committed board"
      let next := { recordShot s bySeat cell isShip with pendingShot := none }
      if next.hitsOnB = fleetCells ∨ next.hitsOnA = fleetCells then
        pure { next with phase := .awaitingBoardReveal, turn := bySeat.other }
      else pure { next with turn := bySeat }

def settle (s : BattleshipState) (beneficiary : Seat) : BattleshipState :=
  match beneficiary with
  | .A =>
    let shift := min s.stake s.balanceB
    { s with
      balanceA := s.balanceA + shift, balanceB := s.balanceB - shift
      winner := .seatA, phase := .over }
  | .B =>
    let shift := min s.stake s.balanceA
    { s with
      balanceA := s.balanceA - shift, balanceB := s.balanceB + shift
      winner := .seatB, phase := .over }

/-- An illegal fleet gives the stake to the other seat. -/
def applyRevealBoard (hash : Hash) (s : BattleshipState) (cells : Bytes)
    (salts : List Bytes32) (bySeat : Seat) : Except String BattleshipState := do
  match pendingBoardReveal s with
  | none => .error "no board reveal is due"
  | some winnerSeat => do
    require (bySeat = winnerSeat) "only the prospective winner reveals its board"
    require (cells.length = cellCount) s!"board must be {cellCount} cells"
    require (salts.length = cellCount) s!"need {cellCount} salts"
    match commitFor s bySeat with
    | none => .error "revealer has not committed"
    | some commit => do
      let layers ← commitBoard hash cells salts
      match commitmentRoot layers with
      | none => .error "could not derive root"
      | some root => do
        require (root = commit) "revealed board does not match the commitment"
        pure (settle s (if isLegalBoard cells then winnerSeat else winnerSeat.other))

def applyMove (hash : Hash) (s : BattleshipState) (mv : BattleshipMove) (bySeat : Seat) :
    Except String BattleshipState := do
  require (¬(s.phase = .over ∨ s.winner ≠ .undecided)) "game already over"
  match mv with
  | .commit root => applyCommit s root bySeat
  | .shoot cell => applyShoot s cell bySeat
  | .reveal cell isShip salt proof => applyReveal hash s cell isShip salt proof bySeat
  | .revealBoard cells salts => applyRevealBoard hash s cells salts bySeat

end Battleship

end DopamintArena.Rust
