import Mathlib.Data.List.Sort
import DopamintArena.Games.Commitment

/-!
`protocol/battleship.ts` with the board check of `protocol/battleshipFleet.ts`:
each side commits to a board, shots are answered with hit or miss, and once a
fleet is sunk or the cells run out both boards are revealed and checked
against the commitment, the fleet rules and every answer.
-/

namespace DopamintArena.Games

open Foundation Engine

inductive BattleshipWinner
  | undecided
  | partyA
  | partyB
deriving DecidableEq

inductive BattleshipPhase
  | awaitingCommits
  | playing
  | revealBoards
  | over
deriving DecidableEq

structure BattleshipShotResult where
  cell : Int
  isHit : Bool
deriving DecidableEq

/-- A shot that waits for its answer. -/
structure BattleshipShot where
  byParty : Party
  cell : Int
deriving DecidableEq

structure BattleshipState where
  phase : BattleshipPhase
  turn : Party
  pendingShot : Option BattleshipShot
  commitA : Option Bytes
  commitB : Option Bytes
  shotsAtA : List BattleshipShotResult
  shotsAtB : List BattleshipShotResult
  hitsOnA : Int
  hitsOnB : Int
  revealedA : Bool
  revealedB : Bool
  winner : BattleshipWinner
  balanceA : Int
  balanceB : Int
  total : Int
  stake : Int
deriving DecidableEq

inductive BattleshipMove
  | commit (commitment : Bytes)
  | shoot (cell : Int)
  | answer (isHit : Bool) (next : Option Int)
  | revealBoard (board salt : Bytes)
  | resign
deriving DecidableEq

namespace Battleship

def boardSize : Nat := 10
def cellCount : Nat := 100

def fleetSizes : List Nat := [5, 4, 3, 3, 2]

def fleetCells : Nat := fleetSizes.sum

def rowOf (cell : Nat) : Nat := cell / boardSize
def colOf (cell : Nat) : Nat := cell % boardSize

def neighbors (offsets : List (Int × Int)) (cell : Nat) : List Nat :=
  offsets.filterMap fun (dr, dc) =>
    let r := (rowOf cell : Int) + dr
    let c := (colOf cell : Int) + dc
    if 0 ≤ r ∧ r < boardSize ∧ 0 ≤ c ∧ c < boardSize then some (r * boardSize + c).toNat
    else none

def diagonalNeighbors : Nat → List Nat := neighbors [(-1, -1), (-1, 1), (1, -1), (1, 1)]

def orthoNeighbors : Nat → List Nat := neighbors [(-1, 0), (1, 0), (0, -1), (0, 1)]

def shipAt (board : Bytes) (cell : Nat) : Bool := decide (board.getD cell 0 ≠ 0)

def shipCellCount (board : Bytes) : Nat := board.countP fun cell => decide (cell ≠ 0)

/-- The flood fill of one connected component, with the stack's top first. Every cell is
pushed at most once, so `cellCount` rounds empty the stack. -/
def floodFill (board : Bytes) :
    Nat → (stack seen comp : List Nat) → List Nat × List Nat
  | 0, _, seen, comp => (seen, comp)
  | _ + 1, [], seen, comp => (seen, comp)
  | rounds + 1, cur :: stack, seen, comp =>
    let fresh := (orthoNeighbors cur).filter fun n => shipAt board n && !seen.contains n
    floodFill board rounds (fresh.reverse ++ stack) (fresh ++ seen) (comp ++ [cur])

/-- A component lies in one row or in one column. -/
def straight (comp : List Nat) : Bool :=
  decide ((comp.map rowOf).dedup.length = 1 ∨ (comp.map colOf).dedup.length = 1)

/-- The sizes of the components, or none if one of them is not straight. -/
def shipSizes (board : Bytes) : (cells seen sizes : List Nat) → Option (List Nat)
  | [], _, sizes => some sizes
  | start :: cells, seen, sizes =>
    if !shipAt board start || seen.contains start then shipSizes board cells seen sizes
    else
      let (seen, comp) := floodFill board cellCount [start] (start :: seen) []
      if straight comp then shipSizes board cells seen (sizes ++ [comp.length]) else none

def isLegalBoard (board : Bytes) : Bool :=
  decide (board.length = cellCount) && decide (shipCellCount board = fleetCells) &&
  (List.range cellCount).all (fun cell => !shipAt board cell ||
    (diagonalNeighbors cell).all fun d => !shipAt board d) &&
  (shipSizes board (List.range cellCount) [] []).any fun sizes =>
    decide (sizes.insertionSort (· ≤ ·) = fleetSizes.insertionSort (· ≤ ·))

section

variable (s : BattleshipState)

def commitFor : Party → Option Bytes
  | .A => s.commitA
  | .B => s.commitB

def shotsAt : Party → List BattleshipShotResult
  | .A => s.shotsAtA
  | .B => s.shotsAtB

def openCells (shooter : Party) : Int :=
  cellCount - (shotsAt s (otherParty shooter)).length

def assertShootable (shooter : Party) (cell : Int) :
    Except String Unit := do
  require (0 ≤ cell ∧ cell < cellCount) s!"cell out of range: {cell}"
  require ((shotsAt s (otherParty shooter)).all (fun x => decide (x.cell ≠ cell)) = true)
    s!"already fired at cell {cell}"

def settle (winner : BattleshipWinner) : BattleshipState :=
  let (balanceA, balanceB) := match winner with
    | .undecided => (s.balanceA, s.balanceB)
    | .partyA =>
      let shift := if s.stake < s.balanceB then s.stake else s.balanceB
      (s.balanceA + shift, s.balanceB - shift)
    | .partyB =>
      let shift := if s.stake < s.balanceA then s.stake else s.balanceA
      (s.balanceA - shift, s.balanceB + shift)
  { s with winner, balanceA, balanceB, phase := .over }

/-- The winner once both boards are verified. -/
def finalize : BattleshipState :=
  let aSunk := decide ((fleetCells : Int) ≤ s.hitsOnA)
  let bSunk := decide ((fleetCells : Int) ≤ s.hitsOnB)
  settle s <|
    if bSunk && !aSunk then .partyA
    else if aSunk && !bSunk then .partyB
    else if s.hitsOnA < s.hitsOnB then .partyA
    else if s.hitsOnB < s.hitsOnA then .partyB
    else .undecided

/-- Party A commits first, then party B. -/
def applyCommit (commitment : Bytes) (byParty : Party) :
    Except String BattleshipState := do
  require (s.phase = .awaitingCommits) "commits are closed"
  require (commitment.length = 32) "commitment must be 32 bytes"
  match s.commitA, s.commitB with
  | none, _ => require (byParty = .A) "A commits first"
  | some _, none => require (byParty = .B) "B commits second"
  | some _, some _ => .error "both fleets already committed"
  let next := match byParty with
    | .A => { s with commitA := some commitment }
    | .B => { s with commitB := some commitment }
  if next.commitA.isSome ∧ next.commitB.isSome then
    pure { next with phase := .playing, turn := .A }
  else pure next

def applyShoot (cell : Int) (byParty : Party) :
    Except String BattleshipState := do
  require (s.phase = .playing) "not in the firing phase"
  require (s.pendingShot.isNone = true) "awaiting the previous answer"
  require (byParty = s.turn) s!"not {byParty.text}'s turn"
  assertShootable s byParty cell
  pure { s with pendingShot := some ⟨byParty, cell⟩ }

/-- The defender's board after an answered shot. -/
def recordShot (defender : Party) (cell : Int) (isHit : Bool) :
    BattleshipState :=
  match defender with
  | .A =>
    { s with
      shotsAtA := s.shotsAtA ++ [⟨cell, isHit⟩]
      hitsOnA := if isHit then s.hitsOnA + 1 else s.hitsOnA, pendingShot := none }
  | .B =>
    { s with
      shotsAtB := s.shotsAtB ++ [⟨cell, isHit⟩]
      hitsOnB := if isHit then s.hitsOnB + 1 else s.hitsOnB, pendingShot := none }

def hitsOn : Party → Int
  | .A => s.hitsOnA
  | .B => s.hitsOnB

def applyAnswer (isHit : Bool) (nextCell : Option Int)
    (byParty : Party) : Except String BattleshipState := do
  require (s.phase = .playing) "no shot to answer"
  match s.pendingShot with
  | none => .error "no shot to answer"
  | some pending => do
    let defender := otherParty pending.byParty
    require (byParty = defender) "only the defender answers"
    require (¬(nextCell.isSome = true ∧ isHit = true))
      "a hit keeps the shooter's turn; defender cannot fire"
    let next := recordShot s defender pending.cell isHit
    if (fleetCells : Int) ≤ hitsOn next defender then
      pure { next with phase := .revealBoards }
    else if isHit then
      let next := { next with turn := pending.byParty }
      if openCells next pending.byParty = 0 then pure { next with phase := .revealBoards }
      else pure next
    else
      let next := { next with turn := defender }
      match nextCell with
      | some cell => do
        assertShootable next defender cell
        pure { next with pendingShot := some ⟨defender, cell⟩ }
      | none =>
        if openCells next defender = 0 then pure { next with phase := .revealBoards }
        else pure next

end

/-- The first answered shot the board contradicts. -/
def contradiction (board : Bytes) (shots : List BattleshipShotResult) :
    Option BattleshipShotResult :=
  shots.find? fun shot =>
    decide ((0 ≤ shot.cell ∧ board[shot.cell.toNat]? = some 1) ↔ shot.isHit = false)

def applyRevealBoard (hash : Hash) (s : BattleshipState) (board salt : Bytes)
    (byParty : Party) : Except String BattleshipState := do
  require (s.phase = .revealBoards) "not in the reveal phase"
  let already := match byParty with
    | .A => s.revealedA
    | .B => s.revealedB
  require (already = false) "already revealed"
  match commitFor s byParty with
  | none => .error "party has not committed"
  | some commit => do
    require (verifyCommitment hash commit board salt = true)
      "reveal does not match the commitment"
    require (isLegalBoard board = true) "revealed board is not a legal fleet"
    match contradiction board (shotsAt s byParty) with
    | some shot => .error s!"reveal contradicts answered shot at {shot.cell}"
    | none =>
      let next := match byParty with
        | .A => { s with revealedA := true }
        | .B => { s with revealedB := true }
      if next.revealedA && next.revealedB then pure (finalize next) else pure next

def applyMove (hash : Hash) (s : BattleshipState) (move : BattleshipMove)
    (byParty : Party) : Except String BattleshipState := do
  require (¬(s.phase = .over ∨ s.winner ≠ .undecided)) "game already over"
  match move with
  | .commit commitment => applyCommit s commitment byParty
  | .shoot cell => applyShoot s cell byParty
  | .answer isHit next => applyAnswer s isHit next byParty
  | .revealBoard board salt => applyRevealBoard hash s board salt byParty
  | .resign =>
    pure <| settle s <| match byParty with
      | .A => .partyB
      | .B => .partyA

def isTerminal (s : BattleshipState) : Bool := decide (s.phase = .over)

def initialState (defaultStake : Int) (ctx : ProtocolContext) : BattleshipState where
  phase := .awaitingCommits
  turn := .A
  pendingShot := none
  commitA := none
  commitB := none
  shotsAtA := []
  shotsAtB := []
  hitsOnA := 0
  hitsOnB := 0
  revealedA := false
  revealedB := false
  winner := .undecided
  balanceA := ctx.initialBalances.a
  balanceB := ctx.initialBalances.b
  total := ctx.initialBalances.a + ctx.initialBalances.b
  stake :=
    let cap := if ctx.initialBalances.a < ctx.initialBalances.b then ctx.initialBalances.a
      else ctx.initialBalances.b
    if defaultStake < cap then defaultStake else cap

def phaseCode : BattleshipPhase → UInt8
  | .awaitingCommits => 0
  | .playing => 1
  | .revealBoards => 2
  | .over => 3

def partyCode : Party → UInt8
  | .A => 0
  | .B => 1

def flag (b : Bool) : UInt8 := if b then 1 else 0

def winnerCode : BattleshipWinner → UInt8
  | .undecided => 0
  | .partyA => 1
  | .partyB => 2

def shotBytes (shots : List BattleshipShotResult) : Bytes :=
  shots.flatMap fun shot => [byteOf shot.cell, flag shot.isHit]

def pendingBytes : Option BattleshipShot → Bytes
  | some shot => [1, partyCode shot.byParty, byteOf shot.cell]
  | none => [0, 0, 0]

def encodeState (s : BattleshipState) : Except String Bytes := do
  let numbers ← u64s [s.balanceA, s.balanceB, s.stake]
  pure (protocolDomain "battleship.v2" ++
    [phaseCode s.phase, partyCode s.turn] ++ pendingBytes s.pendingShot ++
    [byteOf s.hitsOnA, byteOf s.hitsOnB, flag s.revealedA, flag s.revealedB,
      winnerCode s.winner] ++
    lengthPrefixedConcat [s.commitA.getD [], s.commitB.getD [], shotBytes s.shotsAtA,
      shotBytes s.shotsAtB] ++ numbers)

/-- The protocol for a default stake, which the constructor wants non-negative. -/
def protocol (hash : Hash) (defaultStake : Int) : Protocol BattleshipState BattleshipMove where
  name := "battleship.v2"
  initialState := initialState defaultStake
  applyMove := applyMove hash
  encodeState := encodeState
  balances s := ⟨s.balanceA, s.balanceB⟩
  isTerminal := isTerminal

/-- A finished game takes no more moves, a resignation included. -/
theorem frozen_of_terminal {hash : Hash} {defaultStake : Int} {s : BattleshipState}
    (h : (protocol hash defaultStake).isTerminal s = true) :
    (protocol hash defaultStake).Frozen s := by
  rintro move party ⟨next, hnext⟩
  have hover : s.phase = .over := of_decide_eq_true h
  simp only [protocol, applyMove, returned] at hnext
  exact hnext.1 (.inl hover)

end Battleship

end DopamintArena.Games
