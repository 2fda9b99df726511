import DopamintArena.Foundation.Merkle
import DopamintArena.Games.Battleship

/-!
The frontend's own `games/battleship/protocol/battleship.ts` with the board
commitment of `engine/merkle.ts`: each side commits to the Merkle root of its
board and opens single cells when they are shot, and who sank the other fleet
reveals the whole board. The fleet rules are those of `protocol/battleshipFleet.ts`.
-/

namespace DopamintArena.Games

open Foundation Engine

inductive MerkleBattleshipPhase
  | awaitingCommits
  | playing
  | awaitingBoardReveal
  | over
deriving DecidableEq

structure MerkleBattleshipState where
  phase : MerkleBattleshipPhase
  turn : Party
  pendingShot : Option BattleshipShot
  commitA : Option Bytes
  commitB : Option Bytes
  shotsAtA : List BattleshipShotResult
  shotsAtB : List BattleshipShotResult
  hitsOnA : Int
  hitsOnB : Int
  winner : BattleshipWinner
  balanceA : Int
  balanceB : Int
  total : Int
  stake : Int
deriving DecidableEq

inductive MerkleBattleshipMove
  | commit (root : Bytes)
  | shoot (cell : Int)
  | reveal (cell : Int) (isShip : Bool) (salt : Bytes) (proof : List Bytes)
  | revealBoard (cells : Bytes) (salts : List Bytes)
deriving DecidableEq

namespace MerkleBattleship

open Battleship (cellCount fleetCells isLegalBoard partyCode flag winnerCode shotBytes
  pendingBytes)

def saltBytes : Nat := 32
def treeLeaves : Nat := 128

section Merkle

variable (hash : Hash)

def digest (text : Bytes) : Bytes := (hash text).bytes

def leafHash (cell : Int) (isShip : Bool) (salt : Bytes) : Except String Bytes := do
  require (salt.length = saltBytes) s!"salt must be {saltBytes} bytes"
  pure (digest hash ([0x00, byteOf cell, flag isShip] ++ salt))

def nodeString (left right : Bytes) : Bytes := 0x01 :: (left ++ right)

/-- The root of a board. The layers below it are kept by the source to build proofs. -/
def commitBoard (board : Bytes) (salts : List Bytes) : Except String Bytes := do
  require (board.length = cellCount) s!"board must be {cellCount} cells"
  require (salts.length = cellCount) s!"need {cellCount} salts"
  let cells ← (List.range cellCount).mapM fun (cell : Nat) =>
    leafHash hash cell (board[cell]? == some 1) (salts.getD cell [])
  let leaves := cells ++ List.replicate (treeLeaves - cellCount) (digest hash [0x02])
  let layers := Merkle.layers (digest hash) nodeString treeLeaves leaves
  pure ((layers.getLastD []).headD [])

/-- The number of siblings is not checked. -/
def verifyCell (root : Bytes) (cell : Int) (isShip : Bool) (salt : Bytes) (proof : List Bytes) :
    Bool :=
  decide (0 ≤ cell ∧ cell < cellCount) &&
    match leafHash hash cell isShip salt with
    | .error _ => false
    | .ok leaf => decide (Merkle.climb (digest hash) nodeString leaf cell.toNat proof = root)

end Merkle

section

variable (s : MerkleBattleshipState)

def commitFor : Party → Option Bytes
  | .A => s.commitA
  | .B => s.commitB

def shotsAt : Party → List BattleshipShotResult
  | .A => s.shotsAtA
  | .B => s.shotsAtB

/-- The seat that owes its board after sinking the other fleet. -/
def pendingBoardReveal : Option Party :=
  if s.phase ≠ .awaitingBoardReveal then none
  else if s.hitsOnB = fleetCells then some .A
  else if s.hitsOnA = fleetCells then some .B
  else none

def shiftStake : BattleshipWinner → Int × Int
  | .undecided => (s.balanceA, s.balanceB)
  | .partyA =>
    let shift := if s.stake < s.balanceB then s.stake else s.balanceB
    (s.balanceA + shift, s.balanceB - shift)
  | .partyB =>
    let shift := if s.stake < s.balanceA then s.stake else s.balanceA
    (s.balanceA - shift, s.balanceB + shift)

def applyCommit (root : Bytes) (byParty : Party) : Except String MerkleBattleshipState := do
  require (s.phase = .awaitingCommits) "commits are closed"
  require (root.length = 32) "commitment must be 32 bytes"
  match s.commitA, s.commitB with
  | none, _ => require (byParty = .A) "A commits first"
  | some _, none => require (byParty = .B) "B commits second"
  | some _, some _ => .error "both fleets already committed"
  let next := match byParty with
    | .A => { s with commitA := some root }
    | .B => { s with commitB := some root }
  if next.commitA.isSome ∧ next.commitB.isSome then
    pure { next with phase := .playing, turn := .A }
  else pure next

def applyShoot (cell : Int) (byParty : Party) : Except String MerkleBattleshipState := do
  require (s.phase = .playing) "not in the firing phase"
  require (s.pendingShot.isNone = true) "awaiting the previous shot's reveal"
  require (byParty = s.turn) s!"not {byParty.text}'s turn"
  require (0 ≤ cell ∧ cell < cellCount) s!"cell out of range: {cell}"
  require ((shotsAt s (otherParty byParty)).all (fun shot => decide (shot.cell ≠ cell)) = true)
    s!"already fired at cell {cell}"
  pure { s with pendingShot := some ⟨byParty, cell⟩ }

/-- The defender's board after an opened cell. -/
def recordShot (defender : Party) (cell : Int) (isShip : Bool) : MerkleBattleshipState :=
  match defender with
  | .A =>
    { s with
      shotsAtA := s.shotsAtA ++ [⟨cell, isShip⟩]
      hitsOnA := if isShip then s.hitsOnA + 1 else s.hitsOnA, pendingShot := none }
  | .B =>
    { s with
      shotsAtB := s.shotsAtB ++ [⟨cell, isShip⟩]
      hitsOnB := if isShip then s.hitsOnB + 1 else s.hitsOnB, pendingShot := none }

/-- The defender fires next, unless its fleet is sunk. -/
def applyReveal (hash : Hash) (cell : Int) (isShip : Bool) (salt : Bytes) (proof : List Bytes)
    (byParty : Party) : Except String MerkleBattleshipState := do
  require (s.phase = .playing) "no shot to reveal"
  match s.pendingShot with
  | none => .error "no shot to reveal"
  | some pending => do
    require (byParty = otherParty pending.byParty) "only the defender reveals"
    require (cell = pending.cell) "reveal must answer the pending shot"
    require (salt.length = saltBytes) "bad salt length"
    match commitFor s byParty with
    | none => .error "defender has not committed"
    | some commit => do
      require (verifyCell hash commit cell isShip salt proof = true)
        "reveal proof does not match the committed board"
      let next := recordShot s byParty cell isShip
      if next.hitsOnB = fleetCells ∨ next.hitsOnA = fleetCells then
        pure { next with phase := .awaitingBoardReveal, turn := otherParty byParty }
      else pure { next with turn := byParty }

/-- An illegal fleet gives the stake to the other side. -/
def applyRevealBoard (hash : Hash) (cells : Bytes) (salts : List Bytes) (byParty : Party) :
    Except String MerkleBattleshipState := do
  match pendingBoardReveal s with
  | none => .error "no board reveal is due"
  | some winnerSeat => do
    require (byParty = winnerSeat) "only the prospective winner reveals its board"
    require (cells.length = cellCount) s!"board must be {cellCount} cells"
    require (salts.length = cellCount) s!"need {cellCount} salts"
    let root ← commitBoard hash cells salts
    match commitFor s byParty with
    | none => .error "Cannot read properties of null (reading 'length')"
    | some commit => do
      require (root = commit) "revealed board does not match the commitment"
      let winner : BattleshipWinner :=
        match if isLegalBoard cells then winnerSeat else otherParty winnerSeat with
        | .A => .partyA
        | .B => .partyB
      let (balanceA, balanceB) := shiftStake s winner
      pure { s with winner, balanceA, balanceB, phase := .over }

end

def applyMove (hash : Hash) (s : MerkleBattleshipState) (move : MerkleBattleshipMove)
    (byParty : Party) : Except String MerkleBattleshipState := do
  require (¬(s.phase = .over ∨ s.winner ≠ .undecided)) "game already over"
  match move with
  | .commit root => applyCommit s root byParty
  | .shoot cell => applyShoot s cell byParty
  | .reveal cell isShip salt proof => applyReveal s hash cell isShip salt proof byParty
  | .revealBoard cells salts => applyRevealBoard s hash cells salts byParty

def initialState (defaultStake : Int) (ctx : ProtocolContext) : MerkleBattleshipState where
  phase := .awaitingCommits
  turn := .A
  pendingShot := none
  commitA := none
  commitB := none
  shotsAtA := []
  shotsAtB := []
  hitsOnA := 0
  hitsOnB := 0
  winner := .undecided
  balanceA := ctx.initialBalances.a
  balanceB := ctx.initialBalances.b
  total := ctx.initialBalances.a + ctx.initialBalances.b
  stake :=
    let cap := if ctx.initialBalances.a < ctx.initialBalances.b then ctx.initialBalances.a
      else ctx.initialBalances.b
    if defaultStake < cap then defaultStake else cap

def phaseCode : MerkleBattleshipPhase → UInt8
  | .awaitingCommits => 0
  | .playing => 1
  | .over => 2
  | .awaitingBoardReveal => 3

def encodeState (s : MerkleBattleshipState) : Except String Bytes := do
  let numbers ← u64s [s.balanceA, s.balanceB, s.stake]
  pure (protocolDomain "battleship.v1" ++
    [phaseCode s.phase, partyCode s.turn] ++ pendingBytes s.pendingShot ++
    [byteOf s.hitsOnA, byteOf s.hitsOnB, winnerCode s.winner] ++
    lengthPrefixedConcat [s.commitA.getD [], s.commitB.getD [], shotBytes s.shotsAtA,
      shotBytes s.shotsAtB] ++ numbers)

/-- The protocol for a default stake, which the constructor wants non-negative. -/
def protocol (hash : Hash) (defaultStake : Int) :
    Protocol MerkleBattleshipState MerkleBattleshipMove where
  name := "battleship.v1"
  initialState := initialState defaultStake
  applyMove := applyMove hash
  encodeState := encodeState
  balances s := ⟨s.balanceA, s.balanceB⟩
  isTerminal s := decide (s.winner ≠ .undecided)

end MerkleBattleship

end DopamintArena.Games
