import DopamintArena.Games.Commitment

/-!
`protocol/ticTacToe.ts`: the staked game, version 2. Every move folds a salted
commitment to the mover, the move's index and the cell into an accumulator
that is part of the signed state.
-/

namespace DopamintArena.Games

open Foundation Engine

inductive TicTacToeWinner
  | undecided
  | partyA
  | partyB
  | draw
deriving DecidableEq

structure TicTacToeState where
  board : List Int
  turn : Party
  movesCount : Int
  winner : TicTacToeWinner
  balanceA : Int
  balanceB : Int
  total : Int
  stake : Int
  moveAccumulator : Bytes
deriving DecidableEq

structure TicTacToeMove where
  cell : Int
  salt : Bytes
deriving DecidableEq

namespace TicTacToe

def emptyCell : Int := 0

def markOf : Party → Int
  | .A => 1
  | .B => 2

def domain : Bytes := protocolDomain "tic_tac_toe.v2"

def lines : List (Nat × Nat × Nat) :=
  [(0, 1, 2), (3, 4, 5), (6, 7, 8), (0, 3, 6), (1, 4, 7), (2, 5, 8), (0, 4, 8), (2, 4, 6)]

def lineMark (board : List Int) (line : Nat × Nat × Nat) : Option Int :=
  let (x, y, z) := line
  (board[x]?).filter fun v =>
    decide (v ≠ emptyCell ∧ board[y]? = some v ∧ board[z]? = some v)

def checkWinner (board : List Int) (movesCount : Int) : TicTacToeWinner :=
  match lines.findSome? (lineMark board) with
  | some v => if v = markOf .A then .partyA else .partyB
  | none => if movesCount = 9 then .draw else .undecided

section Rules

variable (hash : Hash)

def initialAccumulator : Bytes := (hash (domainCommitReveal ++ lengthPrefixedConcat [domain])).bytes

def advanceAccumulator (prevAcc commitment : Bytes) : Bytes :=
  (hash (domainCommitReveal ++ lengthPrefixedConcat [prevAcc, commitment])).bytes

def initialState (defaultStake : Int) (ctx : ProtocolContext) : TicTacToeState where
  board := List.replicate 9 emptyCell
  turn := .A
  movesCount := 0
  winner := .undecided
  balanceA := ctx.initialBalances.a
  balanceB := ctx.initialBalances.b
  total := ctx.initialBalances.a + ctx.initialBalances.b
  stake :=
    let cap := if ctx.initialBalances.a < ctx.initialBalances.b then ctx.initialBalances.a
      else ctx.initialBalances.b
    if defaultStake < cap then defaultStake else cap
  moveAccumulator := initialAccumulator hash

/-- The stake moves from the loser to the winner, as far as the loser has it. -/
def shares (s : TicTacToeState) : TicTacToeWinner → Int × Int
  | .partyA =>
    let shift := if s.stake < s.balanceB then s.stake else s.balanceB
    (s.balanceA + shift, s.balanceB - shift)
  | .partyB =>
    let shift := if s.stake < s.balanceA then s.stake else s.balanceA
    (s.balanceA - shift, s.balanceB + shift)
  | .undecided | .draw => (s.balanceA, s.balanceB)

def applyMove (s : TicTacToeState) (move : TicTacToeMove) (byParty : Party) :
    Except String TicTacToeState := do
  require (s.winner = .undecided) "game already over"
  require (byParty = s.turn) s!"not {byParty.text}'s turn"
  require (0 ≤ move.cell ∧ move.cell ≤ 8) s!"cell out of range: {move.cell}"
  require (s.board[move.cell.toNat]? = some emptyCell) s!"cell {move.cell} occupied"
  require (minSaltLen ≤ move.salt.length) s!"salt must be >= {minSaltLen} bytes"
  let board := s.board.set move.cell.toNat (markOf byParty)
  let movesCount := s.movesCount + 1
  let winner := checkWinner board movesCount
  let (balanceA, balanceB) := shares s winner
  let place ← u64s [movesCount, move.cell]
  let commitment ← computeCommitment hash (byteOf (markOf byParty) :: place) move.salt
  pure
    { s with
      board, turn := otherParty byParty, movesCount, winner, balanceA, balanceB
      moveAccumulator := advanceAccumulator hash s.moveAccumulator commitment }

end Rules

def winnerCode : TicTacToeWinner → UInt8
  | .undecided => 0
  | .partyA => 1
  | .partyB => 2
  | .draw => 3

def encodeState (s : TicTacToeState) : Except String Bytes := do
  let numbers ← u64s [s.balanceA, s.balanceB, s.stake]
  let turn : UInt8 := match s.turn with
    | .A => 0
    | .B => 1
  pure (domain ++ s.board.map byteOf ++ [byteOf s.movesCount, winnerCode s.winner, turn] ++
    numbers ++ s.moveAccumulator)

/-- The protocol for a default stake, which the constructor wants non-negative. -/
def protocol (hash : Hash) (defaultStake : Int) : Protocol TicTacToeState TicTacToeMove where
  name := "tic_tac_toe.v2"
  initialState := initialState hash defaultStake
  applyMove := applyMove hash
  encodeState := encodeState
  balances s := ⟨s.balanceA, s.balanceB⟩
  isTerminal s := decide (s.winner ≠ .undecided)

theorem turn_of_legal {hash : Hash} {defaultStake : Int} {s : TicTacToeState}
    {move : TicTacToeMove} {party : Party}
    (h : (protocol hash defaultStake).Legal s move party) : party = s.turn := by
  obtain ⟨_, hnext⟩ := h
  simp only [protocol, applyMove, returned] at hnext
  exact hnext.2.1

theorem turnBased (hash : Hash) (defaultStake : Int) :
    (protocol hash defaultStake).TurnBased := by
  intro s move move' hA hB
  have hboth := (turn_of_legal hA).trans (turn_of_legal hB).symm
  cases hboth

end TicTacToe

end DopamintArena.Games
