import DopamintArena.Games.Series
import DopamintArena.Rust.Harness

/-!
`protocols/tic-tac-toe/src/lib.rs` and `protocols/caro/src/lib.rs`, with the
commitments of `tunnel-core/src/commitment.rs`: the games of `Games/Series.lean`
in Rust. A board size and a number of stones are naturals (`usize`), a cell of
caro is an `i64` by the range its decoder checks. The next game of a series is
the inner game's initial state.
-/

namespace DopamintArena.Rust

open Foundation
open DopamintArena.Games (Hash)

section Commitment

variable (hash : Hash)

def domainCommitReveal : Bytes := bytesOf "sui_tunnel::randomness::commit_reveal"

def minSaltLen : Nat := 16

def computeCommitment (value salt : Bytes) : Except String Bytes32 := do
  require (minSaltLen ≤ salt.length) s!"salt must be >= {minSaltLen} bytes, got {salt.length}"
  pure (hash (domainCommitReveal ++ lengthPrefixed value ++ lengthPrefixed salt))

/-- The accumulator before the first move of a game with this domain. -/
def initialAccumulator (domain : Bytes) : Bytes32 :=
  hash (domainCommitReveal ++ lengthPrefixed domain)

def advanceAccumulator (prevAcc commitment : Bytes32) : Bytes32 :=
  hash (domainCommitReveal ++ lengthPrefixed prevAcc.bytes ++ lengthPrefixed commitment.bytes)

def moverByte : Seat → UInt8
  | .A => 1
  | .B => 2

/-- What a move commits to. -/
def moveValue (bySeat : Seat) (movesCount cell : UInt64) : Bytes :=
  moverByte bySeat :: (u64ToBeBytes movesCount ++ u64ToBeBytes cell)

end Commitment

def turnByte : Seat → UInt8
  | .A => 0
  | .B => 1

structure TicTacToeState where
  board : Bytes
  turn : Seat
  movesCount : UInt8
  winner : Games.TicTacToeWinner
  balanceA : UInt64
  balanceB : UInt64
  total : UInt64
  stake : UInt64
  moveAccumulator : Bytes32
deriving DecidableEq

structure TicTacToeMove where
  cell : UInt8
  salt : Bytes
deriving DecidableEq

namespace TicTacToe

def domain : Bytes := bytesOf "sui_tunnel::proto::tic_tac_toe.v2"

def markFor : Seat → UInt8
  | .A => 1
  | .B => 2

def lineMark (board : Bytes) (line : Nat × Nat × Nat) : Option UInt8 :=
  let (x, y, z) := line
  (board[x]?).filter fun v => decide (v ≠ 0 ∧ board[y]? = some v ∧ board[z]? = some v)

def checkWinner (board : Bytes) (movesCount : UInt8) : Games.TicTacToeWinner :=
  match Games.TicTacToe.lines.findSome? (lineMark board) with
  | some v => if v = markFor .A then .partyA else .partyB
  | none => if movesCount = 9 then .draw else .undecided

def initialState (hash : Hash) (defaultStake : UInt64) (ctx : TunnelContext) :
    TicTacToeState where
  board := List.replicate 9 0
  turn := .A
  movesCount := 0
  winner := .undecided
  balanceA := ctx.initial.a
  balanceB := ctx.initial.b
  total := ctx.initial.sum
  stake := min defaultStake (min ctx.initial.a ctx.initial.b)
  moveAccumulator := initialAccumulator hash domain

def shares (s : TicTacToeState) : Games.TicTacToeWinner → UInt64 × UInt64
  | .partyA =>
    let shift := min s.stake s.balanceB
    (s.balanceA + shift, s.balanceB - shift)
  | .partyB =>
    let shift := min s.stake s.balanceA
    (s.balanceA - shift, s.balanceB + shift)
  | .undecided | .draw => (s.balanceA, s.balanceB)

def applyMove (hash : Hash) (s : TicTacToeState) (mv : TicTacToeMove) (bySeat : Seat) :
    Except String TicTacToeState := do
  require (s.winner = .undecided) "game already over"
  require (bySeat = s.turn) "not this seat's turn"
  require (mv.cell ≤ 8) s!"cell out of range: {mv.cell.toNat}"
  require (s.board[mv.cell.toNat]? = some 0) s!"cell {mv.cell.toNat} occupied"
  let board := s.board.set mv.cell.toNat (markFor bySeat)
  let movesCount := s.movesCount + 1
  let winner := checkWinner board movesCount
  let (balanceA, balanceB) := shares s winner
  let commitment ← computeCommitment hash
    (moveValue bySeat movesCount.toUInt64 mv.cell.toUInt64) mv.salt
  pure
    { s with
      board, turn := bySeat.other, movesCount, winner, balanceA, balanceB
      moveAccumulator := advanceAccumulator hash s.moveAccumulator commitment }

def winnerCode : Games.TicTacToeWinner → UInt8
  | .undecided => 0
  | .partyA => 1
  | .partyB => 2
  | .draw => 3

def encodeState (s : TicTacToeState) : Bytes :=
  domain ++ s.board ++ [s.movesCount, winnerCode s.winner, turnByte s.turn] ++
    u64ToBeBytes s.balanceA ++ u64ToBeBytes s.balanceB ++ u64ToBeBytes s.stake ++
    s.moveAccumulator.bytes

def protocol (hash : Hash) (defaultStake : UInt64) :
    Protocol TicTacToeState TicTacToeMove where
  name := "tic_tac_toe.v2"
  initialState := initialState hash defaultStake
  applyMove := applyMove hash
  encodeState := encodeState
  balances s := ⟨s.balanceA, s.balanceB⟩
  isTerminal s := decide (s.winner ≠ .undecided)

/-- A cell that is not a `u8` does not parse. -/
def decodeMove (move : Games.TicTacToeMove) : Except String TicTacToeMove := do
  require (0 ≤ move.cell ∧ move.cell < 256) "invalid value: expected u8"
  pure ⟨UInt8.ofNat move.cell.toNat, move.salt⟩

end TicTacToe

structure CaroState where
  board : Bytes
  size : Nat
  turn : Seat
  winner : UInt8
  lastMove : Int
  movesCount : Nat
  balanceA : UInt64
  balanceB : UInt64
  stake : UInt64
  moveAccumulator : Bytes32
deriving DecidableEq

structure CaroMove where
  cell : Int
  salt : Bytes
deriving DecidableEq

namespace Caro

def domain : Bytes := bytesOf "sui_tunnel::proto::caro.v2"

def markFor : Seat → UInt8
  | .A => 1
  | .B => 2

def asI32 (n : Nat) : Int := (n : Int).bmod (2 ^ 32)

def inBounds (size : Nat) (row col : Int) : Bool :=
  decide (0 ≤ row ∧ row < asI32 size ∧ 0 ≤ col ∧ col < asI32 size)

def stoneAt (board : Bytes) (size : Nat) (row col : Int) : Option UInt8 :=
  if inBounds size row col then board[row.toNat * size + col.toNat]? else none

def winnerAround (board : Bytes) (size idx : Nat) : UInt8 :=
  if size * size ≤ idx then 0
  else
    let mark := board.getD idx 0
    if mark = 0 then 0
    else if Games.Caro.dirs.any (Games.Caro.winsAlong (stoneAt board size) 0 mark size
        (asI32 (idx / size)) (asI32 (idx % size))) then mark
    else 0

def initialState (hash : Hash) (size : Nat) (defaultStake : UInt64) (ctx : TunnelContext) :
    CaroState where
  board := List.replicate (size * size) 0
  size := size
  turn := .A
  winner := 0
  lastMove := -1
  movesCount := 0
  balanceA := ctx.initial.a
  balanceB := ctx.initial.b
  stake := min defaultStake (min ctx.initial.a ctx.initial.b)
  moveAccumulator := initialAccumulator hash domain

def resultOf (board : Bytes) (size movesCount cell : Nat) : UInt8 :=
  let winner := winnerAround board size cell
  if winner = 0 ∧ movesCount = size * size then 3 else winner

def shares (s : CaroState) (winner : UInt8) : UInt64 × UInt64 :=
  if winner = 1 then
    let shift := min s.stake s.balanceB
    (s.balanceA + shift, s.balanceB - shift)
  else if winner = 2 then
    let shift := min s.stake s.balanceA
    (s.balanceA - shift, s.balanceB + shift)
  else (s.balanceA, s.balanceB)

def applyMove (hash : Hash) (s : CaroState) (mv : CaroMove) (bySeat : Seat) :
    Except String CaroState := do
  require (s.winner = 0) "caro: game already over"
  require (bySeat = s.turn) "caro: not this party's turn"
  require (¬(mv.cell < 0 ∨ ((s.size * s.size : Nat) : Int) ≤ mv.cell)) "caro: cell out of range"
  require (s.board[mv.cell.toNat]? = some 0) "caro: cell occupied"
  let board := s.board.set mv.cell.toNat (markFor bySeat)
  let movesCount := s.movesCount + 1
  let winner := resultOf board s.size movesCount mv.cell.toNat
  let (balanceA, balanceB) := shares s winner
  let commitment ← computeCommitment hash
    (moveValue bySeat (UInt64.ofNat movesCount) (UInt64.ofNat mv.cell.toNat)) mv.salt
  pure
    { s with
      board, turn := bySeat.other, winner, lastMove := mv.cell, movesCount, balanceA, balanceB
      moveAccumulator := advanceAccumulator hash s.moveAccumulator commitment }

def encodeState (s : CaroState) : Bytes :=
  domain ++ lengthPrefixed (u64ToBeBytes (UInt64.ofNat s.size)) ++ lengthPrefixed s.board ++
    lengthPrefixed [turnByte s.turn, s.winner] ++ lengthPrefixed (u64ToBeBytes s.balanceA) ++
    lengthPrefixed (u64ToBeBytes s.balanceB) ++ lengthPrefixed (u64ToBeBytes s.stake) ++
    s.moveAccumulator.bytes

def protocol (hash : Hash) (size : Nat) (defaultStake : UInt64) : Protocol CaroState CaroMove where
  name := "caro.v2"
  initialState := initialState hash size defaultStake
  applyMove := applyMove hash
  encodeState := encodeState
  balances s := ⟨s.balanceA, s.balanceB⟩
  isTerminal s := decide (s.winner ≠ 0)

/-- A cell that is not an `i64` does not parse. -/
def decodeMove (move : Games.CaroMove) : Except String CaroMove := do
  require (-2 ^ 63 ≤ move.cell ∧ move.cell < 2 ^ 63) "invalid value: expected i64"
  pure ⟨move.cell, move.salt⟩

end Caro

structure SeriesState (Inner : Type) where
  inner : Inner
  gamesPlayed : UInt64
  maxGames : UInt64
deriving DecidableEq

namespace Series

variable {Inner Move : Type}

structure Rules (Inner Move : Type) where
  name : String
  inner : Protocol Inner Move
  stake : Inner → UInt64
  sessionOver : String
  maxGames : UInt64

variable (rules : Rules Inner Move)

def initialState (ctx : TunnelContext) : SeriesState Inner where
  inner := rules.inner.initialState ctx
  gamesPlayed := 0
  maxGames := rules.maxGames

def canFundNextGame (inner : Inner) : Bool :=
  decide (rules.stake inner = 0 ∨
    rules.stake inner ≤ (rules.inner.balances inner).a ∧
      rules.stake inner ≤ (rules.inner.balances inner).b)

section

variable (state : SeriesState Inner)

def isTerminal : Bool :=
  rules.inner.isTerminal state.inner &&
    (decide (state.maxGames ≤ state.gamesPlayed + 1) || !canFundNextGame rules state.inner)

def nextGame (bySeat : Seat) : SeriesState Inner where
  inner := rules.inner.initialState ⟨"", rules.inner.balances state.inner, bySeat⟩
  gamesPlayed := state.gamesPlayed + 1
  maxGames := state.maxGames

def applyMove (mv : Move) (bySeat : Seat) :
    Except String (SeriesState Inner) :=
  if rules.inner.isTerminal state.inner = false then do
    let inner ← rules.inner.applyMove state.inner mv bySeat
    pure { state with inner }
  else do
    require (isTerminal rules state = false) rules.sessionOver
    pure (nextGame rules state bySeat)

def encodeState : Bytes :=
  bytesOf ("sui_tunnel::proto::" ++ rules.name) ++
    lengthPrefixed (rules.inner.encodeState state.inner) ++
    lengthPrefixed (u64ToBeBytes state.gamesPlayed)

end

def protocol : Protocol (SeriesState Inner) Move where
  name := rules.name
  initialState := initialState rules
  applyMove := applyMove rules
  encodeState := encodeState rules
  balances state := rules.inner.balances state.inner
  isTerminal := isTerminal rules

variable {rules} {state next : SeriesState Inner} {mv : Move} {bySeat : Seat}

theorem applyMove_ok_iff : applyMove rules state mv bySeat = .ok next ↔
    rules.inner.isTerminal state.inner = false ∧
        (∃ inner, rules.inner.applyMove state.inner mv bySeat = .ok inner ∧
          next = { state with inner }) ∨
      rules.inner.isTerminal state.inner = true ∧ isTerminal rules state = false ∧
        next = nextGame rules state bySeat := by
  unfold applyMove
  cases hinner : rules.inner.isTerminal state.inner with
  | false => simp only [if_pos, returned, Bool.false_eq_true, false_and, or_false, true_and]
  | true => simp only [Bool.true_eq_false, if_false, returned, false_and, false_or, true_and]

end Series

namespace TicTacToeSeries

def rules (hash : Hash) (maxGames stake : UInt64) : Series.Rules TicTacToeState TicTacToeMove where
  name := "tic_tac_toe.series.v2"
  inner := TicTacToe.protocol hash stake
  stake s := s.stake
  sessionOver := "session over: no more games can be played"
  maxGames := maxGames

end TicTacToeSeries

namespace CaroSeries

def rules (hash : Hash) (maxGames : UInt64) (size : Nat) (stake : UInt64) :
    Series.Rules CaroState CaroMove where
  name := "caro.series.v2"
  inner := Caro.protocol hash size stake
  stake s := s.stake
  sessionOver := "caro session over: no more games can be played"
  maxGames := maxGames

end CaroSeries

end DopamintArena.Rust
