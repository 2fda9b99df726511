import DopamintArena.Games.Commitment

/-!
`caro/board.ts` and `caro/protocol.ts` of the tic-tac-toe app: five in a row on a
square board of any size. The run must be exactly five, and an opponent's stone on
both of its ends takes the win away. A move folds a salted commitment into an
accumulator, as in tic-tac-toe.
-/

namespace DopamintArena.Games

open Foundation Engine

structure CaroState where
  board : List Int
  size : Int
  turn : Party
  winner : Int
  lastMove : Int
  movesCount : Int
  balanceA : Int
  balanceB : Int
  total : Int
  stake : Int
  moveAccumulator : Bytes
deriving DecidableEq

structure CaroMove where
  cell : Int
  salt : Bytes
deriving DecidableEq

namespace Caro

def dirs : List (Int × Int) := [(0, 1), (1, 0), (1, 1), (1, -1)]

section Runs

variable {α : Type} [DecidableEq α] (stoneAt : Int → Int → Option α) (empty mark : α)

/-- The loop along a direction: the stones of the mark that follow each other, and the
cell past the last of them. -/
def walk (dr dc : Int) : Nat → Int → Int → Nat × Int × Int
  | 0, r, c => (0, r, c)
  | steps + 1, r, c =>
    if stoneAt r c = some mark then
      let (count, past) := walk dr dc steps (r + dr) (c + dc)
      (count + 1, past)
    else (0, r, c)

/-- An opponent's stone; the edge of the board does not block. -/
def blocked (cell : Int × Int) : Bool :=
  (stoneAt cell.1 cell.2).any fun stone => decide (stone ≠ empty)

/-- Exactly five stones in a row through a cell, with at most one end blocked. -/
def winsAlong (size : Nat) (r0 c0 : Int) (dir : Int × Int) : Bool :=
  let forward := walk stoneAt mark dir.1 dir.2 size (r0 + dir.1) (c0 + dir.2)
  let backward := walk stoneAt mark (-dir.1) (-dir.2) size (r0 - dir.1) (c0 - dir.2)
  decide (1 + forward.1 + backward.1 = 5) &&
    !(blocked stoneAt empty forward.2 && blocked stoneAt empty backward.2)

end Runs

def inBounds (size r c : Int) : Bool := decide (0 ≤ r ∧ r < size ∧ 0 ≤ c ∧ c < size)

def stoneAt (board : List Int) (size r c : Int) : Option Int :=
  if inBounds size r c then board[(r * size + c).toNat]? else none

def applyMark (board : List Int) (idx mark : Int) : List Int := board.set idx.toNat mark

def winnerAround (board : List Int) (size idx : Int) : Int :=
  if idx < 0 ∨ size * size ≤ idx then 0
  else
    let mark := board.getD idx.toNat 0
    if mark = 0 then 0
    else if dirs.any
        (winsAlong (stoneAt board size) 0 mark size.toNat (idx / size) (idx % size)) then mark
    else 0

def markOf : Party → Int
  | .A => 1
  | .B => 2

def domain : Bytes := protocolDomain "caro.v2"

section Rules

variable (hash : Hash)

def initialAccumulator : Bytes := (hash (domainCommitReveal ++ lengthPrefixedConcat [domain])).bytes

def advanceAccumulator (prevAcc commitment : Bytes) : Bytes :=
  (hash (domainCommitReveal ++ lengthPrefixedConcat [prevAcc, commitment])).bytes

def initialState (size defaultStake : Int) (ctx : ProtocolContext) : CaroState where
  board := List.replicate (size * size).toNat 0
  size := size
  turn := .A
  winner := 0
  lastMove := -1
  movesCount := 0
  balanceA := ctx.initialBalances.a
  balanceB := ctx.initialBalances.b
  total := ctx.initialBalances.a + ctx.initialBalances.b
  stake :=
    let cap := if ctx.initialBalances.a < ctx.initialBalances.b then ctx.initialBalances.a
      else ctx.initialBalances.b
    if defaultStake < cap then defaultStake else cap
  moveAccumulator := initialAccumulator hash

/-- Nobody has won yet and the last cell is taken: a draw. -/
def resultOf (board : List Int) (size movesCount cell : Int) : Int :=
  let winner := winnerAround board size cell
  if winner = 0 ∧ movesCount = size * size then 3 else winner

/-- The loser pays the stake, as far as it has it. -/
def shares (s : CaroState) (winner : Int) : Int × Int :=
  if winner = 1 then
    let shift := if s.stake < s.balanceB then s.stake else s.balanceB
    (s.balanceA + shift, s.balanceB - shift)
  else if winner = 2 then
    let shift := if s.stake < s.balanceA then s.stake else s.balanceA
    (s.balanceA - shift, s.balanceB + shift)
  else (s.balanceA, s.balanceB)

def applyMove (s : CaroState) (move : CaroMove) (byParty : Party) : Except String CaroState := do
  require (s.winner = 0) "caro: game already over"
  require (byParty = s.turn) "caro: not this party's turn"
  require (0 ≤ move.cell ∧ move.cell < s.size * s.size) "caro: cell out of range"
  require (s.board[move.cell.toNat]? = some 0) "caro: cell occupied"
  require (minSaltLen ≤ move.salt.length) s!"caro: salt must be >= {minSaltLen} bytes"
  let board := applyMark s.board move.cell (markOf byParty)
  let movesCount := s.movesCount + 1
  let winner := resultOf board s.size movesCount move.cell
  let (balanceA, balanceB) := shares s winner
  let place ← u64s [movesCount, move.cell]
  let commitment ← computeCommitment hash (byteOf (markOf byParty) :: place) move.salt
  pure
    { s with
      board, movesCount, winner, balanceA, balanceB
      lastMove := move.cell, turn := otherParty byParty
      moveAccumulator := advanceAccumulator hash s.moveAccumulator commitment }

end Rules

/-- The number of stones is not encoded: the source derives it from the board. -/
def encodeState (s : CaroState) : Except String Bytes := do
  let size ← u64ToBeBytes s.size
  let balanceA ← u64ToBeBytes s.balanceA
  let balanceB ← u64ToBeBytes s.balanceB
  let stake ← u64ToBeBytes s.stake
  let turn : UInt8 := match s.turn with
    | .A => 0
    | .B => 1
  pure (domain ++
    lengthPrefixedConcat [size, s.board.map byteOf, [turn, byteOf s.winner], balanceA, balanceB,
      stake] ++ s.moveAccumulator)

/-- The protocol for a board size, which the constructor wants to be at least 3, and a
default stake, which it wants non-negative. -/
def protocol (hash : Hash) (size defaultStake : Int) : Protocol CaroState CaroMove where
  name := "caro.v2"
  initialState := initialState hash size defaultStake
  applyMove := applyMove hash
  encodeState := encodeState
  balances s := ⟨s.balanceA, s.balanceB⟩
  isTerminal s := decide (s.winner ≠ 0)

section Runs

variable {α : Type} [DecidableEq α] {stones : Int → Int → Option α} {mark : α}

section Renaming

variable {β : Type} [DecidableEq β] {stones' : Int → Int → Option β} {f : α → β}

theorem walk_map (hf : Function.Injective f) (hstones : ∀ r c, stones' r c = (stones r c).map f)
    (mark : α) (dr dc : Int) (steps : Nat) (r c : Int) :
    walk stones' (f mark) dr dc steps r c = walk stones mark dr dc steps r c := by
  induction steps generalizing r c with
  | zero => rfl
  | succ _ ih =>
    have hmark : stones' r c = some (f mark) ↔ stones r c = some mark := by
      rw [hstones, Option.map_eq_some_iff]
      constructor
      · rintro ⟨_, hstone, hsame⟩
        rw [hstone, hf hsame]
      · intro hstone
        exact ⟨mark, hstone, rfl⟩
    simp [walk, hmark, ih]

theorem winsAlong_map (hf : Function.Injective f)
    (hstones : ∀ r c, stones' r c = (stones r c).map f) (empty mark : α) (size : Nat)
    (r0 c0 : Int) (dir : Int × Int) :
    winsAlong stones' (f empty) (f mark) size r0 c0 dir =
      winsAlong stones empty mark size r0 c0 dir := by
  have hblocked : ∀ cell, blocked stones' (f empty) cell = blocked stones empty cell := by
    intro cell
    rw [blocked, blocked, hstones]
    cases stones cell.1 cell.2 with
    | none => rfl
    | some => simp [hf.eq_iff]
  simp [winsAlong, walk_map hf hstones, hblocked]

end Renaming

end Runs

theorem turn_of_legal {hash : Hash} {size defaultStake : Int} {s : CaroState} {move : CaroMove}
    {party : Party} (h : (protocol hash size defaultStake).Legal s move party) :
    party = s.turn := by
  obtain ⟨_, hnext⟩ := h
  simp only [protocol, applyMove, returned] at hnext
  exact hnext.2.1

end Caro

end DopamintArena.Games
