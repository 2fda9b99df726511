import DopamintArena.Games.Commitment
import DopamintArena.Games.Random

/-!
`protocol/bombIt.ts`: a bomber duel on a 21 × 21 grid. One accepted move is one
tick: the acting seat moves or drops a bomb, fuses burn, blasts spread through
bombs they reach, and a seat standing in a blast is out.
-/

namespace DopamintArena.Games

open Foundation Engine

inductive BombItAction
  | north
  | south
  | east
  | west
  | bomb
  | stay
deriving DecidableEq

structure BombItPlayer where
  row : Int
  col : Int
  alive : Bool
deriving DecidableEq

structure BombItBomb where
  row : Int
  col : Int
  fuse : Int
  owner : Party
deriving DecidableEq

inductive BombItWinner
  | seat (party : Party)
  | draw
deriving DecidableEq

structure BombItState where
  tick : Int
  seed : Int
  grid : Bytes
  playerA : BombItPlayer
  playerB : BombItPlayer
  bombs : List BombItBomb
  winner : Option BombItWinner
  balanceA : Int
  balanceB : Int
  total : Int
deriving DecidableEq

/-- The acting seat fills in its own action; a missing one means `stay`. -/
structure BombItMove where
  a : Option BombItAction
  b : Option BombItAction
deriving DecidableEq

namespace BombIt

def gridW : Int := 21
def gridH : Int := 21
def cellCount : Nat := 441

def cellFloor : UInt8 := 0
def cellWall : UInt8 := 1
def cellCrate : UInt8 := 2

def fuseTicks : Int := 8
def blastRadius : Nat := 2
def maxBombsPerPlayer : Nat := 1
def tickCap : Int := 5400

def idx (row col : Int) : Int := row * gridW + col

def isBorder (row col : Int) : Bool :=
  decide (row = 0 ∨ row = gridH - 1 ∨ col = 0 ∨ col = gridW - 1)

def isPillar (row col : Int) : Bool := decide (row.tmod 2 = 0 ∧ col.tmod 2 = 0)

def inSpawnSafe (row col : Int) : Bool :=
  let br := gridH - 2
  let bc := gridW - 2
  decide ((row = 1 ∧ col = 1) ∨ (row = 1 ∧ col = 2) ∨ (row = 2 ∧ col = 1) ∨
    (row = br ∧ col = bc) ∨ (row = br ∧ col = bc - 1) ∨ (row = br - 1 ∧ col = bc))

def onBoard (row col : Int) : Bool :=
  decide (0 ≤ row ∧ row < gridH ∧ 0 ≤ col ∧ col < gridW)

def cellAt (grid : Bytes) (i : Int) : Option UInt8 :=
  if 0 ≤ i then grid[i.toNat]? else none

def walls : Bytes :=
  (List.range cellCount).map fun i =>
    let row : Int := i / 21
    let col : Int := i % 21
    if isBorder row col || isPillar row col then cellWall else cellFloor

/-- Whether a crate is rolled for the cell: floor, in the canonical half, away from the
two spawns. -/
def rolled (grid : Bytes) (i : Nat) : Bool :=
  let row : Int := i / 21
  let col : Int := i % 21
  decide (i < cellCount - 1 - i) && decide (grid[i]? = some cellFloor) &&
    !(inSpawnSafe row col || inSpawnSafe (gridH - 1 - row) (gridW - 1 - col))

/-- One step of the crate loop. A draw is below 0.35 exactly if its numerator over `2^32`
is below 0.35 of it. -/
def rollCrate (acc : UInt32 × Bytes) (i : Nat) : UInt32 × Bytes :=
  let (rng, grid) := acc
  if rolled grid i then
    let (rng, draw) := mulberry32 rng
    if draw.toNat * 100 < 35 * 2 ^ 32 then
      (rng, (grid.set i cellCrate).set (cellCount - 1 - i) cellCrate)
    else (rng, grid)
  else acc

def buildGrid (seed : Int) : Bytes :=
  ((List.range cellCount).foldl rollCrate (UInt32.ofNat (seed % 2 ^ 32).toNat, walls)).2

def dest (row col : Int) : BombItAction → Int × Int
  | .north => (row - 1, col)
  | .south => (row + 1, col)
  | .east => (row, col + 1)
  | .west => (row, col - 1)
  | .bomb | .stay => (row, col)

def canMoveTo (grid : Bytes) (bombs : List BombItBomb) (other : BombItPlayer)
    (nr nc : Int) : Bool :=
  if !onBoard nr nc then false
  else
    let cell := cellAt grid (idx nr nc)
    if cell = some cellWall ∨ cell = some cellCrate then false
    else if bombs.any (fun b => decide (b.row = nr ∧ b.col = nc)) then false
    else !(other.alive && decide (other.row = nr ∧ other.col = nc))

/-- The cells of one arm of a blast, from `step` steps away for `reach` more steps. A wall
stops it, a crate is its last cell. -/
def blastArm (grid : Bytes) (row col dr dc : Int) : (reach step : Nat) → List Int
  | 0, _ => []
  | reach + 1, step =>
    let r := row + dr * step
    let c := col + dc * step
    if !onBoard r c then []
    else
      let cell := cellAt grid (idx r c)
      if cell = some cellWall then []
      else if cell = some cellCrate then [idx r c]
      else idx r c :: blastArm grid row col dr dc reach (step + 1)

def blastCellsFor (grid : Bytes) (bomb : BombItBomb) : List Int :=
  let arm := fun dr dc => blastArm grid bomb.row bomb.col dr dc blastRadius 1
  idx bomb.row bomb.col :: (arm (-1) 0 ++ arm 1 0 ++ arm 0 1 ++ arm 0 (-1))

def blastUnion (grid : Bytes) (bombs : List BombItBomb) (detonating : List Nat) : List Int :=
  (detonating.filterMap fun i => bombs[i]?).flatMap (blastCellsFor grid)

/-- The chain reaction. Every round but the last adds a bomb, so as many rounds as there
are bombs are enough. -/
def chain (grid : Bytes) (bombs : List BombItBomb) : Nat → List Nat → List Nat
  | 0, detonating => detonating
  | rounds + 1, detonating =>
    let cells := blastUnion grid bombs detonating
    let reached := (List.range bombs.length).filter fun i =>
      !detonating.contains i &&
        (bombs[i]?).any fun b => cells.contains (idx b.row b.col)
    if reached = [] then detonating else chain grid bombs rounds (detonating ++ reached)

def clearCrates (grid : Bytes) (cells : List Int) : Bytes :=
  grid.mapIdx fun i cell =>
    if cells.contains (i : Int) && decide (cell = cellCrate) then cellFloor else cell

/-- The burning cells, the bombs that are left and the grid without the crates hit. -/
def resolveExplosions (grid : Bytes) (bombs : List BombItBomb) :
    List Int × List BombItBomb × Bytes :=
  let due := (List.range bombs.length).filter fun i =>
    (bombs[i]?).any fun b => decide (b.fuse ≤ 0)
  let detonating := chain grid bombs bombs.length due
  let cells := blastUnion grid bombs detonating
  let remaining := (List.range bombs.length).filterMap fun i =>
    if detonating.contains i then none else bombs[i]?
  (cells, remaining, clearCrates grid cells)

/-- One seat's action: a step if the cell can be entered, or a bomb if it has none out. -/
def applyAction (grid : Bytes) (self other : BombItPlayer) (bombs : List BombItBomb)
    (owner : Party) (action : BombItAction) : BombItPlayer × List BombItBomb :=
  if self.alive = false ∨ action = .stay then (self, bombs)
  else if action = .bomb then
    let live := (bombs.filter fun b => decide (b.owner = owner)).length
    let here := bombs.any fun b => decide (b.row = self.row ∧ b.col = self.col)
    if live < maxBombsPerPlayer ∧ here = false then
      (self, bombs ++ [⟨self.row, self.col, fuseTicks, owner⟩])
    else (self, bombs)
  else
    let (nr, nc) := dest self.row self.col action
    if canMoveTo grid bombs other nr nc then ({ self with row := nr, col := nc }, bombs)
    else (self, bombs)

/-- A living player in a burning cell dies. -/
def burn (cells : List Int) (p : BombItPlayer) : BombItPlayer :=
  if p.alive && cells.contains (idx p.row p.col) then { p with alive := false } else p

def winnerOf (aAlive bAlive : Bool) (tick : Int) : Option BombItWinner :=
  if !aAlive && !bAlive then some .draw
  else if !bAlive then some (.seat .A)
  else if !aAlive then some (.seat .B)
  else if tickCap ≤ tick then some .draw
  else none

def isTerminal (s : BombItState) : Bool := s.winner.isSome

def applyMove (s : BombItState) (move : BombItMove) (byParty : Party) :
    Except String BombItState := do
  require (isTerminal s = false) "game over: bomb-it is already decided"
  require (¬(byParty = .A ∧ move.b.isSome = true)) "A cannot submit B's action"
  require (¬(byParty = .B ∧ move.a.isSome = true)) "B cannot submit A's action"
  let (a, bombs) := applyAction s.grid s.playerA s.playerB s.bombs .A (move.a.getD .stay)
  let (b, bombs) := applyAction s.grid s.playerB a bombs .B (move.b.getD .stay)
  let bombs := bombs.map fun bomb => { bomb with fuse := bomb.fuse - 1 }
  let (cells, remaining, grid) := resolveExplosions s.grid bombs
  let playerA := burn cells a
  let playerB := burn cells b
  let tick := s.tick + 1
  let winner := winnerOf playerA.alive playerB.alive tick
  let (balanceA, balanceB) := match winner with
    | some (.seat .A) => (s.total, 0)
    | some (.seat .B) => (0, s.total)
    | some .draw | none => (s.balanceA, s.balanceB)
  pure
    { s with tick, grid, playerA, playerB, bombs := remaining, winner, balanceA, balanceB }

def initialState (ctx : ProtocolContext) : BombItState where
  tick := 0
  seed := seedFromTunnelId ctx.tunnelId
  grid := buildGrid (seedFromTunnelId ctx.tunnelId)
  playerA := ⟨1, 1, true⟩
  playerB := ⟨gridH - 2, gridW - 2, true⟩
  bombs := []
  winner := none
  balanceA := ctx.initialBalances.a
  balanceB := ctx.initialBalances.b
  total := ctx.initialBalances.a + ctx.initialBalances.b

def encodePlayer (p : BombItPlayer) : Except String Bytes := do
  let place ← u64s [p.row, p.col]
  pure (place ++ [if p.alive then 1 else 0])

def encodeBomb (bombs : List BombItBomb) (owner : Party) (slot : UInt8) :
    Except String Bytes :=
  match bombs.find? (fun b => decide (b.owner = owner)) with
  | some b => do
    let fields ← u64s [b.row, b.col, b.fuse]
    pure ([1] ++ fields ++ [slot])
  | none => do
    let fields ← u64s [0, 0, 0]
    pure ([0] ++ fields ++ [slot])

def winnerCode : Option BombItWinner → UInt8
  | some (.seat .A) => 1
  | some (.seat .B) => 2
  | some .draw => 3
  | none => 0

def encodeState (s : BombItState) : Except String Bytes := do
  let numbers ← u64s [s.tick, s.seed, s.balanceA, s.balanceB]
  let playerA ← encodePlayer s.playerA
  let playerB ← encodePlayer s.playerB
  let bombA ← encodeBomb s.bombs .A 0
  let bombB ← encodeBomb s.bombs .B 1
  pure (protocolDomain "bomb_it.v1" ++ numbers ++ s.grid ++ playerA ++ playerB ++ bombA ++
    bombB ++ [winnerCode s.winner])

def protocol : Protocol BombItState BombItMove where
  name := "bomb_it.v1"
  initialState := initialState
  applyMove := applyMove
  encodeState := encodeState
  balances s := ⟨s.balanceA, s.balanceB⟩
  isTerminal := isTerminal

/-- A decided duel takes no more moves. -/
theorem frozen_of_terminal {s : BombItState} (h : protocol.isTerminal s = true) :
    protocol.Frozen s := by
  rintro move party ⟨next, hnext⟩
  simp only [protocol, applyMove, returned] at hnext h
  rw [h] at hnext
  exact Bool.noConfusion hnext.1

end BombIt

end DopamintArena.Games
