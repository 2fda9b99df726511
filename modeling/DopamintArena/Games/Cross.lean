import DopamintArena.Games.Random

/-!
`protocol/cross.ts`: a two-party lane-hopper race. One accepted move is one
tick of the world. Where the hazards of a lane stand is floating-point
arithmetic on seeded phases and speeds; it enters as a parameter (`Hazards`)
that says whether a hazard covers a column, and everything else is modelled.
-/

namespace DopamintArena.Games

open Foundation Engine

inductive CrossDir
  | north
  | south
  | east
  | west
deriving DecidableEq

inductive CrossLaneKind
  | grass
  | road
  | water
  | rails
deriving DecidableEq

structure CrossPlayer where
  lane : Int
  col : Int
  score : Int
  invulnTicks : Int
deriving DecidableEq

structure CrossState where
  tick : Int
  seed : Int
  playerA : CrossPlayer
  playerB : CrossPlayer
  winner : Option Party
  balanceA : Int
  balanceB : Int
  total : Int
deriving DecidableEq

structure CrossMove where
  dirA : Option CrossDir
  dirB : Option CrossDir
deriving DecidableEq

namespace Cross

def columnCount : Int := 9
def spawnCol : Int := 4
def winLane : Int := 600
def tickCap : Int := 5400
def respawnInvuln : Int := 3

/-- Whether some span of `hazardsAt seed lane tick` covers the column. -/
abbrev Hazards := (seed lane tick col : Int) → Bool

def laneKind (lane : Int) : CrossLaneKind :=
  if lane < 2 then .grass
  else
    let k := (lane - 2).tmod 6
    if k = 0 ∨ k = 1 then .road
    else if k = 2 then .water
    else if k = 3 then .rails
    else .grass

variable (hazards : Hazards)

def isLethal (seed col lane tick : Int) : Bool :=
  if lane < 0 then true
  else
    match laneKind lane with
    | .grass => false
    | .water => !hazards seed lane tick col
    | .road | .rails => hazards seed lane tick col

def destOf (lane col : Int) : CrossDir → Int × Int
  | .north => (lane + 1, col)
  | .south => (max 0 (lane - 1), col)
  | .east => (lane, min (columnCount - 1) (col + 1))
  | .west => (lane, max 0 (col - 1))

def spawnPlayer : CrossPlayer := ⟨0, spawnCol, 0, 0⟩

/-- Where the optional hop leaves the player: a hop into a lethal cell is refused. -/
def hop (seed : Int) (p : CrossPlayer) (dir : Option CrossDir) (tick : Int) : Int × Int :=
  match dir with
  | none => (p.lane, p.col)
  | some dir =>
    let dest := destOf p.lane p.col dir
    if isLethal hazards seed dest.2 dest.1 tick then (p.lane, p.col) else dest

def stepPlayer (seed : Int) (p : CrossPlayer) (dir : Option CrossDir) (tick : Int) :
    CrossPlayer :=
  if 0 < p.invulnTicks then { p with invulnTicks := p.invulnTicks - 1 }
  else
    let (lane, col) := hop hazards seed p dir tick
    let score := max p.score lane
    if isLethal hazards seed col lane tick then ⟨0, spawnCol, score, respawnInvuln⟩
    else ⟨lane, col, score, 0⟩

/-- A's share if the race is halted here. BigInt division truncates. -/
def settleShare (total scoreA scoreB : Int) : Int :=
  let lead := max (-winLane) (min winLane (scoreA - scoreB))
  (total * (winLane + lead)).tdiv (2 * winLane)

def initialState (ctx : ProtocolContext) : CrossState where
  tick := 0
  seed := seedFromTunnelId ctx.tunnelId
  playerA := spawnPlayer
  playerB := spawnPlayer
  winner := none
  balanceA := ctx.initialBalances.a
  balanceB := ctx.initialBalances.b
  total := ctx.initialBalances.a + ctx.initialBalances.b

def isTerminal (s : CrossState) : Bool :=
  s.winner.isSome || decide (tickCap ≤ s.tick)

def byScore (a b : CrossPlayer) : Option Party :=
  if b.score < a.score then some .A
  else if a.score < b.score then some .B
  else none

def winnerOf (a b : CrossPlayer) (tick : Int) : Option Party :=
  if winLane ≤ a.lane ∧ winLane ≤ b.lane then byScore a b
  else if winLane ≤ a.lane then some .A
  else if winLane ≤ b.lane then some .B
  else if tickCap ≤ tick then byScore a b
  else none

def applyMove (state : CrossState) (move : CrossMove) (byParty : Party) :
    Except String CrossState := do
  require (isTerminal state = false) "game over: the race is already decided"
  require (¬(byParty = .A ∧ move.dirB.isSome = true)) "A cannot submit B's direction"
  require (¬(byParty = .B ∧ move.dirA.isSome = true)) "B cannot submit A's direction"
  let tick := state.tick + 1
  let a := stepPlayer hazards state.seed state.playerA move.dirA tick
  let b := stepPlayer hazards state.seed state.playerB move.dirB tick
  let winner := winnerOf a b tick
  let balanceA := match winner with
    | some .A => state.total
    | some .B => 0
    | none => settleShare state.total a.score b.score
  let balanceB := match winner with
    | some .A => 0
    | some .B => state.total
    | none => state.total - balanceA
  pure { state with tick, playerA := a, playerB := b, winner, balanceA, balanceB }

def encodePlayer (p : CrossPlayer) : Except String Bytes := do
  let lane ← u64ToBeBytes p.lane
  let col ← u64ToBeBytes p.col
  let score ← u64ToBeBytes p.score
  let invulnTicks ← u64ToBeBytes p.invulnTicks
  pure (lane ++ col ++ score ++ invulnTicks)

def encodeState (s : CrossState) : Except String Bytes := do
  let tick ← u64ToBeBytes s.tick
  let seed ← u64ToBeBytes s.seed
  let balanceA ← u64ToBeBytes s.balanceA
  let balanceB ← u64ToBeBytes s.balanceB
  let a ← encodePlayer s.playerA
  let b ← encodePlayer s.playerB
  let winner : UInt8 := match s.winner with
    | some .A => 1
    | some .B => 2
    | none => 0
  pure (protocolDomain "cross.v1" ++ tick ++ seed ++ balanceA ++ balanceB ++ a ++ b ++ [winner])

def protocol : Protocol CrossState CrossMove where
  name := "cross.v1"
  initialState := initialState
  applyMove := applyMove hazards
  encodeState := encodeState
  balances s := ⟨s.balanceA, s.balanceB⟩
  isTerminal := isTerminal

/-- A decided race takes no more moves. -/
theorem frozen_of_terminal {s : CrossState} (h : (protocol hazards).isTerminal s = true) :
    (protocol hazards).Frozen s := by
  rintro move party ⟨next, hnext⟩
  simp only [protocol, applyMove, returned] at hnext h
  rw [h] at hnext
  exact Bool.noConfusion hnext.1

end Cross

end DopamintArena.Games
