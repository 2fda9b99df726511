import DopamintArena.Games.BombIt
import DopamintArena.Games.Cross

/-!
`protocol/multiGameCross.ts` and its mirror `protocol/multiGameBombIt.ts`: many
games in one tunnel. The wrapper owns the carried balances and moves a fixed
stake from the loser to the winner of each decided game; the inner game runs
with balances of its own.
-/

namespace DopamintArena.Games

open Foundation Engine

structure MultiGameState (Inner : Type) where
  inner : Inner
  gamesPlayed : Int
  balanceA : Int
  balanceB : Int
deriving DecidableEq

namespace MultiGame

variable {Inner Move : Type}

/-- The fields and the inner protocol of a wrapper. -/
structure Rules (Inner Move : Type) where
  name : String
  inner : Protocol Inner Move
  winner : Inner → Option Party
  tunnelId : String
  stakePerGame : Int

variable (rules : Rules Inner Move)

def gameCtx (gameNumber : Int) : ProtocolContext where
  tunnelId := s!"{rules.tunnelId}:g{gameNumber}"
  initialBalances := ⟨rules.stakePerGame, rules.stakePerGame⟩

def initialState (ctx : ProtocolContext) : MultiGameState Inner where
  inner := rules.inner.initialState (gameCtx rules 1)
  gamesPlayed := 0
  balanceA := ctx.initialBalances.a
  balanceB := ctx.initialBalances.b

/-- Moves the stake from the loser to the winner. -/
def swap (a b : Int) : Option Party → Int × Int
  | some .A => (a + rules.stakePerGame, b - rules.stakePerGame)
  | some .B => (a - rules.stakePerGame, b + rules.stakePerGame)
  | none => (a, b)

section

variable (state : MultiGameState Inner)

def canFundNextGame : Bool :=
  decide (rules.stakePerGame = 0 ∨
    rules.stakePerGame ≤ state.balanceA ∧ rules.stakePerGame ≤ state.balanceB)

def isTerminal : Bool :=
  rules.inner.isTerminal state.inner && !canFundNextGame rules state

def applyMove (move : Move) (byParty : Party) :
    Except String (MultiGameState Inner) :=
  if rules.inner.isTerminal state.inner = false then do
    let nextInner ← rules.inner.applyMove state.inner move byParty
    if rules.inner.isTerminal nextInner = true then
      let (a, b) := swap rules state.balanceA state.balanceB (rules.winner nextInner)
      pure { inner := nextInner, gamesPlayed := state.gamesPlayed, balanceA := a, balanceB := b }
    else pure { state with inner := nextInner }
  else do
    require (isTerminal rules state = false)
      "session over: insufficient balance for another game"
    -- the move that starts a game is also its first move
    let inner ← rules.inner.applyMove
      (rules.inner.initialState (gameCtx rules (state.gamesPlayed + 2))) move byParty
    pure { state with inner, gamesPlayed := state.gamesPlayed + 1 }

def encodeState : Except String Bytes := do
  let inner ← rules.inner.encodeState state.inner
  let gamesPlayed ← u64ToBeBytes state.gamesPlayed
  let balanceA ← u64ToBeBytes state.balanceA
  let balanceB ← u64ToBeBytes state.balanceB
  pure (protocolDomain rules.name ++
    lengthPrefixedConcat [inner, gamesPlayed, balanceA, balanceB])

end

def protocol : Protocol (MultiGameState Inner) Move where
  name := rules.name
  initialState := initialState rules
  applyMove := applyMove rules
  encodeState := encodeState rules
  balances state := ⟨state.balanceA, state.balanceB⟩
  isTerminal := isTerminal rules

end MultiGame

namespace MultiGameCross

def rules (hazards : Cross.Hazards) (tunnelId : String) (stakePerGame : Int) :
    MultiGame.Rules CrossState CrossMove where
  name := "cross.multi.v1"
  inner := Cross.protocol hazards
  winner state := state.winner
  tunnelId := tunnelId
  stakePerGame := stakePerGame

def protocol (hazards : Cross.Hazards) (tunnelId : String) (stakePerGame : Int) :
    Protocol (MultiGameState CrossState) CrossMove :=
  MultiGame.protocol (rules hazards tunnelId stakePerGame)

end MultiGameCross

namespace MultiGameBombIt

/-- The seat that won a duel; a draw has none. -/
def winnerOf (state : BombItState) : Option Party :=
  match state.winner with
  | some (.seat party) => some party
  | some .draw | none => none

def rules (tunnelId : String) (stakePerGame : Int) : MultiGame.Rules BombItState BombItMove where
  name := "bomb_it.multi.v1"
  inner := BombIt.protocol
  winner := winnerOf
  tunnelId := tunnelId
  stakePerGame := stakePerGame

def protocol (tunnelId : String) (stakePerGame : Int) :
    Protocol (MultiGameState BombItState) BombItMove :=
  MultiGame.protocol (rules tunnelId stakePerGame)

end MultiGameBombIt

end DopamintArena.Games
