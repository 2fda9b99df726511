import DopamintArena.Games.Battleship
import DopamintArena.Games.Blackjack
import DopamintArena.Games.BombIt
import DopamintArena.Games.Cross
import DopamintArena.Games.QuantumPoker

/-!
The five games whose match hooks settle a tunnel, and when they are over: a
terminal state of any of them takes no more moves, except for the terminal
states of blackjack in the middle of a round.
-/

namespace DopamintArena.Games

open Engine

/-- The games that are settled by their match hooks. -/
inductive ArenaGame
  | blackjack
  | poker
  | battleship
  | cross
  | bombIt

/-- What the protocols are built from. -/
structure ArenaRules where
  hash : Hash
  playerPartyFor : Int → Party
  drawLimit : Nat
  handCap : Int
  ante : Int
  stake : Int
  hazards : Cross.Hazards

namespace ArenaGame

abbrev State : ArenaGame → Type
  | .blackjack => BlackjackState
  | .poker => PokerState
  | .battleship => BattleshipState
  | .cross => CrossState
  | .bombIt => BombItState

abbrev Move : ArenaGame → Type
  | .blackjack => BlackjackMove
  | .poker => PokerMove
  | .battleship => BattleshipMove
  | .cross => CrossMove
  | .bombIt => BombItMove

def protocol (rules : ArenaRules) : (game : ArenaGame) → Protocol game.State game.Move
  | .blackjack => Blackjack.protocol rules.playerPartyFor rules.hash rules.drawLimit
  | .poker => QuantumPoker.protocol rules.hash rules.handCap rules.ante
  | .battleship => Battleship.protocol rules.hash rules.stake
  | .cross => Cross.protocol rules.hazards
  | .bombIt => BombIt.protocol

/-- No round is being played. Only blackjack reports states as terminal in which one is. -/
def BetweenRounds : (game : ArenaGame) → game.State → Prop
  | .blackjack, state => BlackjackState.phase state = .roundOver
  | .poker, _ | .battleship, _ | .cross, _ | .bombIt, _ => True

theorem frozen_of_terminal {rules : ArenaRules} {game : ArenaGame} {state : game.State}
    (hterminal : (game.protocol rules).isTerminal state = true)
    (hround : game.BetweenRounds state) : (game.protocol rules).Frozen state := by
  cases game with
  | blackjack => exact Blackjack.frozen_of_terminal hterminal hround
  | poker => exact QuantumPoker.frozen_of_terminal hterminal
  | battleship => exact Battleship.frozen_of_terminal hterminal
  | cross => exact Cross.frozen_of_terminal rules.hazards hterminal
  | bombIt => exact BombIt.frozen_of_terminal hterminal

end ArenaGame

end DopamintArena.Games
