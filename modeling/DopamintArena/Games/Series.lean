import DopamintArena.Games.Caro
import DopamintArena.Games.TicTacToe

/-!
`ttt/multiGameProtocol.ts` and the series of `caro/protocol.ts`: a number of
games in one tunnel, with the balances carried from game to game. The inner game
always opens with party A; the wrapper gives every second game to party B.
-/

namespace DopamintArena.Games

open Foundation Engine

structure SeriesState (Inner : Type) where
  inner : Inner
  gamesPlayed : Int
  maxGames : Int
deriving DecidableEq

namespace Series

variable {Inner Move : Type}

/-- The inner game of a wrapper, what the wrapper reads and writes in it, and its texts. -/
structure Rules (Inner Move : Type) where
  name : String
  inner : Protocol Inner Move
  withTurn : Inner → Party → Inner
  stake : Inner → Int
  sessionOver : String
  maxGames : Int

def seriesOpener (gameIndex : Int) : Party :=
  if gameIndex % 2 = 0 then .A else .B

variable (rules : Rules Inner Move)

def initialState (ctx : ProtocolContext) : SeriesState Inner where
  inner := rules.withTurn (rules.inner.initialState ctx) (seriesOpener 0)
  gamesPlayed := 0
  maxGames := rules.maxGames

def canFundNextGame (inner : Inner) : Bool :=
  decide (rules.stake inner = 0 ∨
    rules.stake inner ≤ (rules.inner.balances inner).a ∧
      rules.stake inner ≤ (rules.inner.balances inner).b)

section

variable (state : SeriesState Inner)

def isTerminal : Bool :=
  rules.inner.isTerminal state.inner &&
    (decide (state.maxGames ≤ state.gamesPlayed + 1) || !canFundNextGame rules state.inner)

/-- The game after a finished one. -/
def nextGame : SeriesState Inner where
  inner := rules.withTurn
    (rules.inner.initialState ⟨"", rules.inner.balances state.inner⟩)
    (seriesOpener (state.gamesPlayed + 1))
  gamesPlayed := state.gamesPlayed + 1
  maxGames := state.maxGames

/-- Between games any move by either seat starts the next one. -/
def applyMove (move : Move) (byParty : Party) :
    Except String (SeriesState Inner) :=
  if rules.inner.isTerminal state.inner = false then do
    let inner ← rules.inner.applyMove state.inner move byParty
    pure { state with inner }
  else do
    require (isTerminal rules state = false) rules.sessionOver
    pure (nextGame rules state)

def encodeState : Except String Bytes := do
  let inner ← rules.inner.encodeState state.inner
  let gamesPlayed ← u64ToBeBytes state.gamesPlayed
  pure (protocolDomain rules.name ++ lengthPrefixedConcat [inner, gamesPlayed])

end

def protocol : Protocol (SeriesState Inner) Move where
  name := rules.name
  initialState := initialState rules
  applyMove := applyMove rules
  encodeState := encodeState rules
  balances state := rules.inner.balances state.inner
  isTerminal := isTerminal rules

variable {rules} {state next : SeriesState Inner} {move : Move} {byParty : Party}

theorem applyMove_ok_iff : applyMove rules state move byParty = .ok next ↔
    rules.inner.isTerminal state.inner = false ∧
        (∃ inner, rules.inner.applyMove state.inner move byParty = .ok inner ∧
          next = { state with inner }) ∨
      rules.inner.isTerminal state.inner = true ∧ isTerminal rules state = false ∧
        next = nextGame rules state := by
  unfold applyMove
  cases hinner : rules.inner.isTerminal state.inner with
  | false => simp only [if_pos, returned, Bool.false_eq_true, false_and, or_false, true_and]
  | true => simp only [Bool.true_eq_false, if_false, returned, false_and, false_or, true_and]

end Series

namespace MultiGameTicTacToe

def rules (hash : Hash) (maxGames stake : Int) : Series.Rules TicTacToeState TicTacToeMove where
  name := "tic_tac_toe.series.v2"
  inner := TicTacToe.protocol hash stake
  withTurn s turn := { s with turn }
  stake s := s.stake
  sessionOver := "session over: no more games can be played"
  maxGames := maxGames

/-- The constructor wants at least one game. -/
def protocol (hash : Hash) (maxGames stake : Int) :
    Protocol (SeriesState TicTacToeState) TicTacToeMove :=
  Series.protocol (rules hash maxGames stake)

end MultiGameTicTacToe

namespace MultiGameCaro

def rules (hash : Hash) (maxGames size stake : Int) : Series.Rules CaroState CaroMove where
  name := "caro.series.v2"
  inner := Caro.protocol hash size stake
  withTurn s turn := { s with turn }
  stake s := s.stake
  sessionOver := "caro session over: no more games can be played"
  maxGames := maxGames

def protocol (hash : Hash) (maxGames size stake : Int) :
    Protocol (SeriesState CaroState) CaroMove :=
  Series.protocol (rules hash maxGames size stake)

end MultiGameCaro

end DopamintArena.Games
